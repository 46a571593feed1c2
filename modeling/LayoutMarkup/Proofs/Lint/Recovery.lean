import LayoutMarkup.Proofs.Component.Sources
import LayoutMarkup.Proofs.Lint.Rules

/-!
# What the rules for utility classes make of a component

When the classes of a stack, a row or a grid are written into the class list of a plain element, the
rules for utility classes name the component again, with its gap or its number of columns. The rules
search the list for the first class that tells. The classes of a component hold at most one, so it
does not matter where it stands, only whether props or defaults bring it in.

## Main definitions

* `Component.rawWarnings` — the warnings of a rule about the classes of a component
* `Props.gapKey?`, `Props.columnCount?` — the gap and the number of columns that props come to

## Main results

* `Component.findSome?_keyOf?_classes` — the gap that the rules read off a stack or a row
* `Component.append_mem_classes_grid_iff` — the classes of columns that a grid has
* `Component.rawWarnings_classText` — stacks, rows and grids are recovered
-/

namespace LayoutMarkup

open Text

/-! ### Searching for a class that tells -/

/-- If all that a search can find is the same, it does not matter which comes first. -/
theorem findSome?_eq_of_forall {α β : Type*} {l : List α} {f : α → Option β} {o : Option β}
    (h : ∀ b, (∃ a ∈ l, f a = some b) ↔ o = some b) : l.findSome? f = o := by
  apply Option.ext
  intro b
  rw [← h]
  constructor
  · exact List.exists_of_findSome?_eq_some
  · rintro ⟨a, ha, hb⟩
    have hsome : ∃ a ∈ l, (f a).isSome = true := ⟨a, ha, by rw [hb, Option.isSome_some]⟩
    obtain ⟨b', hfound⟩ := Option.isSome_iff_exists.mp (List.findSome?_isSome_iff.mpr hsome)
    have hsame := ((h b').mp (List.exists_of_findSome?_eq_some hfound)).symm.trans
      ((h b).mp ⟨a, ha, hb⟩)
    rw [hfound, hsame]

/-- In the table of an axis every class has one key. -/
theorem Axis.keyOf?_eq_some_iff {axis : Axis} {key token : String} :
    axis.table.keyOf? token = some key ↔ axis.table.get? key = some token := by
  have hall : ∀ entry ∈ axis.table, axis.table.keyOf? entry.2 = some entry.1 := by
    cases axis <;> decide
  constructor
  · intro h
    obtain ⟨entry, hfind, rfl⟩ := Option.map_eq_some_iff.mp h
    obtain rfl : entry.2 = token := by simpa using List.find?_some hfind
    exact Component.get?_table_eq_some (List.mem_of_find?_eq_some hfind)
  · intro h
    exact hall _ (Axis.mem_table_of_get? h)

theorem Axis.eq_of_get?_table {axis : Axis} {key key' token : String}
    (h : axis.table.get? key = some token) (h' : axis.table.get? key' = some token) : key = key' :=
  Option.some.inj ((Axis.keyOf?_eq_some_iff.mpr h).symm.trans (Axis.keyOf?_eq_some_iff.mpr h'))

/-! ### The class list of a component -/

namespace Component

variable {component : Component} {props : Props}

/-- The classes of a component, as a class list, are what they were. -/
theorem tokens_ofText_classText (component : Component) (props : Props) :
    (ClassList.ofText (component.resolve props).classText).tokens =
      (component.resolve props).classes :=
  classTokens_intercalate fun _ h => isWord_of_mem_classes h

theorem has_ofText_classText {token : String} :
    (ClassList.ofText (component.resolve props).classText).has token = true ↔
      ClassSource component props token := by
  rw [ClassList.has, tokens_ofText_classText, List.contains_iff_mem, mem_classes_iff]

/-- The warnings of a rule about the classes of a component, when these are the class list of a plain
element. -/
def rawWarnings (component : Component) (props : Props) (line : Nat) (empty : Bool)
    (rule : LintRule) : List Warning :=
  (lintClasses (component.resolve props).classText line empty).filter (·.rule = rule)

end Component

/-! ### The gap -/

namespace Props

variable {props : Props} {key : String}

/-- The key of the gap that a stack or a row has: that of the prop, if it is given as a key of the
table. A prop with another value leaves no gap. If there is none, the gap is the default, unless the
component is centered. -/
def gapKey? (props : Props) : Option String :=
  match props.get? Axis.gap.prop with
  | some (.text key) => if key ∈ Axis.gap.table.keys then some key else none
  | some (.number _) => none
  | _ => if props.hasFlag centerFlag then none else some "md"

/-- The gap of a stack or a row, as it is written in a tag. -/
def gapWritten (props : Props) : String :=
  match props.gapKey? with
  | some key => " gap=\"" ++ key ++ "\""
  | none => ""

theorem gapKey?_eq_some_iff : props.gapKey? = some key ↔
    (props.text? Axis.gap.prop = some key ∧ key ∈ Axis.gap.table.keys) ∨
      (key = "md" ∧ props.isValued Axis.gap.prop = false ∧ props.hasFlag centerFlag = false) := by
  have hnoValue : (if props.hasFlag centerFlag then none else some "md") = some key ↔
      key = "md" ∧ props.hasFlag centerFlag = false := by
    cases props.hasFlag centerFlag <;> simp [@eq_comm _ "md"]
  unfold gapKey? isValued text? number?
  rcases props.get? Axis.gap.prop with _ | _ | value | n
  · simpa using hnoValue
  · simpa using hnoValue
  · simp only [Option.ite_none_right_eq_some, Option.some.injEq, Option.isSome_some, Bool.true_or,
      Bool.true_eq_false, false_and, and_false, or_false]
    constructor
    · rintro ⟨hkey, rfl⟩
      exact ⟨rfl, hkey⟩
    · rintro ⟨rfl, hkey⟩
      exact ⟨hkey, rfl⟩
  · simp

end Props

namespace Component

variable {component : Component} {props : Props}

/-- The gap that the rules read off a stack or a row. -/
theorem findSome?_keyOf?_classes (hcomponent : component = .stack ∨ component = .row)
    (hclass : props.text? classNameProp = none) :
    (component.resolve props).classes.findSome? Axis.gap.table.keyOf? = props.gapKey? := by
  have hcentered := isCentered_eq hcomponent props
  apply findSome?_eq_of_forall
  intro key
  simp only [mem_classes_iff, Axis.keyOf?_eq_some_iff, Props.gapKey?_eq_some_iff]
  constructor
  · rintro ⟨token, hsource, htoken⟩
    -- No flag and no fixed default brings a gap in, and no class list was given.
    rcases hsource.of_stem_isPrefix (show Axis.gap ∈ Axis.exclusive by decide)
        (Axis.stem_isPrefix_of_get?_table htoken) with
      ⟨value, hvalue, -⟩ | ⟨key', hkey', htoken'⟩ | ⟨hcols, -⟩ |
        ⟨key', hentry, htoken', hvalued, hcenter⟩
    · rw [hclass] at hvalue
      cases hvalue
    · obtain rfl := Axis.eq_of_get?_table htoken htoken'
      exact Or.inl ⟨hkey', Axis.mem_keys_of_get?_table htoken⟩
    · cases hcols
    · obtain rfl := Axis.eq_of_get?_table htoken htoken'
      exact Or.inr ⟨(gap_mem_axisDefaults_iff hcomponent).mp hentry, hvalued, hcentered ▸ hcenter⟩
  · rintro (⟨htext, hkey⟩ | ⟨rfl, hvalued, hflag⟩)
    · obtain ⟨token, htoken⟩ := Option.isSome_iff_exists.mp (Axis.isSome_get?_table_iff.mpr hkey)
      exact ⟨token, .key htext htoken, htoken⟩
    · exact ⟨"gap-4", .axisDefault ((gap_mem_axisDefaults_iff hcomponent).mpr rfl) rfl hvalued
        (hcentered.trans hflag), rfl⟩

theorem gapProp_ofText_classText (hcomponent : component = .stack ∨ component = .row)
    (hclass : props.text? classNameProp = none) :
    (ClassList.ofText (component.resolve props).classText).gapProp = props.gapWritten := by
  rw [ClassList.gapProp, tokens_ofText_classText, findSome?_keyOf?_classes hcomponent hclass]
  rfl

end Component

/-! ### The number of columns -/

namespace Props

variable {props : Props} {count : String}

/-- The number of columns that props come to: a number from one on, or a key of the table. -/
def columnCount? (props : Props) : Option String :=
  match props.get? Axis.cols.prop with
  | some (.number n) => if 1 ≤ n then some (toString n.toNat) else none
  | some (.text key) => if key ∈ Axis.cols.table.keys then some key else none
  | _ => none

theorem columnCount?_eq_some_iff : props.columnCount? = some count ↔
    (∃ n, props.number? Axis.cols.prop = some n ∧ 1 ≤ n ∧ toString n.toNat = count) ∨
      (props.text? Axis.cols.prop = some count ∧ count ∈ Axis.cols.table.keys) := by
  unfold columnCount? text? number?
  rcases props.get? Axis.cols.prop with _ | _ | value | n
  · simp
  · simp
  · simp only [Option.ite_none_right_eq_some, Option.some.injEq]
    constructor
    · rintro ⟨hkey, rfl⟩
      exact Or.inr ⟨rfl, hkey⟩
    · rintro (⟨n, hn, -⟩ | ⟨rfl, hkey⟩)
      · cases hn
      · exact ⟨hkey, rfl⟩
  · simp

end Props

namespace Component

variable {props : Props} {token count : String}

theorem columnsOf?_append (text : String) :
    ClassList.columnsOf? (columnStem ++ text) = Decimal.readSigned? text.toList := by
  rw [ClassList.columnsOf?, String.toList_append, if_pos (by simp), List.drop_left]

theorem stem_isPrefix_of_columnsOf? {n : UInt32} (h : ClassList.columnsOf? token = some n) :
    columnStem.toList <+: token.toList := by
  rw [ClassList.columnsOf?, Option.ite_none_right_eq_some, List.isPrefixOf_iff_prefix] at h
  exact h.1

/-- The number of columns that a class states is that for which it is made. -/
theorem columnsOf?_append_of_columnCount? (h : props.columnCount? = some count) :
    (ClassList.columnsOf? (columnStem ++ count)).map (fun n => toString n.toNat) = some count := by
  rcases Props.columnCount?_eq_some_iff.mp h with ⟨n, -, -, rfl⟩ | ⟨-, hkey⟩
  · have hwritten : (toString n.toNat).toList = Decimal.write n.toNat := String.toList_ofList
    rw [columnsOf?_append, hwritten, Decimal.readSigned?_write, Option.map_some]
  · have hall : ∀ key ∈ Axis.cols.table.keys,
        (ClassList.columnsOf? (columnStem ++ key)).map (fun n => toString n.toNat) = some key := by
      decide
    exact hall count hkey

/-- A class of columns is that of the number of columns. -/
theorem eq_append_of_stem_isPrefix (hclass : props.text? classNameProp = none)
    (hstem : columnStem.toList <+: token.toList) (h : ClassSource .grid props token) :
    ∃ count, props.columnCount? = some count ∧ columnStem ++ count = token := by
  rcases h.of_stem_isPrefix (show Axis.cols ∈ Axis.exclusive by decide) hstem with
    ⟨value, hvalue, -⟩ | ⟨key, hkey, htoken⟩ | ⟨-, n, hn, htoken⟩ | ⟨key, hentry, -⟩
  · rw [hclass] at hvalue
    cases hvalue
  · obtain ⟨hmem, heq⟩ := Axis.get?_cols_eq_some_iff.mp htoken
    exact ⟨key, Props.columnCount?_eq_some_iff.mpr (Or.inr ⟨hkey, hmem⟩), heq⟩
  · obtain ⟨hpos, heq⟩ := columnClass?_eq_some_iff.mp htoken
    exact ⟨toString n.toNat, Props.columnCount?_eq_some_iff.mpr (Or.inl ⟨n, hn, hpos, rfl⟩), heq⟩
  · simp [rule] at hentry

/-- The class of the number of columns is there. -/
theorem classSource_of_columnCount? (h : props.columnCount? = some count) :
    ClassSource .grid props (columnStem ++ count) := by
  rcases Props.columnCount?_eq_some_iff.mp h with ⟨n, hn, hpos, rfl⟩ | ⟨htext, hkey⟩
  · exact .columns hn (columnClass?_eq_some_iff.mpr ⟨hpos, rfl⟩)
  · exact .key htext (Axis.get?_cols_eq_some_iff.mpr ⟨hkey, rfl⟩)

/-- The classes of columns that a grid has. -/
theorem append_mem_classes_grid_iff (hclass : props.text? classNameProp = none) :
    columnStem ++ count ∈ (grid.resolve props).classes ↔ props.columnCount? = some count := by
  rw [mem_classes_iff]
  constructor
  · intro hsource
    obtain ⟨count', hcount, heq⟩ := eq_append_of_stem_isPrefix hclass (by simp) hsource
    rw [hcount, (String.append_right_inj columnStem).mp heq]
  · exact classSource_of_columnCount?

/-- The number of columns that the rules read off a grid. -/
theorem columns?_ofText_classText (hclass : props.text? classNameProp = none) :
    (ClassList.ofText (grid.resolve props).classText).columns?.map (fun n => toString n.toNat) =
      props.columnCount? := by
  rw [ClassList.columns?, tokens_ofText_classText, List.map_findSome?]
  apply findSome?_eq_of_forall
  intro count
  constructor
  · rintro ⟨token, htoken, hcount⟩
    -- A class that states a number begins as those of columns do, so it is that of the count.
    obtain ⟨n, hn, hwritten⟩ := Option.map_eq_some_iff.mp hcount
    obtain ⟨count', hcount', rfl⟩ := eq_append_of_stem_isPrefix hclass
      (stem_isPrefix_of_columnsOf? hn) (mem_classes_iff.mp htoken)
    rw [hcount', ← columnsOf?_append_of_columnCount? hcount', hn, ← hwritten]
    rfl
  · intro hcount
    exact ⟨columnStem ++ count, mem_classes_iff.mpr (classSource_of_columnCount? hcount),
      columnsOf?_append_of_columnCount? hcount⟩

/-! ### The rules -/

theorem rawWarnings_preferStack (line : Nat) (empty : Bool)
    (hclass : props.text? classNameProp = none) :
    stack.rawWarnings props line empty .preferStack =
      [(ClassList.ofText (stack.resolve props).classText).prefer .preferStack line
        ("<Stack" ++ props.gapWritten ++ ">")] := by
  have hflex : ClassSource .stack props "flex" := .base (by decide) (by simp [rule])
  have hcol : ClassSource .stack props "flex-col" := .base (by decide) (by simp [rule])
  have hfound := (foundBy_lintClasses (.ofText (stack.resolve props).classText) line empty).filter_rule
    (by decide)
    (show (lintStack (.ofText (stack.resolve props).classText) line, LintRule.preferStack) ∈ _ by simp)
  rw [rawWarnings, lintClasses, hfound, lintStack,
    has_ofText_classText.mpr hflex, has_ofText_classText.mpr hcol,
    gapProp_ofText_classText (Or.inl rfl) hclass]
  rfl

theorem rawWarnings_preferRow (line : Nat) (empty : Bool)
    (hclass : props.text? classNameProp = none) (hreverse : props.hasFlag "reverse" = false) :
    row.rawWarnings props line empty .preferRow =
      [(ClassList.ofText (row.resolve props).classText).prefer .preferRow line
        ("<Row" ++ props.gapWritten ++ ">")] := by
  have hflex : ClassSource .row props "flex" := .base (by decide) (by simp [rule])
  have hrow : ClassSource .row props "flex-row" := .base (by decide) (by simp [rule, hreverse])
  have hfound := (foundBy_lintClasses (.ofText (row.resolve props).classText) line empty).filter_rule
    (by decide)
    (show (lintRow (.ofText (row.resolve props).classText) line, LintRule.preferRow) ∈ _ by simp)
  rw [rawWarnings, lintClasses, hfound, lintRow,
    has_ofText_classText.mpr hflex, has_ofText_classText.mpr hrow,
    gapProp_ofText_classText (Or.inr rfl) hclass]
  rfl

theorem rawWarnings_preferGrid (line : Nat) (empty : Bool)
    (hclass : props.text? classNameProp = none) :
    grid.rawWarnings props line empty .preferGrid = (props.columnCount?.map fun count =>
      (ClassList.ofText (grid.resolve props).classText).prefer .preferGrid line
        ("<Grid cols=" ++ bracedText count ++ ">")).toList := by
  have hgrid : ClassSource .grid props "grid" := .base (by decide) (by simp [rule])
  have hfound := (foundBy_lintClasses (.ofText (grid.resolve props).classText) line empty).filter_rule
    (by decide)
    (show (lintGrid (.ofText (grid.resolve props).classText) line, LintRule.preferGrid) ∈ _ by simp)
  rw [rawWarnings, lintClasses, hfound, lintGrid,
    has_ofText_classText.mpr hgrid, ← columns?_ofText_classText hclass, Option.map_map]
  rfl

/-- When no class list was given, the rules for utility classes name stacks, rows and grids again:
a stack and a row with their gap, and a grid, if it has a class of columns, with their number. -/
theorem rawWarnings_classText (hclass : props.text? classNameProp = none) (line : Nat)
    (empty : Bool) :
    (stack.rawWarnings props line empty .preferStack =
      [(ClassList.ofText (stack.resolve props).classText).prefer .preferStack line
        ("<Stack" ++ props.gapWritten ++ ">")]) ∧
    (props.hasFlag "reverse" = false → row.rawWarnings props line empty .preferRow =
      [(ClassList.ofText (row.resolve props).classText).prefer .preferRow line
        ("<Row" ++ props.gapWritten ++ ">")]) ∧
    (grid.rawWarnings props line empty .preferGrid = (props.columnCount?.map fun count =>
      (ClassList.ofText (grid.resolve props).classText).prefer .preferGrid line
        ("<Grid cols=" ++ bracedText count ++ ">")).toList) ∧
    ∀ count, columnStem ++ count ∈ (grid.resolve props).classes ↔
      props.columnCount? = some count :=
  ⟨rawWarnings_preferStack line empty hclass, rawWarnings_preferRow line empty hclass,
    rawWarnings_preferGrid line empty hclass, fun _ => append_mem_classes_grid_iff hclass⟩

/-- A gap that is given counts although the component is centered, and a number of columns may be as
large as numbers go. -/
theorem rawWarnings_classText_wide :
    let props : Props := .ofList [⟨"cols", .number 4294967295⟩, ⟨"center", .flag⟩,
      ⟨"gap", .text "2xl"⟩]
    (props.text? classNameProp = none ∧ props.hasFlag "reverse" = false) ∧
      (stack.rawWarnings props 3 true .preferStack).map (·.fix) = [some "<Stack gap=\"2xl\">"] ∧
      (row.rawWarnings props 3 true .preferRow).map (·.fix) = [some "<Row gap=\"2xl\">"] ∧
      (grid.rawWarnings props 3 true .preferGrid).map (·.fix) =
        [some "<Grid cols={4294967295}>"] := by
  intro props
  have hclass : props.text? classNameProp = none := by decide
  have hreverse : props.hasFlag "reverse" = false := by decide
  obtain ⟨hstack, hrow, hgrid, -⟩ := rawWarnings_classText hclass 3 true
  rw [hstack, hrow hreverse, hgrid]
  exact ⟨⟨hclass, hreverse⟩, by decide, by decide, by decide⟩

end Component

end LayoutMarkup

import LayoutMarkup.Proofs.Lint.Recovery
import LayoutMarkup.Proofs.Report.Written

/-!
# What becomes of suggested markup

The markup that a rule suggests is a document of one tag, and a report can be made of it. The rules
for utility classes name a component with at most one prop, whose value they read off the class
list. The component has the classes for which it was named, with one exception: a number of columns
is read off a class in more forms than the component writes it in, and no columns at all have no
class. The rules for components have nothing against what is suggested, with one exception again: a
gap of nothing is suggested, and then found to be unnecessary.

## Main definitions

* `Component.reportOf` — what is reported of one tag of a component
* `ClassList.firstGap?` — the first class of a list that is in the table of gaps
* `ClassList.Suggests` — the component and the props that a rule names for a class list
* `ClassList.CarriedBy` — whether classes hold those for which a rule names a component

## Main results

* `exists_suggests_of_mem_lintClasses` — all that the rules for utility classes can suggest
* `ClassList.carriedBy_fix` — which classes suggested markup has
* `warnings_fix` — which warnings there are about suggested markup
-/

namespace LayoutMarkup

open Text

variable {component : Component} {props : Props} {entries : List Attribute} {tag : Tag}
  {source token key : String} {classes : ClassList} {rule : LintRule} {line : Nat} {empty : Bool}
  {n : UInt32}

/-! ### Reports on one tag -/

/-- What is reported of a document that is one tag of a component with props. -/
def Component.reportOf (component : Component) (props : Props) : Report :=
  ⟨[component.resolve props], lintProps component (component.resolve props).props 1⟩

theorem Report.ofSource_eq_reportOf (hwf : tag.WellFormed) (hsource : tag.source = source.toList)
    (hopening : tag.isOpening = true) (hname : tag.name = component.name) :
    ofSource source = component.reportOf tag.props := by
  have hresolve : resolve? tag.name tag.props = some (component.resolve tag.props) := by
    rw [resolve?, hname, Component.ofName?_name, Option.map_some]
  have hfindings : Document.findingsOf source = [.component 1 (component.resolve tag.props)] := by
    rw [Document.findingsOf_eq_of_source hwf hsource, Tag.finding?, if_pos hopening, hresolve]
    rfl
  rw [ofSource, hfindings]
  simp [Finding.resolution?, Finding.warnings, Component.reportOf, Component.resolve]

/-- The report on the opening tag of a component with values that are written out. -/
theorem Report.ofSource_written (component : Component)
    (hwritable : ∀ entry ∈ entries, entry.Writable)
    (hplain : ∀ entry ∈ entries, ∀ value, entry.value = .text value → IsPlain value.toList)
    (hvalued : ∀ entry ∈ entries, entry.value.isFlag = false)
    (hnames : (entries.map Attribute.name).Nodup) :
    ofSource ("<" ++ component.name ++ String.ofList (entries.flatMap Attribute.written) ++ ">") =
      component.reportOf (.ofList entries) := by
  have hprops : (Tag.withAttributes component.name.toList entries).props = .ofList entries := by
    obtain ⟨hflags, hvalues⟩ := Props.filter_isFlag_of_valued hvalued
    apply Props.ext
    rw [Tag.entries_props_withAttributes hwritable hnames, hflags, hvalues, List.append_nil,
      Props.entries_ofList entries hnames]
  rw [← hprops]
  apply ofSource_eq_reportOf
  · exact Tag.wellFormed_withAttributes component.isName_name hwritable hplain
  · simp [Tag.withAttributes, Tag.source]
  · rw [Tag.isOpening,
      Tag.kind_withAttributes fun entry hentry _ => (hwritable entry hentry).isName]
    rfl
  · exact String.ofList_toList

/-! ### The gap of a class list -/

theorem Axis.keyOf?_eq_none {axis : Axis} (h : token ∉ axis.table.tokens) :
    axis.table.keyOf? token = none := by
  rw [ClassTable.keyOf?, Option.map_eq_none_iff, List.find?_eq_none]
  intro entry hentry hkey
  exact h (List.mem_map.mpr ⟨entry, hentry, by simpa using hkey⟩)

theorem Axis.exists_keyOf?_eq_some {axis : Axis} (h : token ∈ axis.table.tokens) :
    ∃ key, (key, token) ∈ axis.table ∧ axis.table.keyOf? token = some key := by
  obtain ⟨⟨key, token⟩, hentry, rfl⟩ := List.mem_map.mp h
  exact ⟨key, hentry, keyOf?_eq_some_iff.mpr (Component.get?_table_eq_some hentry)⟩

namespace ClassList

/-- The first class of a list that is in the table of gaps. -/
def firstGap? (classes : ClassList) : Option String :=
  classes.tokens.find? (· ∈ Axis.gap.table.tokens)

/-- The prop for the gap of a class list, if the list has one. -/
def gapEntries (classes : ClassList) : List Attribute :=
  (classes.firstGap?.bind Axis.gap.table.keyOf?).toList.map (⟨Axis.gap.prop, .text ·⟩)

/-- The key of the first class with a key is that of the first gap. -/
theorem findSome?_keyOf?_tokens (classes : ClassList) :
    classes.tokens.findSome? Axis.gap.table.keyOf? =
      classes.firstGap?.bind Axis.gap.table.keyOf? := by
  rw [firstGap?]
  -- Both searches pass over the same classes, those that are not in the table.
  induction classes.tokens with
  | nil => rfl
  | cons token tokens ih =>
    by_cases htoken : token ∈ Axis.gap.table.tokens
    · obtain ⟨key, -, hkey⟩ := Axis.exists_keyOf?_eq_some htoken
      rw [List.findSome?_cons, hkey, List.find?_cons_of_pos (by simpa using htoken),
        Option.bind_some, hkey]
    · rw [List.findSome?_cons, Axis.keyOf?_eq_none htoken, ih,
        List.find?_cons_of_neg (by simpa using htoken)]

/-- A class list has no gap, or its first gap has a key in the table. -/
theorem gap_cases (classes : ClassList) :
    (classes.firstGap? = none ∧ classes.gapEntries = [] ∧ classes.gapProp = "") ∨
      ∃ key token, classes.firstGap? = some token ∧ (key, token) ∈ Axis.gap.table ∧
        classes.gapEntries = [⟨Axis.gap.prop, .text key⟩] ∧
        classes.gapProp = " gap=\"" ++ key ++ "\"" := by
  rw [gapEntries, gapProp, findSome?_keyOf?_tokens]
  cases hgap : classes.firstGap? with
  | none => exact Or.inl ⟨rfl, rfl, rfl⟩
  | some token =>
    have htoken : token ∈ Axis.gap.table.tokens := by simpa using List.find?_some hgap
    obtain ⟨key, hentry, hkey⟩ := Axis.exists_keyOf?_eq_some htoken
    rw [Option.bind_some, hkey]
    exact Or.inr ⟨key, token, rfl, hentry, rfl, rfl⟩

/-! ### Suggestions -/

/-- The component and the props that a rule for utility classes names for a class list, and when it
does so. -/
inductive Suggests (classes : ClassList) (empty : Bool) :
    LintRule → Component → List Attribute → Prop
  | stack : classes.has "flex" = true → classes.has "flex-col" = true →
      Suggests classes empty .preferStack .stack classes.gapEntries
  | row : classes.has "flex" = true →
      (classes.has "flex-row" || (classes.setsGap && !classes.has "flex-col")) = true →
      Suggests classes empty .preferRow .row classes.gapEntries
  | center : classes.has "flex" = true → classes.has "items-center" = true →
      classes.has "justify-center" = true → Suggests classes empty .preferCenter .center []
  | spread : classes.has "flex" = true → classes.has "justify-between" = true →
      Suggests classes empty .preferSpread .spread []
  | grid {n : UInt32} : classes.has "grid" = true → classes.columns? = some n →
      Suggests classes empty .preferGrid .grid [⟨Axis.cols.prop, .number n⟩]
  | spacer : empty = true → classes.has "flex-1" = true →
      Suggests classes empty .preferSpacer .spacer []

theorem gapProp_eq_written (classes : ClassList) :
    classes.gapProp = String.ofList (classes.gapEntries.flatMap Attribute.written) := by
  apply String.toList_injective
  rcases classes.gap_cases with ⟨-, hentries, hprop⟩ | ⟨key, token, -, -, hentries, hprop⟩
  · rw [hentries, hprop]
    rfl
  · rw [hentries, hprop]
    simp [Attribute.written, Attribute.Item.ofAttribute, Attribute.Item.source, Axis.prop]

/-- A component is suggested with the gap of a class list. -/
theorem ofSource_gapProp (classes : ClassList) (component : Component) :
    Report.ofSource ("<" ++ component.name ++ classes.gapProp ++ ">") =
      component.reportOf (.ofList classes.gapEntries) := by
  rw [gapProp_eq_written]
  rcases classes.gap_cases with ⟨-, hentries, -⟩ | ⟨key, token, -, hentry, hentries, -⟩
  · rw [hentries]
    exact Report.ofSource_written component (List.forall_mem_nil _) (List.forall_mem_nil _)
      (List.forall_mem_nil _) List.nodup_nil
  · -- The keys of gaps can all stand between quotation marks inside a tag.
    have hall : ∀ entry ∈ Axis.gap.table,
        (⟨Axis.gap.prop, .text entry.1⟩ : Attribute).Writable ∧
          entry.1.toList.all isPlain = true := by
      decide
    obtain ⟨hwritable, hplain⟩ := hall _ hentry
    rw [hentries]
    apply Report.ofSource_written component
    · exact List.forall_mem_singleton.mpr hwritable
    · rw [List.forall_mem_singleton]
      rintro value ⟨⟩
      exact List.all_eq_true.mp hplain
    · exact List.forall_mem_singleton.mpr rfl
    · exact List.nodup_singleton _

/-- A grid is suggested with a number of columns. -/
theorem ofSource_columns (n : UInt32) :
    Report.ofSource ("<Grid cols=" ++ bracedText (String.ofList (Decimal.write n.toNat)) ++ ">") =
      Component.grid.reportOf (.ofList [⟨Axis.cols.prop, .number n⟩]) := by
  have hwritten : "<Grid cols=" ++ bracedText (String.ofList (Decimal.write n.toNat)) ++ ">" =
      "<" ++ Component.grid.name
        ++ String.ofList ([⟨Axis.cols.prop, .number n⟩].flatMap Attribute.written) ++ ">" := by
    apply String.toList_injective
    simp [Attribute.written, Attribute.Item.ofAttribute, Attribute.Item.source, Axis.prop,
      Component.name]
  have hname : Attribute.IsName Axis.cols.prop.toList := by decide
  rw [hwritten]
  apply Report.ofSource_written
  · refine List.forall_mem_singleton.mpr ⟨hname, fun value hvalue => ?_⟩
    cases hvalue
  · rw [List.forall_mem_singleton]
    rintro value ⟨⟩
  · exact List.forall_mem_singleton.mpr rfl
  · exact List.nodup_singleton _

end ClassList

/-- All that the rules for utility classes can suggest, with what is reported of it. -/
theorem exists_suggests_of_mem_lintClasses {text : String} {warning : Warning}
    (h : warning ∈ lintClasses text line empty) :
    ∃ component entries fix,
      (ClassList.ofText text).Suggests empty warning.rule component entries ∧
        warning.fix = some fix ∧ Report.ofSource fix = component.reportOf (.ofList entries) := by
  obtain ⟨found, hfound, rfl : found = some warning⟩ := List.mem_filterMap.mp h
  simp only [List.mem_cons, List.not_mem_nil, or_false] at hfound
  rcases hfound with hfound | hfound | hfound | hfound | hfound | hfound
  all_goals obtain ⟨hgiven, hwarning⟩ := Option.ite_none_right_eq_some.mp hfound.symm
  -- The rules in their order. All fixes but those with a prop are closed markup.
  · obtain ⟨hflex, hcol⟩ := Bool.and_eq_true_iff.mp hgiven
    cases hwarning
    exact ⟨.stack, _, _, .stack hflex hcol, rfl, ClassList.ofSource_gapProp _ .stack⟩
  · obtain ⟨hflex, hrow⟩ := Bool.and_eq_true_iff.mp hgiven
    cases hwarning
    exact ⟨.row, _, _, .row hflex hrow, rfl, ClassList.ofSource_gapProp _ .row⟩
  · obtain ⟨hboth, hjustify⟩ := Bool.and_eq_true_iff.mp hgiven
    obtain ⟨hflex, hitems⟩ := Bool.and_eq_true_iff.mp hboth
    cases hwarning
    exact ⟨.center, _, _, .center hflex hitems hjustify, rfl, by decide +kernel⟩
  · obtain ⟨hflex, hjustify⟩ := Bool.and_eq_true_iff.mp hgiven
    cases hwarning
    exact ⟨.spread, _, _, .spread hflex hjustify, rfl, by decide +kernel⟩
  · obtain ⟨n, hn, rfl⟩ := Option.map_eq_some_iff.mp hwarning
    exact ⟨.grid, _, _, .grid hgiven hn, rfl, ClassList.ofSource_columns n⟩
  · obtain ⟨hempty, hflex⟩ := Bool.and_eq_true_iff.mp hgiven
    cases hwarning
    exact ⟨.spacer, _, _, .spacer hempty hflex, rfl, by decide +kernel⟩

/-! ### The classes of suggested markup -/

theorem Props.hasFlag_ofList_singleton {entry : Attribute} (h : entry.value.isFlag = false)
    (flag : String) : (ofList [entry]).hasFlag flag = false := by
  rw [← Bool.not_eq_true, hasFlag_iff, entries_ofList_singleton, List.mem_singleton]
  rintro rfl
  cases h

namespace Component

theorem mem_classes_of_mem_base (hflags : ∀ flag, props.hasFlag flag = false)
    (h : token ∈ component.rule.base) : token ∈ (component.resolve props).classes :=
  mem_classes_iff.mpr (.base h fun flag _ _ => hflags flag)

/-- The classes of columns of a grid that is given a number of columns and nothing else. -/
theorem mem_classes_grid_columns_iff (hstem : columnStem.toList <+: token.toList) :
    token ∈ (grid.resolve (.ofList [⟨Axis.cols.prop, .number n⟩])).classes ↔
      columnClass? n = some token := by
  have hentries := Props.entries_ofList_singleton ⟨Axis.cols.prop, .number n⟩
  rw [mem_classes_iff]
  constructor
  · intro h
    rcases h.of_stem_isPrefix (show Axis.cols ∈ Axis.exclusive by decide) hstem with
      ⟨value, hvalue, -⟩ | ⟨key, hkey, -⟩ | ⟨-, m, hm, htoken⟩ | ⟨key, hentry, -⟩
    · simp [Props.text?_eq_some_iff, hentries] at hvalue
    · simp [Props.text?_eq_some_iff, hentries] at hkey
    · obtain rfl : m = n := by simpa [Props.number?_eq_some_iff, hentries] using hm
      exact htoken
    · simp [rule] at hentry
  · intro h
    exact .columns (Props.number?_eq_some_iff.mpr (by simp [hentries])) h

end Component

namespace ClassList

/-- The utilities for which a rule names a component. -/
def triggers (classes : ClassList) : LintRule → List String
  | .preferStack => "flex" :: "flex-col" :: classes.firstGap?.toList
  | .preferRow =>
    "flex" :: ((if classes.has "flex-row" then ["flex-row"] else []) ++ classes.firstGap?.toList)
  | .preferCenter => ["flex", "items-center", "justify-center"]
  | .preferSpread => ["flex", "justify-between"]
  | .preferGrid => ["grid"]
  | .preferSpacer => ["flex-1"]
  | _ => []

/-- Whether classes hold those of a class list for which a rule names a component: the utilities,
and for a grid also a class of columns. -/
def CarriedBy (classes : ClassList) (rule : LintRule) (carried : List String) : Prop :=
  (∀ token ∈ classes.triggers rule, token ∈ carried) ∧
    (rule = .preferGrid → ∃ token ∈ classes.tokens,
      columnStem.toList <+: token.toList ∧ token ∈ carried)

theorem hasFlag_gapEntries (classes : ClassList) (flag : String) :
    (Props.ofList classes.gapEntries).hasFlag flag = false := by
  rcases classes.gap_cases with ⟨-, hentries, -⟩ | ⟨key, token, -, -, hentries, -⟩
  · rw [hentries]
    rfl
  · rw [hentries]
    exact Props.hasFlag_ofList_singleton rfl flag

/-- The first gap of a class list is a class of every component that is given its key. -/
theorem mem_classes_of_mem_firstGap? (component : Component) (h : token ∈ classes.firstGap?) :
    token ∈ (component.resolve (.ofList classes.gapEntries)).classes := by
  rcases classes.gap_cases with ⟨hgap, -⟩ | ⟨key, token', hgap, hentry, hentries, -⟩
  · rw [hgap] at h
    cases h
  · rw [hgap] at h
    cases h
    rw [hentries]
    exact component.mem_classes_of_mem_table hentry

namespace Suggests

theorem mem_classes_of_mem_triggers (h : classes.Suggests empty rule component entries)
    (htoken : token ∈ classes.triggers rule) :
    token ∈ (component.resolve (.ofList entries)).classes := by
  cases h with
  | stack _ _ =>
    rw [triggers, List.mem_cons, List.mem_cons, Option.mem_toList] at htoken
    rcases htoken with rfl | rfl | hgap
    · exact Component.mem_classes_of_mem_base classes.hasFlag_gapEntries (by decide)
    · exact Component.mem_classes_of_mem_base classes.hasFlag_gapEntries (by decide)
    · exact mem_classes_of_mem_firstGap? .stack hgap
  | row _ _ =>
    rw [triggers, List.mem_cons, List.mem_append, Option.mem_toList] at htoken
    -- The class `flex-row` is there in any case, whether or not the list has it.
    rcases htoken with rfl | hrow | hgap
    · exact Component.mem_classes_of_mem_base classes.hasFlag_gapEntries (by decide)
    · obtain rfl : token = "flex-row" := by
        split at hrow
        · exact List.mem_singleton.mp hrow
        · cases hrow
      exact Component.mem_classes_of_mem_base classes.hasFlag_gapEntries (by decide)
    · exact mem_classes_of_mem_firstGap? .row hgap
  | center _ _ _ =>
    have hall : ∀ token ∈ ["flex", "items-center", "justify-center"],
        token ∈ (Component.center.resolve (.ofList [])).classes := by decide
    exact hall token htoken
  | spread _ _ =>
    have hall : ∀ token ∈ ["flex", "justify-between"],
        token ∈ (Component.spread.resolve (.ofList [])).classes := by decide
    exact hall token htoken
  | grid _ _ =>
    obtain rfl := List.mem_singleton.mp htoken
    exact Component.mem_classes_of_mem_base (Props.hasFlag_ofList_singleton rfl) (by decide)
  | spacer _ _ =>
    obtain rfl := List.mem_singleton.mp htoken
    decide

end Suggests

/-- Suggested markup has one result, whose classes hold those for which the markup is suggested. A
suggested grid has the class of the number of columns that the class list states. The list need not
have this class: it may state the number in another form, or state none, which has no class. -/
theorem carriedBy_fix (text : String) (line : Nat) (empty : Bool) (warning : Warning)
    (h : warning ∈ lintClasses text line empty) :
    ∃ fix r, warning.fix = some fix ∧ (Report.ofSource fix).results = [r] ∧
      (warning.rule ≠ .preferGrid → (ofText text).CarriedBy warning.rule r.classes) ∧
      (warning.rule = .preferGrid → "grid" ∈ r.classes ∧
        ∃ n, (ofText text).columns? = some n ∧
          (∀ token, columnStem.toList <+: token.toList →
            (token ∈ r.classes ↔ columnClass? n = some token)) ∧
          ((ofText text).CarriedBy warning.rule r.classes ↔
            ∃ token ∈ (ofText text).tokens, columnClass? n = some token)) := by
  obtain ⟨component, entries, fix, hsuggests, hfix, hreport⟩ := exists_suggests_of_mem_lintClasses h
  have htriggers : ∀ token ∈ (ofText text).triggers warning.rule,
      token ∈ (component.resolve (.ofList entries)).classes :=
    fun _ => hsuggests.mem_classes_of_mem_triggers
  refine ⟨fix, component.resolve (.ofList entries), hfix, by rw [hreport]; rfl, ?_, ?_⟩
  · exact fun hrule => ⟨htriggers, fun hgrid => absurd hgrid hrule⟩
  · -- What a grid has of columns depends on the number alone, not on the class that stated it.
    intro hrule
    rw [hrule] at hsuggests htriggers ⊢
    cases hsuggests with
    | @grid n _ hn =>
      refine ⟨htriggers "grid" (List.mem_singleton_self _), n, hn,
        fun token hstem => Component.mem_classes_grid_columns_iff hstem, ?_⟩
      constructor
      · rintro ⟨-, hcarried⟩
        obtain ⟨token, htoken, hstem, hmem⟩ := hcarried rfl
        exact ⟨token, htoken, (Component.mem_classes_grid_columns_iff hstem).mp hmem⟩
      · rintro ⟨token, htoken, hclass⟩
        have hstem : columnStem.toList <+: token.toList := by
          obtain ⟨-, rfl⟩ := columnClass?_eq_some_iff.mp hclass
          simp
        exact ⟨htriggers, fun _ =>
          ⟨token, htoken, hstem, (Component.mem_classes_grid_columns_iff hstem).mpr hclass⟩⟩

/-- A row with a gap that the table does not hold in front of the one that counts. -/
theorem carriedBy_fix_row :
    ∃ warning ∈ lintClasses "flex gap-x\tgap-12 flex-row gap-2" 7 false,
      warning.rule = .preferRow ∧ ∃ r : Resolution,
        (Report.ofSource "<Row gap=\"2xl\">").results = [r] ∧
          ∀ token ∈ ["flex", "flex-row", "gap-12"], token ∈ r.classes := by
  have hmem : (ofText "flex gap-x\tgap-12 flex-row gap-2").prefer .preferRow 7
      "<Row gap=\"2xl\">" ∈ lintClasses "flex gap-x\tgap-12 flex-row gap-2" 7 false := by decide
  obtain ⟨fix, r, hfix, hresults, hcarried, -⟩ := carriedBy_fix _ 7 false _ hmem
  cases hfix
  exact ⟨_, hmem, rfl, r, hresults, (hcarried nofun).1⟩

/-- A grid of no columns is suggested without a class of columns. -/
theorem not_forall_carriedBy_fix :
    ¬ ∀ (text : String) (line : Nat) (empty : Bool), ∀ warning ∈ lintClasses text line empty,
        ∃ fix r, warning.fix = some fix ∧ (Report.ofSource fix).results = [r] ∧
          (ofText text).CarriedBy warning.rule r.classes := by
  intro h
  have hmem : (ofText "grid grid-cols-0").prefer .preferGrid 1 "<Grid cols={0}>" ∈
      lintClasses "grid grid-cols-0" 1 false := by decide
  obtain ⟨fix, r, hfix, hresults, -, hcolumns⟩ := h _ 1 false _ hmem
  cases hfix
  have hclasses : r.classes = ["grid", "gap-4"] := by
    have hreport : (Report.ofSource "<Grid cols={0}>").results.map Resolution.classes =
        [["grid", "gap-4"]] := by decide +kernel
    rw [hresults] at hreport
    exact (List.cons.inj hreport).1
  obtain ⟨token, -, hstem, htoken⟩ := hcolumns rfl
  rw [hclasses] at htoken
  have hnone : ∀ token ∈ ["grid", "gap-4"], ¬ columnStem.toList <+: token.toList := by decide
  exact hnone token htoken hstem

/-! ### Warnings about suggested markup -/

/-- Of the gaps that a stack or a row is suggested with, only that of nothing is warned of. -/
theorem map_rule_warnings_gapEntries (classes : ClassList)
    (hcomponent : component = .stack ∨ component = .row) :
    (component.reportOf (.ofList classes.gapEntries)).warnings.map Warning.rule =
      if classes.firstGap? = some "gap-0" then [.unnecessaryGapNone] else [] := by
  have hall : ∀ component ∈ [Component.stack, .row], ∀ entry ∈ Axis.gap.table,
      (component.reportOf (.ofList [⟨Axis.gap.prop, .text entry.1⟩])).warnings.map Warning.rule =
        if entry.2 = "gap-0" then [.unnecessaryGapNone] else [] := by
    decide
  rcases classes.gap_cases with ⟨hgap, hentries, -⟩ | ⟨key, token, hgap, hentry, hentries, -⟩
  · rw [hgap, hentries]
    rcases hcomponent with rfl | rfl <;> rfl
  · rw [hgap, hentries, hall component (by simpa using hcomponent) _ hentry]
    simp only [Option.some.injEq]

namespace Suggests

theorem map_rule_warnings (h : classes.Suggests empty rule component entries) :
    (component.reportOf (.ofList entries)).warnings.map Warning.rule =
      if (rule = .preferStack ∨ rule = .preferRow) ∧ classes.firstGap? = some "gap-0" then
        [.unnecessaryGapNone]
      else [] := by
  -- No rule for components speaks of what the other four can be suggested with.
  cases h with
  | stack _ _ => simp [classes.map_rule_warnings_gapEntries (Or.inl rfl)]
  | row _ _ => simp [classes.map_rule_warnings_gapEntries (Or.inr rfl)]
  | center _ _ _ => rfl
  | spread _ _ => rfl
  | grid _ _ => rfl
  | spacer _ _ => rfl

end Suggests

end ClassList

/-- The markup that the rules for components suggest. -/
theorem fix_mem_of_mem_lintProps {warning : Warning} {fix : String}
    (h : warning ∈ lintProps component props line) (hfix : warning.fix = some fix) :
    fix ∈ ["<Center>", "<Center fill>", "<Spread>"] := by
  obtain ⟨found, hfound, rfl : found = some warning⟩ := List.mem_filterMap.mp h
  simp only [List.mem_cons, List.not_mem_nil, or_false] at hfound
  rcases hfound with hfound | hfound | hfound | hfound
  all_goals
    obtain ⟨-, hwarning⟩ := Option.ite_none_right_eq_some.mp hfound.symm
    cases hwarning
  · obtain rfl := Option.some.inj hfix
    split <;> simp
  · obtain rfl := Option.some.inj hfix
    simp
  · cases hfix
  · cases hfix

/-- Nothing is said against the markup that the rules for components suggest. All rules for utility
classes suggest markup, and of that there is one warning: a stack or a row that is suggested with a
gap of nothing is found to have it without need. -/
theorem warnings_fix (component : Component) (props : Props) (text : String) (line : Nat)
    (empty : Bool) :
    (∀ warning ∈ lintProps component props line, ∀ fix, warning.fix = some fix →
      (Report.ofSource fix).warnings = []) ∧
    ∀ warning ∈ lintClasses text line empty,
      ∃ fix, warning.fix = some fix ∧ (Report.ofSource fix).warnings.map Warning.rule =
        if (warning.rule = .preferStack ∨ warning.rule = .preferRow) ∧
            (ClassList.ofText text).firstGap? = some "gap-0" then
          [.unnecessaryGapNone]
        else [] := by
  constructor
  · intro warning h fix hfix
    have hall : ∀ fix ∈ ["<Center>", "<Center fill>", "<Spread>"],
        (Report.ofSource fix).warnings = [] := by decide +kernel
    exact hall fix (fix_mem_of_mem_lintProps h hfix)
  · intro warning h
    obtain ⟨component, entries, fix, hsuggests, hfix, hreport⟩ :=
      exists_suggests_of_mem_lintClasses h
    exact ⟨fix, hfix, by rw [hreport, hsuggests.map_rule_warnings]⟩

/-- A stack that is suggested with a gap of nothing is warned of. -/
theorem not_forall_warnings_fix_eq_nil :
    ¬ ((∀ (component : Component) (props : Props) (line : Nat),
        ∀ warning ∈ lintProps component props line, ∀ fix, warning.fix = some fix →
          (Report.ofSource fix).warnings = []) ∧
      ∀ (text : String) (line : Nat) (empty : Bool), ∀ warning ∈ lintClasses text line empty,
        ∀ fix, warning.fix = some fix → (Report.ofSource fix).warnings = []) := by
  rintro ⟨-, h⟩
  have hmem : (ClassList.ofText "flex flex-col gap-0").prefer .preferStack 1
      "<Stack gap=\"none\">" ∈ lintClasses "flex flex-col gap-0" 1 false := by decide
  have hclean := h _ 1 false _ hmem _ rfl
  exact absurd hclean (by decide +kernel)

end LayoutMarkup

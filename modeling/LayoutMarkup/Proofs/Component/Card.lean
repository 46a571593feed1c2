import LayoutMarkup.Component.Card
import LayoutMarkup.Proofs.Component.Alike
import LayoutMarkup.Proofs.Text.Run

/-!
# What a reference card promises

A reference card is read row by row, without regard to what else is given. Each row is true in any
company: of other flags, of other values, of a class list, and of defaults that apply or do not. To
say so, a row has to be read back: which flag adds which classes, which flag puts which class in the
place of which, and which key of which axis brings which class in. The three kinds of rows cannot be
confused, since no name and no class holds one of the marks that a row is written with.

## Main definitions

* `Props.Gives` — a prop that gives an axis a key, in the form that a card writes it in
* `Card.HoldsFor` — what is on a card is true of the classes of props

## Main results

* `Component.mem_entries_card_iff` — what is on the card of a component
* `Axis.writtenProp_injective`, `eq_of_append_arrow` — a row can be read back
* `Component.card_holdsFor` — every card is true of all props
-/

namespace LayoutMarkup

open Text

variable {component : Component} {props : Props} {axis other : Axis}
  {token flag key key' old new : String}

/-- The prop of an axis is given as this key: as text, or, for the number of columns, as the number
that the key writes out. -/
def Props.Gives (props : Props) (axis : Axis) (key : String) : Prop :=
  props.text? axis.prop = some key ∨
    axis = .cols ∧ ∃ n, props.number? axis.prop = some n ∧ toString n.toNat = key

/-- What is on a card is true of props that have these classes. -/
structure Card.HoldsFor (card : Card) (props : Props) (classes : List String) : Prop where
  /-- A flag that the card writes classes behind a plus sign for brings all of them in. -/
  added : ∀ flag tokens, ⟨flag, "+ " ++ tokens⟩ ∈ card.entries → props.hasFlag flag = true →
    ∀ token ∈ classTokens tokens, token ∈ classes
  /-- A flag that the card writes an arrow for brings in the class behind it. The class in front of
  it can only come from the class list. -/
  replaced : ∀ flag old new, ⟨flag, old ++ " → " ++ new⟩ ∈ card.entries →
    props.hasFlag flag = true →
    new ∈ classes ∧ (old ∈ classes →
      ∃ value, props.text? classNameProp = some value ∧ old ∈ classTokens value)
  /-- A key of an axis brings in the class that the card writes for it. -/
  keyed : ∀ axis key token, ⟨Axis.writtenProp axis key, token⟩ ∈ card.entries →
    props.Gives axis key → token ∈ classes
  /-- Without a declared flag and without a value for an axis there are the default classes and the
  words of the class list. -/
  bare : (∀ flag, (card.component.rule.effect? flag).isSome = true → props.hasFlag flag = false) →
    (∀ axis : Axis, props.isValued axis.prop = false) →
    ∀ token, token ∈ classes ↔ token ∈ card.defaultClasses ∨
      ∃ value, props.text? classNameProp = some value ∧ token ∈ classTokens value

namespace Component

/-! ### What is on a card -/

/-- A card has a row for each declared flag and one for each key of each documented axis. -/
theorem mem_entries_card_iff {row : Card.Entry} : row ∈ component.card.entries ↔
    (∃ flag effect, (flag, effect) ∈ component.rule.effects ∧
      row = ⟨flag, PropEffect.summary effect⟩) ∨
    ∃ axis ∈ component.rule.axes, ∃ key token, (key, token) ∈ axis.table ∧
      row = ⟨axis.writtenProp key, token⟩ := by
  simp only [card, Axis.cardEntries, List.mem_append, List.mem_map, List.mem_flatMap, Prod.exists,
    @eq_comm _ row]

theorem describe_name (component : Component) : describe component.name = .ok component.card := by
  cases component <;> rfl

end Component

/-! ### Reading a row back -/

/-- No class that compiling can bring in holds a mark of a card, or a space. -/
theorem notMem_toList_of_mem_safelist (h : token ∈ safelist) {c : Char} (hc : c ∈ ['+', '→', ' ']) :
    c ∉ token.toList := by
  intro hmem
  have hclass := (isWordChar_or_hyphen_of_mem_safelist h).2 c hmem
  simp only [List.mem_cons, List.not_mem_nil, or_false] at hc
  rcases hc with rfl | rfl | rfl <;> exact absurd hclass (by decide)

theorem mem_safelist_of_mem_effects {effect : PropEffect}
    (h : (flag, effect) ∈ component.rule.effects) (htoken : token ∈ effect.tokens) :
    token ∈ safelist :=
  Component.mem_safelist_of_mem_tokens (Component.mem_tokens_of_mem_effects h htoken)

theorem mem_safelist_of_replace (h : (flag, .replace old new) ∈ component.rule.effects) :
    old ∈ safelist ∧ new ∈ safelist := by
  have hbase := Component.mem_tokens_of_mem_base (Component.mem_base_of_replace h)
  exact ⟨Component.mem_safelist_of_mem_tokens hbase,
    mem_safelist_of_mem_effects h List.mem_cons_self⟩

/-- The classes around an arrow can be told. -/
theorem eq_of_append_arrow {old' new' : String} (hold : '→' ∉ old.toList) (hnew : '→' ∉ new.toList)
    (h : old ++ " → " ++ new = old' ++ " → " ++ new') : old = old' ∧ new = new' := by
  have harrow : " → ".toList = [' '] ++ '→' :: [' '] := rfl
  have hchars : (old.toList ++ [' ']) ++ '→' :: (' ' :: new.toList) =
      (old'.toList ++ [' ']) ++ '→' :: (' ' :: new'.toList) := by
    simpa [harrow] using congrArg String.toList h
  obtain ⟨hfront, -, hbehind⟩ :=
    (List.append_cons_inj_of_notMem (by simp [hold]) (by simp [hnew])).mp hchars
  exact ⟨String.toList_inj.mp (List.append_cancel_right hfront),
    String.toList_inj.mp (List.tail_eq_of_cons_eq hbehind)⟩

namespace Axis

/-- The marks that the key of an axis is written between. -/
def marks : Axis → Char × Char
  | cols => ('{', '}')
  | _ => ('"', '"')

theorem toList_writtenProp (axis : Axis) (key : String) : (axis.writtenProp key).toList =
    axis.prop.toList ++ '=' :: axis.marks.1 :: (key.toList ++ [axis.marks.2]) := by
  cases axis <;> simp [writtenProp, marks, prop]

/-- The name of an axis ends at the first equals sign. -/
theorem takeWhile_writtenProp (axis : Axis) (key : String) :
    (axis.writtenProp key).toList.takeWhile (· ≠ '=') = axis.prop.toList := by
  have hprop : ∀ c ∈ axis.prop.toList, decide (c ≠ '=') = true :=
    List.all_eq_true.mp (by cases axis <;> decide)
  rw [toList_writtenProp, takeWhile_append_of_stopsAt hprop (stopsAt_cons_iff.mpr (by simp))]

/-- The axis and the key can be told from a written prop. -/
theorem writtenProp_injective (h : other.writtenProp key' = axis.writtenProp key) :
    other = axis ∧ key' = key := by
  have hprop := congrArg (fun text => text.toList.takeWhile (· ≠ '=')) h
  simp only [takeWhile_writtenProp] at hprop
  obtain rfl := prop_injective (String.toList_inj.mp hprop)
  have hkey := congrArg String.toList h
  rw [toList_writtenProp, toList_writtenProp] at hkey
  simp only [List.append_cancel_left_eq, List.cons.injEq, true_and, List.append_cancel_right_eq,
    String.toList_inj] at hkey
  exact ⟨rfl, hkey⟩

end Axis

namespace Component

/-- A row with a plus sign is that of a flag that adds these classes. -/
theorem exists_add_of_row {tokens : String} (h : ⟨flag, "+ " ++ tokens⟩ ∈ component.card.entries) :
    ∃ added, (flag, .add added) ∈ component.rule.effects ∧ classTokens tokens = added := by
  rcases mem_entries_card_iff.mp h with
    ⟨name, effect, heffect, hrow⟩ | ⟨axis, -, key, token, hkey, hrow⟩
  · obtain ⟨rfl, hsummary⟩ := Card.Entry.mk.inj hrow
    cases effect with
    | add added =>
      have htokens : tokens = " ".intercalate added := by
        simpa [PropEffect.summary] using hsummary
      refine ⟨added, heffect, ?_⟩
      -- The classes are written with spaces between them, and none of them holds a blank.
      rw [htokens]
      apply classTokens_intercalate
      intro token htoken
      have hclass := isClass_of_mem_safelist (mem_safelist_of_mem_effects heffect htoken)
      exact ⟨hclass.ne_nil, hclass.not_blank⟩
    | replace old new =>
      -- No class holds a plus sign, and an arrow does not either.
      obtain ⟨hold, hnew⟩ := mem_safelist_of_replace heffect
      have hplus : '+' ∈ (old ++ " → " ++ new).toList := by
        rw [← PropEffect.summary, ← hsummary]
        simp
      have hmark : '+' ∈ ['+', '→', ' '] := by simp
      simp [notMem_toList_of_mem_safelist hold hmark, notMem_toList_of_mem_safelist hnew hmark]
        at hplus
  · obtain ⟨rfl, rfl⟩ := Card.Entry.mk.inj hrow
    have hplus := notMem_toList_of_mem_safelist (c := '+') (mem_safelist_of_mem_table hkey) (by simp)
    simp at hplus

/-- A row with an arrow is that of a flag that puts the class behind it in the place of the one in
front of it. -/
theorem replace_of_row (h : ⟨flag, old ++ " → " ++ new⟩ ∈ component.card.entries) :
    (flag, .replace old new) ∈ component.rule.effects := by
  have harrow : '→' ∈ (old ++ " → " ++ new).toList := by simp
  rcases mem_entries_card_iff.mp h with
    ⟨name, effect, heffect, hrow⟩ | ⟨axis, -, key, token, hkey, hrow⟩
  · obtain ⟨rfl, hsummary⟩ := Card.Entry.mk.inj hrow
    cases effect with
    | add added =>
      -- The arrow would stand in the mark, in a space between two classes or in a class.
      rw [hsummary, PropEffect.summary, String.toList_append, List.mem_append] at harrow
      rcases harrow with harrow | harrow
      · exact absurd harrow (by decide)
      · rcases mem_toList_intercalate harrow with hspace | ⟨token, htoken, hmem⟩
        · cases hspace
        · have hclass := mem_safelist_of_mem_effects heffect htoken
          exact absurd hmem (notMem_toList_of_mem_safelist hclass (by simp))
    | replace old' new' =>
      obtain ⟨hold, hnew⟩ := mem_safelist_of_replace heffect
      obtain ⟨rfl, rfl⟩ := eq_of_append_arrow
        (notMem_toList_of_mem_safelist hold (by simp)) (notMem_toList_of_mem_safelist hnew (by simp))
        hsummary.symm
      exact heffect
  · obtain ⟨rfl, rfl⟩ := Card.Entry.mk.inj hrow
    exact absurd harrow
      (notMem_toList_of_mem_safelist (mem_safelist_of_mem_table hkey) (by simp))

/-- No declared flag is written with an equals sign. -/
theorem equals_notMem_of_mem_effects {effect : PropEffect}
    (h : (flag, effect) ∈ component.rule.effects) : '=' ∉ flag.toList := by
  have hall : ∀ entry ∈ component.rule.effects, '=' ∉ entry.1.toList := by
    cases component <;> decide
  exact hall _ h

/-- A row for a key of an axis is that of the table. -/
theorem mem_table_of_row (h : ⟨axis.writtenProp key, token⟩ ∈ component.card.entries) :
    (key, token) ∈ axis.table := by
  rcases mem_entries_card_iff.mp h with
    ⟨name, effect, heffect, hrow⟩ | ⟨other, -, key', token', hkey, hrow⟩
  · obtain ⟨hname, -⟩ := Card.Entry.mk.inj hrow
    refine absurd ?_ (equals_notMem_of_mem_effects heffect)
    rw [← hname, Axis.toList_writtenProp]
    simp
  · obtain ⟨hwritten, rfl⟩ := Card.Entry.mk.inj hrow
    obtain ⟨rfl, rfl⟩ := Axis.writtenProp_injective hwritten
    exact hkey

/-! ### What a row promises -/

/-- No flag replaces a class that a table holds. -/
theorem renamed_of_get?_table {entry : String × PropEffect} (hentry : entry ∈ component.rule.effects)
    (htoken : axis.table.get? key = some token) : entry.2.renamed token = token := by
  have hall : ∀ entry ∈ component.rule.effects, ∀ axis ∈ Axis.all, ∀ row ∈ axis.table,
      entry.2.renamed row.2 = row.2 := by
    cases component <;> decide
  exact hall entry hentry axis axis.mem_all _ (Axis.mem_table_of_get? htoken)

/-- No flag replaces a fixed default. -/
theorem renamed_of_mem_fixedDefaults {entry : String × PropEffect}
    (hentry : entry ∈ component.rule.effects) (htoken : token ∈ component.rule.fixedDefaults) :
    entry.2.renamed token = token := by
  have hall : ∀ entry ∈ component.rule.effects, ∀ token ∈ component.rule.fixedDefaults,
      entry.2.renamed token = token := by
    cases component <;> decide
  exact hall entry hentry token htoken

/-- The class of a number of columns is no base class. -/
theorem notMem_base_of_columnClass? {n : UInt32} (h : columnClass? n = some token) :
    token ∉ component.rule.base := by
  intro hbase
  have hall : ∀ token ∈ component.rule.base, ¬ columnStem.toList <+: token.toList := by
    cases component <;> decide
  obtain ⟨-, rfl⟩ := columnClass?_eq_some_iff.mp h
  exact hall _ hbase (by simp)

/-- A class that a given flag replaces is there only as a word of the class list. -/
theorem exists_word_of_replace (hreplace : (flag, .replace old new) ∈ component.rule.effects)
    (hflag : props.hasFlag flag = true) (h : ClassSource component props old) :
    ∃ value, props.text? classNameProp = some value ∧ old ∈ classTokens value := by
  obtain ⟨-, -, hne⟩ := eq_of_replace hreplace hreplace
  have hrenamed : (PropEffect.replace old new).renamed old ≠ old := by
    simpa [PropEffect.renamed] using hne
  -- The flag takes the base class away, and of all other sources but the class list each brings in
  -- classes that no flag replaces.
  cases h with
  | base _ hnone =>
    rw [hnone flag new hreplace] at hflag
    cases hflag
  | replacement hother _ =>
    obtain ⟨-, heq, -⟩ := eq_of_replace hreplace hother
    exact absurd heq.symm hne
  | added hadd _ htoken => exact absurd (renamed_of_mem_added hadd hreplace htoken) hrenamed
  | word hvalue htoken => exact ⟨_, hvalue, htoken⟩
  | key _ htoken => exact absurd (renamed_of_get?_table hreplace htoken) hrenamed
  | columns _ htoken =>
    exact absurd (mem_base_of_replace hreplace) (notMem_base_of_columnClass? htoken)
  | fixedDefault hfixed _ => exact absurd (renamed_of_mem_fixedDefaults hreplace hfixed) hrenamed
  | axisDefault _ htoken _ _ => exact absurd (renamed_of_get?_table hreplace htoken) hrenamed

/-- A key of an axis brings its class in, and so does the number that a key of the columns writes
out. -/
theorem classSource_of_gives (h : (key, token) ∈ axis.table) (hgives : props.Gives axis key) :
    ClassSource component props token := by
  have htoken := get?_table_eq_some h
  rcases hgives with htext | ⟨rfl, n, hn, rfl⟩
  · exact .key htext htoken
  · obtain ⟨hkey, htoken⟩ := Axis.get?_cols_eq_some_iff.mp htoken
    have hne : n ≠ 0 := by
      rintro rfl
      exact absurd hkey (by decide)
    exact .columns hn ((columnClass?_of_ne_zero hne).trans (congrArg some htoken))

/-- Props without a declared flag and without a value for an axis are like no props at all. -/
theorem alike_empty
    (hflags : ∀ flag, (component.rule.effect? flag).isSome = true → props.hasFlag flag = false)
    (hvalues : ∀ axis : Axis, props.isValued axis.prop = false) : component.Alike props .empty where
  hasFlag_eq flag hflag := hflags flag hflag
  text?_eq axis := (Props.isValued_eq_false_iff.mp (hvalues axis)).1
  number?_eq axis := (Props.isValued_eq_false_iff.mp (hvalues axis)).2

/-- What is on the card of a component is true of the classes that it resolves to, whatever other
props are given. -/
theorem card_holdsFor (component : Component) (props : Props) :
    describe component.name = .ok component.card ∧
      component.card.HoldsFor props (component.resolve props).classes := by
  refine ⟨describe_name component, ?_⟩
  constructor
  case added =>
    intro flag tokens hrow hflag token htoken
    obtain ⟨added, hadd, rfl⟩ := exists_add_of_row hrow
    exact mem_classes_iff.mpr (.added hadd hflag htoken)
  case replaced =>
    intro flag old new hrow hflag
    have hreplace := replace_of_row hrow
    exact ⟨mem_classes_iff.mpr (.replacement hreplace hflag), fun hold =>
      exists_word_of_replace hreplace hflag (mem_classes_iff.mp hold)⟩
  case keyed =>
    intro axis key token hrow hgives
    exact mem_classes_iff.mpr (classSource_of_gives (mem_table_of_row hrow) hgives)
  case bare =>
    -- The default classes of a card are those without any props.
    intro hflags hvalues token
    exact mem_classes_iff_of_alike (alike_empty hflags hvalues) rfl

/-- A wrapped row in reverse order, with its old direction in the class list, a grid with a number of
columns, and a row with nothing but a class list. -/
theorem card_holdsFor_row_grid :
    let p : Props := .ofList [⟨"reverse", .flag⟩, ⟨"wrap", .flag⟩, ⟨"gap", .text "lg"⟩,
      ⟨"className", .text "wide flex-row"⟩]
    let q : Props := .ofList [⟨"cols", .number 3⟩]
    let r : Props := .ofList [⟨"className", .text "wide"⟩]
    ("flex-wrap" ∈ (row.resolve p).classes ∧ "gap-6" ∈ (row.resolve p).classes ∧
        "flex-row-reverse" ∈ (row.resolve p).classes ∧ "flex-row" ∈ (row.resolve p).classes ∧
        ∃ value, p.text? classNameProp = some value ∧ "flex-row" ∈ classTokens value) ∧
      "grid-cols-3" ∈ (grid.resolve q).classes ∧
      ("gap-4" ∈ (row.resolve r).classes ↔ "gap-4" ∈ row.card.defaultClasses ∨
        ∃ value, r.text? classNameProp = some value ∧ "gap-4" ∈ classTokens value) := by
  intro p q r
  have hp := (card_holdsFor row p).2
  have hq := (card_holdsFor grid q).2
  have hr := (card_holdsFor row r).2
  have hreversed := hp.replaced "reverse" "flex-row" "flex-row-reverse" (by decide) (by decide)
  have hkept : "flex-row" ∈ (row.resolve p).classes := by decide
  refine ⟨⟨?_, ?_, hreversed.1, hkept, hreversed.2 hkept⟩, ?_, ?_⟩
  · exact hp.added "wrap" "flex-wrap" (by decide) (by decide) "flex-wrap" (by decide)
  · exact hp.keyed .gap "lg" "gap-6" (by decide) (.inl (by decide))
  · exact hq.keyed .cols "3" "grid-cols-3" (by decide) (.inr ⟨rfl, 3, by decide, by decide⟩)
  · have hentries : r.entries = [⟨"className", .text "wide"⟩] := by decide
    have hflag (flag : String) : r.hasFlag flag = false := by
      simp [Bool.eq_false_iff, Props.hasFlag_iff, hentries]
    exact hr.bare (fun flag _ => hflag flag) (fun axis => by cases axis <;> decide) "gap-4"

end Component

end LayoutMarkup

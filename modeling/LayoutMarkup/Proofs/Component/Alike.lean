import LayoutMarkup.Proofs.Component.Sources
import LayoutMarkup.Proofs.Lint.Rules
import LayoutMarkup.Proofs.Props.InsertAt

/-!
# Which props decide about the classes

Whatever brings a class in looks at a declared flag, at the value of an axis or at the class list
that was given. So props that agree on the first two have the same classes but for the words of
their class lists. Two laws follow. The order of props makes no difference to the set of classes.
And a class list adds its words and does nothing else: it keeps no default away, and no flag
replaces a word of it.

## Main definitions

* `Component.Alike` — props that differ in their class lists and in what a component passes over

## Main results

* `Component.mem_classes_iff_of_alike` — the classes of such props
* `Component.resolve_perm` — props in another order
* `Component.mem_classes_insertAt_className_iff` — props with a class list and without it
-/

namespace LayoutMarkup

variable {component : Component} {p q : Props} {token : String}

/-- Props that a component tells apart by their class lists at most: it finds the same declared
flags, and the same value for every axis. -/
structure Component.Alike (component : Component) (p q : Props) : Prop where
  hasFlag_eq : ∀ flag, (component.rule.effect? flag).isSome = true →
    p.hasFlag flag = q.hasFlag flag
  text?_eq : ∀ axis : Axis, p.text? axis.prop = q.text? axis.prop
  number?_eq : ∀ axis : Axis, p.number? axis.prop = q.number? axis.prop

namespace Component.Alike

theorem symm (h : component.Alike p q) : component.Alike q p where
  hasFlag_eq flag hflag := (h.hasFlag_eq flag hflag).symm
  text?_eq axis := (h.text?_eq axis).symm
  number?_eq axis := (h.number?_eq axis).symm

theorem isValued_eq (h : component.Alike p q) (axis : Axis) :
    p.isValued axis.prop = q.isValued axis.prop := by
  rw [Props.isValued, Props.isValued, h.text?_eq, h.number?_eq]

theorem isCentered_eq (h : component.Alike p q) :
    component.isCentered p = component.isCentered q := by
  rw [isCentered, isCentered]
  by_cases hdeclared : (component.rule.effect? centerFlag).isSome = true
  · rw [h.hasFlag_eq centerFlag hdeclared]
  · rw [Bool.eq_false_iff.mpr hdeclared, Bool.false_and, Bool.false_and]

/-- Names with the same values are alike to every component. -/
theorem of_get?_eq (component : Component) (h : ∀ name, p.get? name = q.get? name) :
    component.Alike p q where
  hasFlag_eq flag _ := Props.hasFlag_congr (h flag)
  text?_eq axis := Props.text?_congr (h axis.prop)
  number?_eq axis := Props.number?_congr (h axis.prop)

end Component.Alike

/-- What brings a class in brings it in with props that are alike, unless it is the class list. -/
theorem ClassSource.of_alike (h : component.Alike p q) (hsource : ClassSource component p token) :
    ClassSource component q token ∨
      ∃ value, p.text? classNameProp = some value ∧ token ∈ classTokens value := by
  -- With the same declared flags, what is left to compare are the values of the axes.
  rcases hsource.of_flags_eq fun flag hflag => (h.hasFlag_eq flag hflag).symm with
    hsame | hword | ⟨axis, key, hkey, htoken⟩ | ⟨n, hn, htoken⟩ |
      ⟨axis, key, hentry, htoken, hvalued, hcentered⟩
  · exact Or.inl hsame
  · exact Or.inr hword
  · exact Or.inl (.key ((h.text?_eq axis).symm.trans hkey) htoken)
  · exact Or.inl (.columns ((h.number?_eq .cols).symm.trans hn) htoken)
  · refine Or.inl (.axisDefault hentry htoken ?_ ?_)
    · rw [← h.isValued_eq axis, hvalued]
    · rw [← h.isCentered_eq, hcentered]

/-- The classes of a component are those that it has without the class list, and the words of the
class list. -/
theorem Component.mem_classes_iff_of_alike (h : component.Alike p q)
    (hnone : q.text? classNameProp = none) :
    token ∈ (component.resolve p).classes ↔ token ∈ (component.resolve q).classes ∨
      ∃ value, p.text? classNameProp = some value ∧ token ∈ classTokens value := by
  rw [mem_classes_iff, mem_classes_iff]
  constructor
  · exact ClassSource.of_alike h
  · rintro (hsource | ⟨value, hvalue, htoken⟩)
    · rcases hsource.of_alike h.symm with hsame | ⟨value, hvalue, -⟩
      · exact hsame
      · rw [hnone] at hvalue
        cases hvalue
    · exact .word hvalue htoken

/-! ### Props in another order -/

namespace Component

/-- Names with the same values bring in the same classes. -/
theorem classSource_congr (h : ∀ name, p.get? name = q.get? name)
    (hsource : ClassSource component p token) : ClassSource component q token := by
  rcases hsource.of_alike (.of_get?_eq component h) with hsame | ⟨value, hvalue, htoken⟩
  · exact hsame
  · exact .word ((Props.text?_congr (h classNameProp)).symm.trans hvalue) htoken

/-- The record of props in another order is in another order. -/
theorem entries_recordedProps_perm (h : p.entries.Perm q.entries) (component : Component) :
    (component.recordedProps p).entries.Perm (component.recordedProps q).entries := by
  have hflags : p.flags.Perm q.flags := (h.filter _).map _
  have hdeclared : (component.declaredFlags p).Perm (component.declaredFlags q) := hflags.filter _
  have hvalued : p.valued.Perm q.valued := h.filter _
  rw [entries_recordedProps, entries_recordedProps]
  exact (hdeclared.map _).append hvalued

/-- The order of props makes no difference but to the order of the classes and of the recorded
props. The warnings are the same, in the same order. -/
theorem resolve_perm (h : p.entries.Perm q.entries) (component : Component) :
    (component.resolve p).classes.Perm (component.resolve q).classes ∧
      (component.resolve p).props.entries.Perm (component.resolve q).props.entries ∧
      ∀ line, lintProps component p line = lintProps component q line := by
  have hget : ∀ name, p.get? name = q.get? name := Props.get?_congr fun _ => h.mem_iff
  refine ⟨?_, entries_recordedProps_perm h component, fun line => ?_⟩
  · -- No class is listed twice, so it is enough that the same ones are listed.
    rw [List.perm_ext_iff_of_nodup (nodup_classes component p) (nodup_classes component q)]
    intro token
    rw [mem_classes_iff, mem_classes_iff]
    exact ⟨classSource_congr hget, classSource_congr fun name => (hget name).symm⟩
  · exact lintProps_congr (fun flag => Props.hasFlag_congr (hget flag)) fun axis => hget axis.prop

/-- A row with its props the other way round has its classes in another order. The word that the flag
`reverse` replaces among the base classes is kept where it was given. -/
theorem resolve_perm_row :
    let p : Props := .ofList [⟨"wrap", .flag⟩, ⟨"reverse", .flag⟩, ⟨"justify", .text "between"⟩,
      ⟨"className", .text "flex-row wide"⟩]
    let q : Props := .ofList [⟨"className", .text "flex-row wide"⟩, ⟨"justify", .text "between"⟩,
      ⟨"reverse", .flag⟩, ⟨"wrap", .flag⟩]
    p.entries.Perm q.entries ∧ (row.resolve p).classes ≠ (row.resolve q).classes ∧
      (row.resolve p).classes.Perm (row.resolve q).classes ∧
      (row.resolve p).props.entries.Perm (row.resolve q).props.entries ∧
      ∀ line, lintProps .row p line = lintProps .row q line :=
  have h : (Props.ofList [⟨"wrap", .flag⟩, ⟨"reverse", .flag⟩, ⟨"justify", .text "between"⟩,
      ⟨"className", .text "flex-row wide"⟩]).entries.Perm
      (Props.ofList [⟨"className", .text "flex-row wide"⟩, ⟨"justify", .text "between"⟩,
        ⟨"reverse", .flag⟩, ⟨"wrap", .flag⟩]).entries := by decide
  ⟨h, by decide, resolve_perm h .row⟩

/-! ### The class list that is given -/

/-- A class list is neither a declared flag nor the prop of an axis. -/
theorem alike_insertAt_className (component : Component) (h : p.contains classNameProp = false)
    (place : Nat) (value : String) :
    component.Alike (p.insertAt place ⟨classNameProp, .text value⟩ h) p := by
  have hother {name : String} (hname : name ≠ classNameProp) :
      (p.insertAt place ⟨classNameProp, .text value⟩ h).get? name = p.get? name := by
    rw [Props.get?_insertAt, if_neg hname]
  constructor
  case hasFlag_eq =>
    intro flag hflag
    refine Props.hasFlag_congr (hother ?_)
    rintro rfl
    rw [effect?_className] at hflag
    cases hflag
  case text?_eq => exact fun axis => Props.text?_congr (hother axis.prop_ne_className)
  case number?_eq => exact fun axis => Props.number?_congr (hother axis.prop_ne_className)

theorem text?_insertAt_className (h : p.contains classNameProp = false) (place : Nat)
    (value : String) :
    (p.insertAt place ⟨classNameProp, .text value⟩ h).text? classNameProp = some value := by
  rw [Props.text?, Props.get?_insertAt, if_pos rfl]

/-- A class list adds its words, wherever it stands among the props, and it does nothing else: every
other class is there with it and without it. -/
theorem mem_classes_insertAt_className_iff (component : Component)
    (h : p.contains classNameProp = false) (place : Nat) (value : String) (token : String) :
    token ∈ (component.resolve (p.insertAt place ⟨classNameProp, .text value⟩ h)).classes ↔
      token ∈ (component.resolve p).classes ∨ token ∈ classTokens value := by
  rw [mem_classes_iff_of_alike (alike_insertAt_className component h place value)
    (Props.text?_eq_none_of_contains h), text?_insertAt_className h place value]
  simp only [Option.some.injEq, exists_eq_left']

/-- A word of a class list stays as it is, although a flag replaces the same word among the base
classes. -/
theorem mem_classes_insertAt_className_inline :
    ∃ h : (Props.ofList [⟨"inline", .flag⟩, ⟨"fill", .flag⟩]).contains classNameProp = false,
      "flex" ∉ (center.resolve (.ofList [⟨"inline", .flag⟩, ⟨"fill", .flag⟩])).classes ∧
        "flex" ∈ (center.resolve ((Props.ofList [⟨"inline", .flag⟩, ⟨"fill", .flag⟩]).insertAt 1
          ⟨classNameProp, .text "wide flex"⟩ h)).classes :=
  have h : (Props.ofList [⟨"inline", .flag⟩, ⟨"fill", .flag⟩]).contains classNameProp = false := by
    decide
  ⟨h, by decide, (mem_classes_insertAt_className_iff center h 1 "wide flex" "flex").mpr
    (Or.inr (by decide))⟩

end Component

end LayoutMarkup

import LayoutMarkup.Proofs.Component.Stages
import LayoutMarkup.Proofs.Lint.Rules
import LayoutMarkup.Proofs.Props.Erase
import LayoutMarkup.Proofs.Props.InsertAt

/-!
# Props that a component makes nothing of

A component makes something of the flags that it declares, of values for an axis and of a class list
given as text. Nothing else that is given has any influence, not even on whether defaults apply or a
rule has something to say: an undeclared flag, a value where a flag is meant, a flag where a value is
meant, and every other attribute. This is a statement about two runs. Whatever two tags differ in
besides, if they agree on those props and their order, they come to the same class list and to the
same warnings.

## Main definitions

* `Props.styles` — the values for axes and the class list
* `Component.Idle` — the attributes that a component makes nothing of
* `Component.SameOutcome` — props that come to the same classes and warnings

## Main results

* `Component.sameOutcome_of_styles` — declared flags and styles decide about the outcome
* `Component.idle_iff` — there is nothing between what is idle and what decides
* `Component.sameOutcome_of_heeded` — idle attributes can be put in and taken out anywhere
-/

namespace LayoutMarkup

variable {component : Component} {p q : Props} {entry : Attribute}

/-- Whether an attribute gives an axis a value, or is a class list given as text. -/
def Attribute.isStyle (entry : Attribute) : Bool :=
  match entry.value with
  | .flag => false
  | .text _ => (Axis.ofProp? entry.name).isSome || entry.name = classNameProp
  | .number _ => (Axis.ofProp? entry.name).isSome

/-- The values for axes and the class list among the props, in order. -/
def Props.styles (p : Props) : List Attribute := p.entries.filter Attribute.isStyle

namespace Component

/-- Whether a component makes something of an attribute: of a flag that it declares, or of a
style. -/
def heeds (component : Component) (entry : Attribute) : Bool :=
  entry.isStyle || (entry.value.isFlag && (component.rule.effect? entry.name).isSome)

@[simp]
theorem heeds_flag (component : Component) (name : String) :
    component.heeds ⟨name, .flag⟩ = (component.rule.effect? name).isSome := rfl

@[simp]
theorem heeds_text (component : Component) (name value : String) :
    component.heeds ⟨name, .text value⟩ =
      ((Axis.ofProp? name).isSome || name = classNameProp) := Bool.or_false _

@[simp]
theorem heeds_number (component : Component) (name : String) (n : UInt32) :
    component.heeds ⟨name, .number n⟩ = (Axis.ofProp? name).isSome := Bool.or_false _

/-- Props that come to the same: the component resolves to the same class list, and the rules say
the same of the props that it records. -/
structure SameOutcome (component : Component) (p q : Props) : Prop where
  classes : (component.resolve p).classes = (component.resolve q).classes
  warnings : ∀ line, lintProps component (component.resolve p).props line =
    lintProps component (component.resolve q).props line

end Component

/-! ### What decides about the outcome -/

/-- Members that have nothing to contribute need not be asked. -/
theorem flatMap_filter_of_forall {α β : Type*} {l : List α} {f : α → Bool} {g : α → List β}
    (h : ∀ a ∈ l, f a = false → g a = []) : (l.filter f).flatMap g = l.flatMap g := by
  induction l with
  | nil => rfl
  | cons a l ih =>
    have hrest := ih fun b hb => h b (List.mem_cons_of_mem _ hb)
    cases ha : f a with
    | false =>
      rw [List.filter_cons_of_neg (by simp [ha]), hrest, List.flatMap_cons,
        h a List.mem_cons_self ha, List.nil_append]
    | true => rw [List.filter_cons_of_pos ha, List.flatMap_cons, List.flatMap_cons, hrest]

theorem valueClasses_eq_nil_of_not_isStyle (h : entry.isStyle = false) :
    valueClasses entry = [] := by
  obtain ⟨name, value⟩ := entry
  cases value with
  | flag => rfl
  | text value =>
    simp only [Attribute.isStyle, Bool.or_eq_false_iff, Option.isSome_eq_false_iff,
      Option.isNone_iff_eq_none, decide_eq_false_iff_not] at h
    simp [valueClasses, textClasses, h]
  | number n =>
    have hname : name ≠ Axis.cols.prop := by
      rintro rfl
      cases h
    simp [valueClasses, hname]

/-- The values bring in what the styles among them bring in. -/
theorem Props.flatMap_valueClasses_valued (p : Props) :
    p.valued.flatMap valueClasses = p.styles.flatMap valueClasses := by
  have hflag : ∀ entry ∈ p.entries, (!entry.value.isFlag) = false → valueClasses entry = [] := by
    rintro ⟨name, value⟩ - hflag
    obtain rfl : value = .flag := by simpa using hflag
    rfl
  rw [valued, styles, flatMap_filter_of_forall hflag,
    flatMap_filter_of_forall fun _ _ => valueClasses_eq_nil_of_not_isStyle]

namespace Component

theorem hasFlag_recordedProps_congr (hflags : component.declaredFlags p = component.declaredFlags q)
    (flag : String) :
    (component.recordedProps p).hasFlag flag = (component.recordedProps q).hasFlag flag := by
  rw [Bool.eq_iff_iff, ← Props.mem_flags_iff, ← Props.mem_flags_iff, flags_recordedProps,
    flags_recordedProps, hflags]

/-- What is recorded of an axis is its value among the styles. -/
theorem mem_recordedProps_prop_iff {axis : Axis} {value : PropValue} :
    ⟨axis.prop, value⟩ ∈ (component.recordedProps p).entries ↔ ⟨axis.prop, value⟩ ∈ p.styles := by
  rw [mem_entries_recordedProps_iff, Props.styles, List.mem_filter, effect?_prop]
  refine and_congr_right fun _ => ?_
  cases value <;> simp [Attribute.isStyle, Axis.ofProp?_prop]

theorem get?_recordedProps_congr (hstyles : p.styles = q.styles) (axis : Axis) :
    (component.recordedProps p).get? axis.prop = (component.recordedProps q).get? axis.prop := by
  apply Option.ext
  intro value
  rw [Props.get?_eq_some_iff, Props.get?_eq_some_iff, mem_recordedProps_prop_iff,
    mem_recordedProps_prop_iff, hstyles]

/-- The declared flags and the styles decide about the outcome. -/
theorem sameOutcome_of_styles (hflags : component.declaredFlags p = component.declaredFlags q)
    (hstyles : p.styles = q.styles) : component.SameOutcome p q := by
  have hflag : (component.recordedProps p).hasFlag = (component.recordedProps q).hasFlag :=
    funext (hasFlag_recordedProps_congr hflags)
  have haxis (axis : Axis) : (component.recordedProps p).get? axis.prop =
      (component.recordedProps q).get? axis.prop := get?_recordedProps_congr hstyles axis
  have hcontains (axis : Axis) : (component.recordedProps p).contains axis.prop =
      (component.recordedProps q).contains axis.prop := Props.contains_congr (haxis axis)
  constructor
  case classes =>
    -- The defaults do not look at the props themselves, only at the record of them.
    have hstaged : component.stagedClasses p = component.stagedClasses q := by
      simp only [stagedClasses, flagClasses_congr hflags, Props.flatMap_valueClasses_valued,
        hstyles, fixedClasses, axisClasses, hflag, hcontains]
    rw [resolve, resolve, hstaged]
  case warnings => exact fun line => lintProps_congr (congrFun hflag) haxis

theorem styles_eq (component : Component) (p : Props) :
    p.styles = (p.entries.filter component.heeds).filter Attribute.isStyle := by
  rw [Props.styles, List.filter_filter]
  apply List.filter_congr
  intro entry _
  cases hstyle : entry.isStyle <;> simp [heeds, hstyle]

theorem declaredFlags_eq (component : Component) (p : Props) :
    component.declaredFlags p =
      ((p.entries.filter component.heeds).filter (·.value.isFlag)).map Attribute.name := by
  rw [declaredFlags, Props.flags, List.filter_map, List.filter_filter, List.filter_filter]
  congr 1
  apply List.filter_congr
  rintro ⟨name, value⟩ -
  cases value <;> simp [PropValue.isFlag]

/-- What a component makes something of decides about the outcome. -/
theorem sameOutcome_of_filter_heeds
    (h : p.entries.filter component.heeds = q.entries.filter component.heeds) :
    component.SameOutcome p q :=
  sameOutcome_of_styles (by rw [declaredFlags_eq, declaredFlags_eq, h])
    (by rw [styles_eq component p, styles_eq component q, h])

/-! ### What has no influence -/

/-- The attributes that a component makes nothing of. -/
inductive Idle (component : Component) : Attribute → Prop
  /-- A flag that the component does not declare. -/
  | undeclared {flag : String} : component.rule.effect? flag = none → Idle component ⟨flag, .flag⟩
  /-- The prop of an axis, without a value. -/
  | bareAxis (axis : Axis) : Idle component ⟨axis.prop, .flag⟩
  /-- A declared flag, or the flag that centers, with a value. -/
  | valuedFlag {flag : String} {value : PropValue} :
      (component.rule.effect? flag).isSome = true ∨ flag = centerFlag → value.isFlag = false →
      Idle component ⟨flag, value⟩
  /-- A class list that is a number. -/
  | numberedClasses (n : UInt32) : Idle component ⟨classNameProp, .number n⟩
  /-- Any other attribute: its name is neither that of a declared flag nor that of a style. -/
  | unknown {name : String} {value : PropValue} : component.rule.effect? name = none →
      Axis.ofProp? name = none → name ≠ classNameProp → Idle component ⟨name, value⟩

/-- A flag has another name than every style. -/
theorem ofProp?_eq_none_of_flag {flag : String}
    (h : (component.rule.effect? flag).isSome = true ∨ flag = centerFlag) :
    Axis.ofProp? flag = none ∧ flag ≠ classNameProp := by
  rcases h with h | rfl
  · constructor
    · rw [Option.eq_none_iff_forall_not_mem]
      intro axis haxis
      rw [← Axis.prop_of_ofProp? haxis, effect?_prop] at h
      cases h
    · rintro rfl
      rw [effect?_className] at h
      cases h
  · decide

/-- An attribute either has no influence or is one that the component makes something of. -/
theorem idle_iff : component.Idle entry ↔ component.heeds entry = false := by
  constructor
  · intro h
    cases h with
    | undeclared hflag => rw [heeds_flag, hflag, Option.isSome_none]
    | bareAxis axis => rw [heeds_flag, effect?_prop, Option.isSome_none]
    | @valuedFlag flag value hflag hvalue =>
      obtain ⟨haxis, hclass⟩ := ofProp?_eq_none_of_flag hflag
      cases value with
      | flag => cases hvalue
      | text value => simp [haxis, hclass]
      | number n => simp [haxis]
    | numberedClasses n => rfl
    | @unknown name value hflag haxis hclass =>
      cases value <;> simp [hflag, haxis, hclass]
  · obtain ⟨name, value⟩ := entry
    intro h
    -- A value of a name that is no style's belongs to a flag or to nothing that is known.
    have hvalued (hvalue : value.isFlag = false) (haxis : Axis.ofProp? name = none)
        (hclass : name ≠ classNameProp) : component.Idle ⟨name, value⟩ := by
      cases hflag : component.rule.effect? name with
      | none => exact .unknown hflag haxis hclass
      | some effect => exact .valuedFlag (Or.inl (by rw [hflag, Option.isSome_some])) hvalue
    cases value with
    | flag => exact .undeclared (by simpa using h)
    | text value =>
      have hstyle : Axis.ofProp? name = none ∧ name ≠ classNameProp := by simpa using h
      exact hvalued rfl hstyle.1 hstyle.2
    | number n =>
      have haxis : Axis.ofProp? name = none := by simpa using h
      by_cases hclass : name = classNameProp
      · subst hclass
        exact .numberedClasses n
      · exact hvalued rfl haxis hclass

/-- Props that agree on their declared flags and on their styles, each in order, come to the same
class list and the same warnings. So an attribute that the component makes nothing of can be put in
anywhere, and taken out, without effect. -/
theorem sameOutcome_of_heeded (component : Component) :
    (∀ p q : Props, component.declaredFlags p = component.declaredFlags q → p.styles = q.styles →
        component.SameOutcome p q) ∧
      ∀ entry, component.Idle entry →
        (∀ (p : Props) (place : Nat) (h : p.contains entry.name = false),
          component.SameOutcome (p.insertAt place entry h) p) ∧
        ∀ p : Props, entry ∈ p.entries → component.SameOutcome (p.erase entry.name) p := by
  refine ⟨fun p q => sameOutcome_of_styles, fun entry hidle => ⟨?_, ?_⟩⟩
  · intro p place h
    exact sameOutcome_of_filter_heeds (Props.filter_entries_insertAt h (idle_iff.mp hidle))
  · intro p h
    exact sameOutcome_of_filter_heeds (Props.filter_entries_erase h (idle_iff.mp hidle))

/-- A stack with values for its flags, a gap without a value and a class list that is a number is the
same as one without them. -/
theorem sameOutcome_of_heeded_stack :
    let p : Props := .ofList [⟨"center", .text "both"⟩, ⟨"wrap", .flag⟩, ⟨"gap", .flag⟩,
      ⟨"align", .text "end"⟩, ⟨"fill", .number 1⟩, ⟨"wide", .flag⟩, ⟨"className", .number 4⟩]
    let q : Props := .ofList [⟨"align", .text "end"⟩, ⟨"wrap", .flag⟩]
    (stack.declaredFlags p = stack.declaredFlags q ∧ p.styles = q.styles ∧
        stack.SameOutcome p q) ∧
      stack.Idle ⟨"gap", .flag⟩ ∧
      ∃ h : q.contains "gap" = false, stack.SameOutcome (q.insertAt 0 ⟨"gap", .flag⟩ h) q :=
  ⟨⟨by decide, by decide, (sameOutcome_of_heeded stack).1 _ _ (by decide) (by decide)⟩,
    .bareAxis .gap, by decide,
    ((sameOutcome_of_heeded stack).2 _ (.bareAxis .gap)).1 _ 0 (by decide)⟩

end Component

end LayoutMarkup

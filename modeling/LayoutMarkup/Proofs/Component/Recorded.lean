import LayoutMarkup.Component.Resolution
import LayoutMarkup.Proofs.Props.Order

/-!
# Recorded props

A component looks only at the flags that it declares and at the props that have a value, each in
their order. Its resolution records just these, so the record is enough to resolve the component
again.

## Main results

* `Component.resolve_congr` — what a resolution depends on
* `Component.entries_recordedProps` — the recorded props
* `Component.declaredFlags_recordedProps`, `Component.valued_recordedProps` — nothing that a
  resolution depends on is left out of the record
* `Component.resolve_props_resolve` — the record resolves to the same
-/

namespace LayoutMarkup.Component

variable {component : Component} {p q : Props}

/-- Flags that a component does not declare have no effect. -/
theorem filterMap_effect?_declaredFlags (component : Component) (p : Props) :
    (component.declaredFlags p).filterMap component.rule.effect? =
      p.flags.filterMap component.rule.effect? := by
  rw [declaredFlags, List.filterMap_filter]
  congr 1
  funext flag
  cases component.rule.effect? flag <;> rfl

/-- The base classes are subject to the declared flags alone. -/
theorem flagClasses_congr (hflags : component.declaredFlags p = component.declaredFlags q) :
    component.flagClasses p = component.flagClasses q := by
  rw [flagClasses, flagClasses, ← filterMap_effect?_declaredFlags, hflags,
    filterMap_effect?_declaredFlags]

/-- A resolution depends on the declared flags and the valued props. -/
theorem resolve_congr (hflags : component.declaredFlags p = component.declaredFlags q)
    (hvalued : p.valued = q.valued) : component.resolve p = component.resolve q := by
  have hrecorded : component.recordedProps p = component.recordedProps q := by
    rw [recordedProps, recordedProps, hflags, hvalued]
  have hstaged : component.stagedClasses p = component.stagedClasses q := by
    rw [stagedClasses, stagedClasses, flagClasses_congr hflags, hvalued, hrecorded]
  rw [resolve, resolve, hstaged, hrecorded]

/-- The record holds the declared flags in front of the valued props. -/
theorem entries_recordedProps (component : Component) (p : Props) :
    (component.recordedProps p).entries =
      (component.declaredFlags p).map (Attribute.mk · .flag) ++ p.valued := by
  apply Props.entries_ofList
  -- These are some of the props, in another order, so no name is repeated.
  have hsome : ((component.declaredFlags p).map (Attribute.mk · .flag) ++ p.valued).Sublist
      (p.flags.map (Attribute.mk · .flag) ++ p.valued) :=
    (List.filter_sublist.map _).append_right _
  have hall := List.perm_append_comm.trans p.valued_append_flags_perm
  exact ((hall.map Attribute.name).nodup_iff.mpr p.nodup_names).sublist (hsome.map _)

theorem flags_recordedProps (component : Component) (p : Props) :
    (component.recordedProps p).flags = component.declaredFlags p :=
  (Props.flags_and_valued_of_entries (fun _ => Props.isFlag_of_mem_valued)
    (Or.inr (entries_recordedProps component p))).1

theorem valued_recordedProps (component : Component) (p : Props) :
    (component.recordedProps p).valued = p.valued :=
  (Props.flags_and_valued_of_entries (fun _ => Props.isFlag_of_mem_valued)
    (Or.inr (entries_recordedProps component p))).2

/-- Every recorded flag is declared. -/
theorem declaredFlags_recordedProps (component : Component) (p : Props) :
    component.declaredFlags (component.recordedProps p) = component.declaredFlags p := by
  rw [declaredFlags, flags_recordedProps, declaredFlags, List.filter_filter]
  simp only [Bool.and_self]

/-- The record holds the declared flags and all props with a value. -/
theorem mem_entries_recordedProps_iff {entry : Attribute} :
    entry ∈ (component.recordedProps p).entries ↔ entry ∈ p.entries ∧
      (entry.value = .flag → (component.rule.effect? entry.name).isSome = true) := by
  obtain ⟨name, value⟩ := entry
  have hall := p.valued_append_flags_perm.mem_iff (a := ⟨name, value⟩)
  rw [entries_recordedProps, ← hall, List.mem_append, List.mem_append]
  by_cases hflag : value = .flag
  · subst hflag
    have hvalued : (⟨name, .flag⟩ : Attribute) ∉ p.valued := fun h =>
      Bool.noConfusion (Props.isFlag_of_mem_valued h)
    simp [hvalued, declaredFlags]
  · have hflags (names : List String) :
        (⟨name, value⟩ : Attribute) ∉ names.map (Attribute.mk · .flag) := fun h =>
      hflag (PropValue.isFlag_eq_true_iff.mp (Props.isFlag_of_mem_map_flag h))
    simp [hflags, hflag]

/-- A recorded prop is one of the props. -/
theorem mem_of_mem_entries_recordedProps {entry : Attribute}
    (h : entry ∈ (component.recordedProps p).entries) : entry ∈ p.entries :=
  (mem_entries_recordedProps_iff.mp h).1

/-- A flag is recorded if it is given and declared. -/
theorem hasFlag_recordedProps (component : Component) (p : Props) (flag : String) :
    (component.recordedProps p).hasFlag flag =
      (p.hasFlag flag && (component.rule.effect? flag).isSome) := by
  rw [Bool.eq_iff_iff, Bool.and_eq_true, Props.hasFlag_iff, Props.hasFlag_iff,
    mem_entries_recordedProps_iff]
  simp

/-- A declared flag is recorded if it is given. -/
theorem hasFlag_recordedProps_of_isSome (p : Props) {flag : String}
    (h : (component.rule.effect? flag).isSome = true) :
    (component.recordedProps p).hasFlag flag = p.hasFlag flag := by
  rw [hasFlag_recordedProps, h, Bool.and_true]

/-- What a prop is given as text is recorded. -/
theorem text?_recordedProps (component : Component) (p : Props) (name : String) :
    (component.recordedProps p).text? name = p.text? name := by
  apply Option.ext
  intro value
  rw [Props.text?_eq_some_iff, Props.text?_eq_some_iff, mem_entries_recordedProps_iff]
  exact and_iff_left nofun

/-- No component declares the prop of an axis as a flag. -/
theorem effect?_prop (component : Component) (axis : Axis) :
    component.rule.effect? axis.prop = none := by
  cases component <;> cases axis <;> rfl

/-- No component declares the prop of a class list as a flag. -/
theorem effect?_className (component : Component) :
    component.rule.effect? classNameProp = none := by
  cases component <;> rfl

/-- The prop of an axis is recorded if it is given with a value. -/
theorem contains_prop_recordedProps (component : Component) (p : Props) (axis : Axis) :
    (component.recordedProps p).contains axis.prop =
      ((p.text? axis.prop).isSome || (p.number? axis.prop).isSome) := by
  rw [Bool.eq_iff_iff, Bool.or_eq_true, Props.contains_iff, Option.isSome_iff_exists,
    Option.isSome_iff_exists]
  simp only [mem_entries_recordedProps_iff, effect?_prop, Props.text?_eq_some_iff,
    Props.number?_eq_some_iff]
  constructor
  · rintro ⟨value, hentry, hflag⟩
    cases value with
    | flag => cases hflag rfl
    | text value => exact Or.inl ⟨value, hentry⟩
    | number n => exact Or.inr ⟨n, hentry⟩
  · rintro (⟨value, hentry⟩ | ⟨n, hentry⟩)
    · exact ⟨_, hentry, nofun⟩
    · exact ⟨_, hentry, nofun⟩

/-- The prop of an axis is recorded unless it is a bare flag. -/
theorem contains_prop_recordedProps_eq_and (component : Component) (p : Props) (axis : Axis) :
    (component.recordedProps p).contains axis.prop =
      (p.contains axis.prop && !p.hasFlag axis.prop) := by
  rw [contains_prop_recordedProps, Props.contains, Props.hasFlag, Props.text?, Props.number?]
  rcases p.get? axis.prop with - | - | - | - <;> rfl

/-! ### Resolving the record -/

/-- The declared flags, as entries. -/
theorem map_flag_declaredFlags (component : Component) (p : Props) :
    (component.declaredFlags p).map (Attribute.mk · .flag) =
      p.entries.filter fun entry =>
        (component.rule.effect? entry.name).isSome && entry.value.isFlag := by
  rw [declaredFlags, ← List.filter_filter, ← Props.map_flag_flags, List.filter_map]
  rfl

/-- A resolution records the flags that the component declares and behind them all props with a
value, both in their order, and the record resolves to the same classes and the same record. -/
theorem resolve_props_resolve (component : Component) (p : Props) :
    (component.resolve p).props.entries =
        (p.entries.filter fun entry =>
          (component.rule.effect? entry.name).isSome && entry.value.isFlag) ++
        (p.entries.filter fun entry => !entry.value.isFlag) ∧
      component.resolve (component.resolve p).props = component.resolve p := by
  constructor
  · rw [← map_flag_declaredFlags]
    exact entries_recordedProps component p
  · exact resolve_congr (declaredFlags_recordedProps component p) (valued_recordedProps component p)

end LayoutMarkup.Component

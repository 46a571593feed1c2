import LayoutMarkup.Proofs.Component.Stages

/-!
# What compiling can bring in

The safelist is exact. A class that is not in it was written into `className` or belongs to a number
of columns that the table does not hold, however many flags and values are combined. And no class is
in it for nothing: one prop at most, and never one of those two, is enough to bring it in.

## Main results

* `mem_safelist_of_columnClass?` — the numbers of columns that the table holds bring in nothing new
* `Component.exists_props_of_mem_safelist` — every class of the safelist is brought in
* `safelist_exact` — the safelist holds what compiling can bring in, each class once
-/

namespace LayoutMarkup

variable {token : String}

/-! ### Nothing else is brought in -/

/-- Up to the end of the table the class of a number of columns is that of the table. -/
theorem mem_safelist_of_columnClass? {n : UInt32} (hn : n ≤ 12) (h : columnClass? n = some token) :
    token ∈ safelist := by
  have hne : n ≠ 0 := by
    rintro rfl
    cases h
  have hpos : 0 < n.toNat := Nat.pos_of_ne_zero fun hzero => hne (UInt32.toNat_inj.mp hzero)
  have hle : n.toNat ≤ 12 := UInt32.le_iff_toNat_le.mp hn
  have htable := columnClass?_of_lt ⟨n.toNat - 1, by omega⟩
  simp only [Nat.sub_add_cancel hpos, UInt32.ofNat_toNat, h] at htable
  exact Component.mem_safelist_of_get?_table htable

/-! ### Nothing is listed for nothing -/

namespace Props

theorem entries_ofList_singleton (entry : Attribute) : (ofList [entry]).entries = [entry] :=
  entries_ofList [entry] (List.nodup_singleton _)

/-- A prop that is neither a class list nor a number brings in only what the safelist is about. -/
theorem contains_className_ofList_singleton (entry : Attribute) (hname : entry.name ≠ classNameProp)
    (hvalue : ∀ n, entry.value ≠ .number n) :
    (ofList [entry]).contains classNameProp = false ∧
      (ofList [entry]).number? Axis.cols.prop = none := by
  constructor
  · rw [← Bool.not_eq_true, contains_iff, entries_ofList_singleton]
    rintro ⟨value, h⟩
    exact hname (congrArg Attribute.name (List.mem_singleton.mp h)).symm
  · rw [← Option.not_isSome_iff_eq_none, Option.isSome_iff_exists]
    rintro ⟨n, h⟩
    rw [number?_eq_some_iff, entries_ofList_singleton] at h
    exact hvalue n (congrArg Attribute.value (List.mem_singleton.mp h)).symm

end Props

namespace Component

variable {component : Component} {props : Props} {flag : String} {effect : PropEffect}

theorem mem_classes_of_mem_orderedClasses (h : token ∈ component.orderedClasses props) :
    token ∈ (component.resolve props).classes := by
  rwa [mem_classes_resolve, stagedClasses_eq]

/-- A component without props has its base classes and all defaults. -/
theorem orderedClasses_empty (component : Component) :
    component.orderedClasses .empty =
      component.rule.base ++ component.rule.fixedDefaults
        ++ component.rule.axisDefaults.flatMap fun (axis, key) =>
          (axis.table.get? key).toList := by
  have hbase : component.rule.base.map (PropEffect.renamedBy []) = component.rule.base :=
    List.map_id _
  have hany : component.rule.suppressedBy.any Props.empty.hasFlag = false :=
    List.any_eq_false.mpr fun _ _ => Bool.false_ne_true
  have hcenter : ((component.rule.effect? centerFlag).isSome &&
      Props.empty.hasFlag centerFlag) = false := Bool.and_false _
  have heffects : component.effects .empty = [] := rfl
  have hvalued : Props.empty.valued = [] := rfl
  rw [orderedClasses, heffects, hbase, hvalued, hany, hcenter]
  simp only [List.flatMap_nil, List.append_nil, Bool.false_eq_true, if_false]
  rfl

theorem effect?_eq_some (h : (flag, effect) ∈ component.rule.effects) :
    component.rule.effect? flag = some effect := by
  have hall : ∀ entry ∈ component.rule.effects,
      component.rule.effect? entry.1 = some entry.2 := by
    cases component <;> decide
  exact hall _ h

theorem ne_className_of_mem_effects (h : (flag, effect) ∈ component.rule.effects) :
    flag ≠ classNameProp := by
  have hall : ∀ entry ∈ component.rule.effects, entry.1 ≠ classNameProp := by
    cases component <;> decide
  exact hall _ h

/-- A class that a flag replaces is a base class. -/
theorem mem_base_of_replace {old new : String}
    (h : (flag, .replace old new) ∈ component.rule.effects) : old ∈ component.rule.base := by
  have hall : ∀ entry ∈ component.rule.effects, ∀ old new,
      entry.2 = .replace old new → old ∈ component.rule.base := by
    cases component <;> simp [rule]
  exact hall _ h old new rfl

/-- A declared flag brings in all its classes. -/
theorem mem_classes_of_mem_tokens_effect (h : (flag, effect) ∈ component.rule.effects)
    (htoken : token ∈ effect.tokens) :
    token ∈ (component.resolve (.ofList [⟨flag, .flag⟩])).classes := by
  have heffects : component.effects (.ofList [⟨flag, .flag⟩]) = [effect] := by
    simp [effects, Props.flags, Props.entries_ofList_singleton, PropValue.isFlag, effect?_eq_some h]
  apply mem_classes_of_mem_orderedClasses
  rw [orderedClasses, heffects]
  simp only [List.append_assoc]
  cases effect with
  | add tokens =>
    refine List.mem_append_right _ (List.mem_append_left _ ?_)
    exact List.mem_flatMap.mpr ⟨_, List.mem_singleton_self _, htoken⟩
  | replace old new =>
    obtain rfl := List.mem_singleton.mp htoken
    refine List.mem_append_left _ (List.mem_map.mpr ⟨old, mem_base_of_replace h, ?_⟩)
    exact if_pos rfl

theorem get?_table_eq_some {axis : Axis} {key : String} (h : (key, token) ∈ axis.table) :
    axis.table.get? key = some token := by
  have hall : ∀ entry ∈ axis.table, axis.table.get? entry.1 = some entry.2 := by
    cases axis <;> decide
  exact hall _ h

/-- A key of an axis brings in its class on every component. -/
theorem mem_classes_of_mem_table (component : Component) {axis : Axis} {key : String}
    (h : (key, token) ∈ axis.table) :
    token ∈ (component.resolve (.ofList [⟨axis.prop, .text key⟩])).classes := by
  have hasked : Attribute.askedClasses ⟨axis.prop, .text key⟩ = [token] := by
    simp [Attribute.askedClasses, axis.prop_ne_className, Axis.filter_prop_eq, Axis.ofProp?_prop,
      get?_table_eq_some h]
  have hvalued : (Props.ofList [⟨axis.prop, .text key⟩]).valued = [⟨axis.prop, .text key⟩] := by
    simp [Props.valued, Props.entries_ofList_singleton, PropValue.isFlag]
  rw [mem_classes_resolve, stagedClasses_eq, orderedClasses, hvalued, List.flatMap_singleton, hasked]
  simp

/-- Every class of the safelist is brought in by some component, with no class list and no number of
columns. -/
theorem exists_props_of_mem_safelist (h : token ∈ safelist) :
    ∃ (component : Component) (props : Props), props.contains classNameProp = false ∧
      props.number? Axis.cols.prop = none ∧ token ∈ (component.resolve props).classes := by
  rcases mem_safelist_iff.mp h with ⟨component, h⟩ | ⟨axis, h⟩
  · simp only [Rule.tokens, List.mem_append] at h
    have hbare (h : token ∈ component.orderedClasses .empty) :
        ∃ (component : Component) (props : Props), props.contains classNameProp = false ∧
          props.number? Axis.cols.prop = none ∧ token ∈ (component.resolve props).classes :=
      ⟨component, .empty, rfl, rfl, mem_classes_of_mem_orderedClasses h⟩
    rw [orderedClasses_empty, List.mem_append, List.mem_append] at hbare
    rcases h with ((h | h) | h) | h
    · exact hbare (Or.inl (Or.inl h))
    · obtain ⟨⟨flag, effect⟩, hentry, htoken⟩ := List.mem_flatMap.mp h
      obtain ⟨hclass, hcols⟩ := Props.contains_className_ofList_singleton
        ⟨flag, .flag⟩ (ne_className_of_mem_effects hentry) (by simp)
      exact ⟨component, _, hclass, hcols, mem_classes_of_mem_tokens_effect hentry htoken⟩
    · exact hbare (Or.inl (Or.inr h))
    · exact hbare (Or.inr h)
  · obtain ⟨⟨key, token⟩, hentry, rfl⟩ := List.mem_map.mp h
    obtain ⟨hclass, hcols⟩ := Props.contains_className_ofList_singleton
      ⟨axis.prop, .text key⟩ axis.prop_ne_className (by simp)
    exact ⟨.box, _, hclass, hcols, mem_classes_of_mem_table .box hentry⟩

end Component

/-- A class of a component is in the safelist, a word of the class list that was given, or the class
of more columns than the table holds. Every class of the safelist is brought in by some component
without a class list and without a number of columns, and no class is in the safelist twice. -/
theorem safelist_exact :
    (∀ (component : Component) (props : Props), ∀ token ∈ (component.resolve props).classes,
        token ∈ safelist ∨
          (∃ value, props.text? classNameProp = some value ∧ token ∈ classTokens value) ∨
          ∃ n, props.number? Axis.cols.prop = some n ∧ 12 < n ∧
            token = columnStem ++ toString n.toNat) ∧
      (∀ token ∈ safelist, ∃ (component : Component) (props : Props),
        props.contains classNameProp = false ∧ props.number? Axis.cols.prop = none ∧
          token ∈ (component.resolve props).classes) ∧
      safelist.Nodup := by
  refine ⟨?_, fun _ => Component.exists_props_of_mem_safelist, nodup_safelist⟩
  intro component props token h
  cases Component.classOrigin_of_mem_classes h with
  | safelisted h => exact Or.inl h
  | @given value hentry h => exact Or.inr (Or.inl ⟨value, Props.text?_eq_some_iff.mpr hentry, h⟩)
  | @columns n hentry h =>
    by_cases hn : n ≤ 12
    · exact Or.inl (mem_safelist_of_columnClass? hn h)
    · have hlt : 12 < n := by
        rwa [UInt32.not_le] at hn
      have hne : n ≠ 0 := by
        rintro rfl
        cases h
      rw [columnClass?_of_ne_zero hne] at h
      exact Or.inr (Or.inr ⟨n, Props.number?_eq_some_iff.mpr hentry, hlt, (Option.some.inj h).symm⟩)

end LayoutMarkup

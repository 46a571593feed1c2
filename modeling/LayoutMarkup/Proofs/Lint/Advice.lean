import LayoutMarkup.Proofs.Component.Sources
import LayoutMarkup.Proofs.Lint.Rules
import LayoutMarkup.Proofs.Props.Erase

/-!
# Following the advice of a rule

Two lint rules for components advise to remove props that are said to make no difference. For the
two axes of a center that is so: without them the same classes come from the defaults. A gap of
nothing is another matter. Without it a stack or a row has its default gap, so removing the prop
leaves the classes as they are, but for the class of the gap itself, only if the component is
centered.

## Main results

* `ClassSource.erase_prop`, `ClassSource.of_erase_prop` — the classes without the prop of an axis
* `Component.mem_classes_erase_gap_iff` — what a stack or a row has without a gap of nothing
* `Component.not_forall_subset_erase_gap` — it can gain a class
* `ClassSource.of_erase_axes`, `ClassSource.erase_axes` — the classes without the axes of a center
* `Component.mem_classes_erase_axes_iff` — they are the same
-/

namespace LayoutMarkup

variable {component : Component} {props : Props} {token : String} {axis : Axis}

/-! ### Removing the prop of an axis -/

theorem Props.isValued_erase (props : Props) (name other : String) :
    (props.erase name).isValued other = (decide (other ≠ name) && props.isValued other) := by
  by_cases h : other = name <;> simp [isValued, h]

namespace Component

/-- No component declares the prop of an axis as a flag, so what is known of declared flags does not
depend on it. -/
theorem hasFlag_erase_prop (axis : Axis) {flag : String}
    (h : (component.rule.effect? flag).isSome = true) :
    (props.erase axis.prop).hasFlag flag = props.hasFlag flag := by
  have hne : flag ≠ axis.prop := by
    rintro rfl
    rw [effect?_prop] at h
    cases h
  simp [hne]

theorem isCentered_erase_prop (component : Component) (props : Props) (axis : Axis) :
    component.isCentered (props.erase axis.prop) = component.isCentered props := by
  have hne : centerFlag ≠ axis.prop := by
    cases axis <;> decide
  simp [isCentered, hne]

end Component

namespace ClassSource

/-- Without the prop of an axis, a component has all its classes but those that this prop brings
in. -/
theorem erase_prop (axis : Axis) (h : ClassSource component props token) :
    ClassSource component (props.erase axis.prop) token ∨
      (∃ key, props.text? axis.prop = some key ∧ axis.table.get? key = some token) ∨
      (axis = .cols ∧
        ∃ n, props.number? Axis.cols.prop = some n ∧ columnClass? n = some token) := by
  rcases h.of_flags_eq fun flag => Component.hasFlag_erase_prop axis with
    h | ⟨value, hvalue, htoken⟩ | ⟨other, key, hkey, htoken⟩ | ⟨n, hn, htoken⟩ |
      ⟨other, key, hentry, htoken, hvalued, hcentered⟩
  · exact Or.inl h
  · have hne : classNameProp ≠ axis.prop := axis.prop_ne_className.symm
    exact Or.inl (.word (by rwa [Props.text?_erase, if_neg hne]) htoken)
  · by_cases hother : other = axis
    · subst hother
      exact Or.inr (Or.inl ⟨key, hkey, htoken⟩)
    · have hne : other.prop ≠ axis.prop := fun heq => hother (Axis.prop_injective heq)
      exact Or.inl (.key (by rwa [Props.text?_erase, if_neg hne]) htoken)
  · by_cases hcols : axis = .cols
    · exact Or.inr (Or.inr ⟨hcols, n, hn, htoken⟩)
    · have hne : Axis.cols.prop ≠ axis.prop := fun heq => hcols (Axis.prop_injective heq).symm
      exact Or.inl (.columns (by rwa [Props.number?_erase, if_neg hne]) htoken)
  · refine Or.inl (.axisDefault hentry htoken ?_ ?_)
    · rw [Props.isValued_erase, hvalued, Bool.and_false]
    · rw [Component.isCentered_erase_prop, hcentered]

/-- Without the prop of an axis, a component that is not centered gains the default of the axis, and
nothing else. -/
theorem of_erase_prop (h : ClassSource component (props.erase axis.prop) token) :
    ClassSource component props token ∨
      component.isCentered props = false ∧
        ∃ key, (axis, key) ∈ component.rule.axisDefaults ∧ axis.table.get? key = some token := by
  rcases h.of_flags_eq fun flag hflag => (Component.hasFlag_erase_prop axis hflag).symm with
    h | ⟨value, hvalue, htoken⟩ | ⟨other, key, hkey, htoken⟩ | ⟨n, hn, htoken⟩ |
      ⟨other, key, hentry, htoken, hvalued, hcentered⟩
  · exact Or.inl h
  · rw [Props.text?_erase, Option.ite_none_left_eq_some] at hvalue
    exact Or.inl (.word hvalue.2 htoken)
  · rw [Props.text?_erase, Option.ite_none_left_eq_some] at hkey
    exact Or.inl (.key hkey.2 htoken)
  · rw [Props.number?_erase, Option.ite_none_left_eq_some] at hn
    exact Or.inl (.columns hn.2 htoken)
  · rw [Component.isCentered_erase_prop] at hcentered
    by_cases hother : other = axis
    · subst hother
      exact Or.inr ⟨hcentered, key, hentry, htoken⟩
    · have hne : other.prop ≠ axis.prop := fun heq => hother (Axis.prop_injective heq)
      rw [Props.isValued_erase, decide_eq_true hne, Bool.true_and] at hvalued
      exact Or.inl (.axisDefault hentry htoken hvalued hcentered)

end ClassSource

/-! ### A gap of nothing -/

namespace Component

/-- The rule about a gap of nothing looks at the prop alone. -/
theorem exists_unnecessaryGapNone_iff {line : Nat} :
    (∃ warning ∈ lintProps component props line, warning.rule = .unnecessaryGapNone) ↔
      (component = .stack ∨ component = .row) ∧ props.text? Axis.gap.prop = some "none" := by
  have hfound := (foundBy_lintProps component props line).exists_rule_iff (by decide)
    (show (lintUnnecessaryGapNone component props line, LintRule.unnecessaryGapNone) ∈ _ by simp)
  rw [lintProps, hfound, lintUnnecessaryGapNone, Axis.prop]
  split <;> simp_all

/-- Without the prop only the class list that was given can hold the class of a gap of nothing: the
default gap is another. -/
theorem exists_word_of_erase_gap (hcomponent : component = .stack ∨ component = .row)
    (h : ClassSource component (props.erase Axis.gap.prop) "gap-0") :
    ∃ value, props.text? classNameProp = some value ∧ "gap-0" ∈ classTokens value := by
  rcases h.of_stem_isPrefix (show Axis.gap ∈ Axis.exclusive by decide) (by decide) with
    ⟨value, hvalue, hword⟩ | ⟨key, hkey, -⟩ | ⟨hcols, -⟩ | ⟨key, hentry, htoken, -, -⟩
  · rw [Props.text?_erase, Option.ite_none_left_eq_some] at hvalue
    exact ⟨value, hvalue.2, hword⟩
  · rw [Props.text?_erase, if_pos rfl] at hkey
    cases hkey
  · cases hcols
  · rw [(gap_mem_axisDefaults_iff hcomponent).mp hentry] at htoken
    exact absurd htoken (by decide)

/-- Without a gap of nothing a component has the classes that it had, but for that of the gap, which
stays only if the class list holds it too. -/
theorem classSource_erase_gap (hgap : props.text? Axis.gap.prop = some "none")
    (h : ClassSource component props token)
    (hword : token = "gap-0" →
      ∃ value, props.text? classNameProp = some value ∧ token ∈ classTokens value) :
    ClassSource component (props.erase Axis.gap.prop) token := by
  rcases h.erase_prop .gap with hlater | ⟨key, hkey, htoken⟩ | ⟨hcols, -⟩
  · exact hlater
  · rw [hgap] at hkey
    obtain rfl := Option.some.inj hkey
    obtain rfl : "gap-0" = token := Option.some.inj htoken
    obtain ⟨value, hvalue, hmem⟩ := hword rfl
    exact .word (by rwa [Props.text?_erase, if_neg (by decide)]) hmem
  · cases hcols

/-- Without a gap a stack or a row that is not centered has the default gap. -/
theorem classSource_default_of_erase_gap (hcomponent : component = .stack ∨ component = .row)
    (hflag : props.hasFlag centerFlag = false) :
    ClassSource component (props.erase Axis.gap.prop) "gap-4" := by
  refine .axisDefault ((gap_mem_axisDefaults_iff hcomponent).mpr rfl) rfl ?_ ?_
  · rw [Props.isValued_erase, decide_eq_false (by simp), Bool.false_and]
  · rw [isCentered_erase_prop, isCentered_eq hcomponent, hflag]

/-- What a stack or a row has without a gap of nothing: all that it had but for the class of that
gap, unless the class list that was given holds it too, and, unless it is centered, the class of the
default gap. -/
theorem mem_classes_erase_gap_iff {line : Nat}
    (h : ∃ warning ∈ lintProps component props line, warning.rule = .unnecessaryGapNone)
    (token : String) :
    token ∈ (component.resolve (props.erase Axis.gap.prop)).classes ↔
      (token ∈ (component.resolve props).classes ∧ (token = "gap-0" →
        ∃ value, props.text? classNameProp = some value ∧ token ∈ classTokens value)) ∨
      (token = "gap-4" ∧ props.hasFlag centerFlag = false) := by
  obtain ⟨hcomponent, hgap⟩ := exists_unnecessaryGapNone_iff.mp h
  rw [mem_classes_iff, mem_classes_iff]
  constructor
  · intro hsource
    rcases hsource.of_erase_prop with hformer | ⟨hcentered, key, hentry, htoken⟩
    · refine Or.inl ⟨hformer, ?_⟩
      rintro rfl
      exact exists_word_of_erase_gap hcomponent hsource
    · rw [(gap_mem_axisDefaults_iff hcomponent).mp hentry] at htoken
      obtain rfl : "gap-4" = token := Option.some.inj htoken
      exact Or.inr ⟨rfl, isCentered_eq hcomponent props ▸ hcentered⟩
  · rintro (⟨hsource, hword⟩ | ⟨rfl, hflag⟩)
    · exact classSource_erase_gap hgap hsource hword
    · exact classSource_default_of_erase_gap hcomponent hflag

/-- A stack with a gap of nothing has the default gap without it. -/
theorem mem_classes_erase_gap_stack :
    (∃ warning ∈ lintProps .stack (.ofList [⟨"gap", .text "none"⟩]) 1,
        warning.rule = .unnecessaryGapNone) ∧
      "gap-4" ∈ (stack.resolve ((Props.ofList [⟨"gap", .text "none"⟩]).erase Axis.gap.prop)).classes :=
  have h : ∃ warning ∈ lintProps .stack (.ofList [⟨"gap", .text "none"⟩]) 1,
      warning.rule = .unnecessaryGapNone := by decide
  ⟨h, (mem_classes_erase_gap_iff h "gap-4").mpr (Or.inr ⟨rfl, by decide⟩)⟩

/-- Removing a gap of nothing can bring a class in: the advice to remove it is not harmless. -/
theorem not_forall_subset_erase_gap :
    ¬ ∀ (component : Component) (props : Props) (line : Nat),
      (∃ warning ∈ lintProps component props line, warning.rule = .unnecessaryGapNone) →
        ∀ token ∈ (component.resolve (props.erase Axis.gap.prop)).classes,
          token ∈ (component.resolve props).classes := by
  intro h
  have hgained := h .stack (.ofList [⟨"gap", .text "none"⟩]) 1 (by decide) "gap-4" (by decide)
  exact absurd hgained (by decide)

end Component

/-! ### Both axes of a center -/

namespace Component

/-- The fixed defaults of a center are what the flags add that keep them away. -/
theorem mem_fixedDefaults_center_iff : token ∈ center.rule.fixedDefaults ↔
    ∃ flag ∈ center.rule.suppressedBy, ∃ tokens,
      (flag, .add tokens) ∈ center.rule.effects ∧ token ∈ tokens := by
  simp [rule]

/-- None of these flags replaces a class. -/
theorem notMem_suppressedBy_of_replace {flag old new : String}
    (h : (flag, .replace old new) ∈ center.rule.effects) : flag ∉ center.rule.suppressedBy := by
  simp_all [rule]

theorem hasFlag_erase_axes (props : Props) (flag : String) :
    ((props.erase "horizontal").erase "vertical").hasFlag flag =
      (decide (flag ∉ center.rule.suppressedBy) && props.hasFlag flag) := by
  by_cases hh : flag = "horizontal" <;> by_cases hv : flag = "vertical" <;> simp [hh, hv, rule]

end Component

namespace ClassSource

open Component

variable (hhorizontal : props.hasFlag "horizontal" = true)
  (hvertical : props.hasFlag "vertical" = true)

include hhorizontal hvertical

theorem text?_erase_axes (name : String) :
    ((props.erase "horizontal").erase "vertical").text? name = props.text? name := by
  have hvertical' : (props.erase "horizontal").hasFlag "vertical" = true := by
    simp [hvertical]
  rw [Props.text?_erase_of_hasFlag hvertical', Props.text?_erase_of_hasFlag hhorizontal]

theorem number?_erase_axes (name : String) :
    ((props.erase "horizontal").erase "vertical").number? name = props.number? name := by
  have hvertical' : (props.erase "horizontal").hasFlag "vertical" = true := by
    simp [hvertical]
  rw [Props.number?_erase_of_hasFlag hvertical', Props.number?_erase_of_hasFlag hhorizontal]

/-- Without its two axes a center gains no class: what the defaults bring in, the two flags brought
in before. -/
theorem of_erase_axes
    (h : ClassSource .center ((props.erase "horizontal").erase "vertical") token) :
    ClassSource .center props token := by
  cases h with
  | base hbase hnone =>
    refine .base hbase fun flag new hreplace => ?_
    have hflag := hnone flag new hreplace
    rwa [hasFlag_erase_axes, decide_eq_true (notMem_suppressedBy_of_replace hreplace),
      Bool.true_and] at hflag
  | replacement hreplace hflag =>
    rw [hasFlag_erase_axes, Bool.and_eq_true] at hflag
    exact .replacement hreplace hflag.2
  | added hadd hflag htoken =>
    rw [hasFlag_erase_axes, Bool.and_eq_true] at hflag
    exact .added hadd hflag.2 htoken
  | word hvalue htoken =>
    rw [text?_erase_axes hhorizontal hvertical] at hvalue
    exact .word hvalue htoken
  | key hkey htoken =>
    rw [text?_erase_axes hhorizontal hvertical] at hkey
    exact .key hkey htoken
  | columns hn htoken =>
    rw [number?_erase_axes hhorizontal hvertical] at hn
    exact .columns hn htoken
  | fixedDefault hfixed _ =>
    have hgiven : ∀ flag ∈ center.rule.suppressedBy, props.hasFlag flag = true := by
      simp [rule, hhorizontal, hvertical]
    obtain ⟨flag, hflag, tokens, hadd, htoken⟩ := mem_fixedDefaults_center_iff.mp hfixed
    exact .added hadd (hgiven flag hflag) htoken
  | axisDefault hentry _ _ _ => exact absurd hentry List.not_mem_nil

/-- Without its two axes a center loses no class: what the two flags brought in, the defaults bring
in now. -/
theorem erase_axes (h : ClassSource .center props token) :
    ClassSource .center ((props.erase "horizontal").erase "vertical") token := by
  cases h with
  | base hbase hnone =>
    refine .base hbase fun flag new hreplace => ?_
    rw [hasFlag_erase_axes, hnone flag new hreplace, Bool.and_false]
  | replacement hreplace hflag =>
    refine .replacement hreplace ?_
    rw [hasFlag_erase_axes, decide_eq_true (notMem_suppressedBy_of_replace hreplace), hflag,
      Bool.and_self]
  | @added flag tokens hadd hflag htoken =>
    by_cases hmem : flag ∈ center.rule.suppressedBy
    · refine .fixedDefault (mem_fixedDefaults_center_iff.mpr ⟨flag, hmem, tokens, hadd, htoken⟩) ?_
      intro other hother
      rw [hasFlag_erase_axes, decide_eq_false (not_not_intro hother), Bool.false_and]
    · refine .added hadd ?_ htoken
      rw [hasFlag_erase_axes, decide_eq_true hmem, hflag, Bool.and_self]
  | word hvalue htoken =>
    exact .word ((text?_erase_axes hhorizontal hvertical _).trans hvalue) htoken
  | key hkey htoken => exact .key ((text?_erase_axes hhorizontal hvertical _).trans hkey) htoken
  | columns hn htoken =>
    exact .columns ((number?_erase_axes hhorizontal hvertical _).trans hn) htoken
  | fixedDefault _ hnone =>
    rw [hnone "horizontal" List.mem_cons_self] at hhorizontal
    cases hhorizontal
  | axisDefault hentry _ _ _ => exact absurd hentry List.not_mem_nil

end ClassSource

namespace Component

/-- A center that is centered along both axes one by one is warned of, and without the two flags it
has the same classes. -/
theorem mem_classes_erase_axes_iff (hhorizontal : props.hasFlag "horizontal" = true)
    (hvertical : props.hasFlag "vertical" = true) (line : Nat) :
    (∃ warning, lintProps .center props line = [warning] ∧ warning.rule = .redundantAxes) ∧
      ∀ token, token ∈ (center.resolve ((props.erase "horizontal").erase "vertical")).classes ↔
        token ∈ (center.resolve props).classes := by
  constructor
  · simp [lintProps, lintRedundantAxes, lintRowJustifyBetween, lintConflictingCenterAlign,
      lintUnnecessaryGapNone, hhorizontal, hvertical]
  · intro token
    rw [mem_classes_iff, mem_classes_iff]
    exact ⟨.of_erase_axes hhorizontal hvertical, .erase_axes hhorizontal hvertical⟩

/-- The flags may stand anywhere among other props. -/
theorem mem_classes_erase_axes_inline :
    let props : Props := .ofList [⟨"vertical", .flag⟩, ⟨"padding", .text "lg"⟩, ⟨"inline", .flag⟩,
      ⟨"className", .text "wide flex"⟩, ⟨"horizontal", .flag⟩, ⟨"fill", .flag⟩]
    (props.hasFlag "horizontal" = true ∧ props.hasFlag "vertical" = true) ∧
      (∃ warning, lintProps .center props 7 = [warning] ∧ warning.rule = .redundantAxes) ∧
      ∀ token, token ∈ (center.resolve ((props.erase "horizontal").erase "vertical")).classes ↔
        token ∈ (center.resolve props).classes :=
  ⟨⟨by decide, by decide⟩, mem_classes_erase_axes_iff (by decide) (by decide) 7⟩

end Component

end LayoutMarkup

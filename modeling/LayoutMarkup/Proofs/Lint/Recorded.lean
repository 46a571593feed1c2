import LayoutMarkup.Proofs.Component.Recorded
import LayoutMarkup.Proofs.Lint.Rules

/-!
# What the rules for components see of the record

A component can be linted with the props that it is given or with those that its resolution records.
The record leaves out flags that the component does not declare, and of these only one is ever asked
for: the rule about alignment asks whether a centered stack is given an alignment at all, so it
counts a bare flag `align`, which aligns nothing. In all else the rules ask for declared flags and
for texts, and see the same.

## Main definitions

* `Component.AlignsByFlag` — a centered stack with a bare flag for its alignment

## Main results

* `lintConflictingCenterAlign_of_alignsByFlag`, `lintConflictingCenterAlign_recordedProps` — the one
  rule that sees a difference
* `lintProps_resolve` — the warnings about given and about recorded props
-/

namespace LayoutMarkup

variable {component : Component} {props : Props}

/-- A stack is given the flag that centers it, and a bare flag in the place of an alignment. -/
def Component.AlignsByFlag (component : Component) (props : Props) : Prop :=
  component = .stack ∧ props.hasFlag centerFlag = true ∧ props.hasFlag Axis.align.prop = true

instance : Decidable (component.AlignsByFlag props) := inferInstanceAs (Decidable (_ ∧ _ ∧ _))

/-! ### The rules one by one -/

/-- A center declares all flags that are asked for. -/
theorem lintRedundantAxes_recordedProps (component : Component) (props : Props) (line : Nat) :
    lintRedundantAxes component (component.recordedProps props) line =
      lintRedundantAxes component props line := by
  by_cases hcomponent : component = .center
  · subst hcomponent
    have hdeclared (flag : String) (h : (Component.center.rule.effect? flag).isSome = true) :
        (Component.center.recordedProps props).hasFlag flag = props.hasFlag flag :=
      Component.hasFlag_recordedProps_of_isSome props h
    rw [lintRedundantAxes, lintRedundantAxes, hdeclared "horizontal" rfl, hdeclared "vertical" rfl,
      hdeclared "fill" rfl]
  · simp [lintRedundantAxes, hcomponent]

theorem lintRowJustifyBetween_recordedProps (component : Component) (props : Props) (line : Nat) :
    lintRowJustifyBetween component (component.recordedProps props) line =
      lintRowJustifyBetween component props line := by
  rw [lintRowJustifyBetween, lintRowJustifyBetween, Component.text?_recordedProps]

theorem lintUnnecessaryGapNone_recordedProps (component : Component) (props : Props) (line : Nat) :
    lintUnnecessaryGapNone component (component.recordedProps props) line =
      lintUnnecessaryGapNone component props line := by
  rw [lintUnnecessaryGapNone, lintUnnecessaryGapNone, Component.text?_recordedProps]

/-- A bare flag in the place of an alignment is not recorded, and the rule counts it. -/
theorem lintConflictingCenterAlign_of_alignsByFlag (h : component.AlignsByFlag props) (line : Nat) :
    lintConflictingCenterAlign component (component.recordedProps props) line = none ∧
      ∃ warning, lintConflictingCenterAlign component props line = some warning ∧
        warning.rule = .conflictingCenterAlign := by
  obtain ⟨rfl, hcenter, halign⟩ := h
  have hgiven : props.contains "align" = true :=
    Props.contains_iff.mpr ⟨.flag, Props.hasFlag_iff.mp halign⟩
  have hrecorded : (Component.stack.recordedProps props).contains "align" = false := by
    rw [← Axis.prop, Component.contains_prop_recordedProps_eq_and, halign, Bool.not_true,
      Bool.and_false]
  constructor
  · simp [lintConflictingCenterAlign, hrecorded]
  · exact ⟨_, if_pos (by simp [hcenter, hgiven]), rfl⟩

/-- An alignment with a value is recorded. -/
theorem lintConflictingCenterAlign_recordedProps (h : ¬ component.AlignsByFlag props) (line : Nat) :
    lintConflictingCenterAlign component (component.recordedProps props) line =
      lintConflictingCenterAlign component props line := by
  by_cases hcomponent : component = .stack
  · subst hcomponent
    have hcenter : (Component.stack.recordedProps props).hasFlag centerFlag =
        props.hasFlag centerFlag := Component.hasFlag_recordedProps_of_isSome props rfl
    have halign : (Component.stack.recordedProps props).contains "align" =
        (props.contains "align" && !props.hasFlag "align") :=
      Component.contains_prop_recordedProps_eq_and .stack props .align
    rw [lintConflictingCenterAlign, lintConflictingCenterAlign, hcenter, halign]
    cases hflag : props.hasFlag centerFlag with
    | false => simp
    | true =>
      have hvalue : props.hasFlag "align" = false := by
        rw [← Bool.not_eq_true]
        exact fun halign => h ⟨rfl, hflag, halign⟩
      rw [hvalue, Bool.not_false, Bool.and_true, Bool.and_true]
  · simp [lintConflictingCenterAlign, hcomponent]

/-! ### All rules -/

/-- The warnings about given props are those about the recorded props, but for one case: about a
centered stack with a bare flag in the place of an alignment there is one warning more, which says
that the two conflict. -/
theorem lintProps_resolve (component : Component) (props : Props) (line : Nat) :
    (lintProps component props line = lintProps component (component.resolve props).props line ↔
      ¬ component.AlignsByFlag props) ∧
    (component.AlignsByFlag props → ∃ warning, warning.rule = .conflictingCenterAlign ∧
      lintProps component props line =
        warning :: lintProps component (component.resolve props).props line) := by
  have hrecorded : (component.resolve props).props = component.recordedProps props := rfl
  have hmore (h : component.AlignsByFlag props) :
      ∃ warning, warning.rule = .conflictingCenterAlign ∧ lintProps component props line =
        warning :: lintProps component (component.resolve props).props line := by
    obtain ⟨hnone, warning, hsome, hrule⟩ := lintConflictingCenterAlign_of_alignsByFlag h line
    -- The rules in front of this one are about other components.
    obtain ⟨rfl, -, -⟩ := h
    refine ⟨warning, hrule, ?_⟩
    rw [hrecorded, lintProps, lintProps, lintRedundantAxes_recordedProps,
      lintRowJustifyBetween_recordedProps, lintUnnecessaryGapNone_recordedProps, hnone, hsome]
    rfl
  refine ⟨⟨?_, ?_⟩, hmore⟩
  · intro heq h
    obtain ⟨warning, -, hcons⟩ := hmore h
    exact List.cons_ne_self _ _ (hcons.symm.trans heq)
  · intro h
    rw [hrecorded, lintProps, lintProps, lintRedundantAxes_recordedProps,
      lintRowJustifyBetween_recordedProps, lintConflictingCenterAlign_recordedProps h,
      lintUnnecessaryGapNone_recordedProps]

/-- Of two warnings about a stack only the one about its gap is left when the record is linted. -/
theorem lintProps_resolve_stack :
    let props : Props := .ofList [⟨"gap", .text "none"⟩, ⟨"align", .flag⟩, ⟨"reverse", .flag⟩,
      ⟨centerFlag, .flag⟩]
    Component.stack.AlignsByFlag props ∧
      (lintProps .stack (Component.stack.resolve props).props 4).map Warning.rule =
        [.unnecessaryGapNone] ∧
      (lintProps .stack props 4).map Warning.rule =
        [.conflictingCenterAlign, .unnecessaryGapNone] := by
  intro props
  have hflag : Component.stack.AlignsByFlag props := by decide
  have hrecorded : (lintProps .stack (Component.stack.resolve props).props 4).map Warning.rule =
      [.unnecessaryGapNone] := by decide
  obtain ⟨warning, hrule, hcons⟩ := (lintProps_resolve .stack props 4).2 hflag
  exact ⟨hflag, hrecorded, by rw [hcons, List.map_cons, hrule, hrecorded]⟩

end LayoutMarkup

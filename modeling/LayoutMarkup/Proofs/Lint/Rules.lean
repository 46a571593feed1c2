import LayoutMarkup.Lint.Props
import LayoutMarkup.Lint.Utility
import LayoutMarkup.Proofs.Props.Order
import Mathlib.Data.List.Forall2

/-!
# The warnings of one rule

A lint asks its rules one after the other, and each of them finds one warning or none. So what a
lint says under the name of a rule is what that rule has found, whatever the others have.

## Main definitions

* `FoundBy` — what rules have found, rule by rule

## Main results

* `foundBy_lintProps`, `foundBy_lintClasses` — each rule reports under its own name
* `FoundBy.map_rule_sublist`, `FoundBy.map_rule_eq_filter` — the order of the warnings
* `FoundBy.filter_rule` — the warnings of one rule
* `lintProps_congr` — which props the rules for components look at
-/

namespace LayoutMarkup

/-- What rules have found, one after the other: each reports under its own name. -/
def FoundBy (found : List (Option Warning)) (rules : List LintRule) : Prop :=
  List.Forall₂ (fun result rule => ∀ warning, result = some warning → warning.rule = rule) found
    rules

namespace FoundBy

variable {found : List (Option Warning)} {rules : List LintRule} {result : Option Warning}
  {rule : LintRule}

theorem rule_mem (h : FoundBy found rules) {warning : Warning}
    (hwarning : warning ∈ found.filterMap id) : warning.rule ∈ rules := by
  induction h with
  | nil => cases hwarning
  | @cons first rule found rules hfirst _ ih =>
    cases first with
    | none => exact List.mem_cons_of_mem _ (ih hwarning)
    | some head =>
      rcases List.mem_cons.mp hwarning with rfl | hwarning
      · exact List.mem_cons.mpr (Or.inl (hfirst _ rfl))
      · exact List.mem_cons_of_mem _ (ih hwarning)

/-- Warnings come in the order of the rules, at most one from each. -/
theorem map_rule_sublist (h : FoundBy found rules) :
    ((found.filterMap id).map Warning.rule).Sublist rules := by
  induction h with
  | nil => exact List.Sublist.refl []
  | @cons first rule found rules hfirst _ ih =>
    cases first with
    | none => exact ih.cons rule
    | some warning =>
      rw [List.filterMap_cons_some (by rfl), List.map_cons, hfirst warning rfl]
      exact ih.cons_cons rule

/-- The rules that warn are those that have found something, in their order. -/
theorem map_rule_eq_filter (h : FoundBy found rules) {applies : LintRule → Prop}
    [DecidablePred applies]
    (happlies : List.Forall₂ (fun result rule => result.isSome = true ↔ applies rule) found rules) :
    (found.filterMap id).map Warning.rule = rules.filter applies := by
  induction h with
  | nil => rfl
  | @cons first rule found rules hfirst _ ih =>
    obtain ⟨hrule, hrest⟩ := List.forall₂_cons.mp happlies
    cases first with
    | none =>
      rw [List.filterMap_cons_none (by rfl), List.filter_cons_of_neg (by simpa using hrule),
        ih hrest]
    | some warning =>
      rw [List.filterMap_cons_some (by rfl), List.map_cons, hfirst warning rfl,
        List.filter_cons_of_pos (by simpa using hrule), ih hrest]

/-- The warnings of one rule are what it has found. -/
theorem filter_rule (h : FoundBy found rules) (hnodup : rules.Nodup)
    (hmem : (result, rule) ∈ found.zip rules) :
    (found.filterMap id).filter (·.rule = rule) = result.toList := by
  induction h with
  | nil => cases hmem
  | @cons first head found rules hfirst hrest ih =>
    obtain ⟨hnew, hnodup⟩ := List.nodup_cons.mp hnodup
    rw [List.zip_cons_cons, List.mem_cons] at hmem
    rcases hmem with hmem | hmem
    · -- The rule comes first, and no later one has its name.
      cases hmem
      have hlater : (found.filterMap id).filter (·.rule = rule) = [] := by
        rw [List.filter_eq_nil_iff]
        intro warning hwarning
        have hrule := rule_mem hrest hwarning
        simpa using ne_of_mem_of_not_mem hrule hnew
      cases result with
      | none => exact hlater
      | some warning =>
        rw [List.filterMap_cons_some (by rfl), List.filter_cons_of_pos (by simp [hfirst]), hlater]
        rfl
    · have hne : head ≠ rule := fun heq => hnew (heq ▸ (List.of_mem_zip hmem).2)
      rw [← ih hnodup hmem]
      cases first with
      | none => rfl
      | some warning =>
        rw [List.filterMap_cons_some (by rfl), List.filter_cons_of_neg (by simp [hfirst, hne])]

/-- A rule has a warning if it has found one. -/
theorem exists_rule_iff (h : FoundBy found rules) (hnodup : rules.Nodup)
    (hmem : (result, rule) ∈ found.zip rules) :
    (∃ warning ∈ found.filterMap id, warning.rule = rule) ↔ result.isSome = true := by
  have hfilter := h.filter_rule hnodup hmem
  constructor
  · rintro ⟨warning, hwarning, hrule⟩
    have hmem : warning ∈ result.toList := by
      rw [← hfilter]
      exact List.mem_filter.mpr ⟨hwarning, by simpa using hrule⟩
    rw [Option.mem_toList.mp hmem, Option.isSome_some]
  · intro hsome
    obtain ⟨warning, rfl⟩ := Option.isSome_iff_exists.mp hsome
    have hwarning : warning ∈ (found.filterMap id).filter (·.rule = rule) := by
      rw [hfilter]
      exact List.mem_singleton_self _
    obtain ⟨hwarning, hrule⟩ := List.mem_filter.mp hwarning
    exact ⟨warning, hwarning, by simpa using hrule⟩

end FoundBy

/-- The rules for components report under their own names. -/
theorem foundBy_lintProps (component : Component) (props : Props) (line : Nat) :
    FoundBy [lintRedundantAxes component props line, lintRowJustifyBetween component props line,
        lintConflictingCenterAlign component props line,
        lintUnnecessaryGapNone component props line]
      [.redundantAxes, .rowJustifyBetween, .conflictingCenterAlign, .unnecessaryGapNone] := by
  refine .cons ?_ (.cons ?_ (.cons ?_ (.cons ?_ .nil)))
  all_goals
    intro warning hwarning
    obtain ⟨-, hwarning⟩ := Option.ite_none_right_eq_some.mp hwarning
    cases hwarning
    rfl

/-- The rules for utility classes report under their own names. -/
theorem foundBy_lintClasses (classes : ClassList) (line : Nat) (empty : Bool) :
    FoundBy [lintStack classes line, lintRow classes line, lintCenter classes line,
        lintSpread classes line, lintGrid classes line, lintSpacer classes line empty]
      [.preferStack, .preferRow, .preferCenter, .preferSpread, .preferGrid, .preferSpacer] := by
  refine .cons ?_ (.cons ?_ (.cons ?_ (.cons ?_ (.cons ?_ (.cons ?_ .nil)))))
  all_goals
    intro warning hwarning
    obtain ⟨-, hwarning⟩ := Option.ite_none_right_eq_some.mp hwarning
  case refine_5 =>
    obtain ⟨n, -, rfl⟩ := Option.map_eq_some_iff.mp hwarning
    rfl
  all_goals
    cases hwarning
    rfl

/-! ### What the rules for components look at -/

/-- The rules for components look at flags and at the props of axes. -/
theorem lintProps_congr {component : Component} {p q : Props} {line : Nat}
    (hflags : ∀ flag, p.hasFlag flag = q.hasFlag flag)
    (haxes : ∀ axis : Axis, p.get? axis.prop = q.get? axis.prop) :
    lintProps component p line = lintProps component q line := by
  have hjustify : p.text? "justify" = q.text? "justify" := Props.text?_congr (haxes .justify)
  have halign : p.contains "align" = q.contains "align" := Props.contains_congr (haxes .align)
  have hgap : p.text? "gap" = q.text? "gap" := Props.text?_congr (haxes .gap)
  simp only [lintProps, lintRedundantAxes, lintRowJustifyBetween, lintConflictingCenterAlign,
    lintUnnecessaryGapNone, hflags, hjustify, halign, hgap]

end LayoutMarkup

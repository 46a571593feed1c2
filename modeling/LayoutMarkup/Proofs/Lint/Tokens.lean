import LayoutMarkup.Proofs.Lint.Rules

/-!
# Which classes the rules for utility classes ask for

Each rule for utility classes asks whether certain classes are in a class list, or whether some class
of the list is of a certain form. So which rules report something depends on the set of the classes
alone, neither on their order nor on repetitions nor on the blanks between them, although what is
suggested may depend on the order. Further classes take no report away, with one exception: a flex
container with a gap counts as a row unless it is a column.

## Main definitions

* `LintRule.AppliesTo` — when a rule for utility classes reports something

## Main results

* `map_rule_lintClasses` — the rules that report something are those that apply, in their order
* `LintRule.appliesTo_congr`, `LintRule.AppliesTo.mono` — what applying depends on
* `map_rule_lintClasses_of_tokens` — the same of what is reported
-/

namespace LayoutMarkup

open Text

variable {tokens more : List String} {empty : Bool} {rule : LintRule}

/-! ### When a rule applies -/

/-- When a rule for utility classes reports something about an element with these classes, which may
be empty of content. -/
def LintRule.AppliesTo (tokens : List String) (empty : Bool) : LintRule → Prop
  | preferStack => "flex" ∈ tokens ∧ "flex-col" ∈ tokens
  | preferRow =>
    "flex" ∈ tokens ∧ ("flex-row" ∈ tokens ∨
      (∃ token ∈ tokens, ClassList.gapStem.toList <+: token.toList) ∧ "flex-col" ∉ tokens)
  | preferCenter => "flex" ∈ tokens ∧ "items-center" ∈ tokens ∧ "justify-center" ∈ tokens
  | preferSpread => "flex" ∈ tokens ∧ "justify-between" ∈ tokens
  | preferGrid => "grid" ∈ tokens ∧ ∃ token ∈ tokens, (ClassList.columnsOf? token).isSome = true
  | preferSpacer => empty = true ∧ "flex-1" ∈ tokens
  | _ => False

namespace LintRule

instance : DecidablePred (AppliesTo tokens empty)
  | preferStack | preferSpread => inferInstanceAs (Decidable (_ ∧ _))
  | preferRow => inferInstanceAs (Decidable (_ ∧ (_ ∨ (∃ token ∈ tokens, _) ∧ _)))
  | preferCenter => inferInstanceAs (Decidable (_ ∧ _ ∧ _))
  | preferGrid => inferInstanceAs (Decidable (_ ∧ ∃ token ∈ tokens, _))
  | preferSpacer => inferInstanceAs (Decidable (_ ∧ _))
  | redundantAxes | rowJustifyBetween | conflictingCenterAlign | unnecessaryGapNone =>
    inferInstanceAs (Decidable False)

/-- What applies depends on the set of the classes. -/
theorem appliesTo_congr (h : ∀ token, token ∈ tokens ↔ token ∈ more) :
    rule.AppliesTo tokens empty ↔ rule.AppliesTo more empty := by
  cases rule <;> simp only [AppliesTo, h]

/-- A rule that applies to some classes applies to more classes, unless it is the one about rows. -/
theorem AppliesTo.mono (h : tokens ⊆ more) (hrule : rule ≠ preferRow)
    (happlies : rule.AppliesTo tokens empty) : rule.AppliesTo more empty := by
  cases rule with
  | preferRow => exact absurd rfl hrule
  | preferStack | preferSpread => exact ⟨h happlies.1, h happlies.2⟩
  | preferCenter =>
    obtain ⟨hflex, hitems, hjustify⟩ := happlies
    exact ⟨h hflex, h hitems, h hjustify⟩
  | preferGrid =>
    obtain ⟨hgrid, token, htoken, hcolumns⟩ := happlies
    exact ⟨h hgrid, token, h htoken, hcolumns⟩
  | preferSpacer => exact ⟨happlies.1, h happlies.2⟩
  | redundantAxes | rowJustifyBetween | conflictingCenterAlign | unnecessaryGapNone =>
    exact happlies

/-- The rule about rows asks that a class is missing, the class of a column. If it applies to some
classes, it does not apply to more classes just if this one comes in and the class of a row does not,
neither then nor before. -/
theorem AppliesTo.not_preferRow_iff (h : tokens ⊆ more)
    (happlies : preferRow.AppliesTo tokens empty) : ¬ preferRow.AppliesTo more empty ↔
      "flex-row" ∉ tokens ∧ "flex-col" ∈ more ∧ "flex-row" ∉ more := by
  obtain ⟨hflex, hrow⟩ := happlies
  constructor
  · intro hlost
    have hnoRow : "flex-row" ∉ more := fun hmem => hlost ⟨h hflex, Or.inl hmem⟩
    have hbefore : "flex-row" ∉ tokens := fun hmem => hnoRow (h hmem)
    -- So the rule applied for the sake of a gap, and the gap is still there.
    obtain ⟨⟨token, htoken, hgap⟩, -⟩ := hrow.resolve_left hbefore
    refine ⟨hbefore, ?_, hnoRow⟩
    by_contra hcol
    exact hlost ⟨h hflex, Or.inr ⟨⟨token, h htoken, hgap⟩, hcol⟩⟩
  · rintro ⟨-, hcol, hnoRow⟩ ⟨-, hmem | ⟨-, hnoCol⟩⟩
    · exact hnoRow hmem
    · exact hnoCol hcol

end LintRule

/-! ### What is reported -/

theorem ClassList.has_iff {classes : ClassList} {token : String} :
    classes.has token = true ↔ token ∈ classes.tokens :=
  List.contains_iff_mem

theorem ClassList.setsGap_iff {classes : ClassList} : classes.setsGap = true ↔
    ∃ token ∈ classes.tokens, gapStem.toList <+: token.toList := by
  simp only [setsGap, List.any_eq_true, List.isPrefixOf_iff_prefix]

/-- A number of columns is found if some class states one. -/
theorem isSome_lintGrid_iff {classes : ClassList} {line : Nat} :
    (lintGrid classes line).isSome = true ↔ LintRule.preferGrid.AppliesTo classes.tokens empty := by
  rw [lintGrid, LintRule.AppliesTo, ← ClassList.has_iff, ← List.findSome?_isSome_iff]
  by_cases hgrid : classes.has "grid" = true
  · rw [if_pos hgrid, Option.isSome_map, and_iff_right hgrid, ClassList.columns?]
  · simp [hgrid]

/-- Each rule for utility classes has found something if it applies to the classes. -/
theorem forall₂_isSome_iff_appliesTo (classes : ClassList) (line : Nat) (empty : Bool) :
    List.Forall₂ (fun result rule =>
        Option.isSome result = true ↔ LintRule.AppliesTo classes.tokens empty rule)
      [lintStack classes line, lintRow classes line, lintCenter classes line,
        lintSpread classes line, lintGrid classes line, lintSpacer classes line empty]
      [.preferStack, .preferRow, .preferCenter, .preferSpread, .preferGrid, .preferSpacer] := by
  refine .cons ?_ (.cons ?_ (.cons ?_ (.cons ?_ (.cons isSome_lintGrid_iff (.cons ?_ .nil)))))
  all_goals
    simp only [lintStack, lintRow, lintCenter, lintSpread, lintSpacer, Option.isSome_ite,
      Bool.and_eq_true, Bool.or_eq_true, Bool.not_eq_true', ← Bool.not_eq_true, ClassList.has_iff,
      ClassList.setsGap_iff, LintRule.AppliesTo, and_assoc]

/-- The rules that report something about a class list are those that apply to its classes, in their
order. -/
theorem map_rule_lintClasses (text : String) (line : Nat) (empty : Bool) :
    (lintClasses text line empty).map Warning.rule =
      LintRule.all.filter (LintRule.AppliesTo (classTokens text) empty) :=
  -- The rules for components come first in the list of all rules, and do not apply.
  (foundBy_lintClasses (.ofText text) line empty).map_rule_eq_filter
    (forall₂_isSome_iff_appliesTo (.ofText text) line empty)

/-- A rule reports something about a class list if it applies to its classes. -/
theorem exists_rule_iff_appliesTo {text : String} {line : Nat} :
    (∃ warning ∈ lintClasses text line empty, warning.rule = rule) ↔
      rule.AppliesTo (classTokens text) empty := by
  rw [← List.mem_map, map_rule_lintClasses, List.mem_filter, and_iff_right rule.mem_all,
    decide_eq_true_iff]

/-- Which rules report something about a class list depends on the set of its classes alone: with the
same classes, in whatever order and however often, the same rules report something, in the same
order. Further classes take no report away, but for one: a list without `flex-row` is not said to be
a row any more if `flex-col` comes in and `flex-row` does not. -/
theorem map_rule_lintClasses_of_tokens (a b : String) (line line' : Nat) (empty : Bool) :
    ((∀ token, token ∈ classTokens a ↔ token ∈ classTokens b) →
      (lintClasses a line empty).map Warning.rule = (lintClasses b line' empty).map Warning.rule) ∧
    (classTokens a ⊆ classTokens b → ∀ rule ∈ (lintClasses a line empty).map Warning.rule,
      (rule ∉ (lintClasses b line' empty).map Warning.rule ↔
        rule = .preferRow ∧ "flex-row" ∉ classTokens a ∧ "flex-col" ∈ classTokens b ∧
          "flex-row" ∉ classTokens b)) := by
  constructor
  · intro h
    rw [map_rule_lintClasses, map_rule_lintClasses]
    exact List.filter_congr fun rule _ => decide_eq_decide.mpr (LintRule.appliesTo_congr h)
  · intro h rule hrule
    rw [List.mem_map, exists_rule_iff_appliesTo] at hrule ⊢
    by_cases hrow : rule = .preferRow
    · subst hrow
      rw [hrule.not_preferRow_iff h, and_iff_right rfl]
    · exact iff_of_false (not_not_intro (hrule.mono h hrow)) fun hlost => hrow hlost.1

/-- A class list in another order with repetitions, and one in which a column comes in. -/
theorem map_rule_lintClasses_of_tokens_flex :
    (lintClasses "flex gap-2 gap-4 flex-1" 1 true).map Warning.rule =
        (lintClasses "\tgap-4 flex-1  flex gap-2\nflex " 7 true).map Warning.rule ∧
      LintRule.preferRow ∈ (lintClasses "flex gap-2" 1 false).map Warning.rule ∧
      LintRule.preferRow ∉
        (lintClasses "flex-col items-center gap-2 flex" 1 false).map Warning.rule := by
  have hleft : classTokens "flex gap-2 gap-4 flex-1" ⊆
      classTokens "\tgap-4 flex-1  flex gap-2\nflex " := by decide
  have hright : classTokens "\tgap-4 flex-1  flex gap-2\nflex " ⊆
      classTokens "flex gap-2 gap-4 flex-1" := by decide
  have hmore : classTokens "flex gap-2" ⊆ classTokens "flex-col items-center gap-2 flex" := by
    decide
  have hrow : LintRule.preferRow ∈ (lintClasses "flex gap-2" 1 false).map Warning.rule := by decide
  exact ⟨(map_rule_lintClasses_of_tokens _ _ 1 7 true).1 fun _ => ⟨@hleft _, @hright _⟩, hrow,
    ((map_rule_lintClasses_of_tokens _ _ 1 1 false).2 hmore _ hrow).mpr (by decide)⟩

end LayoutMarkup

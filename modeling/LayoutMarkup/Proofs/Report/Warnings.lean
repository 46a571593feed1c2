import LayoutMarkup.Proofs.Document.Counted
import LayoutMarkup.Proofs.Document.Scan
import LayoutMarkup.Proofs.Report.Findings

/-!
# The warnings of a report

Each opening tag of a document has its own warnings, and a report holds them one tag after the
other. The tag of a component is looked at by the rules for components, and any other tag by the
rules for utility classes, never by both. The warnings about a tag are on its line and in the order
of the rules, so those of a document come line by line.

## Main definitions

* `LintRule.forComponents`, `LintRule.forElements` — the two families of rules
* `LintRule.IsBefore` — the order of the rules
* `Occurrence.warnings` — the warnings about an opening tag

## Main results

* `Document.line_le_of_offset_le` — the lines of tags in order
* `Report.warnings_of_openings` — the warnings of a report, their lines and their rules
-/

namespace LayoutMarkup

open Text

variable {source : String} {o o' : Occurrence} {line : Nat} {warning : Warning}

/-! ### Rules -/

namespace LintRule

/-- The rules about the props of components, in order. -/
def forComponents : List LintRule :=
  [redundantAxes, rowJustifyBetween, conflictingCenterAlign, unnecessaryGapNone]

/-- The rules about the utility classes of plain elements, in order. -/
def forElements : List LintRule :=
  [preferStack, preferRow, preferCenter, preferSpread, preferGrid, preferSpacer]

theorem forComponents_append_forElements : forComponents ++ forElements = all := rfl

/-- Whether a rule is declared in front of another. -/
def IsBefore (first second : LintRule) : Prop := first.ctorIdx < second.ctorIdx

instance : DecidableRel IsBefore := fun _ _ => inferInstanceAs (Decidable (_ < _))

theorem pairwise_all : all.Pairwise IsBefore := by decide

end LintRule

/-! ### The warnings about a tag -/

/-- The warnings about an opening tag. Those about the tag of a component are about its resolved
props, and those about any other tag about its class list, if it has one. -/
def Occurrence.warnings (source : List Char) (o : Occurrence) : List Warning :=
  match Component.ofName? o.tag.name with
  | some component => lintProps component (component.resolve o.tag.props).props o.line
  | none =>
    match (o.tag.props.text? "class").or (o.tag.props.text? "className") with
    | some classes => lintClasses classes o.line (decide (o.IsEmptyIn source))
    | none => []

theorem Occurrence.warnings_finding (source : List Char) (o : Occurrence) :
    (o.finding source).warnings = o.warnings source := by
  rw [finding, warnings]
  cases Component.ofName? o.tag.name with
  | some component => rfl
  | none =>
    simp only [Props.classList?_eq]
    cases (o.tag.props.text? "class").or (o.tag.props.text? "className") <;> rfl

theorem line_eq_of_mem_lintProps {component : Component} {props : Props}
    (h : warning ∈ lintProps component props line) : warning.line = line := by
  simp only [lintProps, List.mem_filterMap, id_eq, exists_eq_right, List.mem_cons,
    List.not_mem_nil, or_false] at h
  rcases h with h | h | h | h
  all_goals
    obtain ⟨-, h⟩ := Option.ite_none_right_eq_some.mp h.symm
    cases h
    rfl

theorem line_eq_of_mem_lintClasses {classes : String} {empty : Bool}
    (h : warning ∈ lintClasses classes line empty) : warning.line = line := by
  simp only [lintClasses, List.mem_filterMap, id_eq, exists_eq_right, List.mem_cons,
    List.not_mem_nil, or_false] at h
  rcases h with h | h | h | h | h | h
  all_goals obtain ⟨-, h⟩ := Option.ite_none_right_eq_some.mp h.symm
  case inr.inr.inr.inr.inl =>
    obtain ⟨n, -, rfl⟩ := Option.map_eq_some_iff.mp h
    rfl
  all_goals
    cases h
    rfl

theorem Occurrence.line_eq_of_mem_warnings (h : warning ∈ o.warnings source.toList) :
    warning.line = o.line := by
  unfold warnings at h
  split at h
  · exact line_eq_of_mem_lintProps h
  · split at h
    · exact line_eq_of_mem_lintClasses h
    · cases h

/-- The warnings about a tag come in the order of the rules, and these are of one family. -/
theorem Occurrence.map_rule_warnings_sublist (source : List Char) (o : Occurrence) :
    ((o.warnings source).map Warning.rule).Sublist
      (if (Component.ofName? o.tag.name).isSome then LintRule.forComponents
        else LintRule.forElements) := by
  unfold warnings
  cases Component.ofName? o.tag.name with
  | some component => exact (foundBy_lintProps _ _ _).map_rule_sublist
  | none =>
    cases (o.tag.props.text? "class").or (o.tag.props.text? "className") with
    | some classes => exact (foundBy_lintClasses _ _ _).map_rule_sublist
    | none => exact List.nil_sublist _

/-! ### Lines -/

/-- The tags of a document do not go back to an earlier line. -/
theorem Document.line_le_of_offset_le (ho : o ∈ scan source) (ho' : o' ∈ scan source)
    (h : o.span.stop.offset ≤ o'.span.start.offset) : o.line ≤ o'.line := by
  have hle : o.span.start.offset ≤ o'.span.start.offset :=
    Nat.le_trans (Nat.le_of_lt (start_lt_stop_of_mem_occurrences ho)) h
  rw [Occurrence.line, Occurrence.line, (countedIn_of_mem_scan ho).line_eq,
    (countedIn_of_mem_scan ho').line_eq]
  exact Nat.add_le_add_left ((List.take_sublist_take_left hle).count_le lineFeed) 1

/-! ### The report as a whole -/

/-- The warnings of a report are those about the opening tags of its document, one tag after the
other. They are on the line of their tag, as counting line feeds gives it, so their lines never go
back. The warnings about one tag come in the order of the rules, none of which has two, and they are
from the rules for components if the tag is a component's, and else from those for classes. -/
theorem Report.warnings_of_openings (source : String) :
    (ofSource source).warnings = ((Document.scan source).filter (·.tag.isOpening)).flatMap
        (Occurrence.warnings source.toList) ∧
      (∀ o ∈ Document.scan source, ∀ warning ∈ o.warnings source.toList,
        warning.line = 1 + ((bytes source.toList).take o.span.start.offset).count lineFeed) ∧
      ((ofSource source).warnings.map Warning.line).Pairwise (· ≤ ·) ∧
      ∀ o : Occurrence, ((o.warnings source.toList).map Warning.rule).Pairwise LintRule.IsBefore ∧
        ((o.warnings source.toList).map Warning.rule).Nodup ∧
        ∀ warning ∈ o.warnings source.toList, warning.rule ∈
          if (Component.ofName? o.tag.name).isSome then LintRule.forComponents
          else LintRule.forElements := by
  have hwarnings : (ofSource source).warnings =
      ((Document.scan source).filter (·.tag.isOpening)).flatMap
        (Occurrence.warnings source.toList) := by
    rw [warnings_ofSource, Document.findingsOf_eq_map, List.flatMap_map]
    simp only [Occurrence.warnings_finding]
  refine ⟨hwarnings, ?_, ?_, fun o => ?_⟩
  · intro o ho warning hwarning
    rw [Occurrence.line_eq_of_mem_warnings hwarning]
    exact (Document.countedIn_of_mem_scan ho).line_eq
  · rw [hwarnings, List.pairwise_map, List.pairwise_flatMap]
    constructor
    · -- The warnings about one tag are all on its line.
      intro o _
      refine List.pairwise_of_forall_mem_list fun first hfirst second hsecond => ?_
      rw [Occurrence.line_eq_of_mem_warnings hfirst, Occurrence.line_eq_of_mem_warnings hsecond]
    · refine List.Pairwise.filter _ ((Document.pairwise_occurrences _ _).imp_of_mem ?_)
      intro o o' ho ho' hle first hfirst second hsecond
      rw [Occurrence.line_eq_of_mem_warnings hfirst, Occurrence.line_eq_of_mem_warnings hsecond]
      exact Document.line_le_of_offset_le ho ho' hle
  · -- Either family is a stretch of the list of all rules, and so in its order.
    have hrules := o.map_rule_warnings_sublist source.toList
    have hall : ((o.warnings source.toList).map Warning.rule).Sublist LintRule.all := by
      refine hrules.trans ?_
      rw [← LintRule.forComponents_append_forElements]
      split
      · exact List.sublist_append_left _ _
      · exact List.sublist_append_right _ _
    exact ⟨LintRule.pairwise_all.sublist hall, hall.nodup (by decide),
      fun warning hwarning => hrules.subset (List.mem_map_of_mem hwarning)⟩

/-- A plain element, and a component on the line below it. -/
theorem Report.warnings_of_openings_spacer :
    ∃ spacer stack : Occurrence,
      (Document.scan "<i class=\"flex-1\"/>\n<Stack gap=\"none\"/>").filter (·.tag.isOpening) =
        [spacer, stack] ∧
      (ofSource "<i class=\"flex-1\"/>\n<Stack gap=\"none\"/>").warnings =
        spacer.warnings "<i class=\"flex-1\"/>\n<Stack gap=\"none\"/>".toList ++
          stack.warnings "<i class=\"flex-1\"/>\n<Stack gap=\"none\"/>".toList ∧
      (spacer.warnings "<i class=\"flex-1\"/>\n<Stack gap=\"none\"/>".toList).map Warning.rule =
        [.preferSpacer] ∧
      (stack.warnings "<i class=\"flex-1\"/>\n<Stack gap=\"none\"/>".toList).map Warning.rule =
        [.unnecessaryGapNone] ∧
      ∀ warning ∈ stack.warnings "<i class=\"flex-1\"/>\n<Stack gap=\"none\"/>".toList,
        warning.line = 2 := by
  obtain ⟨hwarnings, hlines, -⟩ :=
    warnings_of_openings "<i class=\"flex-1\"/>\n<Stack gap=\"none\"/>"
  have hscan : (Document.scan "<i class=\"flex-1\"/>\n<Stack gap=\"none\"/>").filter
        (·.tag.isOpening) =
      [⟨.opener "i".toList " class=\"flex-1\"/".toList, ⟨⟨0, 1, 1⟩, ⟨19, 1, 20⟩⟩⟩,
        ⟨.opener "Stack".toList " gap=\"none\"/".toList, ⟨⟨20, 2, 1⟩, ⟨39, 2, 20⟩⟩⟩] := by
    decide +kernel
  rw [hscan] at hwarnings
  refine ⟨_, _, hscan, hwarnings.trans (congrArg _ (List.append_nil _)), by decide +kernel,
    by decide +kernel, fun warning hwarning => ?_⟩
  have hstack := List.mem_of_mem_filter (hscan ▸ List.mem_cons_of_mem _ List.mem_cons_self)
  rw [hlines _ hstack _ hwarning]
  decide +kernel

end LayoutMarkup

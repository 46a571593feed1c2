/-!
# Warnings

A warning is what a lint rule has to say about one tag: which rule, on which line, in which words,
and, where there is one, which markup to write instead. How grave it is depends on the rule alone.

## Main definitions

* `Severity`, `LintRule` — the lint rules and how grave their warnings are
* `Warning`, `Warning.line`, `Warning.text` — a warning, and its one-line form
-/

namespace LayoutMarkup

/-- How grave a warning is. -/
inductive Severity
  | warning
  | suggestion
  deriving DecidableEq, Repr

/-- The word for a severity. -/
def Severity.name : Severity → String
  | warning => "warning"
  | suggestion => "suggestion"

/-- A lint rule. The first four are about the props of components, the others about the utility
classes of plain elements. -/
inductive LintRule
  | redundantAxes
  | rowJustifyBetween
  | conflictingCenterAlign
  | unnecessaryGapNone
  | preferStack
  | preferRow
  | preferCenter
  | preferSpread
  | preferGrid
  | preferSpacer
  deriving DecidableEq, Repr

namespace LintRule

/-- The rules in the order in which their warnings come. -/
def all : List LintRule :=
  [redundantAxes, rowJustifyBetween, conflictingCenterAlign, unnecessaryGapNone, preferStack,
    preferRow, preferCenter, preferSpread, preferGrid, preferSpacer]

/-- The name under which a rule is reported. -/
def code : LintRule → String
  | redundantAxes => "redundant-axes"
  | rowJustifyBetween => "row-justify-between"
  | conflictingCenterAlign => "conflicting-center-align"
  | unnecessaryGapNone => "unnecessary-gap-none"
  | preferStack => "prefer-stack"
  | preferRow => "prefer-row"
  | preferCenter => "prefer-center"
  | preferSpread => "prefer-spread"
  | preferGrid => "prefer-grid"
  | preferSpacer => "prefer-spacer"

/-- How grave the warnings of a rule are. Only props that work against each other are more than a
matter of style. -/
def severity : LintRule → Severity
  | redundantAxes | conflictingCenterAlign => .warning
  | _ => .suggestion

theorem mem_all (rule : LintRule) : rule ∈ all := by
  cases rule <;> decide

end LintRule

/-- What a lint rule says about a tag. -/
structure Warning where
  /-- The line on which the tag begins. -/
  line : Nat
  rule : LintRule
  message : String
  /-- Markup to write instead. -/
  fix : Option String
  deriving DecidableEq, Repr

namespace Warning

/-- How grave the warning is. -/
def severity (warning : Warning) : Severity := warning.rule.severity

/-- The warning on one line. -/
def text (warning : Warning) : String :=
  "line " ++ toString warning.line ++ ": " ++ warning.severity.name ++ " [" ++ warning.rule.code
    ++ "]: " ++ warning.message
    ++ match warning.fix with
      | some fix => " (fix: " ++ fix ++ ")"
      | none => ""

end Warning

end LayoutMarkup

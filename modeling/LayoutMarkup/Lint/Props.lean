import LayoutMarkup.Component.Rule
import LayoutMarkup.Lint.Warning
import LayoutMarkup.Props

/-!
# Lint rules for components

Four rules look at a component and the props it is given. Each has at most one warning for a tag,
and warnings come in the order of `LintRule.all`.

## Main definitions

* `lintRedundantAxes`, `lintRowJustifyBetween`, `lintConflictingCenterAlign`,
  `lintUnnecessaryGapNone` — the rules, one by one
* `lintProps` — the warnings about a component with props
-/

namespace LayoutMarkup

variable (component : Component) (props : Props) (line : Nat)

/-- Centering along both axes one by one is what the component does anyway. -/
def lintRedundantAxes : Option Warning :=
  if component = .center && props.hasFlag "horizontal" && props.hasFlag "vertical" then
    some
      { line
        rule := .redundantAxes
        message := "Redundant props: <Center horizontal vertical> is the same as <Center>. "
          ++ "Remove both props."
        fix := some (if props.hasFlag "fill" then "<Center fill>" else "<Center>") }
  else none

/-- A row whose content is pushed apart is a spread. -/
def lintRowJustifyBetween : Option Warning :=
  if component = .row && props.text? "justify" = some "between" then
    some
      { line
        rule := .rowJustifyBetween
        message := "Consider using <Spread> instead of <Row justify=\"between\"> for better "
          ++ "semantics."
        fix := some "<Spread>" }
  else none

/-- A centered stack has its alignment already. -/
def lintConflictingCenterAlign : Option Warning :=
  if component = .stack && props.hasFlag centerFlag && props.contains "align" then
    some
      { line
        rule := .conflictingCenterAlign
        message := "Conflicting props: \"center\" overrides \"align\". Remove one."
        fix := none }
  else none

/-- A gap of nothing is no gap. -/
def lintUnnecessaryGapNone : Option Warning :=
  if (component = .stack || component = .row) && props.text? "gap" = some "none" then
    some
      { line
        rule := .unnecessaryGapNone
        message := "Unnecessary prop: gap=\"none\" adds gap-0 which has no visual effect. "
          ++ "Remove it."
        fix := none }
  else none

/-- The warnings about a component with props. -/
def lintProps : List Warning :=
  [lintRedundantAxes component props line, lintRowJustifyBetween component props line,
    lintConflictingCenterAlign component props line,
    lintUnnecessaryGapNone component props line].filterMap id

end LayoutMarkup

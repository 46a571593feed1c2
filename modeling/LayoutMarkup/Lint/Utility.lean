import LayoutMarkup.Component.Resolution
import LayoutMarkup.Lint.Warning

/-!
# Lint rules for utility classes

Six rules look at the class list of a plain element and name the component that expresses the same
layout. Each has at most one warning for an element, and warnings come in the order of
`LintRule.all`.

## Main definitions

* `ClassList` — the class list of an element and its tokens
* `lintStack`, `lintRow`, `lintCenter`, `lintSpread`, `lintGrid`, `lintSpacer` — the rules, one by
  one
* `lintClasses` — the warnings about a class list
-/

namespace LayoutMarkup

open Text

/-- The class list of an element: its text without blanks around it, and its tokens in order. -/
structure ClassList where
  text : String
  tokens : List String
  deriving DecidableEq, Repr

namespace ClassList

/-- The class list that a text holds. -/
def ofText (text : String) : ClassList :=
  ⟨String.ofList (trim text.toList), classTokens text⟩

variable (classes : ClassList)

/-- Whether a class is in the list. -/
def has (token : String) : Bool := classes.tokens.contains token

/-- What a token begins with that sets a gap, in the table or not. -/
def gapStem : String := "gap-"

/-- Whether some class sets a gap. -/
def setsGap : Bool := classes.tokens.any fun token => gapStem.toList.isPrefixOf token.toList

/-- The prop that sets the gap of the first class in the table of gaps, with a space in front. -/
def gapProp : String :=
  match classes.tokens.findSome? Axis.gap.table.keyOf? with
  | some key => " gap=\"" ++ key ++ "\""
  | none => ""

/-- The number that a token states as a number of columns. -/
def columnsOf? (token : String) : Option UInt32 :=
  if columnStem.toList.isPrefixOf token.toList then
    Decimal.readSigned? (token.toList.drop columnStem.toList.length)
  else none

/-- The number of columns that the first class with one states. -/
def columns? : Option UInt32 := classes.tokens.findSome? columnsOf?

/-- What is said of a class list that a component could stand for. -/
def advice (primitive : String) : String :=
  "Raw Tailwind \"" ++ classes.text ++ "\" detected. Consider using " ++ primitive
    ++ " for better semantics."

variable (rule : LintRule) (line : Nat)

/-- The warning that `primitive` could stand for a class list. -/
def prefer (primitive : String) : Warning :=
  ⟨line, rule, classes.advice primitive, some primitive⟩

end ClassList

variable (classes : ClassList) (line : Nat)

/-- A flex column is a stack. -/
def lintStack : Option Warning :=
  if classes.has "flex" && classes.has "flex-col" then
    some (classes.prefer .preferStack line ("<Stack" ++ classes.gapProp ++ ">"))
  else none

/-- A flex row is a row, and so is a flex container with a gap that is no column. -/
def lintRow : Option Warning :=
  if classes.has "flex"
      && (classes.has "flex-row" || (classes.setsGap && !classes.has "flex-col")) then
    some (classes.prefer .preferRow line ("<Row" ++ classes.gapProp ++ ">"))
  else none

/-- A flex container that centers both ways is a center. -/
def lintCenter : Option Warning :=
  if classes.has "flex" && classes.has "items-center" && classes.has "justify-center" then
    some (classes.prefer .preferCenter line "<Center>")
  else none

/-- A flex container that pushes its content apart is a spread. -/
def lintSpread : Option Warning :=
  if classes.has "flex" && classes.has "justify-between" then
    some (classes.prefer .preferSpread line "<Spread>")
  else none

/-- A grid with a number of columns is a grid. -/
def lintGrid : Option Warning :=
  if classes.has "grid" then
    classes.columns?.map fun n =>
      classes.prefer .preferGrid line
        ("<Grid cols=" ++ bracedText (String.ofList (Decimal.write n.toNat)) ++ ">")
  else none

/-- An empty element that takes the free space is a spacer. -/
def lintSpacer (empty : Bool) : Option Warning :=
  if empty && classes.has "flex-1" then
    some
      { line
        rule := .preferSpacer
        message := "Empty element with \"flex-1\" detected. Consider using <Spacer /> for better "
          ++ "semantics."
        fix := some "<Spacer />" }
  else none

/-- The warnings about the class list of an element, which may be empty of content. -/
def lintClasses (text : String) (line : Nat) (empty : Bool) : List Warning :=
  let classes := ClassList.ofText text
  [lintStack classes line, lintRow classes line, lintCenter classes line, lintSpread classes line,
    lintGrid classes line, lintSpacer classes line empty].filterMap id

end LayoutMarkup

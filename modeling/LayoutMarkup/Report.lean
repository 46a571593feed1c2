import LayoutMarkup.Document
import LayoutMarkup.Event
import LayoutMarkup.Lint.Props
import LayoutMarkup.Lint.Utility

/-!
# Reports

A report says what each opening tag of a document comes to: the resolution of a component's tag, or
the class list of a plain element's. The list of these findings is made in one walk over the
document, and the resolutions, the warnings and the log events are read off it.

## Main definitions

* `Finding`, `Document.findings` — what each opening tag of a document comes to
* `Report`, `Report.ofSource` — the resolutions and the warnings of a document
* `Document.findingEvents` — what is logged of the walk

## Main results

* `Report.results_ofSource`, `Report.warnings_ofSource` — a report is its findings, one by one
-/

namespace LayoutMarkup

open Text

/-- What an opening tag comes to. -/
inductive Finding
  /-- The tag of a component. -/
  | component (line : Nat) (resolution : Resolution)
  /-- The tag of a plain element, its class list if it has one, and whether the element is empty. -/
  | element (line : Nat) (name : String) (classes : Option String) (empty : Bool)
  deriving DecidableEq

namespace Finding

/-- The resolution of a component's tag. -/
def resolution? : Finding → Option Resolution
  | component _ resolution => some resolution
  | element .. => none

/-- The warnings about a tag: a component's are about the props that took part, a plain element's
about its class list. -/
def warnings : Finding → List Warning
  | component line resolution => lintProps resolution.component resolution.props line
  | element line _ (some classes) empty => lintClasses classes line empty
  | element _ _ none _ => []

/-- What is logged of a tag. -/
def event : Finding → Event
  | component line resolution => .resolved resolution.component line resolution.classText
  | element line name _ _ => .passed name line

end Finding

/-- The class list among the props of a plain element: its `class`, or else its `className`, given
as text. -/
def Props.classList? (props : Props) : Option String :=
  match props.text? "class" with
  | some classes => some classes
  | none => props.text? classNameProp

namespace Tag

/-- Whether the element of an opening tag holds nothing but blanks, given the segments behind the
tag. -/
def opensEmpty (tag : Tag) (behind : List Segment) : Bool :=
  match tag with
  | opener name raw => endsInSlash raw || Document.closesAtOnce name behind
  | closer _ _ => false

/-- What a tag on a line comes to, given the segments behind it. Closers come to nothing. -/
def finding? (tag : Tag) (line : Nat) (behind : List Segment) : Option Finding :=
  if tag.isOpening then
    match resolve? tag.name tag.props with
    | some resolution => some (.component line resolution)
    | none => some (.element line tag.name tag.props.classList? (tag.opensEmpty behind))
  else none

end Tag

namespace Document

/-- What the opening tags among segments that stand at `p` come to. -/
def findings (p : Position) : List Segment → List Finding
  | [] => []
  | .text c :: rest => findings (p.next c) rest
  | .tag tag :: rest =>
    (tag.finding? p.line rest).toList ++ findings (p.after tag.source) rest

/-- What the opening tags of a document come to, in order. -/
def findingsOf (source : String) : List Finding := findings .start (segments source.toList)

/-- What is logged when a report is made. -/
def findingEvents (source : String) : List Event := (findingsOf source).map Finding.event

end Document

/-- What is reported of a document. -/
structure Report where
  /-- The resolution of each component's opening tag, in order. -/
  results : List Resolution
  /-- The warnings about all tags, in order. -/
  warnings : List Warning
  deriving DecidableEq

namespace Report

/-- The report on a document. -/
def ofSource (source : String) : Report :=
  let found := Document.findingsOf source
  ⟨found.filterMap Finding.resolution?, found.flatMap Finding.warnings⟩

/-- Whether there is nothing to warn of. -/
def isClean (report : Report) : Bool := report.warnings.isEmpty

variable (source : String)

theorem results_ofSource :
    (ofSource source).results = (Document.findingsOf source).filterMap Finding.resolution? := rfl

theorem warnings_ofSource :
    (ofSource source).warnings = (Document.findingsOf source).flatMap Finding.warnings := rfl

end Report

end LayoutMarkup

import LayoutMarkup.Component.Resolution
import LayoutMarkup.Document
import LayoutMarkup.Event

/-!
# Compiled markup

A document is compiled by putting a plain container in the place of each tag of a component and
leaving all else as it stands. Every tag is compiled on its own, whether or not the components of
the document are nested well; that they are not is only logged.

## Main definitions

* `Segment.compiled`, `Document.compile` — the compiled form of a document
* `Document.compileEvents` — what is logged of it
* `compileFile` — the compiled form of a file, which depends on its name
-/

namespace LayoutMarkup

open Text

/-- The resolution of a component with the attributes of a tag. -/
def Component.resolveTag (component : Component) (tag : Tag) : Resolution :=
  component.resolve tag.props

/-- What stands in the place of a component's tag. -/
def Component.container (component : Component) (tag : Tag) : String :=
  match tag.kind with
  | .opening => (component.resolveTag tag).openTag
  | .selfClosing => (component.resolveTag tag).element
  | .closing => Resolution.closeTag

/-- The compiled form of a segment. -/
def Segment.compiled : Segment → List Char
  | .text c => [c]
  | .tag t =>
    match Component.ofName? t.name with
    | some component => (component.container t).toList
    | none => t.source

namespace Document

/-- The compiled form of a document. -/
def compile (source : String) : String :=
  String.ofList ((segments source.toList).flatMap Segment.compiled)

/-! ### Logging -/

/-- What is logged of tags in order, where `opened` are the components that are open, the last one
opened first. The components that stay open come last, outermost first. -/
def nestingEvents (opened : List Component) : List Occurrence → List Event
  | [] => opened.reverse.map .unclosed
  | occurrence :: rest =>
    match Component.ofName? occurrence.tag.name with
    | none => .passed occurrence.tag.name occurrence.line :: nestingEvents opened rest
    | some component =>
      match occurrence.tag.kind with
      | .opening =>
        .replaced component occurrence.line (component.resolveTag occurrence.tag).classText
          :: nestingEvents (component :: opened) rest
      | .selfClosing =>
        .replaced component occurrence.line (component.resolveTag occurrence.tag).classText
          :: nestingEvents opened rest
      | .closing =>
        -- A closer that does not fit leaves the open components as they are.
        if opened.head? = some component then nestingEvents opened.tail rest
        else .unbalanced component occurrence.line :: nestingEvents opened rest

/-- What is logged when a document is compiled. -/
def compileEvents (source : String) : List Event := nestingEvents [] (scan source)

end Document

/-! ### Files -/

/-- What a file name ends in behind its last period, if it has one. -/
def extension? (fileName : String) : Option String :=
  let name := fileName.toList
  if name.contains '.' then some (String.ofList (name.reverse.takeWhile (· ≠ '.')).reverse)
  else none

/-- Whether a file name is that of a document, in either case of letters. -/
def isMarkupName (fileName : String) : Bool :=
  match extension? fileName with
  | some extension =>
    ["html", "htm"].contains (String.ofList (extension.toList.map Char.toLower))
  | none => false

/-- The compiled form of a file. Files that are not documents stay as they are. -/
def compileFile (content fileName : String) : String :=
  if isMarkupName fileName then Document.compile content else content

/-- What is logged when a file is compiled. -/
def compileFileEvents (content fileName : String) : List Event :=
  if isMarkupName fileName then Document.compileEvents content else []

end LayoutMarkup

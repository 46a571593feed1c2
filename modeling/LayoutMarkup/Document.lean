import LayoutMarkup.Tag
import LayoutMarkup.Text.Position

/-!
# Documents

A document is read as a list of segments, each a tag or a single character of text. The reading
loses nothing: the written forms of the segments, put together, are the document. A `<` that begins
no tag is a character of text, and reading goes on right behind it, so no failed tag can hide a
later one.

## Main definitions

* `Segment`, `Document.segments` — a document as tags and characters of text
* `Occurrence`, `Document.scan` — the tags of a document with the stretches they cover
* `Document.closesAtOnce` — whether an element ends before anything but blanks

## Main results

* `Document.flatMap_source_segments` — the segments of a document spell the document
-/

namespace LayoutMarkup

open Text

/-- A piece of a document: a character of text or a tag. -/
inductive Segment
  | text (c : Char)
  | tag (t : Tag)
  deriving DecidableEq, Repr

/-- The text of a segment. -/
def Segment.source : Segment → List Char
  | .text c => [c]
  | .tag t => t.source

/-- A tag of a document and the stretch that it covers. -/
structure Occurrence where
  tag : Tag
  span : Span
  deriving DecidableEq, Repr

/-- The line on which a tag begins. -/
def Occurrence.line (occurrence : Occurrence) : Nat := occurrence.span.start.line

namespace Document

/-- The segments of a document. -/
def segments : List Char → List Segment
  | [] => []
  | c :: text =>
    match h : Tag.read? (c :: text) with
    | some (tag, rest) =>
      have := Tag.length_lt_of_read? h
      .tag tag :: segments rest
    | none => .text c :: segments text
termination_by source => source.length
decreasing_by
  · exact this
  · exact Nat.lt_succ_self _

@[simp] theorem segments_nil : segments [] = [] := by
  rw [segments]

theorem segments_of_read? {source rest : List Char} {tag : Tag}
    (h : Tag.read? source = some (tag, rest)) : segments source = .tag tag :: segments rest := by
  cases source with
  | nil => cases h
  | cons c text =>
    rw [segments]
    split
    · rename_i tag' rest' h'
      rw [h] at h'
      cases h'
      rfl
    · rename_i h'
      rw [h] at h'
      cases h'

theorem segments_of_read?_eq_none {c : Char} {text : List Char}
    (h : Tag.read? (c :: text) = none) : segments (c :: text) = .text c :: segments text := by
  rw [segments]
  split
  · rename_i h'
    rw [h] at h'
    cases h'
  · rfl

/-- The segments of a document spell the document. -/
theorem flatMap_source_segments (source : List Char) :
    (segments source).flatMap Segment.source = source := by
  fun_induction segments source with
  | case1 => rfl
  | case2 c text tag rest h _ ih =>
    rw [List.flatMap_cons, ih]
    exact Tag.source_append_of_read? h
  | case3 c text h ih => rw [List.flatMap_cons, ih]; rfl

/-- The tags among segments that stand at `p`. -/
def occurrences (p : Position) : List Segment → List Occurrence
  | [] => []
  | .text c :: rest => occurrences (p.next c) rest
  | .tag tag :: rest => ⟨tag, .over p tag.source⟩ :: occurrences (p.after tag.source) rest

/-- The tags of a document, in order. -/
def scan (source : String) : List Occurrence := occurrences .start (segments source.toList)

/-- Whether segments begin with the closer of the element `name`, but for blanks in front of it. -/
def closesAtOnce (name : List Char) : List Segment → Bool
  | .text c :: rest => isBlank c && closesAtOnce name rest
  | .tag (.closer closed _) :: _ => closed = name
  | _ => false

end Document

end LayoutMarkup

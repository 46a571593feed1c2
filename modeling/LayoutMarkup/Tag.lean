import LayoutMarkup.Text.Blank

/-!
# Tags

A tag as it is written, and the reader that finds one at the front of a text. The grammar is

* an opener, `<`, a name, raw text without angle brackets that is empty or begins with a gap or a
  slash, and `>`;
* a closer, `</`, a name, gaps and `>`.

An opener is self-closing if its raw text, but for blanks at its end, ends in a slash. Raw text is
kept as it stands, so a tag has one written form, which is what `Tag.source` gives.

## Main definitions

* `Tag` — a tag as it is written
* `Tag.source`, `Tag.name`, `Tag.kind`, `Tag.attrs` — its written form and what it says
* `Tag.read?` — the tag at the front of a text, with the text behind it

## Main results

* `Tag.source_append_of_read?` — a tag that is read, put back in front of the rest, is the text
* `Tag.length_lt_of_read?` — reading a tag leaves a shorter text
-/

namespace LayoutMarkup

open Text

/-- A tag as it is written: an opener with the raw text between its name and `>`, or a closer with
the gaps between its name and `>`. -/
inductive Tag
  | opener (name raw : List Char)
  | closer (name gap : List Char)
  deriving DecidableEq, Repr

/-- The three shapes of a tag. -/
inductive Tag.Kind
  | opening
  | selfClosing
  | closing
  deriving DecidableEq, Repr

namespace Tag

/-- The text of a tag. -/
def source : Tag → List Char
  | opener name raw => '<' :: (name ++ (raw ++ ['>']))
  | closer name gap => '<' :: '/' :: (name ++ (gap ++ ['>']))

/-- The name of the element that a tag opens or closes. -/
def name : Tag → String
  | opener name _ => String.ofList name
  | closer name _ => String.ofList name

/-- Whether raw text marks its opener as self-closing: its last character, but for blanks, is a
slash. -/
def endsInSlash (raw : List Char) : Bool := (trimEnd raw).getLast? == some '/'

/-- The shape of a tag. -/
def kind : Tag → Kind
  | opener _ raw => if endsInSlash raw then .selfClosing else .opening
  | closer _ _ => .closing

/-- The attribute text of a tag: the raw text, without the slash of a self-closing opener and the
blanks around it. A closer has none. -/
def attrs : Tag → List Char
  | opener _ raw => if endsInSlash raw then (trimEnd raw).dropLast else raw
  | closer _ _ => []

/-- Whether a tag begins an element. -/
def isOpening (tag : Tag) : Bool := tag.kind != .closing

/-! ### Reading -/

/-- The tag name at the front of a text, with the text behind it. -/
def readName? : List Char → Option (List Char × List Char)
  | [] => none
  | c :: text =>
    if isNameStart c then
      some ((c :: text).takeWhile isWordChar, (c :: text).dropWhile isWordChar)
    else none

/-- Whether raw text may follow a name: it is empty or begins with a gap or a slash. -/
def setOff : List Char → Bool
  | [] => true
  | c :: _ => isGap c || c = '/'

/-- A character that cannot be part of raw text. -/
def isBracket (c : Char) : Bool := c = '<' || c = '>'

/-- The opener whose text, from its name on, is at the front of a text. -/
def readOpener? (text : List Char) : Option (Tag × List Char) :=
  match readName? text with
  | none => none
  | some (name, rest) =>
    match rest.dropWhile (!isBracket ·) with
    | '>' :: behind =>
      if setOff (rest.takeWhile (!isBracket ·)) then
        some (opener name (rest.takeWhile (!isBracket ·)), behind)
      else none
    | _ => none

/-- The closer whose text, from its name on, is at the front of a text. -/
def readCloser? (text : List Char) : Option (Tag × List Char) :=
  match readName? text with
  | none => none
  | some (name, rest) =>
    match rest.dropWhile isGap with
    | '>' :: behind => some (closer name (rest.takeWhile isGap), behind)
    | _ => none

/-- The tag at the front of a text, with the text behind it. -/
def read? : List Char → Option (Tag × List Char)
  -- A slash begins no name, so a closer that fails is not tried as an opener.
  | '<' :: '/' :: text => readCloser? text
  | '<' :: text => readOpener? text
  | _ => none

variable {text rest name : List Char} {tag : Tag}

theorem append_of_readName? (h : readName? text = some (name, rest)) : name ++ rest = text := by
  unfold readName? at h
  split at h
  · cases h
  · split at h
    · cases h
      exact List.takeWhile_append_dropWhile
    · cases h

theorem append_of_readOpener? (h : readOpener? text = some (tag, rest)) :
    tag.source ++ rest = '<' :: text := by
  unfold readOpener? at h
  split at h
  · cases h
  · rename_i name behind hname
    split at h
    · rename_i hdrop
      split at h
      · cases h
        rw [← append_of_readName? hname]
        simp only [source, List.cons_append, List.append_assoc, List.nil_append, List.cons.injEq,
          List.append_cancel_left_eq, true_and]
        rw [← hdrop, List.takeWhile_append_dropWhile]
      · cases h
    · cases h

theorem append_of_readCloser? (h : readCloser? text = some (tag, rest)) :
    tag.source ++ rest = '<' :: '/' :: text := by
  unfold readCloser? at h
  split at h
  · cases h
  · rename_i name behind hname
    split at h
    · rename_i hdrop
      cases h
      rw [← append_of_readName? hname]
      simp only [source, List.cons_append, List.append_assoc, List.nil_append, List.cons.injEq,
        List.append_cancel_left_eq, true_and]
      rw [← hdrop, List.takeWhile_append_dropWhile]
    · cases h

/-- A tag that is read, put back in front of the rest, is the text. -/
theorem source_append_of_read? (h : read? text = some (tag, rest)) : tag.source ++ rest = text := by
  unfold read? at h
  split at h
  · exact append_of_readCloser? h
  · exact append_of_readOpener? h
  · cases h

theorem source_ne_nil (tag : Tag) : tag.source ≠ [] := by
  cases tag <;> simp [source]

/-- Reading a tag leaves a shorter text. -/
theorem length_lt_of_read? (h : read? text = some (tag, rest)) : rest.length < text.length := by
  rw [← source_append_of_read? h, List.length_append]
  have := List.length_pos_iff.mpr tag.source_ne_nil
  omega

end Tag

end LayoutMarkup

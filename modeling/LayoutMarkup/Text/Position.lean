/-!
# Positions in a text

A position counts the bytes before it and says on which line and in which column it stands.
Offsets count the bytes of the UTF-8 form; lines and columns start at one, and a column counts
characters. A position is only ever moved forward over characters, so it is determined by the text
that precedes it.

## Main definitions

* `Position`, `Position.next`, `Position.after` — a place in a text, and the places behind it
* `Span` — the stretch of text between two positions

## Main results

* `Position.after_append` — moving over two texts is moving over one and then the other
* `Position.after_offset` — the offset grows by the number of bytes moved over
-/

namespace LayoutMarkup.Text

/-- A place in a text: the bytes before it, its line and its column, the last two counted from
one. -/
structure Position where
  offset : Nat
  line : Nat
  column : Nat
  deriving DecidableEq, Repr

namespace Position

/-- The place before the first character of a text. -/
def start : Position := ⟨0, 1, 1⟩

/-- The place behind the character `c` that stands at `p`. -/
def next (p : Position) (c : Char) : Position :=
  if c = '\n' then ⟨p.offset + 1, p.line + 1, 1⟩ else ⟨p.offset + c.utf8Size, p.line, p.column + 1⟩

/-- The place behind the text that stands at `p`. -/
def after (p : Position) (text : List Char) : Position := text.foldl next p

variable (p : Position) (c : Char) (s t : List Char)

@[simp] theorem after_nil : p.after [] = p := rfl

@[simp] theorem after_cons : p.after (c :: s) = (p.next c).after s := rfl

theorem after_append : p.after (s ++ t) = (p.after s).after t := List.foldl_append

/-- The number of bytes of a text in UTF-8. -/
def byteLength : List Char → Nat
  | [] => 0
  | c :: text => c.utf8Size + byteLength text

@[simp] theorem byteLength_nil : byteLength [] = 0 := rfl

@[simp] theorem byteLength_cons : byteLength (c :: s) = c.utf8Size + byteLength s := rfl

theorem byteLength_append : byteLength (s ++ t) = byteLength s + byteLength t := by
  induction s with
  | nil => simp
  | cons c s ih => rw [List.cons_append, byteLength_cons, byteLength_cons, ih, Nat.add_assoc]

theorem next_offset : (p.next c).offset = p.offset + c.utf8Size := by
  unfold next
  split
  · rename_i h
    subst h
    rfl
  · rfl

theorem after_offset : (p.after s).offset = p.offset + byteLength s := by
  induction s generalizing p with
  | nil => rfl
  | cons c s ih => rw [after_cons, ih, next_offset, byteLength_cons, Nat.add_assoc]

end Position

/-- A stretch of text, from the position of its first character to the position behind its
last. -/
structure Span where
  start : Position
  stop : Position
  deriving DecidableEq, Repr

/-- The stretch that a text covers when it stands at `p`. -/
def Span.over (p : Position) (text : List Char) : Span := ⟨p, p.after text⟩

end LayoutMarkup.Text

import LayoutMarkup.Proofs.Text.Placed
import Mathlib.Data.List.Induction
import Mathlib.Tactic.Common

/-!
# Counting lines and columns

A position is moved over characters, but a line and a column can be told from the bytes of the text
in front. A line feed is a byte of its own, and no other character has such a byte. Of the bytes of
any other character the first moves the column and the rest, its continuation bytes, do not. So a
position that is moved byte by byte ends where one that is moved over the characters does.

## Main definitions

* `bytes` — a text in UTF-8
* `Position.nextByte`, `Position.afterBytes` — moving over bytes
* `Position.CountedIn` — a position of a text, with the line and the column that counting gives

## Main results

* `Position.afterBytes_bytes` — moving over the bytes of a text is moving over the text
* `Position.countedIn_after` — the place behind the front of a text is counted in the text
* `countedIn_of_mem_placed` — the places of the pieces of a text are counted in the text
-/

namespace LayoutMarkup.Text

variable {p : Position} {b : UInt8} {c : Char} {text before left : List Char}

/-! ### Bytes -/

/-- A text in UTF-8. -/
def bytes (text : List Char) : List UInt8 := text.flatMap String.utf8EncodeChar

/-- The byte of a line feed. -/
def lineFeed : UInt8 := 0x0a

/-- Whether a byte continues a character. -/
def isContinuation (b : UInt8) : Bool := b &&& 0xc0 == 0x80

theorem ne_lineFeed_of_isContinuation (h : isContinuation b = true) : b ≠ lineFeed := by
  rintro rfl
  contradiction

@[simp] theorem bytes_nil : bytes [] = [] := rfl

@[simp] theorem bytes_cons : bytes (c :: text) = String.utf8EncodeChar c ++ bytes text := rfl

theorem bytes_append (s t : List Char) : bytes (s ++ t) = bytes s ++ bytes t :=
  List.flatMap_append

theorem length_bytes (text : List Char) : (bytes text).length = Position.byteLength text := by
  induction text with
  | nil => rfl
  | cons c text ih =>
    rw [bytes_cons, List.length_append, String.length_utf8EncodeChar, ih, Position.byteLength_cons]

theorem take_bytes_append (before behind : List Char) :
    (bytes (before ++ behind)).take (Position.byteLength before) = bytes before := by
  rw [bytes_append, ← length_bytes, List.take_left]

/-- The bytes behind the first of a character. -/
theorem isContinuation_ofNat (n : Nat) : isContinuation (UInt8.ofNat (n % 64 + 128)) = true := by
  have hall : ∀ i : Fin 64, isContinuation (UInt8.ofNat (i + 128)) = true := by decide
  exact hall ⟨n % 64, Nat.mod_lt n (by decide)⟩

/-- The first byte of a character with several. -/
theorem isContinuation_ofNat_eq_false {n : Nat} (hle : 192 ≤ n) (hlt : n < 256) :
    UInt8.ofNat n ≠ lineFeed ∧ isContinuation (UInt8.ofNat n) = false := by
  have hall : ∀ i : Fin 64, UInt8.ofNat (192 + i) ≠ lineFeed ∧
      isContinuation (UInt8.ofNat (192 + i)) = false := by decide
  obtain ⟨i, rfl⟩ := Nat.exists_eq_add_of_le hle
  exact hall ⟨i, by omega⟩

/-- A character that is no line feed has a first byte, which is neither a line feed nor a
continuation, and continuation bytes behind it. -/
theorem exists_utf8EncodeChar_eq_cons (h : c ≠ '\n') :
    ∃ first more, String.utf8EncodeChar c = first :: more ∧ first ≠ lineFeed ∧
      isContinuation first = false ∧ ∀ b ∈ more, isContinuation b = true := by
  simp only [String.utf8EncodeChar]
  -- The number of bytes depends on the size of the character's number.
  split_ifs with h1 h2 h3
  · have hascii : ∀ i : Fin 128, (i : Nat) ≠ 10 →
        UInt8.ofNat i ≠ lineFeed ∧ isContinuation (UInt8.ofNat i) = false := by decide
    have hne : c.val.toNat ≠ 10 := fun heq => h (Char.ext (UInt32.toNat_inj.mp heq))
    obtain ⟨hfeed, hfirst⟩ := hascii ⟨c.val.toNat, Nat.lt_succ_of_le h1⟩ hne
    exact ⟨_, [], rfl, hfeed, hfirst, List.forall_mem_nil _⟩
  · obtain ⟨hfeed, hfirst⟩ := isContinuation_ofNat_eq_false
      (n := c.val.toNat / 64 % 32 + 192) (by omega) (by omega)
    refine ⟨_, _, rfl, hfeed, hfirst, ?_⟩
    exact List.forall_mem_singleton.mpr (isContinuation_ofNat _)
  · obtain ⟨hfeed, hfirst⟩ := isContinuation_ofNat_eq_false
      (n := c.val.toNat / 4096 % 16 + 224) (by omega) (by omega)
    refine ⟨_, _, rfl, hfeed, hfirst, ?_⟩
    simp only [List.forall_mem_singleton, List.forall_mem_cons, isContinuation_ofNat, and_self]
  · obtain ⟨hfeed, hfirst⟩ := isContinuation_ofNat_eq_false
      (n := c.val.toNat / 262144 % 8 + 240) (by omega) (by omega)
    refine ⟨_, _, rfl, hfeed, hfirst, ?_⟩
    simp only [List.forall_mem_singleton, List.forall_mem_cons, isContinuation_ofNat, and_self]

namespace Position

/-! ### Moving over bytes -/

/-- The place behind a byte that stands at `p`. -/
def nextByte (p : Position) (b : UInt8) : Position :=
  if b = lineFeed then ⟨p.offset + 1, p.line + 1, 1⟩
  else ⟨p.offset + 1, p.line, if isContinuation b then p.column else p.column + 1⟩

/-- The place behind the bytes that stand at `p`. -/
def afterBytes (p : Position) (bs : List UInt8) : Position := bs.foldl nextByte p

@[simp] theorem afterBytes_nil : p.afterBytes [] = p := rfl

@[simp] theorem afterBytes_cons {bs : List UInt8} :
    p.afterBytes (b :: bs) = (p.nextByte b).afterBytes bs := rfl

theorem afterBytes_append (p : Position) (bs bs' : List UInt8) :
    p.afterBytes (bs ++ bs') = (p.afterBytes bs).afterBytes bs' := List.foldl_append

theorem afterBytes_of_isContinuation {bs : List UInt8} (h : ∀ b ∈ bs, isContinuation b = true) :
    p.afterBytes bs = ⟨p.offset + bs.length, p.line, p.column⟩ := by
  induction bs generalizing p with
  | nil => rfl
  | cons b bs ih =>
    obtain ⟨hb, hbs⟩ := List.forall_mem_cons.mp h
    rw [afterBytes_cons, ih hbs, nextByte, if_neg (ne_lineFeed_of_isContinuation hb), if_pos hb,
      List.length_cons, Nat.add_right_comm, Nat.add_assoc]

/-- Moving over the bytes of a character is moving over the character. -/
theorem afterBytes_utf8EncodeChar (p : Position) (c : Char) :
    p.afterBytes (String.utf8EncodeChar c) = p.next c := by
  by_cases hc : c = '\n'
  · subst hc
    rfl
  · obtain ⟨first, more, hencode, hfeed, hfirst, hmore⟩ := exists_utf8EncodeChar_eq_cons hc
    have hsize : more.length + 1 = c.utf8Size := by
      rw [← String.length_utf8EncodeChar, hencode, List.length_cons]
    rw [hencode, afterBytes_cons, afterBytes_of_isContinuation hmore, nextByte, if_neg hfeed,
      hfirst, next, if_neg hc, ← hsize, Nat.add_assoc, Nat.add_comm 1]
    rfl

/-- Moving over the bytes of a text is moving over the text. -/
theorem afterBytes_bytes (p : Position) (text : List Char) :
    p.afterBytes (bytes text) = p.after text := by
  induction text generalizing p with
  | nil => rfl
  | cons c text ih => rw [bytes_cons, afterBytes_append, afterBytes_utf8EncodeChar, ih, after_cons]

/-! ### Counting -/

/-- Every line feed among the bytes begins a new line. -/
theorem line_afterBytes (p : Position) (bs : List UInt8) :
    (p.afterBytes bs).line = p.line + bs.count lineFeed := by
  induction bs generalizing p with
  | nil => rfl
  | cons b bs ih =>
    rw [afterBytes_cons, ih, nextByte, List.count_cons]
    by_cases hb : b = lineFeed
    · simp [hb, Nat.add_right_comm, Nat.add_assoc]
    · simp [hb]

/-- Within a line every character moves the column by one. -/
theorem column_after_of_notMem (h : '\n' ∉ left) :
    (p.after left).column = p.column + left.length := by
  induction left generalizing p with
  | nil => rfl
  | cons c left ih =>
    rw [List.mem_cons, not_or] at h
    rw [after_cons, ih h.2, next, if_neg (Ne.symm h.1), List.length_cons, Nat.add_assoc,
      Nat.add_comm 1]

/-- Behind a line feed columns are counted anew. -/
theorem column_start_after {above : List Char} (h : above = [] ∨ above.getLast? = some '\n') :
    (start.after above).column = 1 := by
  rcases h with rfl | h
  · rfl
  · obtain ⟨front, rfl⟩ := List.getLast?_eq_some_iff.mp h
    rw [after_append]
    rfl

/-- A text is cut in front of its last line. -/
theorem exists_eq_append_line (before : List Char) :
    ∃ above left, before = above ++ left ∧ (above = [] ∨ above.getLast? = some '\n') ∧
      '\n' ∉ left := by
  induction before using List.reverseRecOn with
  | nil => exact ⟨[], [], rfl, Or.inl rfl, List.not_mem_nil⟩
  | append_singleton before c ih =>
    by_cases hc : c = '\n'
    · subst hc
      exact ⟨before ++ ['\n'], [], by simp, Or.inr (by simp), List.not_mem_nil⟩
    · obtain ⟨above, left, rfl, habove, hleft⟩ := ih
      refine ⟨above, left ++ [c], by simp, habove, ?_⟩
      simp [hleft, Ne.symm hc]

/-- A position of a text, with the line and the column that counting gives. -/
structure CountedIn (p : Position) (text : List Char) : Prop where
  /-- The line is one more than the line feeds among the bytes in front. -/
  line_eq : p.line = 1 + ((bytes text).take p.offset).count lineFeed
  /-- The position is between two characters, and its column is one more than the characters between
  the last line feed in front, or the beginning of the text, and the position. -/
  column_eq : ∃ above left behind, text = above ++ left ++ behind ∧
    (above = [] ∨ above.getLast? = some '\n') ∧ '\n' ∉ left ∧
      (bytes (above ++ left)).length = p.offset ∧ p.column = 1 + left.length
  /-- Moving over the bytes in front, one by one, leads there. -/
  eq_afterBytes : p = start.afterBytes ((bytes text).take p.offset)

/-- The place behind the front of a text is counted in the text. -/
theorem countedIn_after (before behind : List Char) :
    (start.after before).CountedIn (before ++ behind) := by
  have hoffset : (start.after before).offset = byteLength before := by
    rw [after_offset]
    exact Nat.zero_add _
  have htake : (bytes (before ++ behind)).take (start.after before).offset = bytes before := by
    rw [hoffset, take_bytes_append]
  refine ⟨?_, ?_, ?_⟩
  · rw [htake, ← afterBytes_bytes, line_afterBytes]
    rfl
  · obtain ⟨above, left, rfl, habove, hleft⟩ := exists_eq_append_line before
    refine ⟨above, left, behind, rfl, habove, hleft, ?_, ?_⟩
    · rw [length_bytes, hoffset]
    · rw [after_append, column_after_of_notMem hleft, column_start_after habove]
  · rw [htake, afterBytes_bytes]

end Position

/-- A piece of a text begins at a place that is counted in the text. -/
theorem countedIn_of_mem_placed {α : Type} {source : α → List Char} {pieces : List α} {piece : α}
    {span : Span} (h : (piece, span) ∈ placed source .start pieces) :
    span.start.CountedIn (pieces.flatMap source) := by
  obtain ⟨front, behind, rfl, rfl⟩ := mem_placed_iff.mp h
  rw [List.flatMap_append]
  exact Position.countedIn_after _ _

end LayoutMarkup.Text

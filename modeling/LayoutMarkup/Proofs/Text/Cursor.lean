import LayoutMarkup.Proofs.Text.Counted
import LayoutMarkup.Proofs.Text.Run

/-!
# Moving through a text byte by byte

A reader that moves byte by byte stands inside a character as soon as it has passed the first byte of
one that has several. It may slice its text only where it stands between two characters. What keeps
it from doing otherwise is what it asks of the bytes: whether they are some ASCII character, or one
of a class that does not tell the other characters apart. To such a question all bytes of a character
answer as the character does, so a run of bytes ends where a run of characters ends.

## Main definitions

* `IsBoundary` — an offset that is not inside a character
* `AlikeBeyondASCII` — a question about characters that only ASCII characters answer differently
* `Cursor` — a place in a text with the bytes that are left behind it
* `Cursor.peek`, `Cursor.advance`, `Cursor.skipWhile`, `Cursor.advanceTo` — its moves
* `Cursor.between` — a cursor between two parts of a text

## Main results

* `isSome_slice?_iff` — a slice is defined if its offsets are in bounds and inside no character
* `Cursor.skipWhile_between` — a run of bytes is a run of characters
* `Cursor.eq_of_passes` — a reader that moves on at every byte of a character passes the character
-/

namespace LayoutMarkup.Text

open Position (byteLength byteLength_append)

variable {text before behind piece rest : List Char} {n start stop : Nat} {b : UInt8} {c d : Char}

/-! ### Boundaries -/

/-- An offset that is not inside a character: the byte there, if there is one, does not continue a
character. -/
def IsBoundary (text : List Char) (n : Nat) : Prop :=
  ∀ b ∈ (bytes text)[n]?, isContinuation b = false

/-- The first byte of a character does not continue one, and the others do. -/
theorem exists_utf8EncodeChar (c : Char) : ∃ first more, String.utf8EncodeChar c = first :: more ∧
    isContinuation first = false ∧ ∀ b ∈ more, isContinuation b = true := by
  by_cases hc : c = '\n'
  · subst hc
    exact ⟨lineFeed, [], rfl, rfl, List.forall_mem_nil _⟩
  · obtain ⟨first, more, hencode, -, hfirst, hmore⟩ := exists_utf8EncodeChar_eq_cons hc
    exact ⟨first, more, hencode, hfirst, hmore⟩

theorem isBoundary_zero (text : List Char) : IsBoundary text 0 := by
  cases text with
  | nil => simp [IsBoundary]
  | cons c text =>
    obtain ⟨first, more, hencode, hfirst, -⟩ := exists_utf8EncodeChar c
    simpa [IsBoundary, hencode] using hfirst

/-- Behind the front of a text, boundaries are those of the rest. -/
theorem isBoundary_append_iff (before behind : List Char) (n : Nat) :
    IsBoundary (before ++ behind) ((bytes before).length + n) ↔ IsBoundary behind n := by
  rw [IsBoundary, IsBoundary, bytes_append, List.getElem?_append_right (Nat.le_add_right _ _),
    Nat.add_sub_cancel_left]

/-- A text can be cut at the boundaries in its bounds. -/
theorem exists_append_iff : (∃ before behind, text = before ++ behind ∧ byteLength before = n) ↔
    n ≤ (bytes text).length ∧ IsBoundary text n := by
  constructor
  · rintro ⟨before, behind, rfl, rfl⟩
    rw [← length_bytes]
    refine ⟨?_, (isBoundary_append_iff before behind 0).mpr (isBoundary_zero behind)⟩
    rw [bytes_append, List.length_append]
    exact Nat.le_add_right _ _
  · rintro ⟨hle, hboundary⟩
    induction text generalizing n with
    | nil =>
      obtain rfl := Nat.le_zero.mp hle
      exact ⟨[], [], rfl, rfl⟩
    | cons c text ih =>
      obtain ⟨first, more, hencode, -, hmore⟩ := exists_utf8EncodeChar c
      have hsize : (bytes [c]).length = c.utf8Size := by
        rw [length_bytes, Position.byteLength_cons, Position.byteLength_nil, Nat.add_zero]
      rcases Nat.lt_or_ge n c.utf8Size with hlt | hge
      · -- The offset is at the character, so it can only be in front of it.
        rcases Nat.eq_zero_or_pos n with rfl | hpos
        · exact ⟨[], c :: text, rfl, rfl⟩
        · obtain ⟨k, rfl⟩ := Nat.exists_eq_add_one.mpr hpos
          have hk : k < more.length := by
            rw [← String.length_utf8EncodeChar, hencode, List.length_cons] at hlt
            omega
          have hbyte := hmore more[k] (List.getElem_mem hk)
          rw [hboundary more[k] (by simp [hencode, List.getElem?_append_left hk, hk])] at hbyte
          contradiction
      · obtain ⟨k, rfl⟩ := Nat.exists_eq_add_of_le hge
        have hle' : k ≤ (bytes text).length := by
          rw [length_bytes, Position.byteLength_cons] at hle
          rw [length_bytes]
          omega
        have hboundary' : IsBoundary text k := by
          rwa [← isBoundary_append_iff [c], hsize]
        obtain ⟨before, behind, rfl, rfl⟩ := ih hle' hboundary'
        exact ⟨c :: before, behind, rfl, rfl⟩

/-- A slice is defined if its offsets are in order, in bounds and inside no character. -/
theorem isSome_slice?_iff : (slice? text start stop).isSome ↔
    start ≤ stop ∧ stop ≤ (bytes text).length ∧ IsBoundary text start ∧ IsBoundary text stop := by
  simp only [Option.isSome_iff_exists, slice?_eq_some_iff]
  constructor
  · rintro ⟨piece, before, behind, rfl, rfl, rfl⟩
    obtain ⟨hle, hstop⟩ := exists_append_iff.mp
      ⟨before ++ piece, behind, (List.append_assoc before piece behind).symm, rfl⟩
    obtain ⟨-, hstart⟩ := exists_append_iff.mp ⟨before, piece ++ behind, rfl, rfl⟩
    refine ⟨?_, hle, hstart, hstop⟩
    rw [byteLength_append]
    exact Nat.le_add_right _ _
  · rintro ⟨hle, hbound, hstart, hstop⟩
    obtain ⟨before, rest, rfl, rfl⟩ := exists_append_iff.mpr ⟨Nat.le_trans hle hbound, hstart⟩
    -- The second offset is a boundary of what is left behind the first.
    obtain ⟨k, rfl⟩ := Nat.exists_eq_add_of_le hle
    rw [← length_bytes] at hbound hstop ⊢
    rw [bytes_append, List.length_append] at hbound
    obtain ⟨piece, behind, rfl, rfl⟩ := exists_append_iff.mpr
      ⟨Nat.add_le_add_iff_left.mp hbound, (isBoundary_append_iff before rest k).mp hstop⟩
    exact ⟨piece, before, behind, rfl, (length_bytes before).symm,
      by rw [byteLength_append, length_bytes]⟩

/-- Only the middle of the first character is no boundary. -/
example : slice? ['é', '<'] 0 1 = none ∧ slice? ['é', '<'] 0 2 = some ['é'] := by decide

/-! ### Bytes as characters

A byte is looked at as the character with its number. Of a byte that is an ASCII character that is
the character itself. -/

/-- A question about characters to which all characters beyond ASCII have one answer. -/
def AlikeBeyondASCII {α : Type} (f : Char → α) : Prop :=
  ∃ answer, ∀ c : Char, 128 ≤ c.toNat → f c = answer

theorem utf8EncodeChar_of_lt (h : c.toNat < 128) : String.utf8EncodeChar c = [c.toUInt8] := by
  refine String.utf8EncodeChar_eq_singleton (Char.utf8Size_eq_one_iff.mpr ?_)
  exact UInt32.le_iff_toNat_le.mpr (Nat.le_of_lt_succ h)

theorem ofUInt8_toUInt8 (h : c.toNat < 128) : Char.ofUInt8 c.toUInt8 = c := by
  refine Char.ext (UInt32.toNat_inj.mp ?_)
  change c.val.toUInt8.toUInt32.toNat = c.val.toNat
  rw [UInt8.toNat_toUInt32, UInt32.toNat_toUInt8]
  exact Nat.mod_eq_of_lt (Nat.lt_trans h (by decide))

/-- A character beyond ASCII has no ASCII character among its bytes. -/
theorem le_of_mem_utf8EncodeChar (h : 128 ≤ c.toNat) (hb : b ∈ String.utf8EncodeChar c) :
    128 ≤ (Char.ofUInt8 b).toNat := by
  have hbyte (n : Nat) (hle : 128 ≤ n) (hlt : n < 256) : 128 ≤ (UInt8.ofNat n).toNat := by
    rwa [UInt8.toNat_ofNat_of_lt' hlt]
  change 128 ≤ c.val.toNat at h
  change 128 ≤ b.toUInt32.toNat
  rw [UInt8.toNat_toUInt32]
  simp only [String.utf8EncodeChar] at hb
  split_ifs at hb with h1 h2 h3
  · omega
  · simp only [List.mem_cons, List.not_mem_nil, or_false] at hb
    rcases hb with rfl | rfl <;> exact hbyte _ (by omega) (by omega)
  · simp only [List.mem_cons, List.not_mem_nil, or_false] at hb
    rcases hb with rfl | rfl | rfl <;> exact hbyte _ (by omega) (by omega)
  · simp only [List.mem_cons, List.not_mem_nil, or_false] at hb
    rcases hb with rfl | rfl | rfl | rfl <;> exact hbyte _ (by omega) (by omega)

/-- Every byte of a character answers as the character does. -/
theorem AlikeBeyondASCII.eq_of_mem {α : Type} {f : Char → α} (hf : AlikeBeyondASCII f)
    (hb : b ∈ String.utf8EncodeChar c) : f (Char.ofUInt8 b) = f c := by
  obtain ⟨answer, hanswer⟩ := hf
  rcases Nat.lt_or_ge c.toNat 128 with hlt | hge
  · rw [utf8EncodeChar_of_lt hlt, List.mem_singleton] at hb
    rw [hb, ofUInt8_toUInt8 hlt]
  · rw [hanswer c hge, hanswer _ (le_of_mem_utf8EncodeChar hge hb)]

variable {p : Char → Bool}

/-- A class of ASCII characters. -/
theorem AlikeBeyondASCII.of_lt (h : ∀ c, p c = true → c.toNat < 128) : AlikeBeyondASCII p := by
  refine ⟨false, fun c hc => ?_⟩
  rw [← Bool.not_eq_true]
  exact fun htrue => absurd (h c htrue) (Nat.not_lt.mpr hc)

theorem AlikeBeyondASCII.not (h : AlikeBeyondASCII p) : AlikeBeyondASCII (!p ·) := by
  obtain ⟨answer, hanswer⟩ := h
  exact ⟨!answer, fun c hc => congrArg (!·) (hanswer c hc)⟩

theorem alikeBeyondASCII_eq (hd : d.toNat < 128) : AlikeBeyondASCII fun c => decide (c = d) := by
  refine .of_lt fun c hc => ?_
  rwa [of_decide_eq_true hc]

theorem lt_of_isWordChar (h : isWordChar c = true) : c.toNat < 128 := by
  delta isWordChar Char.isAlphanum Char.isAlpha Char.isUpper Char.isLower Char.isDigit at h
  simp only [Bool.or_eq_true, Bool.and_eq_true, decide_eq_true_eq, UInt32.le_iff_toNat_le] at h
  change c.val.toNat < 128
  rcases h with ((h | h) | h) | rfl
  · exact Nat.lt_of_le_of_lt h.2 (by decide)
  · exact Nat.lt_of_le_of_lt h.2 (by decide)
  · exact Nat.lt_of_le_of_lt h.2 (by decide)
  · decide

theorem lt_of_isGap (h : isGap c = true) : c.toNat < 128 := by
  simp only [isGap, Bool.or_eq_true, decide_eq_true_eq] at h
  rcases h with (((rfl | rfl) | rfl) | rfl) | rfl <;> decide

theorem alikeBeyondASCII_isWordChar : AlikeBeyondASCII isWordChar := .of_lt fun _ => lt_of_isWordChar

theorem alikeBeyondASCII_isNameStart : AlikeBeyondASCII isNameStart :=
  .of_lt fun _ h => lt_of_isWordChar (isWordChar_of_isNameStart h)

theorem alikeBeyondASCII_isDigit : AlikeBeyondASCII Char.isDigit :=
  .of_lt fun _ h => lt_of_isWordChar (isWordChar_of_isDigit h)

theorem alikeBeyondASCII_isGap : AlikeBeyondASCII isGap := .of_lt fun _ => lt_of_isGap

theorem bytes_cons_of_lt (h : c.toNat < 128) (text : List Char) :
    bytes (c :: text) = c.toUInt8 :: bytes text := by
  rw [bytes_cons, utf8EncodeChar_of_lt h, List.singleton_append]

theorem byteLength_append_of_lt (h : c.toNat < 128) (text : List Char) :
    byteLength (text ++ [c]) = byteLength text + 1 := by
  rw [byteLength_append, ← length_bytes [c], bytes_cons_of_lt h, bytes_nil, List.length_singleton]

@[simp] theorem bytes_eq_nil_iff : bytes text = [] ↔ text = [] := by
  cases text with
  | nil => exact iff_of_true rfl rfl
  | cons c text =>
    obtain ⟨first, more, hencode, -⟩ := exists_utf8EncodeChar c
    simp [hencode]

theorem byteLength_eq_zero_iff : byteLength text = 0 ↔ text = [] := by
  rw [← length_bytes, List.length_eq_zero_iff, bytes_eq_nil_iff]

theorem drop_bytes_append (before behind : List Char) :
    (bytes (before ++ behind)).drop (byteLength before) = bytes behind := by
  rw [bytes_append, ← length_bytes, List.drop_left]

/-- The byte of an ASCII character stands only where the character does. -/
theorem getElem?_bytes_append_iff (hd : d.toNat < 128) (before rest : List Char) :
    (bytes (before ++ rest))[byteLength before]? = some d.toUInt8 ↔ rest.head? = some d := by
  rw [bytes_append, ← length_bytes, List.getElem?_append_right (Nat.le_refl _), Nat.sub_self]
  cases rest with
  | nil => exact iff_of_false nofun nofun
  | cons c rest =>
    obtain ⟨first, more, hencode, -⟩ := exists_utf8EncodeChar c
    rw [List.head?_cons, Option.some.injEq, bytes_cons, hencode, List.cons_append,
      List.getElem?_cons_zero, Option.some.injEq]
    constructor
    · rintro rfl
      have hmem : d.toUInt8 ∈ String.utf8EncodeChar c := hencode ▸ List.mem_cons_self
      have hanswer := (alikeBeyondASCII_eq hd).eq_of_mem hmem
      rw [ofUInt8_toUInt8 hd] at hanswer
      exact decide_eq_true_iff.mp (hanswer.symm.trans (decide_eq_true rfl))
    · rintro rfl
      rw [utf8EncodeChar_of_lt hd] at hencode
      exact (List.cons.inj hencode).1.symm

/-- A run of bytes is a run of characters. -/
theorem takeWhile_bytes (hp : AlikeBeyondASCII p) (text : List Char) :
    (bytes text).takeWhile (p ∘ Char.ofUInt8) = bytes (text.takeWhile p) := by
  induction text with
  | nil => rfl
  | cons c text ih =>
    have hbytes : ∀ b ∈ String.utf8EncodeChar c, (p ∘ Char.ofUInt8) b = p c :=
      fun b hb => hp.eq_of_mem hb
    rw [bytes_cons, List.takeWhile_cons]
    cases hc : p c with
    | true =>
      rw [List.takeWhile_append_of_pos (by simpa [hc] using hbytes), ih]
      rfl
    | false =>
      obtain ⟨first, more, hencode, -⟩ := exists_utf8EncodeChar c
      rw [hencode, List.cons_append, List.takeWhile_cons_of_neg]
      · rfl
      · rw [hbytes first (hencode ▸ List.mem_cons_self), hc]
        exact Bool.false_ne_true

/-- What is behind a run of bytes is what is behind the run of characters. -/
theorem dropWhile_bytes (hp : AlikeBeyondASCII p) (text : List Char) :
    (bytes text).dropWhile (p ∘ Char.ofUInt8) = bytes (text.dropWhile p) := by
  have hwhole : bytes (text.takeWhile p) ++ (bytes text).dropWhile (p ∘ Char.ofUInt8) =
      bytes (text.takeWhile p) ++ bytes (text.dropWhile p) := by
    rw [← bytes_append, List.takeWhile_append_dropWhile, ← takeWhile_bytes hp,
      List.takeWhile_append_dropWhile]
  exact List.append_cancel_left hwhole

/-! ### The cursor -/

/-- A place in a text, with the bytes that are left behind it. -/
structure Cursor where
  place : Position
  left : List UInt8
  deriving DecidableEq, Repr

namespace Cursor

/-- The offset of a cursor. -/
def offset (cursor : Cursor) : Nat := cursor.place.offset

/-- The byte in front of which a cursor stands, as a character; the null character at the end. -/
def peek (cursor : Cursor) : Char :=
  match cursor.left with
  | [] => '\x00'
  | b :: _ => Char.ofUInt8 b

/-- A cursor moved over one byte. It stays at the end. -/
def advance (cursor : Cursor) : Cursor :=
  match cursor.left with
  | [] => cursor
  | b :: left => ⟨cursor.place.nextByte b, left⟩

/-- A cursor moved over the bytes in front that are in a class. -/
def skipWhile (p : Char → Bool) (cursor : Cursor) : Cursor :=
  ⟨cursor.place.afterBytes (cursor.left.takeWhile (p ∘ Char.ofUInt8)),
    cursor.left.dropWhile (p ∘ Char.ofUInt8)⟩

/-- A cursor moved forward to an offset, or to the end. -/
def advanceTo (target : Nat) (cursor : Cursor) : Cursor :=
  ⟨cursor.place.afterBytes (cursor.left.take (target - cursor.offset)),
    cursor.left.drop (target - cursor.offset)⟩

/-- The cursor between two parts of a text. -/
def between (before behind : List Char) : Cursor := ⟨Position.start.after before, bytes behind⟩

@[simp] theorem offset_between (before behind : List Char) :
    (between before behind).offset = byteLength before := by
  rw [offset, between, Position.after_offset]
  exact Nat.zero_add _

theorem left_between_cons_ne_nil (before : List Char) (c : Char) (rest : List Char) :
    (between before (c :: rest)).left ≠ [] := mt bytes_eq_nil_iff.mp (List.cons_ne_nil c rest)

theorem length_left_advance_lt {cursor : Cursor} (h : cursor.left ≠ []) :
    cursor.advance.left.length < cursor.left.length := by
  unfold advance
  split
  · rename_i hnil
    exact absurd hnil h
  · rename_i b left hcons
    rw [hcons]
    exact Nat.lt_succ_self _

/-- A cursor that has moved into the rest of a text has fewer bytes left. -/
theorem length_left_between_lt (happend : piece ++ behind = rest)
    (hlt : behind.length < rest.length) (before before' : List Char) :
    (between before' behind).left.length < (between before rest).left.length := by
  have hpiece : piece ≠ [] := by
    rintro rfl
    rw [← happend, List.nil_append] at hlt
    exact Nat.lt_irrefl _ hlt
  have hpos := List.length_pos_iff.mpr (mt bytes_eq_nil_iff.mp hpiece)
  rw [← happend]
  simp only [between, bytes_append, List.length_append]
  omega

/-- What a cursor is asked about the byte in front of it is answered by the character there. -/
theorem apply_peek_between {α : Type} {f : Char → α} (hf : AlikeBeyondASCII f)
    (before rest : List Char) (c : Char) : f (between before (c :: rest)).peek = f c := by
  obtain ⟨first, more, hencode, -⟩ := exists_utf8EncodeChar c
  simp only [peek, between, bytes_cons, hencode, List.cons_append]
  exact hf.eq_of_mem (hencode ▸ List.mem_cons_self)

/-- A cursor sees an ASCII character just if it stands in front of it. -/
theorem peek_between_cons_eq_iff (hd : d.toNat < 128) :
    (between before (c :: rest)).peek = d ↔ c = d :=
  decide_eq_decide.mp (apply_peek_between (alikeBeyondASCII_eq hd) before rest c)

theorem peek_between_eq_iff (hd : d.toNat < 128) (hzero : d ≠ '\x00') :
    (between before rest).peek = d ↔ rest.head? = some d := by
  cases rest with
  | nil => exact iff_of_false hzero.symm nofun
  | cons c rest => rw [peek_between_cons_eq_iff hd, List.head?_cons, Option.some.injEq]

theorem advance_between (hc : c.toNat < 128) (before rest : List Char) :
    (between before (c :: rest)).advance = between (before ++ [c]) rest := by
  have hnext := Position.afterBytes_utf8EncodeChar (Position.start.after before) c
  rw [utf8EncodeChar_of_lt hc] at hnext
  simp only [advance, between, bytes_cons_of_lt hc, Position.after_append]
  exact congrArg (Cursor.mk · (bytes rest)) hnext

theorem skipWhile_between (hp : AlikeBeyondASCII p) (before rest : List Char) :
    (between before rest).skipWhile p =
      between (before ++ rest.takeWhile p) (rest.dropWhile p) := by
  simp only [skipWhile, between, takeWhile_bytes hp, dropWhile_bytes hp, Position.afterBytes_bytes,
    Position.after_append]

theorem advanceTo_between (before piece rest : List Char) :
    (between before (piece ++ rest)).advanceTo (byteLength (before ++ piece)) =
      between (before ++ piece) rest := by
  have hlength : byteLength (before ++ piece) - byteLength before = (bytes piece).length := by
    rw [byteLength_append, Nat.add_sub_cancel_left, length_bytes]
  simp only [advanceTo, offset_between, hlength]
  simp only [between, bytes_append, List.take_left, List.drop_left, Position.afterBytes_bytes,
    Position.after_append]

/-- A reader that moves on by a byte wherever it finds none of a class passes a character that is not
in the class, though it stands inside of it in between. -/
theorem eq_of_passes {α : Type} {reader : Cursor → α} {stops : Char → Bool}
    (hstops : AlikeBeyondASCII stops)
    (hreader : ∀ cursor : Cursor, cursor.left ≠ [] → stops cursor.peek = false →
      reader cursor = reader cursor.advance) (hc : stops c = false) (before rest : List Char) :
    reader (between before (c :: rest)) = reader (between (before ++ [c]) rest) := by
  have hrun (bs left : List UInt8) (p : Position)
      (hbs : ∀ b ∈ bs, stops (Char.ofUInt8 b) = false) :
      reader ⟨p, bs ++ left⟩ = reader ⟨p.afterBytes bs, left⟩ := by
    induction bs generalizing p with
    | nil => rfl
    | cons b bs ih =>
      obtain ⟨hb, hbs⟩ := List.forall_mem_cons.mp hbs
      exact (hreader ⟨p, b :: (bs ++ left)⟩ (List.cons_ne_nil _ _) hb).trans (ih _ hbs)
  have hbytes : ∀ b ∈ String.utf8EncodeChar c, stops (Char.ofUInt8 b) = false :=
    fun b hb => (hstops.eq_of_mem hb).trans hc
  have hpassed := hrun _ (bytes rest) (Position.start.after before) hbytes
  rw [Position.afterBytes_utf8EncodeChar] at hpassed
  rw [between, between, Position.after_append]
  exact hpassed

end Cursor

end LayoutMarkup.Text

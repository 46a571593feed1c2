import LayoutMarkup.Proofs.Attribute.Grammar
import LayoutMarkup.Proofs.Text.Cursor

/-!
# Attribute text, byte by byte

The attributes of a text are found here by a reader that moves over bytes, and slices the text
between the offsets where it has been. Behind a quotation mark it takes the whole rest of the text
and looks for the next one there; behind a brace it counts the digits among the bytes. All slices are
checked: where one is undefined, or where an attribute is read and no byte is passed, there is no
result. There always is one, and it is the one that reading by characters gives.

## Main definitions

* `Attribute.passName`, `Attribute.passValue` — a name and a malformed value are passed
* `Attribute.quotedAt?`, `Attribute.bracedAt?`, `Attribute.valueAt?` — accepted values
* `Attribute.attributeAt?` — the attribute that a name begins
* `Attribute.scanBytes?` — the attributes behind a cursor

## Main results

* `Attribute.attributeAt?_of_heads` — what a name begins is read as the grammar says
* `Attribute.scanBytes?_between` — the same attributes are found in the same places
-/

namespace LayoutMarkup.Attribute

open Text
open Position (byteLength byteLength_append)

/-! ### Reading -/

/-- The cursor behind the longest name in front of the bytes that stand at `p`. -/
def passName (p : Position) : List UInt8 → Cursor
  | [] => ⟨p, []⟩
  | b :: left =>
    if isWordChar (Char.ofUInt8 b) ||
        (Char.ofUInt8 b = '-' && (⟨p.nextByte b, left⟩ : Cursor).peek.isAlphanum) then
      passName (p.nextByte b) left
    else ⟨p, b :: left⟩

/-- The cursor behind a value of no accepted form. -/
def passValue (cursor : Cursor) : Cursor :=
  let value := cursor.skipWhile isGap
  match closerOf? value.peek with
  | some close => (value.advance.skipWhile (· ≠ close)).advance
  | none => value.skipWhile (!isGap ·)

/-- The offset of the first `c` in a text. -/
def offsetOf? (c : Char) (text : List Char) : Option Nat :=
  if c ∈ text then some (byteLength (text.takeWhile (· ≠ c))) else none

/-- The text attribute whose value begins with the quotation mark in front of a cursor, with the
cursor behind it. -/
def quotedAt? (text name : List Char) (cursor : Cursor) : Option (Option (Attribute × Cursor)) := do
  let rest ← slice? text (cursor.offset + 1) (byteLength text)
  match offsetOf? '"' rest with
  | none | some 0 => return none
  | some n =>
    let value ← slice? rest 0 n
    return some (⟨String.ofList name, .text (String.ofList value)⟩,
      cursor.advanceTo (cursor.offset + 1 + n + 1))

/-- The number attribute whose value begins with the brace in front of a cursor, with the cursor
behind it. -/
def bracedAt? (text name : List Char) (cursor : Cursor) : Option (Option (Attribute × Cursor)) :=
  if cursor.offset + 1 ≤ (bytes text).length then
    let digits := ((bytes text).drop (cursor.offset + 1)).takeWhile (Char.isDigit ∘ Char.ofUInt8)
    let close := cursor.offset + 1 + digits.length
    if digits ≠ [] ∧ (bytes text)[close]? = some '}'.toUInt8 then do
      let shown ← slice? text (cursor.offset + 1) close
      return (Decimal.readSigned? shown).map fun value =>
        (⟨String.ofList name, .number value⟩, cursor.advanceTo (close + 1))
    else some none
  else none

/-- The attribute of an accepted form whose value is in front of a cursor, with the cursor behind
it. -/
def valueAt? (text name : List Char) (cursor : Cursor) : Option (Option (Attribute × Cursor)) :=
  if cursor.peek = '"' then quotedAt? text name cursor
  else if cursor.peek = '{' then bracedAt? text name cursor
  else some none

/-- The attribute with a name that ends at a cursor and begins at `start`, with its stretch, if it is
not malformed, and the cursor behind it. -/
def attributeBehind? (text name : List Char) (start : Position) (named : Cursor) :
    Option (Option (Attribute × Span) × Cursor) := do
  let next := named.skipWhile isGap
  if next.peek = '=' then
    match ← if next.offset = named.offset then valueAt? text name next.advance else some none with
    | some (found, behind) => return (some (found, ⟨start, behind.place⟩), behind)
    | none => return (none, passValue next.advance)
  else return (some (⟨String.ofList name, .flag⟩, ⟨start, named.place⟩), named)

/-- The attribute that the name in front of a cursor begins. -/
def attributeAt? (text : List Char) (cursor : Cursor) :
    Option (Option (Attribute × Span) × Cursor) := do
  let named := passName cursor.place cursor.left
  let name ← slice? text cursor.offset named.offset
  attributeBehind? text name cursor.place named

/-- The attributes behind a cursor, with the stretches that they cover. -/
def scanBytes? (text : List Char) (cursor : Cursor) : Option (List (Attribute × Span)) :=
  if cursor.left = [] then some []
  else if isWordChar cursor.peek then do
    let (found, behind) ← attributeAt? text cursor
    if behind.left.length < cursor.left.length then
      let attributes ← scanBytes? text behind
      return found.toList ++ attributes
    else none
  else scanBytes? text cursor.advance
termination_by cursor.left.length
decreasing_by
  · assumption
  · exact Cursor.length_left_advance_lt ‹_›

variable {text before behind rest name : List Char} {c close : Char}

/-! ### Names and values -/

theorem alikeBeyondASCII_isAlphanum : AlikeBeyondASCII Char.isAlphanum :=
  .of_lt fun _ h => lt_of_isWordChar (isWordChar_of_isAlphanum h)

theorem alikeBeyondASCII_closerOf? : AlikeBeyondASCII closerOf? := by
  refine ⟨none, fun c hc => ?_⟩
  rw [← Option.not_isSome_iff_eq_none, Option.isSome_iff_exists]
  rintro ⟨close, hclose⟩
  have hlt : c.toNat < 128 := by
    cases closerOf?_eq_some_iff.mp hclose <;> decide
  exact absurd hlt (Nat.not_lt.mpr hc)

/-- The longest name is passed. -/
theorem passName_bytes (p : Position) (text : List Char) :
    passName p (bytes text) = ⟨p.after (readName text).1, bytes (readName text).2⟩ := by
  induction text generalizing p with
  | nil => rfl
  | cons c text ih =>
    rcases Nat.lt_or_ge c.toNat 128 with hlt | hge
    · have hnext : p.nextByte c.toUInt8 = p.next c := by
        have hmoved := Position.afterBytes_utf8EncodeChar p c
        rwa [utf8EncodeChar_of_lt hlt] at hmoved
      have hpeek : (⟨p.next c, bytes text⟩ : Cursor).peek.isAlphanum = startsAlphanum text := by
        cases text with
        | nil => rfl
        | cons d text => exact Cursor.apply_peek_between alikeBeyondASCII_isAlphanum [] text d
      rw [bytes_cons_of_lt hlt, passName, ofUInt8_toUInt8 hlt, hnext, hpeek, readName]
      split
      · exact ih (p.next c)
      · rw [bytes_cons_of_lt hlt]
        rfl
    · -- No name goes on with a character beyond ASCII, nor with any of its bytes.
      have hword : isWordChar c = false := by
        rw [← Bool.not_eq_true]
        exact fun hc => absurd (lt_of_isWordChar hc) (Nat.not_lt.mpr hge)
      have hhyphen : decide (c = '-') = false := by
        refine decide_eq_false ?_
        rintro rfl
        exact absurd hge (by decide)
      obtain ⟨first, more, hencode, -⟩ := exists_utf8EncodeChar c
      have hfirst : first ∈ String.utf8EncodeChar c := hencode ▸ List.mem_cons_self
      have hword' := (alikeBeyondASCII_isWordChar.eq_of_mem hfirst).trans hword
      have hhyphen' := ((alikeBeyondASCII_eq (d := '-') (by decide)).eq_of_mem hfirst).trans hhyphen
      rw [readName, hword, hhyphen, bytes_cons, hencode, List.cons_append, passName, hword', hhyphen']
      simp [hencode]

theorem passName_between (before rest : List Char) :
    passName (Cursor.between before rest).place (Cursor.between before rest).left =
      .between (before ++ (readName rest).1) (readName rest).2 := by
  rw [Cursor.between, passName_bytes, Cursor.between, Position.after_append]

theorem cutBehind_eq (close : Char) (text : List Char) : cutBehind close text =
    (text.takeWhile (· ≠ close) ++ (text.dropWhile (· ≠ close)).take 1,
      (text.dropWhile (· ≠ close)).drop 1) := by
  induction text with
  | nil => rfl
  | cons c text ih =>
    rw [cutBehind]
    split
    · rename_i hc
      simp [hc]
    · rename_i hc
      simp [hc, ih]

/-- A text is passed through its first closing character. -/
theorem advance_skipWhile_between (hclose : close.toNat < 128) (before text : List Char) :
    ((Cursor.between before text).skipWhile (· ≠ close)).advance =
      .between (before ++ (cutBehind close text).1) (cutBehind close text).2 := by
  have hclass : AlikeBeyondASCII fun c => decide (c ≠ close) := by
    simpa only [decide_not] using (alikeBeyondASCII_eq hclose).not
  rw [Cursor.skipWhile_between hclass, cutBehind_eq]
  cases hrest : text.dropWhile fun c => decide (c ≠ close) with
  | nil => simp [Cursor.advance, Cursor.between]
  | cons c rest =>
    obtain rfl : c = close := by
      have hstop := stopsAt_dropWhile (fun c => decide (c ≠ close)) text
      rw [hrest, stopsAt_cons_iff] at hstop
      simpa using hstop
    rw [Cursor.advance_between hclose, List.append_assoc]
    rfl

/-- A value is passed as it is skipped in the text. -/
theorem passValue_between (before text : List Char) :
    passValue (.between before text) =
      .between (before ++ (skipValue text).1) (skipValue text).2 := by
  rw [passValue, Cursor.skipWhile_between alikeBeyondASCII_isGap, skipValue]
  cases text.dropWhile isGap with
  | nil =>
    have hend : closerOf? (Cursor.between (before ++ text.takeWhile isGap) []).peek = none := rfl
    simp only [hend, cutValue, List.append_nil]
    rfl
  | cons c value =>
    simp only [Cursor.apply_peek_between alikeBeyondASCII_closerOf?, cutValue]
    cases hcloser : closerOf? c with
    | none =>
      simp only
      rw [Cursor.skipWhile_between alikeBeyondASCII_isGap.not, List.append_assoc]
    | some close =>
      obtain ⟨hc, hclose⟩ : c.toNat < 128 ∧ close.toNat < 128 := by
        cases closerOf?_eq_some_iff.mp hcloser <;> decide
      simp only
      rw [Cursor.advance_between hc, advance_skipWhile_between hclose, List.append_assoc,
        List.append_assoc]
      rfl

/-- Behind an opening character, a part of a text is sliced by its length. -/
theorem slice?_enclosed {value : List Char} (hc : c.toNat < 128)
    (h : before ++ c :: (value ++ rest) = text) :
    slice? text (byteLength before + 1) (byteLength before + 1 + byteLength value) = some value := by
  rw [← byteLength_append_of_lt hc, ← byteLength_append]
  refine slice?_eq_some_iff.mpr ⟨before ++ [c], rest, ?_, rfl, rfl⟩
  rw [← h, List.append_cons, List.append_assoc]

theorem slice?_behind (hc : c.toNat < 128) (h : before ++ c :: rest = text) :
    slice? text (byteLength before + 1) (byteLength text) = some rest := by
  have hlength : byteLength text = byteLength before + 1 + byteLength rest := by
    rw [← byteLength_append_of_lt hc, ← byteLength_append, ← h, List.append_cons]
  have hwhole : before ++ c :: (rest ++ []) = text := by rw [List.append_nil, h]
  rw [hlength]
  exact slice?_enclosed hc hwhole

/-- A value is passed with the characters that enclose it. -/
theorem advanceTo_enclosed (hc : c.toNat < 128) (hclose : close.toNat < 128)
    (before value rest : List Char) :
    (Cursor.between before (c :: (value ++ close :: rest))).advanceTo
        (byteLength before + 1 + byteLength value + 1) =
      .between (before ++ c :: (value ++ [close])) rest := by
  have htarget : byteLength (before ++ c :: (value ++ [close])) =
      byteLength before + 1 + byteLength value + 1 := by
    rw [List.append_cons, ← List.append_assoc, byteLength_append_of_lt hclose, byteLength_append,
      byteLength_append_of_lt hc]
  have hmoved := Cursor.advanceTo_between before (c :: (value ++ [close])) rest
  rwa [htarget, List.cons_append, List.append_assoc value, List.singleton_append] at hmoved

theorem offsetOf?_append {value : List Char} (h : c ∉ value) (rest : List Char) :
    offsetOf? c (value ++ c :: rest) = some (byteLength value) := by
  have hrun : ∀ d ∈ value, decide (d ≠ c) = true := by
    intro d hd
    simpa using ne_of_mem_of_not_mem hd h
  have hstop : StopsAt (fun d => decide (d ≠ c)) (c :: rest) := stopsAt_cons_iff.mpr (by simp)
  rw [offsetOf?, if_pos (List.mem_append_right _ List.mem_cons_self),
    takeWhile_append_of_stopsAt hrun hstop]

theorem offsetOf?_of_notMem (h : c ∉ text) : offsetOf? c text = none := if_neg h

theorem quotedAt?_append {value : List Char} (hvalue : IsQuotable value)
    (h : before ++ '"' :: (value ++ '"' :: rest) = text) :
    quotedAt? text name (.between before ('"' :: (value ++ '"' :: rest))) =
      some (some (⟨String.ofList name, .text (String.ofList value)⟩,
        .between (before ++ '"' :: (value ++ ['"'])) rest)) := by
  obtain ⟨hne, hmem⟩ := hvalue
  have hslice : slice? (value ++ '"' :: rest) 0 (byteLength value) = some value :=
    slice?_append [] value ('"' :: rest)
  have hquote : '"'.toNat < 128 := by decide
  have hbehind := advanceTo_enclosed hquote hquote before value rest
  obtain ⟨n, hn⟩ : ∃ n, byteLength value = n + 1 := by
    obtain ⟨c, more, rfl⟩ := List.exists_cons_of_ne_nil hne
    have hpos := c.utf8Size_pos
    rw [Position.byteLength_cons]
    exact Nat.exists_eq_add_one.mpr (by omega)
  rw [quotedAt?, Cursor.offset_between, slice?_behind hquote h, Option.bind_eq_bind,
    Option.bind_some, offsetOf?_append hmem]
  rw [hn] at hslice hbehind ⊢
  simp only [hslice, hbehind, Option.bind_some, Option.pure_def]

theorem quotedAt?_of_not_accepted (hrest : ¬ Accepted ('"' :: rest))
    (h : before ++ '"' :: rest = text) :
    quotedAt? text name (.between before ('"' :: rest)) = some none := by
  rw [quotedAt?, Cursor.offset_between, slice?_behind (by decide) h, Option.bind_eq_bind,
    Option.bind_some]
  by_cases hmem : '"' ∈ rest
  · obtain ⟨value, behind, rfl, hvalue⟩ := List.eq_append_cons_of_mem hmem
    rcases eq_or_ne value [] with rfl | hne
    · rw [offsetOf?_append hvalue]
      rfl
    · exact absurd (.quoted behind ⟨hne, hvalue⟩) hrest
  · rw [offsetOf?_of_notMem hmem]
    rfl

/-- A run of digits has no sign in front. -/
theorem readSigned?_takeWhile_isDigit (text : List Char) :
    Decimal.readSigned? (text.takeWhile Char.isDigit) =
      Decimal.read? (text.takeWhile Char.isDigit) := by
  unfold Decimal.readSigned?
  split
  · rename_i digits hplus
    have hdigit : '+'.isDigit = true :=
      List.mem_takeWhile_imp (l := text) (by rw [hplus]; exact List.mem_cons_self)
    exact absurd hdigit (by decide)
  · rfl

/-- A braced value is read if it is a run of digits. -/
theorem bracedAt?_between (h : before ++ '{' :: rest = text) :
    bracedAt? text name (.between before ('{' :: rest)) =
      match rest.dropWhile Char.isDigit with
      | '}' :: behind => some ((Decimal.read? (rest.takeWhile Char.isDigit)).map fun value =>
          (⟨String.ofList name, .number value⟩,
            .between (before ++ '{' :: (rest.takeWhile Char.isDigit ++ ['}'])) behind))
      | _ => some none := by
  have hopen : byteLength before + 1 = byteLength (before ++ ['{']) :=
    (byteLength_append_of_lt (by decide) before).symm
  have htext : before ++ ['{'] ++ rest = text := by
    rw [List.append_assoc]
    exact h
  have hbound : byteLength before + 1 ≤ (bytes text).length := by
    rw [hopen, ← htext, length_bytes, byteLength_append (before ++ ['{'])]
    exact Nat.le_add_right _ _
  have hdrop : (bytes text).drop (byteLength before + 1) = bytes rest := by
    rw [hopen, ← htext, drop_bytes_append]
  have hsplit : rest.takeWhile Char.isDigit ++ rest.dropWhile Char.isDigit = rest :=
    List.takeWhile_append_dropWhile
  have hsign := readSigned?_takeWhile_isDigit rest
  have hrun := takeWhile_bytes alikeBeyondASCII_isDigit rest
  generalize rest.takeWhile Char.isDigit = digits at hsplit hsign hrun ⊢
  generalize rest.dropWhile Char.isDigit = behind at hsplit ⊢
  subst hsplit
  have hbyte : (bytes text)[byteLength before + 1 + byteLength digits]? = some '}'.toUInt8 ↔
      behind.head? = some '}' := by
    rw [hopen, ← byteLength_append, ← htext, ← List.append_assoc]
    exact getElem?_bytes_append_iff (by decide) _ _
  rw [bracedAt?, Cursor.offset_between, if_pos hbound, hdrop, hrun]
  simp only [length_bytes, hbyte]
  by_cases hbrace : behind.head? = some '}'
  · obtain ⟨more, rfl⟩ := List.head?_eq_some_iff.mp hbrace
    rcases eq_or_ne digits [] with rfl | hne
    · rfl
    · rw [if_pos ⟨mt bytes_eq_nil_iff.mp hne, hbrace⟩, slice?_enclosed (by decide) h,
        advanceTo_enclosed (by decide) (by decide)]
      simp only [hsign, Option.bind_eq_bind, Option.bind_some, Option.pure_def]
  · rw [if_neg fun hcond => hbrace hcond.2]
    split
    · exact absurd rfl hbrace
    · rfl

theorem bracedAt?_append {digits : List Char} (hdigits : IsNumeral digits)
    (h : before ++ '{' :: (digits ++ '}' :: rest) = text) :
    bracedAt? text name (.between before ('{' :: (digits ++ '}' :: rest))) =
      some (some (⟨String.ofList name, .number (UInt32.ofNat (Decimal.value digits))⟩,
        .between (before ++ '{' :: (digits ++ ['}'])) rest)) := by
  have hstop : StopsAt Char.isDigit ('}' :: rest) := stopsAt_cons_iff.mpr (by decide)
  have hread : Decimal.read? digits = some (UInt32.ofNat (Decimal.value digits)) :=
    if_pos ⟨hdigits.1, List.all_eq_true.mpr hdigits.2.1, hdigits.2.2⟩
  simp only [bracedAt?_between h, takeWhile_append_of_stopsAt hdigits.2.1 hstop,
    dropWhile_append_of_stopsAt hdigits.2.1 hstop, hread, Option.map_some]

theorem bracedAt?_of_not_accepted (hrest : ¬ Accepted ('{' :: rest))
    (h : before ++ '{' :: rest = text) :
    bracedAt? text name (.between before ('{' :: rest)) = some none := by
  rw [bracedAt?_between h]
  split
  · rename_i behind hdrop
    have hread : Decimal.read? (rest.takeWhile Char.isDigit) = none := by
      rw [← Option.not_isSome_iff_eq_none]
      intro hsome
      refine hrest ?_
      rw [← List.takeWhile_append_dropWhile (p := Char.isDigit) (l := rest), hdrop]
      exact .braced behind (isNumeral_of_isSome_read? hsome)
    rw [hread, Option.map_none]
  · rfl

theorem valueAt?_quoted {value : List Char} (hvalue : IsQuotable value)
    (h : before ++ '"' :: (value ++ '"' :: rest) = text) :
    valueAt? text name (.between before ('"' :: (value ++ '"' :: rest))) =
      some (some (⟨String.ofList name, .text (String.ofList value)⟩,
        .between (before ++ '"' :: (value ++ ['"'])) rest)) :=
  (if_pos ((Cursor.peek_between_cons_eq_iff (by decide)).mpr rfl)).trans (quotedAt?_append hvalue h)

theorem valueAt?_braced {digits : List Char} (hdigits : IsNumeral digits)
    (h : before ++ '{' :: (digits ++ '}' :: rest) = text) :
    valueAt? text name (.between before ('{' :: (digits ++ '}' :: rest))) =
      some (some (⟨String.ofList name, .number (UInt32.ofNat (Decimal.value digits))⟩,
        .between (before ++ '{' :: (digits ++ ['}'])) rest)) := by
  rw [valueAt?, if_neg (mt (Cursor.peek_between_cons_eq_iff (by decide)).mp (by decide)),
    if_pos ((Cursor.peek_between_cons_eq_iff (by decide)).mpr rfl)]
  exact bracedAt?_append hdigits h

/-- Where no accepted value stands, none is read. -/
theorem valueAt?_of_not_accepted (hbehind : ¬ Accepted behind) (h : before ++ behind = text) :
    valueAt? text name (.between before behind) = some none := by
  cases behind with
  | nil => rfl
  | cons c behind =>
    rw [valueAt?]
    split
    · rename_i hpeek
      obtain rfl := (Cursor.peek_between_cons_eq_iff (by decide)).mp hpeek
      exact quotedAt?_of_not_accepted hbehind h
    · split
      · rename_i hpeek
        obtain rfl := (Cursor.peek_between_cons_eq_iff (by decide)).mp hpeek
        exact bracedAt?_of_not_accepted hbehind h
      · rfl

/-! ### Attributes -/

variable {gap skipped : List Char} {item : Item}

/-- A name is passed, and what is behind it decides. -/
theorem attributeAt?_name_append (hname : IsName name) (hrest : goesOn rest = false)
    (h : before ++ (name ++ rest) = text) : attributeAt? text (.between before (name ++ rest)) =
      attributeBehind? text name (Position.start.after before) (.between (before ++ name) rest) := by
  have hslice : slice? text (byteLength before) (byteLength (before ++ name)) = some name :=
    slice?_eq_some_iff.mpr ⟨before, rest, h.symm, rfl, rfl⟩
  rw [attributeAt?, passName_between, hname.isNameTail.readName_append hrest]
  simp only [Cursor.offset_between, hslice, Option.bind_eq_bind, Option.bind_some]
  rfl

/-- Without an `=` behind it, a name is a flag. -/
theorem attributeBehind?_of_ne (p : Position)
    (hrest : ∀ gap behind, (∀ c ∈ gap, isGap c = true) → rest ≠ gap ++ '=' :: behind) :
    attributeBehind? text name p (.between before rest) =
      some (some (⟨String.ofList name, .flag⟩, ⟨p, Position.start.after before⟩),
        .between before rest) := by
  have hhead : (rest.dropWhile isGap).head? ≠ some '=' := by
    intro hhead
    obtain ⟨behind, hbehind⟩ := List.head?_eq_some_iff.mp hhead
    refine hrest (rest.takeWhile isGap) behind (fun c hc => List.mem_takeWhile_imp hc) ?_
    rw [← hbehind, List.takeWhile_append_dropWhile]
  rw [attributeBehind?, Cursor.skipWhile_between alikeBeyondASCII_isGap]
  exact if_neg (mt (Cursor.peek_between_eq_iff (by decide) (by decide)).mp hhead)

/-- Behind `=`, an accepted value is taken if nothing stands in between. -/
theorem attributeBehind?_equals (p : Position) (hgap : ∀ c ∈ gap, isGap c = true) :
    attributeBehind? text name p (.between before (gap ++ '=' :: behind)) =
      (if gap = [] then valueAt? text name (.between (before ++ ['=']) behind) else some none).map
        fun
        | some (found, last) => (some (found, ⟨p, last.place⟩), last)
        | none => (none, .between (before ++ (gap ++ '=' :: (skipValue behind).1))
            (skipValue behind).2) := by
  have hstop : StopsAt isGap ('=' :: behind) := stopsAt_cons_iff.mpr (by decide)
  have hadjacent : byteLength (before ++ gap) = byteLength before ↔ gap = [] := by
    rw [byteLength_append, Nat.add_eq_left, byteLength_eq_zero_iff]
  have hpeek : (Cursor.between (before ++ gap) ('=' :: behind)).peek = '=' :=
    (Cursor.peek_between_cons_eq_iff (by decide)).mpr rfl
  rw [attributeBehind?, Cursor.skipWhile_between alikeBeyondASCII_isGap,
    takeWhile_append_of_stopsAt hgap hstop, dropWhile_append_of_stopsAt hgap hstop]
  simp only [hpeek, if_true, Cursor.advance_between (show '='.toNat < 128 by decide),
    passValue_between, Cursor.offset_between, hadjacent]
  rcases eq_or_ne gap [] with rfl | hne
  · simp only [if_true, List.append_nil, List.append_assoc]
    cases valueAt? text name (.between (before ++ ['=']) behind) with
    | none => rfl
    | some read => cases read <;> rfl
  · simp [hne]

theorem attributeBehind?_of_valueAt? (p : Position) {found : Attribute} {last : Cursor}
    (h : valueAt? text name (.between (before ++ ['=']) behind) = some (some (found, last))) :
    attributeBehind? text name p (.between before ('=' :: behind)) =
      some (some (found, ⟨p, last.place⟩), last) := by
  rw [← List.nil_append ('=' :: behind), attributeBehind?_equals p (List.forall_mem_nil _),
    if_pos rfl, h]
  rfl

/-- What a name begins is read as it is read of the text. -/
theorem attributeAt?_of_heads (hheads : Item.Heads rest item behind)
    (hword : rest.head?.any isWordChar = true) (h : before ++ rest = text) :
    attributeAt? text (.between before rest) =
      some (item.attribute?.map (·, .over (Position.start.after before) item.source),
        .between (before ++ item.source) behind) := by
  cases hheads with
  | filler rest hc =>
    rw [List.head?_cons, Option.any_some, hc] at hword
    contradiction
  | @flag name _ hname hends heq =>
    rw [attributeAt?_name_append hname (hname.endsName_iff.mp hends) h,
      attributeBehind?_of_ne _ heq, Position.after_append]
    rfl
  | @quoted name value rest hname hvalue =>
    have htext : before ++ name ++ ['='] ++ '"' :: (value ++ '"' :: behind) = text := by
      simpa using h
    rw [attributeAt?_name_append hname rfl h,
      attributeBehind?_of_valueAt? _ (valueAt?_quoted hvalue htext)]
    simp [Item.attribute?, Item.source, Cursor.between, Span.over, Position.after_append]
  | @braced name digits rest hname hdigits =>
    have htext : before ++ name ++ ['='] ++ '{' :: (digits ++ '}' :: behind) = text := by
      simpa using h
    rw [attributeAt?_name_append hname rfl h,
      attributeBehind?_of_valueAt? _ (valueAt?_braced hdigits htext)]
    simp [Item.attribute?, Item.source, Cursor.between, Span.over, Position.after_append]
  | @malformed name gap value skipped rest hname hgap haccepted hskips =>
    have hvalue : (if gap = [] then
        valueAt? text name (.between (before ++ name ++ ['=']) value) else some none) =
          some none := by
      split
      · rename_i hnil
        subst hnil
        exact valueAt?_of_not_accepted (haccepted rfl) (by simpa using h)
      · rfl
    rw [attributeAt?_name_append hname (goesOn_gap_append_eq hgap value) h,
      attributeBehind?_equals _ hgap, hvalue, hskips.skipValue_eq, List.append_assoc before name]
    rfl

/-! ### The text -/

theorem scanBytes?_nil (before : List Char) : scanBytes? text (.between before []) = some [] := by
  rw [scanBytes?]
  exact if_pos rfl

/-- An item is passed as a whole. -/
theorem scanBytes?_of_heads (hheads : Item.Heads rest item behind) (h : before ++ rest = text) :
    scanBytes? text (.between before rest) =
      (scanBytes? text (.between (before ++ item.source) behind)).map
        ((item.attribute?.map (·, .over (Position.start.after before) item.source)).toList ++ ·) := by
  cases rest with
  | nil => cases hheads.read?_eq
  | cons c rest =>
    cases hc : isWordChar c with
    | true =>
      have hword : (c :: rest).head?.any isWordChar = true := hc
      have hlt := Cursor.length_left_between_lt (Item.source_append_of_read? hheads.read?_eq)
        (Item.length_lt_of_read? hheads.read?_eq) before (before ++ item.source)
      rw [scanBytes?, if_neg (Cursor.left_between_cons_ne_nil _ _ _),
        if_pos ((Cursor.apply_peek_between alikeBeyondASCII_isWordChar _ _ _).trans hc),
        attributeAt?_of_heads hheads hword h]
      simp only [Option.bind_eq_bind, Option.bind_some, hlt, if_true]
      exact Option.map_eq_bind.symm
    | false =>
      -- A character that begins no name is passed byte by byte.
      have hread := hheads.read?_eq
      rw [Item.read?, if_neg (by simp [hc])] at hread
      cases hread
      have hpassed : scanBytes? text (.between before (c :: behind)) =
          scanBytes? text (.between (before ++ [c]) behind) := by
        refine Cursor.eq_of_passes alikeBeyondASCII_isWordChar ?_ hc before behind
        intro cursor hleft hpeek
        rw [scanBytes?, if_neg hleft, if_neg (by simp [hpeek])]
      simp [hpassed, Item.attribute?, Item.source]

/-- Byte by byte the same attributes are found in the same places. -/
theorem scanBytes?_between (h : before ++ rest = text) :
    scanBytes? text (.between before rest) =
      some (located (Position.start.after before) (items rest)) := by
  fun_induction items rest generalizing before with
  | case1 rest hread =>
    cases rest with
    | nil => exact scanBytes?_nil before
    | cons c rest =>
      obtain ⟨item, behind, hheads⟩ := Item.exists_heads (List.cons_ne_nil c rest)
      rw [hheads.read?_eq] at hread
      cases hread
  | case2 rest item behind hread _ ih =>
    have hbehind : before ++ item.source ++ behind = text := by
      rw [List.append_assoc, Item.source_append_of_read? hread, h]
    rw [scanBytes?_of_heads (Item.read?_eq_some_iff.mp hread) h, ih hbehind, located,
      Position.after_append]
    cases item.attribute? <;> rfl

/-- Attribute text is read byte by byte, without a slice that is not defined, and as it is read by
characters. -/
theorem scanBytes?_eq (text : List Char) :
    scanBytes? text (.between [] text) = some (scan text) := scanBytes?_between rfl

end LayoutMarkup.Attribute

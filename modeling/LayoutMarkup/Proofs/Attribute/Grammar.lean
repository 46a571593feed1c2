import LayoutMarkup.Attribute.Reading
import LayoutMarkup.Proofs.Text.Run

/-!
# The grammar of attribute text

The forms that an item of attribute text may take are stated on their own, each with the text behind
it, and the reader is shown to take the one form that applies. A value of no accepted form is
skipped by rules of its own, which are stated in the same way.

## Main definitions

* `Attribute.IsName`, `Attribute.EndsName` — attribute names, and where the longest one ends
* `Attribute.IsQuotable`, `Attribute.IsNumeral`, `Attribute.Accepted` — the accepted values
* `Attribute.Skips` — how far a value of no accepted form is skipped
* `Attribute.Item.Heads` — the item at the front of a text

## Main results

* `Attribute.skips_iff` — a value is skipped as the rules say
* `Attribute.Item.read?_eq_some_iff` — an item is read as the grammar says
-/

namespace LayoutMarkup.Attribute

open Text

variable {text rest name gap tail more behind skipped value digits : List Char} {c close : Char}
  {item : Item}

/-! ### Names -/

/-- What may follow the first character of an attribute name: word characters, and hyphens in front
of a letter or a digit. -/
inductive IsNameTail : List Char → Prop
  | nil : IsNameTail []
  | word {c : Char} {tail : List Char} :
      isWordChar c = true → IsNameTail tail → IsNameTail (c :: tail)
  | hyphen {c : Char} {tail : List Char} :
      c.isAlphanum = true → IsNameTail tail → IsNameTail ('-' :: c :: tail)

/-- An attribute name. -/
def IsName (name : List Char) : Prop :=
  ∃ c tail, name = c :: tail ∧ isWordChar c = true ∧ IsNameTail tail

/-- No part of the text behind `name` makes a longer name of it. -/
def EndsName (name rest : List Char) : Prop :=
  ∀ more behind, rest = more ++ behind → more ≠ [] → ¬ IsName (name ++ more)

/-- Whether a text goes on with more of a name. -/
def goesOn : List Char → Bool
  | [] => false
  | c :: text => isWordChar c || (c = '-' && startsAlphanum text)

theorem isWordChar_of_isAlphanum (h : c.isAlphanum = true) : isWordChar c = true := by
  simp [isWordChar, h]

theorem isNameTail_cons_iff (h : isWordChar c = true) :
    IsNameTail (c :: tail) ↔ IsNameTail tail := by
  constructor
  · intro htail
    cases htail with
    | word _ htail => exact htail
    | hyphen _ _ => contradiction
  · exact .word h

theorem isNameTail_hyphen_iff (h : c.isAlphanum = true) :
    IsNameTail ('-' :: c :: tail) ↔ IsNameTail tail := by
  constructor
  · intro htail
    cases htail with
    | word hc _ => contradiction
    | hyphen _ htail => exact htail
  · exact .hyphen h

theorem IsName.isNameTail (h : IsName name) : IsNameTail name := by
  obtain ⟨c, tail, rfl, hc, htail⟩ := h
  exact .word hc htail

theorem IsNameTail.append_iff (h : IsNameTail tail) :
    IsNameTail (tail ++ more) ↔ IsNameTail more := by
  induction h with
  | nil => rfl
  | word hc _ ih => rw [List.cons_append, isNameTail_cons_iff hc, ih]
  | hyphen hc _ ih => rw [List.cons_append, List.cons_append, isNameTail_hyphen_iff hc, ih]

theorem IsName.append_iff (h : IsName name) : IsName (name ++ more) ↔ IsNameTail more := by
  constructor
  · intro hmore
    exact h.isNameTail.append_iff.mp hmore.isNameTail
  · intro hmore
    obtain ⟨c, tail, rfl, hc, htail⟩ := h
    exact ⟨c, tail ++ more, rfl, hc, htail.append_iff.mpr hmore⟩

/-- The longest name ends where the text does not go on with more of a name. -/
theorem IsName.endsName_iff (h : IsName name) : EndsName name rest ↔ goesOn rest = false := by
  constructor
  · intro hends
    cases rest with
    | nil => rfl
    | cons c rest =>
      have hword : isWordChar c = false := by
        rw [← Bool.not_eq_true]
        intro hc
        exact hends [c] rest rfl (List.cons_ne_nil _ _) (h.append_iff.mpr (.word hc .nil))
      rw [goesOn, hword, Bool.false_or, ← Bool.not_eq_true, Bool.and_eq_true, decide_eq_true_eq]
      rintro ⟨rfl, halnum⟩
      cases rest with
      | nil => cases halnum
      | cons d rest =>
        exact hends ['-', d] rest rfl (List.cons_ne_nil _ _) (h.append_iff.mpr (.hyphen halnum .nil))
  · rintro hgoes more behind rfl hmore hname
    have htail := h.append_iff.mp hname
    cases htail with
    | nil => exact hmore rfl
    | word hc _ => simp [goesOn, hc] at hgoes
    | hyphen hc _ => simp [goesOn, startsAlphanum, hc] at hgoes

/-- A name goes on through neither gaps nor `=`. -/
theorem goesOn_gap_append_eq (h : ∀ c ∈ gap, isGap c = true) (text : List Char) :
    goesOn (gap ++ '=' :: text) = false := by
  cases gap with
  | nil => rfl
  | cons c gap =>
    have hc := h c List.mem_cons_self
    simp only [isGap, Bool.or_eq_true, decide_eq_true_eq] at hc
    rcases hc with (((rfl | rfl) | rfl) | rfl) | rfl <;> rfl

/-- What is read of a name is what may stand in one, up to where the text goes on with no more. -/
theorem isNameTail_readName (text : List Char) :
    IsNameTail (readName text).1 ∧ goesOn (readName text).2 = false := by
  induction text with
  | nil => exact ⟨.nil, rfl⟩
  | cons c text ih =>
    rw [readName]
    split
    · rename_i hc
      refine ⟨?_, ih.2⟩
      rw [Bool.or_eq_true, Bool.and_eq_true, decide_eq_true_eq] at hc
      rcases hc with hc | ⟨rfl, halnum⟩
      · exact .word hc ih.1
      · cases text with
        | nil => cases halnum
        | cons d text =>
          -- The character behind the hyphen is read next, as a word character.
          have hd := isWordChar_of_isAlphanum halnum
          have htail := ih.1
          simp only [readName, hd, Bool.true_or, if_true] at htail ⊢
          exact .hyphen halnum ((isNameTail_cons_iff hd).mp htail)
    · rename_i hc
      exact ⟨.nil, by simpa [goesOn] using hc⟩

theorem IsNameTail.readName_append (h : IsNameTail tail) (hrest : goesOn rest = false) :
    readName (tail ++ rest) = (tail, rest) := by
  induction h with
  | nil =>
    cases rest with
    | nil => rfl
    | cons c rest =>
      rw [goesOn] at hrest
      rw [List.nil_append, readName, hrest]
      rfl
  | word hc _ ih => simp [readName, hc, ih]
  | hyphen hc _ ih => simp [readName, startsAlphanum, hc, isWordChar_of_isAlphanum hc, ih]

theorem isNameTail_iff : IsNameTail tail ↔ (readName tail).2 = [] := by
  constructor
  · intro h
    have hread : readName (tail ++ []) = (tail, []) := h.readName_append rfl
    rw [List.append_nil] at hread
    rw [hread]
  · intro h
    have happend := readName_append tail
    rw [h, List.append_nil] at happend
    have htail := (isNameTail_readName tail).1
    rwa [happend] at htail

/-- A name is read as a whole, and begins with a word character. -/
theorem isName_iff : IsName name ↔ name.head?.any isWordChar = true ∧ (readName name).2 = [] := by
  constructor
  · intro h
    refine ⟨?_, isNameTail_iff.mp h.isNameTail⟩
    obtain ⟨c, tail, rfl, hc, -⟩ := h
    exact hc
  · rintro ⟨hhead, hread⟩
    cases name with
    | nil => cases hhead
    | cons c tail =>
      have htail := (isNameTail_cons_iff hhead).mp (isNameTail_iff.mpr hread)
      exact ⟨c, tail, rfl, hhead, htail⟩

instance (name : List Char) : Decidable (IsName name) := decidable_of_iff' _ isName_iff

/-- A name ends in a word character. -/
theorem IsNameTail.isWordChar_of_mem_getLast? (h : IsNameTail tail) :
    ∀ c ∈ tail.getLast?, isWordChar c = true := by
  induction h with
  | nil => simp
  | @word d tail hd _ ih =>
    cases tail with
    | nil => simpa using hd
    | cons _ _ => rwa [List.getLast?_cons_cons]
  | @hyphen d tail hd _ ih =>
    rw [List.getLast?_cons_cons]
    cases tail with
    | nil => simpa using isWordChar_of_isAlphanum hd
    | cons _ _ => rwa [List.getLast?_cons_cons]

/-- The characters of a name are word characters and hyphens. -/
theorem IsNameTail.forall_mem (h : IsNameTail tail) :
    ∀ c ∈ tail, isWordChar c = true ∨ c = '-' := by
  induction h with
  | nil => simp
  | word hd _ ih =>
    intro c hc
    rcases List.mem_cons.mp hc with rfl | hc
    · exact Or.inl hd
    · exact ih c hc
  | hyphen hd _ ih =>
    intro c hc
    rcases List.mem_cons.mp hc with rfl | hc
    · exact Or.inr rfl
    rcases List.mem_cons.mp hc with rfl | hc
    · exact Or.inl (isWordChar_of_isAlphanum hd)
    · exact ih c hc

/-! ### Values -/

/-- What may stand between quotation marks. -/
def IsQuotable (value : List Char) : Prop := value ≠ [] ∧ '"' ∉ value

/-- What may stand between braces: the digits of a number that fits into 32 bits. -/
def IsNumeral (digits : List Char) : Prop :=
  digits ≠ [] ∧ (∀ c ∈ digits, c.isDigit = true) ∧ Decimal.value digits < UInt32.size

/-- A text that begins with a value of an accepted form. -/
inductive Accepted : List Char → Prop
  | quoted {value : List Char} (rest : List Char) :
      IsQuotable value → Accepted ('"' :: (value ++ '"' :: rest))
  | braced {digits : List Char} (rest : List Char) :
      IsNumeral digits → Accepted ('{' :: (digits ++ '}' :: rest))

theorem IsNumeral.isSome_read? (h : IsNumeral digits) : (Decimal.read? digits).isSome = true := by
  have hall : digits.all Char.isDigit = true := List.all_eq_true.mpr h.2.1
  simp [Decimal.read?, h.1, hall, h.2.2]

theorem isNumeral_of_isSome_read? (h : (Decimal.read? digits).isSome = true) :
    IsNumeral digits := by
  unfold Decimal.read? at h
  split at h
  · rename_i hdigits
    exact ⟨hdigits.1, List.all_eq_true.mp hdigits.2.1, hdigits.2.2⟩
  · cases h

theorem readQuoted?_eq_some_iff : readQuoted? name text = some (item, rest) ↔
    ∃ value, item = .quoted name value ∧ IsQuotable value ∧ value ++ '"' :: rest = text := by
  constructor
  · intro h
    unfold readQuoted? at h
    split at h
    · rename_i behind hdrop
      split at h
      · cases h
      · rename_i hvalue
        cases h
        refine ⟨_, rfl, ⟨hvalue, ?_⟩, ?_⟩
        · intro hmem
          simpa using List.mem_takeWhile_imp hmem
        · rw [← hdrop, List.takeWhile_append_dropWhile]
    · cases h
  · rintro ⟨value, rfl, ⟨hne, hmem⟩, rfl⟩
    have hrun : ∀ c ∈ value, decide (c ≠ '"') = true := by
      intro c hc
      simpa using ne_of_mem_of_not_mem hc hmem
    have hstop : StopsAt (fun c => decide (c ≠ '"')) ('"' :: rest) :=
      stopsAt_cons_iff.mpr (by decide)
    simp only [readQuoted?, takeWhile_append_of_stopsAt hrun hstop,
      dropWhile_append_of_stopsAt hrun hstop, hne, if_false]

theorem readBraced?_eq_some_iff : readBraced? name text = some (item, rest) ↔
    ∃ digits, item = .braced name digits ∧ IsNumeral digits ∧ digits ++ '}' :: rest = text := by
  constructor
  · intro h
    unfold readBraced? at h
    split at h
    · rename_i behind hdrop
      split at h
      · rename_i hread
        cases h
        refine ⟨_, rfl, isNumeral_of_isSome_read? hread, ?_⟩
        rw [← hdrop, List.takeWhile_append_dropWhile]
      · cases h
    · cases h
  · rintro ⟨digits, rfl, hdigits, rfl⟩
    have hstop : StopsAt Char.isDigit ('}' :: rest) := stopsAt_cons_iff.mpr (by decide)
    simp only [readBraced?, takeWhile_append_of_stopsAt hdigits.2.1 hstop,
      dropWhile_append_of_stopsAt hdigits.2.1 hstop, hdigits.isSome_read?, if_true]

/-- A text without an accepted value in front gives none. -/
theorem readValue?_eq_none (name : List Char) (h : ¬ Accepted text) :
    readValue? name text = none := by
  rw [← Option.not_isSome_iff_eq_none, Option.isSome_iff_exists]
  rintro ⟨⟨item, rest⟩, hread⟩
  unfold readValue? at hread
  split at hread
  · obtain ⟨value, -, hvalue, rfl⟩ := readQuoted?_eq_some_iff.mp hread
    exact h (.quoted rest hvalue)
  · obtain ⟨digits, -, hdigits, rfl⟩ := readBraced?_eq_some_iff.mp hread
    exact h (.braced rest hdigits)
  · cases hread

/-! ### Skipped values -/

/-- The characters that enclose a value, the opening one and the closing one. -/
inductive Encloses : Char → Char → Prop
  | quote : Encloses '"' '"'
  | apostrophe : Encloses '\'' '\''
  | brace : Encloses '{' '}'

/-- How a value of no accepted form is skipped: the text from behind `=` on, what is skipped of it,
and what is left. Gaps in front of the value are skipped with it. -/
inductive Skips : List Char → List Char → List Char → Prop
  /-- An enclosed value is skipped through the first closing character. -/
  | closed {gap body : List Char} {opening closing : Char} (rest : List Char) :
      (∀ c ∈ gap, isGap c = true) → Encloses opening closing → closing ∉ body →
      Skips (gap ++ opening :: (body ++ closing :: rest)) (gap ++ opening :: (body ++ [closing])) rest
  /-- Without a closing character, all is skipped. -/
  | unclosed {gap body : List Char} {opening closing : Char} :
      (∀ c ∈ gap, isGap c = true) → Encloses opening closing → closing ∉ body →
      Skips (gap ++ opening :: body) (gap ++ opening :: body) []
  /-- Any other value is skipped up to the next gap. -/
  | bare {gap word rest : List Char} : (∀ c ∈ gap, isGap c = true) →
      (∀ c ∈ word, isGap c = false) → (∀ c ∈ word.head?, ∀ closing, ¬ Encloses c closing) →
      (rest = [] ∨ word ≠ [] ∧ ∃ c behind, rest = c :: behind ∧ isGap c = true) →
      Skips (gap ++ (word ++ rest)) (gap ++ word) rest

theorem closerOf?_eq_some_iff : closerOf? c = some close ↔ Encloses c close := by
  constructor
  · intro h
    unfold closerOf? at h
    split at h
    · subst c
      cases h
      exact .quote
    · split at h
      · subst c
        cases h
        exact .apostrophe
      · split at h
        · subst c
          cases h
          exact .brace
        · cases h
  · intro h
    cases h <;> rfl

theorem Encloses.isGap_eq_false (h : Encloses c close) : isGap c = false := by
  cases h <;> decide

theorem cutBehind_append_cons (h : close ∉ text) (rest : List Char) :
    cutBehind close (text ++ close :: rest) = (text ++ [close], rest) := by
  induction text with
  | nil => simp [cutBehind]
  | cons c text ih =>
    rw [List.mem_cons, not_or] at h
    rw [List.cons_append, cutBehind, if_neg (Ne.symm h.1), ih h.2]
    rfl

theorem cutBehind_of_notMem (h : close ∉ text) : cutBehind close text = (text, []) := by
  induction text with
  | nil => rfl
  | cons c text ih =>
    rw [List.mem_cons, not_or] at h
    rw [cutBehind, if_neg (Ne.symm h.1), ih h.2]

/-- Behind gaps, only the value counts. -/
theorem skipValue_gap_append (hgap : ∀ c ∈ gap, isGap c = true) (htext : StopsAt isGap text) :
    skipValue (gap ++ text) = (gap ++ (cutValue text).1, (cutValue text).2) := by
  rw [skipValue, takeWhile_append_of_stopsAt hgap htext, dropWhile_append_of_stopsAt hgap htext]

theorem cutValue_of_encloses (h : Encloses c close) (text : List Char) :
    cutValue (c :: text) = (c :: (cutBehind close text).1, (cutBehind close text).2) := by
  rw [cutValue, closerOf?_eq_some_iff.mpr h]

theorem Skips.skipValue_eq (h : Skips text skipped rest) : skipValue text = (skipped, rest) := by
  cases h with
  | closed rest hgap hencl hbody =>
    rw [skipValue_gap_append hgap (stopsAt_cons_iff.mpr hencl.isGap_eq_false),
      cutValue_of_encloses hencl, cutBehind_append_cons hbody]
  | unclosed hgap hencl hbody =>
    rw [skipValue_gap_append hgap (stopsAt_cons_iff.mpr hencl.isGap_eq_false),
      cutValue_of_encloses hencl, cutBehind_of_notMem hbody]
  | @bare gap word rest hgap hword hhead hrest =>
    cases word with
    | nil =>
      obtain rfl : rest = [] := hrest.resolve_right fun h => h.1 rfl
      rw [List.append_nil, skipValue_gap_append hgap stopsAt_nil]
      rfl
    | cons c word =>
      have hcloser : closerOf? c = none := by
        rw [← Option.not_isSome_iff_eq_none, Option.isSome_iff_exists]
        rintro ⟨closing, hclosing⟩
        exact hhead c rfl closing (closerOf?_eq_some_iff.mp hclosing)
      have hc := hword c List.mem_cons_self
      have hrun : ∀ d ∈ c :: word, (!isGap d) = true := by
        intro d hd
        simpa using hword d hd
      have hstop : StopsAt (!isGap ·) rest := by
        rcases hrest with rfl | ⟨-, d, behind, rfl, hd⟩
        · exact stopsAt_nil
        · exact stopsAt_cons_iff.mpr (by simpa using hd)
      rw [List.cons_append, skipValue_gap_append hgap (stopsAt_cons_iff.mpr hc), cutValue, hcloser]
      simp only
      rw [← List.cons_append, takeWhile_append_of_stopsAt hrun hstop,
        dropWhile_append_of_stopsAt hrun hstop]

/-- There is always something to skip, if only the empty text. -/
theorem exists_skips (text : List Char) : ∃ skipped rest, Skips text skipped rest := by
  have hgap : ∀ c ∈ text.takeWhile isGap, isGap c = true := fun c hc => List.mem_takeWhile_imp hc
  rw [← List.takeWhile_append_dropWhile (p := isGap) (l := text)]
  have hstop := stopsAt_dropWhile isGap text
  generalize text.takeWhile isGap = gap at hgap ⊢
  generalize text.dropWhile isGap = value at hstop ⊢
  -- The first character behind the gaps decides which rule applies.
  cases value with
  | nil =>
    have hbare : Skips (gap ++ ([] ++ [])) (gap ++ []) [] :=
      .bare hgap (by simp) (by simp) (Or.inl rfl)
    exact ⟨_, _, hbare⟩
  | cons c value =>
    by_cases hencl : ∃ closing, Encloses c closing
    · obtain ⟨closing, hencl⟩ := hencl
      by_cases hmem : closing ∈ value
      · obtain ⟨body, rest, rfl, hbody⟩ := List.eq_append_cons_of_mem hmem
        exact ⟨_, _, .closed rest hgap hencl hbody⟩
      · exact ⟨_, _, .unclosed hgap hencl hmem⟩
    · have hc := stopsAt_cons_iff.mp hstop
      have hword : ∀ d ∈ (c :: value).takeWhile (!isGap ·), isGap d = false := by
        intro d hd
        simpa using List.mem_takeWhile_imp hd
      have hhead : (c :: value).takeWhile (!isGap ·) = c :: value.takeWhile (!isGap ·) :=
        List.takeWhile_cons_of_pos (by simp [hc])
      refine ⟨gap ++ (c :: value).takeWhile (!isGap ·), (c :: value).dropWhile (!isGap ·), ?_⟩
      conv => arg 1; rw [← List.takeWhile_append_dropWhile (p := (!isGap ·)) (l := c :: value)]
      refine .bare hgap hword ?_ ?_
      · rw [hhead]
        intro d hd closing hclosing
        obtain rfl : c = d := by simpa using hd
        exact hencl ⟨closing, hclosing⟩
      · rw [hhead]
        cases hrest : (c :: value).dropWhile (!isGap ·) with
        | nil => exact Or.inl rfl
        | cons d behind =>
          have hd := stopsAt_dropWhile (!isGap ·) (c :: value)
          rw [hrest, stopsAt_cons_iff] at hd
          exact Or.inr ⟨List.cons_ne_nil _ _, d, behind, rfl, by simpa using hd⟩

/-- A value of no accepted form is skipped as the rules say. -/
theorem skips_iff : Skips text skipped rest ↔ skipValue text = (skipped, rest) := by
  constructor
  · exact Skips.skipValue_eq
  · intro h
    obtain ⟨skipped', rest', hskips⟩ := exists_skips text
    rw [hskips.skipValue_eq] at h
    cases h
    exact hskips

/-! ### Items -/

namespace Item

/-- The item at the front of a text, with the text behind it. -/
inductive Heads : List Char → Item → List Char → Prop
  /-- A character that begins no name is passed over. -/
  | filler {c : Char} (rest : List Char) : isWordChar c = false → Heads (c :: rest) (.filler c) rest
  /-- A name that no `=` follows, not even behind gaps, is a flag. -/
  | flag {name rest : List Char} : IsName name → EndsName name rest →
      (∀ gap behind, (∀ c ∈ gap, isGap c = true) → rest ≠ gap ++ '=' :: behind) →
      Heads (name ++ rest) (.flag name) rest
  /-- A quoted value right behind `=`. -/
  | quoted {name value : List Char} (rest : List Char) : IsName name → IsQuotable value →
      Heads (name ++ '=' :: '"' :: (value ++ '"' :: rest)) (.quoted name value) rest
  /-- A braced number right behind `=`. -/
  | braced {name digits : List Char} (rest : List Char) : IsName name → IsNumeral digits →
      Heads (name ++ '=' :: '{' :: (digits ++ '}' :: rest)) (.braced name digits) rest
  /-- Anything else behind a name and `=` is skipped. -/
  | malformed {name gap behind skipped rest : List Char} : IsName name →
      (∀ c ∈ gap, isGap c = true) → (gap = [] → ¬ Accepted behind) → Skips behind skipped rest →
      Heads (name ++ (gap ++ '=' :: behind)) (.malformed name (gap ++ '=' :: skipped)) rest

/-- What is read of a text that begins with a name is what the name begins. -/
theorem read?_name_append (hname : IsName name) (hrest : goesOn rest = false) :
    read? (name ++ rest) = some (readAfterName name rest) := by
  have hread := hname.isNameTail.readName_append hrest
  obtain ⟨c, tail, rfl, hc, -⟩ := hname
  rw [List.cons_append, read?, if_pos hc, ← List.cons_append, hread]

/-- An accepted value right behind `=` gives its item. -/
theorem readAfterName_of_readValue? {read : Item × List Char}
    (h : readValue? name behind = some read) : readAfterName name ('=' :: behind) = read := by
  have hgap : isGap '=' = false := by decide
  rw [readAfterName, List.dropWhile_cons_of_neg (by simp [hgap]),
    List.takeWhile_cons_of_neg (by simp [hgap])]
  simp only [if_true, h]

/-- Without an accepted value right behind `=`, the value is skipped. -/
theorem readAfterName_of_readValue?_eq_none (hgap : ∀ c ∈ gap, isGap c = true)
    (h : gap = [] → readValue? name behind = none) : readAfterName name (gap ++ '=' :: behind) =
      (.malformed name (gap ++ '=' :: (skipValue behind).1), (skipValue behind).2) := by
  have hstop : StopsAt isGap ('=' :: behind) := stopsAt_cons_iff.mpr (by decide)
  have hvalue : (if gap = [] then readValue? name behind else none) = none := by
    split
    · exact h ‹_›
    · rfl
  rw [readAfterName, takeWhile_append_of_stopsAt hgap hstop,
    dropWhile_append_of_stopsAt hgap hstop]
  simp only [hvalue]

theorem Heads.read?_eq (h : Heads text item rest) : read? text = some (item, rest) := by
  cases h with
  | filler rest hc => simp [read?, hc]
  | flag hname hends heq =>
    -- An `=` behind gaps would make the text one that the rule for flags excludes.
    rw [read?_name_append hname (hname.endsName_iff.mp hends), readAfterName]
    split
    · rename_i behind hdrop
      refine absurd ?_ (heq (rest.takeWhile isGap) behind fun c hc => List.mem_takeWhile_imp hc)
      rw [← hdrop, List.takeWhile_append_dropWhile]
    · rfl
  | @quoted name value rest hname hvalue =>
    have hread : readValue? name ('"' :: (value ++ '"' :: rest)) = some (.quoted name value, rest) :=
      readQuoted?_eq_some_iff.mpr ⟨value, rfl, hvalue, rfl⟩
    rw [read?_name_append hname rfl, readAfterName_of_readValue? hread]
  | @braced name digits rest hname hdigits =>
    have hread : readValue? name ('{' :: (digits ++ '}' :: rest)) =
        some (.braced name digits, rest) :=
      readBraced?_eq_some_iff.mpr ⟨digits, rfl, hdigits, rfl⟩
    rw [read?_name_append hname rfl, readAfterName_of_readValue? hread]
  | @malformed name gap behind skipped rest hname hgap haccepted hskips =>
    rw [read?_name_append hname (goesOn_gap_append_eq hgap behind),
      readAfterName_of_readValue?_eq_none hgap fun hnil => readValue?_eq_none name (haccepted hnil),
      hskips.skipValue_eq]

/-- Some item is at the front of any text. -/
theorem exists_heads (h : text ≠ []) : ∃ item rest, Heads text item rest := by
  obtain ⟨c, text, rfl⟩ := List.exists_cons_of_ne_nil h
  by_cases hc : isWordChar c = true
  · -- The longest name is what the reader takes; what follows it decides the rest.
    obtain ⟨name, rest, hname, hends, htext⟩ :
        ∃ name rest, IsName name ∧ EndsName name rest ∧ name ++ rest = c :: text := by
      obtain ⟨htail, hgoes⟩ := isNameTail_readName text
      have hname : IsName (c :: (readName text).1) := ⟨c, _, rfl, hc, htail⟩
      exact ⟨_, _, hname, hname.endsName_iff.mpr hgoes, congrArg (c :: ·) (readName_append text)⟩
    rw [← htext]
    by_cases heq : ∃ gap behind, (∀ c ∈ gap, isGap c = true) ∧ rest = gap ++ '=' :: behind
    · obtain ⟨gap, behind, hgap, rfl⟩ := heq
      by_cases haccepted : gap = [] ∧ Accepted behind
      · obtain ⟨rfl, haccepted⟩ := haccepted
        cases haccepted with
        | quoted rest hvalue => exact ⟨_, _, .quoted rest hname hvalue⟩
        | braced rest hdigits => exact ⟨_, _, .braced rest hname hdigits⟩
      · obtain ⟨skipped, rest, hskips⟩ := exists_skips behind
        exact ⟨_, _, .malformed hname hgap (fun hnil hacc => haccepted ⟨hnil, hacc⟩) hskips⟩
    · exact ⟨_, _, .flag hname hends fun gap behind hgap hrest => heq ⟨gap, behind, hgap, hrest⟩⟩
  · exact ⟨_, _, .filler text (by simpa using hc)⟩

/-- An item is read as the grammar says. -/
theorem read?_eq_some_iff : read? text = some (item, rest) ↔ Heads text item rest := by
  constructor
  · intro h
    -- Some form applies to the text, and the reader takes it, so it is the form that was read.
    have hne : text ≠ [] := by
      rintro rfl
      cases h
    obtain ⟨item', rest', hheads⟩ := exists_heads hne
    rw [hheads.read?_eq] at h
    cases h
    exact hheads
  · exact Heads.read?_eq

end Item

end LayoutMarkup.Attribute

/-!
# Blank characters and words

The classes of characters that the readers of tags, attributes and class lists go by, and the two
operations that depend on blanks alone: trimming a text and cutting it into words.

Two notions of blank are kept apart. A *gap* is one of the five ASCII characters that may separate
the parts of a tag; a *blank* is any character with Unicode's `White_Space` property. Tags and
attributes are read with gaps, class lists and element contents with blanks.

## Main definitions

* `isGap`, `isBlank`, `isWordChar`, `isNameStart` — the character classes
* `dropEndWhile`, `trimEnd`, `trim` — removing characters at the ends of a text
* `words` — the maximal runs of characters that are not blank

## Main results

* `isBlank_of_isGap` — a gap is a blank
* `isBlank_eq_false_of_isWordChar` — a word character is no blank
* `words_append_blank` — a blank cuts a text into two independent parts
-/

namespace LayoutMarkup.Text

/-- A character that separates the parts of a tag: space, tab, line feed, form feed or carriage
return. The vertical tab is not one. -/
def isGap (c : Char) : Bool :=
  c = ' ' || c = '\t' || c = '\n' || c = '\x0c' || c = '\r'

/-- A character with Unicode's `White_Space` property. -/
def isBlank (c : Char) : Bool :=
  (0x9 ≤ c.toNat && c.toNat ≤ 0xd) || c.toNat = 0x20 || c.toNat = 0x85 || c.toNat = 0xa0
    || c.toNat = 0x1680 || (0x2000 ≤ c.toNat && c.toNat ≤ 0x200a) || c.toNat = 0x2028
    || c.toNat = 0x2029 || c.toNat = 0x202f || c.toNat = 0x205f || c.toNat = 0x3000

/-- A character of a tag name or an attribute name: an ASCII letter, a digit or an underscore. -/
def isWordChar (c : Char) : Bool := c.isAlphanum || c = '_'

/-- A character that a tag name may begin with: an ASCII letter or an underscore. -/
def isNameStart (c : Char) : Bool := c.isAlpha || c = '_'

theorem isBlank_of_isGap {c : Char} (h : isGap c = true) : isBlank c = true := by
  simp only [isGap, Bool.or_eq_true, decide_eq_true_eq] at h
  rcases h with (((rfl | rfl) | rfl) | rfl) | rfl <;> decide

theorem isWordChar_of_isDigit {c : Char} (h : c.isDigit = true) : isWordChar c = true := by
  simp [isWordChar, Char.isAlphanum, h]

theorem isWordChar_eq_false_of_isGap {c : Char} (h : isGap c = true) : isWordChar c = false := by
  simp only [isGap, Bool.or_eq_true, decide_eq_true_eq] at h
  rcases h with (((rfl | rfl) | rfl) | rfl) | rfl <;> decide

/-- Word characters are ASCII, and none of them is a blank. -/
theorem isBlank_eq_false_of_isWordChar {c : Char} (h : isWordChar c = true) :
    isBlank c = false := by
  have hrange : (48 ≤ c.toNat ∧ c.toNat ≤ 57) ∨ (65 ≤ c.toNat ∧ c.toNat ≤ 90) ∨
      (97 ≤ c.toNat ∧ c.toNat ≤ 122) ∨ c.toNat = 95 := by
    delta isWordChar Char.isAlphanum Char.isAlpha Char.isUpper Char.isLower Char.isDigit at h
    simp only [Bool.or_eq_true, Bool.and_eq_true, decide_eq_true_eq, UInt32.le_iff_toNat_le] at h
    rcases h with ((h | h) | h) | rfl
    · exact Or.inr (Or.inl h)
    · exact Or.inr (Or.inr (Or.inl h))
    · exact Or.inl h
    · decide
  simp only [isBlank, Bool.or_eq_false_iff, Bool.and_eq_false_iff, decide_eq_false_iff_not]
  omega

theorem isWordChar_of_isNameStart {c : Char} (h : isNameStart c = true) : isWordChar c = true := by
  simp only [isNameStart, isWordChar, Char.isAlphanum, Bool.or_eq_true] at h ⊢
  rcases h with h | h
  · exact Or.inl (Or.inl h)
  · exact Or.inr h

/-! ### Trimming -/

/-- The text without its longest tail of characters that satisfy `p`. -/
def dropEndWhile (p : Char → Bool) (text : List Char) : List Char :=
  (text.reverse.dropWhile p).reverse

/-- The text without the blanks at its end. -/
def trimEnd (text : List Char) : List Char := dropEndWhile isBlank text

/-- The text without the blanks at its two ends. -/
def trim (text : List Char) : List Char := trimEnd (text.dropWhile isBlank)

/-! ### Words -/

/-- The words of a text: its maximal runs of characters that are not blank, in order. -/
def words (text : List Char) : List (List Char) :=
  (text.splitOnP isBlank).filter (!·.isEmpty)

@[simp] theorem words_nil : words [] = [] := rfl

/-- The words around a blank are those before it and those after it. -/
theorem words_append_blank (before after : List Char) {c : Char} (h : isBlank c = true) :
    words (before ++ c :: after) = words before ++ words after := by
  simp [words, List.splitOnP_append_cons _ _ h]

/-- A text without blanks is one word, unless it is empty. -/
theorem words_of_forall_not_blank {text : List Char} (hne : text ≠ [])
    (h : ∀ c ∈ text, isBlank c = false) : words text = [text] := by
  simp [words, List.splitOnP_eq_singleton h, hne]

end LayoutMarkup.Text

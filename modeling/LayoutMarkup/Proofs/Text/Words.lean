import LayoutMarkup.Text.Blank

/-!
# Words and class lists

A word of a text is not empty and has no blanks, and its characters are those of the text. A list of
texts with single spaces between them has the characters of the texts, and spaces.

## Main results

* `mem_words` — what a word is made of
* `mem_toList_intercalate` — what a list with spaces is made of
* `words_toList_intercalate` — the words of a list of words with spaces
-/

namespace LayoutMarkup.Text

theorem mem_splitOnP {p : Char → Bool} {text piece : List Char} (h : piece ∈ text.splitOnP p) :
    ∀ c ∈ piece, c ∈ text ∧ p c = false := by
  induction text generalizing piece with
  | nil =>
    rw [List.splitOnP_nil, List.mem_singleton] at h
    simp [h]
  | cons d text ih =>
    rw [List.splitOnP_cons_eq_if_modifyHead] at h
    split at h
    · rcases List.mem_cons.mp h with rfl | h
      · simp
      · intro c hc
        exact ⟨List.mem_cons_of_mem _ (ih h c hc).1, (ih h c hc).2⟩
    · -- The character joins the first piece; the other pieces are those of the rest.
      rename_i hd
      obtain ⟨first, pieces, hpieces⟩ :=
        List.exists_cons_of_ne_nil (List.splitOnP_ne_nil p text)
      rw [hpieces, List.modifyHead_cons, List.mem_cons] at h
      rw [hpieces] at ih
      intro c hc
      rcases h with rfl | h
      · rcases List.mem_cons.mp hc with rfl | hc
        · exact ⟨List.mem_cons_self, by simpa using hd⟩
        · have hfirst := ih List.mem_cons_self c hc
          exact ⟨List.mem_cons_of_mem _ hfirst.1, hfirst.2⟩
      · have hpiece := ih (List.mem_cons_of_mem _ h) c hc
        exact ⟨List.mem_cons_of_mem _ hpiece.1, hpiece.2⟩

/-- A word is not empty, and its characters are characters of the text and no blanks. -/
theorem mem_words {text word : List Char} (h : word ∈ words text) :
    word ≠ [] ∧ ∀ c ∈ word, c ∈ text ∧ isBlank c = false := by
  rw [words, List.mem_filter] at h
  exact ⟨by simpa using h.2, mem_splitOnP h.1⟩

/-- The characters of a list with single spaces are spaces and those of its members. -/
theorem mem_toList_intercalate {tokens : List String} {c : Char}
    (h : c ∈ (" ".intercalate tokens).toList) : c = ' ' ∨ ∃ token ∈ tokens, c ∈ token.toList := by
  induction tokens with
  | nil => simp at h
  | cons token tokens ih =>
    by_cases hne : tokens = []
    · subst hne
      exact Or.inr ⟨token, List.mem_cons_self, by simpa using h⟩
    · rw [String.intercalate_cons_of_ne_nil hne, String.toList_append, String.toList_append,
        List.mem_append, List.mem_append] at h
      rcases h with (h | h) | h
      · exact Or.inr ⟨token, List.mem_cons_self, h⟩
      · exact Or.inl (by simpa using h)
      · rcases ih h with h | ⟨other, hother, h⟩
        · exact Or.inl h
        · exact Or.inr ⟨other, List.mem_cons_of_mem _ hother, h⟩

/-- Words with single spaces between them are cut into the words again. -/
theorem words_toList_intercalate {tokens : List String}
    (h : ∀ token ∈ tokens, token.toList ≠ [] ∧ ∀ c ∈ token.toList, isBlank c = false) :
    words (" ".intercalate tokens).toList = tokens.map String.toList := by
  induction tokens with
  | nil => rfl
  | cons token tokens ih =>
    obtain ⟨hne, hblank⟩ := h token List.mem_cons_self
    have hword := words_of_forall_not_blank hne hblank
    by_cases hnil : tokens = []
    · subst hnil
      simpa using hword
    · have hspace : (" " : String).toList = [' '] := rfl
      rw [String.intercalate_cons_of_ne_nil hnil, String.toList_append, String.toList_append,
        hspace, List.append_assoc, List.singleton_append, words_append_blank _ _ (by decide), hword,
        ih fun other hother => h other (List.mem_cons_of_mem _ hother)]
      rfl

end LayoutMarkup.Text

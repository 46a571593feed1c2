import LayoutMarkup.Text.Blank
import Mathlib.Data.List.TakeWhile

/-!
# Runs at the front of a text

The readers cut a text behind its longest front of characters of one class. What is cut off is known
without the cutting: a run of such characters, with a text behind it that does not go on with one.

## Main definitions

* `StopsAt` — a text that does not begin with a character of a class

## Main results

* `takeWhile_append_of_stopsAt`, `dropWhile_append_of_stopsAt` — where a run ends
* `trimEnd_append_of_forall_isBlank`, `exists_trimEnd_append` — what trimming leaves
* `trim_eq_nil_iff` — what is trimmed to nothing
-/

namespace LayoutMarkup.Text

variable {p : Char → Bool} {c : Char} {run rest text : List Char}

/-- The text is empty or begins with a character that does not satisfy `p`. -/
def StopsAt (p : Char → Bool) (text : List Char) : Prop :=
  ∀ c behind, text = c :: behind → p c = false

theorem stopsAt_nil : StopsAt p [] := by
  intro c behind h
  cases h

theorem stopsAt_cons_iff : StopsAt p (c :: text) ↔ p c = false := by
  constructor
  · intro h
    exact h c text rfl
  · intro h d behind heq
    cases heq
    exact h

theorem stopsAt_dropWhile (p : Char → Bool) (text : List Char) : StopsAt p (text.dropWhile p) := by
  intro c behind h
  have hhead := List.head?_dropWhile_not p text
  rw [h] at hhead
  exact hhead

theorem takeWhile_eq_nil_of_stopsAt (h : StopsAt p text) : text.takeWhile p = [] := by
  cases text with
  | nil => rfl
  | cons c text =>
    rw [List.takeWhile_cons_of_neg]
    rw [stopsAt_cons_iff.mp h]
    exact Bool.false_ne_true

theorem dropWhile_eq_self_of_stopsAt (h : StopsAt p text) : text.dropWhile p = text := by
  cases text with
  | nil => rfl
  | cons c text =>
    rw [List.dropWhile_cons_of_neg]
    rw [stopsAt_cons_iff.mp h]
    exact Bool.false_ne_true

/-- A run that is not over at the end of a text is over there if the text behind stops it. -/
theorem takeWhile_append_eq_of_stopsAt (text : List Char) (hrest : StopsAt p rest) :
    (text ++ rest).takeWhile p = text.takeWhile p := by
  induction text with
  | nil => exact takeWhile_eq_nil_of_stopsAt hrest
  | cons c text ih => rw [List.cons_append, List.takeWhile_cons, List.takeWhile_cons, ih]

theorem takeWhile_append_of_stopsAt (hrun : ∀ c ∈ run, p c = true) (hrest : StopsAt p rest) :
    (run ++ rest).takeWhile p = run := by
  rw [List.takeWhile_append_of_pos hrun, takeWhile_eq_nil_of_stopsAt hrest, List.append_nil]

theorem dropWhile_append_of_stopsAt (hrun : ∀ c ∈ run, p c = true) (hrest : StopsAt p rest) :
    (run ++ rest).dropWhile p = rest := by
  rw [List.dropWhile_append_of_pos hrun, dropWhile_eq_self_of_stopsAt hrest]

/-- A character that ends the run is left at the front of what is behind it. -/
theorem exists_dropWhile_eq_cons (h : ∃ c ∈ text, p c = false) :
    ∃ c more, text.dropWhile p = c :: more ∧ c ∈ text := by
  obtain ⟨c, hc, hpc⟩ := h
  have hne : text.dropWhile p ≠ [] := by
    rw [ne_eq, List.dropWhile_eq_nil_iff]
    intro hall
    rw [hall c hc] at hpc
    contradiction
  obtain ⟨d, more, hmore⟩ := List.exists_cons_of_ne_nil hne
  have hd : d ∈ text.dropWhile p := hmore ▸ List.mem_cons_self
  exact ⟨d, more, hmore, (List.dropWhile_sublist p).subset hd⟩

/-- A run that is over within a text is over there whatever stands behind the text. -/
theorem dropWhile_append_of_exists (h : ∃ c ∈ text, p c = false) (rest : List Char) :
    (text ++ rest).dropWhile p = text.dropWhile p ++ rest := by
  obtain ⟨c, more, hmore, -⟩ := exists_dropWhile_eq_cons h
  rw [List.dropWhile_append, hmore]
  rfl

/-! ### Trimming -/

/-- Blanks at the end are trimmed away. -/
theorem trimEnd_append_of_forall_isBlank (text : List Char) {blanks : List Char}
    (h : ∀ c ∈ blanks, isBlank c = true) : trimEnd (text ++ blanks) = trimEnd text := by
  rw [trimEnd, dropEndWhile, List.reverse_append, List.dropWhile_append_of_pos]
  · rfl
  · intro c hc
    exact h c (List.mem_reverse.mp hc)

/-- A text that ends in no blank is not trimmed. -/
theorem trimEnd_concat (text : List Char) (h : isBlank c = false) :
    trimEnd (text ++ [c]) = text ++ [c] := by
  simp [trimEnd, dropEndWhile, h]

/-- Nothing but blanks is trimmed away. -/
theorem exists_trimEnd_append (text : List Char) :
    ∃ blanks, trimEnd text ++ blanks = text ∧ ∀ c ∈ blanks, isBlank c = true := by
  refine ⟨(text.reverse.takeWhile isBlank).reverse, ?_, ?_⟩
  · rw [trimEnd, dropEndWhile, ← List.reverse_append, List.takeWhile_append_dropWhile,
      List.reverse_reverse]
  · intro c hc
    exact List.mem_takeWhile_imp (List.mem_reverse.mp hc)

/-- A text is trimmed to nothing if it is blank. -/
theorem trim_eq_nil_iff : trim text = [] ↔ ∀ c ∈ text, isBlank c = true := by
  constructor
  · intro h
    -- What is left when the text is trimmed in front is blank too, so nothing is left.
    obtain ⟨blanks, happend, hblanks⟩ := exists_trimEnd_append (text.dropWhile isBlank)
    rw [← trim, h, List.nil_append] at happend
    refine List.dropWhile_eq_nil_iff.mp ?_
    cases hrest : text.dropWhile isBlank with
    | nil => rfl
    | cons c rest =>
      have hstop := stopsAt_dropWhile isBlank text
      rw [hrest, stopsAt_cons_iff] at hstop
      rw [hrest] at happend
      rw [hblanks c (happend ▸ List.mem_cons_self)] at hstop
      contradiction
  · intro h
    rw [trim, List.dropWhile_eq_nil_iff.mpr h]
    rfl

end LayoutMarkup.Text

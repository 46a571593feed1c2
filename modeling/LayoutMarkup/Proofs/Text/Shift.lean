import LayoutMarkup.Text.Position
import Mathlib.Data.List.Induction
import Mathlib.Tactic.Common

/-!
# Positions behind a text

A text that is put in front of another moves all that stands in the other: forward by its bytes and
down by its line feeds. To the right it moves only what stands on the first line, by the characters
that the front text has behind its last line feed.

## Main definitions

* `Position.shift`, `Span.shift` — where a place of a text is when another text is put in front

## Main results

* `Position.shift_start` — the beginning of the text is where the front text ends
* `Position.shift_after` — moving over text is the same before and after the shift
-/

namespace LayoutMarkup.Text

namespace Position

variable (before text : List Char) {p : Position} (c : Char)

/-- Where a position of a text is when `before` is put in front of the text. -/
def shift (p : Position) : Position where
  offset := p.offset + byteLength before
  line := p.line + before.count '\n'
  column := if p.line = 1 then p.column + (before.reverse.takeWhile (· ≠ '\n')).length else p.column

theorem shift_start : start.shift before = start.after before := by
  -- The last character of the front text decides whether its end is behind a line feed.
  induction before using List.reverseRecOn with
  | nil => rfl
  | append_singleton before c ih =>
    rw [after_append, ← ih, after_cons, after_nil, next]
    by_cases hc : c = '\n'
    · subst hc
      simp only [shift, start, byteLength_append, byteLength_cons, byteLength_nil,
        List.count_append, List.count_singleton_self, List.reverse_append, List.reverse_singleton,
        List.singleton_append]
      rw [List.takeWhile_cons_of_neg (by simp)]
      simp [Nat.add_assoc]
      rfl
    · simp [shift, start, byteLength_append, hc, Nat.add_assoc]

/-- No position is in front of the first line. -/
theorem one_le_line_next (h : 1 ≤ p.line) : 1 ≤ (p.next c).line := by
  unfold next
  split
  · exact Nat.le_add_left 1 p.line
  · exact h

theorem shift_next (h : 1 ≤ p.line) : (p.next c).shift before = (p.shift before).next c := by
  by_cases hc : c = '\n'
  · -- Behind a line feed columns are counted anew, and no line there is the first.
    have hline : p.line + 1 ≠ 1 := by omega
    simp only [shift, next, hc, if_true, hline, if_false, mk.injEq, and_true]
    omega
  · simp only [shift, next, hc, if_false, mk.injEq, true_and]
    split <;> omega

theorem one_le_line_after (text : List Char) (h : 1 ≤ p.line) : 1 ≤ (p.after text).line := by
  induction text generalizing p with
  | nil => exact h
  | cons c text ih => exact ih (one_le_line_next c h)

theorem shift_after (h : 1 ≤ p.line) :
    (p.after text).shift before = (p.shift before).after text := by
  induction text generalizing p with
  | nil => rfl
  | cons c text ih => rw [after_cons, after_cons, ih (one_le_line_next c h), shift_next before c h]

end Position

/-- Where a stretch of a text is when `before` is put in front of the text. -/
def Span.shift (before : List Char) (span : Span) : Span :=
  ⟨span.start.shift before, span.stop.shift before⟩

theorem Span.shift_over (before text : List Char) {p : Position} (h : 1 ≤ p.line) :
    (Span.over p text).shift before = .over (p.shift before) text := by
  rw [shift, Span.over, Span.over, Position.shift_after before text h]

end LayoutMarkup.Text

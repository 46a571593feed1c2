import LayoutMarkup.Proofs.Text.Shift
import LayoutMarkup.Proofs.Text.Slice

/-!
# Pieces of a text in their places

A text that is cut into pieces gives a place to each of them: the first begins where the text does,
and every other where the piece in front of it ends. Both scanners cut up their text in this way and
keep some of the pieces. What they keep therefore comes in order, does not overlap, and is found in
the text where its span says.

## Main definitions

* `placed` — pieces of a text with the spans that they cover

## Main results

* `mem_placed_iff` — the place of a piece, in terms of the pieces in front of it
* `slice?_of_mem_placed` — a piece is the slice of its span
* `pairwise_placed` — pieces come in order and do not overlap
* `placed_append`, `placed_shift` — the places of pieces behind others, and behind another text
-/

namespace LayoutMarkup.Text

open Position (byteLength byteLength_append)

variable {α : Type} {source : α → List Char} {p : Position} {pieces : List α} {piece : α}
  {span : Span}

/-- Pieces of a text that stands at `p`, with the spans that they cover. -/
def placed (source : α → List Char) (p : Position) : List α → List (α × Span)
  | [] => []
  | piece :: rest => (piece, .over p (source piece)) :: placed source (p.after (source piece)) rest

/-- A piece covers the stretch behind all pieces in front of it. -/
theorem mem_placed_iff : (piece, span) ∈ placed source p pieces ↔
    ∃ before behind, pieces = before ++ piece :: behind ∧
      span = .over (p.after (before.flatMap source)) (source piece) := by
  induction pieces generalizing p with
  | nil => simp [placed]
  | cons head rest ih =>
    rw [placed, List.mem_cons, ih]
    constructor
    · rintro (h | ⟨before, behind, rfl, rfl⟩)
      · cases h
        exact ⟨[], rest, rfl, rfl⟩
      · refine ⟨head :: before, behind, rfl, ?_⟩
        rw [List.flatMap_cons, Position.after_append]
    · rintro ⟨before, behind, hsplit, rfl⟩
      cases before with
      | nil =>
        cases hsplit
        exact Or.inl rfl
      | cons first before =>
        cases hsplit
        refine Or.inr ⟨before, behind, rfl, ?_⟩
        rw [List.flatMap_cons, Position.after_append]

/-- A piece stands in the text between the offsets of its span. -/
theorem slice?_of_mem_placed (h : (piece, span) ∈ placed source .start pieces) :
    slice? (pieces.flatMap source) span.start.offset span.stop.offset = some (source piece) := by
  obtain ⟨before, behind, rfl, rfl⟩ := mem_placed_iff.mp h
  rw [slice?_eq_some_iff]
  refine ⟨before.flatMap source, behind.flatMap source, by simp, ?_, ?_⟩
  · simp [Span.over, Position.after_offset, Position.start]
  · simp [Span.over, Position.after_offset, Position.start, byteLength_append]

theorem offset_le_of_mem_placed (h : (piece, span) ∈ placed source p pieces) :
    p.offset ≤ span.start.offset := by
  obtain ⟨before, behind, -, rfl⟩ := mem_placed_iff.mp h
  change p.offset ≤ (p.after (before.flatMap source)).offset
  rw [Position.after_offset]
  exact Nat.le_add_right _ _

theorem stop_offset_le_of_mem_placed (h : (piece, span) ∈ placed source p pieces) :
    span.stop.offset ≤ p.offset + byteLength (pieces.flatMap source) := by
  obtain ⟨before, behind, rfl, rfl⟩ := mem_placed_iff.mp h
  simp only [Span.over, Position.after_offset, List.flatMap_append, List.flatMap_cons,
    byteLength_append]
  omega

/-- A piece that is not empty covers at least a byte. -/
theorem start_lt_stop_of_mem_placed (h : (piece, span) ∈ placed source p pieces)
    (hne : source piece ≠ []) : span.start.offset < span.stop.offset := by
  obtain ⟨before, behind, -, rfl⟩ := mem_placed_iff.mp h
  obtain ⟨c, text, hsource⟩ := List.exists_cons_of_ne_nil hne
  have hpos := c.utf8Size_pos
  simp only [Span.over, hsource, Position.after_offset, Position.byteLength_cons]
  omega

/-- Pieces come in order and do not overlap. -/
theorem pairwise_placed (source : α → List Char) (p : Position) (pieces : List α) :
    (placed source p pieces).Pairwise fun part part' =>
      part.2.stop.offset ≤ part'.2.start.offset := by
  induction pieces generalizing p with
  | nil => exact List.Pairwise.nil
  | cons piece rest ih => exact List.Pairwise.cons (fun part h => offset_le_of_mem_placed h) (ih _)

theorem placed_append (source : α → List Char) (p : Position) (pieces more : List α) :
    placed source p (pieces ++ more) =
      placed source p pieces ++ placed source (p.after (pieces.flatMap source)) more := by
  induction pieces generalizing p with
  | nil => rfl
  | cons piece rest ih =>
    rw [List.cons_append, placed, placed, ih, List.cons_append, List.flatMap_cons,
      Position.after_append]

/-- With a text put in front of them, the same pieces stand in places that the text moves. -/
theorem placed_shift (source : α → List Char) (before : List Char) {p : Position} (pieces : List α)
    (h : 1 ≤ p.line) : placed source (p.shift before) pieces =
      (placed source p pieces).map fun part => (part.1, part.2.shift before) := by
  induction pieces generalizing p with
  | nil => rfl
  | cons piece rest ih =>
    rw [placed, placed, List.map_cons, Span.shift_over before (source piece) h,
      ← Position.shift_after before (source piece) h, ih (Position.one_le_line_after _ h)]

theorem map_fst_placed (source : α → List Char) (p : Position) (pieces : List α) :
    (placed source p pieces).map Prod.fst = pieces := by
  induction pieces generalizing p with
  | nil => rfl
  | cons piece rest ih => rw [placed, List.map_cons, ih]

end LayoutMarkup.Text

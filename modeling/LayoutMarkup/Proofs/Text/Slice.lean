import LayoutMarkup.Text.Position
import Mathlib.Tactic.Common

/-!
# Slices and edits by byte offsets

Spans name places by byte offsets. A slice takes the text between two offsets, and an edited text is
a text with some of its stretches replaced. An offset inside a character, or behind the end, is the
place of no character: nothing can be sliced there, so a slice that exists is in bounds and cuts no
character.

## Main definitions

* `cutBytes?`, `slice?` — a text cut behind a number of bytes, and the text between two offsets
* `Edit`, `splice?` — a text with some of its stretches replaced

## Main results

* `slice?_eq_some_iff` — what a slice is, in terms of the text around it
-/

namespace LayoutMarkup.Text

open Position (byteLength byteLength_append)

/-- A text cut behind its first `n` bytes, if that is between two characters. -/
def cutBytes? : Nat → List Char → Option (List Char × List Char)
  | 0, text => some ([], text)
  | _ + 1, [] => none
  | n + 1, c :: text =>
    if c.utf8Size ≤ n + 1 then
      (cutBytes? (n + 1 - c.utf8Size) text).map fun cut => (c :: cut.1, cut.2)
    else none

/-- The text from byte `start` on up to byte `stop`, if both are between two characters and in this
order. -/
def slice? (text : List Char) (start stop : Nat) : Option (List Char) :=
  if start ≤ stop then do
    let (_, behind) ← cutBytes? start text
    let (piece, _) ← cutBytes? (stop - start) behind
    return piece
  else none

variable {text before piece behind : List Char} {n start stop : Nat}

theorem cutBytes?_append (before behind : List Char) :
    cutBytes? (byteLength before) (before ++ behind) = some (before, behind) := by
  induction before with
  | nil => simp [cutBytes?]
  | cons c before ih =>
    -- A character has a byte at least, so the second equation of the definition applies.
    obtain ⟨k, hk⟩ : ∃ k, byteLength (c :: before) = k + 1 := by
      have := c.utf8Size_pos
      rw [Position.byteLength_cons]
      exact Nat.exists_eq_add_one.mpr (by omega)
    have hle : c.utf8Size ≤ k + 1 := by
      rw [← hk, Position.byteLength_cons]
      omega
    have hrest : k + 1 - c.utf8Size = byteLength before := by
      rw [← hk, Position.byteLength_cons]
      omega
    rw [List.cons_append, hk, cutBytes?, if_pos hle, hrest, ih]
    rfl

/-- A text is cut behind the bytes of its front. -/
theorem cutBytes?_eq_some_iff : cutBytes? n text = some (before, behind) ↔
    before ++ behind = text ∧ byteLength before = n := by
  constructor
  · intro h
    induction text generalizing n before with
    | nil =>
      cases n with
      | zero =>
        cases h
        exact ⟨rfl, rfl⟩
      | succ n => cases h
    | cons c text ih =>
      cases n with
      | zero =>
        cases h
        exact ⟨rfl, rfl⟩
      | succ n =>
        rw [cutBytes?] at h
        split at h
        · obtain ⟨⟨front, rest⟩, hcut, heq⟩ := Option.map_eq_some_iff.mp h
          cases heq
          obtain ⟨rfl, hlen⟩ := ih hcut
          refine ⟨rfl, ?_⟩
          change byteLength front = _ at hlen
          change byteLength (c :: front) = _
          rw [Position.byteLength_cons]
          omega
        · cases h
  · rintro ⟨rfl, rfl⟩
    exact cutBytes?_append before behind

/-- The slice between two offsets is the text that stands between as many bytes. -/
theorem slice?_eq_some_iff : slice? text start stop = some piece ↔
    ∃ before behind, text = before ++ (piece ++ behind) ∧ byteLength before = start ∧
      byteLength (before ++ piece) = stop := by
  constructor
  · intro h
    unfold slice? at h
    split at h
    · rename_i hle
      simp only [Option.bind_eq_bind, Option.bind_eq_some_iff, Prod.exists, Option.pure_def,
        Option.some.injEq] at h
      obtain ⟨before, rest, hbefore, _, behind, hpiece, rfl⟩ := h
      obtain ⟨rfl, rfl⟩ := cutBytes?_eq_some_iff.mp hbefore
      obtain ⟨rfl, hlen⟩ := cutBytes?_eq_some_iff.mp hpiece
      refine ⟨before, behind, rfl, rfl, ?_⟩
      rw [byteLength_append]
      omega
    · cases h
  · rintro ⟨before, behind, rfl, rfl, rfl⟩
    have hle : byteLength before ≤ byteLength (before ++ piece) := by
      rw [byteLength_append]
      omega
    have hlen : byteLength (before ++ piece) - byteLength before = byteLength piece := by
      rw [byteLength_append]
      omega
    simp [slice?, if_pos hle, hlen, cutBytes?_append]

/-- A text between two others is the slice between their offsets. -/
theorem slice?_append (before piece behind : List Char) :
    slice? (before ++ (piece ++ behind)) (byteLength before) (byteLength (before ++ piece)) =
      some piece :=
  slice?_eq_some_iff.mpr ⟨before, behind, rfl, rfl, rfl⟩

/-! ### Edits -/

/-- A stretch of a text and what is put in its place. -/
structure Edit where
  span : Span
  replacement : List Char
  deriving DecidableEq, Repr

/-- The text from byte `cursor` on with the stretches of the edits replaced and all else kept. There
is none if a stretch cuts a character, reaches back behind the cursor or leaves the text. -/
def splice? (text : List Char) (cursor : Nat) : List Edit → Option (List Char)
  | [] => slice? text cursor (byteLength text)
  | edit :: edits => do
    let kept ← slice? text cursor edit.span.start.offset
    let behind ← splice? text edit.span.stop.offset edits
    return kept ++ edit.replacement ++ behind

end LayoutMarkup.Text

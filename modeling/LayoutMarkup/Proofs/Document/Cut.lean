import LayoutMarkup.Markup
import LayoutMarkup.Proofs.Document.Segments
import LayoutMarkup.Proofs.Report.Results
import LayoutMarkup.Proofs.Text.Shift

/-!
# Documents in two parts

A document can be read in two parts if no tag goes over the cut between them. It is enough for this
that the last angle bracket in front of the cut is a `>`, or that a `<` stands right behind the cut:
in the first case nothing that begins in front of the cut is still open there, and in the second
what is open is not a tag. The tags, the compiled text and the results of the document are then
those of the two parts, one after the other, and the tags of the second part are moved by the first.

## Main definitions

* `Document.SafeCut` — two parts with nothing open between them
* `Occurrence.shift` — a tag when a text is put in front of its document

## Main results

* `Document.segments_append` — a safe cut leaves all segments whole
* `Document.occurrences_shift` — the tags behind a text
* `Document.append_of_safeCut` — what the two parts give
-/

namespace LayoutMarkup

open Text

/-- A tag and its stretch when `before` is put in front of the document. -/
def Occurrence.shift (before : List Char) (o : Occurrence) : Occurrence :=
  ⟨o.tag, o.span.shift before⟩

namespace Document

variable {before behind text : List Char}

/-- Two parts of a document of which the first ends outside of a tag, by its last angle bracket, or
the second begins with a `<`. -/
def SafeCut (before behind : List Char) : Prop :=
  (∀ c ∈ (before.filter Tag.isBracket).getLast?, c = '>') ∨ behind.head? = some '<'

instance (before behind : List Char) : Decidable (SafeCut before behind) :=
  -- Only the last bracket has to be looked at, not every character.
  @instDecidableOr _ _ (Option.decidableForallMem _) inferInstance

/-- The end of the first part is as safe as the whole of it. -/
theorem SafeCut.of_append (front : List Char) (h : SafeCut (front ++ before) behind) :
    SafeCut before behind := by
  refine h.imp_left fun hlast c hc => hlast c ?_
  rw [List.filter_append, List.getLast?_append, Option.mem_def.mp hc]
  rfl

/-- No tag that begins in the first part goes on in the second. -/
theorem SafeCut.isSome_read? (h : SafeCut ('<' :: text) behind)
    (hread : (Tag.read? ('<' :: (text ++ behind))).isSome) : (Tag.read? ('<' :: text)).isSome := by
  rcases h with hlast | hhead
  · -- The `<` is not the last bracket of the first part, so another one is behind it.
    have hne : text.filter Tag.isBracket ≠ [] := by
      intro hnil
      have := hlast '<' (by rw [List.filter_cons_of_pos rfl, hnil]; rfl)
      contradiction
    obtain ⟨c, hc⟩ := List.exists_mem_of_ne_nil _ hne
    exact Tag.isSome_read?_of_append ⟨c, List.mem_filter.mp hc⟩ hread
  · obtain ⟨more, rfl⟩ := List.head?_eq_some_iff.mp hhead
    refine Tag.isSome_read?_congr (takeWhile_append_eq_of_stopsAt text ?_) hread
    exact stopsAt_cons_iff.mpr (by decide)

/-! ### Segments -/

/-- The segments of two parts at a safe cut are those of the first and then those of the second. -/
theorem segments_append (h : SafeCut before behind) :
    segments (before ++ behind) = segments before ++ segments behind := by
  fun_induction segments before with
  | case1 => rfl
  | case2 c text tag rest hread _ ih =>
    -- The tag is read in front of both parts too, and the cut is behind it.
    obtain ⟨hwf, hsource⟩ := Tag.read?_eq_some_iff.mp hread
    rw [← hsource] at h ⊢
    rw [List.append_assoc, segments_of_read? (Tag.read?_eq_some_iff.mpr ⟨hwf, rfl⟩),
      ih (.of_append tag.source h), List.cons_append]
  | case3 c text hread ih =>
    have hread' : Tag.read? (c :: (text ++ behind)) = none := by
      rcases eq_or_ne c '<' with rfl | hc
      · rw [← Option.not_isSome_iff_eq_none] at hread ⊢
        exact fun hsome => hread (h.isSome_read? hsome)
      · exact Tag.read?_eq_none_of_ne hc _
    rw [List.cons_append, segments_of_read?_eq_none hread', ih (.of_append [c] h), List.cons_append]

/-! ### Tags in their places -/

theorem occurrences_append (p : Position) (segs more : List Segment) :
    occurrences p (segs ++ more) =
      occurrences p segs ++ occurrences (p.after (segs.flatMap Segment.source)) more := by
  induction segs generalizing p with
  | nil => rfl
  | cons seg segs ih =>
    rw [List.cons_append, List.flatMap_cons, Position.after_append]
    cases seg with
    | text c => exact ih (p.next c)
    | tag t =>
      rw [occurrences, occurrences, ih, List.cons_append]
      rfl

/-- With a text put in front of them, the same tags are found in places that the text moves. -/
theorem occurrences_shift (before : List Char) {p : Position} (segs : List Segment)
    (h : 1 ≤ p.line) :
    (occurrences p segs).map (Occurrence.shift before) = occurrences (p.shift before) segs := by
  induction segs generalizing p with
  | nil => rfl
  | cons seg segs ih =>
    cases seg with
    | text c =>
      rw [occurrences, occurrences, ih (Position.one_le_line_next c h),
        Position.shift_next before c h]
    | tag t =>
      rw [occurrences, occurrences, List.map_cons, ih (Position.one_le_line_after t.source h),
        Position.shift_after before t.source h, Occurrence.shift, Span.shift_over before t.source h]

theorem scan_append (a b : String) (h : SafeCut a.toList b.toList) :
    scan (a ++ b) = scan a ++ (scan b).map (Occurrence.shift a.toList) := by
  rw [scan, String.toList_append, segments_append h, occurrences_append, flatMap_source_segments,
    ← Position.shift_start, ← occurrences_shift a.toList (segments b.toList) (Nat.le_refl 1)]
  rfl

/-! ### What the parts give -/

theorem compile_append (a b : String) (h : SafeCut a.toList b.toList) :
    compile (a ++ b) = compile a ++ compile b := by
  rw [compile, String.toList_append, segments_append h, List.flatMap_append, String.ofList_append]
  rfl

theorem results_append (a b : String) (h : SafeCut a.toList b.toList) :
    (Report.ofSource (a ++ b)).results =
      (Report.ofSource a).results ++ (Report.ofSource b).results := by
  -- Where a tag stands does not matter to what it resolves to.
  have hshift : Occurrence.resolution? ∘ Occurrence.shift a.toList = Occurrence.resolution? := rfl
  rw [Report.results_eq_filterMap_scan, Report.results_eq_filterMap_scan,
    Report.results_eq_filterMap_scan, scan_append a b h, List.filterMap_append, List.filterMap_map,
    hshift]

/-- At a safe cut a document is read, compiled and reported on in two parts. The tags of the second
part are moved forward by the bytes of the first, down by its line feeds and, on the first line of
the second part, to the right by what the first has behind its last line feed. -/
theorem append_of_safeCut (a b : String) (h : SafeCut a.toList b.toList) :
    scan (a ++ b) = scan a ++ (scan b).map (Occurrence.shift a.toList) ∧
      compile (a ++ b) = compile a ++ compile b ∧
      (Report.ofSource (a ++ b)).results =
        (Report.ofSource a).results ++ (Report.ofSource b).results :=
  ⟨scan_append a b h, compile_append a b h, results_append a b h⟩

/-- The `<` left open by the first part is not completed by the second. -/
theorem append_row_stack :
    SafeCut "<Row>ä\n<Box".toList "<Stack />".toList ∧
      scan ("<Row>ä\n<Box" ++ "<Stack />") =
        [⟨.opener "Row".toList [], ⟨⟨0, 1, 1⟩, ⟨5, 1, 6⟩⟩⟩,
          ⟨.opener "Stack".toList " /".toList, ⟨⟨12, 2, 5⟩, ⟨21, 2, 14⟩⟩⟩] ∧
      compile ("<Row>ä\n<Box" ++ "<Stack />") = compile "<Row>ä\n<Box" ++ compile "<Stack />" := by
  have hcut : SafeCut "<Row>ä\n<Box".toList "<Stack />".toList := by decide
  obtain ⟨hscan, hcompile, -⟩ := append_of_safeCut _ _ hcut
  exact ⟨hcut, hscan.trans (by decide +kernel), hcompile⟩

end Document

end LayoutMarkup

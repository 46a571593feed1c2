import LayoutMarkup.Document
import LayoutMarkup.Proofs.Tag.Grammar
import LayoutMarkup.Proofs.Text.Placed

/-!
# Segments that read back

Not every list of segments is the reading of its own text: characters written next to each other can
make up a tag. A list is faithful if none of its characters begins a tag. The reading of a document
is faithful, a faithful list reads back, and it stays faithful when other tags are put in the place
of its tags, because a tag in a text changes nothing for what stands in front of its `<`.

## Main definitions

* `Segment.tag?`, `Segment.replace` — the tag of a segment, and other tags in its place
* `Document.Faithful` — segments that are the reading of their own text

## Main results

* `Document.segments_flatMap_source` — faithful segments read back
* `Document.Faithful.flatMap_replace` — tags may be replaced by tags
* `Document.occurrences_eq_filterMap_placed` — the tags of segments, in the places of the segments
-/

namespace LayoutMarkup

/-- The tag of a segment, if it is one. -/
def Segment.tag? : Segment → Option Tag
  | .text _ => none
  | .tag t => some t

/-- A segment with other tags in the place of its tag. -/
def Segment.replace (change : Tag → List Tag) : Segment → List Segment
  | .text c => [.text c]
  | .tag t => (change t).map .tag

namespace Document

open Text

variable {segs : List Segment} {change : Tag → List Tag}

/-- Segments that are the reading of their own text: its tags are well-formed, and no tag begins at
one of its characters. -/
inductive Faithful : List Segment → Prop
  | nil : Faithful []
  | text {c : Char} {rest : List Segment} :
      Tag.read? (c :: rest.flatMap Segment.source) = none → Faithful rest →
      Faithful (.text c :: rest)
  | tag {t : Tag} {rest : List Segment} :
      t.WellFormed → Faithful rest → Faithful (.tag t :: rest)

theorem faithful_segments (source : List Char) : Faithful (segments source) := by
  fun_induction segments source with
  | case1 => exact .nil
  | case2 c text tag rest hread _ ih => exact .tag (Tag.read?_eq_some_iff.mp hread).1 ih
  | case3 c text hread ih =>
    refine .text ?_ ih
    rw [flatMap_source_segments]
    exact hread

/-- Faithful segments read back. -/
theorem segments_flatMap_source (h : Faithful segs) :
    segments (segs.flatMap Segment.source) = segs := by
  induction h with
  | nil => exact segments_nil
  | text hread _ ih =>
    rw [List.flatMap_cons, Segment.source, List.singleton_append,
      segments_of_read?_eq_none hread, ih]
  | tag hwf _ ih =>
    rw [List.flatMap_cons, Segment.source,
      segments_of_read? (Tag.read?_eq_some_iff.mpr ⟨hwf, rfl⟩), ih]

/-- The text of a tag is read as the tag. -/
theorem segments_source {t : Tag} (h : t.WellFormed) : segments t.source = [.tag t] := by
  have hsegments := segments_flatMap_source (.tag h .nil)
  simpa [Segment.source] using hsegments

theorem Faithful.tags_append {tags : List Tag} (htags : ∀ t ∈ tags, t.WellFormed)
    (h : Faithful segs) : Faithful (tags.map .tag ++ segs) := by
  induction tags with
  | nil => exact h
  | cons t tags ih =>
    exact .tag (htags t List.mem_cons_self) (ih fun t' ht' => htags t' (List.mem_cons_of_mem _ ht'))

/-- Up to the first `<`, replacing tags changes nothing. -/
theorem takeWhile_flatMap_replace (hchange : ∀ t, change t ≠ []) (segs : List Segment) :
    ((segs.flatMap (Segment.replace change)).flatMap Segment.source).takeWhile (· ≠ '<') =
      (segs.flatMap Segment.source).takeWhile (· ≠ '<') := by
  induction segs with
  | nil => rfl
  | cons seg segs ih =>
    cases seg with
    | text c =>
      rw [List.flatMap_cons, List.flatMap_append, List.flatMap_cons]
      simp only [Segment.replace, Segment.source, List.flatMap_singleton, List.singleton_append]
      rw [List.takeWhile_cons, List.takeWhile_cons, ih]
    | tag t =>
      -- Both texts go on with the `<` of a tag.
      obtain ⟨first, tags, htags⟩ := List.exists_cons_of_ne_nil (hchange t)
      rw [List.flatMap_cons, List.flatMap_cons]
      simp only [Segment.replace, htags, List.map_cons, List.cons_append, List.flatMap_cons,
        Segment.source, Tag.source_eq_cons_body]
      rw [List.takeWhile_cons_of_neg (by simp), List.takeWhile_cons_of_neg (by simp)]

/-- Tags may be replaced by tags: no character begins a tag on that account. -/
theorem Faithful.flatMap_replace (hne : ∀ t, change t ≠ [])
    (hwf : ∀ t : Tag, t.WellFormed → ∀ t' ∈ change t, t'.WellFormed) (h : Faithful segs) :
    Faithful (segs.flatMap (Segment.replace change)) := by
  induction h with
  | nil => exact .nil
  | @text c rest hread _ ih =>
    rw [List.flatMap_cons]
    refine .text ?_ ih
    -- A tag that began at `<` would begin there in the old text too: both agree up to the next `<`.
    rcases eq_or_ne c '<' with rfl | hc
    · rw [← Option.not_isSome_iff_eq_none] at hread ⊢
      exact fun hsome => hread (Tag.isSome_read?_congr (takeWhile_flatMap_replace hne rest) hsome)
    · exact Tag.read?_eq_none_of_ne hc _
  | @tag t rest ht _ ih =>
    rw [List.flatMap_cons]
    exact ih.tags_append (hwf t ht)

/-! ### Tags and their places -/

/-- The tags among segments are in the places of the segments. -/
theorem occurrences_eq_filterMap_placed (p : Position) (segs : List Segment) : occurrences p segs =
    (placed Segment.source p segs).filterMap fun part => part.1.tag?.map (⟨·, part.2⟩) := by
  induction segs generalizing p with
  | nil => rfl
  | cons seg segs ih =>
    cases seg with
    | text c => exact ih _
    | tag t =>
      rw [occurrences, ih]
      rfl

theorem map_tag_scan (source : String) :
    (scan source).map Occurrence.tag = (segments source.toList).filterMap Segment.tag? :=
  calc (scan source).map Occurrence.tag
      = (placed Segment.source .start (segments source.toList)).filterMap
          (fun part => part.1.tag?) := by
        rw [scan, occurrences_eq_filterMap_placed, List.map_filterMap]
        simp [Function.comp_def]
    _ = ((placed Segment.source .start (segments source.toList)).map Prod.fst).filterMap
          Segment.tag? := by
        rw [List.filterMap_map]
        rfl
    _ = (segments source.toList).filterMap Segment.tag? := by rw [map_fst_placed]

theorem filterMap_tag?_flatMap_replace (change : Tag → List Tag) (segs : List Segment) :
    (segs.flatMap (Segment.replace change)).filterMap Segment.tag? =
      (segs.filterMap Segment.tag?).flatMap change := by
  induction segs with
  | nil => rfl
  | cons seg segs ih =>
    rw [List.flatMap_cons, List.filterMap_append, ih]
    cases seg with
    | text c => rfl
    | tag t =>
      have htags : ((change t).map Segment.tag).filterMap Segment.tag? = change t := by
        rw [List.filterMap_map]
        exact List.filterMap_some
      change ((change t).map Segment.tag).filterMap Segment.tag? ++ _ =
        (t :: segs.filterMap Segment.tag?).flatMap change
      rw [htags, List.flatMap_cons]

end Document

end LayoutMarkup

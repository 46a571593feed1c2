import LayoutMarkup.Proofs.Document.Segments

/-!
# The tags of a document

Reading from left to right and one tag at a time misses no tag: every stretch of a document that the
grammar of tags allows is read, whatever stands in front of it. A tag that is read hides no other,
because no well-formed tag begins inside another, and a `<` that begins no tag hides none, because
reading goes on right behind it.

## Main results

* `Document.mem_occurrences_segments_iff` — the tags that are read are the well-formed stretches
* `Document.pairwise_occurrences` — they come in order and do not overlap
* `Document.scan_iff_spells` — both, on byte offsets and on what a tag says
-/

namespace LayoutMarkup.Document

open Text

/-- A tag in front of a text ends in front of any later tag. -/
theorem exists_append_of_source_append_eq {first second : Tag} {rest before behind : List Char}
    (hwf : first.WellFormed) (hbefore : before ≠ [])
    (h : first.source ++ rest = before ++ (second.source ++ behind)) :
    ∃ between, before = first.source ++ between ∧ rest = between ++ (second.source ++ behind) := by
  rcases List.append_eq_append_iff.mp h with ⟨between, hbetween, hrest⟩ | ⟨overlap, hover, hsecond⟩
  · exact ⟨between, hbetween, hrest⟩
  · cases overlap with
    | nil => exact ⟨[], by simpa using hover.symm, by simpa using hsecond.symm⟩
    | cons c overlap =>
      -- The second tag's `<` would stand inside the first.
      rw [Tag.source_eq_cons_body, List.cons_append, List.cons_append, List.cons.injEq] at hsecond
      obtain ⟨b, before, rfl⟩ := List.exists_cons_of_ne_nil hbefore
      have hbody : first.body = before ++ c :: overlap := by
        rw [Tag.source_eq_cons_body, List.cons_append, List.cons.injEq] at hover
        exact hover.2
      refine absurd ?_ hwf.lt_notMem_body
      rw [hbody, ← hsecond.1]
      exact List.mem_append_right _ List.mem_cons_self

/-- The tags that are read of a text at `p` are the well-formed stretches of the text. -/
theorem mem_occurrences_segments_iff (p : Position) (text : List Char) (o : Occurrence) :
    o ∈ occurrences p (segments text) ↔ ∃ before tag behind,
      text = before ++ (tag.source ++ behind) ∧ tag.WellFormed ∧
        o = ⟨tag, .over (p.after before) tag.source⟩ := by
  fun_induction segments text generalizing p with
  | case1 =>
    simp only [occurrences, List.not_mem_nil, false_iff, not_exists, not_and]
    intro before tag behind h
    simp [Tag.source_eq_cons_body] at h
  | case2 c text tag rest hread _ ih =>
    -- A tag is read here: it is the stretch at the front, and all others begin behind it.
    obtain ⟨hwf, htext⟩ := Tag.read?_eq_some_iff.mp hread
    rw [occurrences, List.mem_cons, ih]
    constructor
    · rintro (rfl | ⟨before, second, behind, rfl, hsecond, rfl⟩)
      · exact ⟨[], tag, rest, htext.symm, hwf, rfl⟩
      · refine ⟨tag.source ++ before, second, behind, ?_, hsecond, ?_⟩
        · rw [List.append_assoc, htext]
        · rw [Position.after_append]
    · rintro ⟨before, second, behind, hsplit, hsecond, rfl⟩
      rcases eq_or_ne before [] with rfl | hbefore
      · have hread' := Tag.read?_eq_some_iff.mpr ⟨hsecond, hsplit.symm⟩
        rw [hread] at hread'
        cases hread'
        exact Or.inl rfl
      · obtain ⟨between, rfl, hrest⟩ := exists_append_of_source_append_eq hwf hbefore
          (htext.trans hsplit)
        refine Or.inr ⟨between, second, behind, hrest, hsecond, ?_⟩
        rw [Position.after_append]
  | case3 c text hread ih =>
    -- No tag is read here: no stretch is at the front, and reading goes on behind one character.
    rw [occurrences, ih]
    constructor
    · rintro ⟨before, tag, behind, rfl, hwf, rfl⟩
      exact ⟨c :: before, tag, behind, rfl, hwf, rfl⟩
    · rintro ⟨before, tag, behind, hsplit, hwf, rfl⟩
      cases before with
      | nil =>
        have hread' := Tag.read?_eq_some_iff.mpr ⟨hwf, hsplit.symm⟩
        rw [hread] at hread'
        cases hread'
      | cons d before =>
        rw [List.cons_append, List.cons.injEq] at hsplit
        obtain ⟨rfl, rfl⟩ := hsplit
        exact ⟨before, tag, behind, rfl, hwf, rfl⟩

theorem wellFormed_of_mem_scan {source : String} {o : Occurrence} (h : o ∈ scan source) :
    o.tag.WellFormed := by
  obtain ⟨before, tag, behind, -, hwf, rfl⟩ := (mem_occurrences_segments_iff _ _ _).mp h
  exact hwf

/-! ### Order -/

/-- The tags among segments come in order and do not overlap. -/
theorem pairwise_occurrences (p : Position) (segs : List Segment) :
    (occurrences p segs).Pairwise fun o o' => o.span.stop.offset ≤ o'.span.start.offset := by
  rw [occurrences_eq_filterMap_placed]
  refine (pairwise_placed Segment.source p segs).filterMap _ ?_
  intro part part' hle o ho o' ho'
  obtain ⟨tag, -, rfl⟩ := Option.map_eq_some_iff.mp ho
  obtain ⟨tag', -, rfl⟩ := Option.map_eq_some_iff.mp ho'
  exact hle

theorem start_lt_stop_of_mem_occurrences {p : Position} {segs : List Segment} {o : Occurrence}
    (h : o ∈ occurrences p segs) : o.span.start.offset < o.span.stop.offset := by
  rw [occurrences_eq_filterMap_placed, List.mem_filterMap] at h
  obtain ⟨⟨seg, span⟩, hmem, ho⟩ := h
  obtain ⟨tag, htag, rfl⟩ := Option.map_eq_some_iff.mp ho
  refine start_lt_stop_of_mem_placed hmem ?_
  cases seg with
  | text c => cases htag
  | tag t => exact t.source_ne_nil

/-! ### The document as a whole -/

/-- There is a tag between two offsets of a document, with a name, a shape and attribute text, if
and only if the text between them is spelled so. The tags come in order of their first byte, and no
two of them begin at the same. -/
theorem scan_iff_spells (source : String) :
    (∀ (start stop : Nat) (name : String) (kind : Tag.Kind) (attrs : List Char),
      (∃ o ∈ scan source, o.span.start.offset = start ∧ o.span.stop.offset = stop ∧
          o.tag.name = name ∧ o.tag.kind = kind ∧ o.tag.attrs = attrs) ↔
        ∃ written, slice? source.toList start stop = some written ∧
          Tag.Spells written name kind attrs) ∧
      (scan source).Pairwise fun o o' => o.span.start.offset < o'.span.start.offset := by
  constructor
  · intro start stop name kind attrs
    constructor
    · rintro ⟨o, ho, rfl, rfl, rfl, rfl, rfl⟩
      obtain ⟨before, tag, behind, hsource, hwf, rfl⟩ :=
        (mem_occurrences_segments_iff _ _ _).mp ho
      refine ⟨tag.source, slice?_eq_some_iff.mpr ⟨before, behind, hsource, ?_, ?_⟩,
        Tag.spells_iff.mpr ⟨tag, hwf, rfl, rfl, rfl, rfl⟩⟩
      · simp [Span.over, Position.after_offset, Position.start]
      · simp [Span.over, Position.after_offset, Position.start, Position.byteLength_append]
    · rintro ⟨written, hslice, hspells⟩
      obtain ⟨before, behind, hsource, rfl, rfl⟩ := slice?_eq_some_iff.mp hslice
      obtain ⟨tag, hwf, rfl, rfl, rfl, rfl⟩ := Tag.spells_iff.mp hspells
      refine ⟨⟨tag, .over (Position.start.after before) tag.source⟩,
        (mem_occurrences_segments_iff _ _ _).mpr ⟨before, tag, behind, hsource, hwf, rfl⟩,
        ?_, ?_, rfl, rfl, rfl⟩
      · simp [Span.over, Position.after_offset, Position.start]
      · simp [Span.over, Position.after_offset, Position.start, Position.byteLength_append]
  · refine (pairwise_occurrences .start (segments source.toList)).imp_of_mem ?_
    intro o o' ho _ hle
    exact Nat.lt_of_lt_of_le (start_lt_stop_of_mem_occurrences ho) hle

end LayoutMarkup.Document

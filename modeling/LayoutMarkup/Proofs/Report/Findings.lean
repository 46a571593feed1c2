import LayoutMarkup.Markup
import LayoutMarkup.Proofs.Document.Segments
import LayoutMarkup.Proofs.Lint.Tokens
import LayoutMarkup.Proofs.Text.Slice
import LayoutMarkup.Report

/-!
# Findings, tag by tag

A report is made in a walk over the segments of a document, and whether an element is empty is
decided there by the segments behind its tag. The same can be told from the text behind the tag: an
element is empty if its tag is self-closing, or if nothing but blanks stands between the tag and a
closer of the same name. No other tag and no stray bracket can come between the two, so the closer
in the text is the next tag that is read.

## Main definitions

* `Tag.CloserAhead` — a text that begins with a closer, but for blanks
* `Occurrence.IsEmptyIn` — a tag whose element holds nothing but blanks
* `Occurrence.finding` — what an opening tag comes to, from the tag and the text behind it

## Main results

* `Document.closesAtOnce_iff` — the closer in the text is the next tag
* `Document.findingsOf_eq_map` — the findings are those of the opening tags
* `Document.exists_preferSpacer_iff` — which elements are reported as spacers
-/

namespace LayoutMarkup

open Text
open Position (byteLength)

variable {name text rest : List Char} {segs : List Segment} {tag : Tag} {c : Char}

/-! ### Closers behind blanks -/

namespace Tag

/-- Whether a text begins with the closer of the element `name`, but for blanks in front of it. -/
def CloserAhead (name text : List Char) : Prop :=
  ∃ blanks gap rest, text = blanks ++ '<' :: '/' :: (name ++ (gap ++ '>' :: rest)) ∧
    (∀ c ∈ blanks, isBlank c = true) ∧ ∀ c ∈ gap, isGap c = true

/-- Behind the blanks and the name only the first character that is no gap counts. -/
theorem closerAhead_iff : CloserAhead name text ↔
    ∃ behind ∈ ('<' :: '/' :: name).isPrefixOf? (text.dropWhile isBlank),
      (behind.dropWhile isGap).head? = some '>' := by
  simp only [Option.mem_def, List.isPrefixOf?_eq_some_iff_append_eq]
  constructor
  · rintro ⟨blanks, gap, rest, rfl, hblanks, hgap⟩
    refine ⟨gap ++ '>' :: rest, ?_, ?_⟩
    · rw [dropWhile_append_of_stopsAt hblanks (stopsAt_cons_iff.mpr (by decide))]
      simp
    · rw [dropWhile_append_of_stopsAt hgap (stopsAt_cons_iff.mpr (by decide)), List.head?_cons]
  · rintro ⟨behind, hcloser, hhead⟩
    obtain ⟨rest, hrest⟩ := List.head?_eq_some_iff.mp hhead
    refine ⟨text.takeWhile isBlank, behind.takeWhile isGap, rest, ?_,
      fun c hc => List.mem_takeWhile_imp hc, fun c hc => List.mem_takeWhile_imp hc⟩
    rw [← hrest, List.takeWhile_append_dropWhile, ← List.cons_append, ← List.cons_append, hcloser,
      List.takeWhile_append_dropWhile]

instance (name text : List Char) : Decidable (CloserAhead name text) :=
  decidable_of_iff' _ closerAhead_iff

theorem not_closerAhead_nil (name : List Char) : ¬ CloserAhead name [] := by
  rintro ⟨blanks, gap, rest, h, -⟩
  simp at h

/-- A blank in front makes no difference. -/
theorem closerAhead_cons_of_isBlank (h : isBlank c = true) :
    CloserAhead name (c :: text) ↔ CloserAhead name text := by
  rw [closerAhead_iff, closerAhead_iff, List.dropWhile_cons_of_pos h]

/-- Without a blank in front, the closer is read as a tag. -/
theorem CloserAhead.exists_read?_eq (h : CloserAhead name (c :: text)) (hname : IsName name)
    (hc : isBlank c = false) :
    ∃ gap rest, Tag.read? (c :: text) = some (closer name gap, rest) := by
  obtain ⟨blanks, gap, rest, htext, hblanks, hgap⟩ := h
  cases blanks with
  | nil =>
    refine ⟨gap, rest, read?_eq_some_iff.mpr ⟨.closer hname hgap, ?_⟩⟩
    simp [htext, source]
  | cons d blanks =>
    obtain rfl : c = d := (List.cons.inj htext).1
    rw [hblanks c List.mem_cons_self] at hc
    contradiction

end Tag

namespace Document

/-- The closer in the text is the next tag that is read, with blanks in front of it. -/
theorem closesAtOnce_iff (h : Faithful segs) (hname : Tag.IsName name) :
    closesAtOnce name segs = true ↔ Tag.CloserAhead name (segs.flatMap Segment.source) := by
  induction h with
  | nil => simp [closesAtOnce, Tag.not_closerAhead_nil]
  | @text c rest hread _ ih =>
    rw [closesAtOnce, List.flatMap_cons, Segment.source, List.singleton_append]
    cases hc : isBlank c with
    | true => rw [Bool.true_and, ih, Tag.closerAhead_cons_of_isBlank hc]
    | false =>
      -- A closer at this character would have been read as a tag.
      refine iff_of_false Bool.false_ne_true fun hcloser => ?_
      obtain ⟨gap, behind, hread'⟩ := hcloser.exists_read?_eq hname hc
      rw [hread] at hread'
      cases hread'
  | @tag t rest hwf _ _ =>
    rw [List.flatMap_cons, Segment.source, Tag.source_eq_cons_body, List.cons_append]
    have hread : Tag.read? ('<' :: (t.body ++ rest.flatMap Segment.source)) =
        some (t, rest.flatMap Segment.source) :=
      Tag.read?_eq_some_iff.mpr ⟨hwf, by rw [Tag.source_eq_cons_body, List.cons_append]⟩
    constructor
    · intro hcloses
      cases hwf with
      | opener _ _ => cases hcloses
      | @closer closed gap _ hgap =>
        obtain rfl : closed = name := of_decide_eq_true hcloses
        exact ⟨[], gap, rest.flatMap Segment.source, by simp [Tag.body, Tag.source],
          List.forall_mem_nil _, hgap⟩
    · intro hcloser
      obtain ⟨gap, behind, hread'⟩ := hcloser.exists_read?_eq hname (by decide)
      rw [hread] at hread'
      cases hread'
      exact decide_eq_true rfl

end Document

/-! ### Empty elements -/

/-- Whether the element of an opening tag of a document holds nothing but blanks: the tag closes it
itself, or a closer of the same name follows, with at most blanks between the two. -/
def Occurrence.IsEmptyIn (source : List Char) (o : Occurrence) : Prop :=
  o.tag.kind = .selfClosing ∨
    ∃ behind ∈ slice? source o.span.stop.offset (byteLength source),
      Tag.CloserAhead o.tag.name.toList behind

instance (source : List Char) (o : Occurrence) : Decidable (o.IsEmptyIn source) :=
  inferInstanceAs (Decidable (_ ∨ _))

/-- What the opening tag of a component comes to is decided by the tag alone, and what another comes
to also by the text behind it. -/
def Occurrence.finding (source : List Char) (o : Occurrence) : Finding :=
  match Component.ofName? o.tag.name with
  | some component => .component o.line (component.resolveTag o.tag)
  | none => .element o.line o.tag.name o.tag.props.classList? (decide (o.IsEmptyIn source))

/-- The segments behind an opening tag decide as the text does whether its element is empty. -/
theorem Tag.opensEmpty_iff (htag : tag.WellFormed) (hopening : tag.isOpening = true)
    (hsegs : Document.Faithful segs) : tag.opensEmpty segs = true ↔
      tag.kind = .selfClosing ∨ CloserAhead tag.name.toList (segs.flatMap Segment.source) := by
  cases htag with
  | @opener name raw hname _ =>
    rw [opensEmpty, Bool.or_eq_true, Document.closesAtOnce_iff hsegs hname, Tag.name,
      String.toList_ofList]
    refine or_congr_left ?_
    cases hslash : endsInSlash raw <;> simp [kind, hslash]
  | closer _ _ => cases hopening

namespace Document

/-- The segments behind an opening tag decide whether its element is empty in the document. -/
theorem opensEmpty_eq_decide (hwf : tag.WellFormed) (hopening : tag.isOpening = true)
    (hsegs : Faithful segs) (before : List Char) (p : Position)
    (hp : p.offset = byteLength before) : tag.opensEmpty segs = decide (Occurrence.IsEmptyIn
      (before ++ (tag.source ++ segs.flatMap Segment.source)) ⟨tag, .over p tag.source⟩) := by
  have hslice : slice? (before ++ (tag.source ++ segs.flatMap Segment.source))
      (p.after tag.source).offset
      (byteLength (before ++ (tag.source ++ segs.flatMap Segment.source))) =
        some (segs.flatMap Segment.source) := by
    have happend := slice?_append (before ++ tag.source) (segs.flatMap Segment.source) []
    rwa [List.append_nil, List.append_assoc, Position.byteLength_append before tag.source, ← hp,
      ← Position.after_offset] at happend
  rw [Bool.eq_iff_iff, Tag.opensEmpty_iff hwf hopening hsegs, decide_eq_true_iff,
    Occurrence.IsEmptyIn, Span.over, hslice]
  simp

/-- What an opening tag comes to in the walk is what it comes to with the text behind it. -/
theorem finding?_eq_some (hwf : tag.WellFormed) (hopening : tag.isOpening = true)
    (hsegs : Faithful segs) (before : List Char) (p : Position)
    (hp : p.offset = byteLength before) : tag.finding? p.line segs =
      some (Occurrence.finding (before ++ (tag.source ++ segs.flatMap Segment.source))
        ⟨tag, .over p tag.source⟩) := by
  rw [Tag.finding?, if_pos hopening, resolve?, Occurrence.finding,
    opensEmpty_eq_decide hwf hopening hsegs before p hp]
  cases Component.ofName? tag.name <;> rfl

theorem findings_eq_map (h : Faithful segs) (before : List Char) (p : Position)
    (hp : p.offset = byteLength before) : findings p segs =
      ((occurrences p segs).filter (·.tag.isOpening)).map
        (Occurrence.finding (before ++ segs.flatMap Segment.source)) := by
  -- The text in front grows as the walk goes on, so that the whole text stays the same.
  induction h generalizing before p with
  | nil => rfl
  | @text c rest _ _ ih =>
    have hnext : (p.next c).offset = byteLength (before ++ [c]) := by
      rw [Position.next_offset, hp, Position.byteLength_append]
      rfl
    rw [findings, occurrences, ih (before ++ [c]) (p.next c) hnext, List.append_assoc]
    rfl
  | @tag t rest hwf hrest ih =>
    have hafter : (p.after t.source).offset = byteLength (before ++ t.source) := by
      rw [Position.after_offset, hp, Position.byteLength_append]
    rw [findings, occurrences, ih (before ++ t.source) (p.after t.source) hafter,
      List.append_assoc, List.flatMap_cons, Segment.source]
    cases hopening : t.isOpening with
    | true =>
      rw [finding?_eq_some hwf hopening hrest before p hp, List.filter_cons_of_pos (by exact hopening)]
      rfl
    | false =>
      rw [Tag.finding?, if_neg (by simp [hopening]), List.filter_cons_of_neg (by simp [hopening])]
      rfl

/-- The findings of a document are those of its opening tags, in order. -/
theorem findingsOf_eq_map (source : String) : findingsOf source =
    ((scan source).filter (·.tag.isOpening)).map (Occurrence.finding source.toList) := by
  have hfindings := findings_eq_map (faithful_segments source.toList) [] .start rfl
  rwa [flatMap_source_segments, List.nil_append] at hfindings

end Document

/-! ### Spacers -/

/-- The class list of an element: its text `class`, or else its text `className`. -/
theorem Props.classList?_eq (props : Props) :
    props.classList? = (props.text? "class").or (props.text? "className") := by
  rw [classList?]
  cases props.text? "class" <;> rfl

/-- The rule about spacers finds something if the class is there and the element is empty. -/
theorem exists_preferSpacer_of_classes_iff {classes : String} {line : Nat} {empty : Bool} :
    (∃ warning ∈ lintClasses classes line empty, warning.rule = .preferSpacer) ↔
      empty = true ∧ "flex-1" ∈ classTokens classes :=
  exists_rule_iff_appliesTo

namespace Document

/-- The warnings of a report are those about its opening tags, one after the other. Of an element
that is no component's and has the class `flex-1`, a spacer is suggested if and only if its tag
closes it or the text right behind its tag is a closer of its name, but for blanks in front. -/
theorem exists_preferSpacer_iff (source : String) :
    (Report.ofSource source).warnings = (findingsOf source).flatMap Finding.warnings ∧
      List.Forall₂
        (fun o finding => ∀ classes,
          Component.ofName? o.tag.name = none →
          (o.tag.props.text? "class").or (o.tag.props.text? "className") = some classes →
          "flex-1" ∈ classTokens classes →
            ((∃ warning ∈ finding.warnings, warning.rule = .preferSpacer) ↔
              o.IsEmptyIn source.toList))
        ((scan source).filter (·.tag.isOpening)) (findingsOf source) := by
  refine ⟨Report.warnings_ofSource source, ?_⟩
  rw [findingsOf_eq_map, List.forall₂_map_right_iff, List.forall₂_same]
  intro o _ classes hname hclasses hflex
  have hwarnings : (o.finding source.toList).warnings =
      lintClasses classes o.line (decide (o.IsEmptyIn source.toList)) := by
    rw [Occurrence.finding, hname, Props.classList?_eq, hclasses]
    rfl
  rw [hwarnings, exists_preferSpacer_of_classes_iff, decide_eq_true_iff]
  exact and_iff_left hflex

/-- A no-break space and a line feed in front of the closer, which has a tab in it; and a stray `<` in
front of another. -/
theorem exists_preferSpacer_paragraph :
    (scan "<p class=\"a flex-1\">\u00a0\n</p\t><q className=\"flex-1\"><</q>").filter
        (·.tag.isOpening) =
      [⟨.opener "p".toList " class=\"a flex-1\"".toList, ⟨⟨0, 1, 1⟩, ⟨20, 1, 21⟩⟩⟩,
        ⟨.opener "q".toList " className=\"flex-1\"".toList, ⟨⟨28, 2, 6⟩, ⟨50, 2, 28⟩⟩⟩] ∧
    ∃ paragraph quote, findingsOf
        "<p class=\"a flex-1\">\u00a0\n</p\t><q className=\"flex-1\"><</q>" =
          [paragraph, quote] ∧
      (∃ warning ∈ paragraph.warnings, warning.rule = .preferSpacer) ∧
      ¬ ∃ warning ∈ quote.warnings, warning.rule = .preferSpacer := by
  obtain ⟨-, hpairs⟩ := exists_preferSpacer_iff
    "<p class=\"a flex-1\">\u00a0\n</p\t><q className=\"flex-1\"><</q>"
  have hscan : (scan "<p class=\"a flex-1\">\u00a0\n</p\t><q className=\"flex-1\"><</q>").filter
        (·.tag.isOpening) =
      [⟨.opener "p".toList " class=\"a flex-1\"".toList, ⟨⟨0, 1, 1⟩, ⟨20, 1, 21⟩⟩⟩,
        ⟨.opener "q".toList " className=\"flex-1\"".toList, ⟨⟨28, 2, 6⟩, ⟨50, 2, 28⟩⟩⟩] := by
    decide +kernel
  rw [hscan, List.forall₂_cons_left_iff] at hpairs
  obtain ⟨paragraph, findings, hparagraph, hpairs, hfindings⟩ := hpairs
  rw [List.forall₂_cons_left_iff] at hpairs
  obtain ⟨quote, findings, hquote, hpairs, rfl⟩ := hpairs
  obtain rfl := List.forall₂_nil_left_iff.mp hpairs
  refine ⟨hscan, paragraph, quote, hfindings, ?_, ?_⟩
  · exact (hparagraph "a flex-1" (by decide +kernel) (by decide +kernel) (by decide +kernel)).mpr
      (by decide +kernel)
  · exact fun h => absurd
      ((hquote "flex-1" (by decide +kernel) (by decide +kernel) (by decide +kernel)).mp h)
      (by decide +kernel)

end Document

end LayoutMarkup

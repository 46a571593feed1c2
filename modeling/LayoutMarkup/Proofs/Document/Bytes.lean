import LayoutMarkup.Proofs.Attribute.Bytes
import LayoutMarkup.Proofs.Document.Agreement
import LayoutMarkup.Proofs.Document.Compiled
import LayoutMarkup.Proofs.Report.Findings
import LayoutMarkup.Proofs.Text.Cursor

/-!
# Documents, byte by byte

The tags of a document are found here by a reader that moves over bytes, tells what it wants to know
by the byte in front of it, and slices the document between the offsets where it has been. It tries
for a tag at every `<`, and goes on one byte behind the `<` if it finds none. All slices are checked:
where one is undefined, or where a tag is read and no byte is passed, there is no result. There
always is one, and it is the one that reading by characters gives.

## Main definitions

* `Tag.nameAt?`, `Tag.openerAt?`, `Tag.closerAt?`, `Tag.tagAt?` — what is in front of a cursor
* `Document.scanBytes?` — the tags behind a cursor
* `Document.isEmpty?` — whether an element is empty, told by the next tag

## Main results

* `Tag.tagAt?_between` — a tag is read, or is not, as it is of the text
* `Document.scanBytes?_between` — the same tags are found in the same places
* `Document.isEmpty?_occurrences` — the next tag tells which elements are empty
* `Document.slices_defined` — all slices that are taken of a document are defined
-/

namespace LayoutMarkup

open Text
open Position (byteLength byteLength_append)

/-! ### Tags -/

namespace Tag

/-- The tag name in front of a cursor, with the cursor behind it. -/
def nameAt? (text : List Char) (cursor : Cursor) : Option (Option (List Char × Cursor)) :=
  if isNameStart cursor.peek then do
    let behind := cursor.skipWhile isWordChar
    let name ← slice? text cursor.offset behind.offset
    return some (name, behind)
  else return none

/-- What the closer says whose name is in front of a cursor, with the cursor behind it. -/
def closerAt? (text : List Char) (cursor : Cursor) : Option (Option (Shape × Cursor)) := do
  match ← nameAt? text cursor with
  | none => return none
  | some (name, behind) =>
    let last := behind.skipWhile isGap
    if last.peek = '>' then return some ((String.ofList name, .closing, []), last.advance)
    else return none

/-- What the opener says whose name is in front of a cursor, with the cursor behind it. -/
def openerAt? (text : List Char) (cursor : Cursor) : Option (Option (Shape × Cursor)) := do
  match ← nameAt? text cursor with
  | none => return none
  | some (name, behind) =>
    if behind.peek = '/' ∨ behind.peek = '>' ∨ isGap behind.peek = true then
      let last := behind.skipWhile (!isBracket ·)
      if last.peek = '>' then
        let raw ← slice? text behind.offset last.offset
        return some ((opener name raw).shape, last.advance)
      else return none
    else return none

/-- What the tag says that begins with the `<` in front of a cursor, with the cursor behind it. -/
def tagAt? (text : List Char) (cursor : Cursor) : Option (Option (Shape × Cursor)) :=
  if cursor.advance.peek = '/' then closerAt? text cursor.advance.advance
  else openerAt? text cursor.advance

variable {text before rest : List Char}

theorem alikeBeyondASCII_isBracket : AlikeBeyondASCII isBracket := by
  refine .of_lt fun c hc => ?_
  rw [isBracket, Bool.or_eq_true, decide_eq_true_eq, decide_eq_true_eq] at hc
  rcases hc with rfl | rfl <;> decide

theorem nameAt?_between (h : before ++ rest = text) : nameAt? text (.between before rest) =
    some ((readName? rest).map fun read => (read.1, .between (before ++ read.1) read.2)) := by
  cases rest with
  | nil => rfl
  | cons c rest =>
    rw [nameAt?, Cursor.apply_peek_between alikeBeyondASCII_isNameStart, readName?]
    split
    · have hslice : slice? text (byteLength before)
          (byteLength (before ++ (c :: rest).takeWhile isWordChar)) =
            some ((c :: rest).takeWhile isWordChar) :=
        slice?_eq_some_iff.mpr ⟨before, (c :: rest).dropWhile isWordChar,
          by rw [List.takeWhile_append_dropWhile, h], rfl, rfl⟩
      simp only [Cursor.skipWhile_between alikeBeyondASCII_isWordChar, Cursor.offset_between, hslice,
        Option.bind_eq_bind, Option.bind_some, Option.pure_def, Option.map_some]
    · rfl

/-- The closer in front of a cursor is read as it is read of the text. -/
theorem closerAt?_between (h : before ++ '<' :: '/' :: rest = text) :
    closerAt? text (.between (before ++ ['<', '/']) rest) = some ((readCloser? rest).map fun read =>
      (read.1.shape, .between (before ++ read.1.source) read.2)) := by
  have hstart : before ++ ['<', '/'] ++ rest = text := by
    rw [List.append_assoc]
    exact h
  rw [closerAt?, nameAt?_between hstart, readCloser?]
  cases readName? rest with
  | none => rfl
  | some read =>
    obtain ⟨name, behind⟩ := read
    simp only [Option.map_some, Option.bind_eq_bind, Option.bind_some, Option.pure_def,
      Cursor.skipWhile_between alikeBeyondASCII_isGap]
    by_cases hlast : (behind.dropWhile isGap).head? = some '>'
    · obtain ⟨more, hmore⟩ := List.head?_eq_some_iff.mp hlast
      rw [if_pos ((Cursor.peek_between_eq_iff (by decide) (by decide)).mpr hlast), hmore,
        Cursor.advance_between (by decide)]
      simp [shape, Tag.name, kind, attrs, source]
    · rw [if_neg (mt (Cursor.peek_between_eq_iff (by decide) (by decide)).mp hlast)]
      split
      · rename_i hdrop
        rw [hdrop] at hlast
        exact absurd rfl hlast
      · rfl

/-- Where raw text ends in `>`, its first character tells whether it may follow a name. -/
theorem setOff_takeWhile_iff {c : Char} {more behind : List Char}
    (h : (c :: more).dropWhile (!isBracket ·) = '>' :: behind) :
    setOff ((c :: more).takeWhile (!isBracket ·)) = true ↔ c = '/' ∨ c = '>' ∨ isGap c = true := by
  cases hc : isBracket c with
  | true =>
    rw [List.dropWhile_cons_of_neg (by simp [hc]), List.cons.injEq] at h
    rw [List.takeWhile_cons_of_neg (by simp [hc])]
    exact iff_of_true rfl (Or.inr (Or.inl h.1))
  | false =>
    have hne : c ≠ '>' := (isBracket_eq_false_iff.mp hc).2
    rw [List.takeWhile_cons_of_pos (by simp [hc]), setOff, Bool.or_eq_true, decide_eq_true_eq,
      or_comm, or_congr_right (or_iff_right hne)]

/-- The opener in front of a cursor is read as it is read of the text. -/
theorem openerAt?_between (h : before ++ '<' :: rest = text) :
    openerAt? text (.between (before ++ ['<']) rest) = some ((readOpener? rest).map fun read =>
      (read.1.shape, .between (before ++ read.1.source) read.2)) := by
  have hstart : before ++ ['<'] ++ rest = text := by
    rw [List.append_assoc]
    exact h
  rw [openerAt?, nameAt?_between hstart, readOpener?]
  cases hread : readName? rest with
  | none => rfl
  | some read =>
    obtain ⟨name, behind⟩ := read
    simp only [Option.map_some, Option.bind_eq_bind, Option.bind_some, Option.pure_def,
      Cursor.skipWhile_between alikeBeyondASCII_isBracket.not]
    by_cases hlast : (behind.dropWhile (!isBracket ·)).head? = some '>'
    · obtain ⟨more, hmore⟩ := List.head?_eq_some_iff.mp hlast
      obtain ⟨c, rest', rfl⟩ : ∃ c rest', behind = c :: rest' := by
        cases behind with
        | nil => cases hmore
        | cons c rest' => exact ⟨c, rest', rfl⟩
      have hslice : slice? text (byteLength (before ++ ['<'] ++ name))
          (byteLength (before ++ ['<'] ++ name ++ (c :: rest').takeWhile (!isBracket ·))) =
            some ((c :: rest').takeWhile (!isBracket ·)) := by
        refine slice?_eq_some_iff.mpr ⟨before ++ ['<'] ++ name,
          (c :: rest').dropWhile (!isBracket ·), ?_, rfl, rfl⟩
        rw [List.takeWhile_append_dropWhile, List.append_assoc, append_of_readName? hread, hstart]
      simp only [if_pos ((Cursor.peek_between_eq_iff (by decide) (by decide)).mpr hlast),
        Cursor.peek_between_cons_eq_iff (show '/'.toNat < 128 by decide),
        Cursor.peek_between_cons_eq_iff (show '>'.toNat < 128 by decide),
        Cursor.apply_peek_between alikeBeyondASCII_isGap, ← setOff_takeWhile_iff hmore,
        Cursor.offset_between, hslice, Option.bind_some]
      rw [hmore, Cursor.advance_between (by decide)]
      cases setOff ((c :: rest').takeWhile (!isBracket ·)) with
      | true => simp [source]
      | false => rfl
    · simp only [if_neg (mt (Cursor.peek_between_eq_iff (by decide) (by decide)).mp hlast), ite_self]
      split
      · rename_i hdrop
        rw [hdrop] at hlast
        exact absurd rfl hlast
      · rfl

/-- The tag in front of a cursor is read as it is read of the text. -/
theorem tagAt?_between (h : before ++ '<' :: rest = text) :
    tagAt? text (.between before ('<' :: rest)) = some ((read? ('<' :: rest)).map fun read =>
      (read.1.shape, .between (before ++ read.1.source) read.2)) := by
  rw [tagAt?, Cursor.advance_between (by decide)]
  by_cases hslash : rest.head? = some '/'
  · obtain ⟨rest, rfl⟩ := List.head?_eq_some_iff.mp hslash
    rw [if_pos ((Cursor.peek_between_eq_iff (by decide) (by decide)).mpr hslash),
      Cursor.advance_between (by decide), List.append_assoc]
    exact closerAt?_between h
  · rw [if_neg (mt (Cursor.peek_between_eq_iff (by decide) (by decide)).mp hslash),
      openerAt?_between h, read?]
    rintro rest rfl
    exact hslash rfl

end Tag

/-! ### The document -/

namespace Document

/-- What the tags behind a cursor say, with the stretches that they cover. -/
def scanBytes? (text : List Char) (cursor : Cursor) : Option (List (Tag.Shape × Span)) :=
  if cursor.left = [] then some []
  else if cursor.peek = '<' then do
    match ← Tag.tagAt? text cursor with
    | some (shape, behind) =>
      if behind.left.length < cursor.left.length then
        let tags ← scanBytes? text behind
        return (shape, ⟨cursor.place, behind.place⟩) :: tags
      else none
    | none => scanBytes? text cursor.advance
  else scanBytes? text cursor.advance
termination_by cursor.left.length
decreasing_by
  · assumption
  · exact Cursor.length_left_advance_lt ‹_›
  · exact Cursor.length_left_advance_lt ‹_›

variable {text before rest : List Char}

theorem scanBytes?_nil (before : List Char) : scanBytes? text (.between before []) = some [] := by
  rw [scanBytes?]
  exact if_pos rfl

/-- A tag is passed as a whole. -/
theorem scanBytes?_of_read? {tag : Tag} {behind : List Char} (h : before ++ '<' :: rest = text)
    (hread : Tag.read? ('<' :: rest) = some (tag, behind)) :
    scanBytes? text (.between before ('<' :: rest)) =
      (scanBytes? text (.between (before ++ tag.source) behind)).map
        ((tag.shape, .over (Position.start.after before) tag.source) :: ·) := by
  have hspan : (⟨(Cursor.between before ('<' :: rest)).place,
      (Cursor.between (before ++ tag.source) behind).place⟩ : Span) =
        .over (Position.start.after before) tag.source := by
    rw [Cursor.between, Cursor.between, Span.over, Position.after_append]
  have hlt := Cursor.length_left_between_lt (Tag.source_append_of_read? hread)
    (Tag.length_lt_of_read? hread) before (before ++ tag.source)
  rw [scanBytes?, if_neg (Cursor.left_between_cons_ne_nil _ _ _),
    if_pos ((Cursor.peek_between_cons_eq_iff (by decide)).mpr rfl), Tag.tagAt?_between h, hread]
  simp only [Option.map_some, Option.bind_eq_bind, Option.bind_some, hlt, if_true, hspan]
  exact Option.map_eq_bind.symm

/-- A character that begins no tag is passed, byte by byte. -/
theorem scanBytes?_of_read?_eq_none {c : Char} (h : before ++ c :: rest = text)
    (hread : Tag.read? (c :: rest) = none) :
    scanBytes? text (.between before (c :: rest)) =
      scanBytes? text (.between (before ++ [c]) rest) := by
  rcases eq_or_ne c '<' with rfl | hc
  · rw [scanBytes?, if_neg (Cursor.left_between_cons_ne_nil _ _ _),
      if_pos ((Cursor.peek_between_cons_eq_iff (by decide)).mpr rfl), Tag.tagAt?_between h, hread,
      Cursor.advance_between (by decide)]
    rfl
  · refine Cursor.eq_of_passes (alikeBeyondASCII_eq (d := '<') (by decide)) ?_
      (decide_eq_false hc) before rest
    intro cursor hleft hpeek
    rw [scanBytes?, if_neg hleft, if_neg (of_decide_eq_false hpeek)]

/-- Byte by byte the same tags are found in the same places. -/
theorem scanBytes?_between (h : before ++ rest = text) :
    scanBytes? text (.between before rest) =
      some ((occurrences (Position.start.after before) (segments rest)).map
        fun o => (o.tag.shape, o.span)) := by
  fun_induction segments rest generalizing before with
  | case1 => exact scanBytes?_nil before
  | case2 c rest tag behind hread _ ih =>
    obtain rfl : c = '<' := by
      by_contra hc
      rw [Tag.read?_eq_none_of_ne hc] at hread
      cases hread
    have hrest : before ++ tag.source ++ behind = text := by
      rw [List.append_assoc, Tag.source_append_of_read? hread]
      exact h
    rw [scanBytes?_of_read? h hread, ih hrest, Position.after_append]
    rfl
  | case3 c rest hread ih =>
    have hrest : before ++ [c] ++ rest = text := by
      rw [List.append_assoc]
      exact h
    rw [scanBytes?_of_read?_eq_none h hread, ih hrest, Position.after_append]
    rfl

/-! ### Empty elements -/

/-- Whether the next of the later tags is a closer of an element that opens in front of an offset,
with nothing but blanks in between. -/
def closesNext? (text : List Char) (name : String) (stop : Nat) : List Occurrence → Option Bool
  | [] => some false
  | next :: _ =>
    if next.tag.kind = .closing ∧ next.tag.name = name then
      (slice? text stop next.span.start.offset).map fun between => decide (trim between = [])
    else some false

/-- Whether a tag opens an element that holds nothing but blanks, told by the tags behind it. -/
def isEmpty? (text : List Char) (o : Occurrence) (later : List Occurrence) : Option Bool :=
  match o.tag.kind with
  | .opening => closesNext? text o.tag.name o.span.stop.offset later
  | .selfClosing => some true
  | .closing => some false

/-- The same for each of a list of tags. -/
def emptiness? (text : List Char) : List Occurrence → Option (List Bool)
  | [] => some []
  | o :: later => do
    let empty ← isEmpty? text o later
    let others ← emptiness? text later
    return empty :: others

/-- The closer that comes next among the tags is the one that comes next among the segments. Pending
is the text between the opener and the segments. -/
theorem closesNext?_occurrences (name : List Char) (segs : List Segment)
    (before pending : List Char) (p : Position) (hp : p.offset = byteLength (before ++ pending)) :
    closesNext? (before ++ (pending ++ segs.flatMap Segment.source)) (String.ofList name)
        (byteLength before) (occurrences p segs) =
      some (pending.all isBlank && closesAtOnce name segs) := by
  induction segs generalizing pending p with
  | nil => simp [closesNext?, occurrences, closesAtOnce]
  | cons seg segs ih =>
    cases seg with
    | text c =>
      have hoffset : (p.next c).offset = byteLength (before ++ (pending ++ [c])) := by
        rw [Position.next_offset, hp, ← List.append_assoc, byteLength_append _ [c]]
        rfl
      have hrest := ih (pending ++ [c]) (p.next c) hoffset
      simpa [occurrences, closesAtOnce, Segment.source, Bool.and_assoc] using hrest
    | tag t =>
      have hslice := slice?_append before pending ((Segment.tag t :: segs).flatMap Segment.source)
      rw [← hp] at hslice
      rw [occurrences, closesNext?]
      simp only [Span.over, hslice]
      cases t with
      | opener closed raw =>
        have hkind : (Tag.opener closed raw).kind ≠ .closing := by
          rw [Tag.kind]
          split <;> simp
        simp [hkind, closesAtOnce]
      | closer closed gap =>
        have hname : (Tag.closer closed gap).name = String.ofList name ↔ closed = name :=
          String.ofList_inj
        have hblank : decide (trim pending = []) = pending.all isBlank := by
          rw [Bool.eq_iff_iff, decide_eq_true_iff, trim_eq_nil_iff, List.all_eq_true]
        simp only [Tag.kind, hname, closesAtOnce, true_and, Option.map_some, hblank]
        by_cases hclosed : closed = name
        · rw [if_pos hclosed, decide_eq_true hclosed, Bool.and_true]
        · rw [if_neg hclosed, decide_eq_false hclosed, Bool.and_false]

/-- The next tag tells whether the text behind a tag makes its element an empty one. -/
theorem isEmpty?_occurrences {t : Tag} {segs : List Segment} (hwf : t.WellFormed)
    (hsegs : Faithful segs) (before : List Char) (p : Position) (hp : p.offset = byteLength before) :
    isEmpty? (before ++ (t.source ++ segs.flatMap Segment.source)) ⟨t, .over p t.source⟩
        (occurrences (p.after t.source) segs) =
      some (t.isOpening && decide (Occurrence.IsEmptyIn
        (before ++ (t.source ++ segs.flatMap Segment.source)) ⟨t, .over p t.source⟩)) := by
  cases hopening : t.isOpening with
  | false =>
    have hkind : t.kind = .closing := by simpa [Tag.isOpening] using hopening
    simp only [isEmpty?, hkind, Bool.false_and]
  | true =>
    rw [Bool.true_and, ← opensEmpty_eq_decide hwf hopening hsegs before p hp]
    cases hwf with
    | closer _ _ => cases hopening
    | @opener name raw _ _ =>
      have hafter : (p.after (Tag.opener name raw).source).offset =
          byteLength (before ++ (Tag.opener name raw).source) := by
        rw [Position.after_offset, hp, byteLength_append]
      have hnext := closesNext?_occurrences name segs (before ++ (Tag.opener name raw).source) []
        (p.after (Tag.opener name raw).source) (by rw [hafter, List.append_nil])
      rw [List.nil_append, List.append_assoc, ← hafter] at hnext
      rw [isEmpty?, Tag.opensEmpty, Tag.kind]
      cases Tag.endsInSlash raw with
      | true => rfl
      | false => exact hnext

/-- What the next tags tell is which elements are empty. -/
theorem emptiness?_occurrences {segs : List Segment} (h : Faithful segs) (before : List Char)
    (p : Position) (hp : p.offset = byteLength before) :
    emptiness? (before ++ segs.flatMap Segment.source) (occurrences p segs) =
      some ((occurrences p segs).map fun o =>
        o.tag.isOpening && decide (o.IsEmptyIn (before ++ segs.flatMap Segment.source))) := by
  induction h generalizing before p with
  | nil => rfl
  | @text c rest _ _ ih =>
    have hnext : (p.next c).offset = byteLength (before ++ [c]) := by
      rw [Position.next_offset, hp, byteLength_append]
      rfl
    simpa [occurrences, Segment.source] using ih (before ++ [c]) (p.next c) hnext
  | @tag t rest hwf hrest ih =>
    have hafter : (p.after t.source).offset = byteLength (before ++ t.source) := by
      rw [Position.after_offset, hp, byteLength_append]
    have hothers := ih (before ++ t.source) (p.after t.source) hafter
    rw [List.append_assoc] at hothers
    rw [occurrences, List.flatMap_cons, Segment.source, emptiness?, hothers,
      isEmpty?_occurrences hwf hrest before p hp]
    rfl

/-! ### The document as a whole -/

/-- A slice is defined just if its offsets are in order, in bounds and inside no character, and no
slice is undefined of those that are taken when documents and attribute texts are read byte by byte,
when the text between the components of a document is kept, and when the text between a tag and the
next is looked at. What is found in this way is what is found by characters. -/
theorem slices_defined (source : String) :
    (∀ (text : List Char) (start stop : Nat), (slice? text start stop).isSome ↔
      start ≤ stop ∧ stop ≤ (bytes text).length ∧ IsBoundary text start ∧ IsBoundary text stop) ∧
    scanBytes? source.toList (.between [] source.toList) =
      some ((scan source).map fun o => (o.tag.shape, o.span)) ∧
    (∀ text, Attribute.scanBytes? text (.between [] text) = some (Attribute.scan text)) ∧
    splice? source.toList 0 ((scan source).filterMap Occurrence.edit?) =
      some (compile source).toList ∧
    emptiness? source.toList (scan source) =
      some ((scan source).map fun o => o.tag.isOpening && decide (o.IsEmptyIn source.toList)) := by
  refine ⟨fun _ _ _ => isSome_slice?_iff, scanBytes?_between rfl, Attribute.scanBytes?_eq,
    splice?_filterMap_edit? source, ?_⟩
  have hempty := emptiness?_occurrences (faithful_segments source.toList) [] .start rfl
  rwa [flatMap_source_segments, List.nil_append] at hempty

end Document

end LayoutMarkup

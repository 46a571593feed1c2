import LayoutMarkup.Tag
import LayoutMarkup.Proofs.Text.Run

/-!
# The grammar of tags

The grammar is stated on its own, as a predicate on written tags, and the reader is shown to accept
just what the grammar allows. A well-formed tag holds `<` only as its first character and `>` only
as its last. This is what keeps tags apart: none begins inside another, and whether one begins at a
place is decided by the text up to the next bracket.

## Main definitions

* `Tag.IsName`, `Tag.IsRaw` — the parts of a tag
* `Tag.WellFormed` — the tags that the grammar allows
* `Tag.Spells` — a text as a tag with a name, a shape and attribute text

## Main results

* `Tag.read?_eq_some_iff` — a tag is read if and only if it is well-formed and stands in front
* `Tag.spells_iff` — the same grammar, on what a tag says
* `Tag.isSome_read?_congr` — reading depends on the text up to the next `<`
* `Tag.isSome_read?_of_append` — reading depends on the text up to a bracket
-/

namespace LayoutMarkup.Tag

open Text

variable {text rest name raw gap : List Char} {tag : Tag} {c : Char}

/-- A tag name: an ASCII letter or an underscore, then letters, digits and underscores. -/
def IsName (name : List Char) : Prop :=
  ∃ c word, name = c :: word ∧ isNameStart c = true ∧ ∀ d ∈ word, isWordChar d = true

/-- What may stand between the name of an opener and `>`: text without angle brackets that is empty
or begins with a gap or a slash. -/
def IsRaw (raw : List Char) : Prop :=
  (∀ c ∈ raw, c ≠ '<' ∧ c ≠ '>') ∧
    (raw = [] ∨ ∃ c behind, raw = c :: behind ∧ (isGap c = true ∨ c = '/'))

/-- The tags that the grammar allows. -/
inductive WellFormed : Tag → Prop
  | opener {name raw : List Char} : IsName name → IsRaw raw → WellFormed (opener name raw)
  | closer {name gap : List Char} :
      IsName name → (∀ c ∈ gap, isGap c = true) → WellFormed (closer name gap)

/-! ### Characters -/

theorem isBracket_eq_false_iff : isBracket c = false ↔ c ≠ '<' ∧ c ≠ '>' := by
  simp [isBracket]

theorem IsName.forall_isWordChar (h : IsName name) : ∀ c ∈ name, isWordChar c = true := by
  obtain ⟨c, word, rfl, hc, hword⟩ := h
  intro d hd
  rcases List.mem_cons.mp hd with rfl | hd
  · exact isWordChar_of_isNameStart hc
  · exact hword d hd

theorem isBracket_eq_false_of_isWordChar (h : isWordChar c = true) : isBracket c = false := by
  rw [isBracket_eq_false_iff]
  constructor <;> rintro rfl <;> contradiction

theorem isBracket_eq_false_of_isGap (h : isGap c = true) : isBracket c = false := by
  rw [isBracket_eq_false_iff]
  constructor <;> rintro rfl <;> contradiction

theorem IsName.isBracket_eq_false (h : IsName name) : ∀ c ∈ name, isBracket c = false :=
  fun c hc => isBracket_eq_false_of_isWordChar (h.forall_isWordChar c hc)

theorem setOff_iff :
    setOff raw = true ↔ raw = [] ∨ ∃ c behind, raw = c :: behind ∧ (isGap c = true ∨ c = '/') := by
  cases raw with
  | nil => simp [setOff]
  | cons c behind => simp [setOff]

/-- The name of an opener ends in front of its raw text. -/
theorem IsRaw.stopsAt_isWordChar (h : IsRaw raw) (rest : List Char) :
    StopsAt isWordChar (raw ++ '>' :: rest) := by
  rcases h.2 with rfl | ⟨c, behind, rfl, hc⟩
  · exact stopsAt_cons_iff.mpr (by decide)
  · rw [List.cons_append, stopsAt_cons_iff]
    rcases hc with hc | rfl
    · exact isWordChar_eq_false_of_isGap hc
    · decide

/-- The name of a closer ends in front of the gaps behind it. -/
theorem stopsAt_isWordChar_of_gap (h : ∀ c ∈ gap, isGap c = true) (rest : List Char) :
    StopsAt isWordChar (gap ++ '>' :: rest) := by
  cases gap with
  | nil => exact stopsAt_cons_iff.mpr (by decide)
  | cons c gap =>
    rw [List.cons_append, stopsAt_cons_iff]
    exact isWordChar_eq_false_of_isGap (h c List.mem_cons_self)

/-! ### Reading -/

/-- A name is read as far as its characters go. -/
theorem readName?_eq_some_iff : readName? text = some (name, rest) ↔
    IsName name ∧ StopsAt isWordChar rest ∧ name ++ rest = text := by
  constructor
  · intro h
    have happend := append_of_readName? h
    unfold readName? at h
    split at h
    · cases h
    · rename_i c text
      split at h
      · rename_i hc
        cases h
        refine ⟨⟨c, text.takeWhile isWordChar, ?_, hc, ?_⟩, stopsAt_dropWhile _ _, happend⟩
        · exact List.takeWhile_cons_of_pos (isWordChar_of_isNameStart hc)
        · exact fun d hd => List.mem_takeWhile_imp hd
      · cases h
  · rintro ⟨hname, hrest, rfl⟩
    have hword := hname.forall_isWordChar
    obtain ⟨c, word, rfl, hc, -⟩ := hname
    rw [List.cons_append, readName?, if_pos hc, ← List.cons_append,
      takeWhile_append_of_stopsAt hword hrest, dropWhile_append_of_stopsAt hword hrest]

theorem readOpener?_eq_some_iff : readOpener? text = some (tag, rest) ↔
    ∃ name raw, tag = opener name raw ∧ IsName name ∧ IsRaw raw ∧
      name ++ (raw ++ '>' :: rest) = text := by
  constructor
  · intro h
    unfold readOpener? at h
    split at h
    · cases h
    · rename_i name behind hname
      obtain ⟨hisName, -, rfl⟩ := readName?_eq_some_iff.mp hname
      split at h
      · rename_i rest' hdrop
        split at h
        · rename_i hset
          cases h
          refine ⟨name, behind.takeWhile (!isBracket ·), rfl, hisName, ⟨?_, setOff_iff.mp hset⟩, ?_⟩
          · intro c hc
            exact isBracket_eq_false_iff.mp (by simpa using List.mem_takeWhile_imp hc)
          · rw [← hdrop, List.takeWhile_append_dropWhile]
        · cases h
      · cases h
  · rintro ⟨name, raw, rfl, hname, hraw, rfl⟩
    have hread := readName?_eq_some_iff.mpr ⟨hname, hraw.stopsAt_isWordChar rest, rfl⟩
    have hrun : ∀ c ∈ raw, (!isBracket c) = true := by
      intro c hc
      simpa using isBracket_eq_false_iff.mpr (hraw.1 c hc)
    have hstop : StopsAt (!isBracket ·) ('>' :: rest) := stopsAt_cons_iff.mpr (by decide)
    simp only [readOpener?, hread, takeWhile_append_of_stopsAt hrun hstop,
      dropWhile_append_of_stopsAt hrun hstop, setOff_iff.mpr hraw.2, if_true]

theorem readCloser?_eq_some_iff : readCloser? text = some (tag, rest) ↔
    ∃ name gap, tag = closer name gap ∧ IsName name ∧ (∀ c ∈ gap, isGap c = true) ∧
      name ++ (gap ++ '>' :: rest) = text := by
  constructor
  · intro h
    unfold readCloser? at h
    split at h
    · cases h
    · rename_i name behind hname
      obtain ⟨hisName, -, rfl⟩ := readName?_eq_some_iff.mp hname
      split at h
      · rename_i rest' hdrop
        cases h
        refine ⟨name, behind.takeWhile isGap, rfl, hisName, ?_, ?_⟩
        · exact fun c hc => List.mem_takeWhile_imp hc
        · rw [← hdrop, List.takeWhile_append_dropWhile]
      · cases h
  · rintro ⟨name, gap, rfl, hname, hgap, rfl⟩
    have hread := readName?_eq_some_iff.mpr ⟨hname, stopsAt_isWordChar_of_gap hgap rest, rfl⟩
    have hstop : StopsAt isGap ('>' :: rest) := stopsAt_cons_iff.mpr (by decide)
    simp only [readCloser?, hread, takeWhile_append_of_stopsAt hgap hstop,
      dropWhile_append_of_stopsAt hgap hstop]

/-- A tag is read if and only if it is well-formed and stands in front. -/
theorem read?_eq_some_iff :
    read? text = some (tag, rest) ↔ tag.WellFormed ∧ tag.source ++ rest = text := by
  constructor
  · intro h
    refine ⟨?_, source_append_of_read? h⟩
    unfold read? at h
    split at h
    · obtain ⟨name, gap, rfl, hname, hgap, -⟩ := readCloser?_eq_some_iff.mp h
      exact .closer hname hgap
    · obtain ⟨name, raw, rfl, hname, hraw, -⟩ := readOpener?_eq_some_iff.mp h
      exact .opener hname hraw
    · cases h
  · rintro ⟨hwf, rfl⟩
    cases hwf with
    | @opener name raw hname hraw =>
      have hread : readOpener? (name ++ (raw ++ '>' :: rest)) = some (opener name raw, rest) :=
        readOpener?_eq_some_iff.mpr ⟨name, raw, rfl, hname, hraw, rfl⟩
      obtain ⟨c, word, rfl, hc, -⟩ := hname
      -- A name does not begin with a slash, so this text is no closer's.
      have hslash : c ≠ '/' := by
        rintro rfl
        contradiction
      simp only [source, List.cons_append, List.append_assoc, List.nil_append] at hread ⊢
      rw [read?]
      · exact hread
      · intro text heq
        exact hslash (List.cons.inj heq).1
    | @closer name gap hname hgap =>
      have hread : readCloser? (name ++ (gap ++ '>' :: rest)) = some (closer name gap, rest) :=
        readCloser?_eq_some_iff.mpr ⟨name, gap, rfl, hname, hgap, rfl⟩
      simpa only [source, List.cons_append, List.append_assoc, List.nil_append, read?] using hread

/-! ### Tags do not overlap

A well-formed tag begins with `<` and holds no other, so a tag that begins later than another begins
behind it. -/

/-- The text of a tag behind its `<`. -/
def body (tag : Tag) : List Char := tag.source.tail

theorem source_eq_cons_body (tag : Tag) : tag.source = '<' :: tag.body := by
  cases tag <;> rfl

/-- The only angle brackets of a tag are its first and its last character. -/
theorem WellFormed.exists_body (h : tag.WellFormed) :
    ∃ inner, tag.body = inner ++ ['>'] ∧ ∀ c ∈ inner, isBracket c = false := by
  cases h with
  | @opener name raw hname hraw =>
    refine ⟨name ++ raw, (List.append_assoc name raw ['>']).symm, fun c hc => ?_⟩
    rcases List.mem_append.mp hc with hc | hc
    · exact hname.isBracket_eq_false c hc
    · exact isBracket_eq_false_iff.mpr (hraw.1 c hc)
  | @closer name gap hname hgap =>
    refine ⟨'/' :: name ++ gap, by simp [body, source], fun c hc => ?_⟩
    rcases List.mem_append.mp hc with hc | hc
    · rcases List.mem_cons.mp hc with rfl | hc
      · rfl
      · exact hname.isBracket_eq_false c hc
    · exact isBracket_eq_false_of_isGap (hgap c hc)

theorem WellFormed.lt_notMem_body (h : tag.WellFormed) : '<' ∉ tag.body := by
  obtain ⟨inner, hbody, hinner⟩ := h.exists_body
  rw [hbody, List.mem_append, List.mem_singleton]
  rintro (hmem | heq)
  · exact absurd (hinner _ hmem) (by decide)
  · contradiction

theorem read?_eq_none_of_ne (h : c ≠ '<') (text : List Char) : read? (c :: text) = none := by
  rw [← Option.not_isSome_iff_eq_none, Option.isSome_iff_exists]
  rintro ⟨⟨tag, rest⟩, hread⟩
  have hsource := source_append_of_read? hread
  rw [source_eq_cons_body, List.cons_append, List.cons.injEq] at hsource
  exact h hsource.1.symm

/-- Whether a tag begins at a `<` is decided by the text up to the next one. -/
theorem isSome_read?_congr {s t : List Char}
    (h : s.takeWhile (· ≠ '<') = t.takeWhile (· ≠ '<')) (hread : (read? ('<' :: s)).isSome) :
    (read? ('<' :: t)).isSome := by
  obtain ⟨⟨tag, rest⟩, hread⟩ := Option.isSome_iff_exists.mp hread
  obtain ⟨hwf, hsource⟩ := read?_eq_some_iff.mp hread
  rw [source_eq_cons_body, List.cons_append, List.cons.injEq] at hsource
  have hbody : ∀ c ∈ tag.body, decide (c ≠ '<') = true := by
    intro c hc
    simpa using ne_of_mem_of_not_mem hc hwf.lt_notMem_body
  rw [← hsource.2, List.takeWhile_append_of_pos hbody] at h
  -- So the other text goes on with the body of the same tag.
  have ht : tag.body ++ (rest.takeWhile (· ≠ '<') ++ t.dropWhile (· ≠ '<')) = t := by
    rw [← List.append_assoc, h, List.takeWhile_append_dropWhile]
  have hread' : read? ('<' :: t) =
      some (tag, rest.takeWhile (· ≠ '<') ++ t.dropWhile (· ≠ '<')) :=
    read?_eq_some_iff.mpr ⟨hwf, by rw [source_eq_cons_body, List.cons_append, ht]⟩
  rw [hread', Option.isSome_some]

/-- Whether a tag begins at a `<` is decided by the text up to any bracket behind it. -/
theorem isSome_read?_of_append {behind : List Char} (h : ∃ c ∈ text, isBracket c = true)
    (hread : (read? ('<' :: (text ++ behind))).isSome) : (read? ('<' :: text)).isSome := by
  obtain ⟨⟨tag, rest⟩, hread⟩ := Option.isSome_iff_exists.mp hread
  obtain ⟨hwf, hsource⟩ := read?_eq_some_iff.mp hread
  obtain ⟨inner, hbody, hinner⟩ := hwf.exists_body
  rw [source_eq_cons_body, List.cons_append, List.cons.injEq] at hsource
  have hends : ∃ between, text = tag.body ++ between := by
    rcases List.append_eq_append_iff.mp hsource.2 with ⟨between, htext, -⟩ | ⟨beyond, hbeyond, -⟩
    · exact ⟨between, htext⟩
    rcases List.eq_nil_or_concat beyond with rfl | ⟨beyond, last, rfl⟩
    · exact ⟨[], by rw [hbeyond, List.append_nil, List.append_nil]⟩
    · -- A tag that went on behind the text would hold the bracket of the text.
      rw [hbody, List.concat_eq_append, ← List.append_assoc] at hbeyond
      have hinside := (List.append_inj' hbeyond rfl).1
      obtain ⟨c, hc, hbracket⟩ := h
      rw [hinner c (hinside ▸ List.mem_append_left _ hc)] at hbracket
      contradiction
  obtain ⟨between, htext⟩ := hends
  have hread' : read? ('<' :: text) = some (tag, between) :=
    read?_eq_some_iff.mpr ⟨hwf, by rw [source_eq_cons_body, List.cons_append, htext]⟩
  rw [hread', Option.isSome_some]

/-! ### What a tag says -/

/-- A text as a tag that says the name, the shape and the attribute text given. -/
inductive Spells : List Char → String → Kind → List Char → Prop
  /-- An opener whose raw text does not end in a slash and blanks. -/
  | opening {name raw : List Char} : IsName name → IsRaw raw →
      (∀ attrs blanks, (∀ c ∈ blanks, isBlank c = true) → raw ≠ attrs ++ '/' :: blanks) →
      Spells ('<' :: (name ++ (raw ++ ['>']))) (String.ofList name) .opening raw
  /-- An opener whose raw text ends in a slash and blanks; these are no attribute text. -/
  | selfClosing {name attrs blanks : List Char} : IsName name → IsRaw (attrs ++ '/' :: blanks) →
      (∀ c ∈ blanks, isBlank c = true) →
      Spells ('<' :: (name ++ (attrs ++ '/' :: blanks ++ ['>']))) (String.ofList name) .selfClosing
        attrs
  /-- A closer. -/
  | closing {name gap : List Char} : IsName name → (∀ c ∈ gap, isGap c = true) →
      Spells ('<' :: '/' :: (name ++ (gap ++ ['>']))) (String.ofList name) .closing []

/-- Raw text that ends in a slash and blanks is trimmed to the text up to the slash. -/
theorem trimEnd_slash (attrs : List Char) {blanks : List Char}
    (h : ∀ c ∈ blanks, isBlank c = true) : trimEnd (attrs ++ '/' :: blanks) = attrs ++ ['/'] := by
  rw [List.append_cons, trimEnd_append_of_forall_isBlank _ h, trimEnd_concat attrs (by decide)]

theorem endsInSlash_iff : endsInSlash raw = true ↔
    ∃ attrs blanks, (∀ c ∈ blanks, isBlank c = true) ∧ raw = attrs ++ '/' :: blanks := by
  constructor
  · intro h
    -- What is left of the raw text ends in a slash; put back the blanks that were trimmed away.
    obtain ⟨attrs, hattrs⟩ := List.getLast?_eq_some_iff.mp (beq_iff_eq.mp h)
    obtain ⟨blanks, hraw, hblanks⟩ := exists_trimEnd_append raw
    refine ⟨attrs, blanks, hblanks, ?_⟩
    rw [List.append_cons, ← hattrs, hraw]
  · rintro ⟨attrs, blanks, hblanks, rfl⟩
    simp [endsInSlash, trimEnd_slash attrs hblanks]

/-- Behind a character that is no blank, only that character counts. -/
theorem endsInSlash_concat (raw : List Char) (h : isBlank c = false) :
    endsInSlash (raw ++ [c]) = (c == '/') := by
  rw [endsInSlash, trimEnd_concat raw h, List.getLast?_concat]
  rfl

/-- Attribute text is part of the raw text, so it holds no angle brackets. -/
theorem WellFormed.forall_mem_attrs (h : tag.WellFormed) : ∀ c ∈ tag.attrs, c ≠ '<' ∧ c ≠ '>' := by
  cases h with
  | @opener name raw hname hraw =>
    intro c hc
    apply hraw.1
    by_cases hslash : endsInSlash raw = true
    · obtain ⟨front, blanks, hblanks, rfl⟩ := endsInSlash_iff.mp hslash
      simp only [attrs, hslash, if_true, trimEnd_slash front hblanks, List.dropLast_concat] at hc
      exact List.mem_append_left _ hc
    · simpa [attrs, hslash] using hc
  | closer _ _ => simp [attrs]

/-- A text says what a well-formed tag of that text says. -/
theorem spells_iff {written attrs : List Char} {name : String} {kind : Kind} :
    Spells written name kind attrs ↔ ∃ tag : Tag, tag.WellFormed ∧ tag.source = written ∧
      tag.name = name ∧ tag.kind = kind ∧ tag.attrs = attrs := by
  constructor
  · intro h
    cases h with
    | @opening name _ hname hraw hend =>
      have hslash : endsInSlash attrs = false := by
        rw [← Bool.not_eq_true, endsInSlash_iff]
        rintro ⟨front, blanks, hblanks, heq⟩
        exact hend front blanks hblanks heq
      exact ⟨opener name attrs, .opener hname hraw, rfl, rfl, by simp [Tag.kind, hslash],
        by simp [Tag.attrs, hslash]⟩
    | @selfClosing name _ blanks hname hraw hblanks =>
      have hslash := endsInSlash_iff.mpr ⟨attrs, blanks, hblanks, rfl⟩
      refine ⟨opener name (attrs ++ '/' :: blanks), .opener hname hraw, rfl, rfl, ?_, ?_⟩
      · simp [Tag.kind, hslash]
      · simp [Tag.attrs, hslash, trimEnd_slash attrs hblanks]
    | @closing name gap hname hgap =>
      exact ⟨closer name gap, .closer hname hgap, rfl, rfl, rfl, rfl⟩
  · rintro ⟨tag, hwf, rfl, rfl, rfl, rfl⟩
    cases hwf with
    | @opener name raw hname hraw =>
      by_cases hslash : endsInSlash raw = true
      · obtain ⟨attrs, blanks, hblanks, rfl⟩ := endsInSlash_iff.mp hslash
        have hspells := Spells.selfClosing hname hraw hblanks
        simpa [Tag.source, Tag.name, Tag.kind, Tag.attrs, hslash, trimEnd_slash attrs hblanks]
          using hspells
      · have hspells := Spells.opening hname hraw fun attrs blanks hblanks heq =>
          hslash (endsInSlash_iff.mpr ⟨attrs, blanks, hblanks, heq⟩)
        simpa [Tag.source, Tag.name, Tag.kind, Tag.attrs, hslash] using hspells
    | @closer name gap hname hgap => exact Spells.closing hname hgap

end LayoutMarkup.Tag

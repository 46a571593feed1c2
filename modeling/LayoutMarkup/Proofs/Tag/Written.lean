import LayoutMarkup.Proofs.Props.Written

/-!
# Tags with written attributes

A tag can be put together from a name and attributes. If the attributes are writable and their texts
are plain, nothing in them ends the tag early, makes it self-closing, or ends an attribute early:
the tag is well-formed, it opens an element, and its props are the attributes.

## Main definitions

* `Tag.withAttributes` — the tag with a name and attributes

## Main results

* `Tag.wellFormed_withAttributes` — it is a tag
* `Tag.kind_withAttributes`, `Tag.attrs_withAttributes` — it opens an element
* `Tag.entries_props_withAttributes` — its props are the attributes
-/

namespace LayoutMarkup

open Text

namespace Attribute

variable {entry : Attribute} {entries : List Attribute} {name : List Char} {c : Char}

theorem IsName.ne_bracket (h : IsName name) (hc : c ∈ name) : c ≠ '<' ∧ c ≠ '>' := by
  rcases h.isNameTail.forall_mem c hc with hc | rfl
  · exact Tag.isBracket_eq_false_iff.mp (Tag.isBracket_eq_false_of_isWordChar hc)
  · decide

/-- A writable attribute with a plain text is written without angle brackets. -/
theorem forall_mem_written (h : entry.Writable)
    (hplain : ∀ value, entry.value = .text value → IsPlain value.toList) :
    ∀ c ∈ entry.written, c ≠ '<' ∧ c ≠ '>' := by
  obtain ⟨name, value⟩ := entry
  have hname : ∀ c ∈ name.toList, c ≠ '<' ∧ c ≠ '>' := fun _ hc => h.isName.ne_bracket hc
  -- Around the name and the value stand only a space, `=`, quotation marks and braces.
  cases value with
  | flag =>
    simp only [written, Item.ofAttribute, Item.source, List.forall_mem_cons]
    exact ⟨by decide, hname⟩
  | text value =>
    have hvalue : ∀ c ∈ value.toList, c ≠ '<' ∧ c ≠ '>' :=
      fun c hc => (isPlain_iff.mp (hplain value rfl c hc)).1
    simp only [written, Item.ofAttribute, Item.source, List.forall_mem_cons, List.forall_mem_append]
    exact ⟨by decide, hname, by decide, by decide, hvalue, by decide, List.forall_mem_nil _⟩
  | number n =>
    have hdigits : ∀ c ∈ Decimal.write n.toNat, c ≠ '<' ∧ c ≠ '>' := by
      intro c hc
      have hword := isWordChar_of_isDigit (Decimal.isDigit_of_mem_write hc)
      exact Tag.isBracket_eq_false_iff.mp (Tag.isBracket_eq_false_of_isWordChar hword)
    simp only [written, Item.ofAttribute, Item.source, List.forall_mem_cons, List.forall_mem_append]
    exact ⟨by decide, hname, by decide, by decide, hdigits, by decide, List.forall_mem_nil _⟩

/-- Attributes written without angle brackets may stand in an opener. -/
theorem isRaw_flatMap_written (h : ∀ entry ∈ entries, ∀ c ∈ entry.written, c ≠ '<' ∧ c ≠ '>') :
    Tag.IsRaw (entries.flatMap written) := by
  constructor
  · intro c hc
    obtain ⟨entry, hentry, hc⟩ := List.mem_flatMap.mp hc
    exact h entry hentry c hc
  · cases entries with
    | nil => exact Or.inl rfl
    | cons entry entries => exact Or.inr ⟨' ', _, rfl, Or.inl rfl⟩

/-- An attribute ends in the last character of its name, in a quotation mark or in a brace. -/
theorem exists_written_eq_concat (h : entry.value = .flag → IsName entry.name.toList) :
    ∃ front c, entry.written = front ++ [c] ∧ isBlank c = false ∧ c ≠ '/' := by
  obtain ⟨name, value⟩ := entry
  cases value with
  | flag =>
    have hname := h rfl
    obtain ⟨front, c, hconcat⟩ := List.eq_nil_or_concat name.toList |>.resolve_left (by
      rintro hnil
      obtain ⟨d, tail, hcons, -⟩ := hname
      simp [hnil] at hcons)
    -- No name ends in a hyphen.
    have hc : isWordChar c = true := by
      apply hname.isNameTail.isWordChar_of_mem_getLast?
      simp [hconcat]
    refine ⟨' ' :: front, c, ?_, isBlank_eq_false_of_isWordChar hc, ?_⟩
    · simpa [written, Item.ofAttribute, Item.source] using hconcat
    · rintro rfl
      contradiction
  | text value =>
    refine ⟨' ' :: (name.toList ++ '=' :: '"' :: value.toList), '"', ?_, by decide, by decide⟩
    simp [written, Item.ofAttribute, Item.source]
  | number n =>
    refine ⟨' ' :: (name.toList ++ '=' :: '{' :: Decimal.write n.toNat), '}', ?_, by decide,
      by decide⟩
    simp [written, Item.ofAttribute, Item.source]

end Attribute

namespace Tag

variable {name : List Char} {entries : List Attribute}

/-- Written attributes do not make their tag self-closing. -/
theorem endsInSlash_flatMap_written
    (h : ∀ entry ∈ entries, entry.value = .flag → Attribute.IsName entry.name.toList) :
    endsInSlash (entries.flatMap Attribute.written) = false := by
  rcases List.eq_nil_or_concat entries with rfl | ⟨front, entry, rfl⟩
  · rfl
  · -- Only the last character of the last attribute counts, and it is neither a blank nor a slash.
    rw [List.concat_eq_append] at h ⊢
    obtain ⟨start, c, hwritten, hblank, hslash⟩ :=
      Attribute.exists_written_eq_concat (h entry List.mem_concat_self)
    rw [List.flatMap_append, List.flatMap_singleton, hwritten, ← List.append_assoc,
      endsInSlash_concat _ hblank]
    simpa using hslash

/-- The opening tag with a name and attributes. -/
def withAttributes (name : List Char) (entries : List Attribute) : Tag :=
  .opener name (entries.flatMap Attribute.written)

theorem wellFormed_withAttributes (hname : IsName name)
    (hentries : ∀ entry ∈ entries, entry.Writable)
    (hplain : ∀ entry ∈ entries, ∀ value, entry.value = .text value → IsPlain value.toList) :
    (withAttributes name entries).WellFormed :=
  .opener hname (Attribute.isRaw_flatMap_written fun entry h =>
    Attribute.forall_mem_written (hentries entry h) (hplain entry h))

theorem kind_withAttributes (h : ∀ entry ∈ entries, entry.value = .flag →
    Attribute.IsName entry.name.toList) : (withAttributes name entries).kind = .opening := by
  rw [withAttributes, kind, endsInSlash_flatMap_written h]
  rfl

theorem attrs_withAttributes (h : ∀ entry ∈ entries, entry.value = .flag →
    Attribute.IsName entry.name.toList) :
    (withAttributes name entries).attrs = entries.flatMap Attribute.written := by
  rw [withAttributes, attrs, endsInSlash_flatMap_written h]
  rfl

/-- The props of the tag are its attributes, the values in front of the flags. -/
theorem entries_props_withAttributes (hentries : ∀ entry ∈ entries, entry.Writable)
    (hnames : (entries.map Attribute.name).Nodup) : (withAttributes name entries).props.entries =
      entries.filter (!·.value.isFlag) ++ entries.filter (·.value.isFlag) := by
  rw [props, attrs_withAttributes fun entry h _ => (hentries entry h).isName]
  exact Props.entries_read_flatMap_written hentries hnames

end Tag

end LayoutMarkup

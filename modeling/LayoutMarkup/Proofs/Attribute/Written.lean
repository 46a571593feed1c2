import LayoutMarkup.Proofs.Attribute.Scan

/-!
# Written attributes

An attribute has one written form, and the form says all that there is to know of it, provided that
its name is one and that its text, if it has any, can stand between quotation marks. Every attribute
that is read is of this kind. Attributes written one behind the other read back as they are: each
begins with a space, and what stands in front of a space and a name is neither a shorter name nor
followed by `=`.

## Main definitions

* `Attribute.Writable` — the attributes that read back from their written form

## Main results

* `Attribute.read_flatMap_written` — written attributes read back
* `Attribute.writable_of_mem_read` — an attribute that is read is writable
-/

namespace LayoutMarkup.Attribute

open Text

variable {entry : Attribute} {entries : List Attribute} {text gap : List Char}

/-- An attribute that reads back from its written form: it has a name, and its text, if it has any,
can stand between quotation marks. -/
structure Writable (entry : Attribute) : Prop where
  isName : IsName entry.name.toList
  isQuotable : ∀ value, entry.value = .text value → IsQuotable value.toList

instance : DecidablePred Writable
  | ⟨name, .flag⟩ =>
    decidable_of_iff (IsName name.toList) ⟨fun h => ⟨h, nofun⟩, fun h => h.isName⟩
  | ⟨name, .text value⟩ =>
    decidable_of_iff (IsName name.toList ∧ value.toList ≠ [] ∧ '"' ∉ value.toList)
      ⟨fun h => ⟨h.1, fun _ heq => PropValue.text.inj heq ▸ h.2⟩,
        fun h => ⟨h.isName, h.isQuotable value rfl⟩⟩
  | ⟨name, .number _⟩ =>
    decidable_of_iff (IsName name.toList) ⟨fun h => ⟨h, nofun⟩, fun h => h.isName⟩

/-! ### What stands behind a written attribute -/

/-- The text of an attribute begins with its name. -/
theorem exists_source_ofAttribute_eq (entry : Attribute) :
    ∃ more, (Item.ofAttribute entry).source = entry.name.toList ++ more := by
  obtain ⟨name, value⟩ := entry
  cases value with
  | flag => exact ⟨[], (List.append_nil _).symm⟩
  | text value => exact ⟨_, rfl⟩
  | number n => exact ⟨_, rfl⟩

/-- Written attributes do not go on with a name. -/
theorem goesOn_flatMap_written (entries : List Attribute) :
    goesOn (entries.flatMap written) = false := by
  cases entries with
  | nil => rfl
  | cons entry entries => rfl

/-- Written attributes do not begin with `=`, not even behind gaps. -/
theorem flatMap_written_ne (h : ∀ entry ∈ entries, entry.Writable)
    (hgap : ∀ c ∈ gap, isGap c = true) (behind : List Char) :
    entries.flatMap written ≠ gap ++ '=' :: behind := by
  intro heq
  have hdrop : (entries.flatMap written).dropWhile isGap = '=' :: behind := by
    rw [heq]
    exact dropWhile_append_of_stopsAt hgap (stopsAt_cons_iff.mpr (by decide))
  cases entries with
  | nil => cases hdrop
  | cons entry entries =>
    -- Behind the first space stands the name, whose first character is neither a gap nor `=`.
    obtain ⟨more, hmore⟩ := exists_source_ofAttribute_eq entry
    obtain ⟨c, tail, hname, hc, -⟩ := (h entry List.mem_cons_self).isName
    rw [List.flatMap_cons, written, hmore, hname, List.cons_append,
      List.dropWhile_cons_of_pos (by decide), dropWhile_eq_self_of_stopsAt] at hdrop
    · obtain rfl : c = '=' := (List.cons.inj hdrop).1
      contradiction
    · rw [List.cons_append, List.cons_append, stopsAt_cons_iff, ← Bool.not_eq_true]
      intro hgap
      rw [isWordChar_eq_false_of_isGap hgap] at hc
      contradiction

/-! ### Reading back -/

theorem isNumeral_write (n : UInt32) : IsNumeral (Decimal.write n.toNat) := by
  apply isNumeral_of_isSome_read?
  rw [Decimal.read?_write]
  rfl

/-- In front of other written attributes stands the item of the first. -/
theorem heads_ofAttribute (hentry : entry.Writable) (h : ∀ entry ∈ entries, entry.Writable) :
    Item.Heads ((Item.ofAttribute entry).source ++ entries.flatMap written)
      (Item.ofAttribute entry) (entries.flatMap written) := by
  obtain ⟨name, value⟩ := entry
  cases value with
  | flag =>
    -- A flag is one only if no `=` follows, so what is written behind it matters here.
    refine .flag hentry.isName ?_ fun gap behind hgap => flatMap_written_ne h hgap behind
    exact hentry.isName.endsName_iff.mpr (goesOn_flatMap_written entries)
  | text value =>
    have hheads := Item.Heads.quoted (entries.flatMap written) hentry.isName
      (hentry.isQuotable value rfl)
    simpa [Item.ofAttribute, Item.source] using hheads
  | number n =>
    have hheads := Item.Heads.braced (entries.flatMap written) hentry.isName (isNumeral_write n)
    simpa [Item.ofAttribute, Item.source] using hheads

theorem attribute?_ofAttribute (entry : Attribute) :
    (Item.ofAttribute entry).attribute? = some entry := by
  obtain ⟨name, value⟩ := entry
  cases value <;> simp [Item.ofAttribute, Item.attribute?]

/-- The items of written attributes are their own, with the spaces in front of them. -/
theorem items_flatMap_written (h : ∀ entry ∈ entries, entry.Writable) :
    items (entries.flatMap written) =
      entries.flatMap fun entry => [.filler ' ', Item.ofAttribute entry] := by
  induction entries with
  | nil => exact items_nil
  | cons entry entries ih =>
    -- The space in front of an attribute is an item of its own.
    have hentries : ∀ e ∈ entries, e.Writable := fun e he => h e (List.mem_cons_of_mem _ he)
    have hspace : Item.Heads (entry.written ++ entries.flatMap written) (.filler ' ')
        ((Item.ofAttribute entry).source ++ entries.flatMap written) :=
      .filler _ (by decide)
    have hitem := heads_ofAttribute (h entry List.mem_cons_self) hentries
    rw [List.flatMap_cons, items_of_read? hspace.read?_eq, items_of_read? hitem.read?_eq,
      ih hentries]
    rfl

/-- Written attributes read back. -/
theorem read_flatMap_written (h : ∀ entry ∈ entries, entry.Writable) :
    read (entries.flatMap written) = entries := by
  rw [read, items_flatMap_written h, List.filterMap_flatMap]
  have hitem (entry : Attribute) :
      [.filler ' ', Item.ofAttribute entry].filterMap Item.attribute? = [entry] := by
    rw [List.filterMap_cons_none rfl, List.filterMap_cons_some (attribute?_ofAttribute entry)]
    rfl
  simp only [hitem, List.flatMap_singleton']

/-- An attribute that is read is writable. -/
theorem writable_of_mem_read (h : entry ∈ read text) : entry.Writable := by
  obtain ⟨item, hitem, hstated⟩ := List.mem_filterMap.mp h
  obtain ⟨front, rest, hheads⟩ := (reading_items text).heads_of_mem hitem
  cases hheads with
  | filler _ _ => cases hstated
  | flag hname _ _ =>
    cases hstated
    exact ⟨by simpa using hname, nofun⟩
  | quoted _ hname hvalue =>
    cases hstated
    refine ⟨by simpa using hname, ?_⟩
    rintro _ ⟨⟩
    simpa using hvalue
  | braced _ hname _ =>
    cases hstated
    exact ⟨by simpa using hname, nofun⟩
  | malformed _ _ _ _ => cases hstated

end LayoutMarkup.Attribute

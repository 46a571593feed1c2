import LayoutMarkup.Proofs.Attribute.Grammar
import LayoutMarkup.Proofs.Text.Placed

/-!
# The attributes of a text

Attribute text has one reading by its grammar, and the scanner gives the attributes of that reading
in the places of their items.

## Main definitions

* `Attribute.Reading` — a text read into items by the grammar

## Main results

* `Attribute.reading_iff` — the reading of a text is unique, and it is the one that is made
* `Attribute.located_eq_filterMap_placed` — attributes are in the places of their items
* `Attribute.scan_of_reading` — the attributes of a text are those of its reading
-/

namespace LayoutMarkup.Attribute

open Text

/-- A text read into items, from left to right. -/
inductive Reading : List Char → List Item → Prop
  | nil : Reading [] []
  | cons {text rest : List Char} {item : Item} {items : List Item} :
      Item.Heads text item rest → Reading rest items → Reading text (item :: items)

variable {text : List Char} {list : List Item}

theorem reading_items (text : List Char) : Reading text (items text) := by
  fun_induction items text with
  | case1 text h =>
    cases text with
    | nil => exact .nil
    | cons c text =>
      obtain ⟨item, rest, hheads⟩ := Item.exists_heads (List.cons_ne_nil c text)
      rw [hheads.read?_eq] at h
      cases h
  | case2 text item rest h _ ih => exact .cons (Item.read?_eq_some_iff.mp h) ih

/-- A text has one reading, and this is the one that is made. -/
theorem reading_iff : Reading text list ↔ items text = list := by
  constructor
  · intro h
    induction h with
    | nil => exact items_nil
    | cons hheads _ ih => rw [items_of_read? hheads.read?_eq, ih]
  · rintro rfl
    exact reading_items text

/-- Every item of a reading has a form that the grammar allows. -/
theorem Reading.heads_of_mem {item : Item} (h : Reading text list) (hitem : item ∈ list) :
    ∃ front rest, Item.Heads front item rest := by
  induction h with
  | nil => cases hitem
  | cons hheads _ ih =>
    rcases List.mem_cons.mp hitem with rfl | hitem
    · exact ⟨_, _, hheads⟩
    · exact ih hitem

/-! ### Places -/

/-- The attributes among items are those that the items state, in the places of the items. -/
theorem located_eq_filterMap_placed (p : Position) (list : List Item) : located p list =
    (placed Item.source p list).filterMap fun part => part.1.attribute?.map (·, part.2) := by
  induction list generalizing p with
  | nil => rfl
  | cons item list ih =>
    rw [located, placed]
    cases hstated : item.attribute? with
    | none => rw [List.filterMap_cons_none (by rw [hstated, Option.map_none]), ih]
    | some found => rw [List.filterMap_cons_some (by rw [hstated, Option.map_some]), ih]

/-- An item that is read is not empty. -/
theorem Reading.source_ne_nil (h : Reading text list) : ∀ item ∈ list, item.source ≠ [] := by
  induction h with
  | nil => simp
  | @cons text rest item list hheads _ ih =>
    intro item' hitem'
    rcases List.mem_cons.mp hitem' with rfl | hitem'
    · intro hnil
      have happend := Item.source_append_of_read? hheads.read?_eq
      have hlt := Item.length_lt_of_read? hheads.read?_eq
      rw [← happend, hnil, List.nil_append] at hlt
      exact Nat.lt_irrefl _ hlt
    · exact ih item' hitem'

/-! ### The text as a whole -/

/-- Every text has one reading by the grammar. Its attributes are those that the items of the
reading state, in order and in the places of the items, and the text of an item stands in its place.
The stretches that the attributes cover are not empty, in order and disjoint. -/
theorem scan_of_reading (text : List Char) :
    ∃ list, Reading text list ∧ (∀ list', Reading text list' → list' = list) ∧
      scan text = (placed Item.source .start list).filterMap
        (fun part => part.1.attribute?.map (·, part.2)) ∧
      (∀ item span, (item, span) ∈ placed Item.source .start list →
        slice? text span.start.offset span.stop.offset = some item.source) ∧
      (∀ entry ∈ scan text, entry.2.start.offset < entry.2.stop.offset) ∧
      (scan text).Pairwise fun entry entry' =>
        entry.2.stop.offset ≤ entry'.2.start.offset := by
  have hreading := reading_items text
  have hscan : scan text = (placed Item.source .start (items text)).filterMap
      (fun part => part.1.attribute?.map (·, part.2)) := located_eq_filterMap_placed .start _
  refine ⟨items text, hreading, ?_, hscan, ?_, ?_, ?_⟩
  · intro list' h
    exact (reading_iff.mp h).symm
  · intro item span h
    have hslice := slice?_of_mem_placed h
    rwa [flatMap_source_items] at hslice
  · intro entry h
    rw [hscan, List.mem_filterMap] at h
    obtain ⟨⟨item, span⟩, hmem, hstated⟩ := h
    obtain ⟨found, -, rfl⟩ := Option.map_eq_some_iff.mp hstated
    have hitem : item ∈ items text := by
      rw [← map_fst_placed Item.source .start (items text)]
      exact List.mem_map_of_mem hmem
    exact start_lt_stop_of_mem_placed hmem (hreading.source_ne_nil item hitem)
  · rw [hscan]
    refine (pairwise_placed Item.source .start (items text)).filterMap _ ?_
    intro part part' hle entry hentry entry' hentry'
    obtain ⟨found, -, rfl⟩ := Option.map_eq_some_iff.mp hentry
    obtain ⟨found', -, rfl⟩ := Option.map_eq_some_iff.mp hentry'
    exact hle

end LayoutMarkup.Attribute

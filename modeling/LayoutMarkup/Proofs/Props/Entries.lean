import LayoutMarkup.Props
import LayoutMarkup.Proofs.Attribute.Scan
import LayoutMarkup.Proofs.Tag.Grammar

/-!
# Where props come from

Making props invents nothing: each entry is an attribute that was put in. For props read from the
text of a tag this bounds what a value may hold.

## Main definitions

* `Text.IsPlain` — text that may stand between quotation marks inside a tag
* `Props.Plain` — props whose texts are plain

## Main results

* `Props.mem_entries_ofAttributes`, `Props.mem_entries_ofList` — entries are attributes put in
* `Props.plain_read` — props read from text without angle brackets are plain
-/

namespace LayoutMarkup

namespace Text

/-- A character that ends neither a quoted value nor a tag. -/
def isPlain (c : Char) : Bool := c ≠ '<' && c ≠ '>' && c ≠ '"'

/-- Text that may stand between quotation marks inside a tag. -/
def IsPlain (text : List Char) : Prop := ∀ c ∈ text, isPlain c = true

theorem isPlain_iff {c : Char} : isPlain c = true ↔ (c ≠ '<' ∧ c ≠ '>') ∧ c ≠ '"' := by
  simp [isPlain]

theorem isPlain_of_isWordChar {c : Char} (h : isWordChar c = true) : isPlain c = true := by
  have hbracket := Tag.isBracket_eq_false_of_isWordChar h
  refine isPlain_iff.mpr ⟨Tag.isBracket_eq_false_iff.mp hbracket, ?_⟩
  rintro rfl
  contradiction

end Text

open Text

namespace Props

variable {entry e : Attribute} {entries attributes : List Attribute} {p : Props}

theorem mem_put (h : e ∈ put entry entries) : e = entry ∨ e ∈ entries := by
  induction entries with
  | nil => exact Or.inl (List.mem_singleton.mp h)
  | cons head rest ih =>
    rw [put] at h
    split at h
    · rcases List.mem_cons.mp h with h | h
      · exact Or.inl h
      · exact Or.inr (List.mem_cons_of_mem _ h)
    · rcases List.mem_cons.mp h with rfl | h
      · exact Or.inr List.mem_cons_self
      · exact (ih h).imp_right (List.mem_cons_of_mem _)

theorem mem_entries_insert (h : e ∈ (p.insert entry).entries) : e = entry ∨ e ∈ p.entries :=
  mem_put h

theorem mem_entries_insertNew (h : e ∈ (p.insertNew entry).entries) :
    e = entry ∨ e ∈ p.entries := by
  unfold insertNew at h
  split at h
  · exact Or.inr h
  · exact mem_entries_insert h

/-- If one step brings in no entry but its own, several bring in none but theirs. -/
theorem mem_entries_foldl {step : Props → Attribute → Props}
    (hstep : ∀ p entry, e ∈ (step p entry).entries → e = entry ∨ e ∈ p.entries)
    (h : e ∈ (entries.foldl step p).entries) : e ∈ entries ∨ e ∈ p.entries := by
  induction entries generalizing p with
  | nil => exact Or.inr h
  | cons head rest ih =>
    rcases ih h with h | h
    · exact Or.inl (List.mem_cons_of_mem _ h)
    · rcases hstep p head h with rfl | h
      · exact Or.inl List.mem_cons_self
      · exact Or.inr h

theorem mem_entries_ofList (h : e ∈ (ofList entries).entries) : e ∈ entries :=
  (mem_entries_foldl (fun _ _ => mem_entries_insert) h).resolve_right List.not_mem_nil

/-- An entry of props made from attributes is one of the attributes. -/
theorem mem_entries_ofAttributes (h : e ∈ (ofAttributes attributes).entries) :
    e ∈ attributes := by
  rcases mem_entries_foldl (fun _ _ => mem_entries_insertNew) h with h | h
  · exact (List.mem_filter.mp h).1
  · exact (List.mem_filter.mp (mem_entries_ofList h)).1

/-! ### Plain texts -/

/-- Props whose texts may stand between quotation marks inside a tag. -/
def Plain (p : Props) : Prop :=
  ∀ name value, ⟨name, .text value⟩ ∈ p.entries → IsPlain value.toList

end Props

namespace Attribute

variable {text : List Char}

/-- A text that is read from text without angle brackets is plain. -/
theorem isPlain_of_mem_read (htext : ∀ c ∈ text, c ≠ '<' ∧ c ≠ '>') {name value : String}
    (h : ⟨name, .text value⟩ ∈ read text) : IsPlain value.toList := by
  obtain ⟨item, hitem, hstated⟩ := List.mem_filterMap.mp h
  obtain ⟨front, rest, hheads⟩ := (reading_items text).heads_of_mem hitem
  cases hheads with
  | filler _ _ => cases hstated
  | flag _ _ _ => cases hstated
  | @quoted name value rest hname hvalue =>
    cases hstated
    intro c hc
    rw [String.toList_ofList] at hc
    have hmem : c ∈ text := by
      rw [← flatMap_source_items text, List.mem_flatMap]
      exact ⟨_, hitem, by simp [Item.source, hc]⟩
    have hquote : c ≠ '"' := ne_of_mem_of_not_mem hc hvalue.2
    simp [isPlain, htext c hmem, hquote]
  | braced _ _ _ => cases hstated
  | malformed _ _ _ _ => cases hstated

end Attribute

/-- Props read from text without angle brackets are plain. -/
theorem Props.plain_read {text : List Char} (h : ∀ c ∈ text, c ≠ '<' ∧ c ≠ '>') :
    (Props.read text).Plain := by
  intro name value hmem
  exact Attribute.isPlain_of_mem_read h (mem_entries_ofAttributes hmem)

/-- The props of a well-formed tag are plain. -/
theorem Tag.plain_props {tag : Tag} (h : tag.WellFormed) : tag.props.Plain :=
  Props.plain_read h.forall_mem_attrs

end LayoutMarkup

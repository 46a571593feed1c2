import LayoutMarkup.Proofs.Attribute.Written
import LayoutMarkup.Proofs.Props.Order

/-!
# Written props

Props are written one by one in their order, and read like the attributes of any tag, so the flags
among them move behind the values. Nothing else changes. Props that were read are in that order
already: writing and reading them again gives them back.

## Main definitions

* `Props.Writable` — the props that read back from their written form

## Main results

* `Props.entries_read_flatMap_written` — the props that written attributes are read as
* `Props.entries_read_written`, `Props.writable_read` — props that are written, and props that are
  read
* `Props.read_written` — both together
-/

namespace LayoutMarkup.Props

variable {p : Props} {entries : List Attribute}

/-- Props that read back from their written form: every one of them does. -/
def Writable (p : Props) : Prop := ∀ entry ∈ p.entries, entry.Writable

instance : DecidablePred Writable := fun p => inferInstanceAs (Decidable (∀ entry ∈ p.entries, _))

/-- Written attributes with different names are read as props that hold the values in front of the
flags. -/
theorem entries_read_flatMap_written (hentries : ∀ entry ∈ entries, entry.Writable)
    (hnames : (entries.map Attribute.name).Nodup) :
    (read (entries.flatMap Attribute.written)).entries =
      entries.filter (!·.value.isFlag) ++ entries.filter (·.value.isFlag) := by
  rw [read, Attribute.read_flatMap_written hentries, entries_ofAttributes_of_nodup hnames]

theorem entries_read_written (h : p.Writable) :
    (read p.written).entries = p.valued ++ p.flags.map (Attribute.mk · .flag) := by
  rw [map_flag_flags]
  exact entries_read_flatMap_written h p.nodup_names

theorem flags_read_written (h : p.Writable) : (read p.written).flags = p.flags :=
  (flags_and_valued_of_entries (fun _ => isFlag_of_mem_valued) (Or.inl (entries_read_written h))).1

theorem valued_read_written (h : p.Writable) : (read p.written).valued = p.valued :=
  (flags_and_valued_of_entries (fun _ => isFlag_of_mem_valued) (Or.inl (entries_read_written h))).2

/-- Reading gives every name the value that was written. -/
theorem get?_read_written (h : p.Writable) (name : String) :
    (read p.written).get? name = p.get? name := by
  apply get?_congr
  intro entry
  rw [entries_read_written h]
  exact p.valued_append_flags_perm.mem_iff

/-- Props that are read can be written. -/
theorem writable_read (text : List Char) : (read text).Writable :=
  fun _ h => Attribute.writable_of_mem_read (mem_entries_ofAttributes h)

/-- Props that are read hold the values in front of the flags. -/
theorem entries_read (text : List Char) :
    (read text).entries = (read text).valued ++ (read text).flags.map (Attribute.mk · .flag) :=
  entries_ofAttributes_eq_valued_append_flags _

/-- Reading undoes writing, for props with attribute names whose texts can stand between quotation
marks: the props that are read give every name the same value, and hold first the values and then
the flags, both in their order. Props that are read from any text are of this kind and in this
order, so that writing and reading them again changes nothing. -/
theorem read_written :
    (∀ p : Props, p.Writable →
        (read p.written).entries = p.valued ++ p.flags.map (Attribute.mk · .flag) ∧
          ∀ name, (read p.written).get? name = p.get? name) ∧
      ∀ text : List Char, (read text).Writable ∧
        (read text).entries =
          (read text).valued ++ (read text).flags.map (Attribute.mk · .flag) ∧
        read (read text).written = read text := by
  refine ⟨fun p h => ⟨entries_read_written h, get?_read_written h⟩, fun text => ?_⟩
  have hwritable := writable_read text
  refine ⟨hwritable, entries_read text, ext ?_⟩
  rw [entries_read_written hwritable, ← entries_read text]

/-- Flags between values, a hyphen in a name, the greatest number, and a text on two lines that
looks like attributes. -/
def mixed : Props :=
  ofList [⟨"center", .flag⟩, ⟨"className", .text "a='x' b={1}\n/"⟩, ⟨"aria-label", .flag⟩,
    ⟨"cols", .number 4294967295⟩]

theorem read_written_mixed :
    mixed.Writable ∧
      (read mixed.written).entries =
        [⟨"className", .text "a='x' b={1}\n/"⟩, ⟨"cols", .number 4294967295⟩,
          ⟨"center", .flag⟩, ⟨"aria-label", .flag⟩] ∧
      (read mixed.written).get? "cols" = some (.number 4294967295) := by
  have hwritable : mixed.Writable := by decide
  obtain ⟨hentries, hget⟩ := read_written.1 mixed hwritable
  exact ⟨hwritable, hentries.trans (by decide), (hget "cols").trans (by decide)⟩

end LayoutMarkup.Props

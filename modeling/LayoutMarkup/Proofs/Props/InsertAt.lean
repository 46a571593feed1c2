import LayoutMarkup.Proofs.Props.Order

/-!
# Props with one more

A prop with a new name can be put in front of any other, or behind all. All other names keep their
values and their order.

## Main definitions

* `Props.insertAt` — the props with one more, in a given place

## Main results

* `Props.mem_entries_insertAt_iff` — the props that there are then
* `Props.get?_insertAt` — what is known of the names
* `Props.filter_entries_insertAt` — what a search that passes over the new prop comes to
-/

namespace LayoutMarkup.Props

variable {p : Props} {place : Nat} {entry other : Attribute} {name : String}

/-- A name that is not given is no name of the props. -/
theorem contains_eq_false_iff : p.contains name = false ↔ name ∉ p.names := by
  rw [← Bool.not_eq_true, contains_iff, names, List.mem_map, not_iff_not]
  constructor
  · rintro ⟨value, hentry⟩
    exact ⟨_, hentry, rfl⟩
  · rintro ⟨entry, hentry, rfl⟩
    exact ⟨entry.value, hentry⟩

/-- Putting an entry in a place adds it to the others. -/
theorem insert_place_perm (entries : List Attribute) (place : Nat) (entry : Attribute) :
    (entries.take place ++ entry :: entries.drop place).Perm (entry :: entries) := by
  conv => rhs; rw [← List.take_append_drop place entries]
  exact List.perm_middle

/-- The props with one more in a given place, at the end if the place lies behind it. The name must
be a new one. -/
def insertAt (p : Props) (place : Nat) (entry : Attribute) (h : p.contains entry.name = false) :
    Props where
  entries := p.entries.take place ++ entry :: p.entries.drop place
  nodup_names := by
    rw [((insert_place_perm p.entries place entry).map Attribute.name).nodup_iff, List.map_cons,
      List.nodup_cons]
    exact ⟨contains_eq_false_iff.mp h, p.nodup_names⟩

theorem mem_entries_insertAt_iff (h : p.contains entry.name = false) :
    other ∈ (p.insertAt place entry h).entries ↔ other = entry ∨ other ∈ p.entries := by
  rw [insertAt, (insert_place_perm p.entries place entry).mem_iff, List.mem_cons]

/-- The new name has its value, and all others have theirs. -/
theorem get?_insertAt (h : p.contains entry.name = false) (name : String) :
    (p.insertAt place entry h).get? name =
      if name = entry.name then some entry.value else p.get? name := by
  obtain ⟨new, given⟩ := entry
  apply Option.ext
  intro value
  rw [get?_eq_some_iff, mem_entries_insertAt_iff, Attribute.mk.injEq]
  by_cases hname : name = new
  · subst hname
    have hnone : ⟨name, value⟩ ∉ p.entries := by
      intro hmem
      exact contains_eq_false_iff.mp h (List.mem_map.mpr ⟨_, hmem, rfl⟩)
    simp [hnone, eq_comm]
  · simp [hname, get?_eq_some_iff]

/-- A search that passes over the new prop finds what it found before. -/
theorem filter_entries_insertAt (h : p.contains entry.name = false) {f : Attribute → Bool}
    (hentry : f entry = false) :
    (p.insertAt place entry h).entries.filter f = p.entries.filter f := by
  rw [insertAt, List.filter_append, List.filter_cons_of_neg (by simp [hentry]),
    ← List.filter_append, List.take_append_drop]

end LayoutMarkup.Props

import LayoutMarkup.Proofs.Props.Order

/-!
# Props without a name

Taking one name out of props leaves all other names as they are, with their values and in their
order.

## Main definitions

* `Props.erase` — the props without the one of a name

## Main results

* `Props.get?_erase` — what is known of the names afterwards
* `Props.hasFlag_erase`, `Props.text?_erase`, `Props.number?_erase` — the same, by kind of value
* `Props.text?_erase_of_hasFlag`, `Props.number?_erase_of_hasFlag` — values do not depend on a flag
* `Props.filter_entries_erase` — what a search that passes over the prop comes to
-/

namespace LayoutMarkup.Props

/-- The props without the one of a name. -/
def erase (p : Props) (name : String) : Props :=
  ⟨p.entries.filter (·.name ≠ name), p.nodup_names.sublist (List.filter_sublist.map _)⟩

variable (p : Props) (name other : String)

theorem get?_erase_self : (p.erase name).get? name = none := by
  have hnone : (p.entries.filter (·.name ≠ name)).find? (·.name = name) = none := by
    rw [List.find?_eq_none]
    intro entry hentry
    simpa using (List.mem_filter.mp hentry).2
  rw [get?, erase, hnone, Option.map_none]

theorem get?_erase_of_ne {name other : String} (h : other ≠ name) :
    (p.erase name).get? other = p.get? other := by
  have hfind : (p.entries.filter (·.name ≠ name)).find? (·.name = other) =
      p.entries.find? (·.name = other) := by
    rw [List.find?_filter]
    congr 1
    funext entry
    by_cases hentry : entry.name = other <;> simp [hentry, h]
  rw [get?, erase, hfind, get?]

/-- Only the name that is taken out loses its value. -/
theorem get?_erase :
    (p.erase name).get? other = if other = name then none else p.get? other := by
  by_cases h : other = name
  · rw [if_pos h, h, get?_erase_self]
  · rw [if_neg h, get?_erase_of_ne p h]

@[simp] theorem hasFlag_erase :
    (p.erase name).hasFlag other = (decide (other ≠ name) && p.hasFlag other) := by
  rw [hasFlag, get?_erase, hasFlag]
  by_cases h : other = name <;> simp [h]

@[simp] theorem text?_erase :
    (p.erase name).text? other = if other = name then none else p.text? other := by
  rw [text?, get?_erase, text?]
  by_cases h : other = name <;> simp [h]

@[simp] theorem number?_erase :
    (p.erase name).number? other = if other = name then none else p.number? other := by
  rw [number?, get?_erase, number?]
  by_cases h : other = name <;> simp [h]

/-- Taking a flag out leaves all texts. -/
theorem text?_erase_of_hasFlag {p : Props} {name : String} (h : p.hasFlag name = true)
    (other : String) : (p.erase name).text? other = p.text? other := by
  rw [text?_erase]
  split
  · rename_i heq
    rw [heq, text?, of_decide_eq_true h]
  · rfl

/-- Taking a flag out leaves all numbers. -/
theorem number?_erase_of_hasFlag {p : Props} {name : String} (h : p.hasFlag name = true)
    (other : String) : (p.erase name).number? other = p.number? other := by
  rw [number?_erase]
  split
  · rename_i heq
    rw [heq, number?, of_decide_eq_true h]
  · rfl

/-- A search that passes over the prop that is taken out finds what it found before. -/
theorem filter_entries_erase {p : Props} {entry : Attribute} (h : entry ∈ p.entries)
    {f : Attribute → Bool} (hentry : f entry = false) :
    (p.erase entry.name).entries.filter f = p.entries.filter f := by
  rw [erase, List.filter_filter]
  apply List.filter_congr
  intro other hother
  by_cases hname : other.name = entry.name
  · -- There is only one entry with the name.
    obtain rfl := List.inj_on_of_nodup_map p.nodup_names hother h hname
    rw [hentry, Bool.false_and]
  · simp [hname]

end LayoutMarkup.Props

import LayoutMarkup.Proofs.Props.Entries
import Mathlib.Data.List.Nodup

/-!
# The order of props

Props made from the attributes of a tag begin with the attributes that have a value. The flags
follow, each at its first mention, without those whose name has a value. What is known of a name
does not depend on this order: a name occurs once, so its value is that of the one entry with the
name.

## Main definitions

* `Props.newMentions` — attributes with names that are not known yet, each at its first mention

## Main results

* `Props.get?_eq_some_iff` — the value of a name is that of its entry
* `Props.entries_ofAttributes` — the valued attributes, and then the flags that are new
* `Props.entries_ofAttributes_of_nodup` — the same of attributes with different names
* `Props.entries_ofAttributes_eq_valued_append_flags` — no flag stands in front of a value
-/

namespace LayoutMarkup.Props

variable {p q : Props} {name : String} {value : PropValue} {known : List String}
  {entry : Attribute} {entries attributes : List Attribute}

/-! ### What is known of a name -/

/-- The value of a name is that of its entry. -/
theorem get?_eq_some_iff : p.get? name = some value ↔ ⟨name, value⟩ ∈ p.entries := by
  constructor
  · intro h
    obtain ⟨entry, hfind, rfl⟩ := Option.map_eq_some_iff.mp h
    obtain rfl : entry.name = name := by simpa using List.find?_some hfind
    exact List.mem_of_find?_eq_some hfind
  · intro h
    -- Some entry with the name is found, and there is no other than this one.
    have hsome : (p.entries.find? (·.name = name)).isSome := by
      rw [List.find?_isSome]
      exact ⟨⟨name, value⟩, h, by simp⟩
    obtain ⟨entry, hfind⟩ := Option.isSome_iff_exists.mp hsome
    have hname : entry.name = name := by simpa using List.find?_some hfind
    obtain rfl : entry = ⟨name, value⟩ :=
      List.inj_on_of_nodup_map p.nodup_names (List.mem_of_find?_eq_some hfind) h hname
    rw [get?, hfind, Option.map_some]

theorem hasFlag_iff : p.hasFlag name = true ↔ ⟨name, .flag⟩ ∈ p.entries := by
  rw [hasFlag, decide_eq_true_iff, get?_eq_some_iff]

theorem text?_eq_some_iff {text : String} :
    p.text? name = some text ↔ ⟨name, .text text⟩ ∈ p.entries := by
  rw [text?, ← get?_eq_some_iff]
  rcases p.get? name with - | - | - | - <;> simp

theorem number?_eq_some_iff {n : UInt32} :
    p.number? name = some n ↔ ⟨name, .number n⟩ ∈ p.entries := by
  rw [number?, ← get?_eq_some_iff]
  rcases p.get? name with - | - | - | - <;> simp

theorem contains_iff : p.contains name = true ↔ ∃ value, ⟨name, value⟩ ∈ p.entries := by
  simp only [contains, Option.isSome_iff_exists, get?_eq_some_iff]

/-- Props with the same entries give the same value to every name. -/
theorem get?_congr (h : ∀ entry, entry ∈ p.entries ↔ entry ∈ q.entries) (name : String) :
    p.get? name = q.get? name := by
  apply Option.ext
  intro value
  rw [get?_eq_some_iff, get?_eq_some_iff, h]

theorem hasFlag_congr (h : p.get? name = q.get? name) : p.hasFlag name = q.hasFlag name := by
  rw [hasFlag, hasFlag, h]

theorem text?_congr (h : p.get? name = q.get? name) : p.text? name = q.text? name := by
  rw [text?, text?, h]

theorem number?_congr (h : p.get? name = q.get? name) : p.number? name = q.number? name := by
  rw [number?, number?, h]

theorem contains_congr (h : p.get? name = q.get? name) : p.contains name = q.contains name := by
  rw [contains, contains, h]

/-- A name that is not given has no text. -/
theorem text?_eq_none_of_contains (h : p.contains name = false) : p.text? name = none := by
  rw [contains, Option.isSome_eq_false_iff, Option.isNone_iff_eq_none] at h
  rw [text?, h]

/-! ### Values and flags -/

/-- The flags are the names that are given as bare flags. -/
theorem mem_flags_iff : name ∈ p.flags ↔ p.hasFlag name = true := by
  rw [hasFlag_iff, flags, List.mem_map]
  constructor
  · rintro ⟨⟨other, value⟩, hmem, rfl⟩
    obtain ⟨hentry, hflag⟩ := List.mem_filter.mp hmem
    obtain rfl := PropValue.isFlag_eq_true_iff.mp hflag
    exact hentry
  · intro hentry
    exact ⟨⟨name, .flag⟩, List.mem_filter.mpr ⟨hentry, rfl⟩, rfl⟩

theorem filter_isFlag_of_valued (h : ∀ entry ∈ entries, entry.value.isFlag = false) :
    entries.filter (·.value.isFlag) = [] ∧ entries.filter (!·.value.isFlag) = entries := by
  constructor
  · rw [List.filter_eq_nil_iff]
    intro entry hentry
    rw [h entry hentry]
    exact Bool.false_ne_true
  · rw [List.filter_eq_self]
    intro entry hentry
    rw [h entry hentry, Bool.not_false]

theorem filter_isFlag_of_flags (h : ∀ entry ∈ entries, entry.value.isFlag = true) :
    entries.filter (·.value.isFlag) = entries ∧ entries.filter (!·.value.isFlag) = [] := by
  refine ⟨List.filter_eq_self.mpr h, ?_⟩
  rw [List.filter_eq_nil_iff]
  intro entry hentry
  simp [h entry hentry]

theorem isFlag_of_mem_valued (h : entry ∈ p.valued) : entry.value.isFlag = false := by
  simpa using (List.mem_filter.mp h).2

theorem isFlag_of_mem_map_flag {names : List String}
    (h : entry ∈ names.map (Attribute.mk · .flag)) : entry.value.isFlag = true := by
  obtain ⟨name, -, rfl⟩ := List.mem_map.mp h
  rfl

/-- Props that hold values and flags, in either order, have these values and these flags. -/
theorem flags_and_valued_of_entries {names : List String} {values : List Attribute}
    (hvalued : ∀ entry ∈ values, entry.value.isFlag = false)
    (h : p.entries = values ++ names.map (Attribute.mk · .flag) ∨
      p.entries = names.map (Attribute.mk · .flag) ++ values) :
    p.flags = names ∧ p.valued = values := by
  have hflag : ∀ entry ∈ names.map (Attribute.mk · .flag), entry.value.isFlag = true :=
    fun _ => isFlag_of_mem_map_flag
  obtain ⟨hvalues, hvalues'⟩ := filter_isFlag_of_valued hvalued
  obtain ⟨hflags, hflags'⟩ := filter_isFlag_of_flags hflag
  rw [flags, valued]
  rcases h with h | h
  · rw [h, List.filter_append, List.filter_append, hvalues, hvalues', hflags, hflags']
    simp [Function.comp_def]
  · rw [h, List.filter_append, List.filter_append, hvalues, hvalues', hflags, hflags']
    simp [Function.comp_def]

/-- The flags, as entries. -/
theorem map_flag_flags (p : Props) :
    p.flags.map (Attribute.mk · .flag) = p.entries.filter (·.value.isFlag) := by
  rw [flags, List.map_map]
  conv => rhs; rw [← List.map_id (p.entries.filter _)]
  apply List.map_congr_left
  rintro ⟨name, value⟩ h
  obtain rfl : value = .flag := by simpa using (List.mem_filter.mp h).2
  rfl

/-- The entries are the values and the flags. -/
theorem valued_append_flags_perm (p : Props) :
    (p.valued ++ p.flags.map (Attribute.mk · .flag)).Perm p.entries := by
  rw [map_flag_flags, valued]
  exact List.perm_append_comm.trans (List.filter_append_perm _ _)

/-! ### Props of a tag -/

/-- The attributes whose names are neither among `known` nor those of earlier attributes. -/
def newMentions (known : List String) : List Attribute → List Attribute
  | [] => []
  | entry :: rest =>
    if entry.name ∈ known then newMentions known rest
    else entry :: newMentions (known ++ [entry.name]) rest

theorem entries_foldl_insertNew (p : Props) (entries : List Attribute) :
    (entries.foldl insertNew p).entries = p.entries ++ newMentions p.names entries := by
  induction entries generalizing p with
  | nil => exact (List.append_nil _).symm
  | cons entry entries ih =>
    -- The names that count as known are those of the props that have been made so far.
    rw [List.foldl_cons, ih, insertNew, newMentions]
    by_cases h : entry.name ∈ p.names
    · rw [if_pos h, if_pos h]
    · have hput : (p.insert entry).entries = p.entries ++ [entry] := put_eq_append entry p.entries h
      rw [if_neg h, if_neg h, hput, names_insert, if_neg h, List.append_assoc]
      rfl

theorem mem_of_mem_newMentions (h : entry ∈ newMentions known entries) : entry ∈ entries := by
  induction entries generalizing known with
  | nil => cases h
  | cons head rest ih =>
    rw [newMentions] at h
    split at h
    · exact List.mem_cons_of_mem _ (ih h)
    · rcases List.mem_cons.mp h with rfl | h
      · exact List.mem_cons_self
      · exact List.mem_cons_of_mem _ (ih h)

theorem newMentions_eq_self (h : (known ++ entries.map Attribute.name).Nodup) :
    newMentions known entries = entries := by
  induction entries generalizing known with
  | nil => rfl
  | cons head rest ih =>
    have hhead : head.name ∉ known := by
      intro hmem
      rw [List.map_cons, List.nodup_append] at h
      exact h.2.2 _ hmem _ List.mem_cons_self rfl
    rw [newMentions, if_neg hhead, ih]
    rwa [List.append_assoc]

/-- The props of a tag: the valued attributes, and then the flags that are new. -/
theorem entries_ofAttributes (attributes : List Attribute) :
    (ofAttributes attributes).entries =
      (ofList (attributes.filter (!·.value.isFlag))).entries ++
        newMentions (ofList (attributes.filter (!·.value.isFlag))).names
          (attributes.filter (·.value.isFlag)) :=
  entries_foldl_insertNew _ _

/-- Attributes with different names are only reordered. -/
theorem entries_ofAttributes_of_nodup (h : (attributes.map Attribute.name).Nodup) :
    (ofAttributes attributes).entries =
      attributes.filter (!·.value.isFlag) ++ attributes.filter (·.value.isFlag) := by
  -- With different names no value is overwritten and no flag is left out.
  have hperm : (attributes.filter (!·.value.isFlag) ++ attributes.filter (·.value.isFlag)).Perm
      attributes := List.perm_append_comm.trans (List.filter_append_perm _ _)
  have hnodup := (hperm.map Attribute.name).nodup_iff.mpr h
  rw [List.map_append] at hnodup
  have hvalued := entries_ofList _ (List.nodup_append.mp hnodup).1
  rw [entries_ofAttributes, names, hvalued, newMentions_eq_self hnodup]

/-- In the props of a tag no flag stands in front of a value. -/
theorem entries_ofAttributes_eq_valued_append_flags (attributes : List Attribute) :
    (ofAttributes attributes).entries = (ofAttributes attributes).valued ++
      (ofAttributes attributes).flags.map (Attribute.mk · .flag) := by
  have hvalued : ∀ entry ∈ (ofList (attributes.filter (!·.value.isFlag))).entries,
      entry.value.isFlag = false := by
    intro entry h
    simpa using (List.mem_filter.mp (mem_entries_ofList h)).2
  have hflag (known : List String) :
      ∀ entry ∈ newMentions known (attributes.filter (·.value.isFlag)),
        entry.value.isFlag = true := by
    intro entry h
    exact (List.mem_filter.mp (mem_of_mem_newMentions h)).2
  obtain ⟨hvalues, hvalues'⟩ := filter_isFlag_of_valued hvalued
  rw [map_flag_flags, valued, entries_ofAttributes, List.filter_append, List.filter_append, hvalues,
    hvalues', (filter_isFlag_of_flags (hflag _)).1, (filter_isFlag_of_flags (hflag _)).2,
    List.append_nil, List.nil_append]

end LayoutMarkup.Props

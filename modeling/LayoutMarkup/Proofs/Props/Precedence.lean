import LayoutMarkup.Proofs.Props.Order

/-!
# Which mention of a name counts

A tag may mention a name several times, with values and as a bare flag, and its props hold the name
once. A value prevails over a bare flag wherever the two stand, and of several values the last one
prevails, in the place of the first. So the props of a tag depend on the mentions with a value and
on the flags, each in their order, and not on how the two are mixed.

## Main definitions

* `Props.valuedNames`, `Props.flagNames` — the names of the mentions of either kind
* `Props.Prevails` — the value that a name comes to

## Main results

* `Props.names_ofAttributes` — the names of the props of a tag, in order
* `Props.get?_ofAttributes_eq_some_iff` — their values
* `Props.precedence_ofAttributes` — both, and what they depend on
-/

namespace LayoutMarkup.Props

variable {p : Props} {name : String} {value : PropValue} {known : List String}
  {entry : Attribute} {entries : List Attribute}

/-- The names of the attributes with a value, one for each mention. -/
def valuedNames (attributes : List Attribute) : List String :=
  (attributes.filter (!·.value.isFlag)).map Attribute.name

/-- The names of the bare flags, one for each mention. -/
def flagNames (attributes : List Attribute) : List String :=
  (attributes.filter (·.value.isFlag)).map Attribute.name

/-- What a name comes to among attributes that mention it. -/
inductive Prevails (attributes : List Attribute) (name : String) : PropValue → Prop
  /-- The last mention with a value prevails; behind it the name is mentioned as a flag only. -/
  | last {before behind : List Attribute} {value : PropValue} :
      attributes = before ++ ⟨name, value⟩ :: behind → value.isFlag = false →
      (∀ entry ∈ behind, entry.name = name → entry.value.isFlag = true) →
      Prevails attributes name value
  /-- A name that is never mentioned with a value is a flag. -/
  | flag : ⟨name, .flag⟩ ∈ attributes →
      (∀ entry ∈ attributes, entry.name = name → entry.value.isFlag = true) →
      Prevails attributes name .flag

/-! ### Names -/

/-- One more name is a repetition or comes last. -/
theorem eraseDups_concat (names : List String) (name : String) : (names ++ [name]).eraseDups =
    if name ∈ names.eraseDups then names.eraseDups else names.eraseDups ++ [name] := by
  rw [List.eraseDups_append, List.removeAll]
  by_cases h : name ∈ names <;> simp [h, List.eraseDups_cons]

theorem names_insertNew (p : Props) (entry : Attribute) : (p.insertNew entry).names =
    if entry.name ∈ p.names then p.names else p.names ++ [entry.name] := by
  rw [insertNew]
  split
  · rfl
  · rw [names_insert, if_neg ‹_›]

/-- If one step puts a new name behind the others, several steps leave the names in the order of
their first mention. -/
theorem names_foldl {step : Props → Attribute → Props}
    (hstep : ∀ p entry, (step p entry).names =
      if entry.name ∈ p.names then p.names else p.names ++ [entry.name])
    (h : p.names = known.eraseDups) :
    (entries.foldl step p).names = (known ++ entries.map Attribute.name).eraseDups := by
  induction entries generalizing p known with
  | nil => simpa using h
  | cons entry entries ih =>
    have hnames : (step p entry).names = (known ++ [entry.name]).eraseDups := by
      rw [hstep, h, eraseDups_concat]
    rw [List.foldl_cons, ih hnames, List.map_cons, List.append_assoc, List.singleton_append]

/-- The names of the props of a tag: those with a value, and then those that are flags only, both in
the order of their first mention. -/
theorem names_ofAttributes (attributes : List Attribute) : (ofAttributes attributes).names =
    (valuedNames attributes).eraseDups ++
      ((flagNames attributes).filter (· ∉ valuedNames attributes)).eraseDups := by
  have hempty : empty.names = ([] : List String).eraseDups := rfl
  have hvalued : (ofList (attributes.filter (!·.value.isFlag))).names =
      (valuedNames attributes).eraseDups :=
    names_foldl (fun p entry => names_insert entry p) hempty
  have hflags : (ofAttributes attributes).names =
      (valuedNames attributes ++ flagNames attributes).eraseDups := names_foldl names_insertNew hvalued
  rw [hflags, List.eraseDups_append, List.removeAll]
  congr 3
  funext name
  simp

/-! ### Values -/

/-- A prop has the value it was last given. -/
theorem get?_ofList (entries : List Attribute) (name : String) : (ofList entries).get? name =
    (entries.reverse.find? (·.name = name)).map Attribute.value := by
  induction entries using List.reverseRecOn with
  | nil => rfl
  | append_singleton entries entry ih =>
    have hlast : ofList (entries ++ [entry]) = (ofList entries).insert entry := by
      rw [ofList, insertAll, List.foldl_append]
      rfl
    rw [hlast, get?_insert, ih, List.reverse_concat, List.find?_cons]
    by_cases h : entry.name = name <;> simp [h]

theorem get?_insertNew (p : Props) (entry : Attribute) (name : String) :
    (p.insertNew entry).get? name =
      (p.get? name).or (if entry.name = name then some entry.value else none) := by
  rw [insertNew]
  by_cases hname : entry.name = name
  · subst hname
    by_cases hmem : entry.name ∈ p.names
    · -- The name has a value already, and keeps it.
      obtain ⟨other, hother, heq⟩ := List.mem_map.mp hmem
      have hget : p.get? entry.name = some other.value := by
        rw [get?_eq_some_iff, ← heq]
        exact hother
      rw [if_pos hmem, hget, Option.some_or]
    · have hget : p.get? entry.name = none := by
        rw [Option.eq_none_iff_forall_ne_some]
        intro value hvalue
        exact hmem (List.mem_map.mpr ⟨_, get?_eq_some_iff.mp hvalue, rfl⟩)
      rw [if_neg hmem, get?_insert, if_pos rfl, hget, if_pos rfl, Option.none_or]
  · rw [if_neg hname, Option.or_none]
    split
    · rfl
    · rw [get?_insert, if_neg hname]

/-- A prop keeps its value, and a name that has none gets that of its first mention. -/
theorem get?_foldl_insertNew (p : Props) (entries : List Attribute) (name : String) :
    (entries.foldl insertNew p).get? name =
      (p.get? name).or ((entries.find? (·.name = name)).map Attribute.value) := by
  induction entries generalizing p with
  | nil => exact (Option.or_none).symm
  | cons entry entries ih =>
    rw [List.foldl_cons, ih, get?_insertNew, Option.or_assoc, List.find?_cons]
    by_cases h : entry.name = name <;> simp [h]

/-- What is found from the end of a list. -/
theorem find?_reverse_eq_some_iff {found : Attribute} {select : Attribute → Bool} :
    entries.reverse.find? select = some found ↔ select found = true ∧
      ∃ before behind, entries = before ++ found :: behind ∧
        ∀ entry ∈ behind, select entry = false := by
  rw [List.find?_eq_some_iff_append]
  refine and_congr_right fun _ => ?_
  constructor
  · rintro ⟨behind, before, hreverse, hbehind⟩
    refine ⟨before.reverse, behind.reverse, ?_, ?_⟩
    · simpa using congrArg List.reverse hreverse
    · simpa using hbehind
  · rintro ⟨before, behind, rfl, hbehind⟩
    exact ⟨behind.reverse, before.reverse, by simp, by simpa using hbehind⟩

/-- The last mention of a name with a value. -/
theorem map_value_find?_reverse_eq_some_iff {attributes : List Attribute} :
    (attributes.reverse.find? fun entry => !entry.value.isFlag && decide (entry.name = name)).map
        Attribute.value = some value ↔
      ∃ before behind, attributes = before ++ ⟨name, value⟩ :: behind ∧ value.isFlag = false ∧
        ∀ entry ∈ behind, entry.name = name → entry.value.isFlag = true := by
  rw [Option.map_eq_some_iff]
  constructor
  · rintro ⟨entry, hfind, rfl⟩
    obtain ⟨hentry, before, behind, hsplit, hbehind⟩ := find?_reverse_eq_some_iff.mp hfind
    simp only [Bool.and_eq_true, Bool.not_eq_true', decide_eq_true_eq] at hentry
    obtain ⟨hvalued, rfl⟩ := hentry
    refine ⟨before, behind, hsplit, hvalued, fun other hother hname => ?_⟩
    simpa [hname] using hbehind other hother
  · rintro ⟨before, behind, hsplit, hvalued, hbehind⟩
    refine ⟨⟨name, value⟩, find?_reverse_eq_some_iff.mpr ⟨?_, before, behind, hsplit, ?_⟩, rfl⟩
    · simp [hvalued]
    · intro entry hentry
      by_cases hname : entry.name = name
      · simp [hbehind entry hentry hname]
      · simp [hname]

/-- The values of the props of a tag are those that prevail. -/
theorem get?_ofAttributes_eq_some_iff {attributes : List Attribute} :
    (ofAttributes attributes).get? name = some value ↔ Prevails attributes name value := by
  rw [ofAttributes, get?_foldl_insertNew, get?_ofList, ← List.filter_reverse, List.find?_filter,
    List.find?_filter]
  simp only [Bool.decide_and, Bool.decide_eq_true]
  rw [Option.or_eq_some_iff, map_value_find?_reverse_eq_some_iff, Option.map_eq_none_iff,
    List.find?_eq_none, Option.map_eq_some_iff]
  constructor
  · rintro (⟨before, behind, hsplit, hvalued, hbehind⟩ | ⟨hnone, entry, hfind, rfl⟩)
    · exact .last hsplit hvalued hbehind
    · -- No mention has a value, so the flag that is found is all there is.
      have hentry := List.find?_some hfind
      simp only [Bool.and_eq_true, PropValue.isFlag_eq_true_iff, decide_eq_true_eq] at hentry
      obtain ⟨hvalue, rfl⟩ := hentry
      have hmem := List.mem_of_find?_eq_some hfind
      rw [hvalue]
      refine .flag (hvalue ▸ hmem) fun other hother hname => ?_
      simpa [hname] using hnone other (List.mem_reverse.mpr hother)
  · intro h
    cases h with
    | last hsplit hvalued hbehind => exact Or.inl ⟨_, _, hsplit, hvalued, hbehind⟩
    | flag hmem hall =>
      refine Or.inr ⟨fun entry hentry => ?_, ?_⟩
      · by_cases hname : entry.name = name
        · simp [hall entry (List.mem_reverse.mp hentry) hname]
        · simp [hname]
      · -- The first mention is a flag, like all of them.
        have hsome : (attributes.find? fun entry => entry.value.isFlag && decide (entry.name = name))
            ≠ none := by
          rw [ne_eq, List.find?_eq_none]
          intro hnone
          simpa [PropValue.isFlag] using hnone _ hmem
        obtain ⟨entry, hfind⟩ := Option.ne_none_iff_exists'.mp hsome
        have hentry := List.find?_some hfind
        simp only [Bool.and_eq_true, PropValue.isFlag_eq_true_iff] at hentry
        exact ⟨entry, hfind, hentry.1⟩

/-! ### Precedence -/

/-- The props of a tag hold the names of its attributes once: first those with a value somewhere,
and then those that are flags only, both in the order of their first mention of that kind. The last
value of a name prevails, and over flags any value does. So it does not matter where the flags stand
among the attributes with a value. -/
theorem precedence_ofAttributes (attributes : List Attribute) :
    (ofAttributes attributes).names = (valuedNames attributes).eraseDups ++
        ((flagNames attributes).filter (· ∉ valuedNames attributes)).eraseDups ∧
      (∀ name value,
        (ofAttributes attributes).get? name = some value ↔ Prevails attributes name value) ∧
      ∀ others : List Attribute,
        others.filter (·.value.isFlag) = attributes.filter (·.value.isFlag) →
        others.filter (!·.value.isFlag) = attributes.filter (!·.value.isFlag) →
          ofAttributes others = ofAttributes attributes := by
  refine ⟨names_ofAttributes attributes, fun _ _ => get?_ofAttributes_eq_some_iff, ?_⟩
  intro others hflags hvalued
  rw [ofAttributes, ofAttributes, hflags, hvalued]

/-- A flag in front of the value of its name, one behind it, and one that is moved from between the
values of another name. -/
theorem precedence_ofAttributes_moved :
    ([⟨"gap", .text "sm"⟩, ⟨"gap", .number 2⟩, ⟨"wrap", .flag⟩, ⟨"gap", .flag⟩] :
        List Attribute).filter (·.value.isFlag) =
      ([⟨"wrap", .flag⟩, ⟨"gap", .text "sm"⟩, ⟨"gap", .flag⟩, ⟨"gap", .number 2⟩] :
        List Attribute).filter (·.value.isFlag) ∧
    ([⟨"gap", .text "sm"⟩, ⟨"gap", .number 2⟩, ⟨"wrap", .flag⟩, ⟨"gap", .flag⟩] :
        List Attribute).filter (!·.value.isFlag) =
      ([⟨"wrap", .flag⟩, ⟨"gap", .text "sm"⟩, ⟨"gap", .flag⟩, ⟨"gap", .number 2⟩] :
        List Attribute).filter (!·.value.isFlag) ∧
    ofAttributes [⟨"gap", .text "sm"⟩, ⟨"gap", .number 2⟩, ⟨"wrap", .flag⟩, ⟨"gap", .flag⟩] =
      ofAttributes [⟨"wrap", .flag⟩, ⟨"gap", .text "sm"⟩, ⟨"gap", .flag⟩, ⟨"gap", .number 2⟩] ∧
    (ofAttributes [⟨"wrap", .flag⟩, ⟨"gap", .text "sm"⟩, ⟨"gap", .flag⟩, ⟨"gap", .number 2⟩]).names =
      ["gap", "wrap"] ∧
    (ofAttributes [⟨"wrap", .flag⟩, ⟨"gap", .text "sm"⟩, ⟨"gap", .flag⟩,
      ⟨"gap", .number 2⟩]).get? "gap" = some (.number 2) := by
  obtain ⟨hnames, hvalues, hmoved⟩ := precedence_ofAttributes
    [⟨"wrap", .flag⟩, ⟨"gap", .text "sm"⟩, ⟨"gap", .flag⟩, ⟨"gap", .number 2⟩]
  have hlast : [⟨"wrap", .flag⟩, ⟨"gap", .text "sm"⟩, ⟨"gap", .flag⟩, ⟨"gap", .number 2⟩] =
      [⟨"wrap", .flag⟩, ⟨"gap", .text "sm"⟩, ⟨"gap", .flag⟩] ++
        [(⟨"gap", .number 2⟩ : Attribute)] := rfl
  exact ⟨by decide, by decide, hmoved _ (by decide) (by decide), hnames.trans (by decide),
    (hvalues _ _).mpr (.last hlast rfl (List.forall_mem_nil _))⟩

end LayoutMarkup.Props

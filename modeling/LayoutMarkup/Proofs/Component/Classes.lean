import LayoutMarkup.Component.Resolution
import LayoutMarkup.Component.Safelist
import LayoutMarkup.Proofs.Props.Entries
import LayoutMarkup.Proofs.Text.Words

/-!
# The classes of a component

A class that a component resolves to is one of the safelist, a word that a person wrote into
`className`, or that of a number of columns. In props of a tag no text holds a quotation mark or an
angle bracket, so no class does, and a list of classes can be written into an attribute as it
stands.

## Main definitions

* `ClassOrigin` — where a class comes from
* `IsClass` — a class that can stand in a class list

## Main results

* `Component.classOrigin_of_mem_classes` — every class has an origin
* `Component.isClass_of_mem_classes` — with plain props every class can stand in a class list
-/

namespace LayoutMarkup

open Text

/-- Where a class of a component with these props comes from. -/
inductive ClassOrigin (props : Props) (token : String) : Prop
  /-- It is one of those that compiling can bring in. -/
  | safelisted : token ∈ safelist → ClassOrigin props token
  /-- It is a word of the class list that was given. -/
  | given {value : String} : ⟨classNameProp, .text value⟩ ∈ props.entries →
      token ∈ classTokens value → ClassOrigin props token
  /-- It is the class of the number of columns. -/
  | columns {n : UInt32} : ⟨Axis.cols.prop, .number n⟩ ∈ props.entries →
      columnClass? n = some token → ClassOrigin props token

theorem Axis.mem_table_of_get? {axis : Axis} {key token : String}
    (h : axis.table.get? key = some token) : (key, token) ∈ axis.table := by
  obtain ⟨entry, hfind, rfl⟩ := Option.map_eq_some_iff.mp h
  obtain rfl : entry.1 = key := by simpa using List.find?_some hfind
  exact List.mem_of_find?_eq_some hfind

namespace Component

variable {component : Component} {props : Props} {flag token : String} {effect : PropEffect}

theorem mem_effects_of_effect? (h : component.rule.effect? flag = some effect) :
    (flag, effect) ∈ component.rule.effects := by
  obtain ⟨entry, hfind, rfl⟩ := Option.map_eq_some_iff.mp h
  obtain rfl : entry.1 = flag := by simpa using List.find?_some hfind
  exact List.mem_of_find?_eq_some hfind

theorem mem_safelist_of_mem_tokens (h : token ∈ component.rule.tokens) : token ∈ safelist :=
  mem_safelist_iff.mpr (Or.inl ⟨component, h⟩)

theorem mem_safelist_of_mem_table {axis : Axis} {key : String} (h : (key, token) ∈ axis.table) :
    token ∈ safelist :=
  mem_safelist_iff.mpr (Or.inr ⟨axis, List.mem_map_of_mem h⟩)

theorem mem_safelist_of_get?_table {axis : Axis} {key : String}
    (h : axis.table.get? key = some token) : token ∈ safelist :=
  mem_safelist_of_mem_table (Axis.mem_table_of_get? h)

theorem mem_tokens_of_mem_base (h : token ∈ component.rule.base) :
    token ∈ component.rule.tokens := by
  simp only [Rule.tokens, List.mem_append]
  exact Or.inl (Or.inl (Or.inl h))

theorem mem_tokens_of_mem_effects (h : (flag, effect) ∈ component.rule.effects)
    (htoken : token ∈ effect.tokens) : token ∈ component.rule.tokens := by
  simp only [Rule.tokens, List.mem_append, List.mem_flatMap]
  exact Or.inl (Or.inl (Or.inr ⟨_, h, htoken⟩))

theorem mem_apply_effect {classes : List String}
    (h : token ∈ effect.apply classes) : token ∈ classes ∨ token ∈ effect.tokens := by
  cases effect with
  | add tokens => exact List.mem_append.mp h
  | replace old new =>
    obtain ⟨former, hformer, rfl⟩ := List.mem_map.mp h
    split
    · exact Or.inr List.mem_cons_self
    · exact Or.inl hformer

/-- Flags bring in no classes but those of their effects. -/
theorem mem_foldl_apply_effect {effects : List PropEffect} {classes : List String}
    (h : token ∈ effects.foldl (fun classes effect => effect.apply classes) classes) :
    token ∈ classes ∨ ∃ effect ∈ effects, token ∈ effect.tokens := by
  induction effects generalizing classes with
  | nil => exact Or.inl h
  | cons effect effects ih =>
    rcases ih h with h | ⟨later, hlater, h⟩
    · rcases mem_apply_effect h with h | h
      · exact Or.inl h
      · exact Or.inr ⟨effect, List.mem_cons_self, h⟩
    · exact Or.inr ⟨later, List.mem_cons_of_mem _ hlater, h⟩

theorem mem_tokens_of_mem_flagClasses (h : token ∈ component.flagClasses props) :
    token ∈ component.rule.tokens := by
  rcases mem_foldl_apply_effect h with h | ⟨effect, heffect, h⟩
  · exact mem_tokens_of_mem_base h
  · obtain ⟨flag, -, hflag⟩ := List.mem_filterMap.mp heffect
    exact mem_tokens_of_mem_effects (mem_effects_of_effect? hflag) h

theorem mem_tokens_of_mem_fixedClasses {recorded : Props}
    (h : token ∈ component.fixedClasses recorded) : token ∈ component.rule.tokens := by
  simp only [Rule.tokens, List.mem_append]
  unfold fixedClasses at h
  split at h
  · cases h
  · exact Or.inl (Or.inr h)

theorem mem_tokens_of_mem_axisClasses {recorded : Props}
    (h : token ∈ component.axisClasses recorded) : token ∈ component.rule.tokens := by
  simp only [Rule.tokens, List.mem_append]
  unfold axisClasses at h
  split at h
  · cases h
  · obtain ⟨⟨axis, key⟩, hentry, h⟩ := List.mem_flatMap.mp h
    simp only at h
    split at h
    · cases h
    · exact Or.inr (List.mem_flatMap.mpr ⟨(axis, key), hentry, h⟩)

theorem classOrigin_of_mem_valueClasses {entry : Attribute} (hentry : entry ∈ props.entries)
    (h : token ∈ valueClasses entry) : ClassOrigin props token := by
  obtain ⟨name, value⟩ := entry
  -- Only two props bring in classes that depend on more than the tables: `className` and `cols`.
  cases value with
  | flag => cases h
  | text value =>
    change token ∈ textClasses name value at h
    unfold textClasses at h
    split at h
    · subst name
      exact .given hentry h
    · split at h
      · exact .safelisted (mem_safelist_of_get?_table (Option.mem_toList.mp h))
      · cases h
  | number n =>
    simp only [valueClasses] at h
    split at h
    · subst name
      exact .columns hentry (Option.mem_toList.mp h)
    · cases h

/-- Every class that a component resolves to has an origin. -/
theorem classOrigin_of_mem_classes (h : token ∈ (component.resolve props).classes) :
    ClassOrigin props token := by
  rw [mem_classes_resolve] at h
  simp only [stagedClasses, List.mem_append, List.mem_flatMap] at h
  rcases h with ((h | ⟨entry, hentry, h⟩) | h) | h
  · exact .safelisted (mem_safelist_of_mem_tokens (mem_tokens_of_mem_flagClasses h))
  · exact classOrigin_of_mem_valueClasses (List.mem_filter.mp hentry).1 h
  · exact .safelisted (mem_safelist_of_mem_tokens (mem_tokens_of_mem_fixedClasses h))
  · exact .safelisted (mem_safelist_of_mem_tokens (mem_tokens_of_mem_axisClasses h))

end Component

/-! ### Classes in a class list -/

/-- A class that can stand in a class list: it is one word, and plain. -/
structure IsClass (token : String) : Prop where
  ne_nil : token.toList ≠ []
  not_blank : ∀ c ∈ token.toList, isBlank c = false
  plain : IsPlain token.toList

theorem isClass_iff {token : String} : IsClass token ↔
    token.toList ≠ [] ∧ token.toList.all (fun c => !isBlank c && isPlain c) = true := by
  simp only [List.all_eq_true, Bool.and_eq_true, Bool.not_eq_true']
  constructor
  · intro h
    exact ⟨h.ne_nil, fun c hc => ⟨h.not_blank c hc, h.plain c hc⟩⟩
  · rintro ⟨hne, hchars⟩
    exact ⟨hne, fun c hc => (hchars c hc).1, fun c hc => (hchars c hc).2⟩

instance (token : String) : Decidable (IsClass token) := decidable_of_iff' _ isClass_iff

/-- A class that compiling can bring in is made of word characters and hyphens. -/
theorem isWordChar_or_hyphen_of_mem_safelist {token : String} (h : token ∈ safelist) :
    token.toList ≠ [] ∧ ∀ c ∈ token.toList, isWordChar c = true ∨ c = '-' := by
  have hall : ∀ token ∈ safelist,
      token.toList ≠ [] ∧ token.toList.all (fun c => isWordChar c || c = '-') = true := by
    decide +kernel
  obtain ⟨hne, hchars⟩ := hall token h
  refine ⟨hne, fun c hc => ?_⟩
  simpa only [Bool.or_eq_true, decide_eq_true_eq] using List.all_eq_true.mp hchars c hc

theorem isClass_of_mem_safelist {token : String} (h : token ∈ safelist) : IsClass token := by
  obtain ⟨hne, hchars⟩ := isWordChar_or_hyphen_of_mem_safelist h
  refine ⟨hne, fun c hc => ?_, fun c hc => ?_⟩
  all_goals rcases hchars c hc with hword | rfl
  · exact isBlank_eq_false_of_isWordChar hword
  · decide
  · exact isPlain_of_isWordChar hword
  · decide

theorem isClass_of_columnClass? {n : UInt32} {token : String} (h : columnClass? n = some token) :
    IsClass token := by
  unfold columnClass? at h
  split at h
  · cases h
  · cases h
    have hstem : IsClass columnStem := by decide
    have hdigit {c : Char} (hc : c ∈ Decimal.write n.toNat) : isWordChar c = true :=
      isWordChar_of_isDigit (Decimal.isDigit_of_mem_write hc)
    refine ⟨by simp [columnStem], ?_, ?_⟩
    all_goals
      intro c hc
      rw [String.toList_append, String.toList_ofList, List.mem_append] at hc
    · exact hc.elim (hstem.not_blank c) fun hc => isBlank_eq_false_of_isWordChar (hdigit hc)
    · exact hc.elim (hstem.plain c) fun hc => isPlain_of_isWordChar (hdigit hc)

/-- Words with single spaces between them are a class list of these words. -/
theorem classTokens_intercalate {tokens : List String}
    (h : ∀ token ∈ tokens, token.toList ≠ [] ∧ ∀ c ∈ token.toList, isBlank c = false) :
    classTokens (" ".intercalate tokens) = tokens := by
  rw [classTokens, words_toList_intercalate h, List.map_map]
  exact (List.map_congr_left fun token _ => String.ofList_toList).trans (List.map_id _)

theorem isClass_of_mem_classTokens {value token : String} (hvalue : IsPlain value.toList)
    (h : token ∈ classTokens value) : IsClass token := by
  obtain ⟨word, hword, rfl⟩ := List.mem_map.mp h
  obtain ⟨hne, hchars⟩ := mem_words hword
  refine ⟨?_, ?_, ?_⟩
  all_goals rw [String.toList_ofList]
  · exact hne
  · exact fun c hc => (hchars c hc).2
  · exact fun c hc => hvalue c (hchars c hc).1

/-- With plain props every class of a component can stand in a class list. -/
theorem Component.isClass_of_mem_classes {component : Component} {props : Props} {token : String}
    (hprops : props.Plain) (h : token ∈ (component.resolve props).classes) : IsClass token := by
  cases classOrigin_of_mem_classes h with
  | safelisted h => exact isClass_of_mem_safelist h
  | given hentry h => exact isClass_of_mem_classTokens (hprops _ _ hentry) h
  | columns _ h => exact isClass_of_columnClass? h

end LayoutMarkup

import LayoutMarkup.Proofs.Component.Classes
import LayoutMarkup.Proofs.Tag.Written

/-!
# Containers

The opening tag of a container is written without any escaping. It is a tag nevertheless, and it
says what the resolution says: a class holds neither a blank nor an angle bracket nor a quotation
mark, so the list of classes, with single spaces, can be written into an attribute and cut into the
classes again.

## Main definitions

* `Resolution.containerTag`, `Resolution.containerCloser` — the tags of a container
* `Resolution.containerEntries` — the attributes of a container

## Main results

* `Resolution.wellFormed_containerTag` — the opening tag of a container is a tag
* `Resolution.entries_props_containerTag` — its props are the attributes of the container
* `Resolution.classTokens_classText` — its class list holds the classes
-/

namespace LayoutMarkup

open Text

namespace Resolution

variable {resolution : Resolution}

/-- The opening tag of a container. -/
def containerTag (resolution : Resolution) : Tag :=
  .opener "div".toList resolution.containerAttrs.toList

/-- The closing tag of a container. -/
def containerCloser : Tag := .closer "div".toList []

theorem source_containerTag (resolution : Resolution) :
    resolution.containerTag.source = resolution.openTag.toList := by
  simp [containerTag, Tag.source, openTag]

theorem source_containerCloser : containerCloser.source = closeTag.toList := rfl

theorem isName_div : Tag.IsName "div".toList :=
  ⟨'d', ['i', 'v'], rfl, rfl, List.all_eq_true.mp rfl⟩

theorem wellFormed_containerCloser : containerCloser.WellFormed :=
  .closer isName_div (by simp)

/-- The attributes of a container. -/
def containerEntries (resolution : Resolution) : List Attribute :=
  (if resolution.classes = [] then [] else [⟨"class", .text resolution.classText⟩])
    ++ resolution.component.rule.marker.toList.map fun marker =>
      ⟨marker.parts.1, .text marker.parts.2⟩

/-- The attribute text of a container is its attributes, written out. -/
theorem toList_containerAttrs (resolution : Resolution) :
    resolution.containerAttrs.toList =
      resolution.containerEntries.flatMap Attribute.written := by
  unfold containerAttrs containerEntries
  cases resolution.component.rule.marker <;> split <;>
    simp [Attribute.written, Attribute.Item.ofAttribute, Attribute.Item.source, Marker.written]

theorem exists_text_of_mem_containerEntries {entry : Attribute}
    (h : entry ∈ resolution.containerEntries) : ∃ value, entry.value = .text value := by
  rcases List.mem_append.mp h with h | h
  · split at h
    · cases h
    · exact ⟨_, congrArg Attribute.value (List.mem_singleton.mp h)⟩
  · obtain ⟨marker, -, rfl⟩ := List.mem_map.mp h
    exact ⟨_, rfl⟩

theorem isPlain_classText (h : ∀ token ∈ resolution.classes, IsClass token) :
    IsPlain resolution.classText.toList := by
  intro c hc
  rcases mem_toList_intercalate hc with rfl | ⟨token, htoken, hc⟩
  · decide
  · exact (h token htoken).plain c hc

theorem isQuotable_classText (h : ∀ token ∈ resolution.classes, IsClass token)
    (hne : resolution.classes ≠ []) : Attribute.IsQuotable resolution.classText.toList := by
  constructor
  · obtain ⟨token, tokens, hclasses⟩ := List.exists_cons_of_ne_nil hne
    have htoken := (h token (hclasses ▸ List.mem_cons_self)).ne_nil
    by_cases hnil : tokens = []
    · simpa [classText, hclasses, hnil] using htoken
    · simp [classText, hclasses, String.intercalate_cons_of_ne_nil hnil]
  · intro hquote
    have := isPlain_classText h _ hquote
    contradiction

/-- The attributes of a container can be written, and their texts are plain. -/
theorem writable_of_mem_containerEntries (h : ∀ token ∈ resolution.classes, IsClass token)
    {entry : Attribute} (hentry : entry ∈ resolution.containerEntries) :
    entry.Writable ∧ ∀ value, entry.value = .text value → IsPlain value.toList := by
  rcases List.mem_append.mp hentry with hentry | hentry
  · split at hentry
    · cases hentry
    · rename_i hne
      obtain rfl := List.mem_singleton.mp hentry
      have hname : Attribute.IsName "class".toList := by decide
      refine ⟨⟨hname, ?_⟩, ?_⟩
      · rintro _ ⟨⟩
        exact isQuotable_classText h hne
      · rintro _ ⟨⟩
        exact isPlain_classText h
  · obtain ⟨marker, -, rfl⟩ := List.mem_map.mp hentry
    refine ⟨by cases marker <;> decide, ?_⟩
    rintro _ ⟨⟩
    rw [IsPlain, ← List.all_eq_true]
    cases marker <;> rfl

theorem containerTag_eq (resolution : Resolution) :
    resolution.containerTag = .withAttributes "div".toList resolution.containerEntries := by
  rw [containerTag, toList_containerAttrs]
  rfl

/-- The opening tag of a container is a tag. -/
theorem wellFormed_containerTag (h : ∀ token ∈ resolution.classes, IsClass token) :
    resolution.containerTag.WellFormed := by
  rw [containerTag_eq]
  exact Tag.wellFormed_withAttributes isName_div
    (fun _ hentry => (writable_of_mem_containerEntries h hentry).1)
    (fun _ hentry => (writable_of_mem_containerEntries h hentry).2)

/-- A container has no attribute that is a flag. -/
theorem isName_of_mem_containerEntries {entry : Attribute}
    (h : entry ∈ resolution.containerEntries) (hflag : entry.value = .flag) :
    Attribute.IsName entry.name.toList := by
  obtain ⟨value, hvalue⟩ := exists_text_of_mem_containerEntries h
  rw [hflag] at hvalue
  cases hvalue

/-- The opening tag of a container is an opening one. -/
theorem kind_containerTag (resolution : Resolution) : resolution.containerTag.kind = .opening := by
  rw [containerTag_eq]
  exact Tag.kind_withAttributes fun _ => isName_of_mem_containerEntries

theorem attrs_containerTag (resolution : Resolution) :
    resolution.containerTag.attrs = resolution.containerAttrs.toList := by
  rw [containerTag_eq, toList_containerAttrs]
  exact Tag.attrs_withAttributes fun _ => isName_of_mem_containerEntries

theorem nodup_map_name_containerEntries (resolution : Resolution) :
    (resolution.containerEntries.map Attribute.name).Nodup := by
  unfold containerEntries
  cases resolution.component.rule.marker with
  | none => split <;> simp
  | some marker => cases marker <;> split <;> simp [Marker.parts]

/-- The props of a container's opening tag are the attributes of the container. -/
theorem entries_props_containerTag (h : ∀ token ∈ resolution.classes, IsClass token) :
    resolution.containerTag.props.entries = resolution.containerEntries := by
  -- None of the attributes is a flag, so all stay where they are.
  have hvalued : ∀ entry ∈ resolution.containerEntries, entry.value.isFlag = false := by
    intro entry hentry
    obtain ⟨value, hvalue⟩ := exists_text_of_mem_containerEntries hentry
    rw [hvalue]
    rfl
  obtain ⟨hflags, hvalues⟩ := Props.filter_isFlag_of_valued hvalued
  rw [containerTag_eq, Tag.entries_props_withAttributes
    (fun _ hentry => (writable_of_mem_containerEntries h hentry).1)
    (nodup_map_name_containerEntries resolution), hvalues, hflags, List.append_nil]

/-- The class list of a container holds the classes, one by one. -/
theorem classTokens_classText (h : ∀ token ∈ resolution.classes, IsClass token) :
    classTokens resolution.classText = resolution.classes :=
  classTokens_intercalate fun token htoken =>
    ⟨(h token htoken).ne_nil, (h token htoken).not_blank⟩

end Resolution

end LayoutMarkup

import LayoutMarkup.Markup
import LayoutMarkup.Proofs.Component.Container
import LayoutMarkup.Proofs.Document.Segments
import LayoutMarkup.Proofs.Report.Results
import Mathlib.Data.List.Basic

/-!
# The tags of a compiled document

The container tags that compiling writes are well-formed, so compiling replaces tags by tags, and
the tags of the compiled document are known from those of the document. No component is among them,
so compiling a second time changes nothing.

## Main definitions

* `Tag.compiled` — the tags that stand in the place of a tag
* `Tag.Shape`, `Tag.shape`, `Tag.compiledShapes` — the same on what tags say

## Main results

* `Document.segments_compile` — the reading of a compiled document
* `Document.scan_compile` — compiling, tag by tag, and what follows from it
-/

namespace LayoutMarkup

open Text

/-! ### Tags in the place of a tag -/

namespace Tag

/-- The tags that stand in the place of a tag in the compiled document. -/
def compiled (tag : Tag) : List Tag :=
  match Component.ofName? tag.name with
  | none => [tag]
  | some component =>
    match tag.kind with
    | .opening => [(component.resolveTag tag).containerTag]
    | .selfClosing => [(component.resolveTag tag).containerTag, Resolution.containerCloser]
    | .closing => [Resolution.containerCloser]

/-- The name, the kind and the attribute text of a tag. -/
abbrev Shape := String × Kind × List Char

/-- What a tag says. -/
def shape (tag : Tag) : Shape := (tag.name, tag.kind, tag.attrs)

/-- What the tags say that stand in the place of a tag in the compiled document. -/
def compiledShapes (tag : Tag) : List Shape :=
  match Component.ofName? tag.name with
  | none => [tag.shape]
  | some component =>
    match tag.kind with
    | .opening => [("div", .opening, (component.resolveTag tag).containerAttrs.toList)]
    | .selfClosing =>
      [("div", .opening, (component.resolveTag tag).containerAttrs.toList), ("div", .closing, [])]
    | .closing => [("div", .closing, [])]

variable {tag : Tag}

theorem compiled_ne_nil (tag : Tag) : tag.compiled ≠ [] := by
  unfold compiled
  split
  · exact List.cons_ne_nil _ _
  · split <;> exact List.cons_ne_nil _ _

theorem map_shape_compiled (tag : Tag) : tag.compiled.map shape = tag.compiledShapes := by
  have hopen (resolution : Resolution) : resolution.containerTag.shape =
      ("div", .opening, resolution.containerAttrs.toList) := by
    rw [shape, Resolution.kind_containerTag, Resolution.attrs_containerTag]
    rfl
  have hclose : Resolution.containerCloser.shape = ("div", .closing, []) := rfl
  unfold compiled compiledShapes
  cases Component.ofName? tag.name with
  | none => rfl
  | some component => cases tag.kind <;> simp [hopen, hclose]

/-- No tag of a component is put in the place of a tag. -/
theorem ofName?_of_mem_compiled {t : Tag} (h : t ∈ tag.compiled) :
    Component.ofName? t.name = none := by
  have hdiv : Component.ofName? "div" = none := by decide
  unfold compiled at h
  split at h
  · rename_i hname
    rw [List.mem_singleton.mp h]
    exact hname
  · split at h <;> simp only [List.mem_cons, List.not_mem_nil, or_false] at h
    · rw [h]
      exact hdiv
    · rcases h with rfl | rfl <;> exact hdiv
    · rw [h]
      exact hdiv

theorem WellFormed.isClass_of_mem_classes (h : tag.WellFormed) (component : Component) :
    ∀ token ∈ (component.resolveTag tag).classes, IsClass token :=
  fun _ htoken => Component.isClass_of_mem_classes (plain_props h) htoken

/-- In the place of a tag stand tags. -/
theorem WellFormed.of_mem_compiled (h : tag.WellFormed) : ∀ t ∈ tag.compiled, t.WellFormed := by
  have hopen (component : Component) :=
    Resolution.wellFormed_containerTag (h.isClass_of_mem_classes component)
  have hclose := Resolution.wellFormed_containerCloser
  intro t ht
  unfold compiled at ht
  split at ht
  · rw [List.mem_singleton.mp ht]
    exact h
  · split at ht <;> simp only [List.mem_cons, List.not_mem_nil, or_false] at ht
    · exact ht ▸ hopen _
    · rcases ht with rfl | rfl
      · exact hopen _
      · exact hclose
    · exact ht ▸ hclose

end Tag

/-- A compiled segment is the text of the tags in the place of its tag. -/
theorem Segment.compiled_eq (seg : Segment) :
    seg.compiled = (seg.replace Tag.compiled).flatMap Segment.source := by
  cases seg with
  | text c => rfl
  | tag t =>
    simp only [compiled, replace, Tag.compiled, Component.container]
    cases Component.ofName? t.name with
    | none => simp [Segment.source]
    | some component =>
      cases t.kind <;>
        simp [Segment.source, Resolution.source_containerTag, Resolution.source_containerCloser,
          Resolution.element]

/-! ### The document as a whole -/

namespace Document

/-- The reading of a compiled document is that of the document with other tags in the place of the
components'. -/
theorem segments_compile (source : String) : segments (compile source).toList =
    (segments source.toList).flatMap (Segment.replace Tag.compiled) := by
  -- The compiled text is the text of these segments, and as they are faithful it reads back.
  have htext : (compile source).toList =
      ((segments source.toList).flatMap (Segment.replace Tag.compiled)).flatMap
        Segment.source := by
    rw [compile, String.toList_ofList, List.flatMap_assoc]
    exact List.flatMap_congr fun seg _ => seg.compiled_eq
  rw [htext]
  exact segments_flatMap_source ((faithful_segments source.toList).flatMap_replace
    Tag.compiled_ne_nil fun _ h => h.of_mem_compiled)

theorem map_tag_scan_compile (source : String) : (scan (compile source)).map Occurrence.tag =
    ((scan source).map Occurrence.tag).flatMap Tag.compiled := by
  rw [map_tag_scan, segments_compile, filterMap_tag?_flatMap_replace, ← map_tag_scan]

/-- No tag of a compiled document is that of a component. -/
theorem ofName?_of_mem_scan_compile (source : String) :
    ∀ o ∈ scan (compile source), Component.ofName? o.tag.name = none := by
  intro o ho
  have htag : o.tag ∈ (scan (compile source)).map Occurrence.tag := List.mem_map_of_mem ho
  rw [map_tag_scan_compile, List.mem_flatMap] at htag
  obtain ⟨tag, -, htag⟩ := htag
  exact Tag.ofName?_of_mem_compiled htag

/-- A document without components compiles to itself. -/
theorem compile_eq_self {source : String}
    (h : ∀ o ∈ scan source, Component.ofName? o.tag.name = none) : compile source = source := by
  have htags : ∀ seg ∈ segments source.toList, seg.compiled = seg.source := by
    intro seg hseg
    cases seg with
    | text c => rfl
    | tag t =>
      have ht : t ∈ (scan source).map Occurrence.tag := by
        rw [map_tag_scan]
        exact List.mem_filterMap.mpr ⟨.tag t, hseg, rfl⟩
      obtain ⟨o, ho, rfl⟩ := List.mem_map.mp ht
      simp only [Segment.compiled, h o ho, Segment.source]
  rw [compile, List.flatMap_congr htags, flatMap_source_segments, String.ofList_toList]

theorem results_eq_nil {source : String}
    (h : ∀ o ∈ scan source, Component.ofName? o.tag.name = none) :
    (Report.ofSource source).results = [] := by
  rw [Report.results_eq_filterMap_scan, List.filterMap_eq_nil_iff]
  intro o ho
  simp [Occurrence.resolution?, resolve?, h o ho]

/-- Compiling acts on a document tag by tag: what the tags of the compiled document say is what
stands in the place of each tag, in order. So no component is left, compiling again changes nothing
and reports nothing, and a document compiles to itself just if it has no component. -/
theorem scan_compile (source : String) :
    (scan (compile source)).map (fun o => o.tag.shape) =
        (scan source).flatMap (fun o => o.tag.compiledShapes) ∧
      (∀ o ∈ scan (compile source), Component.ofName? o.tag.name = none) ∧
      compile (compile source) = compile source ∧
      (Report.ofSource (compile source)).results = [] ∧
      (compile source = source ↔
        ∀ o ∈ scan source, Component.ofName? o.tag.name = none) := by
  have hnone := ofName?_of_mem_scan_compile source
  refine ⟨?_, hnone, compile_eq_self hnone, results_eq_nil hnone, ?_, compile_eq_self⟩
  · have hshapes := congrArg (List.map Tag.shape) (map_tag_scan_compile source)
    rw [List.map_flatMap, List.map_map, List.flatMap_map] at hshapes
    simpa only [Function.comp_def, Tag.map_shape_compiled] using hshapes
  · intro heq
    rw [heq] at hnone
    exact hnone

end Document

end LayoutMarkup

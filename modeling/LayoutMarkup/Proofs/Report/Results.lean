import LayoutMarkup.Markup
import LayoutMarkup.Report

/-!
# The results of a report

The findings are made in a walk of their own over the segments. Their resolutions are those of the
components' opening tags, tag by tag.

## Main definitions

* `Occurrence.resolution?` — what the opening tag of a component resolves to

## Main results

* `Report.results_eq_filterMap_scan` — the results of a report, read off the tags
-/

namespace LayoutMarkup

open Text

/-- What an occurrence of a component's opening tag resolves to. -/
def Occurrence.resolution? (o : Occurrence) : Option Resolution :=
  if o.tag.isOpening then resolve? o.tag.name o.tag.props else none

namespace Occurrence

variable {o : Occurrence} {component : Component}

theorem resolution?_of_ofName?_eq_none (h : Component.ofName? o.tag.name = none) :
    o.resolution? = none := by
  simp [resolution?, resolve?, h]

theorem resolution?_of_ofName?_eq_some (h : Component.ofName? o.tag.name = some component) :
    o.resolution? = if o.tag.isOpening then some (component.resolveTag o.tag) else none := by
  simp [resolution?, resolve?, h, Component.resolveTag]

/-- The resolution of a tag is that of its component. -/
theorem component_of_resolution?_eq_some {resolution : Resolution}
    (h : o.resolution? = some resolution) :
    Component.ofName? o.tag.name = some resolution.component ∧
      resolution = resolution.component.resolveTag o.tag := by
  cases hname : Component.ofName? o.tag.name with
  | none =>
    rw [resolution?_of_ofName?_eq_none hname] at h
    cases h
  | some component =>
    rw [resolution?_of_ofName?_eq_some hname] at h
    split at h
    · cases h
      exact ⟨rfl, rfl⟩
    · cases h

end Occurrence

/-- The resolution that a tag adds to a report does not depend on what stands behind the tag. -/
theorem Tag.filterMap_resolution?_finding? (tag : Tag) (span : Span) (line : Nat)
    (behind : List Segment) :
    (tag.finding? line behind).toList.filterMap Finding.resolution? =
      (Occurrence.resolution? ⟨tag, span⟩).toList := by
  unfold Tag.finding? Occurrence.resolution?
  cases tag.isOpening with
  | false => rfl
  | true => cases resolve? tag.name tag.props <;> simp [Finding.resolution?]

namespace Document

theorem filterMap_resolution?_findings (p : Position) (segs : List Segment) :
    (findings p segs).filterMap Finding.resolution? =
      (occurrences p segs).filterMap Occurrence.resolution? := by
  induction segs generalizing p with
  | nil => rfl
  | cons seg segs ih =>
    cases seg with
    | text c => exact ih _
    | tag t =>
      rw [findings, List.filterMap_append, ih, occurrences,
        Tag.filterMap_resolution?_finding? t (.over p t.source)]
      cases hresolution : Occurrence.resolution? ⟨t, .over p t.source⟩ with
      | none => rw [List.filterMap_cons_none hresolution, Option.toList_none, List.nil_append]
      | some resolution =>
        rw [List.filterMap_cons_some hresolution, Option.toList_some, List.singleton_append]

end Document

/-- The results of a report are the resolutions of the components' opening tags, in order. -/
theorem Report.results_eq_filterMap_scan (source : String) :
    (ofSource source).results = (Document.scan source).filterMap Occurrence.resolution? :=
  Document.filterMap_resolution?_findings _ _

end LayoutMarkup

import LayoutMarkup.Markup
import LayoutMarkup.Proofs.Document.Segments
import LayoutMarkup.Proofs.Report.Results
import LayoutMarkup.Proofs.Text.Slice
import Mathlib.Data.List.Forall2

/-!
# The compiled document and the report

A document is compiled in one walk and reported on in another. The report has one resolution for
each opening tag of a component, and with these the compiled document can be put together without a
second look at the tags: cut out the stretches of the components' tags, put in what the report says,
and keep every other byte where it is. Both walks log the same of each component.

## Main definitions

* `Occurrence.isComponentOpening` — the opening tags of components
* `Document.containerEdits` — the edits that a report prescribes
* `Document.resolved` — the components' opening tags, each with its resolution
* `Event.fieldsOf` — what events of one kind hold

## Main results

* `Document.forall₂_results` — the results of a report and the tags that they are about
* `Document.splice?_containerEdits` — the edits of a report give the compiled document
* `Document.compile_agrees_report` — both, and what is logged
-/

namespace LayoutMarkup

open Text
open Position (byteLength)

namespace Occurrence

/-- Whether a tag is the opening tag of a component. -/
def isComponentOpening (o : Occurrence) : Bool :=
  o.tag.isOpening && (Component.ofName? o.tag.name).isSome

/-- The edit that compiling makes in the place of a tag. -/
def edit? (o : Occurrence) : Option Edit :=
  (Component.ofName? o.tag.name).map fun component =>
    ⟨o.span, (component.container o.tag).toList⟩

theorem isSome_resolution? (o : Occurrence) : o.resolution?.isSome = o.isComponentOpening := by
  rw [isComponentOpening]
  cases hname : Component.ofName? o.tag.name with
  | none => simp [resolution?_of_ofName?_eq_none hname]
  | some component =>
    rw [resolution?_of_ofName?_eq_some hname]
    cases o.tag.isOpening <;> rfl

end Occurrence

namespace Document

/-- The edits that put containers in the place of components' tags, where the resolutions of the
opening tags are taken from a list, one after the other. -/
def containerEdits : List Occurrence → List Resolution → List Edit
  | [], _ => []
  | o :: rest, resolutions =>
    if (Component.ofName? o.tag.name).isSome then
      match o.tag.kind, resolutions with
      | .closing, _ => ⟨o.span, "</div>".toList⟩ :: containerEdits rest resolutions
      | .opening, resolution :: resolutions =>
        ⟨o.span, resolution.openTag.toList⟩ :: containerEdits rest resolutions
      | .selfClosing, resolution :: resolutions =>
        ⟨o.span, resolution.openTag.toList ++ "</div>".toList⟩ :: containerEdits rest resolutions
      | _, [] => []
    else containerEdits rest resolutions

/-- With the resolutions of the tags themselves, the edits are those that compiling makes. -/
theorem containerEdits_filterMap_resolution? (os : List Occurrence) :
    containerEdits os (os.filterMap Occurrence.resolution?) = os.filterMap Occurrence.edit? := by
  induction os with
  | nil => rfl
  | cons o os ih =>
    -- Only an opening tag takes a resolution off the list; a closing tag makes an edit without one.
    cases hname : Component.ofName? o.tag.name with
    | none =>
      have hedit : o.edit? = none := by rw [Occurrence.edit?, hname, Option.map_none]
      rw [List.filterMap_cons_none (Occurrence.resolution?_of_ofName?_eq_none hname),
        List.filterMap_cons_none hedit, ← ih]
      simp [containerEdits, hname]
    | some component =>
      have hedit : o.edit? = some ⟨o.span, (component.container o.tag).toList⟩ := by
        rw [Occurrence.edit?, hname, Option.map_some]
      have hresolution := Occurrence.resolution?_of_ofName?_eq_some hname
      rw [List.filterMap_cons_some hedit, Component.container, ← ih]
      cases hkind : o.tag.kind with
      | closing =>
        rw [Tag.isOpening, hkind] at hresolution
        rw [List.filterMap_cons_none hresolution]
        simp [containerEdits, hname, hkind, Resolution.closeTag]
      | opening =>
        rw [Tag.isOpening, hkind] at hresolution
        rw [List.filterMap_cons_some hresolution]
        simp [containerEdits, hname, hkind]
      | selfClosing =>
        rw [Tag.isOpening, hkind] at hresolution
        rw [List.filterMap_cons_some hresolution]
        simp [containerEdits, hname, hkind, Resolution.element, Resolution.closeTag]

/-- The edits of the components' tags give the compiled text. In front of the segments stands text
that is done with, and behind that text which is kept but not yet copied. -/
theorem splice?_edits (segs : List Segment) (before pending : List Char) (p : Position)
    (hp : p.offset = byteLength (before ++ pending)) :
    splice? (before ++ (pending ++ segs.flatMap Segment.source)) (byteLength before)
        ((occurrences p segs).filterMap Occurrence.edit?) =
      some (pending ++ segs.flatMap Segment.compiled) := by
  -- Plain segments pile up in the pending text until an edit, or the end, copies it.
  induction segs generalizing before pending p with
  | nil =>
    have hslice := slice?_append before pending []
    simpa [splice?, occurrences] using hslice
  | cons seg segs ih =>
    cases seg with
    | text c =>
      have hoffset : (p.next c).offset = byteLength (before ++ (pending ++ [c])) := by
        rw [Position.next_offset, hp, ← List.append_assoc, Position.byteLength_append _ [c]]
        simp
      have hrest := ih before (pending ++ [c]) (p.next c) hoffset
      simpa [occurrences, Segment.source, Segment.compiled] using hrest
    | tag t =>
      have hoffset : (p.after t.source).offset = byteLength (before ++ (pending ++ t.source)) := by
        rw [Position.after_offset, hp, ← List.append_assoc, Position.byteLength_append _ t.source]
      rw [occurrences, List.flatMap_cons, List.flatMap_cons]
      cases hname : Component.ofName? t.name with
      | none =>
        -- The tag is kept: it joins the text that is not yet copied.
        have hedit : Occurrence.edit? ⟨t, .over p t.source⟩ = none := by
          simp [Occurrence.edit?, hname]
        have hrest := ih before (pending ++ t.source) (p.after t.source) hoffset
        rw [List.filterMap_cons_none hedit]
        simpa [Segment.source, Segment.compiled, hname] using hrest
      | some component =>
        -- The text before the tag is copied, and the tag is done with.
        have hedit : Occurrence.edit? ⟨t, .over p t.source⟩ =
            some ⟨.over p t.source, (component.container t).toList⟩ := by
          simp [Occurrence.edit?, hname]
        have hkept := slice?_append before pending (t.source ++ segs.flatMap Segment.source)
        have hrest := ih (before ++ (pending ++ t.source)) [] (p.after t.source)
          (by rw [hoffset, List.append_nil])
        rw [List.nil_append, List.nil_append, ← hoffset] at hrest
        simp only [List.append_assoc] at hrest
        rw [List.filterMap_cons_some hedit]
        simp only [splice?, Span.over, Segment.source, Segment.compiled, hname, hp, hkept, hrest,
          Option.bind_eq_bind, Option.bind_some, Option.pure_def, List.append_assoc]

/-- The edits of the tags give the compiled document. -/
theorem splice?_filterMap_edit? (source : String) :
    splice? source.toList 0 ((scan source).filterMap Occurrence.edit?) =
      some (compile source).toList := by
  have hsplice := splice?_edits (segments source.toList) [] [] .start rfl
  rw [List.nil_append, List.nil_append, List.nil_append, flatMap_source_segments] at hsplice
  rw [compile, String.toList_ofList]
  exact hsplice

/-- The edits that a report prescribes give the compiled document. -/
theorem splice?_containerEdits (source : String) :
    splice? source.toList 0 (containerEdits (scan source) (Report.ofSource source).results) =
      some (compile source).toList := by
  rw [Report.results_eq_filterMap_scan, containerEdits_filterMap_resolution?]
  exact splice?_filterMap_edit? source

/-! ### The results and the tags -/

/-- The components' opening tags, each with its resolution. -/
def resolved (os : List Occurrence) : List (Occurrence × Resolution) :=
  os.filterMap fun o => o.resolution?.map (o, ·)

theorem map_fst_resolved (os : List Occurrence) :
    (resolved os).map Prod.fst = os.filter Occurrence.isComponentOpening := by
  rw [resolved, List.map_filterMap, ← List.filterMap_eq_filter]
  congr 1
  funext o
  have hsome := o.isSome_resolution?
  cases hresolution : o.resolution? with
  | none =>
    rw [hresolution, Option.isSome_none] at hsome
    simp [Option.guard, ← hsome]
  | some resolution =>
    rw [hresolution, Option.isSome_some] at hsome
    simp [Option.guard, ← hsome]

theorem map_snd_resolved (os : List Occurrence) :
    (resolved os).map Prod.snd = os.filterMap Occurrence.resolution? := by
  rw [resolved, List.map_filterMap]
  congr 1
  funext o
  simp [Function.comp_def]

/-- The results of a report, one by one, and the tags that they are about. -/
theorem forall₂_results (source : String) :
    List.Forall₂
      (fun o r => Component.ofName? o.tag.name = some r.component ∧
        r = r.component.resolveTag o.tag)
      ((scan source).filter Occurrence.isComponentOpening) (Report.ofSource source).results := by
  rw [Report.results_eq_filterMap_scan, ← map_fst_resolved, ← map_snd_resolved,
    List.forall₂_map_left_iff, List.forall₂_map_right_iff, List.forall₂_same]
  intro pair hpair
  obtain ⟨o, -, ho⟩ := List.mem_filterMap.mp hpair
  obtain ⟨resolution, hresolution, rfl⟩ := Option.map_eq_some_iff.mp ho
  exact Occurrence.component_of_resolution?_eq_some hresolution

end Document

/-! ### Logging -/

namespace Event

/-- What the events of a level with a message hold, in order. -/
def fieldsOf (level : Level) (message : String) (events : List Event) :
    List (List (String × String)) :=
  (events.filter fun event => event.level = level ∧ event.message = message).map fields

variable {level : Level} {message : String} {event : Event}

theorem fieldsOf_cons_of_eq (hlevel : event.level = level) (hmessage : event.message = message)
    (events : List Event) :
    fieldsOf level message (event :: events) = event.fields :: fieldsOf level message events := by
  rw [fieldsOf, List.filter_cons_of_pos (by simp [hlevel, hmessage]), List.map_cons]
  rfl

theorem fieldsOf_cons_of_ne (hmessage : event.message ≠ message) (events : List Event) :
    fieldsOf level message (event :: events) = fieldsOf level message events := by
  rw [fieldsOf, List.filter_cons_of_neg (by simp [hmessage])]
  rfl

end Event

/-- What both walks log of a tag and its resolution. -/
def Occurrence.loggedWith (o : Occurrence) (resolution : Resolution) : List (String × String) :=
  [("component", resolution.component.name), ("line", toString o.line),
    ("classes", resolution.classText)]

namespace Document

/-- What is logged of the components' opening tags. -/
def loggedOf (os : List Occurrence) : List (List (String × String)) :=
  (resolved os).map fun pair => pair.1.loggedWith pair.2

variable {o : Occurrence}

theorem loggedOf_cons_of_none (h : o.resolution? = none) (os : List Occurrence) :
    loggedOf (o :: os) = loggedOf os := by
  rw [loggedOf, resolved, List.filterMap_cons_none (by rw [h, Option.map_none])]
  rfl

theorem loggedOf_cons_of_some {resolution : Resolution} (h : o.resolution? = some resolution)
    (os : List Occurrence) : loggedOf (o :: os) = o.loggedWith resolution :: loggedOf os := by
  rw [loggedOf, resolved, List.filterMap_cons_some (by rw [h, Option.map_some])]
  rfl

theorem loggedOf_eq_zipWith (os : List Occurrence) : loggedOf os =
    List.zipWith Occurrence.loggedWith (os.filter Occurrence.isComponentOpening)
      (os.filterMap Occurrence.resolution?) := by
  rw [← map_fst_resolved, ← map_snd_resolved, List.zipWith_map, List.zipWith_self]
  rfl

/-- The report logs each component's opening tag. -/
theorem fieldsOf_findings (p : Position) (segs : List Segment) :
    Event.fieldsOf .debug "resolved tag" ((findings p segs).map Finding.event) =
      loggedOf (occurrences p segs) := by
  induction segs generalizing p with
  | nil => rfl
  | cons seg segs ih =>
    cases seg with
    | text c => exact ih _
    | tag t =>
      have hopening : t.isOpening = true ∨ t.isOpening = false := (Bool.eq_false_or_eq_true _)
      rw [findings, occurrences]
      cases hname : Component.ofName? t.name with
      | none =>
        rw [loggedOf_cons_of_none (Occurrence.resolution?_of_ofName?_eq_none hname), ← ih]
        rcases hopening with hopening | hopening
        · simp only [Tag.finding?, hopening, if_true, resolve?, hname, Option.map_none,
            Option.toList_some, List.singleton_append, List.map_cons]
          exact Event.fieldsOf_cons_of_ne (by simp [Finding.event, Event.message]) _
        · simp [Tag.finding?, hopening]
      | some component =>
        have hresolution := Occurrence.resolution?_of_ofName?_eq_some
          (o := ⟨t, .over p t.source⟩) hname
        rcases hopening with hopening | hopening
        · simp only [hopening, if_true] at hresolution
          rw [loggedOf_cons_of_some hresolution, ← ih]
          simp only [Tag.finding?, hopening, if_true, resolve?, hname, Option.map_some,
            Option.toList_some, List.singleton_append, List.map_cons]
          rw [Event.fieldsOf_cons_of_eq (by rfl) (by rfl)]
          rfl
        · simp only [hopening, Bool.false_eq_true, if_false] at hresolution
          rw [loggedOf_cons_of_none hresolution, ← ih]
          simp [Tag.finding?, hopening]

/-- Compiling logs each component's opening tag, whichever components are open. -/
theorem fieldsOf_nestingEvents (opened : List Component) (os : List Occurrence) :
    Event.fieldsOf .debug "rewrote tag" (nestingEvents opened os) = loggedOf os := by
  have hne {event : Event} {events : List Event} (h : event.message ≠ "rewrote tag") :
      Event.fieldsOf .debug "rewrote tag" (event :: events) =
        Event.fieldsOf .debug "rewrote tag" events :=
    Event.fieldsOf_cons_of_ne h events
  -- The open components decide only which warnings are logged between these events.
  induction os generalizing opened with
  | nil =>
    -- What is left open is warned of at the end.
    rw [nestingEvents, Event.fieldsOf, List.filter_eq_nil_iff.mpr]
    · rfl
    · intro event hevent
      obtain ⟨component, -, rfl⟩ := List.mem_map.mp hevent
      simp [Event.message]
  | cons o os ih =>
    cases hname : Component.ofName? o.tag.name with
    | none =>
      rw [loggedOf_cons_of_none (Occurrence.resolution?_of_ofName?_eq_none hname), ← ih opened]
      simp only [nestingEvents, hname]
      exact hne (by simp [Event.message])
    | some component =>
      have hresolution := Occurrence.resolution?_of_ofName?_eq_some hname
      cases hkind : o.tag.kind with
      | opening =>
        rw [Tag.isOpening, hkind] at hresolution
        rw [loggedOf_cons_of_some hresolution, ← ih (component :: opened)]
        simp only [nestingEvents, hname, hkind]
        rw [Event.fieldsOf_cons_of_eq (by rfl) (by rfl)]
        rfl
      | selfClosing =>
        rw [Tag.isOpening, hkind] at hresolution
        rw [loggedOf_cons_of_some hresolution, ← ih opened]
        simp only [nestingEvents, hname, hkind]
        rw [Event.fieldsOf_cons_of_eq (by rfl) (by rfl)]
        rfl
      | closing =>
        rw [Tag.isOpening, hkind] at hresolution
        rw [loggedOf_cons_of_none hresolution]
        simp only [nestingEvents, hname, hkind]
        split
        · exact ih opened.tail
        · rw [hne (by simp [Event.message])]
          exact ih opened

/-! ### The document as a whole -/

/-- The compiled document and the report agree. The results of the report are the resolutions of the
components' opening tags, one by one and in order. The document with the span of each such tag
replaced by its result's container, with `</div>` behind it if the tag is self-closing, and with the
span of each component's closing tag replaced by `</div>`, is the compiled document. Compiling and
reporting log the same of each opening tag, its component, its line and its result's classes. -/
theorem compile_agrees_report (source : String) :
    List.Forall₂
        (fun o r => Component.ofName? o.tag.name = some r.component ∧
          r = r.component.resolveTag o.tag)
        ((scan source).filter Occurrence.isComponentOpening) (Report.ofSource source).results ∧
      splice? source.toList 0 (containerEdits (scan source) (Report.ofSource source).results) =
        some (compile source).toList ∧
      Event.fieldsOf .debug "rewrote tag" (compileEvents source) =
        Event.fieldsOf .debug "resolved tag" (findingEvents source) ∧
      Event.fieldsOf .debug "resolved tag" (findingEvents source) =
        List.zipWith Occurrence.loggedWith
          ((scan source).filter Occurrence.isComponentOpening)
          (Report.ofSource source).results := by
  have hcompile : Event.fieldsOf .debug "rewrote tag" (compileEvents source) =
      loggedOf (scan source) := fieldsOf_nestingEvents [] (scan source)
  have hreport : Event.fieldsOf .debug "resolved tag" (findingEvents source) =
      loggedOf (scan source) := fieldsOf_findings .start (segments source.toList)
  refine ⟨forall₂_results source, splice?_containerEdits source, hcompile.trans hreport.symm, ?_⟩
  rw [hreport, loggedOf_eq_zipWith, Report.results_eq_filterMap_scan]

end Document

end LayoutMarkup

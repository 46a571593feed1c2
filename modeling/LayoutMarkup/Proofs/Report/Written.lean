import LayoutMarkup.Proofs.Component.Container
import LayoutMarkup.Proofs.Component.Recorded
import LayoutMarkup.Proofs.Document.Scan
import LayoutMarkup.Proofs.Report.Results
import LayoutMarkup.Report.Written

/-!
# What a report writes reads back

For each result a report writes two tags: the component's tag with the recorded props, and the
opening tag of the container. Both are documents of one tag, and each of them says what the result
says. The container's tag holds the classes and nothing that a person wrote besides; the component's
tag, reported on in turn, gives the same result. For this two changes of order have to cancel:
reading moves the flags behind the values, and recording moves them in front.

## Main definitions

* `Resolution.headerTag` — the component's tag that a report writes

## Main results

* `Report.exists_tag_of_mem_results` — where a result comes from
* `Component.resolve_read_written` — the record, written and read, resolves to the same
* `Report.scan_openTag_of_mem_results` — the container's tag of a result
* `Report.ofSource_header_of_mem_results` — the component's tag of a result
-/

namespace LayoutMarkup

open Text

variable {source : String} {resolution : Resolution} {tag : Tag}

/-! ### Documents of one tag -/

namespace Document

theorem scan_eq_of_source (h : tag.WellFormed) (hsource : tag.source = source.toList) :
    scan source = [⟨tag, .over .start source.toList⟩] := by
  rw [scan, ← hsource, segments_source h]
  rfl

theorem findingsOf_eq_of_source (h : tag.WellFormed) (hsource : tag.source = source.toList) :
    findingsOf source = (tag.finding? 1 []).toList := by
  rw [findingsOf, ← hsource, segments_source h]
  exact List.append_nil _

end Document

/-- A result is the resolution of a tag. -/
theorem Report.exists_tag_of_mem_results (h : resolution ∈ (ofSource source).results) :
    ∃ tag : Tag, tag.WellFormed ∧ resolution = resolution.component.resolve tag.props := by
  rw [results_eq_filterMap_scan, List.mem_filterMap] at h
  obtain ⟨o, ho, hresolution⟩ := h
  exact ⟨o.tag, Document.wellFormed_of_mem_scan ho,
    (Occurrence.component_of_resolution?_eq_some hresolution).2⟩

/-! ### The tag of the container -/

/-- The container's tag of a result, whatever was written into `className`, is a document of one
opening tag. Its props are the list of classes, if there are any, and the marker of a spacer or a
divider, and nothing else. Cutting the list gives the classes one by one. -/
theorem Report.scan_openTag_of_mem_results (source : String) (r : Resolution)
    (h : r ∈ (ofSource source).results) :
    ∃ tag : Tag, Document.scan r.openTag = [⟨tag, .over .start r.openTag.toList⟩] ∧
      tag.name = "div" ∧ tag.kind = .opening ∧
      tag.props.entries =
        (if r.classes = [] then [] else [⟨"class", .text (" ".intercalate r.classes)⟩]) ++
          (match r.component with
            | .spacer => [⟨"aria-hidden", .text "true"⟩]
            | .divider => [⟨"role", .text "separator"⟩]
            | _ => []) ∧
      classTokens (" ".intercalate r.classes) = r.classes := by
  obtain ⟨tag, hwf, hr⟩ := exists_tag_of_mem_results h
  -- All depends on what the classes can hold, and that on the tag they come from.
  have hclasses : ∀ token ∈ r.classes, IsClass token := by
    rw [hr]
    exact fun _ => Component.isClass_of_mem_classes (Tag.plain_props hwf)
  refine ⟨r.containerTag, ?_, rfl, r.kind_containerTag, ?_,
    Resolution.classTokens_classText hclasses⟩
  · exact Document.scan_eq_of_source (Resolution.wellFormed_containerTag hclasses)
      r.source_containerTag
  · rw [Resolution.entries_props_containerTag hclasses, Resolution.containerEntries]
    cases r.component <;> rfl

/-- A spacer with slashes, quotes and `=` among its classes. -/
def Resolution.spacerWithClasses : Resolution :=
  Component.spacer.resolve (.ofList [⟨classNameProp, .text "a/ b='c'"⟩])

theorem Report.scan_openTag_spacer :
    Resolution.spacerWithClasses ∈ (ofSource "<Spacer\nclassName=\"a/ b='c'\" />").results ∧
      ∃ tag : Tag,
        (Document.scan "<div class=\"flex-1 a/ b='c'\" aria-hidden=\"true\">").map Occurrence.tag =
            [tag] ∧
          tag.props.entries =
            [⟨"class", .text "flex-1 a/ b='c'"⟩, ⟨"aria-hidden", .text "true"⟩] := by
  have hmem : Resolution.spacerWithClasses ∈
      (ofSource "<Spacer\nclassName=\"a/ b='c'\" />").results := by decide +kernel
  have hopen : Resolution.spacerWithClasses.openTag =
      "<div class=\"flex-1 a/ b='c'\" aria-hidden=\"true\">" := by decide +kernel
  obtain ⟨tag, hscan, -, -, hentries, -⟩ := scan_openTag_of_mem_results _ _ hmem
  rw [hopen] at hscan
  refine ⟨hmem, tag, by rw [hscan]; rfl, hentries.trans (by decide +kernel)⟩

/-! ### The tag of the component -/

theorem Component.isName_name (component : Component) : Tag.IsName component.name.toList := by
  cases component <;> exact ⟨_, _, rfl, rfl, List.all_eq_true.mp rfl⟩

/-- The recorded props, written and read, resolve to what the props resolve to. -/
theorem Component.resolve_read_written {component : Component} {p : Props}
    (h : (component.recordedProps p).Writable) :
    component.resolve (.read (component.recordedProps p).written) = component.resolve p := by
  apply resolve_congr
  · rw [declaredFlags, Props.flags_read_written h]
    exact declaredFlags_recordedProps component p
  · rw [Props.valued_read_written h, valued_recordedProps]

namespace Resolution

/-- The tag of the component with the props that took part. -/
def headerTag (resolution : Resolution) : Tag :=
  .withAttributes resolution.component.name.toList resolution.props.entries

theorem source_headerTag (resolution : Resolution) :
    resolution.headerTag.source = resolution.header.toList := by
  simp [headerTag, Tag.withAttributes, Tag.source, header, Props.written]

theorem name_headerTag (resolution : Resolution) :
    resolution.headerTag.name = resolution.component.name :=
  String.ofList_toList

theorem wellFormed_headerTag (hwritable : resolution.props.Writable)
    (hplain : resolution.props.Plain) : resolution.headerTag.WellFormed := by
  refine Tag.wellFormed_withAttributes resolution.component.isName_name hwritable ?_
  rintro ⟨name, _⟩ hentry value rfl
  exact hplain name value hentry

theorem isOpening_headerTag (h : resolution.props.Writable) :
    resolution.headerTag.isOpening = true := by
  rw [Tag.isOpening, headerTag,
    Tag.kind_withAttributes fun entry hentry _ => (h entry hentry).isName]
  rfl

theorem props_headerTag (h : resolution.props.Writable) :
    resolution.headerTag.props = .read resolution.props.written := by
  rw [Tag.props, headerTag,
    Tag.attrs_withAttributes fun entry hentry _ => (h entry hentry).isName]
  rfl

end Resolution

/-- The component's tag that is written for a result is a document with just this result, and the
warnings about it are those about the recorded props, on the first line. -/
theorem Report.ofSource_header_of_mem_results (source : String) (r : Resolution)
    (h : r ∈ (ofSource source).results) :
    ofSource r.header = ⟨[r], lintProps r.component r.props 1⟩ := by
  obtain ⟨tag, hwf, hr⟩ := exists_tag_of_mem_results h
  have hprops : r.props = r.component.recordedProps tag.props := congrArg Resolution.props hr
  -- Recording leaves out props but brings in none, so what holds of a tag's props holds of these.
  have hmem {entry : Attribute} (hentry : entry ∈ r.props.entries) : entry ∈ tag.props.entries :=
    Component.mem_of_mem_entries_recordedProps (hprops ▸ hentry)
  have hwritable : r.props.Writable := fun entry hentry =>
    Props.writable_read _ entry (hmem hentry)
  have hplain : r.props.Plain := fun name value hentry =>
    Tag.plain_props hwf name value (hmem hentry)
  have hresolve : r.component.resolve r.headerTag.props = r := by
    rw [Resolution.props_headerTag hwritable]
    rw [hprops] at hwritable ⊢
    exact (Component.resolve_read_written hwritable).trans hr.symm
  have hfindings : Document.findingsOf r.header = [.component 1 r] := by
    rw [Document.findingsOf_eq_of_source (Resolution.wellFormed_headerTag hwritable hplain)
      r.source_headerTag, Tag.finding?, if_pos (Resolution.isOpening_headerTag hwritable), resolve?,
      r.name_headerTag, Component.ofName?_name, Option.map_some, hresolve]
    rfl
  rw [ofSource, hfindings]
  simp [Finding.resolution?, Finding.warnings]

/-- A row with flags between its values, of which one takes no part, and a class list on two
lines. -/
def Resolution.wrappedRow : Resolution :=
  Component.row.resolve
    (.ofList
      [⟨"justify", .text "between"⟩, ⟨"bogus", .flag⟩, ⟨"wrap", .flag⟩,
        ⟨classNameProp, .text "a/\n{b}"⟩])

theorem Report.ofSource_header_row :
    Resolution.wrappedRow ∈ (ofSource
        "\n<Row justify=\"between\" bogus wrap className=\"a/\n{b}\">").results ∧
      ofSource "<Row wrap justify=\"between\" className=\"a/\n{b}\">" =
        ⟨[Resolution.wrappedRow], lintProps .row Resolution.wrappedRow.props 1⟩ := by
  have hmem : Resolution.wrappedRow ∈ (ofSource
      "\n<Row justify=\"between\" bogus wrap className=\"a/\n{b}\">").results := by
    decide +kernel
  have hheader : Resolution.wrappedRow.header =
      "<Row wrap justify=\"between\" className=\"a/\n{b}\">" := by decide +kernel
  have hreport := ofSource_header_of_mem_results _ _ hmem
  rw [hheader] at hreport
  exact ⟨hmem, hreport⟩

end LayoutMarkup

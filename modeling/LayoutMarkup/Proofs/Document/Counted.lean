import LayoutMarkup.Proofs.Attribute.Scan
import LayoutMarkup.Proofs.Document.Segments
import LayoutMarkup.Proofs.Text.Counted

/-!
# Where tags and attributes stand

Both scanners move one position over their text, and give it to what they keep of the text. What
they do not keep moves the position all the same: a `<` that begins no tag, a line feed inside a
tag, the items of attribute text that state nothing. So the line and the column of a tag, and those
of an attribute, are those that counting the text in front gives.

## Main results

* `Document.countedIn_of_mem_scan`, `Attribute.countedIn_of_mem_scan` — each of the scanners
* `Document.countedIn_scan` — both
-/

namespace LayoutMarkup

open Text

/-- An attribute begins at a place that is counted in the attribute text. -/
theorem Attribute.countedIn_of_mem_scan {text : List Char} {entry : Attribute × Span}
    (h : entry ∈ scan text) : entry.2.start.CountedIn text := by
  rw [scan, located_eq_filterMap_placed, List.mem_filterMap] at h
  obtain ⟨⟨item, span⟩, hmem, hstated⟩ := h
  obtain ⟨found, -, rfl⟩ := Option.map_eq_some_iff.mp hstated
  have hcounted := countedIn_of_mem_placed hmem
  rwa [flatMap_source_items] at hcounted

namespace Document

/-- A tag begins at a place that is counted in the document. -/
theorem countedIn_of_mem_scan {source : String} {o : Occurrence} (h : o ∈ scan source) :
    o.span.start.CountedIn source.toList := by
  rw [scan, occurrences_eq_filterMap_placed, List.mem_filterMap] at h
  obtain ⟨⟨segment, span⟩, hmem, hstated⟩ := h
  obtain ⟨tag, -, rfl⟩ := Option.map_eq_some_iff.mp hstated
  have hcounted := countedIn_of_mem_placed hmem
  rwa [flatMap_source_segments] at hcounted

/-- The tags of every document and the attributes of every text begin on the line that the line
feeds among the bytes in front of them make, and in the column that the characters of that line in
front of them make. -/
theorem countedIn_scan (source : String) (text : List Char) :
    (∀ o ∈ scan source, o.span.start.CountedIn source.toList) ∧
      ∀ entry ∈ Attribute.scan text, entry.2.start.CountedIn text :=
  ⟨fun _ => countedIn_of_mem_scan, fun _ => Attribute.countedIn_of_mem_scan⟩

-- Failed tags, line feeds inside a tag and a value, and characters of more than one byte.
example : (scan "<é\n<Row\n center <Stack a=\"ö\n\"/>×<Grid>").map
    (fun o => (o.tag.name, o.span.start)) =
      [("Stack", ⟨17, 3, 9⟩), ("Grid", ⟨35, 4, 5⟩)] := by cbv

end Document

end LayoutMarkup

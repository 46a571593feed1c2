import LayoutMarkup.Proofs.Document.Compiled
import LayoutMarkup.Proofs.Document.Nesting
import Mathlib.Data.Set.Insert

/-!
# How elements are nested

Here all the elements of a document count, not only its components. Some names are void: a tag with
such a name opens nothing that would have to be closed. Compiling writes containers in the place of
components, and an opener and a closer in the place of a self-closing component. Many names become
one in this way, and it may be one that the document uses already. Still, what closes an element in
the document closes what stands in its place, so a document that is well nested stays so.

## Main definitions

* `Occurrence.elementMark?`, `Document.elementMarks` — the openers and closers of elements
* `Component.compiledName` — the name of the element in the place of an element
* `Mark.Relabels` — marks with other labels, and with elements that hold nothing put in

## Main results

* `Mark.Relabels.wellNested` — such marks are well nested if the marks they come from are
* `Document.relabels_elementMarks_compile` — compiling does this to the elements of a document
* `Document.wellNested_elementMarks_compile` — a well nested document compiles to one
-/

namespace LayoutMarkup

namespace Mark

variable {α β : Type} {f : α → β}

/-- The second marks are the first ones under other labels, on other lines, with elements put in that
hold nothing. -/
inductive Relabels (f : α → β) : List (Mark α) → List (Mark β) → Prop
  | nil : Relabels f [] []
  | opens {label : α} {rest : List (Mark α)} {rest' : List (Mark β)} : Relabels f rest rest' →
      Relabels f (.opens label :: rest) (.opens (f label) :: rest')
  | closes {label : α} {line line' : Nat} {rest : List (Mark α)} {rest' : List (Mark β)} :
      Relabels f rest rest' →
      Relabels f (.closes label line :: rest) (.closes (f label) line' :: rest')
  | element {label : β} {line : Nat} {marks : List (Mark α)} {rest' : List (Mark β)} :
      Relabels f marks rest' →
      Relabels f marks (.opens label :: .closes label line :: rest')

variable [DecidableEq α] [DecidableEq β]

/-- While no closer is a stray, the stack of the second marks is that of the first under the other
labels. -/
theorem Relabels.openAfter_map {marks : List (Mark α)} {marks' : List (Mark β)}
    (h : Relabels f marks marks') (opened : List α) (hstrays : strays opened marks = []) :
    strays (opened.map f) marks' = [] ∧
      openAfter (opened.map f) marks' = (openAfter opened marks).map f := by
  induction h generalizing opened with
  | nil => exact ⟨rfl, rfl⟩
  | opens _ ih => exact ih _ hstrays
  | @closes label line _ rest rest' _ ih =>
    by_cases hhead : opened.head? = some label
    · obtain ⟨below, rfl⟩ := List.head?_eq_some_iff.mp hhead
      rw [strays_closes_self] at hstrays
      rw [List.map_cons, strays_closes_self, openAfter_closes_self, openAfter_closes_self]
      exact ih below hstrays
    · rw [strays_closes_of_ne hhead] at hstrays
      cases hstrays
  | element _ ih =>
    rw [strays, openAfter, strays_closes_self, openAfter_closes_self]
    exact ih opened hstrays

/-- Marks under other labels, with elements put in that hold nothing, stay well nested. -/
theorem Relabels.wellNested {marks : List (Mark α)} {marks' : List (Mark β)}
    (h : Relabels f marks marks') (hmarks : WellNested marks) : WellNested marks' := by
  obtain ⟨hstrays, hopen⟩ := wellNested_iff.mp hmarks
  obtain ⟨hstrays', hopen'⟩ := h.openAfter_map [] hstrays
  rw [hopen] at hopen'
  exact wellNested_iff.mpr ⟨hstrays', hopen'⟩

end Mark

section Elements

variable (voids : Set String) [DecidablePred (· ∈ voids)]

/-- The mark that a tag is: none if its name is void, or if it is self-closing. -/
def Occurrence.elementMark? (o : Occurrence) : Option (Mark String) :=
  if o.tag.name ∈ voids then none
  else
    match o.tag.kind with
    | .opening => some (.opens o.tag.name)
    | .selfClosing => none
    | .closing => some (.closes o.tag.name o.line)

/-- The openers and closers of the elements in a document. -/
def Document.elementMarks (source : String) : List (Mark String) :=
  (scan source).filterMap (Occurrence.elementMark? voids)

/-- The name of the element that stands in the place of an element. -/
def Component.compiledName (name : String) : String :=
  if (ofName? name).isSome then "div" else name

variable {voids}

open Mark

namespace Occurrence

variable {o : Occurrence}

theorem elementMark?_of_mem (h : o.tag.name ∈ voids) : o.elementMark? voids = none := if_pos h

theorem elementMark?_opening (h : o.tag.name ∉ voids) (hkind : o.tag.kind = .opening) :
    o.elementMark? voids = some (.opens o.tag.name) := by
  rw [elementMark?, if_neg h, hkind]

theorem elementMark?_selfClosing (hkind : o.tag.kind = .selfClosing) :
    o.elementMark? voids = none := by
  rw [elementMark?, hkind, ite_self]

theorem elementMark?_closing (h : o.tag.name ∉ voids) (hkind : o.tag.kind = .closing) :
    o.elementMark? voids = some (.closes o.tag.name o.line) := by
  rw [elementMark?, if_neg h, hkind]

/-- A tag that stands for another one, and is no component's, opens or closes the same element. -/
theorem relabels_cons {o' : Occurrence} {os os' : List Occurrence} (htag : o'.tag = o.tag)
    (hname : Component.ofName? o.tag.name = none)
    (h : Relabels Component.compiledName (os.filterMap (elementMark? voids))
      (os'.filterMap (elementMark? voids))) :
    Relabels Component.compiledName ((o :: os).filterMap (elementMark? voids))
      ((o' :: os').filterMap (elementMark? voids)) := by
  have hlabel : Component.compiledName o.tag.name = o.tag.name := by
    simp [Component.compiledName, hname]
  by_cases hvoid : o.tag.name ∈ voids
  · rwa [List.filterMap_cons_none (elementMark?_of_mem hvoid),
      List.filterMap_cons_none (elementMark?_of_mem (htag ▸ hvoid))]
  · have hvoid' : o'.tag.name ∉ voids := htag ▸ hvoid
    cases hkind : o.tag.kind with
    | opening =>
      rw [List.filterMap_cons_some (elementMark?_opening hvoid hkind),
        List.filterMap_cons_some (elementMark?_opening hvoid' (htag ▸ hkind)), htag]
      nth_rewrite 2 [← hlabel]
      exact .opens h
    | selfClosing =>
      rwa [List.filterMap_cons_none (elementMark?_selfClosing hkind),
        List.filterMap_cons_none (elementMark?_selfClosing (htag ▸ hkind))]
    | closing =>
      rw [List.filterMap_cons_some (elementMark?_closing hvoid hkind),
        List.filterMap_cons_some (elementMark?_closing hvoid' (htag ▸ hkind)), htag]
      nth_rewrite 2 [← hlabel]
      exact .closes h

/-- A container's opener opens an element. -/
theorem elementMark?_containerTag (hdiv : "div" ∉ voids) {resolution : Resolution}
    (h : o.tag = resolution.containerTag) : o.elementMark? voids = some (.opens "div") := by
  have hname : o.tag.name = "div" := by rw [h]; rfl
  rw [elementMark?_opening (hname ▸ hdiv) (h ▸ Resolution.kind_containerTag resolution), hname]

/-- A container's closer closes it. -/
theorem elementMark?_containerCloser (hdiv : "div" ∉ voids)
    (h : o.tag = Resolution.containerCloser) :
    o.elementMark? voids = some (.closes "div" o.line) := by
  have hname : o.tag.name = "div" := by rw [h]; rfl
  rw [elementMark?_closing (hname ▸ hdiv) (h ▸ rfl), hname]

end Occurrence

namespace Document

/-- Tags and those that stand in their place open and close the same elements, under the names that
these have when compiled. -/
theorem relabels_of_map_tag (hdiv : "div" ∉ voids) (hcomponents : ∀ c : Component, c.name ∉ voids)
    (os os' : List Occurrence)
    (htags : os'.map Occurrence.tag = (os.map Occurrence.tag).flatMap Tag.compiled) :
    Relabels Component.compiledName (os.filterMap (Occurrence.elementMark? voids))
      (os'.filterMap (Occurrence.elementMark? voids)) := by
  induction os generalizing os' with
  | nil =>
    obtain rfl := List.map_eq_nil_iff.mp htags
    exact .nil
  | cons o os ih =>
    rw [List.map_cons, List.flatMap_cons, Tag.compiled] at htags
    cases hname : Component.ofName? o.tag.name with
    | none =>
      simp only [hname] at htags
      obtain ⟨o', rest, rfl, htag, hrest⟩ := List.map_eq_cons_iff.mp htags
      exact Occurrence.relabels_cons htag hname (ih rest hrest)
    | some component =>
      have hlabel : Component.compiledName o.tag.name = "div" := by
        simp [Component.compiledName, hname]
      have hvoid : o.tag.name ∉ voids := by
        rw [← Component.ofName?_eq_some_iff.mp hname]
        exact hcomponents component
      cases hkind : o.tag.kind with
      | opening =>
        simp only [hname, hkind] at htags
        obtain ⟨o', rest, rfl, htag, hrest⟩ := List.map_eq_cons_iff.mp htags
        rw [List.filterMap_cons_some (Occurrence.elementMark?_opening hvoid hkind),
          List.filterMap_cons_some (Occurrence.elementMark?_containerTag hdiv htag), ← hlabel]
        exact .opens (ih rest hrest)
      | selfClosing =>
        simp only [hname, hkind] at htags
        obtain ⟨opener, behind, rfl, hopener, hbehind⟩ := List.map_eq_cons_iff.mp htags
        obtain ⟨closer, rest, rfl, hcloser, hrest⟩ := List.map_eq_cons_iff.mp hbehind
        rw [List.filterMap_cons_none (Occurrence.elementMark?_selfClosing hkind),
          List.filterMap_cons_some (Occurrence.elementMark?_containerTag hdiv hopener),
          List.filterMap_cons_some (Occurrence.elementMark?_containerCloser hdiv hcloser)]
        exact .element (ih rest hrest)
      | closing =>
        simp only [hname, hkind] at htags
        obtain ⟨o', rest, rfl, htag, hrest⟩ := List.map_eq_cons_iff.mp htags
        rw [List.filterMap_cons_some (Occurrence.elementMark?_closing hvoid hkind),
          List.filterMap_cons_some (Occurrence.elementMark?_containerCloser hdiv htag), ← hlabel]
        exact .closes (ih rest hrest)

theorem relabels_elementMarks_compile (hdiv : "div" ∉ voids)
    (hcomponents : ∀ c : Component, c.name ∉ voids) (source : String) :
    Relabels Component.compiledName (elementMarks voids source)
      (elementMarks voids (compile source)) :=
  relabels_of_map_tag hdiv hcomponents _ _ (map_tag_scan_compile source)

/-- A well nested document compiles to a well nested one, whatever names are void, as long as those of
components and of their containers are not. -/
theorem wellNested_elementMarks_compile (hdiv : "div" ∉ voids)
    (hcomponents : ∀ c : Component, c.name ∉ voids) {source : String}
    (h : WellNested (elementMarks voids source)) :
    WellNested (elementMarks voids (compile source)) :=
  (relabels_elementMarks_compile hdiv hcomponents source).wellNested h

/-- A line break opens nothing. A `div` stands where another one is put around it. -/
theorem wellNested_elementMarks_compile_list :
    let source := "<ul><Stack gap=\"lg\"><br><Spacer/><div>x</div></Stack></ul>"
    elementMarks {"br"} source = [.opens "ul", .opens "Stack", .opens "div", .closes "div" 1,
        .closes "Stack" 1, .closes "ul" 1] ∧
      WellNested (elementMarks {"br"} source) ∧
      WellNested (elementMarks {"br"} (compile source)) := by
  intro source
  have hcomponents : ∀ c : Component, c.name ∉ ({"br"} : Set String) := by
    intro c
    cases c <;> decide
  have hmarks : elementMarks {"br"} source = [.opens "ul", .opens "Stack", .opens "div",
      .closes "div" 1, .closes "Stack" 1, .closes "ul" 1] := by decide +kernel
  have hnested : WellNested (elementMarks {"br"} source) :=
    Mark.wellNested_iff.mpr (by rw [hmarks]; decide)
  exact ⟨hmarks, hnested, wellNested_elementMarks_compile (by decide) hcomponents hnested⟩

/-- A document can compile to a well nested one without being so, as components lose their names. -/
example : ¬ WellNested (elementMarks {"br"} "<Row></Stack>") ∧
    WellNested (elementMarks {"br"} (compile "<Row></Stack>")) :=
  ⟨Mark.wellNested_iff.not.mpr (by decide +kernel), Mark.wellNested_iff.mpr (by decide +kernel)⟩

end Document

end Elements

end LayoutMarkup

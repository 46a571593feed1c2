import LayoutMarkup.Markup

/-!
# How components are nested

Compiling keeps the components that are open on a stack. A closer of the component on top takes it
off. Any other closer is a stray: it is logged and leaves the stack as it is. What is on the stack at
the end was never closed.

The same can be said without a stack. A document falls into elements, closed inside before they are
closed themselves, into openers that nothing closes, and into strays, which are closers of anything
but the component that is open around them. There is one way to read a document like that, and it is
what the log tells.

## Main definitions

* `Mark`, `Occurrence.mark?`, `Document.marks` — the openers and closers of components
* `WellNested` — every opener is closed, and nothing else is
* `Settles`, `LeavesOpen` — marks among which strays may be, and openers that stay open
* `Mark.openAfter`, `Mark.strays` — the stack after marks, and the closers that do not fit it

## Main results

* `LeavesOpen.exists_or_closes` — marks can be read until the component around them is closed
* `Mark.leavesOpen_iff` — there is one way to read marks, and the stack finds it
* `Mark.wellNested_iff` — marks are well nested if there are no strays and nothing stays open
* `Document.compileEvents_nesting` — the log tells how a document is nested
-/

namespace LayoutMarkup

/-- The opener or the closer of an element. A closer comes with its line. -/
inductive Mark (α : Type)
  | opens (label : α)
  | closes (label : α) (line : Nat)
  deriving DecidableEq, Repr

variable {α : Type}

/-- Marks are well nested: every opener is closed by a closer of its own, with the marks between them
well nested. -/
inductive WellNested : List (Mark α) → Prop
  | nil : WellNested []
  | element {label : α} {line : Nat} {inner rest : List (Mark α)} : WellNested inner →
      WellNested rest → WellNested (.opens label :: (inner ++ .closes label line :: rest))

/-- Inside of `around`, or of nothing, marks close all that they open. Between their elements there
may be closers that close nothing, which are the strays. -/
inductive Settles : Option α → List (Mark α) → List (α × Nat) → Prop
  | nil {around : Option α} : Settles around [] []
  | stray {around : Option α} {label : α} {line : Nat} {rest : List (Mark α)}
      {strays : List (α × Nat)} : around ≠ some label → Settles around rest strays →
      Settles around (.closes label line :: rest) ((label, line) :: strays)
  | element {around : Option α} {label : α} {line : Nat} {inner rest : List (Mark α)}
      {innerStrays strays : List (α × Nat)} : Settles (some label) inner innerStrays →
      Settles around rest strays →
      Settles around (.opens label :: (inner ++ .closes label line :: rest))
        (innerStrays ++ strays)

/-- Inside of `around`, or of nothing, marks leave some of what they open open, given from the
outermost to the innermost. -/
inductive LeavesOpen : Option α → List (Mark α) → List (α × Nat) → List α → Prop
  | done {around : Option α} {marks : List (Mark α)} {strays : List (α × Nat)} :
      Settles around marks strays → LeavesOpen around marks strays []
  | opens {around : Option α} {label : α} {before inner : List (Mark α)}
      {strays innerStrays : List (α × Nat)} {left : List α} : Settles around before strays →
      LeavesOpen (some label) inner innerStrays left →
      LeavesOpen around (before ++ .opens label :: inner) (strays ++ innerStrays) (label :: left)

/-! ### Reading marks without a stack -/

section Grammar

variable {around : Option α} {label : α} {line : Nat} {inner rest marks : List (Mark α)}
  {innerStrays strays : List (α × Nat)} {left : List α}

/-- Well nested marks close all that they open, wherever they stand. -/
theorem WellNested.settles (h : WellNested marks) (around : Option α) :
    Settles around marks [] := by
  induction h generalizing around with
  | nil => exact .nil
  | element _ _ hinner hrest => exact .element (hinner _) (hrest around)

/-- Without strays, marks that close all that they open are well nested. -/
theorem Settles.wellNested (h : Settles around marks []) : WellNested marks := by
  generalize hstrays : ([] : List (α × Nat)) = strays at h
  induction h with
  | nil => exact .nil
  | stray => cases hstrays
  | element _ _ hinner hrest =>
    obtain ⟨hfirst, hsecond⟩ := List.append_eq_nil_iff.mp hstrays.symm
    exact .element (hinner hfirst.symm) (hrest hsecond.symm)

/-- Marks that leave nothing open close all that they open. -/
theorem LeavesOpen.settles (h : LeavesOpen around marks strays []) :
    Settles around marks strays := by
  cases h with
  | done hsettles => exact hsettles

theorem LeavesOpen.stray (hne : around ≠ some label) (h : LeavesOpen around rest strays left) :
    LeavesOpen around (.closes label line :: rest) ((label, line) :: strays) left := by
  cases h with
  | done hrest => exact .done (.stray hne hrest)
  | opens hbefore hinner => exact .opens (.stray hne hbefore) hinner

theorem LeavesOpen.element (hinner : Settles (some label) inner innerStrays)
    (h : LeavesOpen around rest strays left) :
    LeavesOpen around (.opens label :: (inner ++ .closes label line :: rest))
      (innerStrays ++ strays) left := by
  cases h with
  | done hrest => exact .done (.element hinner hrest)
  | @opens _ _ before _ _ _ _ hbefore hlast =>
    have hfirst : Settles around (.opens label :: (inner ++ .closes label line :: before)) _ :=
      .element hinner hbefore
    simpa only [List.cons_append, List.append_assoc] using LeavesOpen.opens hfirst hlast

/-- Marks can be read up to the end, or up to the closer of what is open around them. -/
theorem LeavesOpen.exists_or_closes [DecidableEq α] (around : Option α) (marks : List (Mark α)) :
    (∃ strays left, LeavesOpen around marks strays left) ∨
      ∃ label line before rest strays, around = some label ∧
        marks = before ++ .closes label line :: rest ∧ Settles around before strays := by
  match marks with
  | [] => exact Or.inl ⟨[], [], .done .nil⟩
  | .closes label line :: rest =>
    by_cases haround : around = some label
    · exact Or.inr ⟨label, line, [], rest, [], haround, rfl, .nil⟩
    · rcases exists_or_closes around rest with
        ⟨strays, left, h⟩ | ⟨closed, line', before, behind, strays, hclosed, hrest, h⟩
      · exact Or.inl ⟨_, left, h.stray haround⟩
      · exact Or.inr ⟨closed, line', .closes label line :: before, behind, _, hclosed,
          congrArg _ hrest, .stray haround h⟩
  | .opens label :: inner =>
    rcases exists_or_closes (some label) inner with
      ⟨strays, left, h⟩ | ⟨_, line, before, rest, innerStrays, heq, hinner, hbefore⟩
    · exact Or.inl ⟨_, _, .opens .nil h⟩
    · -- The opener is closed. What comes behind its closer is read next, in the same place.
      cases heq
      rcases exists_or_closes around rest with
        ⟨strays, left, h⟩ | ⟨closed, line', after, behind, strays, hclosed, hrest, h⟩
      · subst hinner
        exact Or.inl ⟨_, left, h.element hbefore⟩
      · subst hinner hrest
        refine Or.inr ⟨closed, line', .opens label :: (before ++ .closes label line :: after), behind,
          _, hclosed, ?_, .element hbefore h⟩
        simp only [List.cons_append, List.append_assoc]
termination_by marks.length
decreasing_by
  · exact Nat.lt_succ_self _
  · exact Nat.lt_succ_self _
  · simp only [hinner, List.length_cons, List.length_append]
    omega

end Grammar

/-! ### The stack -/

namespace Mark

/-- Whether a mark is an opener. -/
def isOpener : Mark α → Bool
  | opens _ => true
  | closes .. => false

/-- What a closer closes, with its line. -/
def closed? : Mark α → Option (α × Nat)
  | opens _ => none
  | closes label line => some (label, line)

variable [DecidableEq α]

/-- The stack after marks, the last one opened first. A closer that does not fit leaves it as it
is. -/
def openAfter (opened : List α) : List (Mark α) → List α
  | [] => opened
  | opens label :: marks => openAfter (label :: opened) marks
  | closes label _ :: marks =>
    if opened.head? = some label then openAfter opened.tail marks else openAfter opened marks

/-- The closers that do not fit the stack. -/
def strays (opened : List α) : List (Mark α) → List (α × Nat)
  | [] => []
  | opens label :: marks => strays (label :: opened) marks
  | closes label line :: marks =>
    if opened.head? = some label then strays opened.tail marks
    else (label, line) :: strays opened marks

variable {opened : List α} {label : α} {line : Nat} {marks : List (Mark α)}

theorem openAfter_closes_self (opened : List α) (label : α) (line : Nat) (marks : List (Mark α)) :
    openAfter (label :: opened) (closes label line :: marks) = openAfter opened marks := if_pos rfl

theorem openAfter_closes_of_ne (h : opened.head? ≠ some label) :
    openAfter opened (closes label line :: marks) = openAfter opened marks := if_neg h

theorem strays_closes_self (opened : List α) (label : α) (line : Nat) (marks : List (Mark α)) :
    strays (label :: opened) (closes label line :: marks) = strays opened marks := if_pos rfl

theorem strays_closes_of_ne (h : opened.head? ≠ some label) :
    strays opened (closes label line :: marks) = (label, line) :: strays opened marks := if_neg h

/-! ### What the stack tells -/

/-- Marks that close all that they open change nothing for what is behind them. -/
theorem append_of_settles {around : Option α} {expected : List (α × Nat)}
    (h : Settles around marks expected) (htop : opened.head? = around) (later : List (Mark α)) :
    openAfter opened (marks ++ later) = openAfter opened later ∧
      strays opened (marks ++ later) = expected ++ strays opened later := by
  induction h generalizing opened later with
  | nil => exact ⟨rfl, rfl⟩
  | stray hne _ ih =>
    subst htop
    obtain ⟨hopen, hstrays⟩ := ih rfl later
    rw [List.cons_append, openAfter_closes_of_ne hne, strays_closes_of_ne hne, hopen, hstrays]
    exact ⟨rfl, rfl⟩
  | @element around label line inner rest _ _ _ _ hinner hrest =>
    -- The inner marks are read with their opener on top, up to the closer that takes it off.
    obtain ⟨hopenInner, hstraysInner⟩ :=
      hinner (show (label :: opened).head? = _ from rfl) (closes label line :: (rest ++ later))
    obtain ⟨hopen, hstrays⟩ := hrest htop later
    rw [openAfter_closes_self] at hopenInner
    rw [strays_closes_self] at hstraysInner
    rw [List.cons_append, List.append_assoc, List.cons_append]
    constructor
    · exact hopenInner.trans hopen
    · rw [List.append_assoc, ← hstrays]
      exact hstraysInner

/-- What marks leave open is put on the stack. -/
theorem of_leavesOpen {around : Option α} {expected : List (α × Nat)} {left : List α}
    (h : LeavesOpen around marks expected left) (htop : opened.head? = around) :
    openAfter opened marks = left.reverse ++ opened ∧ strays opened marks = expected := by
  induction h generalizing opened with
  | done hsettles =>
    have happend := append_of_settles hsettles htop []
    rwa [List.append_nil, strays, List.append_nil] at happend
  | @opens around label before inner _ _ left hbefore _ ih =>
    obtain ⟨hopenBefore, hstraysBefore⟩ := append_of_settles hbefore htop (opens label :: inner)
    obtain ⟨hopen, hstrays⟩ := ih (show (label :: opened).head? = _ from rfl)
    constructor
    · calc openAfter opened (before ++ opens label :: inner)
          = openAfter (label :: opened) inner := hopenBefore
        _ = (label :: left).reverse ++ opened := by
            rw [hopen, List.reverse_cons, List.append_assoc, List.singleton_append]
    · rw [hstraysBefore, strays, hstrays]

/-- Marks have one reading, and the stack finds it. -/
theorem leavesOpen_iff {expected : List (α × Nat)} {left : List α} :
    LeavesOpen none marks expected left ↔
      expected = strays [] marks ∧ left = (openAfter [] marks).reverse := by
  have hread {expected : List (α × Nat)} {left : List α}
      (h : LeavesOpen none marks expected left) :
      expected = strays [] marks ∧ left = (openAfter [] marks).reverse := by
    obtain ⟨hopen, hstrays⟩ := of_leavesOpen h (show [].head? = none from rfl)
    exact ⟨hstrays.symm, by rw [hopen, List.append_nil, List.reverse_reverse]⟩
  constructor
  · exact hread
  · rintro ⟨rfl, rfl⟩
    -- Nothing is open around the marks that they could close, so they are read to the end.
    rcases LeavesOpen.exists_or_closes none marks with
      ⟨expected, left, h⟩ | ⟨label, line, before, rest, expected, hnone, -⟩
    · obtain ⟨rfl, rfl⟩ := hread h
      exact h
    · cases hnone

/-- Of two elements that overlap, the first closer is a stray, and the outer one stays open. -/
example : LeavesOpen none [opens 'a', opens 'b', closes 'a' 1, closes 'b' 2] [('a', 1)] ['a'] :=
  leavesOpen_iff.mpr (by decide)

/-- Marks are well nested if there are no strays and nothing stays open. -/
theorem wellNested_iff :
    WellNested marks ↔ strays [] marks = [] ∧ openAfter [] marks = [] := by
  constructor
  · intro h
    have hempty := of_leavesOpen (.done (h.settles none)) (show [].head? = none from rfl)
    exact hempty.symm
  · rintro ⟨hstrays, hopen⟩
    have h : LeavesOpen none marks [] [] :=
      leavesOpen_iff.mpr ⟨hstrays.symm, by rw [hopen, List.reverse_nil]⟩
    exact h.settles.wellNested

/-- The strays are closers of the document. -/
theorem strays_sublist (opened : List α) (marks : List (Mark α)) :
    (strays opened marks).Sublist (marks.filterMap closed?) := by
  induction marks generalizing opened with
  | nil => exact .slnil
  | cons mark marks ih =>
    cases mark with
    | opens label => exact ih (label :: opened)
    | closes label line =>
      rw [List.filterMap_cons_some (by rfl), strays]
      split
      · exact (ih opened.tail).cons _
      · exact (ih opened).cons_cons _

/-- Each opener is closed by a closer that is no stray, or stays open. -/
theorem countP_isOpener_add (opened : List α) (marks : List (Mark α)) :
    marks.countP isOpener + opened.length + (strays opened marks).length =
      (marks.filterMap closed?).length + (openAfter opened marks).length := by
  induction marks generalizing opened with
  | nil =>
    change 0 + opened.length + 0 = 0 + opened.length
    omega
  | cons mark marks ih =>
    cases mark with
    | opens label =>
      have hnext := ih (label :: opened)
      rw [List.countP_cons_of_pos (by rfl), List.filterMap_cons_none (by rfl), openAfter,
        strays]
      rw [List.length_cons] at hnext
      omega
    | closes label line =>
      rw [List.countP_cons_of_neg (by simp [isOpener]), List.filterMap_cons_some (by rfl),
        List.length_cons]
      -- A closer that fits counts against what it takes off the stack, any other as a stray.
      by_cases h : opened.head? = some label
      · obtain ⟨rest, rfl⟩ := List.head?_eq_some_iff.mp h
        have hnext := ih rest
        rw [openAfter_closes_self, strays_closes_self, List.length_cons]
        omega
      · have hnext := ih opened
        rw [openAfter_closes_of_ne h, strays_closes_of_ne h, List.length_cons]
        omega

end Mark

/-! ### What is logged -/

/-- The mark that a tag is: none if it is not a component's, or if it is self-closing. -/
def Occurrence.mark? (o : Occurrence) : Option (Mark Component) :=
  match Component.ofName? o.tag.name, o.tag.kind with
  | some component, .opening => some (.opens component)
  | some component, .closing => some (.closes component o.line)
  | _, _ => none

namespace Event

/-- The events with a message. -/
def withMessage (message : String) (events : List Event) : List Event :=
  events.filter (·.message = message)

theorem withMessage_cons_of_eq {event : Event} {message : String} (h : event.message = message)
    (events : List Event) :
    withMessage message (event :: events) = event :: withMessage message events :=
  List.filter_cons_of_pos (by simpa using h)

theorem withMessage_cons_of_ne {event : Event} {message : String} (h : event.message ≠ message)
    (events : List Event) :
    withMessage message (event :: events) = withMessage message events :=
  List.filter_cons_of_neg (by simpa using h)

/-- The stray that an event tells of. -/
def ofStray (stray : Component × Nat) : Event := .unbalanced stray.1 stray.2

end Event

namespace Document

/-- The openers and closers of components in a document. -/
def marks (source : String) : List (Mark Component) := (scan source).filterMap Occurrence.mark?

/-- What is logged of closers that do not fit. -/
def unbalancedEvents (source : String) : List Event :=
  Event.withMessage "unbalanced closing tag" (compileEvents source)

/-- What is logged of openers that are not closed. -/
def unclosedEvents (source : String) : List Event :=
  Event.withMessage "unclosed tag" (compileEvents source)

open Event

/-- What is logged of the nesting are the strays and what is on the stack at the end. -/
theorem withMessage_nestingEvents (opened : List Component) (os : List Occurrence) :
    withMessage "unbalanced closing tag" (nestingEvents opened os) =
        (Mark.strays opened (os.filterMap Occurrence.mark?)).map ofStray ∧
      withMessage "unclosed tag" (nestingEvents opened os) =
        (Mark.openAfter opened (os.filterMap Occurrence.mark?)).reverse.map .unclosed := by
  induction os generalizing opened with
  | nil =>
    constructor
    · refine List.filter_eq_nil_iff.mpr fun event hevent => ?_
      obtain ⟨component, -, rfl⟩ := List.mem_map.mp hevent
      simp [message]
    · refine List.filter_eq_self.mpr fun event hevent => ?_
      obtain ⟨component, -, rfl⟩ := List.mem_map.mp hevent
      rfl
  | cons o os ih =>
    -- Of a tag itself, only that it is a closer that does not fit is logged with these messages.
    cases hname : Component.ofName? o.tag.name with
    | none =>
      have hmark : o.mark? = none := by simp only [Occurrence.mark?, hname]
      simp only [nestingEvents, hname, List.filterMap_cons_none hmark]
      rw [withMessage_cons_of_ne (by simp [message]), withMessage_cons_of_ne (by simp [message])]
      exact ih opened
    | some component =>
      cases hkind : o.tag.kind with
      | opening =>
        have hmark : o.mark? = some (.opens component) := by
          simp only [Occurrence.mark?, hname, hkind]
        simp only [nestingEvents, hname, hkind, List.filterMap_cons_some hmark]
        rw [withMessage_cons_of_ne (by simp [message]), withMessage_cons_of_ne (by simp [message])]
        exact ih (component :: opened)
      | selfClosing =>
        have hmark : o.mark? = none := by simp only [Occurrence.mark?, hname, hkind]
        simp only [nestingEvents, hname, hkind, List.filterMap_cons_none hmark]
        rw [withMessage_cons_of_ne (by simp [message]), withMessage_cons_of_ne (by simp [message])]
        exact ih opened
      | closing =>
        have hmark : o.mark? = some (.closes component o.line) := by
          simp only [Occurrence.mark?, hname, hkind]
        simp only [nestingEvents, hname, hkind, List.filterMap_cons_some hmark]
        rw [Mark.strays, Mark.openAfter]
        split
        · exact ih opened.tail
        · rw [withMessage_cons_of_eq (by rfl), withMessage_cons_of_ne (by simp [message]),
            List.map_cons]
          exact ⟨congrArg _ (ih opened).1, (ih opened).2⟩

theorem unbalancedEvents_eq (source : String) :
    unbalancedEvents source = (Mark.strays [] (marks source)).map ofStray :=
  (withMessage_nestingEvents [] (scan source)).1

theorem unclosedEvents_eq (source : String) :
    unclosedEvents source = (Mark.openAfter [] (marks source)).reverse.map .unclosed :=
  (withMessage_nestingEvents [] (scan source)).2

/-- The log tells how a document is nested. There is no word of closers that do not fit or of openers
that are not closed exactly if the document is well nested. The closers that do not fit are among the
closers, and for each of the others, and for each opener that is not closed, there is one opener. The
document can be read in one way: with those closers as its strays, and with the openers that are not
closed left open, in the order in which they are logged, from the outermost on. -/
theorem compileEvents_nesting (source : String) :
    (unbalancedEvents source = [] ∧ unclosedEvents source = [] ↔ WellNested (marks source)) ∧
      (unbalancedEvents source).Sublist
        (((marks source).filterMap Mark.closed?).map ofStray) ∧
      (marks source).countP Mark.isOpener =
        (((marks source).filterMap Mark.closed?).length - (unbalancedEvents source).length)
          + (unclosedEvents source).length ∧
      ∃ strays left,
        (∀ strays' left', LeavesOpen none (marks source) strays' left' ↔
          strays' = strays ∧ left' = left) ∧
        unbalancedEvents source = strays.map ofStray ∧
        unclosedEvents source = left.map .unclosed := by
  have hsub := Mark.strays_sublist [] (marks source)
  refine ⟨?_, ?_, ?_, _, _, fun _ _ => Mark.leavesOpen_iff, unbalancedEvents_eq source,
    unclosedEvents_eq source⟩
  · rw [unbalancedEvents_eq, unclosedEvents_eq, Mark.wellNested_iff, List.map_eq_nil_iff,
      List.map_eq_nil_iff, List.reverse_eq_nil_iff]
  · rw [unbalancedEvents_eq]
    exact hsub.map ofStray
  · have hcount := Mark.countP_isOpener_add [] (marks source)
    have hle := hsub.length_le
    rw [unbalancedEvents_eq, unclosedEvents_eq, List.length_map, List.length_map,
      List.length_reverse]
    rw [List.length_nil] at hcount
    omega

end Document

end LayoutMarkup

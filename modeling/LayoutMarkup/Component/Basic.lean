import LayoutMarkup.Text.Blank

/-!
# Components

The ten layout components and their names. A tag is recognised if its name is exactly that of a
component; a component that a person names may be written with blanks or angle brackets around it.

## Main definitions

* `Component`, `Component.name` — the components and their tag names
* `Component.ofName?` — the component with a given tag name
* `Component.parse` — the component that a person names
* `UnknownComponent`, `UnknownComponent.message` — a name that is no component's

## Main results

* `Component.ofName?_eq_some_iff` — a component is found under its name and no other
-/

namespace LayoutMarkup

open Text

/-- A layout component. -/
inductive Component
  | center
  | stack
  | row
  | box
  | spread
  | grid
  | spacer
  | divider
  | scrollArea
  | aspectRatio
  deriving DecidableEq, Repr

/-- A text that names no component, as it was given. -/
structure UnknownComponent where
  given : String
  deriving DecidableEq, Repr

namespace Component

/-- The components, in order. -/
def all : List Component :=
  [center, stack, row, box, spread, grid, spacer, divider, scrollArea, aspectRatio]

/-- The tag name of a component. -/
def name : Component → String
  | center => "Center"
  | stack => "Stack"
  | row => "Row"
  | box => "Box"
  | spread => "Spread"
  | grid => "Grid"
  | spacer => "Spacer"
  | divider => "Divider"
  | scrollArea => "ScrollArea"
  | aspectRatio => "AspectRatio"

/-- The component with a given tag name. Case counts. -/
def ofName? (name : String) : Option Component := all.find? (·.name = name)

/-- The tag names, for listings. -/
def names : String := ", ".intercalate (all.map name)

/-- A name without the blanks around it, and then without the brackets of a tag. -/
def bareName (given : String) : String :=
  String.ofList (dropEndWhile (· = '>') ((trim given.toList).dropWhile (· = '<')))

/-- The component that a person names, as `Stack` or `<Stack>`. -/
def parse (given : String) : Except UnknownComponent Component :=
  match ofName? (bareName given) with
  | some component => .ok component
  | none => .error ⟨given⟩

theorem mem_all (component : Component) : component ∈ all := by
  cases component <;> decide

theorem name_injective {c d : Component} (h : c.name = d.name) : c = d := by
  revert h
  cases c <;> cases d <;> decide

theorem ofName?_name (component : Component) : ofName? component.name = some component := by
  cases component <;> rfl

theorem ofName?_eq_some_iff {text : String} {component : Component} :
    ofName? text = some component ↔ component.name = text := by
  constructor
  · intro h
    simpa using List.find?_some h
  · rintro rfl
    exact ofName?_name component

end Component

/-- What is told of a text that names no component. -/
def UnknownComponent.message (error : UnknownComponent) : String :=
  "unknown component `" ++ error.given ++ "`, expected one of: " ++ Component.names

end LayoutMarkup

import LayoutMarkup.Component.Rule
import LayoutMarkup.Props

/-!
# Resolution

A component with props resolves to a list of utility classes without repetitions. The list is built
in stages: the base classes under the effects of the declared flags in their order, the classes of
the valued props in their order, the fixed defaults, and the axis defaults. Props that take no part
are left out of the record, and a value that names no class adds none.

## Main definitions

* `Resolution` — a component, its classes and the props that took part
* `Component.resolve` — the resolution of a component with props
* `Resolution.openTag`, `Resolution.element` — the plain container that a resolution stands for

## Main results

* `mem_classes_resolve` — which classes a component resolves to
-/

namespace LayoutMarkup

open Text

/-- What a component with props expands to. -/
structure Resolution where
  component : Component
  /-- The utility classes, without repetitions. -/
  classes : List String
  /-- The props that took part: the declared flags, then all props with a value. -/
  props : Props
  deriving DecidableEq

/-- The words of a text. -/
def classTokens (text : String) : List String := (words text.toList).map String.ofList

/-- The classes of a prop given as text. -/
def textClasses (name value : String) : List String :=
  if name = classNameProp then classTokens value
  else
    match Axis.ofProp? name with
    | some axis => (axis.table.get? value).toList
    | none => []

/-- The classes of a prop with a value. Only the number of columns is understood as a number. -/
def valueClasses (entry : Attribute) : List String :=
  match entry.value with
  -- Bare flags act through the rule.
  | .flag => []
  | .text value => textClasses entry.name value
  | .number n => if entry.name = Axis.cols.prop then (columnClass? n).toList else []

namespace Component

variable (component : Component) (props : Props)

/-- The flags among the props that the component declares, in order. -/
def declaredFlags : List String :=
  props.flags.filter fun flag => (component.rule.effect? flag).isSome

/-- The base classes under the effects of the flags. -/
def flagClasses : List String :=
  (props.flags.filterMap component.rule.effect?).foldl (fun classes effect => effect.apply classes)
    component.rule.base

/-- The props that take part: the declared flags, then all props with a value. -/
def recordedProps : Props :=
  Props.ofList ((component.declaredFlags props).map (⟨·, .flag⟩) ++ props.valued)

/-- The fixed defaults, unless a flag among the recorded props keeps them away. -/
def fixedClasses (recorded : Props) : List String :=
  if component.rule.suppressedBy.any recorded.hasFlag then [] else component.rule.fixedDefaults

/-- The default class of every axis with a default whose prop is not recorded. There is none if the
component is centered. -/
def axisClasses (recorded : Props) : List String :=
  if recorded.hasFlag centerFlag then []
  else
    component.rule.axisDefaults.flatMap fun (axis, key) =>
      if recorded.contains axis.prop then [] else (axis.table.get? key).toList

/-- The classes of all stages, with repetitions. -/
def stagedClasses : List String :=
  component.flagClasses props
    ++ props.valued.flatMap valueClasses
    ++ component.fixedClasses (component.recordedProps props)
    ++ component.axisClasses (component.recordedProps props)

/-- What the component with these props expands to. Of a repeated class the first is kept. -/
def resolve : Resolution :=
  ⟨component, (component.stagedClasses props).eraseDups, component.recordedProps props⟩

/-- The classes of a resolution are those of the stages. -/
theorem mem_classes_resolve {token : String} :
    token ∈ (component.resolve props).classes ↔ token ∈ component.stagedClasses props :=
  List.mem_eraseDups

end Component

namespace Resolution

/-- The classes of a resolution, separated by spaces. -/
def classText (resolution : Resolution) : String := " ".intercalate resolution.classes

/-- What the opening tag of a resolution holds between its name and `>`. -/
def containerAttrs (resolution : Resolution) : String :=
  (if resolution.classes = [] then "" else " class=\"" ++ resolution.classText ++ "\"")
    ++ match resolution.component.rule.marker with
      | some marker => " " ++ marker.written
      | none => ""

/-- The opening tag of the container that a resolution stands for. -/
def openTag (resolution : Resolution) : String := "<div" ++ resolution.containerAttrs ++ ">"

/-- The closing tag of every container. -/
def closeTag : String := "</div>"

/-- A container without content. -/
def element (resolution : Resolution) : String := resolution.openTag ++ closeTag

end Resolution

/-- The resolution of a tag by its name, if that is a component's. -/
def resolve? (name : String) (props : Props) : Option Resolution :=
  (Component.ofName? name).map (·.resolve props)

end LayoutMarkup

import LayoutMarkup.Axis
import LayoutMarkup.Component.Basic

/-!
# Component rules

Each component has one rule, plain data that says which utility classes it expands to: the base
classes, what its flags do to them, and the classes that fill in for props that are not given. All
else that is known of a component is read off its rule.

## Main definitions

* `PropEffect` — what a flag does to a list of classes
* `Marker` — the attribute that an element without content carries
* `Rule`, `Component.rule` — the rules
* `Rule.effect?`, `Rule.axisDefault?` — looking something up in a rule
-/

namespace LayoutMarkup

/-- The flag that stands in for every axis default. -/
def centerFlag : String := "center"

/-- The prop whose value is a list of further classes. -/
def classNameProp : String := "className"

/-- What a flag does to a list of classes: it adds classes at the end, or puts one class in the
place of another wherever that stands. -/
inductive PropEffect
  | add (tokens : List String)
  | replace (old new : String)
  deriving DecidableEq, Repr

/-- A list of classes under the effect of a flag. -/
def PropEffect.apply : PropEffect → List String → List String
  | add tokens, classes => classes ++ tokens
  | replace old new, classes => classes.map fun token => if token = old then new else token

/-- The attribute that marks an element without content of its own. -/
inductive Marker
  | ariaHidden
  | separator
  deriving DecidableEq, Repr

/-- The name of a marker's attribute and its value. -/
def Marker.parts : Marker → String × String
  | ariaHidden => ("aria-hidden", "true")
  | separator => ("role", "separator")

/-- A marker's attribute, written out. -/
def Marker.written (marker : Marker) : String :=
  marker.parts.1 ++ "=\"" ++ marker.parts.2 ++ "\""

/-- How a component expands to classes. -/
structure Rule where
  /-- The classes that the component starts from. -/
  base : List String
  /-- The flags that the component declares, and what they do. -/
  effects : List (String × PropEffect)
  /-- The key of each axis that has one when neither its prop nor `centerFlag` is given. -/
  axisDefaults : List (Axis × String)
  /-- Classes that are added unless one of the flags `suppressedBy` is given. -/
  fixedDefaults : List String
  /-- The declared flags that keep `fixedDefaults` away. -/
  suppressedBy : List String
  /-- The axes that the component documents. Every component obeys every axis. -/
  axes : List Axis
  /-- The attribute that the element carries besides its classes. -/
  marker : Option Marker
  deriving DecidableEq, Repr

namespace Rule

/-- What a flag does, if the component declares it. -/
def effect? (rule : Rule) (flag : String) : Option PropEffect :=
  (rule.effects.find? (·.1 = flag)).map Prod.snd

/-- The default key of an axis, if it has one. -/
def axisDefault? (rule : Rule) (axis : Axis) : Option String :=
  (rule.axisDefaults.find? (·.1 = axis)).map Prod.snd

end Rule

/-- The rule of each component. -/
def Component.rule : Component → Rule
  | center =>
    { base := ["flex", "flex-col"]
      effects :=
        [("fill", .add ["min-h-screen"]), ("horizontal", .add ["items-center"]),
          ("vertical", .add ["justify-center"]), ("inline", .replace "flex" "inline-flex")]
      axisDefaults := []
      fixedDefaults := ["items-center", "justify-center"]
      suppressedBy := ["horizontal", "vertical"]
      axes := []
      marker := none }
  | stack =>
    { base := ["flex", "flex-col"]
      effects :=
        [("fill", .add ["min-h-screen"]), (centerFlag, .add ["items-center", "justify-center"]),
          ("wrap", .add ["flex-wrap"])]
      axisDefaults := [(.gap, "md"), (.align, "stretch"), (.justify, "start")]
      fixedDefaults := []
      suppressedBy := []
      axes := [.gap, .align, .justify, .padding]
      marker := none }
  | row =>
    { base := ["flex", "flex-row"]
      effects :=
        [("fill", .add ["min-h-screen"]), (centerFlag, .add ["items-center", "justify-center"]),
          ("wrap", .add ["flex-wrap"]), ("reverse", .replace "flex-row" "flex-row-reverse")]
      axisDefaults := [(.gap, "md"), (.align, "center"), (.justify, "start")]
      fixedDefaults := []
      suppressedBy := []
      axes := [.gap, .align, .justify, .padding]
      marker := none }
  | box =>
    { base := []
      effects :=
        [("fill", .add ["flex-1"]), (centerFlag, .add ["flex", "items-center", "justify-center"])]
      axisDefaults := []
      fixedDefaults := []
      suppressedBy := []
      axes := [.padding]
      marker := none }
  | spread =>
    { base := ["flex", "flex-row", "justify-between"]
      effects := []
      axisDefaults := [(.align, "center")]
      fixedDefaults := []
      suppressedBy := []
      axes := [.align, .padding]
      marker := none }
  | grid =>
    { base := ["grid"]
      effects := []
      axisDefaults := [(.gap, "md")]
      fixedDefaults := []
      suppressedBy := []
      axes := [.cols, .gap]
      marker := none }
  | spacer =>
    { base := ["flex-1"]
      effects := []
      axisDefaults := []
      fixedDefaults := []
      suppressedBy := []
      axes := []
      marker := some .ariaHidden }
  | divider =>
    { base := ["w-full", "border-t", "border-gray-200"]
      effects := []
      axisDefaults := []
      fixedDefaults := []
      suppressedBy := []
      axes := []
      marker := some .separator }
  | scrollArea =>
    { base := ["overflow-y-auto"]
      effects := []
      axisDefaults := []
      fixedDefaults := []
      suppressedBy := []
      axes := []
      marker := none }
  | aspectRatio =>
    { base := ["relative"]
      effects := []
      axisDefaults := []
      fixedDefaults := []
      suppressedBy := []
      axes := []
      marker := none }

end LayoutMarkup

import LayoutMarkup.Component.Basic

/-!
# Log events

What can be logged about a run. An event says what happened; its level, its message and its fields
are read off it.

## Main definitions

* `Event`, `Level` — what can be logged, and how much detail it is
* `Event.level`, `Event.message`, `Event.fields` — how an event is logged
-/

namespace LayoutMarkup

/-- How much detail an event is. -/
inductive Level
  | trace
  | debug
  | info
  deriving DecidableEq, Repr

/-- The word for a level. -/
def Level.name : Level → String
  | trace => "TRACE"
  | debug => "DEBUG"
  | info => "INFO"

/-- Something that can be logged. -/
inductive Event
  /-- A component's tag was resolved for a report. -/
  | resolved (component : Component) (line : Nat) (classes : String)
  /-- A tag was left as it stands. -/
  | passed (name : String) (line : Nat)
  /-- A component's opening tag was replaced by a container's. -/
  | replaced (component : Component) (line : Nat) (classes : String)
  /-- A component was closed that was not the last one opened. -/
  | unbalanced (component : Component) (line : Nat)
  /-- A component was never closed. -/
  | unclosed (component : Component)
  /-- A file was compiled, and written to a file if a target is given. -/
  | built (input : String) (target : Option String)
  /-- A file was linted. -/
  | checked (file : String) (components warnings : Nat)
  deriving DecidableEq, Repr

namespace Event

/-- How much detail an event is. -/
def level : Event → Level
  | passed .. => .trace
  | resolved .. | replaced .. | unbalanced .. | unclosed .. => .debug
  | built .. | checked .. => .info

/-- The words of an event. -/
def message : Event → String
  | resolved .. => "resolved tag"
  | passed .. => "pass-through tag"
  | replaced .. => "rewrote tag"
  | unbalanced .. => "unbalanced closing tag"
  | unclosed .. => "unclosed tag"
  | built .. => "built"
  | checked .. => "checked"

/-- The fields of an event, by name and in order. -/
def fields : Event → List (String × String)
  | resolved component line classes | replaced component line classes =>
    [("component", component.name), ("line", toString line), ("classes", classes)]
  | passed name line => [("tag", name), ("line", toString line)]
  | unbalanced component line => [("component", component.name), ("line", toString line)]
  | unclosed component => [("component", component.name)]
  | built input none => [("input", input)]
  | built input (some target) => [("input", input), ("output", target)]
  | checked file components warnings =>
    [("file", file), ("components", toString components), ("warnings", toString warnings)]

/-- Whether an event is shown when tracing is off. -/
def isDebug (event : Event) : Bool := event.level != .trace

end Event

end LayoutMarkup

import LayoutMarkup.Component.Resolution
import LayoutMarkup.Json

/-!
# Reference cards

A reference card tells what a component expands to without props and what each documented prop
brings in. It is made from the component's rule and the class tables.

## Main definitions

* `Card`, `Card.Entry` — a reference card and a prop on it
* `Component.card`, `describe` — the card of a component
* `Card.markdown`, `Card.json` — the card as text
-/

namespace LayoutMarkup

/-- A prop as it is written, and what it brings in. -/
structure Card.Entry where
  prop : String
  classes : String
  deriving DecidableEq, Repr

/-- What there is to know of a component. -/
structure Card where
  component : Component
  /-- The classes of the component without props. -/
  defaultClasses : List String
  /-- The documented props: the flags, then the axes with their keys. -/
  entries : List Card.Entry
  deriving DecidableEq, Repr

/-- What a flag does, in words. -/
def PropEffect.summary : PropEffect → String
  | add tokens => "+ " ++ " ".intercalate tokens
  | replace old new => old ++ " → " ++ new

/-- The prop that sets an axis to a key, as it is written. The number of columns is a number. -/
def Axis.writtenProp (axis : Axis) (key : String) : String :=
  match axis with
  | cols => axis.prop ++ "=" ++ bracedText key
  | _ => axis.prop ++ "=\"" ++ key ++ "\""

/-- The entries for an axis. -/
def Axis.cardEntries (axis : Axis) : List Card.Entry :=
  axis.table.map fun (key, token) => ⟨axis.writtenProp key, token⟩

/-- The reference card of a component. -/
def Component.card (component : Component) : Card where
  component := component
  defaultClasses := (component.resolve .empty).classes
  entries :=
    component.rule.effects.map (fun (flag, effect) => ⟨flag, effect.summary⟩)
      ++ component.rule.axes.flatMap Axis.cardEntries

/-- The reference card of the component that a person names. -/
def describe (given : String) : Except UnknownComponent Card :=
  (Component.parse given).map Component.card

namespace Card

/-- The card as Markdown. -/
def markdown (card : Card) : String :=
  "### LayoutKit: `<" ++ card.component.name ++ ">`\n\n"
    ++ "**Base classes:** "
    ++ (if card.defaultClasses = [] then "(none)"
      else "`" ++ " ".intercalate card.defaultClasses ++ "`")
    ++ "\n"
    ++ (match card.component.rule.marker with
      | some marker => "\n**Renders with:** `" ++ marker.written ++ "`\n"
      | none => "")
    ++ if card.entries = [] then ""
      else
        "\n**Props → Classes:**\n\n| Prop | Classes |\n|---|---|\n"
          ++ String.join (card.entries.map fun entry =>
            "| `" ++ entry.prop ++ "` | `" ++ entry.classes ++ "` |\n")

/-- The card as a JSON value. -/
def json (card : Card) : Json :=
  .object
    [("component", .text card.component.name), ("defaultClasses", .texts card.defaultClasses),
      ("props", .array (card.entries.map fun entry =>
        .object [("prop", .text entry.prop), ("classes", .text entry.classes)]))]

end Card

end LayoutMarkup

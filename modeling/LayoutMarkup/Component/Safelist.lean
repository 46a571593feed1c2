import LayoutMarkup.Component.Rule
import LayoutMarkup.Json

/-!
# The safelist

A tool that drops unused classes cannot see the classes that compiling brings in. The safelist names
all of them: every class that a rule or a table can contribute, each once, in order of first mention.
Classes that a person writes into `className`, and numbers of columns that the table does not hold,
are not in it.

## Main definitions

* `Rule.tokens` — the classes that a rule can contribute
* `safelist` — the classes that compiling can bring in
* `SafelistFormat`, `SafelistFormat.render` — the safelist as text

## Main results

* `mem_safelist_iff` — what is in the safelist
* `nodup_safelist` — no class is in it twice
-/

namespace LayoutMarkup

/-- The classes that a flag can bring in. -/
def PropEffect.tokens : PropEffect → List String
  | add tokens => tokens
  | replace _ new => [new]

/-- The classes that a rule can contribute. -/
def Rule.tokens (rule : Rule) : List String :=
  rule.base ++ rule.effects.flatMap (fun (_, effect) => effect.tokens) ++ rule.fixedDefaults
    ++ rule.axisDefaults.flatMap (fun (axis, key) => (axis.table.get? key).toList)

/-- The classes that compiling can bring in, in order of first mention. -/
def safelist : List String :=
  (Component.all.flatMap (fun component => component.rule.tokens)
    ++ Axis.all.flatMap (fun axis => axis.table.tokens)).eraseDups

theorem mem_safelist_iff {token : String} : token ∈ safelist ↔
    (∃ component : Component, token ∈ component.rule.tokens) ∨
      ∃ axis : Axis, token ∈ axis.table.tokens := by
  simp only [safelist, List.mem_eraseDups, List.mem_append, List.mem_flatMap]
  exact or_congr ⟨fun ⟨c, _, h⟩ => ⟨c, h⟩, fun ⟨c, h⟩ => ⟨c, c.mem_all, h⟩⟩
    ⟨fun ⟨a, _, h⟩ => ⟨a, h⟩, fun ⟨a, h⟩ => ⟨a, a.mem_all, h⟩⟩

theorem nodup_safelist : safelist.Nodup := by
  decide +kernel

/-- The ways to write the safelist. -/
inductive SafelistFormat
  /-- One class on each line. -/
  | plain
  /-- A JSON array. -/
  | json
  /-- One source directive for each class. -/
  | css
  deriving DecidableEq, Repr

/-- A text that names no way to write the safelist. -/
structure UnknownFormat where
  given : String
  deriving DecidableEq, Repr

/-- What is told of a text that names no way to write the safelist. -/
def UnknownFormat.message (error : UnknownFormat) : String :=
  "unknown safelist format `" ++ error.given ++ "`"

namespace SafelistFormat

/-- The formats, in order. -/
def all : List SafelistFormat := [plain, json, css]

/-- The name of a format. -/
def name : SafelistFormat → String
  | plain => "plain"
  | json => "json"
  | css => "css"

/-- The format used when none is named. -/
def standard : SafelistFormat := plain

/-- The format with a given name. -/
def parse (given : String) : Except UnknownFormat SafelistFormat :=
  match all.find? (·.name = given) with
  | some format => .ok format
  | none => .error ⟨given⟩

/-- The directive that keeps a class. -/
def directive (token : String) : String := "@source inline(\"" ++ token ++ "\");"

/-- The safelist as text that ends in a line feed. -/
def render : SafelistFormat → String
  | plain => "\n".intercalate safelist ++ "\n"
  | json => (Json.texts safelist).indented ++ "\n"
  | css => "\n".intercalate (safelist.map directive) ++ "\n"

end SafelistFormat

end LayoutMarkup

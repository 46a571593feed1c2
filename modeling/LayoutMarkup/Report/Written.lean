import LayoutMarkup.Json
import LayoutMarkup.Report

/-!
# Written reports

The forms in which props, resolutions, warnings and whole reports are written: as JSON values and as
lines of plain text.

## Main definitions

* `Props.json`, `Resolution.json`, `Warning.json`, `Report.json` — as JSON values
* `Report.listing`, `Warning.listing` — as lines of plain text
-/

namespace LayoutMarkup

/-- A value as a JSON value; a bare flag is `true`. -/
def PropValue.json : PropValue → Json
  | flag => .bool true
  | text value => .text value
  | number value => .number value.toNat

/-- Props as a JSON object, in order. -/
def Props.json (props : Props) : Json :=
  .object (props.entries.map fun entry => (entry.name, entry.value.json))

namespace Resolution

/-- A resolution as a JSON object. -/
def json (resolution : Resolution) : Json :=
  .object
    [("component", .text resolution.component.name), ("classes", .texts resolution.classes),
      ("props", resolution.props.json)]

/-- A resolution as an entry of a report, with the tag that it compiles to. -/
def entryJson (resolution : Resolution) : Json :=
  .object
    [("component", .text resolution.component.name), ("props", resolution.props.json),
      ("classes", .texts resolution.classes), ("html", .text resolution.openTag)]

/-- The opening tag of a component with just the props that took part. -/
def header (resolution : Resolution) : String :=
  "<" ++ resolution.component.name ++ String.ofList resolution.props.written ++ ">"

/-- A resolution on two lines: the component's tag and the container's. -/
def listing (resolution : Resolution) : String :=
  resolution.header ++ "\n  " ++ resolution.openTag ++ "\n"

end Resolution

namespace Warning

/-- A warning as a JSON object; there is a field for the fix only if there is one. -/
def json (warning : Warning) : Json :=
  .object
    ([("line", .number warning.line), ("rule", .text warning.rule.code),
        ("message", .text warning.message), ("severity", .text warning.severity.name)]
      ++ match warning.fix with
        | some fix => [("fix", .text fix)]
        | none => [])

/-- A warning about a file, with the fix on a line of its own. -/
def listing (file : String) (warning : Warning) : String :=
  file ++ ":" ++ toString warning.line ++ ": " ++ warning.severity.name ++ " ["
    ++ warning.rule.code ++ "] " ++ warning.message
    ++ (match warning.fix with
      | some fix => "\n  fix: " ++ fix
      | none => "")
    ++ "\n"

end Warning

/-- Warnings about a file, in order. -/
def warningListing (file : String) (warnings : List Warning) : String :=
  String.join (warnings.map (Warning.listing file))

namespace Report

/-- A report as a JSON object. -/
def json (report : Report) : Json :=
  .object
    [("results", .array (report.results.map Resolution.entryJson)),
      ("warnings", .array (report.warnings.map Warning.json))]

/-- The resolutions of a report, in order. -/
def listing (report : Report) : String := String.join (report.results.map Resolution.listing)

end Report

end LayoutMarkup

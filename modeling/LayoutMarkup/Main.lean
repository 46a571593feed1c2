import LayoutMarkup.Command.Arguments
import LayoutMarkup.Command.Session

/-!
# The command line

The outermost layer: it hands the arguments over, runs the command on the files of the system, and
prints what comes of it.

## Main definitions

* `FileAccess IO` — the files of the system
* `Rejection.text` — what is printed when no command is run
* `main` — the command line
-/

namespace LayoutMarkup

/-- The status of a system error, which some calls give negated. -/
def systemStatus (code : UInt32) : UInt32 := if 0x80000000 ≤ code then 0 - code else code

/-- The file error that a system error is. -/
def FileError.ofSystem (error : IO.Error) : FileError :=
  match error with
  | .noFileOrDirectory .. => .notFound
  | .alreadyExists .. => .alreadyExists
  -- Status 21 is that of a directory; all others of this kind lack one.
  | .inappropriateType _ code _ => if systemStatus code = 21 then .isDirectory else .notDirectory
  | .invalidArgument _ code _ =>
    if systemStatus code = 36 then .nameTooLong else .other (toString error)
  | error => .other (toString error)

/-- The files of the system can be read and written. -/
instance : FileAccess IO where
  readText path := do
    if let some fault := path.fault? then return .error fault
    try
      match Contents.ofBytes (← IO.FS.readBinFile path.text) with
      | .text value => return .ok value
      | .binary _ => return .error .notText
    catch error => return .error (.ofSystem error)
  writeText path value := do
    if let some fault := path.fault? then return .error fault
    try
      unless path.directory.text.isEmpty do
        IO.FS.createDirAll path.directory.text
      IO.FS.writeFile path.text value
      return .ok ()
    catch error => return .error (.ofSystem error)

/-- How the command line is used. -/
def usage : String :=
  "Semantic layout components compiled to utility classes\n\n"
    ++ "Usage: layoutkit [OPTIONS] <COMMAND>\n\n"
    ++ "Commands:\n"
    ++ "  build <FILES>... [-o <DIR>]             Compile files\n"
    ++ "  check <FILES>... [--strict] [--json]    Lint files without generating output\n"
    ++ "  results <FILE> [--json]                 Show what every component resolves to\n"
    ++ "  safelist [--format plain|json|css]      Print every class that can be emitted\n"
    ++ "  describe <TAG>                          Show the classes and props of a component\n"
    ++ "  help [COMMAND]                          Print help\n\n"
    ++ "Options:\n"
    ++ "  -v, --verbose    Log every resolved tag\n"
    ++ "  -h, --help       Print help\n"
    ++ "  -V, --version    Print version\n"

/-- What is printed when no command is run. -/
def Rejection.text : Rejection → String
  | help | nothingGiven => usage
  | version => "layoutkit " ++ LayoutMarkup.version ++ "\n"
  | noCommand => "error: a command is expected\n\n" ++ usage
  | unknownCommand word => "error: unrecognized subcommand '" ++ word ++ "'\n\n" ++ usage
  | unknownArgument argument => "error: unexpected argument '" ++ argument ++ "'\n\n" ++ usage
  | repeated option => "error: '" ++ option ++ "' cannot be used more than once\n\n" ++ usage
  | invalidValue (some value) => "error: invalid value '" ++ value ++ "'\n\n" ++ usage
  | invalidValue none => "error: a value is required\n\n" ++ usage
  | superfluousValue flag => "error: '" ++ flag ++ "' takes no value\n\n" ++ usage
  | missingArgument => "error: a required argument was not given\n\n" ++ usage

/-- A logged event on one line. -/
def Event.text (event : Event) : String :=
  event.level.name ++ " " ++ event.message
    ++ String.join (event.fields.map fun (name, value) => " " ++ name ++ "=" ++ value)

/-- Runs a command on the files of the system and gives its exit status. -/
def Invocation.execute (invocation : Invocation) : IO UInt32 := do
  let session : Session IO Unit := invocation.command.run
  let (result, transcript) ← session.run.run .empty
  IO.print transcript.output
  for event in transcript.shown invocation.verbose do
    IO.eprintln event.text
  IO.eprint transcript.errors
  match result with
  | .ok () => return 0
  | .error failure =>
    IO.eprintln ("Error: " ++ failure.message)
    return 1

end LayoutMarkup

open LayoutMarkup in
/-- The command line. -/
def main (arguments : List String) : IO UInt32 := do
  match Invocation.read arguments with
  | .ok invocation => invocation.execute
  | .error rejection =>
    if rejection.exitCode = 0 then IO.print rejection.text else IO.eprint rejection.text
    return UInt32.ofNat rejection.exitCode

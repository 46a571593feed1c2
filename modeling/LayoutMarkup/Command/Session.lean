import LayoutMarkup.Command.Basic
import LayoutMarkup.Component.Card
import LayoutMarkup.Files.System
import LayoutMarkup.Markup
import LayoutMarkup.Report.Written

/-!
# Running commands

A command runs in a session, which can read and write files and keeps a transcript of what it prints
and logs. Where the files are is left open: a session needs no more of them than `FileAccess`. A file
system is one way to have files, and `Command.runOn` runs a command on it.

## Main definitions

* `Transcript` — what a session has printed and logged
* `Session` — a computation with files, a transcript and failures
* `planTargets` — where the compiled forms of inputs go
* `Command.run` — what a command does
* `Session.onState` — what comes of a session on files in a state
* `Outcome`, `Command.runOn` — what comes of a command on a file system
-/

namespace LayoutMarkup

/-- What a session has printed and logged so far. -/
structure Transcript where
  output : String
  errors : String
  events : List Event
  deriving DecidableEq, Repr

namespace Transcript

/-- Nothing printed or logged yet. -/
def empty : Transcript := ⟨"", "", []⟩

/-- The transcript with more printed to the standard output. -/
def print (transcript : Transcript) (text : String) : Transcript :=
  { transcript with output := transcript.output ++ text }

/-- The transcript with more printed to the standard error. -/
def report (transcript : Transcript) (text : String) : Transcript :=
  { transcript with errors := transcript.errors ++ text }

/-- The transcript with more events logged. -/
def log (transcript : Transcript) (events : List Event) : Transcript :=
  { transcript with events := transcript.events ++ events }

/-- The logged events that are shown: all but traces if the session is verbose, else none. -/
def shown (transcript : Transcript) (verbose : Bool) : List Event :=
  if verbose then transcript.events.filter Event.isDebug else []

end Transcript

/-- A computation with files and a transcript that can fail. What was printed before a failure stays
in the transcript. -/
abbrev Session (m : Type → Type) := ExceptT Failure (StateT Transcript m)

namespace Session

variable {m : Type → Type} [Monad m]

/-- Prints to the standard output. -/
def print (text : String) : Session m Unit := modifyThe Transcript (·.print text)

/-- Prints to the standard error. -/
def report (text : String) : Session m Unit := modifyThe Transcript (·.report text)

/-- Logs events. -/
def log (events : List Event) : Session m Unit := modifyThe Transcript (·.log events)

variable [FileAccess m]

/-- The text of a file. -/
def read (path : Path) : Session m String := do
  match ← (FileAccess.readText path : m _) with
  | .ok value => pure value
  | .error error => throw (.unreadable path error)

/-- Writes a file. -/
def write (path : Path) (value : String) : Session m Unit := do
  match ← (FileAccess.writeText path value : m _) with
  | .ok () => pure ()
  | .error error => throw (.unwritable path error)

end Session

/-! ### Building -/

/-- Inputs with their targets in a directory, in order, given those of the inputs before. No two
inputs may have the same target. -/
def planTargetsFrom (directory : Path) (planned : List (Path × Path)) :
    List Path → Except Failure (List (Path × Path))
  | [] => .ok planned
  | input :: rest =>
    match planned.find? fun earlier => earlier.2.same (directory.target input) with
    | some earlier => .error (.collision earlier.1 input (directory.target input))
    | none => planTargetsFrom directory (planned ++ [(input, directory.target input)]) rest

/-- Inputs with their targets in a directory, in order. -/
def planTargets (directory : Path) (inputs : List Path) : Except Failure (List (Path × Path)) :=
  planTargetsFrom directory [] inputs

variable {m : Type → Type} [Monad m] [FileAccess m]

/-- The compiled form of a file that is read. -/
def compileInput (input : Path) : Session m String := do
  let content ← Session.read input
  Session.log (compileFileEvents content input.text)
  pure (compileFile content input.text)

/-- Compiles a file to the standard output. -/
def buildToOutput (input : Path) : Session m Unit := do
  let compiled ← compileInput input
  Session.log [.built input.text none]
  Session.print compiled

/-- Compiles a file to a file. -/
def buildToFile (input target : Path) : Session m Unit := do
  let compiled ← compileInput input
  Session.write target compiled
  Session.log [.built input.text (some target.text)]
  Session.report ("Built: " ++ target.text ++ "\n")

/-- Compiles files one after the other to the standard output. -/
def buildAllToOutput : List Path → Session m Unit
  | [] => pure ()
  | input :: rest => do
    buildToOutput input
    buildAllToOutput rest

/-- Compiles files one after the other to their targets. -/
def buildAllToFiles : List (Path × Path) → Session m Unit
  | [] => pure ()
  | (input, target) :: rest => do
    buildToFile input target
    buildAllToFiles rest

/-- Compiles files, into a directory or to the standard output. Before a directory is written to,
all targets in it are known to be different. -/
def build (inputs : List Path) : Option Path → Session m Unit
  | none => buildAllToOutput inputs
  | some directory =>
    -- No file is read before the targets are known.
    match planTargets directory inputs with
    | .error failure => throw failure
    | .ok planned => buildAllToFiles planned

/-! ### Checking -/

/-- The report on a file that is read. -/
def reportOn (file : Path) : Session m Report := do
  let source ← Session.read file
  Session.log (Document.findingEvents source)
  pure (Report.ofSource source)

/-- The reports on files, by file and in order. -/
def reportOnAll : List Path → Session m (List (Path × Report))
  | [] => pure []
  | file :: rest => do
    let found ← reportOn file
    Session.log [.checked file.text found.results.length found.warnings.length]
    let others ← reportOnAll rest
    pure ((file, found) :: others)

/-- Whether a warning makes a check fail. -/
def Warning.isFailing (strict : Bool) (warning : Warning) : Bool :=
  strict || warning.severity = .warning

/-- The number of warnings in reports that make a check fail. -/
def failingCount (strict : Bool) (reports : List (Path × Report)) : Nat :=
  (reports.flatMap fun (_, found) => found.warnings).countP (·.isFailing strict)

/-- The warnings in reports as a JSON value. -/
def checkJson (reports : List (Path × Report)) : Json :=
  .array (reports.map fun (file, found) =>
    .object
      [("file", .text file.text), ("warnings", .array (found.warnings.map Warning.json))])

/-- Prints reports one after the other. A file without warnings is told of on the standard error. -/
def printReports : List (Path × Report) → Session m Unit
  | [] => pure ()
  | (file, found) :: rest => do
    if found.isClean then Session.report ("OK: " ++ file.text ++ "\n")
    else Session.print (warningListing file.text found.warnings)
    printReports rest

/-- Lints files. Nothing is printed before all files are read. -/
def check (files : List Path) (strict json : Bool) : Session m Unit := do
  let reports ← reportOnAll files
  if json then Session.print ((checkJson reports).indented ++ "\n")
  else printReports reports
  if failingCount strict reports = 0 then pure ()
  else throw (.lintFailed (failingCount strict reports))

/-! ### Other commands -/

/-- Shows what the tags of a file resolve to, and the warnings about it. -/
def showResults (file : Path) (json : Bool) : Session m Unit := do
  let found ← reportOn file
  if json then Session.print (found.json.indented ++ "\n")
  else Session.print (found.listing ++ warningListing file.text found.warnings)

/-- Prints the reference card of a component. -/
def showCard (given : String) : Session m Unit :=
  match LayoutMarkup.describe given with
  | .ok card => Session.print card.markdown
  | .error error => throw (.unknownComponent error)

/-- Does what a command asks for. -/
def Command.run : Command → Session m Unit
  | build files directory => LayoutMarkup.build files directory
  | check files strict json => LayoutMarkup.check files strict json
  | results file json => showResults file json
  | safelist format => Session.print format.render
  | describe given => showCard given

/-! ### Outcomes -/

/-- What comes of a session on files in a state: its result, and the transcript and the state as
they are then. -/
def Session.onState {σ α : Type} (session : Session (StateM σ) α) (transcript : Transcript)
    (state : σ) : Except Failure α × Transcript × σ :=
  let ((result, transcript), state) := (session.run.run transcript).run state
  (result, transcript, state)

/-- What comes of a command: what it printed and logged, the state of the files then, and why it
failed, if it did. -/
structure Outcome (σ : Type) where
  transcript : Transcript
  state : σ
  failure : Option Failure

/-- What comes of a command on a file system in a state. -/
def Command.runOn {σ : Type} [FileSystem σ] (command : Command) (state : σ) : Outcome σ :=
  match Session.onState command.run .empty state with
  | (.ok (), transcript, state) => ⟨transcript, state, none⟩
  | (.error failure, transcript, state) => ⟨transcript, state, some failure⟩

/-- What comes of a command on a file tree. -/
abbrev Command.runOnTree (command : Command) (tree : FileTree) : Outcome FileTree :=
  command.runOn tree

namespace Outcome

variable {σ : Type}

/-- The file tree that a command left. -/
abbrev tree (outcome : Outcome FileTree) : FileTree := outcome.state

/-- The exit status of a command: zero if it did not fail. -/
def exitCode (outcome : Outcome σ) : Nat := if outcome.failure.isSome then 1 else 0

/-- What the command line prints to the standard error: what the command did, then why it failed. -/
def errorText (outcome : Outcome σ) : String :=
  outcome.transcript.errors
    ++ match outcome.failure with
      | some failure => "Error: " ++ failure.message ++ "\n"
      | none => ""

end Outcome

end LayoutMarkup

import LayoutMarkup.Component.Safelist
import LayoutMarkup.Files.Tree

/-!
# Commands

The commands of the command line, and the reasons for which one can fail.

## Main definitions

* `Command` — what to do
* `Failure`, `Failure.message` — why it cannot be done
-/

namespace LayoutMarkup

/-- The version of this library. -/
def version : String := "0.3.0"

/-- Something that the command line can be asked to do. -/
inductive Command
  /-- Compile files, into a directory or to the standard output. -/
  | build (files : List Path) (directory : Option Path)
  /-- Lint files. A strict check fails on suggestions too. -/
  | check (files : List Path) (strict json : Bool)
  /-- Show what the tags of a file resolve to. -/
  | results (file : Path) (json : Bool)
  /-- Print the safelist. -/
  | safelist (format : SafelistFormat)
  /-- Print the reference card of a component. -/
  | describe (given : String)
  deriving DecidableEq, Repr

/-- Why a command fails. -/
inductive Failure
  | unreadable (path : Path) (error : FileError)
  | unwritable (path : Path) (error : FileError)
  | collision (first second target : Path)
  | unknownComponent (error : UnknownComponent)
  | lintFailed (count : Nat)
  deriving DecidableEq, Repr

/-- What is told of a failure. -/
def Failure.message : Failure → String
  | unreadable path error => "failed to read " ++ path.text ++ ": " ++ error.message
  | unwritable path error => "failed to write " ++ path.text ++ ": " ++ error.message
  | collision first second target =>
    first.text ++ " and " ++ second.text ++ " would both be written to " ++ target.text
  | unknownComponent error => error.message
  | lintFailed count => "lint failed: " ++ toString count ++ " problem(s) found"

end LayoutMarkup

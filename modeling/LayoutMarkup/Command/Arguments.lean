import LayoutMarkup.Command.Basic

/-!
# Reading arguments

The command line is a list of arguments. In front of the command's name stand options that hold for
every command; behind it stand the command's own options and its positional arguments, in any order.
Arguments are read from left to right and the first fault found decides. A value that stands in an
argument of its own is checked when the next option is recognised, when a positional argument
follows that it does not belong with, or at the end; an argument that is not recognised is a fault
even while a value waits to be checked.

## Main definitions

* `Rejection` — why no command is run
* `Argument.Shape` — the four shapes of an argument
* `OptionSpec`, `Signature` — the arguments that a command takes
* `Reading` — arguments as far as they are read
* `CommandName` — the commands by name, with their signatures
* `Invocation.read` — the command that arguments ask for
-/

namespace LayoutMarkup

/-- Why no command is run. -/
inductive Rejection
  /-- Help was asked for. -/
  | help
  /-- The version was asked for. -/
  | version
  /-- There are no arguments at all. -/
  | nothingGiven
  /-- There are options but no command. -/
  | noCommand
  /-- A word stands where a command's name is expected. -/
  | unknownCommand (word : String)
  /-- An option is not known, or a positional argument is one too many. -/
  | unknownArgument (argument : String)
  /-- An option that may be given once is repeated. -/
  | repeated (option : String)
  /-- A value is missing or is not accepted. -/
  | invalidValue (value : Option String)
  /-- A flag is given a value. -/
  | superfluousValue (flag : String)
  /-- A positional argument is missing. -/
  | missingArgument
  deriving DecidableEq, Repr

/-- The exit status when no command is run: zero if that is what was asked for. -/
def Rejection.exitCode : Rejection → Nat
  | help | version => 0
  | _ => 2

/-! ### Shapes of arguments -/

/-- The shapes of an argument: the mark behind which all arguments are words, a long option with or
without a value, short options, and a word. -/
inductive Argument.Shape
  | escape
  | long (name : String) (value : Option String)
  | short (letters : List Char)
  | word
  deriving DecidableEq, Repr

/-- A text cut at its first equals sign, if it has one. -/
def cutAtEquals (text : List Char) : String × Option String :=
  (String.ofList (text.takeWhile (· ≠ '=')),
    match text.dropWhile (· ≠ '=') with
    | [] => none
    | _ :: value => some (String.ofList value))

/-- The shape of an argument. A hyphen alone is a word. -/
def Argument.shape (argument : String) : Argument.Shape :=
  match argument.toList with
  | ['-', '-'] => .escape
  | '-' :: '-' :: text => .long (cutAtEquals text).1 (cutAtEquals text).2
  | '-' :: c :: letters => .short (c :: letters)
  | _ => .word

/-! ### What a command takes -/

/-- What an option is for. -/
inductive OptionKind
  | help
  | version
  | flag
  /-- An option with a value that has to be accepted. -/
  | value (accepts : String → Bool)

/-- An option: its long name, its letter if it has one, and what it is for. -/
structure OptionSpec where
  long : String
  letter : Option Char
  kind : OptionKind

/-- How many positional arguments there are. -/
inductive Arity
  | none
  | one
  | many
  deriving DecidableEq, Repr

/-- The arguments that a command takes. -/
structure Signature where
  options : List OptionSpec
  arity : Arity
  /-- Whether a positional argument is accepted. -/
  accepts : String → Bool

namespace Signature

/-- The option with a given long name. -/
def findLong? (signature : Signature) (name : String) : Option OptionSpec :=
  signature.options.find? (·.long = name)

/-- The option with a given letter. -/
def findLetter? (signature : Signature) (letter : Char) : Option OptionSpec :=
  signature.options.find? (·.letter = some letter)

end Signature

/-! ### Reading one command's arguments -/

/-- What arguments have said: the flags and the values by long name, and the positional
arguments. -/
structure Given where
  flags : List String
  values : List (String × String)
  positionals : List String
  deriving DecidableEq, Repr

namespace Given

/-- Nothing said yet. -/
def nothing : Given := ⟨[], [], []⟩

/-- Whether a flag is given. -/
def has (given : Given) (flag : String) : Bool := given.flags.contains flag

/-- The value of an option, if it is given. -/
def value? (given : Given) (option : String) : Option String :=
  (given.values.find? (·.1 = option)).map Prod.snd

/-- With one more flag, which may not be given already. -/
def addFlag (given : Given) (flag : String) : Except Rejection Given :=
  if given.has flag then .error (.repeated flag)
  else .ok { given with flags := given.flags ++ [flag] }

/-- With the value of one more option, which may not be given already. -/
def addValue (given : Given) (option : OptionSpec) (accepts : String → Bool) (value : String) :
    Except Rejection Given :=
  if (given.value? option.long).isSome then .error (.repeated option.long)
  else if accepts value then .ok { given with values := given.values ++ [(option.long, value)] }
  else .error (.invalidValue value)

/-- With more positional arguments, which all have to be accepted. -/
def addPositionals (given : Given) (accepts : String → Bool) (values : List String) :
    Except Rejection Given :=
  match values.find? (!accepts ·) with
  | some value => .error (.invalidValue value)
  | none => .ok { given with positionals := given.positionals ++ values }

end Given

/-- What is read but not yet checked. -/
inductive Pending
  | nothing
  /-- An option whose value is expected or has been read. -/
  | option (option : OptionSpec) (accepts : String → Bool) (value : Option String)
  /-- Positional arguments in a row. -/
  | positionals (values : List String)

/-- Arguments as far as they are read. -/
structure Reading where
  given : Given
  pending : Pending

namespace Reading

/-- No arguments read yet. -/
def start : Reading := ⟨.nothing, .nothing⟩

/-- What is said once all that is pending is checked. -/
def settle (reading : Reading) (signature : Signature) : Except Rejection Given :=
  match reading.pending with
  | .nothing => .ok reading.given
  | .option _ _ none => .error (.invalidValue none)
  | .option option accepts (some value) => reading.given.addValue option accepts value
  | .positionals values => reading.given.addPositionals signature.accepts values

variable (signature : Signature)

/-- Reads an option that takes no value. -/
def readFlag (reading : Reading) (option : OptionSpec) : Except Rejection Reading := do
  let given ← reading.settle signature
  match option.kind with
  | .help => throw .help
  | .version => throw .version
  | _ => return ⟨← given.addFlag option.long, .nothing⟩

/-- Reads an option that takes a value. A value that is attached is checked at once; otherwise it is
expected in the next argument. -/
def readOption (reading : Reading) (option : OptionSpec) (accepts : String → Bool)
    (attached : Option String) : Except Rejection Reading := do
  let given ← reading.settle signature
  match attached with
  | some value => return ⟨← given.addValue option accepts value, .nothing⟩
  | none => return ⟨given, .option option accepts none⟩

/-- Reads a long option. -/
def readLong (reading : Reading) (name : String) (attached : Option String) :
    Except Rejection Reading :=
  match signature.findLong? name with
  | none => .error (.unknownArgument name)
  | some option =>
    match option.kind, attached with
    | .value accepts, _ => reading.readOption signature option accepts attached
    | _, some _ => .error (.superfluousValue name)
    | _, none => reading.readFlag signature option

/-- The value attached to a short option, which an equals sign may set off. -/
def attachedValue? : List Char → Option String
  | [] => none
  | '=' :: value => some (String.ofList value)
  | value => some (String.ofList value)

/-- Reads short options that share a hyphen. The first one that takes a value takes all that
follows. -/
def readLetters (reading : Reading) : List Char → Except Rejection Reading
  | [] => .ok reading
  | letter :: rest =>
    match signature.findLetter? letter with
    | none => .error (.unknownArgument (String.singleton letter))
    | some option =>
      match option.kind with
      | .value accepts => reading.readOption signature option accepts (attachedValue? rest)
      | _ =>
        match reading.readFlag signature option with
        | .ok reading => reading.readLetters rest
        | .error rejection => .error rejection

/-- Whether a positional argument has been read. -/
def hasPositional (reading : Reading) : Bool :=
  !reading.given.positionals.isEmpty
    || match reading.pending with
      | .positionals _ => true
      | _ => false

/-- Reads a positional argument. -/
def readPositional (reading : Reading) (word : String) : Except Rejection Reading :=
  match signature.arity, reading.pending with
  | .none, _ => .error (.unknownArgument word)
  | .many, .positionals values => .ok { reading with pending := .positionals (values ++ [word]) }
  | arity, _ =>
    if arity = .one && reading.hasPositional then .error (.unknownArgument word)
    else
      match reading.settle signature with
      | .ok given => .ok ⟨given, .positionals [word]⟩
      | .error rejection => .error rejection

/-- Reads a word: the value of the option in front of it, or else a positional argument. -/
def readWord (reading : Reading) (word : String) : Except Rejection Reading :=
  match reading.pending with
  | .option option accepts none => .ok { reading with pending := .option option accepts (some word) }
  | _ => reading.readPositional signature word

/-- Reads the arguments behind a command's name. -/
def readAll (reading : Reading) : List String → Except Rejection Given
  | [] => reading.settle signature
  | argument :: rest =>
    match Argument.shape argument with
    | .escape => do
      -- Even an option that still expects its value gets none from here on.
      let reading ← rest.foldlM (fun reading word => reading.readPositional signature word) reading
      reading.settle signature
    | .long name value => do (← reading.readLong signature name value).readAll rest
    | .short letters => do (← reading.readLetters signature letters).readAll rest
    | .word => do (← reading.readWord signature argument).readAll rest

end Reading

/-! ### Commands by name -/

/-- The names of the commands. -/
inductive CommandName
  | build
  | check
  | results
  | safelist
  | describe
  deriving DecidableEq, Repr

/-- The option that asks for help. -/
def helpOption : OptionSpec := ⟨"help", some 'h', .help⟩

/-- The option that asks for the version. -/
def versionOption : OptionSpec := ⟨"version", some 'V', .version⟩

/-- The option that makes any command log what it does. -/
def verboseOption : OptionSpec := ⟨"verbose", some 'v', .flag⟩

namespace CommandName

/-- The commands, in order. -/
def all : List CommandName := [build, check, results, safelist, describe]

/-- How a command is written. -/
def word : CommandName → String
  | build => "build"
  | check => "check"
  | results => "results"
  | safelist => "safelist"
  | describe => "describe"

/-- The command that is written so. -/
def ofWord? (word : String) : Option CommandName := all.find? (·.word = word)

/-- Whether a text can be a path. -/
def isPath (text : String) : Bool := text ≠ ""

/-- Whether a text names a safelist format. -/
def isFormat (text : String) : Bool := SafelistFormat.all.any (·.name = text)

/-- The arguments that a command takes. -/
def signature : CommandName → Signature
  | build =>
    ⟨[⟨"out-dir", some 'o', .value isPath⟩, verboseOption, helpOption], .many, isPath⟩
  | check =>
    ⟨[⟨"strict", none, .flag⟩, ⟨"json", none, .flag⟩, verboseOption, helpOption], .many, isPath⟩
  | results => ⟨[⟨"json", none, .flag⟩, verboseOption, helpOption], .one, isPath⟩
  | safelist =>
    ⟨[⟨"format", none, .value isFormat⟩, verboseOption, helpOption], .none, fun _ => false⟩
  | describe => ⟨[verboseOption, helpOption], .one, fun _ => true⟩

/-- The format that is asked for. -/
def format (given : Given) : SafelistFormat :=
  match given.value? "format" with
  | some name => (SafelistFormat.all.find? (·.name = name)).getD .standard
  | none => .standard

/-- The command that arguments ask for. -/
def command (name : CommandName) (given : Given) : Except Rejection Command :=
  match name, given.positionals with
  | build, [] | check, [] | results, [] | describe, [] => .error .missingArgument
  | build, files => .ok (.build (files.map Path.mk) ((given.value? "out-dir").map Path.mk))
  | check, files => .ok (.check (files.map Path.mk) (given.has "strict") (given.has "json"))
  | results, file :: _ => .ok (.results ⟨file⟩ (given.has "json"))
  | safelist, _ => .ok (.safelist (format given))
  | describe, text :: _ => .ok (.describe text)

end CommandName

/-! ### Reading a whole command line -/

/-- A command, and whether it logs what it does. -/
structure Invocation where
  verbose : Bool
  command : Command
  deriving DecidableEq, Repr

namespace Invocation

/-- The word that asks for help, with the names of commands behind it. -/
def helpWord : String := "help"

/-- Whether a word may stand where a command's name is expected. -/
def isCommandWord (word : String) : Bool :=
  (CommandName.ofWord? word).isSome || word = helpWord

/-- What comes of the word that asks for help. At most one command may be named behind it. -/
def helpOn : List String → Rejection
  | [] => .help
  | [word] => if isCommandWord word then .help else .unknownCommand word
  | word :: next :: _ => if isCommandWord word then .unknownCommand next else .unknownCommand word

/-- The arguments in front of a command's name. -/
def signature : Signature := ⟨[verboseOption, helpOption, versionOption], .none, fun _ => false⟩

/-- The command whose name and arguments these are. -/
def readCommand (verbose : Bool) (name : CommandName) (arguments : List String) :
    Except Rejection Invocation := do
  let given ← Reading.start.readAll name.signature arguments
  return ⟨verbose || given.has verboseOption.long, ← name.command given⟩

/-- What comes of arguments that end before a command's name. -/
def withoutCommand (reading : Reading) : Rejection :=
  if reading.given.flags.isEmpty then .nothingGiven else .noCommand

/-- What comes of arguments behind the mark that makes all of them words, where no command's name
can stand. -/
def behindEscape (reading : Reading) : List String → Rejection
  | [] => withoutCommand reading
  | word :: _ => if isCommandWord word then .unknownArgument word else .unknownCommand word

/-- The command that arguments ask for, where those before are read. -/
def readFrom (reading : Reading) : List String → Except Rejection Invocation
  | [] => .error (withoutCommand reading)
  | argument :: rest =>
    match CommandName.ofWord? argument with
    | some name => readCommand (reading.given.has verboseOption.long) name rest
    | none =>
      if argument = helpWord then .error (helpOn rest)
      else
        match Argument.shape argument with
        | .escape => .error (behindEscape reading rest)
        | .long name value => do readFrom (← reading.readLong signature name value) rest
        | .short letters => do readFrom (← reading.readLetters signature letters) rest
        | .word => .error (.unknownCommand argument)

/-- The command that arguments ask for. -/
def read (arguments : List String) : Except Rejection Invocation := readFrom .start arguments

end Invocation

end LayoutMarkup

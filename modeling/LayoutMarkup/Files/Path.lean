/-!
# File paths

A path is a text in which slashes separate parts. Two texts are the same path if they have the same
parts: repeated slashes, a slash at the end and a part `.` in the middle do not count, but `..` does,
since where it leads depends on the files.

## Main definitions

* `Path`, `Path.parts`, `Path.same` — paths and when two are the same
* `Path.fileName?`, `Path.directory` — the file that a path names, and the directory it is in
* `Path.join` — a path below a directory
* `Path.target` — where the compiled form of an input goes
-/

namespace LayoutMarkup

/-- A path, as it is written. -/
structure Path where
  text : String
  deriving DecidableEq, Repr

namespace Path

/-- A part of a path: the root, the working directory, the directory above, or a name. -/
inductive Part
  | root
  | here
  | up
  | name (given : String)
  deriving DecidableEq, Repr

/-- Whether a path starts from the root. -/
def isAbsolute (path : Path) : Bool := path.text.toList.head? = some '/'

/-- The texts between the slashes of a path. -/
def pieces (path : Path) : List String := (path.text.toList.splitOn '/').map String.ofList

/-- The part that a piece behind the first stands for. -/
def laterPart? (piece : String) : Option Part :=
  if piece = "" || piece = "." then none
  else if piece = ".." then some .up
  else some (.name piece)

/-- The parts of a path. The working directory is a part only at the front. -/
def parts (path : Path) : List Part :=
  match path.pieces with
  | [] => []
  | first :: rest =>
    (if path.isAbsolute then [.root] else if first = "." then [.here] else (laterPart? first).toList)
      ++ rest.filterMap laterPart?

/-- Whether two paths have the same parts. -/
def same (p q : Path) : Bool := p.parts = q.parts

/-- The name of the file that a path names, if its last part is a name. -/
def fileName? (path : Path) : Option String :=
  match path.parts.getLast? with
  | some (.name name) => some name
  | _ => none

/-- The path `below` seen from a directory. An absolute path stays as it is. -/
def join (directory below : Path) : Path :=
  if below.isAbsolute then below
  else if directory.text = "" || directory.text.toList.getLast? = some '/' then
    ⟨directory.text ++ below.text⟩
  else ⟨directory.text ++ "/" ++ below.text⟩

/-- Where the compiled form of an input goes in a directory: the file of the same name, or the whole
input below the directory if it names no file. -/
def target (directory input : Path) : Path :=
  match input.fileName? with
  | some name => directory.join ⟨name⟩
  | none => directory.join input

/-- Whether a piece behind the first stands for no part. -/
def isBare (piece : String) : Bool := (laterPart? piece).isNone

/-- The path of the directory that a path is in, as far as the path spells it: all up to the last
part, without the slashes and the parts `.` before that. -/
def directory (path : Path) : Path :=
  match path.pieces with
  | [] => ⟨""⟩
  | first :: rest =>
    -- With nothing behind the first piece the last part is the first, and nothing is above it.
    if rest.all isBare then ⟨""⟩
    else
      let above := (((rest.reverse.dropWhile isBare).drop 1).dropWhile isBare).reverse
      if above = [] && path.isAbsolute then ⟨"/"⟩ else ⟨"/".intercalate (first :: above)⟩

end Path

end LayoutMarkup

import LayoutMarkup.Files.Path

/-!
# File trees

A file tree is a store of files and directories by location, with a working directory. It has what
compiling needs: reading a file as text, and writing one with the directories it is in. There are no
links, so the directory above a location is its location without the last name. A path that is too
long, or that has a character no path can have, is refused before anything is looked for; a name that
is too long is refused when the way along the path comes to it.

A single directory or file is made or not. Where several are to be made and one of them cannot be,
those made before it stay.

## Main definitions

* `FileError` — why a file cannot be read or written
* `FileTree`, `FileTree.node?`, `FileTree.put` — files and directories by location
* `Path.fault?` — why no files are looked for at a path
* `FileTree.locate` — the location that a path leads to
* `FileTree.Unfinished`, `FileTree.outcome` — a change that failed, and what came of a change
* `FileTree.readText`, `FileTree.writeText` — reading and writing files
* `FileTree.changedFiles` — the files that differ between two trees

## Main results

* `FileTree.node?_put` — putting a node changes what is at its location and nothing else
-/

namespace LayoutMarkup

/-- Why a file cannot be read or written. -/
inductive FileError
  | notFound
  | alreadyExists
  | notDirectory
  | isDirectory
  | nameTooLong
  /-- A path has a character that ends the text of a path for the system. -/
  | nulInName
  | notText
  /-- Any other reason that a system gives. -/
  | other (reason : String)
  deriving DecidableEq, Repr

/-- What is told of a file error. -/
def FileError.message : FileError → String
  | notFound => "No such file or directory (os error 2)"
  | alreadyExists => "File exists (os error 17)"
  | notDirectory => "Not a directory (os error 20)"
  | isDirectory => "Is a directory (os error 21)"
  | nameTooLong => "File name too long (os error 36)"
  | nulInName => "file name contained an unexpected NUL byte"
  | notText => "stream did not contain valid UTF-8"
  | other reason => reason

/-- The most bytes that the text of a path may have. -/
def Path.maxBytes : Nat := 4095

/-- The most bytes that a name in a path may have. -/
def Path.maxNameBytes : Nat := 255

/-- What is wrong with the text of a path, so that it leads nowhere in any tree. -/
def Path.fault? (path : Path) : Option FileError :=
  if path.text.toList.contains '\x00' then some .nulInName
  else if Path.maxBytes < path.text.utf8ByteSize then some .nameTooLong
  else none

/-- What a file holds: text, or bytes that are not UTF-8. -/
inductive Contents
  | text (value : String)
  | binary (bytes : List UInt8)
  deriving DecidableEq, Repr

/-- The contents that bytes are. -/
def Contents.ofBytes (bytes : ByteArray) : Contents :=
  match String.fromUTF8? bytes with
  | some value => text value
  | none => binary bytes.toList

/-- A file or a directory. -/
inductive Node
  | file (contents : Contents)
  | directory
  deriving DecidableEq, Repr

/-- A place in a file tree: the names on the way to it from the root. -/
abbrev Location := List String

/-- Files and directories by location. -/
structure FileTree where
  /-- What is at each location but the root, the latest first. -/
  nodes : List (Location × Node)
  /-- The working directory. -/
  here : Location
  deriving Repr

namespace FileTree

/-- A tree with nothing in it but a working directory. -/
def atDirectory (here : Location) : FileTree :=
  ⟨((List.range here.length).map fun n => (here.take (n + 1), .directory)), here⟩

/-- What is at a location. The root is a directory. -/
def node? (tree : FileTree) (location : Location) : Option Node :=
  if location = [] then some .directory
  else (tree.nodes.find? (·.1 = location)).map Prod.snd

/-- The tree with a node at a location. -/
def put (tree : FileTree) (location : Location) (node : Node) : FileTree :=
  { tree with nodes := (location, node) :: tree.nodes.filter (·.1 ≠ location) }

/-- A node that is put at a location is there, and all other locations are as before. -/
theorem node?_put (tree : FileTree) {location : Location} (node : Node) (other : Location)
    (h : location ≠ []) :
    (tree.put location node).node? other =
      if other = location then some node else tree.node? other := by
  have hfilter (hne : other ≠ location) :
      (tree.nodes.filter (·.1 ≠ location)).find? (·.1 = other) =
        tree.nodes.find? (·.1 = other) := by
    rw [List.find?_filter]
    congr 1
    funext entry
    by_cases he : entry.1 = other
    · simp [he, hne]
    · simp [he]
  by_cases ho : other = location
  · subst ho
    simp [node?, put, h]
  · have ho' : location ≠ other := fun heq => ho heq.symm
    by_cases hr : other = []
    · simp [node?, hr, h.symm]
    · simp only [node?, put, hr, ↓reduceIte, List.find?_cons, ho', decide_false, ho]
      rw [hfilter ho]

/-! ### Following paths -/

/-- One step on the way along a path. -/
inductive Step
  | stay
  | up
  | into (name : String)
  deriving DecidableEq, Repr

/-- Where a step leads from a directory. No file has a name that is too long. -/
def Step.apply : Step → Location → Except FileError Location
  | stay, location => .ok location
  | up, location => .ok location.dropLast
  | into name, location =>
    if Path.maxNameBytes < name.utf8ByteSize then .error .nameTooLong
    else .ok (location ++ [name])

/-- The step that a piece of a path stands for. -/
def Step.ofPiece (piece : String) : Step :=
  if piece = "" || piece = "." then stay else if piece = ".." then up else into piece

/-- The step that a part of a path stands for. -/
def Step.ofPart : Path.Part → Step
  | .root | .here => stay
  | .up => up
  | .name name => into name

/-- Where steps lead from a location. Each step is taken from a directory; what the last one leads
to need not exist. -/
def walk (tree : FileTree) : Location → List Step → Except FileError Location
  | location, [] => .ok location
  | location, step :: rest =>
    match tree.node? location with
    | none => .error .notFound
    | some (.file _) => .error .notDirectory
    | some .directory =>
      match step.apply location with
      | .error error => .error error
      | .ok next => tree.walk next rest

/-- The location that a path leads to. A slash at its end asks for a directory. -/
def locate (tree : FileTree) (path : Path) : Except FileError Location :=
  match path.fault? with
  | some error => .error error
  | none => tree.walk (if path.isAbsolute then [] else tree.here) (path.pieces.map Step.ofPiece)

/-- The location that the parts of a path lead to. -/
def locateParts (tree : FileTree) (parts : List Path.Part) : Except FileError Location :=
  tree.walk (if parts.head? = some .root then [] else tree.here) (parts.map Step.ofPart)

/-! ### Reading and writing -/

/-- The text of the file that a path leads to. -/
def readText (tree : FileTree) (path : Path) : Except FileError String :=
  match tree.locate path with
  | .error error => .error error
  | .ok location =>
    match tree.node? location with
    | none => .error .notFound
    | some .directory => .error .isDirectory
    | some (.file (.binary _)) => .error .notText
    | some (.file (.text value)) => .ok value

/-- Whether the parts of a path lead to a directory. -/
def hasDirectory (tree : FileTree) (parts : List Path.Part) : Bool :=
  match tree.locateParts parts with
  | .ok location => tree.node? location = some .directory
  | .error _ => false

/-- The tree with a new directory where the parts of a path lead. -/
def makeDirectory (tree : FileTree) (parts : List Path.Part) : Except FileError FileTree :=
  match tree.locateParts parts with
  | .error error => .error error
  | .ok location =>
    match tree.node? location with
    | some _ => .error .alreadyExists
    | none => .ok (tree.put location .directory)

/-- The tree with a directory where the parts of a path lead, new or not. -/
def ensureDirectory (tree : FileTree) (parts : List Path.Part) : Except FileError FileTree :=
  match tree.makeDirectory parts with
  | .ok tree => .ok tree
  | .error error => if tree.hasDirectory parts then .ok tree else .error error

/-- A change of a tree that failed: why, and the tree as it was left. -/
structure Unfinished where
  error : FileError
  tree : FileTree
  deriving Repr

/-- What came of a change: why it failed, if it did, and the tree as it is then. -/
def outcome : Except Unfinished FileTree → Except FileError Unit × FileTree
  | .ok next => (.ok (), next)
  | .error unfinished => (.error unfinished.error, unfinished.tree)

/-- A change that leaves the tree as it is if it fails. -/
def orStay (tree : FileTree) (change : Except FileError FileTree) : Except Unfinished FileTree :=
  change.mapError (⟨·, tree⟩)

/-- The tree with a directory where the parts of a path, last part first, lead, and with all
directories on the way that are missing. -/
def ensureDirectories (tree : FileTree) : List Path.Part → Except Unfinished FileTree
  | [] => .ok tree
  | last :: above =>
    match tree.ensureDirectory (last :: above).reverse with
    | .ok next => .ok next
    -- The directory above is missing as well.
    | .error .notFound =>
      match tree.ensureDirectories above with
      | .ok next => next.orStay (next.ensureDirectory (last :: above).reverse)
      | .error unfinished => .error unfinished
    | .error error => .error ⟨error, tree⟩

/-- The tree with a directory where a path leads, new or not, and with those that it is in. -/
def addDirectory (tree : FileTree) (path : Path) : Except Unfinished FileTree :=
  -- The paths of the directories above are shorter, so this is the only one to look at.
  match path.fault? with
  | some error => .error ⟨error, tree⟩
  | none => tree.ensureDirectories path.parts.reverse

/-- The tree with a file where a path leads. The directory that it is in has to exist. -/
def putFile (tree : FileTree) (path : Path) (contents : Contents) : Except FileError FileTree :=
  match tree.locate path with
  | .error error => .error error
  | .ok location =>
    match tree.node? location with
    | some .directory => .error .isDirectory
    | _ => .ok (tree.put location (.file contents))

/-- The tree with a file where a path leads, and with the directories that it is in. -/
def addFile (tree : FileTree) (path : Path) (contents : Contents) : Except Unfinished FileTree :=
  match tree.addDirectory path.directory with
  | .error unfinished => .error unfinished
  | .ok next => next.orStay (next.putFile path contents)

/-- The tree with a text file where a path leads. -/
def writeText (tree : FileTree) (path : Path) (value : String) : Except Unfinished FileTree :=
  tree.addFile path (.text value)

/-! ### Comparing trees -/

/-- The text files below the working directory that are new or changed in `later`, by their paths
from there, directory by directory and by name. -/
def changedFiles (earlier later : FileTree) : List (Path × String) :=
  let changed := later.nodes.filterMap fun (location, node) =>
    match node with
    | .file (.text value) =>
      if later.here.isPrefixOf location && earlier.node? location ≠ some node then
        some (location.drop later.here.length, value)
      else none
    | _ => none
  (changed.mergeSort fun a b => (compare a.1 b.1).isLE).map fun (location, value) =>
    (⟨"/".intercalate location⟩, value)

end FileTree

end LayoutMarkup

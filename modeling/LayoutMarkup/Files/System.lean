import LayoutMarkup.Files.Tree

/-!
# File systems

A file system is given by what a path reads as in each of its states, and by what writing to a path
makes of the state. Nothing is assumed of either: a path may lead over links, two paths may lead to
one file, a file may be closed to its reader, and a write that fails may leave something behind.

## Main definitions

* `FileAccess` — reading and writing files as text
* `FileSystem` — the states of files, by reading and writing
-/

namespace LayoutMarkup

/-- Reading and writing files as text. -/
class FileAccess (m : Type → Type) where
  readText : Path → m (Except FileError String)
  writeText : Path → String → m (Except FileError Unit)

/-- The states of a file system: what a path reads as in a state, and what comes of writing to a
path, with the state after it. -/
class FileSystem (σ : Type) where
  readText : σ → Path → Except FileError String
  writeText : σ → Path → String → Except FileError Unit × σ

/-- The files of a system can be read and written. Reading changes nothing. -/
instance {σ : Type} [FileSystem σ] : FileAccess (StateM σ) where
  readText path := fun state => (FileSystem.readText state path, state)
  writeText path value := fun state => FileSystem.writeText state path value

/-- File trees are the states of a file system. -/
instance : FileSystem FileTree where
  readText := FileTree.readText
  writeText tree path value := FileTree.outcome (tree.writeText path value)

end LayoutMarkup

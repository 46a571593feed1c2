import LayoutMarkup.Files.System
import LayoutMarkup.Proofs.Files.Writing

/-!
# File systems without links

Without links the files and directories of a file system are a tree. The system may keep more than
that in its states: who may read a file, how much room there is, which part of a disk is worn out. So
a read or a write may fail where the tree gives no reason for it, and a write may fail halfway. But
what is read is what the tree holds, and what a write changes are the directories on the way to its
file, and the file.

## Main definitions

* `LinkFree` — a file system whose files and directories are a tree
* `FailsUnopened` — a file system on which no write fails halfway through its text
* `Disk` — a tree on a disk that has little room for each file

## Main results

* `failsUnopened_fileTree` — on a tree that is not on a disk no write fails halfway
-/

namespace LayoutMarkup

/-- A file system without links: its files and directories are a tree in each of its states. -/
class LinkFree (σ : Type) [FileSystem σ] where
  /-- The files and directories in a state. -/
  tree : σ → FileTree
  /-- What is read is the text of the file that the path leads to. -/
  readText_tree {state : σ} {path : Path} {value : String} :
    FileSystem.readText state path = .ok value → (tree state).readText path = .ok value
  /-- Writing goes along the path, and changes what is there. -/
  writesText (state : σ) (path : Path) (value : String) :
    (tree state).WritesText path value (FileSystem.writeText state path value).1
      (tree (FileSystem.writeText state path value).2)

open LinkFree (tree)

/-- On such a file system a write that fails has not opened its file, so that nothing but new
directories can come of it. -/
def FailsUnopened (σ : Type) [FileSystem σ] [LinkFree σ] : Prop :=
  ∀ (state : σ) (path : Path) (value : String) (error : FileError),
    (FileSystem.writeText state path value).1 = .error error →
      (tree state).AddsDirectories (tree (FileSystem.writeText state path value).2)

/-! ### Trees -/

/-- A tree is nothing but its files and directories. -/
instance : LinkFree FileTree where
  tree := id
  readText_tree := id
  writesText := FileTree.writesText_outcome

@[simp] theorem tree_fileTree (state : FileTree) : tree state = state := rfl

/-- A write to a tree fails before its file is opened. -/
theorem failsUnopened_fileTree : FailsUnopened FileTree := by
  intro state path value error herror
  simp only [FileSystem.writeText, tree_fileTree] at herror ⊢
  cases hwrite : state.writeText path value with
  | ok next =>
    rw [hwrite] at herror
    cases herror
  | error unfinished => exact FileTree.addsDirectories_of_addFile_eq_error hwrite

/-! ### Disks -/

/-- A tree on a disk where no file may have more than so many bytes. -/
structure Disk where
  tree : FileTree
  room : Nat
  deriving Repr

/-- A disk takes the bytes of a text that a file may have. -/
instance : FileSystem Disk where
  readText disk := disk.tree.readText
  writeText disk path value :=
    if value.utf8ByteSize ≤ disk.room then
      (FileTree.outcome (disk.tree.writeText path value)).map id (⟨·, disk.room⟩)
    else
      match disk.tree.addFile path (.ofBytes (value.toUTF8.extract 0 disk.room)) with
      | .ok next => (.error (.other "File too large (os error 27)"), ⟨next, disk.room⟩)
      | .error unfinished => (.error unfinished.error, ⟨unfinished.tree, disk.room⟩)

/-- On a disk a write fails halfway if its text is too long for a file. -/
instance : LinkFree Disk where
  tree := Disk.tree
  readText_tree := id
  writesText disk path value := by
    simp only [FileSystem.writeText]
    split
    · exact disk.tree.writesText_outcome path value
    · cases hadd : disk.tree.addFile path (.ofBytes (value.toUTF8.extract 0 disk.room)) with
      | ok next =>
        obtain ⟨location, hadds⟩ := FileTree.exists_addsFile_of_addFile hadd
        exact .unfinished _ disk.room hadds
      | error unfinished =>
        exact .unopened _ (FileTree.addsDirectories_of_addFile_eq_error hadd)

end LayoutMarkup

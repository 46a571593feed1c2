import LayoutMarkup.Proofs.Files.Walk
import Mathlib.Logic.Relation

/-!
# What writing a file changes

Writing a file makes the directories that it is in, where they are missing, and changes what is at
the location of the file. So a path that led somewhere before leads there after, and what all other
files hold is as it was. The same goes for a write that fails: if it fails before the file is opened,
there may be new directories, but all files are as they were; if it fails after that, the file itself
may hold anything from nothing to all of the text, and all others are as they were.

## Main definitions

* `FileTree.Puts` — a tree that came out of another by a node at a location
* `FileTree.Grows` — a later form of a tree, with at least its files and directories
* `FileTree.AddsDirectories` — a later form of a tree that differs in new directories only
* `FileTree.AddsFile` — a later form of a tree with a file where a path leads
* `FileTree.WritesText` — how writing a text to a path may go

## Main results

* `FileTree.Grows.locate` — where a path leads stays so
* `FileTree.addsDirectories_of_addFile_eq_error` — a file that cannot be added changes no other file
* `FileTree.AddsFile.contents?` — adding a file changes no other file
-/

namespace LayoutMarkup.FileTree

variable {tree before middle after next : FileTree} {location target : Location} {path : Path}
  {value : String} {contents : Contents} {node : Node} {steps : List Step} {parts : List Path.Part}
  {unfinished : Unfinished}

/-- The root is a directory, so a node that is no directory is below it. -/
theorem ne_nil_of_node?_ne (h : tree.node? location ≠ some .directory) : location ≠ [] := by
  rintro rfl
  exact h tree.node?_nil

/-! ### Putting nodes -/

/-- A tree that came out of another by a node at a location: nothing else has changed. -/
structure Puts (before : FileTree) (location : Location) (node : Node) (after : FileTree) :
    Prop where
  here : after.here = before.here
  node? (other : Location) :
    after.node? other = if other = location then some node else before.node? other

theorem puts_put (h : location ≠ []) (node : Node) :
    tree.Puts location node (tree.put location node) :=
  ⟨rfl, fun other => tree.node?_put node other h⟩

theorem Puts.contents? (h : before.Puts location node after) (other : Location) :
    after.contents? other =
      if other = location then node.contents? else before.contents? other := by
  unfold FileTree.contents?
  rw [h.node?]
  split
  · rw [Option.bind_some]
  · rfl

/-- A node that is put where no directory is leaves all directories. -/
theorem Puts.directory (h : before.Puts location node after)
    (hnode : before.node? location ≠ some .directory)
    (hother : before.node? target = some .directory) : after.node? target = some .directory := by
  have hne : target ≠ location := by
    rintro rfl
    exact hnode hother
  rw [h.node?, if_neg hne, hother]

/-! ### Growing -/

/-- A tree that came out of another: directories are still directories and files are still files, and
the working directory is the same. -/
structure Grows (before after : FileTree) : Prop where
  here : after.here = before.here
  directory {location : Location} :
    before.node? location = some .directory → after.node? location = some .directory
  file {location : Location} : before.contents? location ≠ none → after.contents? location ≠ none

theorem Grows.refl (tree : FileTree) : tree.Grows tree := ⟨rfl, id, id⟩

theorem Grows.trans (h : before.Grows middle) (h' : middle.Grows after) : before.Grows after :=
  ⟨h'.here.trans h.here, fun hlocation => h'.directory (h.directory hlocation),
    fun hlocation => h'.file (h.file hlocation)⟩

/-- A tree grows by a file where no directory is. -/
theorem Puts.grows (h : before.Puts location (.file contents) after)
    (hnode : before.node? location ≠ some .directory) : before.Grows after where
  here := h.here
  directory := h.directory hnode
  file := by
    intro other hother
    rw [h.contents?]
    split
    · exact Option.some_ne_none contents
    · exact hother

theorem Grows.walk (h : before.Grows after) (hwalk : before.walk location steps = .ok target) :
    after.walk location steps = .ok target := by
  induction steps generalizing location with
  | nil => exact hwalk
  | cons step steps ih =>
    -- The directory that the step is taken from is still one.
    obtain ⟨hlocation, next, happly, hwalk⟩ := walk_cons_eq_ok_iff.mp hwalk
    exact walk_cons_eq_ok_iff.mpr ⟨h.directory hlocation, next, happly, ih hwalk⟩

/-- A path leads where it led before. -/
theorem Grows.locate (h : before.Grows after) (hlocate : before.locate path = .ok location) :
    after.locate path = .ok location := by
  obtain ⟨hfault, hwalk⟩ := locate_eq_ok_iff.mp hlocate
  exact locate_eq_ok_iff.mpr ⟨hfault, by rw [h.here]; exact h.walk hwalk⟩

theorem Grows.isRooted (h : before.Grows after) (hrooted : before.IsRooted) : after.IsRooted := by
  intro location hlocation
  rw [h.here] at hlocation
  exact h.directory (hrooted location hlocation)

/-! ### Adding directories -/

/-- A tree that came out of another by a new directory, where nothing was before. -/
def AddsDirectory (before after : FileTree) : Prop :=
  ∃ location, before.node? location = none ∧ before.Puts location .directory after

/-- A tree that came out of another by new directories, one after the other. -/
def AddsDirectories : FileTree → FileTree → Prop := Relation.ReflTransGen AddsDirectory

theorem AddsDirectory.contents? (h : before.AddsDirectory after) (other : Location) :
    after.contents? other = before.contents? other := by
  obtain ⟨location, hnode, hputs⟩ := h
  rw [hputs.contents?]
  split
  · rename_i heq
    rw [heq, FileTree.contents?, hnode]
    rfl
  · rfl

theorem AddsDirectory.grows (h : before.AddsDirectory after) : before.Grows after where
  here := by
    obtain ⟨_, _, hputs⟩ := h
    exact hputs.here
  directory := by
    obtain ⟨_, hnode, hputs⟩ := h
    exact hputs.directory (by simp [hnode])
  file := by
    intro other hother
    rwa [h.contents?]

/-- New directories change no file. -/
theorem AddsDirectories.contents? (h : before.AddsDirectories after) (other : Location) :
    after.contents? other = before.contents? other := by
  induction h with
  | refl => rfl
  | tail _ hstep ih => rw [hstep.contents?, ih]

theorem AddsDirectories.grows (h : before.AddsDirectories after) : before.Grows after := by
  induction h with
  | refl => exact .refl before
  | tail _ hstep ih => exact ih.trans hstep.grows

theorem addsDirectory_of_makeDirectory (h : tree.makeDirectory parts = .ok next) :
    tree.AddsDirectory next := by
  unfold makeDirectory at h
  split at h
  · cases h
  · rename_i location _
    split at h
    · cases h
    · rename_i hnode
      cases h
      have hfree : tree.node? location ≠ some .directory := by simp [hnode]
      exact ⟨location, hnode, puts_put (ne_nil_of_node?_ne hfree) .directory⟩

theorem addsDirectories_of_ensureDirectory (h : tree.ensureDirectory parts = .ok next) :
    tree.AddsDirectories next := by
  unfold ensureDirectory at h
  split at h
  · rename_i hmake
    cases h
    exact .single (addsDirectory_of_makeDirectory hmake)
  · split at h
    · cases h
      exact .refl
    · cases h

theorem addsDirectories_orStay {change : Except FileError FileTree}
    (h : ∀ next, change = .ok next → tree.AddsDirectories next) :
    tree.AddsDirectories (outcome (tree.orStay change)).2 := by
  cases change with
  | ok next => exact h next rfl
  | error error => exact .refl

/-- Directories are made one after the other, and those made before a failure stay. -/
theorem addsDirectories_ensureDirectories (tree : FileTree) (parts : List Path.Part) :
    tree.AddsDirectories (outcome (tree.ensureDirectories parts)).2 := by
  induction parts with
  | nil => exact .refl
  | cons last above ih =>
    unfold ensureDirectories
    split
    · rename_i hensure
      exact addsDirectories_of_ensureDirectory hensure
    · -- The directories above come first.
      split
      · rename_i next habove
        rw [habove] at ih
        exact ih.trans (addsDirectories_orStay fun _ => addsDirectories_of_ensureDirectory)
      · rename_i unfinished habove
        rwa [habove] at ih
    · exact .refl

/-- Adding a directory changes no file, also where it fails. -/
theorem addsDirectories_addDirectory (tree : FileTree) (path : Path) :
    tree.AddsDirectories (outcome (tree.addDirectory path)).2 := by
  unfold addDirectory
  split
  · exact .refl
  · exact addsDirectories_ensureDirectories tree _

/-! ### Adding files -/

/-- A tree that came out of another by a file where a path leads, with the directories on the way
made first. -/
inductive AddsFile (before : FileTree) (path : Path) (contents : Contents) (location : Location) :
    FileTree → Prop
  | intro {middle after : FileTree} (hadds : before.AddsDirectories middle)
      (hlocate : middle.locate path = .ok location)
      (hnode : middle.node? location ≠ some .directory)
      (hputs : middle.Puts location (.file contents) after) :
      AddsFile before path contents location after

theorem AddsFile.grows (h : before.AddsFile path contents location after) : before.Grows after := by
  obtain ⟨hadds, -, hnode, hputs⟩ := h
  exact hadds.grows.trans (hputs.grows hnode)

theorem AddsFile.locate (h : before.AddsFile path contents location after) :
    after.locate path = .ok location := by
  obtain ⟨-, hlocate, hnode, hputs⟩ := h
  exact (hputs.grows hnode).locate hlocate

/-- Adding a file changes no other file. -/
theorem AddsFile.contents? (h : before.AddsFile path contents location after) (other : Location) :
    after.contents? other = if other = location then some contents else before.contents? other := by
  obtain ⟨hadds, -, -, hputs⟩ := h
  rw [hputs.contents?, hadds.contents?]
  rfl

theorem exists_addsFile_of_addFile (h : tree.addFile path contents = .ok next) :
    ∃ location, tree.AddsFile path contents location next := by
  have hadds := tree.addsDirectories_addDirectory path.directory
  unfold addFile at h
  split at h
  · cases h
  · rename_i middle hdirectory
    rw [hdirectory] at hadds
    unfold putFile at h
    split at h
    · cases h
    · rename_i location hlocate
      split at h
      · cases h
      · rename_i hnode
        cases h
        exact ⟨location, hadds, hlocate, hnode, puts_put (ne_nil_of_node?_ne hnode) _⟩

/-- Where a file cannot be added, there may be new directories, but no file has changed. -/
theorem addsDirectories_of_addFile_eq_error (h : tree.addFile path contents = .error unfinished) :
    tree.AddsDirectories unfinished.tree := by
  have hadds := tree.addsDirectories_addDirectory path.directory
  unfold addFile at h
  split at h
  · rename_i hdirectory
    rw [hdirectory] at hadds
    cases h
    exact hadds
  · rename_i middle hdirectory
    rw [hdirectory] at hadds
    cases hput : middle.putFile path contents with
    | ok next =>
      rw [hput] at h
      cases h
    | error error =>
      rw [hput] at h
      cases h
      exact hadds

/-! ### Writing -/

/-- How writing a text to a path may go. First the directories that the file is in are made, then the
file is opened, which empties it, and then it takes the text byte by byte. All of this may fail. -/
inductive WritesText (before : FileTree) (path : Path) (value : String) :
    Except FileError Unit → FileTree → Prop
  /-- The file was not opened. -/
  | unopened {after : FileTree} (error : FileError) (hadds : before.AddsDirectories after) :
      WritesText before path value (.error error) after
  /-- The file was opened, and has taken so many bytes of the text. -/
  | unfinished {after : FileTree} {location : Location} (error : FileError) (count : Nat)
      (hadds : before.AddsFile path (.ofBytes (value.toUTF8.extract 0 count)) location after) :
      WritesText before path value (.error error) after
  | finished {after : FileTree} {location : Location}
      (hadds : before.AddsFile path (.text value) location after) :
      WritesText before path value (.ok ()) after

/-- A write to a tree is done, or it fails before the file is opened. -/
theorem writesText_outcome (tree : FileTree) (path : Path) (value : String) :
    tree.WritesText path value (outcome (tree.writeText path value)).1
      (outcome (tree.writeText path value)).2 := by
  cases hwrite : tree.writeText path value with
  | ok next =>
    obtain ⟨location, hadds⟩ := exists_addsFile_of_addFile hwrite
    exact .finished hadds
  | error unfinished => exact .unopened _ (addsDirectories_of_addFile_eq_error hwrite)

end LayoutMarkup.FileTree

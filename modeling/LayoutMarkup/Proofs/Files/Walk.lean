import LayoutMarkup.Proofs.Files.Path
import Mathlib.Data.List.Infix

/-!
# Where paths lead

A way along a path goes from directory to directory, and only what its last step leads to may be
anything else. The directories above a directory that a way comes to are directories as well. So a
path that leads to a file ends in the name of the file, and not in a step up or in a slash.

## Main definitions

* `FileTree.IsRooted` — a tree whose working directory is a directory, as are those above it
* `FileTree.contents?` — what the file at a location holds

## Main results

* `FileTree.walk_concat_eq_ok_iff` — the last step of a way
* `FileTree.getLast?_of_endsIn` — where a path leads that ends in a name
* `FileTree.exists_endsIn_of_locate` — a path that does not lead to a directory ends in a name
* `FileTree.readText_eq_ok_iff` — what is read is the text of the file that a path leads to
-/

namespace LayoutMarkup

/-- What a file holds. -/
def Node.contents? : Node → Option Contents
  | file contents => some contents
  | directory => none

namespace FileTree

variable {tree : FileTree} {location target : Location} {path : Path} {name value : String}
  {steps : List Step} {step : Step}

/-- A tree whose working directory can be reached from the root: it is a directory, and so are all
those above it. -/
def IsRooted (tree : FileTree) : Prop :=
  ∀ location ∈ tree.here.inits, tree.node? location = some .directory

instance (tree : FileTree) : Decidable tree.IsRooted :=
  inferInstanceAs (Decidable (∀ location ∈ tree.here.inits, _))

/-- What the file at a location holds, if there is a file. -/
def contents? (tree : FileTree) (location : Location) : Option Contents :=
  (tree.node? location).bind Node.contents?

theorem contents?_eq_some_iff {contents : Contents} :
    tree.contents? location = some contents ↔ tree.node? location = some (.file contents) := by
  unfold contents?
  rcases tree.node? location with - | - | - <;> simp [Node.contents?]

@[simp] theorem node?_nil (tree : FileTree) : tree.node? [] = some .directory := rfl

/-! ### Steps -/

theorem Step.apply_into_eq_ok_iff : (Step.into name).apply location = .ok target ↔
    name.utf8ByteSize ≤ Path.maxNameBytes ∧ location ++ [name] = target := by
  rw [Step.apply]
  split
  · rename_i hlong
    simp [Nat.not_le_of_lt hlong]
  · rename_i hshort
    simp [Nat.le_of_not_lt hshort]

/-- Each step of a way is taken from a directory. -/
theorem walk_cons_eq_ok_iff : tree.walk location (step :: steps) = .ok target ↔
    tree.node? location = some .directory ∧
      ∃ next, step.apply location = .ok next ∧ tree.walk next steps = .ok target := by
  rw [walk]
  rcases tree.node? location with - | - | -
  · simp
  · simp
  · rcases step.apply location with - | next <;> simp

/-- The last step of a way leads on from where the steps before it lead, which is a directory. -/
theorem walk_concat_eq_ok_iff : tree.walk location (steps ++ [step]) = .ok target ↔
    ∃ next, tree.walk location steps = .ok next ∧ tree.node? next = some .directory ∧
      step.apply next = .ok target := by
  induction steps generalizing location with
  | nil =>
    rw [List.nil_append, walk_cons_eq_ok_iff]
    simp [walk]
  | cons first steps ih =>
    simp only [List.cons_append, walk_cons_eq_ok_iff, ih]
    grind

theorem locate_eq_ok_iff : tree.locate path = .ok location ↔ path.fault? = none ∧
    tree.walk (if path.isAbsolute then [] else tree.here) (path.pieces.map Step.ofPiece) =
      .ok location := by
  rw [locate]
  cases path.fault? <;> simp

/-- A path that ends in a name leads to a location of that name. -/
theorem getLast?_of_endsIn (h : path.EndsIn name) (hlocate : tree.locate path = .ok location) :
    location.getLast? = some name := by
  obtain ⟨hlast, hname⟩ := h
  obtain ⟨front, hpieces⟩ := List.getLast?_eq_some_iff.mp hlast
  have hwalk := (locate_eq_ok_iff.mp hlocate).2
  rw [hpieces, List.map_append, List.map_singleton, hname, walk_concat_eq_ok_iff] at hwalk
  obtain ⟨next, -, -, happly⟩ := hwalk
  rw [← (Step.apply_into_eq_ok_iff.mp happly).2, List.getLast?_concat]

/-! ### Directories on the way -/

/-- The directories above a location, all the way to the root. -/
def IsBelowDirectories (tree : FileTree) (location : Location) : Prop :=
  ∀ above, above <+: location → above ≠ location → tree.node? above = some .directory

theorem IsBelowDirectories.apply (h : tree.IsBelowDirectories location)
    (hlocation : tree.node? location = some .directory) (happly : step.apply location = .ok target) :
    tree.IsBelowDirectories target := by
  have hall (above : Location) (habove : above <+: location) :
      tree.node? above = some .directory := by
    by_cases heq : above = location
    · rw [heq, hlocation]
    · exact h above habove heq
  cases step with
  | stay =>
    cases happly
    exact h
  | up =>
    cases happly
    exact fun above habove _ => hall above (habove.trans (List.dropLast_prefix location))
  | into name =>
    obtain ⟨-, rfl⟩ := Step.apply_into_eq_ok_iff.mp happly
    intro above habove hne
    rcases List.prefix_concat_iff.mp habove with heq | habove
    · exact absurd heq hne
    · exact hall above habove

theorem IsBelowDirectories.walk (h : tree.IsBelowDirectories location)
    (hwalk : tree.walk location steps = .ok target) : tree.IsBelowDirectories target := by
  induction steps generalizing location with
  | nil =>
    cases hwalk
    exact h
  | cons step steps ih =>
    obtain ⟨hlocation, next, happly, hwalk⟩ := walk_cons_eq_ok_iff.mp hwalk
    exact ih (h.apply hlocation happly) hwalk

/-- A way begins at the root or in the working directory. -/
theorem IsRooted.isBelowDirectories (h : tree.IsRooted) (path : Path) :
    tree.IsBelowDirectories (if path.isAbsolute then [] else tree.here) := by
  intro above habove hne
  split at habove
  · rw [List.prefix_nil.mp habove]
    rfl
  · exact h above ((List.mem_inits _ _).mpr habove)

/-- A path that does not lead to a directory ends in a name. -/
theorem exists_endsIn_of_locate (h : tree.IsRooted) (hlocate : tree.locate path = .ok location)
    (hnode : tree.node? location ≠ some .directory) : ∃ name, path.EndsIn name := by
  obtain ⟨front, piece, hpieces⟩ := (List.eq_nil_or_concat path.pieces).resolve_left
    path.pieces_ne_nil
  have hwalk := (locate_eq_ok_iff.mp hlocate).2
  rw [hpieces, List.concat_eq_append, List.map_append, List.map_singleton,
    walk_concat_eq_ok_iff] at hwalk
  obtain ⟨next, hwalk, hnext, happly⟩ := hwalk
  refine ⟨piece, by rw [hpieces, List.concat_eq_append, List.getLast?_concat], ?_⟩
  -- A last step that stays or goes up leads to a directory.
  have hbelow := (h.isBelowDirectories path).walk hwalk
  unfold Step.ofPiece at happly ⊢
  split
  · rename_i hbare
    rw [if_pos hbare] at happly
    cases happly
    exact absurd hnext hnode
  · rename_i hbare
    rw [if_neg hbare] at happly
    split
    · rename_i hup
      rw [if_pos hup] at happly
      cases happly
      by_cases heq : next.dropLast = next
      · rw [heq] at hnode
        exact absurd hnext hnode
      · exact absurd (hbelow _ (List.dropLast_prefix next) heq) hnode
    · rfl

/-! ### Reading -/

/-- What is read is the text of the file that a path leads to. -/
theorem readText_eq_ok_iff : tree.readText path = .ok value ↔
    ∃ location, tree.locate path = .ok location ∧
      tree.contents? location = some (.text value) := by
  simp only [contents?_eq_some_iff]
  rw [readText]
  rcases tree.locate path with - | location
  · simp
  · simp only [Except.ok.injEq, exists_eq_left']
    rcases tree.node? location with - | (- | -) | - <;> simp

end FileTree

end LayoutMarkup

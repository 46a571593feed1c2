import LayoutMarkup.Proofs.Files.Path
import LayoutMarkup.Command.Session

/-!
# The targets of a build

A build into a directory goes on if no two inputs have the same target. Inputs with files of the same
name have the same target, so in such a build the names are all different.

## Main results

* `planTargets_eq_ok_iff` — when a build goes on, and what its targets are
* `fileName?_ne_of_not_same` — inputs with different targets have files of different names
-/

namespace LayoutMarkup

variable {directory : Path} {inputs : List Path} {planned result : List (Path × Path)}

/-- Targets are planned if none is that of an input before. -/
theorem planTargetsFrom_eq_ok_iff : planTargetsFrom directory planned inputs = .ok result ↔
    result = planned ++ inputs.map (fun input => (input, directory.target input)) ∧
      (∀ input ∈ inputs, ∀ earlier ∈ planned, ¬ earlier.2.same (directory.target input)) ∧
      inputs.Pairwise fun first second =>
        ¬ (directory.target first).same (directory.target second) := by
  -- The targets planned so far grow with each input.
  induction inputs generalizing planned with
  | nil =>
    rw [planTargetsFrom, Except.ok.injEq, List.map_nil, List.append_nil, eq_comm]
    simp
  | cons input inputs ih =>
    rw [planTargetsFrom]
    split
    · rename_i earlier hfind
      have hsame := List.find?_some hfind
      have hmem := List.mem_of_find?_eq_some hfind
      constructor
      · intro h
        cases h
      · rintro ⟨-, hdiffer, -⟩
        exact absurd hsame (hdiffer input List.mem_cons_self earlier hmem)
    · rename_i hfind
      rw [List.find?_eq_none] at hfind
      rw [ih, List.pairwise_cons, List.forall_mem_cons, List.map_cons, List.append_assoc,
        List.singleton_append]
      -- The targets before are those planned, and that of this input.
      simp only [List.forall_mem_append, List.forall_mem_singleton, forall_and]
      constructor
      · rintro ⟨hresult, ⟨hplanned, hinput⟩, hinputs⟩
        exact ⟨hresult, ⟨hfind, hplanned⟩, hinput, hinputs⟩
      · rintro ⟨hresult, ⟨-, hplanned⟩, hinput, hinputs⟩
        exact ⟨hresult, ⟨hplanned, hinput⟩, hinputs⟩

/-- A build goes on if no two inputs have the same target. -/
theorem planTargets_eq_ok_iff : planTargets directory inputs = .ok planned ↔
    planned = inputs.map (fun input => (input, directory.target input)) ∧
      inputs.Pairwise fun first second =>
        ¬ (directory.target first).same (directory.target second) := by
  rw [planTargets, planTargetsFrom_eq_ok_iff]
  simp

/-- A build that does not go on fails with a collision. -/
theorem exists_collision_of_planTargetsFrom {failure : Failure}
    (h : planTargetsFrom directory planned inputs = .error failure) :
    ∃ first second target, failure = .collision first second target := by
  induction inputs generalizing planned with
  | nil => cases h
  | cons input inputs ih =>
    rw [planTargetsFrom] at h
    split at h
    · cases h
      exact ⟨_, _, _, rfl⟩
    · exact ih h

/-- Inputs with different targets have files of different names. -/
theorem fileName?_ne_of_not_same {first second : Path} {name : String}
    (h : ¬ (directory.target first).same (directory.target second))
    (hfirst : first.fileName? = some name) : second.fileName? ≠ some name := by
  intro hsecond
  apply h
  rw [Path.target, Path.target, hfirst, hsecond]
  exact decide_eq_true rfl

end LayoutMarkup

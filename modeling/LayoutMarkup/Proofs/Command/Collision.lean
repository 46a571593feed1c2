import LayoutMarkup.Proofs.Command.OnState
import LayoutMarkup.Proofs.Command.Targets

/-!
# Colliding targets

Two inputs of a build may have the same target, as files of one name in different directories do. A
build with such inputs fails before it does anything. No file is read, so it does not matter whether
the inputs exist; none is written, and nothing is printed. The failure names the first input that
has the target of one before it, and that one. There is no other before it with this target, since
the inputs in front of the first repetition have different targets.

## Main definitions

* `Collide` — two inputs have the same target
* `FirstCollision` — the two inputs that a failure names
* `Session.FailsAtOnce` — a session that fails and does nothing else

## Main results

* `not_collide_iff_pairwise` — inputs that do not collide have different targets
* `firstCollision_of_planTargetsFrom` — what a plan fails with
* `build_of_collide` — when targets collide, and what becomes of the build
-/

namespace LayoutMarkup

variable {directory first second : Path} {inputs done : List Path} {failure : Failure}

theorem Path.same_iff {p q : Path} : p.same q = true ↔ p.parts = q.parts := decide_eq_true_iff

/-! ### Inputs with the same target -/

/-- Two of the inputs, at different places in the list, have the same target. -/
def Collide (directory : Path) (inputs : List Path) : Prop :=
  ∃ i j : Fin inputs.length, i < j ∧ (directory.target inputs[i]).same (directory.target inputs[j])

/-- Of the inputs, `second` is the first whose target is that of an input before it, and `first` is
the only one before it that has this target. -/
def FirstCollision (directory : Path) (inputs : List Path) (first second : Path) : Prop :=
  ∃ front middle back, inputs = front ++ first :: middle ++ second :: back ∧
    ¬ Collide directory (front ++ first :: middle) ∧
    (directory.target first).same (directory.target second) ∧
    ∀ other ∈ front ++ middle, ¬ (directory.target other).same (directory.target second)

/-- Inputs that do not collide have different targets. -/
theorem not_collide_iff_pairwise : ¬ Collide directory inputs ↔
    inputs.Pairwise fun first second =>
      ¬ (directory.target first).same (directory.target second) := by
  rw [List.pairwise_iff_getElem]
  constructor
  · intro h i j hi hj hlt hsame
    exact h ⟨⟨i, hi⟩, ⟨j, hj⟩, hlt, hsame⟩
  · rintro h ⟨i, j, hlt, hsame⟩
    exact h i j i.isLt j.isLt hlt hsame

theorem not_collide_nil : ¬ Collide directory [] := not_collide_iff_pairwise.mpr .nil

/-- One more input does not collide with others if it has the target of none of them. -/
theorem not_collide_concat (h : ¬ Collide directory done)
    (hnew : ∀ earlier ∈ done, ¬ (directory.target earlier).same (directory.target second)) :
    ¬ Collide directory (done ++ [second]) := by
  rw [not_collide_iff_pairwise, List.pairwise_append]
  refine ⟨not_collide_iff_pairwise.mp h, List.pairwise_singleton _ _, fun earlier hearlier => ?_⟩
  rw [List.forall_mem_singleton]
  exact hnew earlier hearlier

/-- Of inputs that do not collide only one has a given target. -/
theorem not_same_of_not_collide {front middle : List Path}
    (h : ¬ Collide directory (front ++ first :: middle))
    (hsame : (directory.target first).same (directory.target second)) :
    ∀ other ∈ front ++ middle, ¬ (directory.target other).same (directory.target second) := by
  obtain ⟨-, hmiddle, hfront⟩ := List.pairwise_append.mp (not_collide_iff_pairwise.mp h)
  intro other hother hsecond
  -- Otherwise `other` and `first` have the same target, as both have that of `second`.
  rw [Path.same_iff] at hsame hsecond
  rcases List.mem_append.mp hother with hother | hother
  · exact hfront other hother first List.mem_cons_self
      (Path.same_iff.mpr (hsecond.trans hsame.symm))
  · exact (List.pairwise_cons.mp hmiddle).1 other hother
      (Path.same_iff.mpr (hsame.trans hsecond.symm))

/-- A plan fails at the first input that has the target of one before it. -/
theorem firstCollision_of_planTargetsFrom (hdone : ¬ Collide directory done)
    (h : planTargetsFrom directory (done.map fun input => (input, directory.target input)) inputs =
      .error failure) :
    ∃ first second, failure = .collision first second (directory.target second) ∧
      FirstCollision directory (done ++ inputs) first second := by
  -- The inputs that are planned so far do not collide, so one of them at most has the target of
  -- the next input.
  induction inputs generalizing done with
  | nil => cases h
  | cons input inputs ih =>
    rw [planTargetsFrom, List.find?_map, Function.comp_def] at h
    cases hfind : done.find? fun earlier =>
        (directory.target earlier).same (directory.target input) with
    | some first =>
      obtain ⟨hsame, front, middle, rfl, -⟩ := List.find?_eq_some_iff_append.mp hfind
      rw [hfind] at h
      cases h
      exact ⟨first, input, rfl, front, middle, inputs, rfl, hdone, hsame,
        not_same_of_not_collide hdone hsame⟩
    | none =>
      rw [hfind] at h
      have hnew := not_collide_concat hdone (List.find?_eq_none.mp hfind)
      rw [List.append_cons]
      exact ih hnew (by rwa [List.map_append])

/-! ### The build -/

/-- A session that fails before it does anything else: whatever the files are and whatever can be
done with them, none is read or written, and nothing is printed or logged. -/
def Session.FailsAtOnce
    (session : ∀ (m : Type → Type) [Monad m] [FileAccess m], Session m Unit) (failure : Failure) :
    Prop :=
  ∀ (m : Type → Type) [Monad m] [FileAccess m] (transcript : Transcript),
    (session m).run.run transcript = pure (.error failure, transcript)

theorem failsAtOnce_build (h : planTargets directory inputs = .error failure) :
    Session.FailsAtOnce (fun _ _ _ => build inputs (some directory)) failure := by
  intro m _ _ transcript
  simp only [build, h]
  rfl

/-- What comes of a build that fails at once. -/
theorem runOn_build_of_error {σ : Type} [FileSystem σ]
    (h : planTargets directory inputs = .error failure) (state : σ) :
    (Command.build inputs (some directory)).runOn state = ⟨.empty, state, some failure⟩ := by
  rw [Command.runOn, Command.run, build, h]
  rfl

/-- A build into a directory is stopped by a collision if two of its inputs have the same target. The
failure names the first input whose target is that of an input before it, and the only one before it
with that target, and the build has done nothing, whether or not the inputs exist. Otherwise each
input has a target, in order, and these are different. -/
theorem build_of_collide (directory : Path) (inputs : List Path) :
    ((∃ first second target,
        planTargets directory inputs = .error (.collision first second target)) ↔
      Collide directory inputs) ∧
    (∀ failure, planTargets directory inputs = .error failure →
      (∃ first second, failure = .collision first second (directory.target second) ∧
        FirstCollision directory inputs first second) ∧
      Session.FailsAtOnce (fun _ _ _ => build inputs (some directory)) failure ∧
      ∀ tree, (Command.build inputs (some directory)).runOnTree tree =
        ⟨.empty, tree, some failure⟩) ∧
    (¬ Collide directory inputs →
      planTargets directory inputs =
        .ok (inputs.map fun input => (input, directory.target input)) ∧
      inputs.Pairwise fun first second =>
        ¬ (directory.target first).same (directory.target second)) := by
  have hplanned (h : ¬ Collide directory inputs) : planTargets directory inputs =
      .ok (inputs.map fun input => (input, directory.target input)) :=
    planTargets_eq_ok_iff.mpr ⟨rfl, not_collide_iff_pairwise.mp h⟩
  refine ⟨?_, fun failure hplan => ?_, fun h => ⟨hplanned h, not_collide_iff_pairwise.mp h⟩⟩
  · rcases hplan : planTargets directory inputs with failure | planned
    · obtain ⟨first, second, rfl, -⟩ := firstCollision_of_planTargetsFrom not_collide_nil hplan
      refine iff_of_true ⟨first, second, _, rfl⟩ ?_
      by_cases h : Collide directory inputs
      · exact h
      · rw [hplanned h] at hplan
        cases hplan
    · exact iff_of_false nofun (not_collide_iff_pairwise.mpr (planTargets_eq_ok_iff.mp hplan).2)
  · exact ⟨firstCollision_of_planTargetsFrom not_collide_nil hplan, failsAtOnce_build hplan,
      runOn_build_of_error hplan⟩

/-- The second file of a name stops a build, although an input that names no file comes in between.
Without it the build goes on. -/
theorem build_of_collide_index :
    let directory : Path := ⟨"dist"⟩
    let inputs : List Path := [⟨"a/index.html"⟩, ⟨".."⟩, ⟨"b//index.html/"⟩, ⟨"index.html"⟩]
    Collide directory inputs ∧
      FirstCollision directory inputs ⟨"a/index.html"⟩ ⟨"b//index.html/"⟩ ∧
      Session.FailsAtOnce (fun _ _ _ => build inputs (some directory))
        (.collision ⟨"a/index.html"⟩ ⟨"b//index.html/"⟩ ⟨"dist/index.html"⟩) ∧
      ¬ Collide directory (inputs.take 2) ∧
      planTargets directory (inputs.take 2) =
        .ok [(⟨"a/index.html"⟩, directory.target ⟨"a/index.html"⟩),
          (⟨".."⟩, directory.target ⟨".."⟩)] := by
  intro directory inputs
  have hparent : (directory.target ⟨"a/index.html"⟩).same (directory.target ⟨".."⟩) = false := by
    decide
  have hindex : (directory.target ⟨"a/index.html"⟩).same ⟨"dist/index.html"⟩ = true := by decide
  have htarget : directory.target ⟨"b//index.html/"⟩ = ⟨"dist/index.html"⟩ := by decide
  have hplan : planTargets directory inputs =
      .error (.collision ⟨"a/index.html"⟩ ⟨"b//index.html/"⟩ ⟨"dist/index.html"⟩) := by
    simp [planTargets, planTargetsFrom, inputs, hparent, hindex, htarget]
  have hnone : ¬ Collide directory (inputs.take 2) := by
    rw [not_collide_iff_pairwise]
    decide
  obtain ⟨hcollide, hfailure, -⟩ := build_of_collide directory inputs
  obtain ⟨⟨first, second, heq, hfirst⟩, hfails, -⟩ := hfailure _ hplan
  obtain ⟨rfl, rfl, -⟩ := Failure.collision.inj heq
  obtain ⟨-, -, hplanned⟩ := build_of_collide directory (inputs.take 2)
  exact ⟨hcollide.mp ⟨_, _, _, hplan⟩, hfirst, hfails, hnone, (hplanned hnone).1⟩

end LayoutMarkup

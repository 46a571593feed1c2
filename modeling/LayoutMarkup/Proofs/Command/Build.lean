import LayoutMarkup.Proofs.Command.OnState
import LayoutMarkup.Proofs.Command.Targets
import LayoutMarkup.Proofs.Files.LinkFree

/-!
# Building into a directory

A build reads and writes files in turn, and its directory may have some of its inputs in it. No
output gets in the way of an input or of another output: an input that can be read ends in the name
of its file, its target ends in the same name, and no two inputs of a build have files of one name.
So a target is at the location of no input but its own, and that one has been read when it is
written. This holds on any file system without links, whatever its reads and writes fail for.

If a write fails halfway, its target is torn: it holds a front part of its text. All other files are
then as they are if the build fails before that.

## Main definitions

* `BuildRun` — the steps of a build
* `Held` — what an input held to begin with
* `Built` — what a build of inputs has done to a tree
* `Stopped` — how far a build came, given its failure

## Main results

* `Built.cons` — an input that is compiled before others leaves them as they were
* `build_into_directory` — a build compiles the inputs that it comes to, and changes no other file
-/

namespace LayoutMarkup

open LinkFree (tree)

variable {before after next : FileTree} {directory input : Path} {inputs done : List Path}
  {torn : Option Path} {content : String} {failure : Option Failure} {location : Location}

/-! ### Steps of a build -/

section Steps

variable {σ : Type} [FileSystem σ]

/-- The steps of a build into a directory. Each reads an input and writes its target, and the first
failure ends the build. -/
inductive BuildRun (directory : Path) : σ → List Path → σ → Option Failure → Prop
  | done (state : σ) : BuildRun directory state [] state none
  | unreadable {state : σ} {input : Path} {rest : List Path} {error : FileError}
      (hread : FileSystem.readText state input = .error error) :
      BuildRun directory state (input :: rest) state (some (.unreadable input error))
  | unwritable {state later : σ} {input : Path} {rest : List Path} {content : String}
      {error : FileError} (hread : FileSystem.readText state input = .ok content)
      (hwrite : FileSystem.writeText state (directory.target input)
        (compileFile content input.text) = (.error error, later)) :
      BuildRun directory state (input :: rest) later
        (some (.unwritable (directory.target input) error))
  | built {state later last : σ} {input : Path} {rest : List Path} {content : String}
      {failure : Option Failure} (hread : FileSystem.readText state input = .ok content)
      (hwrite : FileSystem.writeText state (directory.target input)
        (compileFile content input.text) = (.ok (), later))
      (hrest : BuildRun directory later rest last failure) :
      BuildRun directory state (input :: rest) last failure

/-- What is done for one input comes down to a read and a write. -/
theorem onState_buildToFile (input target : Path) (transcript : Transcript) (state : σ) :
    ∃ told, Session.onState (buildToFile input target) transcript state =
      match FileSystem.readText state input with
      | .error error => (.error (.unreadable input error), told, state)
      | .ok content =>
        match FileSystem.writeText state target (compileFile content input.text) with
        | (.error error, later) => (.error (.unwritable target error), told, later)
        | (.ok (), later) => (.ok (), told, later) := by
  simp only [buildToFile, compileInput, Session.onState_bind, Session.onState_read]
  rcases FileSystem.readText state input with error | content
  · exact ⟨_, rfl⟩
  · simp only [Session.onState_log, Session.onState_pure, Session.onState_write]
    rcases FileSystem.writeText state target (compileFile content input.text) with
      ⟨error | _, later⟩
    · exact ⟨_, rfl⟩
    · exact ⟨_, rfl⟩

/-- A build goes through its inputs step by step. -/
theorem exists_buildRun (directory : Path) (inputs : List Path) (transcript : Transcript)
    (state : σ) :
    ∃ result told last,
      Session.onState (buildAllToFiles (inputs.map fun input => (input, directory.target input)))
        transcript state = (result, told, last) ∧
      BuildRun directory state inputs last
        (match result with
          | .ok () => none
          | .error failure => some failure) := by
  -- Each step goes on from the transcript and the state that the last one left.
  induction inputs generalizing transcript state with
  | nil => exact ⟨_, _, _, rfl, .done state⟩
  | cons input inputs ih =>
    obtain ⟨told, hinput⟩ :=
      onState_buildToFile input (directory.target input) transcript state
    rw [List.map_cons, buildAllToFiles, Session.onState_bind, hinput]
    rcases hread : FileSystem.readText state input with error | content
    · exact ⟨_, _, _, rfl, .unreadable hread⟩
    · simp only
      rcases hwrite : FileSystem.writeText state (directory.target input)
        (compileFile content input.text) with ⟨error | _, later⟩
      · exact ⟨_, _, _, rfl, .unwritable hread hwrite⟩
      · obtain ⟨result, others, last, hrest, hrun⟩ := ih told later
        exact ⟨result, others, last, hrest, .built hread hwrite hrun⟩

end Steps

/-! ### What a build does -/

/-- What was at the location of an input to begin with. The path of the input may lead through a
directory that the build makes. -/
def Held (before after : FileTree) (input : Path) (content : String) : Prop :=
  ∃ location, after.locate input = .ok location ∧
    before.contents? location = some (.text content)

/-- What a build of inputs into a directory has done to a tree, if it tore a target when it was done
with them. -/
structure Built (before after : FileTree) (directory : Path) (done : List Path)
    (torn : Option Path) : Prop where
  grows : before.Grows after
  /-- The target of an input holds the compiled form of what the input held to begin with. -/
  compiled : ∀ input ∈ done, ∃ content, Held before after input content ∧
    after.readText (directory.target input) = .ok (compileFile content input.text)
  /-- What could be read at an input to begin with is what its target is compiled from. -/
  readable : ∀ input ∈ done, ∀ content, before.readText input = .ok content →
    after.readText (directory.target input) = .ok (compileFile content input.text)
  /-- A torn target holds the first bytes of the compiled form. -/
  front : ∀ input ∈ torn, ∃ content location count, Held before after input content ∧
    after.locate (directory.target input) = .ok location ∧
      after.contents? location =
        some (.ofBytes ((compileFile content input.text).toUTF8.extract 0 count))
  /-- Where no target leads, files hold what they held, and there are no new ones. -/
  unchanged : ∀ location,
    (∀ input ∈ done ++ torn.toList, after.locate (directory.target input) ≠ .ok location) →
      after.contents? location = before.contents? location

theorem Held.eq_of_readText (h : Held before after input content) (hgrows : before.Grows after)
    {held : String} (hread : before.readText input = .ok held) : content = held := by
  obtain ⟨location, hlocate, hcontents⟩ := h
  obtain ⟨source, hsource, hheld⟩ := FileTree.readText_eq_ok_iff.mp hread
  obtain rfl : location = source := by
    have hlocations := hlocate.symm.trans (hgrows.locate hsource)
    rwa [Except.ok.injEq] at hlocations
  rwa [hcontents, Option.some.injEq, Contents.text.injEq] at hheld

/-- An input that held something ends in the name of its file. -/
theorem Held.exists_endsIn (h : Held before after input content) (hgrows : before.Grows after)
    (hrooted : before.IsRooted) : ∃ name, input.EndsIn name := by
  obtain ⟨location, hlocate, hcontents⟩ := h
  apply FileTree.exists_endsIn_of_locate (hgrows.isRooted hrooted) hlocate
  -- A file was there to begin with, and files do not become directories.
  intro hdirectory
  have hfile : after.contents? location ≠ none := by
    apply hgrows.file
    rw [hcontents]
    exact Option.some_ne_none _
  rw [FileTree.contents?, hdirectory] at hfile
  exact hfile rfl

/-- What an input held is what it held before a file was added elsewhere. -/
theorem Held.of_addsFile {path : Path} {contents : Contents} (h : Held next after input content)
    (hadds : before.AddsFile path contents location next)
    (hapart : after.locate input ≠ .ok location) : Held before after input content := by
  obtain ⟨source, hlocate, hcontents⟩ := h
  have hne : source ≠ location := by
    rintro rfl
    exact hapart hlocate
  rw [hadds.contents?, if_neg hne] at hcontents
  exact ⟨source, hlocate, hcontents⟩

theorem held_of_readText (hread : before.readText input = .ok content)
    (hgrows : before.Grows after) : Held before after input content := by
  obtain ⟨source, hsource, hcontents⟩ := FileTree.readText_eq_ok_iff.mp hread
  exact ⟨source, hgrows.locate hsource, hcontents⟩

/-- A build that is done with no input and has torn no target may have made directories. -/
theorem Built.of_addsDirectories (h : before.AddsDirectories after) (directory : Path) :
    Built before after directory [] none where
  grows := h.grows
  compiled := by simp
  readable := by simp
  front := by simp
  unchanged := fun location _ => h.contents? location

/-- A build may tear its first target. -/
theorem Built.of_torn {count : Nat} (hread : before.readText input = .ok content)
    (hadds : before.AddsFile (directory.target input)
      (.ofBytes ((compileFile content input.text).toUTF8.extract 0 count)) location after) :
    Built before after directory [] (some input) where
  grows := hadds.grows
  compiled := by simp
  readable := by simp
  front := by
    rintro _ ⟨⟩
    refine ⟨content, location, count, held_of_readText hread hadds.grows, hadds.locate, ?_⟩
    rw [hadds.contents?, if_pos rfl]
  unchanged := by
    intro other hother
    have hne : other ≠ location := by
      rintro rfl
      exact hother input List.mem_cons_self hadds.locate
    rw [hadds.contents?, if_neg hne]

/-- All inputs that a build came to held something. -/
theorem Built.exists_held (h : Built before after directory done torn)
    (hmem : input ∈ done ++ torn.toList) : ∃ content, Held before after input content := by
  rcases List.mem_append.mp hmem with hdone | htorn
  · obtain ⟨content, hheld, -⟩ := h.compiled input hdone
    exact ⟨content, hheld⟩
  · obtain ⟨content, -, -, hheld, -⟩ := h.front input (Option.mem_toList.mp htorn)
    exact ⟨content, hheld⟩

/-- The target of an input is at the location neither of an input with another target nor of that
target, since it ends in another name than they do. -/
theorem locate_ne_of_not_same {other : Path} {name otherName : String}
    (hname : input.EndsIn name) (hother : other.EndsIn otherName)
    (hdiffer : ¬ (directory.target input).same (directory.target other))
    (hlocate : after.locate (directory.target input) = .ok location) :
    after.locate other ≠ .ok location ∧ after.locate (directory.target other) ≠ .ok location := by
  have hlast : location.getLast? = some name :=
    FileTree.getLast?_of_endsIn (Path.endsIn_target directory hname.fileName?_eq) hlocate
  have hne : location.getLast? ≠ some otherName := by
    rw [hlast, ne_eq, Option.some.injEq]
    rintro rfl
    exact fileName?_ne_of_not_same hdiffer hname.fileName?_eq hother.fileName?_eq
  exact ⟨fun h => hne (FileTree.getLast?_of_endsIn hother h),
    fun h => hne (FileTree.getLast?_of_endsIn (Path.endsIn_target directory hother.fileName?_eq) h)⟩

/-- A target is where none of the inputs is that a build came to, and where none of their targets
is. -/
theorem Built.locate_ne {name : String} (h : Built before after directory done torn)
    (hrooted : before.IsRooted) (hname : input.EndsIn name)
    (hdiffer : ∀ other ∈ done ++ torn.toList,
      ¬ (directory.target input).same (directory.target other))
    (hlocate : after.locate (directory.target input) = .ok location) :
    ∀ other ∈ done ++ torn.toList, after.locate other ≠ .ok location ∧
      after.locate (directory.target other) ≠ .ok location := by
  intro other hmem
  obtain ⟨content, hheld⟩ := h.exists_held hmem
  obtain ⟨otherName, hother⟩ := hheld.exists_endsIn h.grows hrooted
  exact locate_ne_of_not_same hname hother (hdiffer other hmem) hlocate

/-- An input that is compiled before others leaves them and their targets as they were. -/
theorem Built.cons (hrooted : before.IsRooted) (hread : before.readText input = .ok content)
    (hadds : before.AddsFile (directory.target input) (.text (compileFile content input.text))
      location next)
    (hdiffer : ∀ other ∈ done ++ torn.toList,
      ¬ (directory.target input).same (directory.target other))
    (h : Built next after directory done torn) :
    Built before after directory (input :: done) torn := by
  have hgrows := hadds.grows.trans h.grows
  have hlocate := h.grows.locate hadds.locate
  have hheld := held_of_readText hread hgrows
  obtain ⟨name, hname⟩ := hheld.exists_endsIn hgrows hrooted
  have hapart := h.locate_ne (hadds.grows.isRooted hrooted) hname hdiffer hlocate
  have hcompiled : ∀ later ∈ input :: done, ∃ content, Held before after later content ∧
      after.readText (directory.target later) = .ok (compileFile content later.text) := by
    rw [List.forall_mem_cons]
    constructor
    · -- No other target is written where this one is.
      have htarget := h.unchanged location fun other hmem => (hapart other hmem).2
      rw [hadds.contents?, if_pos rfl] at htarget
      exact ⟨content, hheld, FileTree.readText_eq_ok_iff.mpr ⟨location, hlocate, htarget⟩⟩
    · -- This target is written where no other input is.
      intro other hmem
      obtain ⟨held, hother, htarget⟩ := h.compiled other hmem
      exact ⟨held, hother.of_addsFile hadds (hapart other (List.mem_append_left _ hmem)).1, htarget⟩
  refine ⟨hgrows, hcompiled, fun later hmem held hlater => ?_, fun other hmem => ?_,
    fun other hother => ?_⟩
  · -- What could be read is what was held.
    obtain ⟨content, hcontent, htarget⟩ := hcompiled later hmem
    rw [htarget, hcontent.eq_of_readText hgrows hlater]
  · obtain ⟨held, place, count, hother, htarget⟩ := h.front other hmem
    have hmem' := List.mem_append_right done (Option.mem_toList.mpr hmem)
    exact ⟨held, place, count, hother.of_addsFile hadds (hapart other hmem').1, htarget⟩
  · rw [List.cons_append, List.forall_mem_cons] at hother
    have hne : other ≠ location := by
      rintro rfl
      exact hother.1 hlocate
    rw [h.unchanged other hother.2, hadds.contents?, if_neg hne]

/-! ### How far a build comes -/

/-- How far a build of inputs came: it is done with all of them, or it failed at the one after those
that are done. With a collision it did not begin. A target is torn if the write to it failed when the
file was open. -/
inductive Stopped (directory : Path) :
    (inputs done : List Path) → (torn : Option Path) → Option Failure → Prop
  | never (inputs : List Path) : Stopped directory inputs inputs none none
  | unreadable (done rest : List Path) (input : Path) (error : FileError) :
      Stopped directory (done ++ input :: rest) done none (some (.unreadable input error))
  | unopened (done rest : List Path) (input : Path) (error : FileError) :
      Stopped directory (done ++ input :: rest) done none
        (some (.unwritable (directory.target input) error))
  | unfinished (done rest : List Path) (input : Path) (error : FileError) :
      Stopped directory (done ++ input :: rest) done (some input)
        (some (.unwritable (directory.target input) error))
  | collision (inputs : List Path) (first second target : Path) :
      Stopped directory inputs [] none (some (.collision first second target))

/-- A build that goes through its inputs does not fail with a collision. -/
theorem BuildRun.failure_ne_collision {σ : Type} [FileSystem σ] {state last : σ}
    (h : BuildRun directory state inputs last failure)
    (first second target : Path) : failure ≠ some (.collision first second target) := by
  induction h with
  | done | unreadable | unwritable => simp
  | built _ _ _ ih => exact ih

theorem Stopped.cons (h : Stopped directory inputs done torn failure)
    (hcollision : ∀ first second target, failure ≠ some (.collision first second target))
    (input : Path) : Stopped directory (input :: inputs) (input :: done) torn failure := by
  cases h with
  | never => exact .never (input :: inputs)
  | unreadable done rest next error => exact .unreadable (input :: done) rest next error
  | unopened done rest next error => exact .unopened (input :: done) rest next error
  | unfinished done rest next error => exact .unfinished (input :: done) rest next error
  | collision => exact absurd rfl (hcollision _ _ _)

theorem Stopped.subset (h : Stopped directory inputs done torn failure) :
    done ++ torn.toList ⊆ inputs := by
  cases h <;> simp

theorem Stopped.eq_of_none (h : Stopped directory inputs done torn none) :
    done = inputs ∧ torn = none := by
  cases h
  exact ⟨rfl, rfl⟩

/-- A build of one input that fails is done with none. -/
theorem Stopped.eq_nil {failure : Failure}
    (h : Stopped directory [input] done torn (some failure)) : done = [] := by
  generalize hinputs : [input] = inputs at h
  cases h with
  | collision => rfl
  | unreadable | unopened | unfinished =>
    -- Behind the inputs that are done there is one more.
    have hlength := congrArg List.length hinputs
    simp only [List.length_append, List.length_cons, List.length_nil] at hlength
    exact List.eq_nil_of_length_eq_zero (by omega)

variable {σ : Type} [FileSystem σ] [LinkFree σ] {state last : σ}

/-- Each step of a build compiles one more input. -/
theorem BuildRun.exists_built (h : BuildRun directory state inputs last failure)
    (hrooted : (tree state).IsRooted)
    (hdiffer : inputs.Pairwise fun first second =>
      ¬ (directory.target first).same (directory.target second)) :
    ∃ done torn, Built (tree state) (tree last) directory done torn ∧
      Stopped directory inputs done torn failure ∧ (FailsUnopened σ → torn = none) := by
  induction h with
  | done state => exact ⟨[], none, .of_addsDirectories .refl directory, .never [], fun _ => rfl⟩
  | unreadable hread =>
    exact ⟨[], none, .of_addsDirectories .refl directory, .unreadable [] _ _ _, fun _ => rfl⟩
  | @unwritable state later input rest content error hread hwrite =>
    have hwrites := LinkFree.writesText state (directory.target input)
      (compileFile content input.text)
    -- Where no write fails halfway, this one has made directories at most.
    by_cases hfails : FailsUnopened σ
    · have hadds := hfails state _ _ error (by rw [hwrite])
      rw [hwrite] at hadds
      exact ⟨[], none, .of_addsDirectories hadds directory, .unopened [] _ _ _, fun _ => rfl⟩
    · rw [hwrite] at hwrites
      cases hwrites with
      | unopened _ hadds =>
        exact ⟨[], none, .of_addsDirectories hadds directory, .unopened [] _ _ _, fun _ => rfl⟩
      | unfinished _ count hadds =>
        exact ⟨[], some input, .of_torn (LinkFree.readText_tree hread) hadds,
          .unfinished [] _ _ _, fun h => absurd h hfails⟩
  | @built state later _ input _ content _ hread hwrite hrest ih =>
    obtain ⟨hinput, hdiffer⟩ := List.pairwise_cons.mp hdiffer
    have hwrites := LinkFree.writesText state (directory.target input)
      (compileFile content input.text)
    rw [hwrite] at hwrites
    cases hwrites with
    | finished hadds =>
      obtain ⟨done, torn, hbuilt, hstopped, htorn⟩ := ih (hadds.grows.isRooted hrooted) hdiffer
      exact ⟨input :: done, torn,
        .cons hrooted (LinkFree.readText_tree hread) hadds
          (fun other hmem => hinput other (hstopped.subset hmem)) hbuilt,
        hstopped.cons hrest.failure_ne_collision input, htorn⟩

/-- Where the second output is too long for the disk, its target is torn. -/
example :
    let disk : Disk := ⟨⟨[(["a"], .file (.text "one")), (["b"], .file (.text "three")),
      (["out"], .directory), (["out", "b"], .file (.text "old"))], []⟩, 4⟩
    let outcome := (Command.build [⟨"a"⟩, ⟨"b"⟩] (some ⟨"out"⟩)).runOn disk
    outcome.failure.isSome ∧ outcome.state.tree.contents? ["out", "a"] = some (.text "one") ∧
      outcome.state.tree.contents? ["out", "b"] = some (.text "thre") := by decide +kernel

end LayoutMarkup

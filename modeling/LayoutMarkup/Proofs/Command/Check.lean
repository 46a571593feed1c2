import LayoutMarkup.Proofs.Command.OnState
import Mathlib.Algebra.Order.BigOperators.Group.List
import Mathlib.Algebra.Order.Ring.Nat

/-!
# The verdict of a check

A check reads all files before it says anything about one of them. If it comes to a file that cannot
be read, it fails there, and nothing is printed. Otherwise its verdict is a number: the warnings of
all reports if the check is strict, else those that are more than a matter of style. The number is a
sum over the files, so their order does not matter, and neither does the form in which the reports
are printed. A check that is strict counts no less. No check writes to a file, which shows in the
state of the files staying as it is on any file system, also on one where every write leaves a trace.

## Main definitions

* `FileSystem.IsReadable`, `FileSystem.FirstUnreadable` — files that can be read, and the first that
  cannot
* `Report.problems`, `FileSystem.problems` — the warnings that count, of a report and of files

## Main results

* `FileSystem.runOn_check_of_readable`, `FileSystem.runOn_check_of_firstUnreadable` — what comes of a
  check
* `FileSystem.runOn_check_verdict` — the verdict, and what it depends on
-/

namespace LayoutMarkup

/-- The number of warnings in a report that count: all of them in a strict check, else those that
are more than suggestions. -/
def Report.problems (strict : Bool) (report : Report) : Nat :=
  if strict then report.warnings.length
  else (report.warnings.filter (·.severity = .warning)).length

theorem Report.countP_isFailing (strict : Bool) (report : Report) :
    report.warnings.countP (·.isFailing strict) = report.problems strict := by
  cases strict
  · rw [List.countP_eq_length_filter]
    simp [problems, Warning.isFailing]
  · simp [problems, Warning.isFailing]

theorem Report.problems_le (strict : Bool) (report : Report) :
    report.problems strict ≤ report.problems true := by
  cases strict
  · exact List.length_filter_le _ _
  · exact Nat.le_refl _

/-- Why a check fails with a number of problems, if it does. -/
def Failure.ofProblems? (count : Nat) : Option Failure :=
  if count = 0 then none else some (.lintFailed count)

theorem Failure.ofProblems?_eq_none_iff {count : Nat} : ofProblems? count = none ↔ count = 0 := by
  simp [ofProblems?]

theorem Failure.ofProblems?_eq_lintFailed_iff {count told : Nat} :
    ofProblems? count = some (.lintFailed told) ↔ 0 < told ∧ told = count := by
  rw [ofProblems?]
  split_ifs with h
  · simp [h, Nat.pos_iff_ne_zero]
  · rw [Option.some.injEq, lintFailed.injEq]
    omega

namespace Transcript

@[simp] theorem log_nil (transcript : Transcript) : transcript.log [] = transcript := by
  simp [log]

@[simp] theorem log_log (transcript : Transcript) (events later : List Event) :
    (transcript.log events).log later = transcript.log (events ++ later) := by
  simp [log]

end Transcript

/-- Printing reports does not fail, and leaves the files as they are. -/
theorem onState_printReports {σ : Type} (reports : List (Path × Report)) (transcript : Transcript)
    (state : σ) :
    ∃ later, Session.onState (printReports reports) transcript state = (.ok (), later, state) := by
  induction reports generalizing transcript with
  | nil => exact ⟨transcript, rfl⟩
  | cons report reports ih =>
    obtain ⟨file, found⟩ := report
    rw [printReports]
    split
    · exact ih (transcript.report _)
    · exact ih (transcript.print _)

namespace FileSystem

open Session (onState)

variable {σ : Type} [FileSystem σ] {state : σ} {files files' : List Path} {file : Path}
  {error : FileError} {strict json : Bool}

/-- In this state the file can be read. -/
def IsReadable (state : σ) (file : Path) : Prop := ∃ source, readText state file = .ok source

/-- Of the files, `file` is the first that cannot be read, for the reason `error`. -/
def FirstUnreadable (state : σ) (files : List Path) (file : Path) (error : FileError) : Prop :=
  ∃ front back, files = front ++ file :: back ∧ (∀ other ∈ front, IsReadable state other) ∧
    readText state file = .error error

/-- The report on a file. There is nothing to report on one that cannot be read. -/
def reportAt (state : σ) (file : Path) : Report :=
  match readText state file with
  | .ok source => .ofSource source
  | .error _ => ⟨[], []⟩

/-- The number of warnings about files that count. -/
def problems (strict : Bool) (state : σ) (files : List Path) : Nat :=
  (files.map fun file => (reportAt state file).problems strict).sum

theorem problems_perm (h : files.Perm files') (strict : Bool) (state : σ) :
    problems strict state files = problems strict state files' :=
  (h.map _).sum_eq

theorem problems_le (strict : Bool) (state : σ) (files : List Path) :
    problems strict state files ≤ problems true state files :=
  List.sum_le_sum fun file _ => (reportAt state file).problems_le strict

theorem failingCount_reportAt (strict : Bool) (state : σ) (files : List Path) :
    failingCount strict (files.map fun file => (file, reportAt state file)) =
      problems strict state files := by
  rw [failingCount, List.countP_flatMap, List.map_map, problems]
  congr 1
  exact List.map_congr_left fun file _ => (reportAt state file).countP_isFailing strict

/-- Files can all be read, or one of them is the first that cannot. -/
theorem readable_or_firstUnreadable (state : σ) (files : List Path) :
    (∀ file ∈ files, IsReadable state file) ∨
      ∃ file error, FirstUnreadable state files file error := by
  induction files with
  | nil => exact Or.inl nofun
  | cons first files ih =>
    cases hread : readText state first with
    | error error => exact Or.inr ⟨first, error, [], files, rfl, nofun, hread⟩
    | ok source =>
      rcases ih with h | ⟨file, error, front, back, rfl, hfront, hfile⟩
      · exact Or.inl (List.forall_mem_cons.mpr ⟨⟨source, hread⟩, h⟩)
      · exact Or.inr ⟨file, error, first :: front, back, rfl,
          List.forall_mem_cons.mpr ⟨⟨source, hread⟩, hfront⟩, hfile⟩

theorem FirstUnreadable.not_readable (h : FirstUnreadable state files file error) :
    ¬ ∀ file ∈ files, IsReadable state file := by
  obtain ⟨front, back, rfl, -, hread⟩ := h
  intro hall
  obtain ⟨source, hsource⟩ := hall file (List.mem_append_right _ List.mem_cons_self)
  rw [hread] at hsource
  cases hsource

/-! ### Reading -/

/-- A file that can be read is reported on before the others. -/
theorem onState_reportOnAll_cons (h : IsReadable state file) (files : List Path)
    (transcript : Transcript) :
    ∃ events, onState (reportOnAll (file :: files)) transcript state =
      Prod.map (Except.map ((file, reportAt state file) :: ·)) id
        (onState (reportOnAll files) (transcript.log events) state) := by
  obtain ⟨source, hread⟩ := h
  have hreport : reportAt state file = Report.ofSource source := by rw [reportAt, hread]
  refine ⟨Document.findingEvents source ++ [.checked file.text (Report.ofSource source).results.length
    (Report.ofSource source).warnings.length], ?_⟩
  simp only [reportOnAll, reportOn, Session.onState_bind, Session.onState_read, hread,
    Session.onState_log, Session.onState_pure, Transcript.log_log, hreport]
  rcases onState (reportOnAll files) _ state with ⟨failure | reports, later, after⟩ <;> rfl

/-- Files that can be read are reported on before the others. -/
theorem onState_reportOnAll_append {front : List Path} (h : ∀ file ∈ front, IsReadable state file)
    (files : List Path) (transcript : Transcript) :
    ∃ events, onState (reportOnAll (front ++ files)) transcript state =
      Prod.map (Except.map ((front.map fun file => (file, reportAt state file)) ++ ·)) id
        (onState (reportOnAll files) (transcript.log events) state) := by
  induction front generalizing transcript with
  | nil =>
    refine ⟨[], ?_⟩
    rw [Transcript.log_nil, List.nil_append]
    rcases onState (reportOnAll files) transcript state with ⟨failure | reports, later, after⟩ <;> rfl
  | cons file front ih =>
    obtain ⟨hfile, hfront⟩ := List.forall_mem_cons.mp h
    obtain ⟨first, hfirst⟩ := onState_reportOnAll_cons hfile (front ++ files) transcript
    obtain ⟨others, hothers⟩ := ih hfront (transcript.log first)
    refine ⟨first ++ others, ?_⟩
    rw [List.cons_append, hfirst, hothers, Transcript.log_log]
    rcases onState (reportOnAll files) (transcript.log (first ++ others)) state with
      ⟨failure | reports, later, after⟩ <;> rfl

/-- If all files can be read, there is a report on each of them. -/
theorem onState_reportOnAll_of_readable (h : ∀ file ∈ files, IsReadable state file)
    (transcript : Transcript) :
    ∃ events, onState (reportOnAll files) transcript state =
      (.ok (files.map fun file => (file, reportAt state file)), transcript.log events, state) := by
  obtain ⟨events, hreports⟩ := onState_reportOnAll_append h [] transcript
  rw [List.append_nil, reportOnAll, Session.onState_pure] at hreports
  refine ⟨events, hreports.trans ?_⟩
  simp [Except.map]

/-- At the first file that cannot be read, reading ends. -/
theorem onState_reportOnAll_of_firstUnreadable (h : FirstUnreadable state files file error)
    (transcript : Transcript) :
    ∃ events, onState (reportOnAll files) transcript state =
      (.error (.unreadable file error), transcript.log events, state) := by
  obtain ⟨front, back, rfl, hfront, hread⟩ := h
  obtain ⟨events, hreports⟩ := onState_reportOnAll_append hfront (file :: back) transcript
  refine ⟨events, hreports.trans ?_⟩
  simp [reportOnAll, reportOn, hread, Except.map]

/-! ### The verdict -/

theorem runOn_check_of_firstUnreadable (h : FirstUnreadable state files file error)
    (strict json : Bool) :
    ∃ events, (Command.check files strict json).runOn state =
      ⟨Transcript.empty.log events, state, some (.unreadable file error)⟩ := by
  obtain ⟨events, hreports⟩ := onState_reportOnAll_of_firstUnreadable h .empty
  refine ⟨events, ?_⟩
  rw [Command.runOn, Command.run, check, Session.onState_bind, hreports]

theorem runOn_check_of_readable (h : ∀ file ∈ files, IsReadable state file) (strict json : Bool) :
    ∃ transcript, (Command.check files strict json).runOn state =
      ⟨transcript, state, Failure.ofProblems? (problems strict state files)⟩ := by
  obtain ⟨events, hreports⟩ := onState_reportOnAll_of_readable h .empty
  -- Whatever is printed, the number is that of the reports, and the files are as they were.
  obtain ⟨later, hprint⟩ : ∃ later, onState (check files strict json) .empty state =
      onState (if problems strict state files = 0 then pure ()
        else throw (.lintFailed (problems strict state files))) later state := by
    rw [check, Session.onState_bind, hreports]
    simp only [failingCount_reportAt]
    cases json with
    | false =>
      obtain ⟨later, hlater⟩ := onState_printReports
        (files.map fun file => (file, reportAt state file)) (Transcript.empty.log events) state
      refine ⟨later, ?_⟩
      simp only [Bool.false_eq_true, if_false, Session.onState_bind, hlater]
    | true => exact ⟨_, rfl⟩
  refine ⟨later, ?_⟩
  rw [Command.runOn, Command.run, hprint, Failure.ofProblems?]
  split_ifs <;> rfl

/-- The verdict on files that can be read is their number of problems. -/
theorem failure_runOn_check_of_readable (h : ∀ file ∈ files, IsReadable state file)
    (strict json : Bool) :
    ((Command.check files strict json).runOn state).failure =
      Failure.ofProblems? (problems strict state files) := by
  obtain ⟨transcript, hrun⟩ := runOn_check_of_readable h strict json
  rw [hrun]

/-- A check of files of which one cannot be read names the first one that cannot. -/
theorem failure_runOn_check_of_firstUnreadable (h : FirstUnreadable state files file error)
    (strict json : Bool) :
    ((Command.check files strict json).runOn state).failure = some (.unreadable file error) := by
  obtain ⟨events, hrun⟩ := runOn_check_of_firstUnreadable h strict json
  rw [hrun]

/-- The verdict does not depend on the form in which reports are printed. -/
theorem failure_runOn_check_json (state : σ) (files : List Path) (strict json json' : Bool) :
    ((Command.check files strict json').runOn state).failure =
      ((Command.check files strict json).runOn state).failure := by
  rcases readable_or_firstUnreadable state files with h | ⟨file, error, h⟩
  · rw [failure_runOn_check_of_readable h, failure_runOn_check_of_readable h]
  · rw [failure_runOn_check_of_firstUnreadable h, failure_runOn_check_of_firstUnreadable h]

/-- The verdict does not depend on the order of the files, but that another one of those that cannot
be read may come first. -/
theorem failure_runOn_check_perm (hperm : files'.Perm files) (state : σ) (strict json : Bool) :
    ((Command.check files' strict json).runOn state).failure =
        ((Command.check files strict json).runOn state).failure ∨
      ∃ file error file' error',
        ((Command.check files strict json).runOn state).failure = some (.unreadable file error) ∧
          ((Command.check files' strict json).runOn state).failure =
            some (.unreadable file' error') := by
  rcases readable_or_firstUnreadable state files with h | ⟨file, error, h⟩
  · have h' : ∀ file ∈ files', IsReadable state file :=
      fun file hfile => h file (hperm.mem_iff.mp hfile)
    left
    rw [failure_runOn_check_of_readable h, failure_runOn_check_of_readable h', problems_perm hperm]
  · rcases readable_or_firstUnreadable state files' with h' | ⟨file', error', h'⟩
    · exact absurd (fun file hfile => h' file (hperm.mem_iff.mpr hfile)) h.not_readable
    · exact Or.inr ⟨file, error, file', error', failure_runOn_check_of_firstUnreadable h strict json,
        failure_runOn_check_of_firstUnreadable h' strict json⟩

/-- A strict check fails where any other check does. -/
theorem failure_runOn_check_strict
    (hfail : ((Command.check files strict json).runOn state).failure ≠ none) :
    ((Command.check files true json).runOn state).failure ≠ none := by
  rcases readable_or_firstUnreadable state files with h | ⟨file, error, h⟩
  · rw [failure_runOn_check_of_readable h, ne_eq, Failure.ofProblems?_eq_none_iff] at hfail ⊢
    have hle := problems_le strict state files
    omega
  · rw [failure_runOn_check_of_firstUnreadable h]
    exact Option.some_ne_none _

/-- A check leaves the files as they are. -/
theorem state_runOn_check (state : σ) (files : List Path) (strict json : Bool) :
    ((Command.check files strict json).runOn state).state = state := by
  rcases readable_or_firstUnreadable state files with h | ⟨file, error, h⟩
  · obtain ⟨transcript, hrun⟩ := runOn_check_of_readable h strict json
    rw [hrun]
  · obtain ⟨events, hrun⟩ := runOn_check_of_firstUnreadable h strict json
    rw [hrun]

/-- If some file cannot be read, a check fails at the first one, with no report printed on any file.
Otherwise it fails if and only if there are problems, and tells their number. So its verdict is the
same in JSON and in plain text, and it is the same for the files in any other order, but that the
first file that cannot be read may then be another one. Where a check fails, a strict one does. The
files stay as they are, whatever writing would make of them. -/
theorem runOn_check_verdict (state : σ) (files : List Path) (strict json : Bool) :
    let ending := (Command.check files strict json).runOn state
    ((∀ file ∈ files, IsReadable state file) ∨
        ∃ file error, FirstUnreadable state files file error) ∧
      (∀ file error, FirstUnreadable state files file error →
        ending.failure = some (.unreadable file error) ∧
          ending.transcript.output = "" ∧ ending.transcript.errors = "") ∧
      ((∀ file ∈ files, IsReadable state file) →
        (∀ count, ending.failure = some (.lintFailed count) ↔
          0 < count ∧ count = problems strict state files) ∧
        (ending.failure = none ↔ problems strict state files = 0)) ∧
      (∀ json', ((Command.check files strict json').runOn state).failure = ending.failure) ∧
      (∀ files', files'.Perm files →
        let other := (Command.check files' strict json).runOn state
        other.failure = ending.failure ∨ ∃ file error file' error',
          ending.failure = some (.unreadable file error) ∧
            other.failure = some (.unreadable file' error')) ∧
      (ending.failure ≠ none → ((Command.check files true json).runOn state).failure ≠ none) ∧
      ending.state = state := by
  refine ⟨readable_or_firstUnreadable state files, fun file error h => ?_, fun h => ?_,
    failure_runOn_check_json state files strict json,
    fun files' hperm => failure_runOn_check_perm hperm state strict json,
    failure_runOn_check_strict, state_runOn_check state files strict json⟩
  · obtain ⟨events, hrun⟩ := runOn_check_of_firstUnreadable h strict json
    rw [hrun]
    exact ⟨rfl, rfl, rfl⟩
  · rw [failure_runOn_check_of_readable h]
    exact ⟨fun _ => Failure.ofProblems?_eq_lintFailed_iff, Failure.ofProblems?_eq_none_iff⟩

/-- One file has a problem and another has only a suggestion; a third is missing. -/
theorem runOn_check_verdict_pages :
    let tree : FileTree := ⟨[(["a.html"], .file (.text "<Center horizontal vertical>")),
      (["b.html"], .file (.text "<Row gap=\"none\">"))], []⟩
    let files : List Path := [⟨"b.html"⟩, ⟨"a.html"⟩]
    (∀ file ∈ files, IsReadable tree file) ∧
      problems false tree files = 1 ∧ problems true tree files = 2 ∧
      ((Command.check files false true).runOn tree).failure = some (.lintFailed 1) ∧
      ((Command.check files true false).runOn tree).failure = some (.lintFailed 2) ∧
      FirstUnreadable tree (files ++ [⟨"c.html"⟩]) ⟨"c.html"⟩ .notFound ∧
      ((Command.check (files ++ [⟨"c.html"⟩]) true false).runOn tree).failure =
        some (.unreadable ⟨"c.html"⟩ .notFound) := by
  intro tree files
  have hreadable : ∀ file ∈ files, IsReadable tree file := by
    simp only [files, List.forall_mem_cons]
    exact ⟨⟨"<Row gap=\"none\">", by decide +kernel⟩,
      ⟨"<Center horizontal vertical>", by decide +kernel⟩, nofun⟩
  have hsome : problems false tree files = 1 := by decide +kernel
  have hall : problems true tree files = 2 := by decide +kernel
  have hmissing : FirstUnreadable tree (files ++ [⟨"c.html"⟩]) ⟨"c.html"⟩ .notFound :=
    ⟨files, [], rfl, hreadable, by decide +kernel⟩
  obtain ⟨-, -, hverdict, -⟩ := runOn_check_verdict tree files false true
  obtain ⟨-, -, hstrict, -⟩ := runOn_check_verdict tree files true false
  obtain ⟨-, hfails, -⟩ := runOn_check_verdict tree (files ++ [⟨"c.html"⟩]) true false
  refine ⟨hreadable, hsome, hall, ?_, ?_, hmissing, (hfails _ _ hmissing).1⟩
  · exact ((hverdict hreadable).1 1).mpr ⟨by decide, hsome.symm⟩
  · exact ((hstrict hreadable).1 2).mpr ⟨by decide, hall.symm⟩

end FileSystem

end LayoutMarkup

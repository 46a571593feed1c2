import LayoutMarkup.Command.Session

/-!
# Sessions on file systems

A session on a file system goes step by step. The first failure ends it, and what was printed and
logged before stays in the transcript.

## Main results

* `Session.onState_bind` — a session goes on with what came of its first part
* `Session.onState_read`, `Session.onState_write` — what reading and writing a file comes to
-/

namespace LayoutMarkup.Session

variable {σ α β : Type}

@[simp] theorem onState_pure (a : α) (transcript : Transcript) (state : σ) :
    onState (pure a) transcript state = (.ok a, transcript, state) := rfl

@[simp] theorem onState_throw (failure : Failure) (transcript : Transcript) (state : σ) :
    onState (throw failure : Session _ α) transcript state =
      (.error failure, transcript, state) := rfl

/-- A session goes on with what came of its first part, unless that failed. -/
@[simp] theorem onState_bind (session : Session (StateM σ) α)
    (next : α → Session (StateM σ) β) (transcript : Transcript) (state : σ) :
    onState (session >>= next) transcript state =
      match onState session transcript state with
      | (.ok a, transcript, state) => onState (next a) transcript state
      | (.error failure, transcript, state) => (.error failure, transcript, state) := by
  simp only [onState, ExceptT.run_bind, StateT.run_bind]
  rcases (session.run.run transcript).run state with ⟨⟨failure | a, later⟩, after⟩ <;> rfl

@[simp] theorem onState_lift (access : StateM σ α) (transcript : Transcript) (state : σ) :
    onState (liftM access) transcript state =
      (.ok (access.run state).1, transcript, (access.run state).2) := rfl

@[simp] theorem onState_print (text : String) (transcript : Transcript) (state : σ) :
    onState (print text) transcript state = (.ok (), transcript.print text, state) := rfl

@[simp] theorem onState_report (text : String) (transcript : Transcript) (state : σ) :
    onState (report text) transcript state = (.ok (), transcript.report text, state) := rfl

@[simp] theorem onState_log (events : List Event) (transcript : Transcript) (state : σ) :
    onState (log events) transcript state = (.ok (), transcript.log events, state) := rfl

variable [FileSystem σ]

/-- Reading leaves the files and the transcript as they are. -/
@[simp] theorem onState_read (path : Path) (transcript : Transcript) (state : σ) :
    onState (read path) transcript state =
      match FileSystem.readText state path with
      | .ok value => (.ok value, transcript, state)
      | .error error => (.error (.unreadable path error), transcript, state) := by
  rw [read, onState_bind, onState_lift]
  have haccess : (FileAccess.readText path : StateM σ _).run state =
    (FileSystem.readText state path, state) := rfl
  rw [haccess]
  rcases FileSystem.readText state path with error | value <;> rfl

/-- Writing changes the files, and it may do so also if it fails. -/
@[simp] theorem onState_write (path : Path) (value : String) (transcript : Transcript)
    (state : σ) :
    onState (write path value) transcript state =
      match FileSystem.writeText state path value with
      | (.ok (), next) => (.ok (), transcript, next)
      | (.error error, next) => (.error (.unwritable path error), transcript, next) := by
  rw [write, onState_bind, onState_lift]
  have haccess : (FileAccess.writeText path value : StateM σ _).run state =
    FileSystem.writeText state path value := rfl
  rw [haccess]
  rcases FileSystem.writeText state path value with ⟨error | _, next⟩ <;> rfl

end LayoutMarkup.Session

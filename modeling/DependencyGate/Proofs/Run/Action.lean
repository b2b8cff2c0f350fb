/-
# Steps of a run

How the steps of a run act on a session: what a sequence of steps does follows from what
each of them does, and steps that only look, log or fail keep the rest of the session.
-/

import DependencyGate.Proofs.FileTree.Faults
import DependencyGate.Run.Session

namespace DependencyGate

/-- Whether a notice tells of a phase that has been entered. -/
def Notice.tellsPhase : Notice → Bool
  | .logged event => event.source = .pipeline ∧ event.name = ("pipeline.phase" : Text)
  | .printed _ _ => false

namespace Action

variable {α β : Type} {step : Action α} {next : α → Action β} {session after : Session}

/-- How a step ends that is taken from a session, and the session it leaves. -/
def runFrom (session : Session) (step : Action α) : Except Failure α × Session := step.run session

/-! ## Running steps in sequence -/

@[simp]
theorem runFrom_pure (value : α) : runFrom session (pure value) = (.ok value, session) := rfl

@[simp]
theorem runFrom_throw (failure : Failure) :
    runFrom session (throw failure : Action α) = (.error failure, session) := rfl

@[simp]
theorem runFrom_get : runFrom session get = (.ok session, session) := rfl

@[simp]
theorem runFrom_note (notices : List Notice) :
    runFrom session (note notices) =
      (.ok (), { session with transcript := session.transcript ++ notices }) := rfl

@[simp]
theorem runFrom_log (event : Log.Event) :
    runFrom session (log event) =
      (.ok (), { session with transcript := session.transcript ++ [.logged event] }) := rfl

theorem runFrom_bind (step : Action α) (next : α → Action β) (session : Session) :
    runFrom session (step >>= next) =
      match runFrom session step with
      | (.ok value, between) => runFrom between (next value)
      | (.error failure, between) => (.error failure, between) := by
  change (match runFrom session step with
    | (outcome, between) => ExceptT.bindCont next outcome between) = _
  rcases runFrom session step with ⟨_ | _, between⟩ <;> rfl

theorem runFrom_tryCatch (step : Action α) (handler : Failure → Action α) (session : Session) :
    runFrom session (tryCatch step handler) =
      match runFrom session step with
      | (.ok value, after) => (.ok value, after)
      | (.error failure, after) => runFrom after (handler failure) := by
  simp only [runFrom, tryCatch, tryCatchThe, MonadExceptOf.tryCatch, ExceptT.tryCatch, ExceptT.run,
    ExceptT.mk, bind, StateT.bind]
  rcases step session with ⟨_ | _, after⟩ <;> rfl

/-- Failures that concern the manifest become values, all others stay failures. -/
theorem runFrom_attemptOnManifest (step : Action α) (session : Session) :
    runFrom session (attemptOnManifest step) =
      match runFrom session step with
      | (.ok value, after) => (.ok (.ok value), after)
      | (.error failure, after) =>
          if failure.concernsManifest then (.ok (.error failure), after)
          else (.error failure, after) := by
  rw [attemptOnManifest, runFrom_tryCatch, runFrom_bind]
  rcases runFrom session step with ⟨failure | value, after⟩
  · by_cases concerns : failure.concernsManifest = true <;> simp [concerns]
  · rfl

theorem runFrom_bind_of_ok {value : α} (first : runFrom session step = (.ok value, after)) :
    runFrom session (step >>= next) = runFrom after (next value) := by
  rw [runFrom_bind, first]

theorem runFrom_bind_of_error {failure : Failure}
    (first : runFrom session step = (.error failure, after)) :
    runFrom session (step >>= next) = (.error failure, after) := by
  rw [runFrom_bind, first]

/-- A sequence that succeeds consists of steps that succeed. -/
theorem exists_of_runFrom_bind {result : β}
    (finished : runFrom session (step >>= next) = (.ok result, after)) :
    ∃ value between, runFrom session step = (.ok value, between) ∧
      runFrom between (next value) = (.ok result, after) := by
  rw [runFrom_bind] at finished
  split at finished
  case h_1 value between first => exact ⟨value, between, first, finished⟩
  case h_2 => simp at finished

/-! ## What a step keeps -/

section Keeps

variable {γ : Type} {part : Session → γ}

/-- Whether a step keeps a part of the session, however it ends. -/
def Keeps (part : Session → γ) (step : Action α) : Prop :=
  ∀ session, part (runFrom session step).2 = part session

/-- Whether a part of a session depends on nothing in the transcript but what is told of
phases. -/
def Silent (part : Session → γ) : Prop :=
  ∀ (session : Session) (notices : List Notice),
    (∀ notice ∈ notices, notice.tellsPhase = false) →
      part { session with transcript := session.transcript ++ notices } = part session

theorem silent_tree : Silent Session.tree := fun _ _ _ => rfl

theorem silent_tool : Silent Session.tool := fun _ _ _ => rfl

theorem silent_phase : Silent Session.phase := fun _ _ _ => rfl

theorem tellsPhase_eq_false {event : Log.Event} (other : event.source ≠ .pipeline) :
    Notice.tellsPhase (.logged event) = false := by
  simp [Notice.tellsPhase, other]

theorem keeps_pure (value : α) : Keeps part (pure value) := fun _ => rfl

theorem keeps_throw (failure : Failure) : Keeps part (throw failure : Action α) := fun _ => rfl

theorem keeps_get : Keeps part get := fun _ => rfl

theorem keeps_note (silent : Silent part) {notices : List Notice}
    (mute : ∀ notice ∈ notices, notice.tellsPhase = false) : Keeps part (note notices) :=
  fun session => silent session notices mute

theorem keeps_log (silent : Silent part) {event : Log.Event}
    (mute : Notice.tellsPhase (.logged event) = false) : Keeps part (log event) :=
  keeps_note silent (List.forall_mem_singleton.mpr mute)

theorem Keeps.bind (first : Keeps part step) (second : ∀ value, Keeps part (next value)) :
    Keeps part (step >>= next) := by
  intro session
  have kept := first session
  rw [runFrom_bind]
  generalize runFrom session step = ended at kept
  rcases ended with ⟨failure | value, between⟩
  · exact kept
  · exact (second value between).trans kept

theorem keeps_ofExcept {ε : Type} (failure : ε → Failure) (outcome : Except ε α) :
    Keeps part (ofExcept failure outcome) := by
  cases outcome with
  | ok value => exact keeps_pure value
  | error error => exact keeps_throw (failure error)

theorem Keeps.attemptOnManifest (keeps : Keeps part step) :
    Keeps part (attemptOnManifest step) := by
  intro session
  have kept := keeps session
  rw [runFrom_attemptOnManifest]
  generalize runFrom session step = ended at kept
  rcases ended with ⟨failure | value, between⟩
  · dsimp only
    split <;> exact kept
  · exact kept

theorem Keeps.eq {outcome : Except Failure α} (keeps : Keeps part step)
    (ended : runFrom session step = (outcome, after)) : part after = part session := by
  have kept := keeps session
  rw [ended] at kept
  exact kept

end Keeps

/-! ## Replacing a file -/

/-- The failure of a step that cannot replace the file at a path. -/
def replaceFailure (path : Path) : ReplaceError → Failure
  | .encoding error => .encoding error
  | .path error =>
      if error.fault = .holdsNul then .path error else .manifestUnwritable path.text error

theorem runFrom_replaceFile (path : Path) (text : WideText) (session : Session) :
    runFrom session (replaceFile path text) =
      match session.tree.replaceFile path text with
      | (.ok (), tree) => (.ok (), { session with tree := tree })
      | (.error error, tree) =>
          (.error (replaceFailure path error), { session with tree := tree }) := by
  rw [replaceFile, runFrom_bind]
  simp only [runFrom_get]
  rcases session.tree.replaceFile path text with ⟨error | _, tree⟩
  · cases error with
    | encoding error => rfl
    | path error =>
        by_cases nul : error.fault = .holdsNul
        · simp only [replaceFailure, if_pos nul]
          rfl
        · simp only [replaceFailure, if_neg nul]
          rfl
  · rfl

/-- A step that replaces a file does so and nothing else, or the replacement fails, so that
the step fails and does nothing. -/
theorem runFrom_replaceFile_cases (path : Path) (text : WideText) (session : Session) :
    (∃ error, session.tree.replaceFile path text = (.error error, session.tree) ∧
      runFrom session (replaceFile path text) = (.error (replaceFailure path error), session)) ∨
      ∃ place mode bytes, Utf8.encodeWide text = .ok bytes ∧ session.tree.site path = .ok place ∧
        session.tree.replaceFile path text =
          (.ok (), session.tree.put place (.file mode bytes)) ∧
        runFrom session (replaceFile path text) =
          (.ok (), { session with tree := session.tree.put place (.file mode bytes) }) := by
  rw [runFrom_replaceFile]
  rcases session.tree.replaceFile_cases path text with
    ⟨error, failed⟩ | ⟨place, mode, bytes, encoded, site, -, done⟩
  · exact .inl ⟨error, failed, by rw [failed]⟩
  · exact .inr ⟨place, mode, bytes, encoded, site, done, by rw [done]⟩

/-- What does not depend on the tree stays as it is when a file is replaced. -/
theorem keeps_replaceFile {γ : Type} {part : Session → γ}
    (apart : ∀ (session : Session) (tree : FileTree),
      part { session with tree := tree } = part session) (path : Path) (text : WideText) :
    Keeps part (replaceFile path text) := by
  intro session
  rcases runFrom_replaceFile_cases path text session with
    ⟨error, -, failed⟩ | ⟨place, mode, bytes, -, -, -, done⟩
  · rw [failed]
  · rw [done]
    exact apart session _

/-- Replacing a file by a text fails for reasons that concern the manifest alone, unless the
path holds a null character. -/
theorem concernsManifest_replaceFailure {tree : FileTree} {path : Path} {text : Text}
    {error : ReplaceError} (plain : '\x00' ∉ path.text)
    (failed : (tree.replaceFile path text.widen).1 = .error error) :
    (replaceFailure path error).concernsManifest = true := by
  cases error with
  | encoding refusal =>
      have refused := FileTree.encodeWide_of_replaceFile failed
      simp [Utf8.encodeWide_widen] at refused
  | path error =>
      rw [replaceFailure, if_neg (FileTree.fault_ne_holdsNul_of_replaceFile plain failed)]
      rfl

end Action
end DependencyGate

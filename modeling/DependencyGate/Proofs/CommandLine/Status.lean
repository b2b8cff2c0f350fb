/-
# The status of the command

Whatever its arguments, its environment and the project, the command answers with status zero or
one unless it breaks off, and what makes it break off is said exactly (`BreaksOff`): a project
directory whose path holds a null character, an unknown level of the log, or an obstacle that the
run meets and that does not concern the manifest. Such obstacles are paths that are too long to be
examined, directories that lie within too many others, and lockfiles beyond the limits of their
reader; how deep directories and values may nest is part of the surroundings.

These are all for a caller whom nothing is denied in the file tree: access rights and failures of
a device are not part of one. A call that breaks off or that is malformed leaves every file as it
is.
-/

import DependencyGate.CommandLine.Program
import DependencyGate.Proofs.Run.Calls
import DependencyGate.Proofs.Run.Obstacle

namespace DependencyGate

open DependencyGate.Action (runFrom)

namespace CommandLine

variable {surroundings : Surroundings} {tree : FileTree} {arguments : List Text} {start : Location}
  {session : Session} {failure : Failure} {request : Request} {settings : Settings}

/-! ## What arguments amount to -/

/-- The decisions that turn arguments down: they are refused, or abandoned for a directory whose
path holds a null character. -/
inductive Decision.Declines : Decision → Prop
  | refused (error : UsageError) : Declines (.refuse error)
  | abandoned {written : Text} (held : '\x00' ∈ written) :
      Declines (.abandon (.path ⟨.holdsNul, written, none⟩))

theorem declines_of_findDirectory {written : Text} {decision : Decision}
    (missed : findDirectory tree start written = .error decision) : decision.Declines := by
  rw [findDirectory] at missed
  split at missed
  case h_1 refused =>
    obtain rfl := Except.error.inj missed
    refine .abandoned ?_
    rw [FileTree.resolveWritten] at refused
    split at refused
    case h_1 fault met =>
      obtain rfl := Except.error.inj refused
      exact FileTree.writtenFault?_eq_holdsNul_iff.mp met
    case h_2 =>
      split at refused
      · cases Except.error.inj refused
      · exact absurd refused (FileTree.follow_ne_holdsNul _ _ _ _)
  case h_2 => exact Except.error.inj missed ▸ .refused _
  case h_3 =>
    split at missed
    case h_1 => cases missed
    case h_2 | h_3 => exact Except.error.inj missed ▸ .refused _

theorem declines_of_examine {written : Arguments} {switch : Switch} {decision : Decision}
    (examined : examine tree start written switch = some decision) : decision.Declines := by
  cases switch <;> simp only [examine] at examined
  case projectDirectory =>
    split at examined
    case h_1 => cases examined
    case h_2 missed => exact Option.some.inj examined ▸ declines_of_findDirectory missed
  case lockfileReader =>
    split at examined
    · cases examined
    · split at examined
      · cases examined
      · exact Option.some.inj examined ▸ .refused _
  all_goals cases examined

/-- Arguments are turned down, they ask for help, or every option that was given is acceptable
and the project is checked. -/
theorem interpret_cases (tree : FileTree) (start : Location) (arguments : List Text) :
    (interpret tree start arguments).Declines ∨ interpret tree start arguments = .help ∨
      ∃ request written, interpret tree start arguments = .validate request ∧
        request.lockfileReader = written.value? .lockfileReader ∧
        ∀ switch ∈ written.switches, examine tree start written switch = none := by
  rw [interpret]
  split
  case h_1 error _ => exact .inl (.refused error)
  case h_2 written _ =>
    split
    case isTrue => exact .inr (.inl rfl)
    case isFalse =>
      split
      case h_1 decision met =>
        obtain ⟨switch, -, examined⟩ := List.exists_of_findSome?_eq_some met
        exact .inl (declines_of_examine examined)
      case h_2 passed =>
        split
        case isTrue => exact .inl (.refused _)
        case isFalse =>
          simp only
          split
          case h_1 missed => exact .inl (declines_of_findDirectory missed)
          case h_2 =>
            exact .inr (.inr ⟨_, written, rfl, rfl, List.findSome?_eq_none_iff.mp passed⟩)

/-- Arguments are abandoned for a directory whose path holds a null character alone. -/
theorem nul_mem_of_interpret (abandoned : interpret tree start arguments = .abandon failure) :
    ∃ written, '\x00' ∈ written ∧ failure = .path ⟨.holdsNul, written, none⟩ := by
  rcases interpret_cases tree start arguments with declines | help | ⟨_, _, accepted, -⟩
  · rw [abandoned] at declines
    cases declines with
    | abandoned held => exact ⟨_, held, rfl⟩
  · cases abandoned.symm.trans help
  · cases abandoned.symm.trans accepted

theorem mem_switches_of_value? {written : Arguments} {switch : Switch} {value : Text}
    (found : written.value? switch = some value) : switch ∈ written.switches := by
  rw [Arguments.value?] at found
  split at found
  case h_1 => cases found
  case h_2 given met =>
    have listed := List.mem_reverse.mp (List.mem_of_find?_eq_some met)
    have same : given.switch = switch := by simpa using List.find?_some met
    rw [Arguments.switches, List.mem_eraseDups]
    exact same ▸ List.mem_map_of_mem listed

/-- A reader that accepted arguments ask for is one that exists. -/
theorem mem_readerNames_of_interpret {name : Text}
    (accepted : interpret tree start arguments = .validate request)
    (wanted : request.lockfileReader = some name) : name ∈ Settings.readerNames := by
  rcases interpret_cases tree start arguments with
    declines | help | ⟨other, written, validated, same, acceptable⟩
  · rw [accepted] at declines
    cases declines
  · cases accepted.symm.trans help
  · obtain rfl := Decision.validate.inj (accepted.symm.trans validated)
    rw [same] at wanted
    have examined := acceptable _ (mem_switches_of_value? wanted)
    simp only [examine, wanted] at examined
    by_contra unknown
    simp [unknown] at examined

/-! ## Checking a project -/

/-- The settings of a run with what a request overrides. -/
def Request.overriding (request : Request) (settings : Settings) : Settings :=
  match request.lockfileReader with
  | none => settings
  | some name => { settings with lockfileReader := name }

/-- The gate that a request asks for. -/
def Request.gate (request : Request) (headroom : Headroom) (settings : Settings) : Gate where
  settings := request.overriding settings
  project := Path.anchored request.project
  strict := request.strict
  prune := request.prune
  fix := request.fix
  headroom := headroom

theorem fulfil_of_ok (named : Settings.ofEnvironment surroundings.environment = .ok settings) :
    fulfil surroundings request =
      check (request.gate surroundings.headroom settings) request.quiet := by
  rw [fulfil, named]
  rfl

theorem fulfil_of_error {name : Text}
    (unknown : Settings.ofEnvironment surroundings.environment = .error name) :
    fulfil surroundings request = complain (Settings.unknownReaderMessage name) := by
  rw [fulfil, unknown]

/-- The settings of the environment name a reader that exists. -/
theorem mem_readerNames_of_ofEnvironment {environment : Environment}
    (named : Settings.ofEnvironment environment = .ok settings) :
    settings.lockfileReader ∈ Settings.readerNames := by
  have usual : Settings.standard.lockfileReader ∈ Settings.readerNames := by decide
  rw [Settings.ofEnvironment] at named
  split at named
  case h_1 | h_2 =>
    rw [← Except.ok.inj named]
    split <;> exact usual
  case h_3 written _ _ =>
    by_cases known : Text.lower (Text.trim written) ∈ Settings.readerNames
    · rw [if_pos known] at named
      exact Except.ok.inj named ▸ known
    · rw [if_neg known] at named
      cases named

theorem mem_readerNames_of_request
    (accepted : interpret tree start arguments = .validate request)
    {environment : Environment} (named : Settings.ofEnvironment environment = .ok settings)
    (headroom : Headroom) :
    (request.gate headroom settings).settings.lockfileReader ∈ Settings.readerNames := by
  rw [Request.gate, Request.overriding]
  split
  case h_1 => exact mem_readerNames_of_ofEnvironment named
  case h_2 name wanted => exact mem_readerNames_of_interpret accepted wanted

section Check

variable {gate : Gate}

/-- Printing the report of a run that returned gives its exit status. -/
theorem report_returns (due : .reported ∈ session.phase.successors) (result : Result)
    (settings : Settings) (quiet : Bool) :
    (runFrom session (Gate.report result (Report.print settings quiet))).1 =
      .ok result.exitCode := by
  obtain ⟨reported, advanced, -, -, entered⟩ := Gate.advance_returns due
  rw [Gate.report_eq, Action.runFrom_bind_of_ok advanced, Report.print]
  simp only [Action.runFrom_bind, Action.runFrom_note, Gate.leave, Gate.runFrom_advance, entered,
    Phase.successors, List.mem_singleton, if_true, Action.runFrom_log, Action.runFrom_pure]

/-- An obstacle that does not concern the manifest ends a check, and no file is changed. -/
theorem check_fails (idle : session.phase = .idle) (quiet : Bool)
    (obstacle : gate.Obstacle session.tree session.tool failure)
    (other : failure.concernsManifest = false) :
    (runFrom session (check gate quiet)).1 = .error failure ∧
      (runFrom session (check gate quiet)).2.tree = session.tree := by
  have failed := Gate.run_fails idle obstacle
  rw [check, Action.runFrom_bind, Action.runFrom_attemptOnManifest]
  rcases ended : runFrom session gate.run with ⟨outcome, after⟩
  rw [ended] at failed
  obtain rfl : outcome = .error failure := failed
  simp only [other, Bool.false_eq_true, if_false]
  exact ⟨trivial, Gate.tree_of_run_fails ended⟩

/-- Without such an obstacle a check gives a status. -/
theorem check_returns (idle : session.phase = .idle) (quiet : Bool)
    (clear : ∀ failure, gate.Obstacle session.tree session.tool failure →
      failure.concernsManifest = true) :
    (runFrom session (check gate quiet)).1 = .ok 0 ∨
      (runFrom session (check gate quiet)).1 = .ok 1 := by
  rw [check, Action.runFrom_bind, Action.runFrom_attemptOnManifest]
  rcases ended : runFrom session gate.run with ⟨failure | result, after⟩
  · have concerns := clear failure ((Gate.run_fails_iff idle).mp (congrArg Prod.fst ended))
    simp only [concerns, if_true, complain, printLines, Action.runFrom_bind, Action.runFrom_note,
      Action.runFrom_pure]
    exact .inr trivial
  · rcases Gate.run_ends idle ended with ⟨-, due⟩ | ⟨⟨_, failed⟩, -⟩
    · dsimp only
      rw [report_returns due, Result.exitCode]
      split
      · exact .inl rfl
      · exact .inr rfl
    · cases failed

end Check

/-! ## Calling the command -/

/-- Whether a project would be checked but the environment names no level of the log. -/
def LevelUnknown (surroundings : Surroundings) (tree : FileTree) (arguments : List Text) : Prop :=
  ∃ request, interpret tree surroundings.directory arguments = .validate request ∧
    LogStyle.ofEnvironment? surroundings.environment request.quiet = none

/-- What makes a call break off, with the failure that escapes: a directory that is not even
looked for, an unknown level of the log, or an obstacle to the run that does not concern the
manifest. -/
inductive BreaksOff (surroundings : Surroundings) (tree : FileTree) (arguments : List Text) :
    Failure → Prop
  | directory {failure : Failure}
      (abandoned : interpret tree surroundings.directory arguments = .abandon failure) :
      BreaksOff surroundings tree arguments failure
  | logLevel (unknown : LevelUnknown surroundings tree arguments) :
      BreaksOff surroundings tree arguments .unknownLogLevel
  | obstacle {request : Request} {style : LogStyle} {settings : Settings} {failure : Failure}
      (accepted : interpret tree surroundings.directory arguments = .validate request)
      (known : LogStyle.ofEnvironment? surroundings.environment request.quiet = some style)
      (named : Settings.ofEnvironment surroundings.environment = .ok settings)
      (obstacle : (request.gate surroundings.headroom settings).Obstacle tree surroundings.tool
        failure)
      (other : failure.concernsManifest = false) :
      BreaksOff surroundings tree arguments failure

/-- The failures that can escape if nothing in the file tree is denied to the caller: a null
character in the path of the project directory, a path or a name that is too long, directories
that lie within too many others, an unknown level of the log, and what a reader finds in a
lockfile beyond mere faults of it. -/
inductive Escaping : Failure → Prop
  | nul {written : Text} (held : '\x00' ∈ written) : Escaping (.path ⟨.holdsNul, written, none⟩)
  | length (written : Text) : Escaping (.path ⟨.nameTooLong, written, none⟩)
  | depth : Escaping .tooDeep
  | logLevel : Escaping .unknownLogLevel
  | lockfile (place : Path) {error : Lockfile.ReadError} (other : ∀ fault, error ≠ .fault fault) :
      Escaping (.lockfile place error)

/-- Whether arguments or environment are malformed: the arguments are refused, or they are
accepted but the environment names no reader of lockfiles or no level of the log. -/
inductive Malformed (surroundings : Surroundings) (tree : FileTree) (arguments : List Text) : Prop
  | usage {error : UsageError}
      (refused : interpret tree surroundings.directory arguments = .refuse error)
  | reader {request : Request} {name : Text}
      (accepted : interpret tree surroundings.directory arguments = .validate request)
      (unknown : Settings.ofEnvironment surroundings.environment = .error name)
  | logLevel (unknown : LevelUnknown surroundings tree arguments)

/-- Whether a call answers with status zero or one. -/
def Outcome.Answers (outcome : Outcome) : Prop :=
  outcome.status = .ok 0 ∨ outcome.status = .ok 1

theorem escaping_of_obstacle {gate : Gate} {tool : Option Lockfile.Tool}
    (known : gate.settings.lockfileReader ∈ Settings.readerNames)
    (obstacle : gate.Obstacle tree tool failure) (other : failure.concernsManifest = false) :
    Escaping failure := by
  cases obstacle with
  | root unexamined =>
      obtain ⟨root, -, rfl⟩ := Source.eq_of_failure_discover unexamined
      exact .length _
  | depth => exact .depth
  | unread searched unread =>
      cases unread with
      | manifest unreadable =>
          rw [Manifest.textAt] at unreadable
          split at unreadable
          case h_1 unexamined =>
            rw [← Except.error.inj unreadable, FileTree.eq_of_test_eq_error unexamined]
            exact .length _
          case h_2 => cases unreadable
          case h_3 =>
            split at unreadable
            case h_1 =>
              rw [← Except.error.inj unreadable] at other
              cases other
            case h_2 => cases unreadable
      | lockfile _ unexamined =>
          rw [FileTree.eq_of_test_eq_error unexamined]
          exact .length _
      | reader _ _ unknown =>
          obtain ⟨reader, chosen⟩ := Gate.exists_chosen?_of_known known _ tool
          cases unknown.symm.trans chosen
      | packages _ _ _ _ beyond => exact .lockfile _ beyond

theorem BreaksOff.escaping (breaks : BreaksOff surroundings tree arguments failure) :
    Escaping failure := by
  cases breaks with
  | directory abandoned =>
      obtain ⟨written, held, rfl⟩ := nul_mem_of_interpret abandoned
      exact .nul held
  | logLevel => exact .logLevel
  | obstacle accepted _ named obstacle other =>
      exact escaping_of_obstacle (mem_readerNames_of_request accepted named _) obstacle other

/-- The failure escapes, and no file is changed. -/
theorem BreaksOff.run_eq (breaks : BreaksOff surroundings tree arguments failure) :
    (run surroundings tree arguments).status = .error failure ∧
      (run surroundings tree arguments).session.tree = tree := by
  cases breaks with
  | directory abandoned =>
      rw [run, abandoned]
      exact ⟨rfl, rfl⟩
  | logLevel unknown =>
      obtain ⟨request, accepted, unknown⟩ := unknown
      rw [run, accepted]
      simp only [unknown]
      exact ⟨rfl, rfl⟩
  | obstacle accepted known named obstacle other =>
      have started : (Session.start tree surroundings.tool).phase = .idle := rfl
      rw [run, accepted]
      simp only [known, fulfil_of_ok named]
      exact check_fails started _ obstacle other

theorem answers_of_not_breaksOff
    (unbroken : ∀ failure, ¬BreaksOff surroundings tree arguments failure) :
    (run surroundings tree arguments).Answers := by
  rw [run]
  cases interpreted : interpret tree surroundings.directory arguments with
  | refuse error => exact .inr rfl
  | abandon failure => exact absurd (.directory interpreted) (unbroken failure)
  | help => exact .inl rfl
  | validate request =>
      cases known : LogStyle.ofEnvironment? surroundings.environment request.quiet with
      | none => exact absurd (.logLevel ⟨request, interpreted, known⟩) (unbroken .unknownLogLevel)
      | some style =>
          have started : (Session.start tree surroundings.tool).phase = .idle := rfl
          cases named : Settings.ofEnvironment surroundings.environment with
          | error name =>
              simp only [known, fulfil_of_error named]
              exact .inr rfl
          | ok settings =>
              simp only [known, fulfil_of_ok named]
              refine check_returns started request.quiet fun failure obstacle => ?_
              by_contra other
              exact unbroken failure
                (.obstacle interpreted known named obstacle (Bool.eq_false_iff.mpr other))

theorem run_of_malformed (malformed : Malformed surroundings tree arguments) :
    (run surroundings tree arguments).session.tree = tree ∧
      ((run surroundings tree arguments).status = .ok 1 ↔
        ¬LevelUnknown surroundings tree arguments) := by
  by_cases unknown : LevelUnknown surroundings tree arguments
  · obtain ⟨failed, kept⟩ := (BreaksOff.logLevel unknown).run_eq
    exact ⟨kept, by simp [failed, unknown]⟩
  · suffices answered : (run surroundings tree arguments).session.tree = tree ∧
        (run surroundings tree arguments).status = .ok 1 from
      ⟨answered.1, iff_of_true answered.2 unknown⟩
    cases malformed with
    | usage refused =>
        rw [run, refused]
        exact ⟨rfl, rfl⟩
    | @reader request name accepted unnamed =>
        cases known : LogStyle.ofEnvironment? surroundings.environment request.quiet with
        | none => exact absurd ⟨request, accepted, known⟩ unknown
        | some style =>
            rw [run, accepted]
            simp only [known, fulfil_of_error unnamed]
            exact ⟨rfl, rfl⟩
    | logLevel met => exact absurd met unknown

/-- The command answers unless it breaks off. Whatever the arguments, the surroundings and the file
tree, in which nothing is denied to the caller, the status is zero or one exactly if nothing makes
the call break off, and a failure escapes exactly if it makes the call do so. Then it is one of
those that can escape (`Escaping`), which limits to nesting take part in, and no file has been
changed. Nor is one changed by a call that is malformed, whose status is one exactly if the level
of the log is known. -/
theorem answers_iff_not_breaksOff (surroundings : Surroundings) (tree : FileTree)
    (arguments : List Text) :
    ((run surroundings tree arguments).Answers ↔
        ∀ failure, ¬BreaksOff surroundings tree arguments failure) ∧
      (∀ failure, (run surroundings tree arguments).status = .error failure ↔
        BreaksOff surroundings tree arguments failure) ∧
      (∀ failure, (run surroundings tree arguments).status = .error failure →
        Escaping failure ∧ (run surroundings tree arguments).session.tree = tree) ∧
      (Malformed surroundings tree arguments →
        (run surroundings tree arguments).session.tree = tree ∧
          ((run surroundings tree arguments).status = .ok 1 ↔
            ¬LevelUnknown surroundings tree arguments)) := by
  have silenced (failure : Failure) (answers : (run surroundings tree arguments).Answers) :
      (run surroundings tree arguments).status ≠ .error failure := by
    rcases answers with zero | one
    · simp [zero]
    · simp [one]
  have escapes_iff (failure : Failure) : (run surroundings tree arguments).status = .error failure ↔
      BreaksOff surroundings tree arguments failure := by
    refine ⟨fun escaped => ?_, fun breaks => breaks.run_eq.1⟩
    obtain ⟨other, breaks⟩ : ∃ other, BreaksOff surroundings tree arguments other := by
      by_contra none
      exact silenced failure (answers_of_not_breaksOff (not_exists.mp none)) escaped
    obtain rfl := Except.error.inj (breaks.run_eq.1.symm.trans escaped)
    exact breaks
  refine ⟨⟨fun answers failure breaks => ?_, answers_of_not_breaksOff⟩, escapes_iff,
    fun failure escaped => ?_, run_of_malformed⟩
  · exact silenced failure answers breaks.run_eq.1
  · have breaks := (escapes_iff failure).mp escaped
    exact ⟨breaks.escaping, breaks.run_eq.2⟩

/-- An environment that names a reader of lockfiles that does not exist. -/
def unreadableSurroundings : Surroundings := ⟨[], ⟨none, some "yaml", none, none⟩, none, .usual⟩

/-- What the small project is checked for when there are no arguments. -/
def plainRequest : Request := ⟨[], false, false, true, false, none⟩

theorem interpret_smallProject : interpret Gate.smallProject [] [] = .validate plainRequest := by
  rfl

theorem answers_unreadableSurroundings :
    (run unreadableSurroundings Gate.smallProject []).session.tree = Gate.smallProject ∧
      (run unreadableSurroundings Gate.smallProject []).status = .ok 1 := by
  obtain ⟨-, -, -, malformed⟩ :=
    answers_iff_not_breaksOff unreadableSurroundings Gate.smallProject []
  have unnamed : Settings.ofEnvironment unreadableSurroundings.environment = .error "yaml" := rfl
  have known : LogStyle.ofEnvironment? unreadableSurroundings.environment plainRequest.quiet =
      some ⟨20, false⟩ := rfl
  obtain ⟨kept, answered_iff⟩ := malformed (.reader interpret_smallProject unnamed)
  refine ⟨kept, answered_iff.mpr ?_⟩
  rintro ⟨request, accepted, unknown⟩
  obtain rfl := Decision.validate.inj (interpret_smallProject.symm.trans accepted)
  cases known.symm.trans unknown

/-- An environment that names a level of the log that does not exist. -/
def verboseSurroundings : Surroundings := ⟨[], ⟨none, none, some "verbose", none⟩, none, .usual⟩

/-- An unknown level of the log is malformed, and no status answers it. -/
theorem run_verboseSurroundings_fails :
    Malformed verboseSurroundings Gate.smallProject [] ∧
      (run verboseSurroundings Gate.smallProject []).status = .error .unknownLogLevel ∧
      ¬(run verboseSurroundings Gate.smallProject []).Answers := by
  have unknown : LevelUnknown verboseSurroundings Gate.smallProject [] :=
    ⟨plainRequest, interpret_smallProject, rfl⟩
  have escaped := (BreaksOff.logLevel unknown).run_eq.1
  refine ⟨.logLevel unknown, escaped, ?_⟩
  rintro (zero | one)
  · cases escaped.symm.trans zero
  · cases escaped.symm.trans one

end CommandLine
end DependencyGate

/-
# Calls of a gate

A gate can be called as often as one likes and in any order, to run or to report a result, and
its surroundings may change between the calls. Its phases go their way once all the same: a run
gets past its first phase only if no run was called before it, and a report only behind a run
that returned and in front of every other report that did. Any other call is refused, and then
everything stays as it was. A renderer may print, write and fail, and may itself call the gate;
what it cannot do is to enter a phase. If it does not tell of phases in the gate's name either,
what is told of phases are the steps of the way, each in its turn.
-/

import DependencyGate.Proofs.Run.Verdict
import DependencyGate.Run.Report

namespace DependencyGate

open DependencyGate.Action (runFrom Keeps Silent)

variable {α β : Type} {session after : Session}

/-! ## The phases visited -/

namespace Phase

/-- The place of a phase in the order of a run. -/
def rank : Phase → Nat
  | .idle => 0
  | .scanning => 1
  | .parsing => 2
  | .comparing => 3
  | .fixing => 4
  | .pruning => 5
  | .reported => 6
  | .exit => 7

theorem rank_lt_of_mem_successors {previous next : Phase} (follows : next ∈ previous.successors) :
    previous.rank < next.rank := by
  cases previous <;> cases next <;> revert follows <;> decide

theorem scanning_mem_successors {phase : Phase} : .scanning ∈ phase.successors ↔ phase = .idle := by
  cases phase <;> decide

theorem reported_mem_successors {phase : Phase} (follows : .pruning ∈ phase.successors) :
    .reported ∈ phase.successors := by
  cases phase <;> revert follows <;> decide

/-- What is told when a phase is entered from another. -/
def passage (previous next : Phase) : Notice :=
  .logged ⟨.debug, .pipeline, "pipeline.phase",
    [("previous", .text previous.name), ("phase", .text next.name)]⟩

end Phase

namespace Session

/-- The phases that a session has gone through, the present one last. -/
def visited (session : Session) : List Phase := session.past ++ [session.phase]

/-- What has been told of phases. -/
def passages (session : Session) : List Notice := session.transcript.filter Notice.tellsPhase

/-- Where a session stands: the phases visited, and what has been told of phases. -/
def standing (session : Session) : List Phase × List Notice :=
  (session.visited, session.passages)

theorem silent_standing : Silent standing := by
  intro session notices mute
  have none : notices.filter Notice.tellsPhase = [] :=
    List.filter_eq_nil_iff.mpr fun notice listed => by simp [mute notice listed]
  simp [standing, visited, passages, none]

theorem phase_eq_of_visited_eq (same : after.visited = session.visited) :
    after.phase = session.phase :=
  List.singleton_inj.mp (List.append_inj' same rfl).2

/-- Whether the phases visited are a path: it starts idle and goes on to successors. -/
structure OnPath (session : Session) : Prop where
  starts : session.visited.head? = some .idle
  follows : session.visited.IsChain fun previous next => next ∈ previous.successors

/-- The phases visited never go backwards. -/
theorem OnPath.ascends (path : session.OnPath) :
    (session.visited.map Phase.rank).Pairwise (· < ·) := by
  rw [← List.isChain_iff_pairwise, List.isChain_map]
  exact path.follows.imp fun _ _ => Phase.rank_lt_of_mem_successors

/-- Whether each step of the path has been told in its turn, and nothing else of phases. -/
def TellsPath (session : Session) : Prop :=
  session.passages = List.zipWith Phase.passage session.visited session.visited.tail

theorem onPath_start (tree : FileTree) (tool : Option Lockfile.Tool) :
    (Session.start tree tool).OnPath :=
  ⟨rfl, .singleton _⟩

theorem tellsPath_start (tree : FileTree) (tool : Option Lockfile.Tool) :
    (Session.start tree tool).TellsPath := rfl

theorem zipWith_tail_concat (tell : Phase → Phase → Notice) (front : List Phase)
    (last next : Phase) :
    List.zipWith tell (front ++ [last] ++ [next]) (front ++ [last] ++ [next]).tail =
      List.zipWith tell (front ++ [last]) (front ++ [last]).tail ++ [tell last next] := by
  induction front with
  | nil => rfl
  | cons first front ih =>
      cases front with
      | nil => rfl
      | cons second front => simpa using ih

/-- How a session goes on: it stays on its path, forgets no phase that it has visited, and if it
is mute otherwise, it goes on telling its path. -/
structure GoesOn (mute : Prop) (session after : Session) : Prop where
  onPath : session.OnPath → after.OnPath
  remembers : session.visited <+: after.visited
  tells : mute → session.TellsPath → after.TellsPath

namespace GoesOn

variable {mute : Prop} {between : Session}

theorem trans (first : session.GoesOn mute between) (second : between.GoesOn mute after) :
    session.GoesOn mute after where
  onPath path := second.onPath (first.onPath path)
  remembers := first.remembers.trans second.remembers
  tells muted told := second.tells muted (first.tells muted told)

theorem of_visited_eq (same : after.visited = session.visited)
    (told : mute → after.passages = session.passages) : session.GoesOn mute after where
  onPath path := ⟨same ▸ path.starts, same ▸ path.follows⟩
  remembers := same ▸ List.prefix_rfl
  tells muted tells := (told muted).trans (same ▸ tells)

theorem of_standing_eq (same : after.standing = session.standing) : session.GoesOn mute after :=
  of_visited_eq (Prod.mk.inj same).1 fun _ => (Prod.mk.inj same).2

/-- A session that enters a successor of its phase, and tells of it, goes on. -/
theorem of_enters {next : Phase} (follows : next ∈ session.phase.successors)
    (entered : after.visited = session.visited ++ [next])
    (told : after.passages = session.passages ++ [session.phase.passage next]) :
    session.GoesOn mute after where
  onPath path := by
    refine ⟨?_, ?_⟩
    · rw [entered, List.head?_append, path.starts]
      rfl
    · rw [entered]
      refine path.follows.append (.singleton _) ?_
      intro last isLast _ isNext
      obtain rfl : session.phase = last := by simpa [visited] using isLast
      obtain rfl : next = _ := by simpa using isNext
      exact follows
  remembers := entered ▸ List.prefix_append _ _
  tells _ tells := by
    rw [TellsPath, told, tells, entered, visited, zipWith_tail_concat]

end GoesOn

end Session

namespace Gate

variable {gate : Gate} {phase : Phase} {step : Action α} {next : α → Action β} {mute : Prop}

/-- Whether sessions go on with a step. -/
def KeepsPath (mute : Prop) (step : Action α) : Prop :=
  ∀ session : Session, session.GoesOn mute (runFrom session step).2

theorem keepsPath_of_keeps (keeps : Keeps Session.standing step) : KeepsPath mute step :=
  fun session => .of_standing_eq (keeps session)

theorem KeepsPath.bind (first : KeepsPath mute step)
    (second : ∀ value, KeepsPath mute (next value)) :
    KeepsPath mute (step >>= next) := by
  intro session
  have kept := first session
  rw [Action.runFrom_bind]
  generalize runFrom session step = ended at kept
  rcases ended with ⟨failure | value, between⟩
  · exact kept
  · exact kept.trans (second value between)

theorem keepsPath_advance (next : Phase) : KeepsPath mute (advance next) := by
  intro session
  rw [runFrom_advance]
  split
  case isTrue follows =>
    refine .of_enters follows rfl ?_
    rw [Session.passages, List.filter_append]
    rfl
  case isFalse => exact .of_standing_eq rfl

theorem Enters.keepsPath (enters : Enters Session.standing phase step) : KeepsPath mute step := by
  obtain ⟨rest, rfl, kept⟩ := enters
  exact (keepsPath_advance phase).bind fun _ => keepsPath_of_keeps kept

theorem keepsPath_settle (gate : Gate) (compared : Result) :
    KeepsPath mute (gate.settle compared) := by
  rw [settle_eq]
  refine KeepsPath.bind ?_ fun fixed => ?_
  · rw [settleMissing]
    split
    · exact (enters_addMissing Session.silent_standing (fun _ _ => rfl) gate compared).keepsPath
    · exact keepsPath_of_keeps (Action.keeps_pure _)
  · rw [settleUnused]
    split
    · exact (enters_removeUnused Session.silent_standing (fun _ _ => rfl) gate fixed).keepsPath
    · exact keepsPath_of_keeps (Action.keeps_pure _)

theorem keepsPath_run (gate : Gate) : KeepsPath mute gate.run := by
  rw [run_eq]
  apply KeepsPath.bind (enters_scan Session.silent_standing gate).keepsPath
  intro used
  apply KeepsPath.bind (enters_parse Session.silent_standing gate used).keepsPath
  intro parsed
  exact .bind (enters_compare Session.silent_standing gate parsed).keepsPath
    fun compared => keepsPath_settle gate compared

/-! ## Where a run ends -/

theorem Enters.phase_eq (enters : Enters Session.phase phase step)
    (follows : phase ∈ session.phase.successors) : (runFrom session step).2.phase = phase := by
  obtain ⟨rest, rfl, kept⟩ := enters
  obtain ⟨between, advanced, -, -, entered⟩ := advance_returns follows
  rw [Action.runFrom_bind_of_ok advanced, kept between, entered]

/-- A step is refused whose phase must not follow, and does nothing. -/
theorem Enters.refused {γ : Type} {part : Session → γ} (enters : Enters part phase step)
    (early : phase ∉ session.phase.successors) :
    runFrom session step = (.error (.phaseOrder session.phase phase), session) := by
  obtain ⟨rest, rfl, -⟩ := enters
  rw [Action.runFrom_bind, runFrom_advance, if_neg early]

theorem pruning_mem_successors_settleMissing (gate : Gate)
    (comparing : session.phase = .comparing) (compared : Result) :
    .pruning ∈ (runFrom session (gate.settleMissing compared)).2.phase.successors := by
  rw [settleMissing]
  split
  · rw [(enters_addMissing Action.silent_phase (fun _ _ => rfl) gate compared).phase_eq
      (by rw [comparing]; decide)]
    decide
  · rw [Action.runFrom_pure, comparing]
    decide

theorem reported_mem_successors_settleUnused (follows : .pruning ∈ session.phase.successors)
    (fixed : Result) :
    .reported ∈ (runFrom session (gate.settleUnused fixed)).2.phase.successors := by
  rw [settleUnused]
  split
  · rw [(enters_removeUnused Action.silent_phase (fun _ _ => rfl) gate fixed).phase_eq follows]
    decide
  · exact Phase.reported_mem_successors follows

/-- From the comparison on, a report may follow. -/
theorem reported_mem_successors_settle (gate : Gate) (comparing : session.phase = .comparing)
    (compared : Result) :
    .reported ∈ (runFrom session (gate.settle compared)).2.phase.successors := by
  have follows := pruning_mem_successors_settleMissing gate comparing compared
  rw [settle_eq, Action.runFrom_bind]
  generalize runFrom session (gate.settleMissing compared) = ended at follows
  rcases ended with ⟨failure | fixed, between⟩
  · exact Phase.reported_mem_successors follows
  · exact reported_mem_successors_settleUnused follows fixed

/-- A run that returns ends where a report may follow. A run that fails does so while it scans
or reads, and stays there. -/
theorem run_ends {outcome : Except Failure Result} (idle : session.phase = .idle)
    (ended : runFrom session gate.run = (outcome, after)) :
    ((∃ result, outcome = .ok result) ∧ .reported ∈ after.phase.successors) ∨
      (∃ failure, outcome = .error failure) ∧ after.phase ∈ [.scanning, .parsing] := by
  rw [run_eq, Action.runFrom_bind] at ended
  have first : (runFrom session gate.scan).2.phase = .scanning :=
    (enters_scan Action.silent_phase gate).phase_eq (by rw [idle]; decide)
  split at ended
  case h_2 failure stopped scanned =>
    obtain ⟨rfl, rfl⟩ := Prod.mk.inj ended
    rw [scanned] at first
    exact .inr ⟨⟨failure, rfl⟩, by rw [first]; decide⟩
  case h_1 used scanning scanned =>
    rw [scanned] at first
    have second : (runFrom scanning (gate.parse used)).2.phase = .parsing :=
      (enters_parse Action.silent_phase gate used).phase_eq (by rw [first]; decide)
    rw [Action.runFrom_bind] at ended
    split at ended
    case h_2 failure stopped read =>
      obtain ⟨rfl, rfl⟩ := Prod.mk.inj ended
      rw [read] at second
      exact .inr ⟨⟨failure, rfl⟩, by rw [second]; decide⟩
    case h_1 parsed parsing read =>
      rw [read] at second
      obtain ⟨kept, text, reader, lockfileFound, found, -⟩ := parse_eq_ok read
      rw [← kept] at found
      obtain ⟨comparing, judged, same, entered⟩ : ∃ comparing,
          runFrom parsing (gate.compare parsed) = (.ok (gate.compared parsed), comparing) ∧
            comparing.tree = parsing.tree ∧ comparing.phase = .comparing :=
        compare_returns (by rw [second]; decide) parsed
      rw [← same] at found
      rw [Action.runFrom_bind_of_ok judged] at ended
      obtain ⟨result, settled, done⟩ := settle_returns entered found (gate.compared parsed)
      have due := reported_mem_successors_settle gate entered (gate.compared parsed)
      rw [done] at ended due
      obtain ⟨rfl, rfl⟩ := Prod.mk.inj ended
      exact .inl ⟨⟨result, rfl⟩, due⟩

/-! ## Sequences of calls -/

/-- A way to render a result. It may do what it likes with its surroundings and may fail, but
during a report it enters no phase. -/
structure Renderer where
  render : Result → Action Unit
  discreet : ∀ (result : Result) (session : Session), session.phase = .reported →
    (runFrom session (render result)).2.visited = session.visited

/-- Whether a renderer tells of no phase in the gate's name. -/
def Renderer.IsMute (renderer : Renderer) : Prop :=
  ∀ (result : Result) (session : Session), session.phase = .reported →
    (runFrom session (renderer.render result)).2.passages = session.passages

theorem keeps_standing_print (settings : Settings) (quiet : Bool) (result : Result) :
    Keeps Session.standing (Report.print settings quiet result) := by
  refine Action.keeps_note Session.silent_standing ?_
  intro notice listed
  obtain ⟨line, -, rfl⟩ := List.mem_map.mp listed
  rfl

/-- The renderer that prints the report for people. -/
def Renderer.printing (settings : Settings) (quiet : Bool) : Renderer where
  render := Report.print settings quiet
  discreet result session _ :=
    (Prod.mk.inj (keeps_standing_print settings quiet result session)).1

theorem isMute_printing (settings : Settings) (quiet : Bool) :
    (Renderer.printing settings quiet).IsMute :=
  fun result session _ => (Prod.mk.inj (keeps_standing_print settings quiet result session)).2

/-- A call of a gate, or a change of its surroundings between two calls. -/
inductive Call
  | run
  | report (result : Result) (renderer : Renderer)
  | change (tree : FileTree) (tool : Option Lockfile.Tool)

/-- What a call gives if it returns. -/
inductive Answer
  | result (result : Result)
  | status (code : Nat)
  | nothing

/-- Whether a call has no renderer that tells of phases. -/
def Call.IsMute : Call → Prop
  | .report _ renderer => renderer.IsMute
  | .run | .change _ _ => True

/-- The phase that a call has to enter first. -/
def Call.opening? : Call → Option Phase
  | .run => some .scanning
  | .report _ _ => some .reported
  | .change _ _ => none

/-- What a call does. -/
def perform (gate : Gate) : Call → Action Answer
  | .run => do return .result (← gate.run)
  | .report result renderer => do return .status (← report result renderer.render)
  | .change tree tool => do
      modify fun session => { session with tree := tree, tool := tool }
      return .nothing

/-- A call as it was made: the session it found, how it ended, and the session it left. -/
structure Turn where
  call : Call
  before : Session
  outcome : Except Failure Answer
  after : Session

/-- The turn that a call takes in a session. -/
def turn (gate : Gate) (session : Session) (call : Call) : Turn :=
  let ended := runFrom session (gate.perform call)
  ⟨call, session, ended.1, ended.2⟩

/-- The turns that calls take one after another. -/
def turns (gate : Gate) (session : Session) : List Call → List Turn
  | [] => []
  | call :: later => gate.turn session call :: gate.turns (gate.turn session call).after later

namespace Turn

variable {turn : Turn}

/-- Whether the call is one to run. -/
def Runs (turn : Turn) : Prop := turn.call = .run

/-- Whether the call is one to report. -/
def Reports (turn : Turn) : Prop := ∃ result renderer, turn.call = .report result renderer

/-- Whether the call returned. -/
def Returns (turn : Turn) : Prop := ∃ answer, turn.outcome = .ok answer

/-- Whether the call got past its first phase. Behind it, a report calls its renderer. -/
def Passes (turn : Turn) : Prop :=
  ∃ opening, turn.call.opening? = some opening ∧
    (runFrom turn.before (advance opening)).1 = .ok ()

/-- Whether a report may follow the given turns: one of them was a run that returned, and none
a report that got past its first phase. -/
def ReportDue (earlier : List Turn) : Prop :=
  (∃ turn ∈ earlier, turn.Runs ∧ turn.Returns) ∧ ¬∃ turn ∈ earlier, turn.Reports ∧ turn.Passes

/-- Whether a turn behind the given ones keeps their order: the phases visited until then are a
path that goes forwards and goes on from where it was, and it has been told unless a renderer told
of phases too; the call gets past its first phase exactly if it is its time, and otherwise it is
refused and leaves everything as it was. -/
structure IsOrderly (earlier : List Turn) (turn : Turn) : Prop where
  onPath : turn.after.OnPath
  ascends : (turn.after.visited.map Phase.rank).Pairwise (· < ·)
  remembers : turn.before.visited <+: turn.after.visited
  told : (∀ other ∈ earlier ++ [turn], other.call.IsMute) → turn.after.TellsPath
  run_passes_iff : turn.Runs → (turn.Passes ↔ ¬∃ other ∈ earlier, other.Runs)
  report_passes_iff : turn.Reports → (turn.Passes ↔ ReportDue earlier)
  refused : ∀ opening, turn.call.opening? = some opening → ¬turn.Passes →
    turn.outcome = .error (.phaseOrder turn.before.phase opening) ∧ turn.after = turn.before

theorem passes_iff {opening : Phase} (opens : turn.call.opening? = some opening) :
    turn.Passes ↔ opening ∈ turn.before.phase.successors := by
  rw [Passes, opens]
  simp only [Option.some.injEq, exists_eq_left', runFrom_advance]
  by_cases follows : opening ∈ turn.before.phase.successors <;> simp [follows]

end Turn

/-! ## How a turn goes -/

section Turns

variable {call : Call} {opening : Phase} {result : Result} {renderer : Renderer}

/-- The end of a report, behind its renderer. -/
def leave (result : Result) : Action Nat := do
  advance .exit
  Action.log ⟨.debug, .pipeline, "pipeline.exit", [("exit_code", .number result.exitCode)]⟩
  return result.exitCode

theorem report_eq (result : Result) (render : Result → Action Unit) :
    report result render =
      advance .reported >>= fun _ => render result >>= fun _ => leave result := rfl

theorem enters_leave {γ : Type} {part : Session → γ} (silent : Silent part) (result : Result) :
    Enters part .exit (leave result) :=
  ⟨_, rfl, .bind (Action.keeps_log silent rfl) fun _ => Action.keeps_pure _⟩

/-- A report that has been entered stays on the path, and no other can follow it. -/
theorem rendered_ends (reported : session.phase = .reported) (renderer : Renderer)
    (result : Result) :
    (runFrom session (renderer.render result >>= fun _ => leave result)).2.phase ∈
        [.reported, .exit] ∧
      session.GoesOn renderer.IsMute
        (runFrom session (renderer.render result >>= fun _ => leave result)).2 := by
  have same := renderer.discreet result session reported
  have rendered : session.GoesOn renderer.IsMute (runFrom session (renderer.render result)).2 :=
    .of_visited_eq same fun mute => mute result session reported
  rw [Action.runFrom_bind]
  generalize runFrom session (renderer.render result) = ended at same rendered
  have stays : ended.2.phase = .reported := (Session.phase_eq_of_visited_eq same).trans reported
  rcases ended with ⟨failure | value, between⟩
  · dsimp only at stays ⊢
    exact ⟨by rw [stays]; decide, rendered⟩
  · dsimp only at stays ⊢
    refine ⟨?_, rendered.trans ((enters_leave Session.silent_standing result).keepsPath between)⟩
    rw [(enters_leave Action.silent_phase result).phase_eq (by rw [stays]; decide)]
    decide

/-- A call is refused whose first phase must not follow, and does nothing. -/
theorem turn_refused (opens : call.opening? = some opening)
    (early : opening ∉ session.phase.successors) :
    gate.turn session call =
      ⟨call, session, .error (.phaseOrder session.phase opening), session⟩ := by
  have refused : runFrom session (gate.perform call) =
      (.error (.phaseOrder session.phase opening), session) := by
    cases call with
    | run =>
        obtain rfl := Option.some.inj opens
        have scanned := (enters_scan Action.silent_phase gate).refused early
        rw [perform, run_eq]
        exact Action.runFrom_bind_of_error (Action.runFrom_bind_of_error scanned)
    | report result renderer =>
        obtain rfl := Option.some.inj opens
        have advanced : runFrom session (advance .reported) =
            (.error (.phaseOrder session.phase .reported), session) := by
          rw [runFrom_advance, if_neg early]
        rw [perform, report_eq]
        exact Action.runFrom_bind_of_error (Action.runFrom_bind_of_error advanced)
    | change => cases opens
  rw [turn, refused]

/-- A renderer may call the gate: while its result is reported, every call is discreet. -/
theorem standing_turn_of_reported (reported : session.phase = .reported) (gate : Gate)
    (call : Call) : (gate.turn session call).after.standing = session.standing := by
  cases call with
  | run => rw [turn_refused rfl (by rw [reported]; decide)]
  | report => rw [turn_refused rfl (by rw [reported]; decide)]
  | change => rfl

theorem turn_run (idle : session.phase = .idle) :
    ((gate.turn session .run).Returns ∧
        .reported ∈ (gate.turn session .run).after.phase.successors) ∨
      ¬(gate.turn session .run).Returns ∧
        (gate.turn session .run).after.phase ∈ [.scanning, .parsing] := by
  simp only [turn, Turn.Returns, perform]
  rcases ended : runFrom session gate.run with ⟨outcome, after⟩
  rcases run_ends idle ended with ⟨⟨result, rfl⟩, due⟩ | ⟨⟨failure, rfl⟩, stuck⟩
  · rw [Action.runFrom_bind_of_ok ended]
    exact .inl ⟨⟨_, rfl⟩, due⟩
  · rw [Action.runFrom_bind_of_error ended]
    exact .inr ⟨fun ⟨_, returned⟩ => (nomatch returned), stuck⟩

theorem turn_report (due : .reported ∈ session.phase.successors) :
    (gate.turn session (.report result renderer)).after.phase ∈ [.reported, .exit] ∧
      session.GoesOn renderer.IsMute (gate.turn session (.report result renderer)).after := by
  obtain ⟨between, advanced, -, -, entered⟩ := advance_returns due
  have begun : session.GoesOn renderer.IsMute (runFrom session (advance .reported)).2 :=
    keepsPath_advance .reported session
  rw [advanced] at begun
  obtain ⟨ends, goesOn⟩ := rendered_ends entered renderer result
  have same : (gate.turn session (.report result renderer)).after =
      (runFrom between (renderer.render result >>= fun _ => leave result)).2 := by
    simp only [turn, perform, report_eq]
    rw [Action.runFrom_bind, Action.runFrom_bind_of_ok advanced]
    rcases runFrom between (renderer.render result >>= fun _ => leave result) with
      ⟨failure | code, after⟩ <;> rfl
  rw [same]
  exact ⟨ends, begun.trans goesOn⟩

/-- With every turn a session goes on. -/
theorem goesOn_turn (gate : Gate) (session : Session) (call : Call) :
    session.GoesOn call.IsMute (gate.turn session call).after := by
  cases call with
  | run =>
      exact (keepsPath_run gate).bind (fun _ => keepsPath_of_keeps (Action.keeps_pure _)) session
  | report result renderer =>
      by_cases due : .reported ∈ session.phase.successors
      · exact (turn_report due).2
      · rw [turn_refused rfl due]
        exact .of_standing_eq rfl
  | change tree tool => exact .of_standing_eq rfl

/-! ## The order of the turns -/

/-- What the turns so far say about the phase: it is idle until a run is called, reports may
follow as long as one is due, and past them it is once a report got there. -/
structure Accounts (earlier : List Turn) (phase : Phase) : Prop where
  idle_iff : phase = .idle ↔ ¬∃ turn ∈ earlier, turn.Runs
  due_iff : .reported ∈ phase.successors ↔ Turn.ReportDue earlier
  done_iff : phase ∈ [.reported, .exit] ↔ ∃ turn ∈ earlier, turn.Reports ∧ turn.Passes

variable {earlier : List Turn} {turn : Turn}

theorem exists_mem_concat {property : Turn → Prop} :
    (∃ other ∈ earlier ++ [turn], property other) ↔
      (∃ other ∈ earlier, property other) ∨ property turn := by
  simp [or_and_right, exists_or]

theorem accounts_start : Accounts [] .idle where
  idle_iff := by simp
  due_iff := by simp [Phase.successors, Turn.ReportDue]
  done_iff := by simp

/-- A turn that does not get past its first phase leaves the accounts as they are. -/
theorem Accounts.concat_stopped (accounts : Accounts earlier phase)
    (late : turn.Runs → phase ≠ .idle ∧ ¬turn.Returns) (stopped : ¬turn.Passes) :
    Accounts (earlier ++ [turn]) phase where
  idle_iff := by
    rw [exists_mem_concat, not_or, ← accounts.idle_iff]
    exact ⟨fun idle => ⟨idle, fun runs => (late runs).1 idle⟩, And.left⟩
  due_iff := by
    have failed : ¬(turn.Runs ∧ turn.Returns) := fun ⟨runs, returns⟩ => (late runs).2 returns
    simp only [accounts.due_iff, Turn.ReportDue, exists_mem_concat, stopped, failed, and_false,
      or_false]
  done_iff := by
    simp only [accounts.done_iff, exists_mem_concat, stopped, and_false, or_false]

/-- The first run decides whether a report may follow. -/
theorem Accounts.concat_run (accounts : Accounts earlier .idle) (runs : turn.Runs)
    (ended : (turn.Returns ∧ .reported ∈ phase.successors) ∨
      ¬turn.Returns ∧ phase ∈ [.scanning, .parsing]) :
    Accounts (earlier ++ [turn]) phase := by
  have noReport : ¬turn.Reports := fun ⟨_, _, reports⟩ => nomatch runs.symm.trans reports
  have noneReported : ¬∃ other ∈ earlier, other.Reports ∧ other.Passes :=
    mt accounts.done_iff.mpr (by decide)
  have noneRuns := accounts.idle_iff.mp rfl
  have noneReturned : ¬∃ other ∈ earlier, other.Runs ∧ other.Returns :=
    fun ⟨other, listed, runs, _⟩ => noneRuns ⟨other, listed, runs⟩
  constructor
  · simp only [exists_mem_concat, runs, or_true, not_true_eq_false, iff_false]
    rintro rfl
    rcases ended with ⟨-, due⟩ | ⟨-, stuck⟩
    · revert due; decide
    · revert stuck; decide
  · simp only [Turn.ReportDue, exists_mem_concat, noneReported, noneReturned, noReport, runs,
      true_and, false_and, false_or, not_false_eq_true, and_true]
    rcases ended with ⟨returns, due⟩ | ⟨fails, stuck⟩
    · exact iff_of_true due returns
    · refine iff_of_false ?_ fails
      cases phase <;> revert stuck <;> decide
  · simp only [exists_mem_concat, noneReported, noReport, false_and, or_false, iff_false]
    rcases ended with ⟨-, due⟩ | ⟨-, stuck⟩
    · cases phase <;> revert due <;> decide
    · cases phase <;> revert stuck <;> decide

/-- A report that is entered is the last. -/
theorem Accounts.concat_report {before : Phase} (accounts : Accounts earlier before)
    (reports : turn.Reports) (passes : turn.Passes) (due : .reported ∈ before.successors)
    (ended : phase ∈ [.reported, .exit]) : Accounts (earlier ++ [turn]) phase := by
  have noRun : ¬turn.Runs := fun runs =>
    have ⟨_, _, reports⟩ := reports
    nomatch runs.symm.trans reports
  obtain ⟨⟨other, listed, runs, -⟩, -⟩ := accounts.due_iff.mp due
  constructor
  · refine iff_of_false ?_ (not_not.mpr ⟨other, List.mem_append_left _ listed, runs⟩)
    rintro rfl
    revert ended
    decide
  · simp only [Turn.ReportDue, exists_mem_concat, reports, passes, and_self, or_true,
      not_true_eq_false, and_false, iff_false]
    cases phase <;> revert ended <;> decide
  · exact iff_of_true ended (exists_mem_concat.mpr (.inr ⟨reports, passes⟩))

theorem accounts_turn (accounts : Accounts earlier session.phase) (gate : Gate) (call : Call) :
    Accounts (earlier ++ [gate.turn session call]) (gate.turn session call).after.phase := by
  cases call with
  | run =>
      by_cases idle : session.phase = .idle
      · rw [idle] at accounts
        exact accounts.concat_run rfl (turn_run idle)
      · have early := mt Phase.scanning_mem_successors.mp idle
        rw [turn_refused rfl early]
        exact accounts.concat_stopped (fun _ => ⟨idle, fun ⟨_, returned⟩ => nomatch returned⟩)
          (mt (Turn.passes_iff rfl).mp early)
  | report result renderer =>
      by_cases due : .reported ∈ session.phase.successors
      · exact accounts.concat_report ⟨result, renderer, rfl⟩ ((Turn.passes_iff rfl).mpr due) due
          (turn_report due).1
      · rw [turn_refused rfl due]
        exact accounts.concat_stopped (fun runs => nomatch runs) (mt (Turn.passes_iff rfl).mp due)
  | change tree tool =>
      exact accounts.concat_stopped (fun runs => nomatch runs)
        fun ⟨_, opens, _⟩ => nomatch opens

/-- What holds of a session behind some turns: they account for its phase, it is on its path, and
it has told its path unless a renderer told of phases too. -/
structure StandsBehind (earlier : List Turn) (session : Session) : Prop where
  accounts : Accounts earlier session.phase
  onPath : session.OnPath
  told : (∀ turn ∈ earlier, turn.call.IsMute) → session.TellsPath

theorem standsBehind_start (tree : FileTree) (tool : Option Lockfile.Tool) :
    StandsBehind [] (.start tree tool) where
  accounts := accounts_start
  onPath := Session.onPath_start tree tool
  told _ := Session.tellsPath_start tree tool

theorem StandsBehind.concat (stands : StandsBehind earlier session) (gate : Gate) (call : Call) :
    StandsBehind (earlier ++ [gate.turn session call]) (gate.turn session call).after where
  accounts := accounts_turn stands.accounts gate call
  onPath := (goesOn_turn gate session call).onPath stands.onPath
  told mute := by
    obtain ⟨before, last⟩ := List.forall_mem_append.mp mute
    exact (goesOn_turn gate session call).tells (last _ (List.mem_singleton_self _))
      (stands.told before)

/-- A turn keeps the order of those that its session stands behind. -/
theorem StandsBehind.isOrderly (stands : StandsBehind earlier session) (gate : Gate)
    (call : Call) : (gate.turn session call).IsOrderly earlier where
  onPath := (stands.concat gate call).onPath
  ascends := (stands.concat gate call).onPath.ascends
  remembers := (goesOn_turn gate session call).remembers
  told := (stands.concat gate call).told
  run_passes_iff := by
    intro runs
    have opens : (gate.turn session call).call.opening? = some .scanning := by rw [runs]; rfl
    rw [Turn.passes_iff opens, Phase.scanning_mem_successors]
    exact stands.accounts.idle_iff
  report_passes_iff := by
    rintro ⟨result, renderer, reports⟩
    have opens : (gate.turn session call).call.opening? = some .reported := by rw [reports]; rfl
    rw [Turn.passes_iff opens]
    exact stands.accounts.due_iff
  refused := by
    intro opening opens stopped
    have refused : gate.turn session call = _ :=
      turn_refused opens (mt (Turn.passes_iff opens).mpr stopped)
    exact ⟨congrArg Turn.outcome refused, congrArg Turn.after refused⟩

theorem isOrderly_of_turns_eq {before earlier later : List Turn} {calls : List Call}
    (stands : StandsBehind before session)
    (split : gate.turns session calls = earlier ++ turn :: later) :
    turn.IsOrderly (before ++ earlier) := by
  -- each turn joins those that its successors find accounted for
  induction calls generalizing session before earlier with
  | nil => simp [turns] at split
  | cons call calls ih =>
      rw [turns] at split
      cases earlier with
      | nil =>
          obtain ⟨rfl, -⟩ := List.cons.inj split
          rw [List.append_nil]
          exact stands.isOrderly gate call
      | cons first earlier =>
          obtain ⟨rfl, rest⟩ := List.cons.inj split
          have ordered := ih (stands.concat gate call) rest
          rwa [List.append_assoc] at ordered

/-- The phases go their way once. Whatever is called in whatever order, a call gets past its first
phase only in its time, and is refused without any effect at all other times. -/
theorem turns_areOrderly (gate : Gate) (tree : FileTree) (tool : Option Lockfile.Tool)
    (calls : List Call) (earlier later : List Turn) (turn : Turn)
    (split : gate.turns (.start tree tool) calls = earlier ++ turn :: later) :
    turn.IsOrderly earlier := by
  have ordered := isOrderly_of_turns_eq (standsBehind_start tree tool) split
  exact ordered

/-- A report that comes too early, and a run that comes again. -/
def hastyCalls : List Call := [.report .empty (.printing .standard false), .run, .run]

theorem smallCheck_runs_once :
    ∃ first second third,
      smallCheck.turns (.start smallProject none) hastyCalls = [first, second, third] ∧
      first.after = first.before ∧ second.Passes ∧
      third.outcome = .error (.phaseOrder third.before.phase .scanning) ∧
      third.after = third.before ∧ third.after.TellsPath := by
  refine ⟨_, _, _, rfl, ?_, ?_, ?_⟩
  · have ordered := turns_areOrderly smallCheck smallProject none hastyCalls [] _ _ rfl
    have due := ordered.report_passes_iff ⟨_, _, rfl⟩
    exact (ordered.refused _ rfl (by simp [due, Turn.ReportDue])).2
  · have ordered := turns_areOrderly smallCheck smallProject none hastyCalls [_] _ _ rfl
    refine (ordered.run_passes_iff rfl).mpr fun ⟨other, listed, runs⟩ => ?_
    obtain rfl := List.mem_singleton.mp listed
    exact nomatch runs
  · have ordered := turns_areOrderly smallCheck smallProject none hastyCalls [_, _] _ _ rfl
    have late := ordered.refused _ rfl fun passes => (ordered.run_passes_iff rfl).mp passes
      ⟨_, List.mem_cons_of_mem _ (List.mem_singleton_self _), rfl⟩
    refine ⟨late.1, late.2, ordered.told ?_⟩
    simp only [List.cons_append, List.nil_append, List.forall_mem_cons]
    exact ⟨isMute_printing _ _, trivial, trivial, by simp⟩

end Turns

end Gate
end DependencyGate

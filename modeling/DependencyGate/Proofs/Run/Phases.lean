/-
# What the phases do

Each phase of a run, as it acts on a session: what it returns, what it reads and what it
leaves. Only fixing and pruning write, and what pruning leaves of the manifest is the
text it read or the pruned one.
-/

import DependencyGate.Proofs.Lockfile.Locked
import DependencyGate.Proofs.Manifest.Stored
import DependencyGate.Proofs.PackageName
import DependencyGate.Proofs.Source.Search
import DependencyGate.Run.Gate

namespace DependencyGate

open DependencyGate.Action (runFrom Keeps)
open Manifest (Declared)

namespace Gate

variable {gate : Gate} {session after : Session} {result : Result} {used : List Text}

/-- The names that count as used without the own package are those not named like it. -/
theorem mem_withoutOwnPackage {package : Option Text} {name : Text}
    (selected : ∀ name ∈ used, PackageName.isValid name = true ∧
      name ∉ gate.settings.basePackages) :
    name ∈ gate.withoutOwnPackage used package ↔ name ∈ used ∧ package ≠ some name := by
  cases package with
  | none => simp [withoutOwnPackage]
  | some own =>
      rw [withoutOwnPackage, ne_eq, Option.some.injEq]
      split
      case isTrue =>
        rw [PackageName.mem_select, List.mem_singleton]
        constructor
        · rintro ⟨listed, -, -, other⟩
          exact ⟨listed, Ne.symm other⟩
        · rintro ⟨listed, other⟩
          exact ⟨listed, (selected name listed).1, (selected name listed).2, Ne.symm other⟩
      case isFalse absent =>
        refine ⟨fun listed => ⟨listed, ?_⟩, And.left⟩
        rintro rfl
        exact absent listed

theorem mem_missingNames {used declared : List Text} {name : Text} :
    name ∈ missingNames used declared ↔ name ∈ used ∧ name ∉ declared := by
  rw [missingNames, mem_canonical, mem_without]

/-! ## Phases that only read -/

theorem runFrom_advance (next : Phase) (session : Session) :
    runFrom session (advance next) =
      if next ∈ session.phase.successors then
        (.ok (), { session with
          phase := next
          past := session.past ++ [session.phase]
          transcript := session.transcript ++
            [.logged ⟨.debug, .pipeline, "pipeline.phase",
              [("previous", .text session.phase.name), ("phase", .text next.name)]⟩] })
      else (.error (.phaseOrder session.phase next), session) := by
  rw [advance, Action.runFrom_bind, Action.runFrom_get]
  dsimp only
  split
  · rw [Action.runFrom_bind, Action.runFrom_log]
    rfl
  · rfl

theorem keeps_tree_advance (next : Phase) : Keeps Session.tree (advance next) := by
  intro session
  rw [runFrom_advance]
  split <;> rfl

theorem keeps_tool_advance (next : Phase) : Keeps Session.tool (advance next) := by
  intro session
  rw [runFrom_advance]
  split <;> rfl

/-- An advance that succeeds enters its phase. -/
theorem advance_eq_ok {next : Phase}
    (advanced : runFrom session (advance next) = (.ok (), after)) :
    after.tree = session.tree ∧ after.phase = next := by
  rw [runFrom_advance] at advanced
  split at advanced
  case isTrue =>
    obtain ⟨-, rfl⟩ := Prod.mk.inj advanced
    exact ⟨rfl, rfl⟩
  case isFalse => simp at advanced

/-- A phase that may follow is entered, and nothing else but the transcript changes. -/
theorem advance_returns {next : Phase} (follows : next ∈ session.phase.successors) :
    ∃ after, runFrom session (advance next) = (.ok (), after) ∧ after.tree = session.tree ∧
      after.tool = session.tool ∧ after.phase = next := by
  rw [runFrom_advance, if_pos follows]
  exact ⟨_, rfl, rfl, rfl, rfl⟩

/-- The search for the sources of a project. -/
def discovery (gate : Gate) (tree : FileTree) : Source.Discovery :=
  Source.discover tree gate.headroom.directories gate.project
    (gate.settings.directories gate.strict) gate.settings.sourceKinds

/-- The reader that is asked for the lockfile, if there is one of the wanted name. -/
def reader? (gate : Gate) (tool : Option Lockfile.Tool) : Option Lockfile.Reader :=
  Lockfile.chosen? gate.headroom.values tool gate.settings.lockfileReader

/-- What a scan of a project yields. -/
def scanned (gate : Gate) (tree : FileTree) : Source.Scan :=
  Source.scan tree gate.headroom.directories gate.project
    (gate.settings.directories gate.strict) gate.settings.sourceKinds

theorem references_scanned (gate : Gate) (tree : FileTree) :
    (gate.scanned tree).references =
      (Source.readableFiles tree (gate.discovery tree).found).flatMap Source.File.references :=
  Source.references_scan _ _ _ _ _

theorem failure_scanned (gate : Gate) (tree : FileTree) :
    (gate.scanned tree).failure = (gate.discovery tree).failure :=
  Source.failure_scan _ _ _ _ _

/-- A scan selects package names from the references in the sources. -/
theorem scan_eq_ok (finished : runFrom session gate.scan = (.ok used, after)) :
    after.tree = session.tree ∧
      used = PackageName.select ((gate.scanned session.tree).references.map (·.token.name))
        gate.settings.basePackages [] := by
  rw [scan] at finished
  obtain ⟨_, first, advanced, finished⟩ := Action.exists_of_runFrom_bind finished
  have kept := (keeps_tree_advance .scanning).eq advanced
  rw [Action.runFrom_bind, Action.runFrom_log] at finished
  simp only [Action.runFrom_bind, Action.runFrom_get, Action.runFrom_note] at finished
  split at finished
  case h_1 => simp at finished
  case h_2 =>
    simp only [Action.runFrom_pure, Prod.mk.injEq, Except.ok.injEq] at finished
    obtain ⟨rfl, rfl⟩ := finished
    exact ⟨kept, by rw [scanned, kept]⟩

/-- A scan that returns has not been ended early. -/
theorem searched_of_scan_eq_ok (finished : runFrom session gate.scan = (.ok used, after)) :
    (gate.discovery session.tree).failure = none := by
  rw [scan] at finished
  obtain ⟨_, first, advanced, finished⟩ := Action.exists_of_runFrom_bind finished
  simp only [Action.runFrom_bind, Action.runFrom_log, Action.runFrom_get,
    Action.runFrom_note] at finished
  rw [(keeps_tree_advance .scanning).eq advanced] at finished
  split at finished
  case h_1 => simp at finished
  case h_2 completed => exact (gate.failure_scanned session.tree).symm.trans completed

/-- What a scan reports comes from the scanner. -/
theorem source_of_mem_events_scan {tree : FileTree} {room : Nat} {project : Path}
    {roots : List Text} {kinds : List Source.Kind} {event : Log.Event}
    (told : event ∈ (Source.scan tree room project roots kinds).events) :
    event.source = .scanner := by
  have reading (found : List (Path × Source.Kind))
      (told : event ∈ Source.readingEvents tree found) : event.source = .scanner := by
    obtain ⟨file, -, unread⟩ := List.mem_filterMap.mp told
    split at unread
    · simp at unread
    · rw [← Option.some.inj unread]
      rfl
  rw [Source.scan] at told
  split at told
  · exact reading _ told
  · rcases List.mem_append.mp told with told | told
    · exact reading _ told
    · rw [Source.completionEvents] at told
      split at told
      · rw [List.mem_append, List.mem_singleton, List.mem_singleton] at told
        rcases told with rfl | rfl <;> rfl
      · rw [List.nil_append, List.mem_singleton] at told
        rw [told]

/-- What a reader reports comes from the lockfile. -/
theorem source_of_mem_events_reader {reader : Lockfile.Reader} {path : Path} {event : Log.Event}
    (told : event ∈ reader.events path) : event.source = .lockfile := by
  cases reader with
  | json | query => simp [Lockfile.Reader.events] at told
  | unavailable hint =>
      rw [Lockfile.Reader.events, List.mem_singleton] at told
      rw [told]

section Reading

variable {γ : Type} {part : Session → γ}

/-- Whether a step enters a phase first, and keeps a part of the session in all that follows. -/
def Enters {α : Type} (part : Session → γ) (phase : Phase) (step : Action α) : Prop :=
  ∃ rest, step = (advance phase >>= fun _ => rest) ∧ Keeps part rest

theorem Enters.keeps {α : Type} {phase : Phase} {step : Action α}
    (enters : Enters part phase step) (advances : ∀ next, Keeps part (advance next)) :
    Keeps part step := by
  obtain ⟨rest, rfl, kept⟩ := enters
  exact .bind (advances phase) fun _ => kept

theorem enters_scan (silent : Action.Silent part) (gate : Gate) :
    Enters part .scanning gate.scan := by
  refine ⟨_, rfl, ?_⟩
  apply Keeps.bind (Action.keeps_log silent rfl)
  intro _
  apply Keeps.bind Action.keeps_get
  intro current
  apply Keeps.bind (Action.keeps_note silent ?_)
  · intro _
    split
    · exact Action.keeps_throw _
    · exact Action.keeps_pure _
  · intro notice listed
    obtain ⟨event, told, rfl⟩ := List.mem_map.mp listed
    exact Action.tellsPhase_eq_false (by simp [source_of_mem_events_scan told])

theorem keeps_scan (silent : Action.Silent part) (advances : ∀ next, Keeps part (advance next))
    (gate : Gate) : Keeps part gate.scan :=
  (enters_scan silent gate).keeps advances

theorem keeps_select (silent : Action.Silent part)
    (depth : Nat) (name : Text) : Keeps part (Lockfile.select depth name) := by
  rw [Lockfile.select]
  split
  · exact Action.keeps_pure _
  · split
    · apply Keeps.bind Action.keeps_get
      intro session
      split
      · exact Action.keeps_pure _
      · exact .bind (Action.keeps_log silent rfl) fun _ => Action.keeps_pure _
    · split
      · exact Action.keeps_pure _
      · exact Action.keeps_throw _

theorem keeps_locked (silent : Action.Silent part) (reader : Lockfile.Reader) (path : Path) :
    Keeps part (Lockfile.locked reader path) := by
  rw [Lockfile.locked]
  apply Keeps.bind Action.keeps_get
  intro session
  apply Keeps.bind (Action.keeps_ofExcept _ _)
  intro present
  split
  · exact .bind (Action.keeps_log silent rfl) fun _ => Action.keeps_pure _
  · apply Keeps.bind (Action.keeps_note silent ?_)
    · intro _
      apply Keeps.bind Action.keeps_get
      intro session
      split
      · exact .bind (Action.keeps_log silent rfl) fun _ => Action.keeps_pure _
      · exact .bind (Action.keeps_log silent rfl) fun _ => Action.keeps_pure _
      · exact Action.keeps_throw _
    · intro notice listed
      obtain ⟨event, told, rfl⟩ := List.mem_map.mp listed
      exact Action.tellsPhase_eq_false (by simp [source_of_mem_events_reader told])

theorem enters_parse (silent : Action.Silent part) (gate : Gate) (used : List Text) :
    Enters part .parsing (gate.parse used) := by
  refine ⟨_, rfl, ?_⟩
  apply Keeps.bind (Manifest.keeps_parse silent _)
  intro manifest
  apply Keeps.bind Action.keeps_get
  intro session
  apply Keeps.bind (Action.keeps_ofExcept _ _)
  intro lockfileFound
  apply Keeps.bind (keeps_select silent _ _)
  intro reader
  exact .bind (keeps_locked silent _ _) fun _ => Action.keeps_pure _

theorem keeps_parse (silent : Action.Silent part) (advances : ∀ next, Keeps part (advance next))
    (gate : Gate) (used : List Text) : Keeps part (gate.parse used) :=
  (enters_parse silent gate used).keeps advances

theorem enters_compare (silent : Action.Silent part) (gate : Gate) (result : Result) :
    Enters part .comparing (gate.compare result) :=
  ⟨_, rfl, .bind (Action.keeps_log silent rfl) fun _ => Action.keeps_pure _⟩

theorem keeps_compare (silent : Action.Silent part) (advances : ∀ next, Keeps part (advance next))
    (gate : Gate) (result : Result) : Keeps part (gate.compare result) :=
  (enters_compare silent gate result).keeps advances

end Reading

/-- The result that gathers what has been read. -/
def gathered (gate : Gate) (used : List Text) (manifest : Declared) (locked : List WideText)
    (lockfileFound : Bool) : Result :=
  { Result.empty with
    used := gate.withoutOwnPackage used manifest.package
    declared := manifest.required
    optional := manifest.optional
    locked := locked
    strict := gate.strict
    manifestFound := manifest.found
    lockfileFound := lockfileFound }

/-- What is read decides what is used and what is declared; the lockfile does not. What is locked
is what the chosen reader gives, and it tolerates the lockfile. -/
theorem parse_eq_ok (finished : runFrom session (gate.parse used) = (.ok result, after)) :
    after.tree = session.tree ∧ ∃ text reader lockfileFound,
      Manifest.textAt session.tree gate.manifestPath = .ok text ∧
      gate.reader? session.tool = some reader ∧
      reader.Tolerates session.tree session.tool gate.lockfilePath ∧
      result = gate.gathered used (.ofText? text)
        (reader.given session.tree session.tool gate.lockfilePath) lockfileFound := by
  rw [parse] at finished
  obtain ⟨_, first, advanced, finished⟩ := Action.exists_of_runFrom_bind finished
  obtain ⟨manifest, second, parsed, finished⟩ := Action.exists_of_runFrom_bind finished
  obtain ⟨_, third, got, finished⟩ := Action.exists_of_runFrom_bind finished
  obtain ⟨lockfileFound, fourth, looked, finished⟩ := Action.exists_of_runFrom_bind finished
  obtain ⟨reader, fifth, selected, finished⟩ := Action.exists_of_runFrom_bind finished
  obtain ⟨locked, sixth, read, finished⟩ := Action.exists_of_runFrom_bind finished
  simp only [Action.runFrom_pure, Prod.mk.injEq, Except.ok.injEq] at finished
  obtain ⟨rfl, rfl⟩ := finished
  have keptFirst := (keeps_tree_advance .parsing).eq advanced
  obtain ⟨keptSecond, text, found, rfl⟩ := Manifest.parse_eq_ok parsed
  rw [keptFirst] at found keptSecond
  have keptThird : third.tree = second.tree := Action.keeps_get.eq got
  have keptFourth : fourth.tree = third.tree := (Action.keeps_ofExcept _ _).eq looked
  have treeFourth : fourth.tree = session.tree := by rw [keptFourth, keptThird, keptSecond]
  have treeFifth := ((keeps_select Action.silent_tree _ _).eq selected).trans treeFourth
  have keptTool : third.tool = second.tool := Action.keeps_get.eq got
  have sameTool : fourth.tool = third.tool := (Action.keeps_ofExcept _ _).eq looked
  have toolFourth : fourth.tool = session.tool := by
    rw [sameTool, keptTool, (Manifest.keeps_parse Action.silent_tool _).eq parsed,
      (keeps_tool_advance _).eq advanced]
  have toolFifth := ((keeps_select Action.silent_tool _ _).eq selected).trans toolFourth
  have chosen := Lockfile.exists_runFrom_select_iff.mp ⟨fifth, selected⟩
  have tolerates := Lockfile.locked_returns_iff.mp ⟨locked, sixth, read⟩
  have given := Lockfile.locked_eq_ok read
  rw [toolFourth] at chosen
  rw [treeFifth, toolFifth] at tolerates given
  refine ⟨?_, text, reader, lockfileFound, found, chosen, tolerates, given ▸ rfl⟩
  rw [(keeps_locked Action.silent_tree _ _).eq read, treeFifth]

theorem compare_eq_ok {compared : Result}
    (finished : runFrom session (gate.compare result) = (.ok compared, after)) :
    after.tree = session.tree ∧ after.phase = .comparing ∧ compared = gate.compared result := by
  rw [compare] at finished
  obtain ⟨_, first, advanced, finished⟩ := Action.exists_of_runFrom_bind finished
  obtain ⟨kept, entered⟩ := advance_eq_ok advanced
  simp only [Action.runFrom_bind, Action.runFrom_log, Action.runFrom_pure, Prod.mk.injEq,
    Except.ok.injEq] at finished
  obtain ⟨rfl, rfl⟩ := finished
  exact ⟨kept, entered, rfl⟩

/-! ## Phases that return -/

theorem scan_returns (follows : .scanning ∈ session.phase.successors)
    (searched : (gate.discovery session.tree).failure = none) :
    ∃ used after, runFrom session gate.scan = (.ok used, after) ∧ after.tree = session.tree ∧
      after.tool = session.tool ∧ after.phase = .scanning := by
  obtain ⟨first, advanced, kept, sameTool, entered⟩ := advance_returns follows
  rw [← kept, ← failure_scanned, scanned] at searched
  rw [scan, Action.runFrom_bind_of_ok advanced]
  simp only [Action.runFrom_bind, Action.runFrom_log, Action.runFrom_get, Action.runFrom_note,
    searched, Action.runFrom_pure]
  exact ⟨_, _, rfl, kept, sameTool, entered⟩

theorem exists_chosen?_of_known {name : Text} (known : name ∈ Settings.readerNames)
    (depth : Nat) (tool : Option Lockfile.Tool) :
    ∃ reader, Lockfile.chosen? depth tool name = some reader := by
  rw [Settings.readerNames, List.mem_cons, List.mem_cons, List.mem_singleton] at known
  rcases known with rfl | rfl | rfl
  · exact ⟨.json depth, rfl⟩
  · cases tool <;> exact ⟨_, rfl⟩
  · exact ⟨.unavailable none, rfl⟩

/-- Beside a lockfile that the chosen reader tolerates, a manifest that can be read is all that
reading needs. -/
theorem parse_returns {before : Option Text} {reader : Lockfile.Reader}
    (follows : .parsing ∈ session.phase.successors)
    (readable : Manifest.textAt session.tree gate.manifestPath = .ok before)
    (chosen : gate.reader? session.tool = some reader)
    (tolerates : reader.Tolerates session.tree session.tool gate.lockfilePath) :
    ∃ result after, runFrom session (gate.parse used) = (.ok result, after) ∧
      after.tree = session.tree ∧ after.phase = .parsing := by
  obtain ⟨first, advanced, kept, sameTool, entered⟩ := advance_returns follows
  rw [← kept] at readable tolerates
  rw [← sameTool] at tolerates chosen
  obtain ⟨manifest, second, parsed⟩ := Manifest.parse_returns readable
  have keptSecond := (Manifest.keeps_parse Action.silent_tree _).eq parsed
  have toolSecond := (Manifest.keeps_parse Action.silent_tool _).eq parsed
  have enteredSecond := (Manifest.keeps_parse Action.silent_phase _).eq parsed
  rw [← keptSecond, ← toolSecond] at tolerates
  rw [← toolSecond] at chosen
  obtain ⟨third, selected⟩ := Lockfile.exists_runFrom_select_iff.mpr chosen
  have keptThird := (keeps_select Action.silent_tree _ _).eq selected
  have toolThird := (keeps_select Action.silent_tool _ _).eq selected
  have enteredThird := (keeps_select Action.silent_phase _ _).eq selected
  obtain ⟨present, asked⟩ := tolerates.asked
  rw [← keptThird, ← toolThird] at tolerates
  obtain ⟨packages, fourth, read⟩ := Lockfile.locked_returns_iff.mpr tolerates
  have keptFourth := (keeps_locked Action.silent_tree _ _).eq read
  have enteredFourth := (keeps_locked Action.silent_phase _ _).eq read
  rw [parse, Action.runFrom_bind_of_ok advanced, Action.runFrom_bind_of_ok parsed]
  simp only [Action.runFrom_bind, Action.runFrom_get, asked, Action.ofExcept,
    Action.runFrom_pure, selected, read]
  exact ⟨_, _, rfl, keptFourth.trans (keptThird.trans (keptSecond.trans kept)),
    enteredFourth.trans (enteredThird.trans (enteredSecond.trans entered))⟩

theorem compare_returns (follows : .comparing ∈ session.phase.successors) (result : Result) :
    ∃ after, runFrom session (gate.compare result) = (.ok (gate.compared result), after) ∧
      after.tree = session.tree ∧ after.phase = .comparing := by
  obtain ⟨first, advanced, kept, -, entered⟩ := advance_returns follows
  rw [compare, Action.runFrom_bind_of_ok advanced]
  simp only [Action.runFrom_bind, Action.runFrom_log, Action.runFrom_pure]
  exact ⟨_, rfl, kept, entered⟩

/-! ## Editing the manifest -/

section Editing

variable {left : Result} {before : Option Text}

/-- A result after the given names have been removed from the manifest. -/
def withPruned (result : Result) (names : List Text) : Result :=
  { result with
    pruned := names
    declared := without result.declared names
    unused := without result.unused names }

/-- A result after the given names have been added to the manifest. -/
def withAdded (result : Result) (names : List Text) : Result :=
  { result with
    added := names
    declared := canonical (result.declared ++ names)
    missing := without result.missing names }

/-- A result with one more warning. -/
def withWarning (result : Result) (warning : Text) : Result :=
  { result with warnings := result.warnings ++ [warning] }

/-- A phase that edits the manifest by a step. A failure that concerns the manifest becomes
a warning. -/
def editPhase (phase : Phase) (step : Action (List Text)) (event : Failure → Log.Event)
    (warning : Failure → Text) (done : List Text → Result) (result : Result) : Action Result := do
  advance phase
  match ← Action.attemptOnManifest step with
  | .error failure =>
      Action.log (event failure)
      return withWarning result (warning failure)
  | .ok names => return done names

theorem removeUnused_eq (gate : Gate) (result : Result) :
    gate.removeUnused result =
      editPhase .pruning
        (Manifest.pruneFile gate.manifestPath result.used gate.settings.protectedPackages)
        (fun failure => ⟨.warning, .pipeline, "pipeline.prune_failed",
          [("error", .text failure.message)]⟩)
        (fun failure => "Pruning skipped: " ++ failure.message) (withPruned result) result := rfl

theorem addMissing_eq (gate : Gate) (result : Result) :
    gate.addMissing result =
      editPhase .fixing (Manifest.fixFile gate.manifestPath result.missing)
        (fun failure => ⟨.warning, .pipeline, "pipeline.fix_failed",
          [("error", .text failure.message)]⟩)
        (fun failure => "Auto-fix failed: " ++ failure.message) (withAdded result) result := rfl

section EditPhase

variable {phase : Phase} {step : Action (List Text)} {event : Failure → Log.Event}
  {warning : Failure → Text} {done : List Text → Result} {path : Path} {edit : Text → Text}
  {names : Text → List Text}

/-- Such a phase tries its step, and accounts for what it did or for why it failed. -/
theorem exists_outcome_of_editPhase_eq_ok
    (finished : runFrom session (editPhase phase step event warning done result) =
      (.ok left, after)) :
    ∃ first outcome second, first.tree = session.tree ∧ runFrom first step = (outcome, second) ∧
      after.tree = second.tree ∧
      ((∃ written, outcome = .ok written ∧ left = done written) ∨
        ∃ failure, outcome = .error failure ∧ left = withWarning result (warning failure)) := by
  rw [editPhase] at finished
  obtain ⟨_, first, advanced, finished⟩ := Action.exists_of_runFrom_bind finished
  obtain ⟨attempted, second, tried, finished⟩ := Action.exists_of_runFrom_bind finished
  rw [Action.runFrom_attemptOnManifest] at tried
  refine ⟨first, (runFrom first step).1, (runFrom first step).2,
    (keeps_tree_advance phase).eq advanced, rfl, ?_⟩
  split at tried
  case h_1 written third ended =>
    rw [Prod.mk.injEq, Except.ok.injEq] at tried
    obtain ⟨rfl, rfl⟩ := tried
    simp only [Action.runFrom_pure, Prod.mk.injEq, Except.ok.injEq] at finished
    obtain ⟨rfl, rfl⟩ := finished
    rw [ended]
    exact ⟨rfl, .inl ⟨written, rfl, rfl⟩⟩
  case h_2 failure third ended =>
    split at tried
    case isTrue =>
      rw [Prod.mk.injEq, Except.ok.injEq] at tried
      obtain ⟨rfl, rfl⟩ := tried
      simp only [Action.runFrom_bind, Action.runFrom_log, Action.runFrom_pure, Prod.mk.injEq,
        Except.ok.injEq] at finished
      obtain ⟨rfl, rfl⟩ := finished
      rw [ended]
      exact ⟨rfl, .inr ⟨failure, rfl, rfl⟩⟩
    case isFalse => simp at tried

/-- An edit is done and accounted for, or it fails and a warning is given. -/
theorem editPhase_cases
    (edits : ∀ {session after : Session} {outcome}, runFrom session step = (outcome, after) →
      Manifest.Edits path edit names session.tree outcome after.tree)
    (finished : runFrom session (editPhase phase step event warning done result) =
      (.ok left, after)) :
    (∃ written, Manifest.Edits path edit names session.tree (.ok written) after.tree ∧
      left = done written) ∨
    ∃ failure, Manifest.Edits path edit names session.tree (.error failure) after.tree ∧
      left = withWarning result (warning failure) := by
  obtain ⟨first, outcome, second, kept, ended, same, accounted⟩ :=
    exists_outcome_of_editPhase_eq_ok finished
  have edited := edits ended
  rw [kept, ← same] at edited
  rcases accounted with ⟨written, rfl, rfl⟩ | ⟨failure, rfl, rfl⟩
  · exact .inl ⟨written, edited, rfl⟩
  · exact .inr ⟨failure, edited, rfl⟩

/-- Once the manifest can be read, an edit never ends the run, and it can be read again. -/
theorem editPhase_returns (follows : phase ∈ session.phase.successors)
    (readable : Manifest.textAt session.tree path = .ok before)
    (edits : ∀ {session after : Session} {outcome}, runFrom session step = (outcome, after) →
      Manifest.Edits path edit names session.tree outcome after.tree)
    (keeps : Keeps Session.phase step) :
    ∃ left after, runFrom session (editPhase phase step event warning done result) =
      (.ok left, after) ∧ after.phase = phase ∧
        ∃ text, Manifest.textAt after.tree path = .ok text := by
  obtain ⟨first, advanced, kept, -, entered⟩ := advance_returns follows
  rw [← kept] at readable
  rw [editPhase, Action.runFrom_bind_of_ok advanced, Action.runFrom_bind,
    Action.runFrom_attemptOnManifest]
  cases ended : runFrom first step with
  | mk outcome second =>
      have stays : second.phase = phase := (keeps.eq ended).trans entered
      have readableAgain := (edits ended).readable readable
      cases outcome with
      | ok written => exact ⟨_, _, rfl, stays, readableAgain⟩
      | error failure =>
          have concerns := (edits ended).concernsManifest readable
          simp only [concerns, if_true, Action.runFrom_bind, Action.runFrom_log,
            Action.runFrom_pure]
          exact ⟨_, _, rfl, stays, readableAgain⟩

theorem enters_editPhase {γ : Type} {part : Session → γ} (silent : Action.Silent part)
    (mute : ∀ failure, Notice.tellsPhase (.logged (event failure)) = false)
    (keeps : Keeps part step) :
    Enters part phase (editPhase phase step event warning done result) := by
  refine ⟨_, rfl, ?_⟩
  apply Keeps.bind keeps.attemptOnManifest
  rintro (failure | names)
  · exact .bind (Action.keeps_log silent (mute failure)) fun _ => Action.keeps_pure _
  · exact Action.keeps_pure _

end EditPhase

section EntersEditing

variable {γ : Type} {part : Session → γ}

theorem enters_removeUnused (silent : Action.Silent part)
    (apart : ∀ (session : Session) (tree : FileTree),
      part { session with tree := tree } = part session) (gate : Gate) (result : Result) :
    Enters part .pruning (gate.removeUnused result) :=
  enters_editPhase silent (fun _ => rfl) (Manifest.keeps_pruneFile silent apart _ _ _)

theorem enters_addMissing (silent : Action.Silent part)
    (apart : ∀ (session : Session) (tree : FileTree),
      part { session with tree := tree } = part session) (gate : Gate) (result : Result) :
    Enters part .fixing (gate.addMissing result) :=
  enters_editPhase silent (fun _ => rfl) (Manifest.keeps_fixFile silent apart _ _)

end EntersEditing

/-- Removing unused packages leaves the pruned manifest and takes its names out of the
result, or it leaves the manifest as it was and a warning. -/
theorem removeUnused_cases
    (found : Manifest.textAt session.tree gate.manifestPath = .ok before)
    (finished : runFrom session (gate.removeUnused result) = (.ok left, after)) :
    (Manifest.textAt after.tree gate.manifestPath =
        .ok (before.map (Manifest.pruned result.used gate.settings.protectedPackages)) ∧
      left = withPruned result (before.elim []
        (Manifest.prunedNames result.used gate.settings.protectedPackages))) ∨
    after.tree = session.tree ∧ ∃ warning, left = withWarning result warning := by
  rw [removeUnused_eq] at finished
  rcases editPhase_cases Manifest.edits_pruneFile finished with
    ⟨written, edits, rfl⟩ | ⟨failure, edits, rfl⟩
  · obtain ⟨read, rfl⟩ := edits.textAt_of_ok found
      (fun _ => Manifest.pruned_of_prunedNames_eq_nil) (fun _ => Manifest.return_not_mem_pruned)
    exact .inl ⟨read, rfl⟩
  · exact .inr ⟨edits.eq_of_error, _, rfl⟩

/-- Removing unused packages, done or not, does not touch the verdict and leaves the
manifest as it was or pruned. -/
theorem removeUnused_eq_ok
    (found : Manifest.textAt session.tree gate.manifestPath = .ok before)
    (finished : runFrom session (gate.removeUnused result) = (.ok left, after)) :
    left.missing = result.missing ∧
      (Manifest.textAt after.tree gate.manifestPath = .ok before ∨
        ∃ text, before = some text ∧ Manifest.textAt after.tree gate.manifestPath =
          .ok (some (Manifest.prune text (Manifest.declaredNames text .required) result.used
            gate.settings.protectedPackages))) := by
  rcases removeUnused_cases found finished with ⟨read, rfl⟩ | ⟨unchanged, warning, rfl⟩
  · refine ⟨rfl, ?_⟩
    cases before with
    | none => exact .inl read
    | some text => exact .inr ⟨text, rfl, read⟩
  · exact ⟨rfl, .inl (unchanged ▸ found)⟩

/-- Adding missing packages leaves the extended manifest and the added names in the result,
or it leaves the manifest as it was and a warning. -/
theorem addMissing_cases
    (found : Manifest.textAt session.tree gate.manifestPath = .ok before)
    (plain : ∀ name ∈ result.missing, '\r' ∉ name)
    (finished : runFrom session (gate.addMissing result) = (.ok left, after)) :
    (Manifest.textAt after.tree gate.manifestPath =
        .ok (before.map (Manifest.extended result.missing)) ∧
      left = withAdded result (before.elim [] (Manifest.addedNames result.missing))) ∨
    after.tree = session.tree ∧ ∃ warning, left = withWarning result warning := by
  rw [addMissing_eq] at finished
  rcases editPhase_cases Manifest.edits_fixFile finished with
    ⟨written, edits, rfl⟩ | ⟨failure, edits, rfl⟩
  · obtain ⟨read, rfl⟩ := edits.textAt_of_ok found
      (fun _ => Manifest.extended_of_addedNames_eq_nil)
      (fun _ => Manifest.return_not_mem_extended plain)
    exact .inl ⟨read, rfl⟩
  · exact .inr ⟨edits.eq_of_error, _, rfl⟩

end Editing

end Gate
end DependencyGate

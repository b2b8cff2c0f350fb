/-
# Obstacles to a run

A run fails exactly if it meets an obstacle (`run_fails_iff`), and an obstacle is one of few
things: a scan root, a manifest or a lockfile that cannot be read, directories that lie within too
many others, or a reader that does not exist. Paths can be examined unless they, or names on their
way, are too long: nothing in a file tree is denied to a run. A run that fails has changed no file.
-/

import DependencyGate.Proofs.Run.Verdict

namespace DependencyGate

open DependencyGate.Action (runFrom)

/-! ## Paths that cannot be examined -/

namespace FileTree

variable {tree : FileTree} {path : Path} {error : PathError}

theorem fault_of_nodeAt {fault : PathFault} (failed : tree.nodeAt path = .error fault) :
    fault.meansAbsent = true ∨ fault = .nameTooLong := by
  rw [nodeAt] at failed
  split at failed
  case h_1 refused resolved =>
    obtain rfl := Except.error.inj failed
    rw [resolve] at resolved
    split at resolved
    case h_1 written =>
      obtain rfl := Except.error.inj resolved
      rw [writtenFault?] at written
      split at written
      · exact .inl (Option.some.inj written ▸ rfl)
      · split at written
        · exact .inr (Option.some.inj written).symm
        · cases written
    case h_2 =>
      rcases fault_of_follow resolved with rfl | rfl | rfl | rfl
      exacts [.inl rfl, .inr rfl, .inl rfl, .inl rfl]
  case h_2 =>
    split at failed
    · exact .inl (Except.error.inj failed ▸ rfl)
    · cases failed

/-- A path can be examined unless it, or a name on its way, is too long. -/
theorem eq_of_test_eq_error {property : Node → Bool}
    (failed : tree.test path property = .error error) :
    error = ⟨.nameTooLong, path.text, none⟩ := by
  rw [test] at failed
  split at failed
  case h_1 => cases failed
  case h_2 fault met =>
    split at failed
    case isTrue => cases failed
    case isFalse present =>
      obtain rfl := Except.error.inj failed
      rcases fault_of_nodeAt met with absent | rfl
      · exact absurd absent present
      · rfl

end FileTree

/-- A search is only ended early by a root whose path, or a name on it, is too long, if not by
directories that lie within too many others. -/
theorem Source.eq_of_failure_discover {tree : FileTree} {room : Nat} {project : Path}
    {roots : List Text} {kinds : List Source.Kind} {error : PathError}
    (failed : (Source.discover tree room project roots kinds).failure =
      some (.unexaminable error)) :
    ∃ root ∈ roots, error = ⟨.nameTooLong, (project.join root).text, none⟩ := by
  obtain ⟨search, listed, ended⟩ := Source.Search.exists_of_fault_inTurn failed
  obtain ⟨root, given, rfl⟩ := List.mem_map.mp listed
  refine ⟨root, given, ?_⟩
  rw [Source.filesUnder] at ended
  split at ended
  case h_1 asked =>
    obtain rfl := Source.SearchFault.unexaminable.inj (Option.some.inj ended)
    exact FileTree.eq_of_test_eq_error asked
  case h_2 => cases ended
  case h_3 =>
    split at ended
    case h_1 => cases ended
    case h_2 directory _ =>
      have cases := Source.fault_filesBelow_cases tree room (project.join root) directory
      simp [ended] at cases

/-! ## What ends a run -/

theorem Manifest.parse_fails {session : Session} {path : Path} {failure : Failure}
    (unread : Manifest.textAt session.tree path = .error failure) :
    runFrom session (Manifest.parse path) = (.error failure, session) := by
  rw [Manifest.parse, Action.runFrom_bind, Manifest.runFrom_load, unread]

theorem Lockfile.select_fails {session : Session} {depth : Nat} {name : Text}
    (unknown : Lockfile.chosen? depth session.tool name = none) :
    runFrom session (Lockfile.select depth name) = (.error (.unknownReader name), session) := by
  unfold Lockfile.chosen? at unknown
  unfold Lockfile.select
  split at unknown
  case isTrue => cases unknown
  case isFalse notJson =>
    split at unknown
    case isTrue => split at unknown <;> cases unknown
    case isFalse notTool =>
      split at unknown
      case isTrue => cases unknown
      case isFalse notNone => rw [if_neg notJson, if_neg notTool, if_neg notNone]; rfl

namespace Gate

variable {gate : Gate} {session after : Session} {failure : Failure} {used : List Text}

/-- What keeps a run from reading the manifest and the lockfile, in the order in which it asks:
the manifest cannot be read, the lockfile cannot be examined, there is no reader of the wanted
name, or the reader finds in the lockfile what is no mere fault of it. -/
inductive Unread (gate : Gate) (tree : FileTree) (tool : Option Lockfile.Tool) : Failure → Prop
  | manifest {failure : Failure}
      (unreadable : Manifest.textAt tree gate.manifestPath = .error failure) :
      gate.Unread tree tool failure
  | lockfile {before : Option Text} {error : PathError}
      (readable : Manifest.textAt tree gate.manifestPath = .ok before)
      (unexamined : tree.isFile gate.lockfilePath = .error error) :
      gate.Unread tree tool (.path error)
  | reader {before : Option Text} {present : Bool}
      (readable : Manifest.textAt tree gate.manifestPath = .ok before)
      (examined : tree.isFile gate.lockfilePath = .ok present)
      (unknown : gate.reader? tool = none) :
      gate.Unread tree tool (.unknownReader gate.settings.lockfileReader)
  | packages {before : Option Text} {reader : Lockfile.Reader} {error : Lockfile.ReadError}
      (readable : Manifest.textAt tree gate.manifestPath = .ok before)
      (file : tree.isFile gate.lockfilePath = .ok true)
      (chosen : gate.reader? tool = some reader)
      (failed : reader.packages tree tool gate.lockfilePath = .error error)
      (other : ∀ fault, error ≠ .fault fault) :
      gate.Unread tree tool (.lockfile gate.lockfilePath error)

/-- What ends a run: a scan root that cannot be examined, directories below one that lie within
too many others, or else what keeps it from reading. -/
inductive Obstacle (gate : Gate) (tree : FileTree) (tool : Option Lockfile.Tool) : Failure → Prop
  | root {error : PathError}
      (unexamined : (gate.discovery tree).failure = some (.unexaminable error)) :
      gate.Obstacle tree tool (.path error)
  | depth (deep : (gate.discovery tree).failure = some .tooDeep) :
      gate.Obstacle tree tool .tooDeep
  | unread {failure : Failure} (searched : (gate.discovery tree).failure = none)
      (unread : gate.Unread tree tool failure) : gate.Obstacle tree tool failure

theorem scan_fails {fault : Source.SearchFault} (follows : .scanning ∈ session.phase.successors)
    (ended : (gate.discovery session.tree).failure = some fault) :
    (runFrom session gate.scan).1 = .error (searchFailure fault) := by
  obtain ⟨first, advanced, kept, -, -⟩ := advance_returns follows
  rw [← kept, ← failure_scanned, scanned] at ended
  rw [scan, Action.runFrom_bind_of_ok advanced]
  simp only [Action.runFrom_bind, Action.runFrom_log, Action.runFrom_get, Action.runFrom_note,
    ended, Action.runFrom_throw]

theorem parse_fails (follows : .parsing ∈ session.phase.successors)
    (unread : gate.Unread session.tree session.tool failure) :
    (runFrom session (gate.parse used)).1 = .error failure := by
  obtain ⟨first, advanced, keptFirst, toolFirst, -⟩ := advance_returns follows
  rw [← keptFirst, ← toolFirst] at unread
  have manifestRead {before : Option Text}
      (readable : Manifest.textAt first.tree gate.manifestPath = .ok before) :
      ∃ manifest second, runFrom first (Manifest.parse gate.manifestPath) = (.ok manifest, second) ∧
        second.tree = first.tree ∧ second.tool = first.tool := by
    obtain ⟨manifest, second, parsed⟩ := Manifest.parse_returns readable
    exact ⟨manifest, second, parsed, (Manifest.keeps_parse Action.silent_tree _).eq parsed,
      (Manifest.keeps_parse Action.silent_tool _).eq parsed⟩
  rw [parse, Action.runFrom_bind_of_ok advanced]
  cases unread with
  | manifest unreadable =>
      rw [Action.runFrom_bind_of_error (Manifest.parse_fails unreadable)]
  | lockfile readable unexamined =>
      obtain ⟨manifest, second, parsed, keptSecond, -⟩ := manifestRead readable
      rw [← keptSecond] at unexamined
      rw [Action.runFrom_bind_of_ok parsed]
      simp only [Action.runFrom_bind, Action.runFrom_get, unexamined, Action.ofExcept,
        Action.runFrom_throw]
  | reader readable examined unknown =>
      obtain ⟨manifest, second, parsed, keptSecond, toolSecond⟩ := manifestRead readable
      rw [← keptSecond] at examined
      rw [← toolSecond] at unknown
      rw [Action.runFrom_bind_of_ok parsed]
      simp only [Action.runFrom_bind, Action.runFrom_get, examined, Action.ofExcept,
        Action.runFrom_pure, Lockfile.select_fails unknown]
  | packages readable file chosen failed other =>
      obtain ⟨manifest, second, parsed, keptSecond, toolSecond⟩ := manifestRead readable
      rw [← toolSecond] at chosen
      rw [← keptSecond] at file
      obtain ⟨third, selected⟩ := Lockfile.exists_runFrom_select_iff.mpr chosen
      have keptThird := (keeps_select Action.silent_tree _ _).eq selected
      have toolThird := (keeps_select Action.silent_tool _ _).eq selected
      have fileThird : third.tree.isFile gate.lockfilePath = .ok true := keptThird ▸ file
      rw [← keptSecond, ← toolSecond, ← keptThird, ← toolThird] at failed
      rw [Action.runFrom_bind_of_ok parsed]
      simp only [Action.runFrom_bind, Action.runFrom_get, file, Action.ofExcept,
        Action.runFrom_pure, selected, Lockfile.locked_fails fileThird failed other]

/-- A run that meets an obstacle ends with it. -/
theorem run_fails (idle : session.phase = .idle)
    (obstacle : gate.Obstacle session.tree session.tool failure) :
    (runFrom session gate.run).1 = .error failure := by
  have follows : .scanning ∈ session.phase.successors := by rw [idle]; decide
  rw [run_eq]
  cases obstacle with
  | root ended | depth ended =>
      rw [Action.runFrom_bind_of_error (Prod.ext (scan_fails follows ended) rfl)]
      rfl
  | unread searched unread =>
      obtain ⟨used, scanning, scanned, kept, sameTool, entered⟩ := scan_returns follows searched
      rw [← kept, ← sameTool] at unread
      have failed : (runFrom scanning (gate.parse used)).1 = .error failure :=
        parse_fails (by rw [entered]; decide) unread
      rw [Action.runFrom_bind_of_ok scanned,
        Action.runFrom_bind_of_error (Prod.ext failed rfl)]

/-- What keeps a run from its end is an obstacle. -/
theorem exists_obstacle {tree : FileTree} {tool : Option Lockfile.Tool}
    (stopped : ¬gate.Runnable tree tool) : ∃ failure, gate.Obstacle tree tool failure := by
  cases searched : (gate.discovery tree).failure with
  | some fault =>
      cases fault with
      | unexaminable error => exact ⟨_, .root searched⟩
      | tooDeep => exact ⟨_, .depth searched⟩
  | none =>
      cases readable : Manifest.textAt tree gate.manifestPath with
      | error failure => exact ⟨_, .unread searched (.manifest readable)⟩
      | ok before =>
          cases examined : tree.isFile gate.lockfilePath with
          | error error => exact ⟨_, .unread searched (.lockfile readable examined)⟩
          | ok present =>
              cases chosen : gate.reader? tool with
              | none => exact ⟨_, .unread searched (.reader readable examined chosen)⟩
              | some reader =>
                  by_contra none
                  refine stopped ⟨searched, ⟨before, readable⟩, reader, chosen, ⟨present, examined⟩,
                    fun file error failed => ?_⟩
                  by_contra other
                  exact none ⟨_, .unread searched
                    (.packages readable file chosen failed (not_exists.mp other))⟩

/-- A run fails exactly if it meets an obstacle, and with the failure that tells it. -/
theorem run_fails_iff (idle : session.phase = .idle) :
    (runFrom session gate.run).1 = .error failure ↔
      gate.Obstacle session.tree session.tool failure := by
  refine ⟨fun failed => ?_, run_fails idle⟩
  have stopped : ¬gate.Runnable session.tree session.tool := by
    intro runnable
    obtain ⟨result, after, finished⟩ := (run_returns_iff idle).mpr runnable
    rw [finished] at failed
    cases failed
  obtain ⟨met, obstacle⟩ := exists_obstacle stopped
  obtain rfl : failure = met := Except.error.inj (failed.symm.trans (run_fails idle obstacle))
  exact obstacle

/-- A run that fails changes no file. -/
theorem tree_of_run_fails (failed : runFrom session gate.run = (.error failure, after)) :
    after.tree = session.tree := by
  rcases run_cases failed with
    ⟨_, -, kept⟩ | ⟨before, lockfileFound, between, found, kept, entered, settled⟩
  · exact kept
  · obtain ⟨result, last, returned⟩ := settle_returns entered (kept ▸ found)
      (gate.comparison session.tree session.tool before lockfileFound)
    cases (congrArg Prod.fst (settled.symm.trans returned) : Except.error failure = .ok result)

end Gate

end DependencyGate

/-
# The verdict of a run

A run that adds nothing to the manifest passes exactly if every name that the sources
refer to and that has to be declared is declared. If it passes, the manifest that it
leaves declares these names too, whether or not unused packages were removed from it.
-/

import DependencyGate.Proofs.Run.Phases
import DependencyGate.Proofs.Source.Search

namespace DependencyGate

open DependencyGate.Action (runFrom)
open Manifest (Declared)

namespace Gate

variable {gate : Gate} {session after : Session} {result : Result} {used : List Text}

/-- The names that the readable source files of a project refer to. -/
def References (gate : Gate) (tree : FileTree) (name : Text) : Prop :=
  ∃ found ∈ (gate.discovery tree).found,
    ∃ file, Source.readFile tree found = .ok file ∧
      ∃ token ∈ Source.tokens file.text, token.name = name

/-- The names that a project has to declare: package names that its sources refer to,
without base packages and the project's own. -/
structure Needs (gate : Gate) (tree : FileTree) (declared : Declared) (name : Text) : Prop where
  referenced : gate.References tree name
  valid : PackageName.isValid name = true
  not_base : name ∉ gate.settings.basePackages
  not_own : declared.package ≠ some name

/-! ## A whole run -/

/-- The phases that follow a comparison. -/
def settle (gate : Gate) (compared : Result) : Action Result := do
  let fixed ← if !compared.passes && gate.fix then gate.addMissing compared else pure compared
  if fixed.passes && gate.prune && !fixed.unused.isEmpty then gate.removeUnused fixed
  else pure fixed

/-- The part of it that may add missing packages. -/
def settleMissing (gate : Gate) (compared : Result) : Action Result :=
  if !compared.passes && gate.fix then gate.addMissing compared else pure compared

/-- The part of it that may remove unused packages. -/
def settleUnused (gate : Gate) (fixed : Result) : Action Result :=
  if fixed.passes && gate.prune && !fixed.unused.isEmpty then gate.removeUnused fixed
  else pure fixed

theorem settle_eq (gate : Gate) (compared : Result) :
    gate.settle compared = gate.settleMissing compared >>= gate.settleUnused := by
  rw [settle, settleMissing]
  split <;> rfl

theorem run_eq (gate : Gate) :
    gate.run = gate.scan >>= fun used => gate.parse used >>= fun parsed =>
      gate.compare parsed >>= gate.settle := rfl

/-- What a scan finds are the references in the readable files. -/
theorem mem_references_iff {tree : FileTree} {name : Text} :
    name ∈ (gate.scanned tree).references.map (·.token.name) ↔ gate.References tree name := by
  rw [List.mem_map, references_scanned, References]
  simp only [List.mem_flatMap, Source.readableFiles, List.mem_filterMap]
  constructor
  · rintro ⟨reference, ⟨file, ⟨found, listed, readable⟩, held⟩, rfl⟩
    obtain ⟨token, present, rfl⟩ := List.mem_map.mp held
    refine ⟨found, listed, file, ?_, token, present, rfl⟩
    cases read : Source.readFile tree found with
    | error error => simp [read, Except.toOption] at readable
    | ok other =>
        rw [read] at readable
        rw [Option.some.inj readable]
  · rintro ⟨found, listed, file, read, token, present, rfl⟩
    refine ⟨⟨file.path, token⟩, ⟨file, ⟨found, listed, ?_⟩, List.mem_map_of_mem present⟩, rfl⟩
    rw [read]
    rfl

/-- The names that a scan of the project's sources gives. -/
def scannedNames (gate : Gate) (tree : FileTree) : List Text :=
  PackageName.select ((gate.scanned tree).references.map (·.token.name))
    gate.settings.basePackages []

/-- The scanned names without the project's own are those that need to be declared. -/
theorem mem_withoutOwnPackage_scannedNames {tree : FileTree} {declared : Declared} {name : Text} :
    name ∈ gate.withoutOwnPackage (gate.scannedNames tree) declared.package ↔
      gate.Needs tree declared name := by
  rw [mem_withoutOwnPackage, scannedNames, PackageName.mem_select, mem_references_iff]
  · constructor
    · rintro ⟨⟨referenced, valid, notBase, -⟩, notOwn⟩
      exact ⟨referenced, valid, notBase, notOwn⟩
    · rintro ⟨referenced, valid, notBase, notOwn⟩
      exact ⟨⟨referenced, valid, notBase, List.not_mem_nil⟩, notOwn⟩
  · intro name selected
    obtain ⟨-, valid, notBase, -⟩ := PackageName.mem_select.mp selected
    exact ⟨valid, notBase⟩

/-- The names that are locked, as the chosen reader gives them. -/
def lockedNames (gate : Gate) (tree : FileTree) (tool : Option Lockfile.Tool) : List WideText :=
  match gate.reader? tool with
  | some reader => reader.given tree tool gate.lockfilePath
  | none => []

/-- What a run compares: the scanned names, what the manifest declares and what is locked. -/
def comparison (gate : Gate) (tree : FileTree) (tool : Option Lockfile.Tool)
    (before : Option Text) (lockfileFound : Bool) : Result :=
  gate.compared (gate.gathered (gate.scannedNames tree) (.ofText? before)
    (gate.lockedNames tree tool) lockfileFound)

/-- A run ends before its comparison, and then it has only read, or it compares what it has read
and acts on what it finds. -/
theorem run_cases {outcome : Except Failure Result}
    (ended : runFrom session gate.run = (outcome, after)) :
    (∃ failure, outcome = .error failure ∧ after.tree = session.tree) ∨
      ∃ before lockfileFound between,
        Manifest.textAt session.tree gate.manifestPath = .ok before ∧
        between.tree = session.tree ∧ between.phase = .comparing ∧
        runFrom between (gate.settle (gate.comparison session.tree session.tool before
          lockfileFound)) = (outcome, after) := by
  rw [run_eq, Action.runFrom_bind] at ended
  split at ended
  case h_2 failure first scanned =>
    obtain ⟨rfl, rfl⟩ := Prod.mk.inj ended
    exact .inl ⟨failure, rfl, (keeps_scan Action.silent_tree keeps_tree_advance gate).eq scanned⟩
  case h_1 used first scanned =>
    obtain ⟨keptFirst, rfl⟩ := scan_eq_ok scanned
    have sameTool := (keeps_scan Action.silent_tool keeps_tool_advance gate).eq scanned
    rw [Action.runFrom_bind] at ended
    split at ended
    case h_2 failure second read =>
      obtain ⟨rfl, rfl⟩ := Prod.mk.inj ended
      exact .inl ⟨failure, rfl,
        ((keeps_parse Action.silent_tree keeps_tree_advance gate _).eq read).trans keptFirst⟩
    case h_1 parsed second read =>
      obtain ⟨keptSecond, before, reader, lockfileFound, found, chosen, -, rfl⟩ := parse_eq_ok read
      rw [keptFirst] at keptSecond found
      rw [Action.runFrom_bind] at ended
      split at ended
      case h_2 failure third judged =>
        obtain ⟨rfl, rfl⟩ := Prod.mk.inj ended
        exact .inl ⟨failure, rfl,
          ((keeps_compare Action.silent_tree keeps_tree_advance gate _).eq judged).trans
            keptSecond⟩
      case h_1 compared third judged =>
        obtain ⟨keptThird, entered, rfl⟩ := compare_eq_ok judged
        refine .inr ⟨before, lockfileFound, third, found, keptThird.trans keptSecond, entered, ?_⟩
        rw [sameTool] at chosen
        rw [keptFirst, sameTool] at ended
        rwa [comparison, lockedNames, chosen]

/-- A run that returns compares what it has read and acts on what it finds. -/
theorem exists_settle_of_run_eq_ok (finished : runFrom session gate.run = (.ok result, after)) :
    ∃ before lockfileFound between,
      Manifest.textAt session.tree gate.manifestPath = .ok before ∧
      between.tree = session.tree ∧
      runFrom between (gate.settle (gate.comparison session.tree session.tool before
        lockfileFound)) = (.ok result, after) := by
  rcases run_cases finished with
    ⟨failure, failed, -⟩ | ⟨before, lockfileFound, between, found, kept, -, settled⟩
  · cases failed
  · exact ⟨before, lockfileFound, between, found, kept, settled⟩

/-- Of what it has read, the manifest and the scanned names matter. -/
theorem exists_gathered_of_run_eq_ok (finished : runFrom session gate.run = (.ok result, after)) :
    ∃ before locked lockfileFound between,
      Manifest.textAt session.tree gate.manifestPath = .ok before ∧
      between.tree = session.tree ∧
      runFrom between (gate.settle (gate.compared
        (gate.gathered (gate.scannedNames session.tree) (.ofText? before) locked
          lockfileFound))) = (.ok result, after) := by
  obtain ⟨before, lockfileFound, between, found, kept, settled⟩ :=
    exists_settle_of_run_eq_ok finished
  exact ⟨before, _, lockfileFound, between, found, kept, settled⟩

/-- A run compares the names that need to be declared with those that are. -/
theorem exists_of_run_eq_ok (finished : runFrom session gate.run = (.ok result, after)) :
    ∃ before parsed between, Manifest.textAt session.tree gate.manifestPath = .ok before ∧
      between.tree = session.tree ∧
      (∀ name, name ∈ parsed.used ↔ gate.Needs session.tree (.ofText? before) name) ∧
      parsed.declared = (Declared.ofText? before).required ∧
      runFrom between (gate.settle (gate.compared parsed)) = (.ok result, after) := by
  obtain ⟨before, locked, lockfileFound, between, found, kept, settled⟩ :=
    exists_gathered_of_run_eq_ok finished
  exact ⟨before, _, between, found, kept, fun _ => mem_withoutOwnPackage_scannedNames, rfl,
    settled⟩

theorem exitCode_eq_zero_iff : result.exitCode = 0 ↔ result.missing = [] := by
  rw [Result.exitCode, Result.passes]
  by_cases none : result.missing = [] <;> simp [none]

theorem missing_compared_eq_nil_iff :
    (gate.compared result).missing = [] ↔ ∀ name ∈ result.used, name ∈ result.declared := by
  rw [compared, List.eq_nil_iff_forall_not_mem]
  simp only [mem_missingNames, not_and, not_not]

theorem settleUnused_returns {before : Option Text}
    (follows : .pruning ∈ session.phase.successors)
    (readable : Manifest.textAt session.tree gate.manifestPath = .ok before) (fixed : Result) :
    ∃ result after, runFrom session (gate.settleUnused fixed) = (.ok result, after) := by
  rw [settleUnused]
  split
  · obtain ⟨result, after, done, -⟩ := editPhase_returns follows readable
      Manifest.edits_pruneFile (Manifest.keeps_pruneFile Action.silent_phase (fun _ _ => rfl) _ _ _)
    exact ⟨result, after, done⟩
  · exact ⟨fixed, session, rfl⟩

/-- What follows a comparison never ends the run, once the manifest can be read. -/
theorem settle_returns {before : Option Text} (comparing : session.phase = .comparing)
    (readable : Manifest.textAt session.tree gate.manifestPath = .ok before)
    (compared : Result) :
    ∃ result after, runFrom session (gate.settle compared) = (.ok result, after) := by
  rw [settle_eq, settleMissing]
  split
  case isTrue =>
    have follows : .fixing ∈ session.phase.successors := by rw [comparing]; decide
    obtain ⟨fixed, between, done, entered, middle, readableAgain⟩ :=
      editPhase_returns follows readable Manifest.edits_fixFile
        (Manifest.keeps_fixFile Action.silent_phase (fun _ _ => rfl) _ _)
    rw [addMissing_eq, Action.runFrom_bind_of_ok done]
    exact settleUnused_returns (by rw [entered]; decide) readableAgain fixed
  case isFalse =>
    rw [Action.runFrom_bind_of_ok (Action.runFrom_pure _)]
    exact settleUnused_returns (by rw [comparing]; decide) readable compared

/-- Whether nothing in a project ends a run early: the sources can be searched, the manifest can
be read, and the chosen reader tolerates the lockfile. -/
structure Runnable (gate : Gate) (tree : FileTree) (tool : Option Lockfile.Tool) : Prop where
  searched : (gate.discovery tree).failure = none
  readable : ∃ before, Manifest.textAt tree gate.manifestPath = .ok before
  tolerates : ∃ reader, gate.reader? tool = some reader ∧
    reader.Tolerates tree tool gate.lockfilePath

/-- A run returns exactly if nothing ends it early: no other step can end it. -/
theorem run_returns_iff (idle : session.phase = .idle) :
    (∃ result after, runFrom session gate.run = (.ok result, after)) ↔
      gate.Runnable session.tree session.tool := by
  constructor
  · rintro ⟨result, after, finished⟩
    rw [run_eq] at finished
    obtain ⟨used, first, scanned, finished⟩ := Action.exists_of_runFrom_bind finished
    obtain ⟨parsed, second, read, -⟩ := Action.exists_of_runFrom_bind finished
    obtain ⟨keptFirst, -⟩ := scan_eq_ok scanned
    obtain ⟨-, before, reader, -, found, chosen, tolerates, -⟩ := parse_eq_ok read
    rw [keptFirst] at found tolerates
    rw [(keeps_scan Action.silent_tool keeps_tool_advance gate).eq scanned] at chosen tolerates
    exact ⟨searched_of_scan_eq_ok scanned, ⟨before, found⟩, reader, chosen, tolerates⟩
  · rintro ⟨searched, ⟨before, readable⟩, reader, chosen, tolerates⟩
    obtain ⟨used, first, scanned, keptFirst, toolFirst, enteredFirst⟩ :=
      scan_returns (by rw [idle]; decide) searched
    rw [← keptFirst] at readable tolerates
    rw [← toolFirst] at tolerates chosen
    obtain ⟨parsed, second, read, keptSecond, enteredSecond⟩ :=
      parse_returns (by rw [enteredFirst]; decide) readable chosen tolerates
    rw [← keptSecond] at readable
    obtain ⟨third, judged, keptThird, enteredThird⟩ :=
      compare_returns (by rw [enteredSecond]; decide) parsed
    rw [← keptThird] at readable
    rw [run_eq, Action.runFrom_bind_of_ok scanned, Action.runFrom_bind_of_ok read,
      Action.runFrom_bind_of_ok judged]
    exact settle_returns enteredThird readable _

theorem runnable_of_absent {tree : FileTree} {tool : Option Lockfile.Tool} {before : Option Text}
    (searched : (gate.discovery tree).failure = none)
    (readable : Manifest.textAt tree gate.manifestPath = .ok before)
    (absent : tree.isFile gate.lockfilePath = .ok false)
    (known : gate.settings.lockfileReader ∈ Settings.readerNames) : gate.Runnable tree tool := by
  have harmless : Lockfile.Harmless tree tool gate.lockfilePath :=
    Lockfile.harmless_of_absent absent
  obtain ⟨reader, chosen⟩ := exists_chosen?_of_known known _ tool
  exact ⟨searched, ⟨before, readable⟩, reader, chosen, harmless.tolerates reader⟩

/-- Without a lockfile, a run returns if the sources can be searched and the manifest can be
read. -/
theorem run_returns {before : Option Text} (idle : session.phase = .idle)
    (searched : (gate.discovery session.tree).failure = none)
    (readable : Manifest.textAt session.tree gate.manifestPath = .ok before)
    (absent : session.tree.isFile gate.lockfilePath = .ok false)
    (known : gate.settings.lockfileReader ∈ Settings.readerNames) :
    ∃ result after, runFrom session gate.run = (.ok result, after) :=
  (run_returns_iff idle).mpr (runnable_of_absent searched readable absent known)

/-- The verdict is right and stays right. A run without additions ends with status zero
exactly if the manifest that it read declares every needed name, and then the manifest that it
leaves declares them too. -/
theorem exitCode_eq_zero_iff_needs_declared (gate : Gate) (tree : FileTree)
    (tool : Option Lockfile.Tool) (checkOnly : gate.fix = false) {result : Result} {after : Session}
    (finished : runFrom (Session.start tree tool) gate.run = (.ok result, after)) :
    ∃ before left, Manifest.textAt tree gate.manifestPath = .ok before ∧
      Manifest.textAt after.tree gate.manifestPath = .ok left ∧
      (result.exitCode = 0 ↔ ∀ name, gate.Needs tree (.ofText? before) name →
        name ∈ (Declared.ofText? before).required) ∧
      (result.exitCode = 0 → ∀ name, gate.Needs tree (.ofText? before) name →
        name ∈ (Declared.ofText? left).required) := by
  obtain ⟨before, parsed, between, found, kept, used, declared, settled⟩ :=
    exists_of_run_eq_ok finished
  change Manifest.textAt tree gate.manifestPath = .ok before at found
  change between.tree = tree at kept
  have passes : (gate.compared parsed).missing = [] ↔
      ∀ name, gate.Needs tree (.ofText? before) name →
        name ∈ (Declared.ofText? before).required := by
    rw [missing_compared_eq_nil_iff, declared]
    exact forall_congr' fun name => by rw [used]; rfl
  rw [settle, checkOnly, Bool.and_false] at settled
  simp only [Bool.false_eq_true, if_false, pure_bind] at settled
  split at settled
  case isTrue =>
    rw [← kept] at found
    obtain ⟨missing, left⟩ := removeUnused_eq_ok found settled
    rw [kept] at found
    rw [exitCode_eq_zero_iff, missing, passes]
    rcases left with same | ⟨text, rfl, pruned⟩
    · exact ⟨before, before, found, same, Iff.rfl, id⟩
    · refine ⟨some text, _, found, pruned, Iff.rfl, fun complete name needed => ?_⟩
      exact Manifest.mem_declaredNames_prune_of_needed (complete name needed)
        (.inl ((used name).mpr needed))
  case isFalse =>
    simp only [Action.runFrom_pure, Prod.mk.injEq, Except.ok.injEq] at settled
    obtain ⟨rfl, rfl⟩ := settled
    rw [exitCode_eq_zero_iff, passes]
    rw [← kept] at found
    exact ⟨before, before, kept ▸ found, found, Iff.rfl, id⟩

/-- A project with one source file, which uses one of the two packages that its manifest
requires. -/
def smallProject : FileTree :=
  ⟨[(["DESCRIPTION"], .file 0o644 (Utf8.encode "Imports: dplyr, tidyr\n")),
    (["R"], .directory 0o755),
    (["R", "model.R"], .file 0o644 (Utf8.encode "dplyr::filter(cars)\n"))]⟩

/-- A check of the project at the root, with the standard settings. -/
def smallCheck : Gate := ⟨Settings.standard, Path.anchored [], false, false, false, .usual⟩

theorem smallCheck_verdict :
    ∃ result after before left,
      runFrom (Session.start smallProject none) smallCheck.run = (.ok result, after) ∧
      Manifest.textAt smallProject smallCheck.manifestPath = .ok before ∧
      Manifest.textAt after.tree smallCheck.manifestPath = .ok left ∧
      (result.exitCode = 0 ↔ ∀ name, smallCheck.Needs smallProject (.ofText? before) name →
        name ∈ (Declared.ofText? before).required) ∧
      (result.exitCode = 0 → ∀ name, smallCheck.Needs smallProject (.ofText? before) name →
        name ∈ (Declared.ofText? left).required) := by
  have searched : (smallCheck.discovery smallProject).failure = none := rfl
  have readable : Manifest.textAt smallProject smallCheck.manifestPath =
      .ok (some "Imports: dplyr, tidyr\n") := Manifest.textAt_of_nodeAt rfl (by decide)
  have absent : smallProject.isFile smallCheck.lockfilePath = .ok false := rfl
  obtain ⟨result, after, finished⟩ : ∃ result after,
      runFrom (Session.start smallProject none) smallCheck.run = (.ok result, after) :=
    run_returns rfl searched readable absent (by decide)
  obtain ⟨before, left, verdict⟩ :=
    exitCode_eq_zero_iff_needs_declared smallCheck smallProject none rfl finished
  exact ⟨result, after, before, left, finished, verdict⟩

end Gate
end DependencyGate

/-
# Locked names that are not declared

A result lists the locked names that are declared nowhere. The list is made when names are
compared and is not touched afterwards, whereas what is declared changes with each amendment.
It is therefore right for the manifest that was read, and right for what the result says is
declared exactly if no locked name was added or pruned (`extraLocked_eq_iff_untouched`).
Pruning a locked package leaves it unmentioned (`lockedPruning_omits_pruned`).
-/

import DependencyGate.Proofs.Run.Laws

namespace DependencyGate

open DependencyGate.Action (runFrom)
open Manifest (Declared textAt)

section Names

variable {locked : List WideText} {required first second optional : List Text} {name : Text}
  {wide : WideText}

theorem widen_mem_map {names : List Text} : name.widen ∈ names.map Text.widen ↔ name ∈ names :=
  List.mem_map_of_injective Text.widen_injective

theorem mem_undeclaredLocked :
    wide ∈ undeclaredLocked locked required optional ↔
      wide ∈ locked ∧ wide ∉ required.map Text.widen ∧ wide ∉ optional.map Text.widen := by
  rw [undeclaredLocked, mem_canonical, mem_without, mem_without, and_assoc]

/-- Two sets of declared names leave the same locked names over exactly if they agree on those
locked names that are not optional. -/
theorem undeclaredLocked_eq_iff :
    undeclaredLocked locked first optional = undeclaredLocked locked second optional ↔
      ∀ name : Text, name.widen ∈ locked → name ∉ optional → (name ∈ first ↔ name ∈ second) := by
  constructor
  · intro equal name listed unneeded
    have same : name.widen ∈ undeclaredLocked locked first optional ↔
        name.widen ∈ undeclaredLocked locked second optional := by rw [equal]
    simpa [mem_undeclaredLocked, widen_mem_map, listed, unneeded, not_iff_not] using same
  · intro agree
    apply canonical_congr
    intro wide
    simp only [mem_without, and_assoc]
    refine and_congr_right fun listed => and_congr_left fun unneeded => not_congr ?_
    constructor
    · intro declared
      obtain ⟨name, inFirst, rfl⟩ := List.mem_map.mp declared
      rw [widen_mem_map] at unneeded ⊢
      exact (agree name listed unneeded).mp inFirst
    · intro declared
      obtain ⟨name, inSecond, rfl⟩ := List.mem_map.mp declared
      rw [widen_mem_map] at unneeded ⊢
      exact (agree name listed unneeded).mpr inSecond

end Names

namespace Gate

variable {gate : Gate} {session after : Session} {tree between left : FileTree}
  {tool : Option Lockfile.Tool} {before middle : Option Text} {lockfileFound : Bool}
  {compared fixed result : Result} {path : Path} {name : Text}

/-! ## What amendments do to what is declared -/

/-- What is known of the lockfile is not touched by an addition. -/
theorem locked_of_addition
    (makes : (gate.addition compared).Makes path tree before compared fixed between middle) :
    fixed.locked = compared.locked ∧ fixed.optional = compared.optional ∧
      fixed.extraLocked = compared.extraLocked := by
  cases makes <;> exact ⟨rfl, rfl, rfl⟩

theorem locked_of_removal
    (makes : (gate.removal fixed).Makes path between middle fixed result left before) :
    result.locked = fixed.locked ∧ result.optional = fixed.optional ∧
      result.extraLocked = fixed.extraLocked := by
  cases makes <;> exact ⟨rfl, rfl, rfl⟩

/-- After an addition, the added names are declared besides those that were. -/
theorem mem_declared_of_addition (unadded : compared.added = [])
    (makes : (gate.addition compared).Makes path tree before compared fixed between middle) :
    name ∈ fixed.declared ↔ name ∈ compared.declared ∨ name ∈ fixed.added := by
  cases makes with
  | idle => simp [unadded]
  | refused => simp [withWarning, unadded]
  | written => simp [addition, withAdded]

/-- After a removal, the pruned names are not declared any more. -/
theorem mem_declared_of_removal (unpruned : fixed.pruned = [])
    (makes : (gate.removal fixed).Makes path between middle fixed result left before) :
    name ∈ result.declared ↔ name ∈ fixed.declared ∧ name ∉ result.pruned := by
  cases makes with
  | idle => simp [unpruned]
  | refused => simp [withWarning, unpruned]
  | written => simp [removal, withPruned]

/-- The added names were not required before. -/
theorem not_mem_required_of_addition
    (same : compared = gate.comparison tree tool before lockfileFound) {start : FileTree}
    (makes : (gate.addition compared).Makes path start before compared fixed between middle) :
    ∀ name ∈ fixed.added, name ∉ (Declared.ofText? before).required := by
  subst same
  cases makes with
  | idle | refused => exact fun _ listed => absurd listed List.not_mem_nil
  | written _ found =>
      rw [names_addition rfl found]
      exact fun name added => (mem_missing_comparison.mp added).2

theorem pruned_of_addition (unpruned : compared.pruned = [])
    (makes : (gate.addition compared).Makes path tree before compared fixed between middle) :
    fixed.pruned = [] := by
  cases makes <;> exact unpruned

/-! ## A whole run -/

/-- What the names in a result are that a run does not report as used: the locked and the
optional ones are those that it read, the undeclared locked ones follow from what it read, and
what it says is declared is what it read with the added and without the pruned names. -/
structure Retells (gate : Gate) (tree : FileTree) (tool : Option Lockfile.Tool)
    (before : Option Text) (result : Result) : Prop where
  locked_eq : result.locked = gate.lockedNames tree tool
  optional_eq : result.optional = (Declared.ofText? before).optional
  extraLocked_eq : result.extraLocked =
    undeclaredLocked result.locked (Declared.ofText? before).required result.optional
  mem_declared_iff : ∀ name, name ∈ result.declared ↔
    (name ∈ (Declared.ofText? before).required ∨ name ∈ result.added) ∧ name ∉ result.pruned
  not_mem_required_of_added : ∀ name ∈ result.added, name ∉ (Declared.ofText? before).required
  not_mem_pruned_of_added : ∀ name ∈ result.added, name ∉ result.pruned

theorem exists_retells_of_run_eq_ok
    (finished : runFrom session gate.run = (.ok result, after)) :
    ∃ before, textAt session.tree gate.manifestPath = .ok before ∧
      gate.Retells session.tree session.tool before result := by
  obtain ⟨before, lockfileFound, fixed, between, middle, left, found, added, removed⟩ :=
    exists_amendments_of_run_eq_ok finished
  obtain ⟨locked, optional, extraLocked⟩ := locked_of_removal removed
  obtain ⟨lockedBefore, optionalBefore, extraLockedBefore⟩ := locked_of_addition added
  have lawful := isLawful_of_removal removed (isLawful_of_addition rfl added)
  have sameAdded := (keeps_of_removal removed).2.2.1
  refine ⟨before, found, ?_⟩
  constructor
  case locked_eq => rw [locked, lockedBefore]; rfl
  case optional_eq => rw [optional, optionalBefore]; rfl
  case extraLocked_eq =>
    rw [extraLocked, extraLockedBefore, locked, lockedBefore, optional, optionalBefore]
    rfl
  case mem_declared_iff =>
    intro name
    rw [mem_declared_of_removal (pruned_of_addition rfl added) removed,
      mem_declared_of_addition rfl added, sameAdded]
    rfl
  case not_mem_required_of_added =>
    intro name listed
    exact not_mem_required_of_addition rfl added name (sameAdded ▸ listed)
  case not_mem_pruned_of_added =>
    intro name listed pruned
    exact (lawful.apart_of_pruned name pruned).1 (lawful.used_of_added name listed)

/-- The undeclared locked names are those of the manifest that a run read. They are those of
what its result says is declared exactly if it neither added nor pruned any of them: no locked
name that is not optional was added, and none that was required was pruned. -/
theorem extraLocked_eq_iff_untouched (gate : Gate) (tree : FileTree)
    (tool : Option Lockfile.Tool) {result : Result} {after : Session}
    (finished : runFrom (Session.start tree tool) gate.run = (.ok result, after)) :
    ∃ before, textAt tree gate.manifestPath = .ok before ∧
      result.extraLocked =
        undeclaredLocked result.locked (Declared.ofText? before).required result.optional ∧
      (result.extraLocked = undeclaredLocked result.locked result.declared result.optional ↔
        ∀ name : Text, name.widen ∈ result.locked → name ∉ result.optional →
          name ∉ result.added ∧
            (name ∈ (Declared.ofText? before).required → name ∉ result.pruned)) := by
  obtain ⟨before, found, retells⟩ := exists_retells_of_run_eq_ok finished
  refine ⟨before, found, retells.extraLocked_eq, ?_⟩
  rw [retells.extraLocked_eq, undeclaredLocked_eq_iff]
  refine forall_congr' fun name => imp_congr_right fun _ => imp_congr_right fun _ => ?_
  have new := retells.not_mem_required_of_added name
  have kept := retells.not_mem_pruned_of_added name
  rw [retells.mem_declared_iff]
  tauto

/-- A manifest that requires two packages. -/
def pairedManifest : Text := "Imports: dplyr, tidyr\n"

/-- A project with that manifest, which uses one of the packages and has locked the other. -/
def lockedPair : FileTree :=
  ⟨[(["DESCRIPTION"], .file 0o644 (Utf8.encode pairedManifest)),
    (["R"], .directory 0o755),
    (["R", "model.R"], .file 0o644 (Utf8.encode "dplyr::filter(cars)\n")),
    (["renv.lock"], .file 0o644
      (Utf8.encode "\x7b\"Packages\": \x7b\"tidyr\": \x7b\x7d\x7d\x7d"))]⟩

/-- What the project refers to and locks, what its manifest says, and what pruning takes out of
that. -/
theorem facts_lockedPair :
    smallPruning.scannedNames lockedPair = [("dplyr" : Text)] ∧
    (Lockfile.Reader.json Headroom.usual.values).packages lockedPair none
      smallPruning.lockfilePath = .ok [Text.widen "tidyr"] ∧
    smallPruning.lockedNames lockedPair none = [Text.widen "tidyr"] ∧
    (Declared.ofText pairedManifest).package = none ∧
    (Declared.ofText pairedManifest).required = [("dplyr" : Text), "tidyr"] ∧
    (Declared.ofText pairedManifest).optional = [] ∧
    Manifest.prunedNames [("dplyr" : Text)] Settings.standard.protectedPackages pairedManifest =
      [("tidyr" : Text)] := by
  decide +kernel

theorem textAt_lockedPair :
    textAt lockedPair smallPruning.manifestPath = .ok (some pairedManifest) :=
  Manifest.textAt_of_nodeAt rfl (by decide)

theorem smallPruning_returns_lockedPair :
    ∃ result after,
      runFrom (Session.start lockedPair none) smallPruning.run = (.ok result, after) := by
  have searched : (smallPruning.discovery lockedPair).failure = none := rfl
  obtain ⟨-, packages, -⟩ := facts_lockedPair
  have present : lockedPair.isFile smallPruning.lockfilePath = .ok true := rfl
  have tolerates : (Lockfile.Reader.json Headroom.usual.values).Tolerates lockedPair none
      smallPruning.lockfilePath :=
    ⟨⟨true, present⟩, fun _ error failed => by simp [packages] at failed⟩
  exact (run_returns_iff rfl).mpr
    ⟨searched, ⟨some pairedManifest, textAt_lockedPair⟩, _, rfl, tolerates⟩

theorem smallPruning_retells_lockedPair :
    ∃ result after before,
      runFrom (Session.start lockedPair none) smallPruning.run = (.ok result, after) ∧
      textAt lockedPair smallPruning.manifestPath = .ok before ∧
      result.extraLocked =
        undeclaredLocked result.locked (Declared.ofText? before).required result.optional := by
  obtain ⟨result, after, finished⟩ := smallPruning_returns_lockedPair
  obtain ⟨before, found, read, -⟩ :=
    extraLocked_eq_iff_untouched smallPruning lockedPair none finished
  exact ⟨result, after, before, finished, found, read⟩

theorem replaceFile_lockedPair (text : Text) :
    (lockedPair.replaceFile smallPruning.manifestPath text.widen).1 = .ok () := by
  have held : lockedPair.node? [("DESCRIPTION" : Text)] =
      some (.file 0o644 (Utf8.encode pairedManifest)) := rfl
  exact Manifest.replaceFile_description held text

theorem neededNames_lockedPair :
    smallPruning.neededNames lockedPair (.ofText pairedManifest) = [("dplyr" : Text)] := by
  obtain ⟨scanned, -, -, package, -⟩ := facts_lockedPair
  rw [neededNames, scanned, package]
  rfl

/-- A run that prunes the locked package does not mention that it is locked and not declared. -/
theorem lockedPruning_omits_pruned :
    ∃ result after,
      runFrom (Session.start lockedPair none) smallPruning.run = (.ok result, after) ∧
      result.extraLocked ≠ undeclaredLocked result.locked result.declared result.optional := by
  obtain ⟨result, after, finished⟩ := smallPruning_returns_lockedPair
  obtain ⟨-, -, locks, -, requires, suggests, removable⟩ := facts_lockedPair
  have complete : ∀ name ∈ smallPruning.neededNames lockedPair (.ofText pairedManifest),
      name ∈ (Declared.ofText pairedManifest).required := by
    simp [neededNames_lockedPair, requires]
  obtain ⟨pruned, -⟩ := prunes_of_run_eq_ok rfl rfl textAt_lockedPair complete
    (replaceFile_lockedPair _) finished
  obtain ⟨before, found, retells⟩ := exists_retells_of_run_eq_ok finished
  obtain rfl := Except.ok.inj (textAt_lockedPair.symm.trans found)
  have locked : result.locked = [Text.widen "tidyr"] := retells.locked_eq.trans locks
  have removed : ("tidyr" : Text) ∈ result.pruned := by
    rw [pruned, neededNames_lockedPair]
    exact removable ▸ List.mem_singleton_self _
  have undeclared : ("tidyr" : Text) ∉ result.declared := fun declared =>
    ((retells.mem_declared_iff _).mp declared).2 removed
  have notOptional : ("tidyr" : Text) ∉ result.optional := by
    rw [retells.optional_eq]
    exact suggests ▸ List.not_mem_nil
  have required : ("tidyr" : Text) ∈ (Declared.ofText? (some pairedManifest)).required := by
    simp [Declared.ofText?, requires]
  refine ⟨result, after, finished, ?_⟩
  rw [retells.extraLocked_eq, ne_eq, undeclaredLocked_eq_iff]
  intro agree
  exact undeclared ((agree "tidyr" (by rw [locked]; exact List.mem_cons_self) notOptional).mp
    required)

end Gate
end DependencyGate

/-
# Which names a run prunes

A run removes from the manifest what its sources need no declaration for. That is less
than what they do not refer to: a name that is no package name, a base package and the
project's own package need no declaration, and a reference to one of them does not keep
its entry (`referenced_pruned_exempt`). So pruning may take out an entry that the code
uses.
-/

import DependencyGate.Proofs.Run.Agreement

namespace DependencyGate

open DependencyGate.Action (runFrom)
open Manifest (Declared declaredNames fieldEntries entryName)

namespace Gate

variable {gate : Gate} {session after : Session} {compared fixed result : Result}
  {before middle : Option Text} {tree : FileTree} {declared : Declared} {name text : Text}

/-! ## Names that are needed -/

/-- Whether a name needs no declaration, referred to or not. -/
def Exempt (gate : Gate) (declared : Declared) (name : Text) : Prop :=
  PackageName.isValid name = false ∨ name ∈ gate.settings.basePackages ∨
    declared.package = some name

theorem needs_iff :
    gate.Needs tree declared name ↔
      gate.References tree name ∧ ¬gate.Exempt declared name := by
  rw [Exempt, not_or, not_or, Bool.not_eq_false]
  constructor
  · intro needed
    exact ⟨needed.referenced, needed.valid, needed.not_base, needed.not_own⟩
  · rintro ⟨referenced, valid, notBase, notOwn⟩
    exact ⟨referenced, valid, notBase, notOwn⟩

/-- The names that a project has to declare, as a run lists them. -/
def neededNames (gate : Gate) (tree : FileTree) (declared : Declared) : List Text :=
  gate.withoutOwnPackage (gate.scannedNames tree) declared.package

theorem mem_neededNames :
    name ∈ gate.neededNames tree declared ↔ gate.Needs tree declared name :=
  mem_withoutOwnPackage_scannedNames

theorem withoutOwnPackage_nil (package : Option Text) :
    gate.withoutOwnPackage [] package = [] := by
  cases package <;> simp [withoutOwnPackage]

/-! ## The part of a run that prunes -/

/-- Adding missing packages does not touch the used names. -/
theorem used_settleMissing
    (found : Manifest.textAt session.tree gate.manifestPath = .ok before)
    (valid : ∀ name ∈ compared.missing, PackageName.isValid name = true)
    (finished : runFrom session (gate.settleMissing compared) = (.ok fixed, after)) :
    fixed.used = compared.used := by
  have plain : ∀ name ∈ compared.missing, '\r' ∉ name := fun name missing =>
    PackageName.return_not_mem_of_isValid (valid name missing)
  rw [settleMissing] at finished
  split at finished
  case isFalse =>
    simp only [Action.runFrom_pure, Prod.mk.injEq, Except.ok.injEq] at finished
    rw [finished.1]
  case isTrue =>
    rcases addMissing_cases found plain finished with ⟨-, rfl⟩ | ⟨-, warning, rfl⟩ <;> rfl

/-- `gate.Prunes used tree names after`: pruning with the used names has left the manifest as it
was, or it has replaced it by the pruned one and accounts for the names. -/
inductive Prunes (gate : Gate) (used : List Text) (tree : FileTree) :
    List Text → FileTree → Prop
  | kept : Prunes gate used tree [] tree
  | written {text : Text} {place : Location} {mode : Nat}
      (found : Manifest.textAt tree gate.manifestPath = .ok (some text))
      (site : tree.site gate.manifestPath = .ok place) :
      Prunes gate used tree (Manifest.prunedNames used gate.settings.protectedPackages text)
        (tree.put place (.file mode
          (Utf8.encode (Manifest.pruned used gate.settings.protectedPackages text))))

/-- Removing unused packages prunes the manifest and touches no missing name. -/
theorem prunes_settleUnused (unpruned : fixed.pruned = [])
    (finished : runFrom session (gate.settleUnused fixed) = (.ok result, after)) :
    gate.Prunes fixed.used session.tree result.pruned after.tree ∧
      result.missing = fixed.missing := by
  rw [settleUnused] at finished
  split at finished
  case isFalse =>
    simp only [Action.runFrom_pure, Prod.mk.injEq, Except.ok.injEq] at finished
    obtain ⟨rfl, rfl⟩ := finished
    exact ⟨unpruned ▸ .kept, rfl⟩
  case isTrue =>
    rw [removeUnused_eq] at finished
    rcases editPhase_cases Manifest.edits_pruneFile finished with
      ⟨written, edits, rfl⟩ | ⟨failure, edits, rfl⟩
    · refine ⟨?_, rfl⟩
      generalize ended : Except.ok written = outcome at edits
      generalize after.tree = left at edits ⊢
      cases edits with
      | failed => cases ended
      | idle =>
          obtain rfl := Except.ok.inj ended
          exact .kept
      | written found _ site =>
          obtain rfl := Except.ok.inj ended
          exact .written found site
    · refine ⟨?_, rfl⟩
      rw [edits.eq_of_error, withWarning, unpruned]
      exact .kept

/-- Removing unused packages removes all that pruning the manifest removes, or none. -/
theorem pruned_settleUnused
    (found : Manifest.textAt session.tree gate.manifestPath = .ok middle)
    (unpruned : fixed.pruned = [])
    (finished : runFrom session (gate.settleUnused fixed) = (.ok result, after)) :
    result.pruned = [] ∨ result.pruned =
      middle.elim [] (Manifest.prunedNames fixed.used gate.settings.protectedPackages) := by
  obtain ⟨prunes, -⟩ := prunes_settleUnused unpruned finished
  generalize result.pruned = names at prunes ⊢
  generalize after.tree = left at prunes
  cases prunes with
  | kept => exact .inl rfl
  | written read =>
      obtain rfl := Except.ok.inj (found.symm.trans read)
      exact .inr rfl

/-- A run that comes to pruning prunes the manifest that its additions left, of which the
needed names are kept. -/
theorem pruned_of_run_eq_ok (finished : runFrom session gate.run = (.ok result, after)) :
    ∃ before, Manifest.textAt session.tree gate.manifestPath = .ok before ∧
      (result.pruned = [] ∨ result.pruned =
        (before.map (Manifest.addEntries · .required result.added)).elim []
          (Manifest.prunedNames (gate.neededNames session.tree (.ofText? before))
            gate.settings.protectedPackages)) := by
  obtain ⟨before, locked, lockfileFound, between, found, kept, settled⟩ :=
    exists_gathered_of_run_eq_ok finished
  rw [settle_eq] at settled
  obtain ⟨fixed, third, completed, settled⟩ := Action.exists_of_runFrom_bind settled
  have foundBetween := kept.symm ▸ found
  obtain ⟨unpruned, extended, -⟩ :=
    settleMissing_eq_ok foundBetween valid_of_mem_missing rfl rfl completed
  have used := used_settleMissing foundBetween valid_of_mem_missing completed
  obtain ⟨added, -⟩ := settleUnused_eq_ok extended unpruned settled
  refine ⟨before, found, ?_⟩
  have pruned := pruned_settleUnused extended unpruned settled
  rwa [used, ← added] at pruned

/-- Pruning with the needed names removes the entries of declared names that are not
protected and not needed. -/
theorem mem_prunedNames_neededNames {kept : List Text} :
    name ∈ Manifest.prunedNames (gate.neededNames tree declared) kept text ↔
      name ∈ declaredNames text .required ∧
        (∃ entry ∈ fieldEntries text .required, entryName entry = name) ∧
        name ∉ kept ∧ (gate.References tree name → gate.Exempt declared name) := by
  rw [Manifest.mem_prunedNames, Manifest.mem_unusedNames, mem_neededNames, needs_iff, not_and,
    not_not]
  tauto

/-- A run prunes what is not needed, not what is not referred to: a pruned name that the
sources refer to needs no declaration. If a run prunes anything then it prunes every entry
whose declared name is neither needed nor protected. -/
theorem referenced_pruned_exempt (gate : Gate) (tree : FileTree) (tool : Option Lockfile.Tool)
    {result : Result} {after : Session}
    (finished : runFrom (Session.start tree tool) gate.run = (.ok result, after)) :
    ∃ before, Manifest.textAt tree gate.manifestPath = .ok before ∧
      (∀ name ∈ result.pruned, gate.References tree name →
        gate.Exempt (.ofText? before) name) ∧
      (result.pruned ≠ [] →
        ∀ text ∈ before.map (Manifest.addEntries · .required result.added), ∀ name,
          name ∈ result.pruned ↔ name ∈ declaredNames text .required ∧
            (∃ entry ∈ fieldEntries text .required, entryName entry = name) ∧
            name ∉ gate.settings.protectedPackages ∧
            (gate.References tree name → gate.Exempt (.ofText? before) name)) := by
  obtain ⟨before, found, pruned⟩ := pruned_of_run_eq_ok finished
  change Manifest.textAt tree gate.manifestPath = .ok before at found
  refine ⟨before, found, ?_⟩
  rcases pruned with none | all
  · simp [none]
  · cases extended : before.map (Manifest.addEntries · .required result.added) with
    | none =>
        rw [extended] at all
        simp [all]
    | some text =>
        rw [extended] at all
        rw [all]
        refine ⟨fun name listed => (mem_prunedNames_neededNames.mp listed).2.2.2, ?_⟩
        intro _ other same name
        obtain rfl := Option.mem_some_iff.mp same
        exact mem_prunedNames_neededNames

/-! ## Runs that add nothing -/

/-- Whether a result is that of comparing what a manifest requires with what the sources need. -/
structure IsComparison (gate : Gate) (tree : FileTree) (before : Option Text) (compared : Result) :
    Prop where
  used_eq : compared.used = gate.neededNames tree (.ofText? before)
  mem_missing_iff : ∀ name, name ∈ compared.missing ↔
    gate.Needs tree (.ofText? before) name ∧ name ∉ (Declared.ofText? before).required
  unused_eq : compared.unused = Manifest.unusedNames (Declared.ofText? before).required
    compared.used gate.settings.protectedPackages
  pruned_eq : compared.pruned = []

theorem isComparison_gathered (tree : FileTree) (before : Option Text) (locked : List WideText)
    (lockfileFound : Bool) :
    gate.IsComparison tree before (gate.compared (gate.gathered (gate.scannedNames tree)
      (.ofText? before) locked lockfileFound)) where
  used_eq := rfl
  mem_missing_iff name := by
    rw [← mem_neededNames]
    exact mem_missingNames
  unused_eq := rfl
  pruned_eq := rfl

/-- All that a run without additions does with its comparison is to remove unused packages. -/
theorem exists_comparison_of_run_eq_ok (checks : gate.fix = false)
    (found : Manifest.textAt session.tree gate.manifestPath = .ok before)
    (finished : runFrom session gate.run = (.ok result, after)) :
    ∃ compared between, gate.IsComparison session.tree before compared ∧
      between.tree = session.tree ∧
      runFrom between (gate.settleUnused compared) = (.ok result, after) := by
  obtain ⟨read, locked, lockfileFound, between, foundAgain, kept, settled⟩ :=
    exists_gathered_of_run_eq_ok finished
  obtain rfl := Except.ok.inj (found.symm.trans foundAgain)
  rw [settle_eq, settleMissing, checks, Bool.and_false, if_neg (by simp),
    Action.runFrom_bind_of_ok (Action.runFrom_pure _)] at settled
  exact ⟨_, between, isComparison_gathered _ _ _ _, kept, settled⟩

/-- A run without additions finds those needed names missing that the manifest does not require,
and prunes with the needed names. -/
theorem prunes_of_run_without_additions (checks : gate.fix = false)
    (found : Manifest.textAt session.tree gate.manifestPath = .ok before)
    (finished : runFrom session gate.run = (.ok result, after)) :
    gate.Prunes (gate.neededNames session.tree (.ofText? before)) session.tree result.pruned
        after.tree ∧
      ∀ name, name ∈ result.missing ↔
        gate.Needs session.tree (.ofText? before) name ∧
          name ∉ (Declared.ofText? before).required := by
  obtain ⟨compared, between, comparison, kept, settled⟩ :=
    exists_comparison_of_run_eq_ok checks found finished
  obtain ⟨prunes, missing⟩ := prunes_settleUnused comparison.pruned_eq settled
  rw [kept, comparison.used_eq] at prunes
  rw [missing]
  exact ⟨prunes, comparison.mem_missing_iff⟩

/-- Such a run passes exactly if the manifest requires every needed name. -/
theorem exitCode_eq_zero_iff_of_run_without_additions (checks : gate.fix = false)
    (found : Manifest.textAt session.tree gate.manifestPath = .ok before)
    (finished : runFrom session gate.run = (.ok result, after)) :
    result.exitCode = 0 ↔ ∀ name, gate.Needs session.tree (.ofText? before) name →
      name ∈ (Declared.ofText? before).required := by
  obtain ⟨-, missing⟩ := prunes_of_run_without_additions checks found finished
  rw [exitCode_eq_zero_iff, List.eq_nil_iff_forall_not_mem]
  simp only [missing, not_and, not_not]

/-- A run that is not to prune either leaves the tree as it is. -/
theorem tree_of_run_without_pruning (checks : gate.fix = false) (keeps : gate.prune = false)
    (found : Manifest.textAt session.tree gate.manifestPath = .ok before)
    (finished : runFrom session gate.run = (.ok result, after)) : after.tree = session.tree := by
  obtain ⟨compared, between, -, kept, settled⟩ :=
    exists_comparison_of_run_eq_ok checks found finished
  rw [settleUnused, keeps, Bool.and_false, Bool.false_and, if_neg (by simp), Action.runFrom_pure,
    Prod.mk.injEq] at settled
  rw [← settled.2, kept]

section Pruning

variable {text : Text}

/-- Nothing is pruned if nothing is unused. -/
theorem prunedNames_of_unusedNames_eq_nil {used kept : List Text}
    (none : Manifest.unusedNames (declaredNames text .required) used kept = []) :
    Manifest.prunedNames used kept text = [] := by
  rw [List.eq_nil_iff_forall_not_mem]
  intro name removed
  have unused := (Manifest.mem_prunedNames.mp removed).1
  simp [none] at unused

/-- If nothing is missing, the unused packages are removed unless the manifest cannot be
replaced. -/
theorem settleUnused_prunes (prunes : gate.prune = true) (complete : fixed.missing = [])
    (unpruned : fixed.pruned = [])
    (unused : fixed.unused = Manifest.unusedNames (declaredNames text .required) fixed.used
      gate.settings.protectedPackages)
    (readable : Manifest.textAt session.tree gate.manifestPath = .ok (some text))
    (replaceable : (session.tree.replaceFile gate.manifestPath
      (Manifest.pruned fixed.used gate.settings.protectedPackages text).widen).1 = .ok ())
    (finished : runFrom session (gate.settleUnused fixed) = (.ok result, after)) :
    result.pruned = Manifest.prunedNames fixed.used gate.settings.protectedPackages text ∧
      Manifest.textAt after.tree gate.manifestPath =
        .ok (some (Manifest.pruned fixed.used gate.settings.protectedPackages text)) := by
  rw [settleUnused] at finished
  split at finished
  case isTrue =>
    rw [removeUnused_eq] at finished
    rcases editPhase_cases Manifest.edits_pruneFile finished with
      ⟨written, edits, rfl⟩ | ⟨failure, edits, rfl⟩
    · obtain ⟨read, rfl⟩ := edits.textAt_of_ok readable
        (fun _ => Manifest.pruned_of_prunedNames_eq_nil) (fun _ => Manifest.return_not_mem_pruned)
      exact ⟨rfl, read⟩
    · obtain ⟨error, refused⟩ := edits.refused readable
      rw [refused] at replaceable
      cases replaceable
  case isFalse idle =>
    have none : fixed.unused = [] := by
      simpa [Result.passes, complete, prunes] using idle
    rw [unused] at none
    have nothing := prunedNames_of_unusedNames_eq_nil none
    simp only [Action.runFrom_pure, Prod.mk.injEq, Except.ok.injEq] at finished
    obtain ⟨rfl, rfl⟩ := finished
    rw [nothing, Manifest.pruned_of_prunedNames_eq_nil nothing]
    exact ⟨unpruned, readable⟩

/-- A run that adds nothing and passes prunes the manifest, unless it cannot be replaced. -/
theorem prunes_of_run_eq_ok {tool : Option Lockfile.Tool} (checks : gate.fix = false)
    (prunes : gate.prune = true)
    (readable : Manifest.textAt tree gate.manifestPath = .ok (some text))
    (complete : ∀ name ∈ gate.neededNames tree (.ofText text),
      name ∈ declaredNames text .required)
    (replaceable : (tree.replaceFile gate.manifestPath
      (Manifest.pruned (gate.neededNames tree (.ofText text))
        gate.settings.protectedPackages text).widen).1 = .ok ())
    (finished : runFrom (Session.start tree tool) gate.run = (.ok result, after)) :
    result.pruned = Manifest.prunedNames (gate.neededNames tree (.ofText text))
        gate.settings.protectedPackages text ∧
      Manifest.textAt after.tree gate.manifestPath =
        .ok (some (Manifest.pruned (gate.neededNames tree (.ofText text))
          gate.settings.protectedPackages text)) := by
  obtain ⟨compared, between, comparison, kept, settled⟩ :=
    exists_comparison_of_run_eq_ok checks readable finished
  change between.tree = tree at kept
  have used : compared.used = gate.neededNames tree (.ofText text) := comparison.used_eq
  have missing : compared.missing = [] := by
    rw [List.eq_nil_iff_forall_not_mem]
    intro name listed
    obtain ⟨needed, absent⟩ := (comparison.mem_missing_iff name).mp listed
    exact absent (complete name (mem_neededNames.mpr needed))
  rw [← used] at replaceable ⊢
  rw [← kept] at readable replaceable
  exact settleUnused_prunes prunes missing comparison.pruned_eq comparison.unused_eq readable
    replaceable settled

end Pruning

/-- A run on the project at the root that prunes what is unused. -/
def smallPruning : Gate := ⟨Settings.standard, Path.anchored [], false, true, false, .usual⟩

/-- A manifest that requires a base package. -/
def methodsManifest : Text := "Imports: methods\n"

/-- A project with that manifest, which calls the package. -/
def methodsProject : FileTree :=
  ⟨[(["DESCRIPTION"], .file 0o644 (Utf8.encode methodsManifest)),
    (["R"], .directory 0o755),
    (["R", "model.R"], .file 0o644 (Utf8.encode "methods::is(1, f)\n"))]⟩

theorem textAt_methodsProject :
    Manifest.textAt methodsProject smallPruning.manifestPath = .ok (some methodsManifest) :=
  Manifest.textAt_of_nodeAt rfl (by decide)

theorem smallPruning_returns :
    ∃ result after,
      runFrom (Session.start methodsProject none) smallPruning.run = (.ok result, after) := by
  have searched : (smallPruning.discovery methodsProject).failure = none := rfl
  have absent : methodsProject.isFile smallPruning.lockfilePath = .ok false := rfl
  exact run_returns rfl searched textAt_methodsProject absent (by decide)

theorem replaceFile_methodsProject (text : Text) :
    (methodsProject.replaceFile smallPruning.manifestPath text.widen).1 = .ok () := by
  have held : methodsProject.node? [("DESCRIPTION" : Text)] =
      some (.file 0o644 (Utf8.encode methodsManifest)) := rfl
  exact Manifest.replaceFile_description held text

/-- What that run says of the names it prunes. -/
theorem smallPruning_prunes_exempt :
    ∃ result after before, runFrom (Session.start methodsProject none) smallPruning.run =
        (.ok result, after) ∧
      Manifest.textAt methodsProject smallPruning.manifestPath = .ok before ∧
      ∀ name ∈ result.pruned, smallPruning.References methodsProject name →
        smallPruning.Exempt (.ofText? before) name := by
  obtain ⟨result, after, finished⟩ := smallPruning_returns
  obtain ⟨before, found, exempt, -⟩ :=
    referenced_pruned_exempt smallPruning methodsProject none finished
  exact ⟨result, after, before, finished, found, exempt⟩

/-- It takes the base package out of the manifest, although the code refers to it. -/
theorem smallPruning_prunes_reference :
    ∃ result after, runFrom (Session.start methodsProject none) smallPruning.run =
        (.ok result, after) ∧
      smallPruning.References methodsProject "methods" ∧ ("methods" : Text) ∈ result.pruned := by
  obtain ⟨result, after, finished⟩ := smallPruning_returns
  have unneeded : smallPruning.neededNames methodsProject (.ofText methodsManifest) = [] := by
    have none : smallPruning.scannedNames methodsProject = [] := by decide +kernel
    rw [neededNames, none, withoutOwnPackage_nil]
  obtain ⟨pruned, -⟩ := prunes_of_run_eq_ok rfl rfl textAt_methodsProject (by simp [unneeded])
    (replaceFile_methodsProject _) finished
  rw [unneeded] at pruned
  refine ⟨result, after, finished, mem_references_iff.mp ?_, ?_⟩
  · have scanned : (smallPruning.scanned methodsProject).references.map (·.token.name) =
          [("methods" : Text)] := by decide +kernel
    rw [scanned]
    exact List.mem_cons_self
  · rw [pruned]
    decide +kernel

end Gate
end DependencyGate

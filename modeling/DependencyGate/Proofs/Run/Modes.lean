/-
# Pruning in one mode, checking in the other

A check in strict mode scans more directories than a pruning in standard mode. A pruning may
therefore take out what only the further directories need. A project that passes the strict
check does so again after it exactly if no such name is lost
(`strictCheck_after_standardPruning`); nothing else of what the check sees is touched by the
pruning, as long as the manifest is no source file and not the lockfile. A manifest that is a
source file may come to refer to packages when entries are taken out of it, and then the check
can fail without any needed name being lost (`strictCheck_fails_after_standardPruning`).
-/

import DependencyGate.Proofs.Manifest.Confinement
import DependencyGate.Proofs.Run.Pruned
import DependencyGate.Proofs.Source.Search

namespace DependencyGate

open DependencyGate.Action (runFrom)
open Manifest (Declared SharesEntry)

/-- Pruning does not touch the name of the project's own package. -/
theorem Manifest.package_pruned (used kept : List Text) (text : Text) :
    (Declared.ofText (pruned used kept text)).package = (Declared.ofText text).package := by
  cases found : Block.find? Field.required.header text.lines with
  | none =>
      have unchanged : prunedNames used kept text = [] := by
        rw [prunedNames, removeEntries, found]
      rw [pruned_of_prunedNames_eq_nil unchanged]
  | some block =>
      obtain ⟨again, replaces, -⟩ := exists_replaces_removeEntries found
        (unusedNames (declaredNames text .required) used kept)
      rw [pruned_eq_removeEntries]
      exact replaces.package_eq

namespace Gate

variable {gate : Gate} {session after between : Session} {result first second pruning : Result}
  {before : Option Text} {tree : FileTree} {tool : Option Lockfile.Tool} {name text : Text}
  {place : Location} {mode : Nat}

/-! ## Manifests that are only manifests -/

/-- Whether the manifest is no source file of a project and not its lockfile, not even over
links. Otherwise pruning changes what is scanned, or what the reader of the lockfile is given. -/
structure ManifestApart (gate : Gate) (tree : FileTree) : Prop where
  source : ∀ place, tree.resolve gate.manifestPath = .ok place →
    ∀ found ∈ (gate.discovery tree).found, ¬tree.Reaches found.1 place
  lockfile : ∀ place, tree.resolve gate.manifestPath = .ok place →
    ¬tree.Reaches gate.lockfilePath place

section Replaced

variable (apart : gate.ManifestApart tree) (file : tree.isFile gate.manifestPath = .ok true)
  (site : tree.site gate.manifestPath = .ok place) (mode : Nat) (content : List UInt8)

include file site

/-- The search for the sources does not notice that the manifest has been replaced. -/
theorem discovery_put : gate.discovery (tree.put place (.file mode content)) =
    gate.discovery tree := by
  obtain ⟨left, directory, target, onTheWay, leadsToFile, -, rfl⟩ :=
    FileTree.exists_leadsToFile_of_site file site
  exact Source.discover_put leadsToFile mode content (onTheWay.isEntryName (by simp)) _ _ _ _

include apart

/-- The sources refer to the same names after the manifest has been replaced. -/
theorem references_put :
    gate.References (tree.put place (.file mode content)) name ↔ gate.References tree name := by
  obtain ⟨left, directory, target, onTheWay, leadsToFile, resolved, rfl⟩ :=
    FileTree.exists_leadsToFile_of_site file site
  have same := Source.readableFiles_put leadsToFile mode content (apart.source target resolved)
  rw [← mem_references_iff, ← mem_references_iff, references_scanned, references_scanned,
    discovery_put file site, same]

/-- The needed names are the same if the new manifest has the same package name. -/
theorem needs_put_iff {declared other : Declared} (same : other.package = declared.package) :
    gate.Needs (tree.put place (.file mode content)) other name ↔
      gate.Needs tree declared name := by
  rw [needs_iff, needs_iff, references_put apart file site, Exempt, Exempt, same]

/-- What the check depends on besides the manifest is the same after the manifest has been
replaced. -/
theorem Runnable.put (runnable : gate.Runnable tree tool)
    (readable : ∃ left, Manifest.textAt (tree.put place (.file mode content)) gate.manifestPath =
      .ok left) : gate.Runnable (tree.put place (.file mode content)) tool := by
  obtain ⟨left, directory, target, onTheWay, leadsToFile, resolved, rfl⟩ :=
    FileTree.exists_leadsToFile_of_site file site
  have other := apart.lockfile target resolved
  have asked := FileTree.isFile_put_of_apart leadsToFile mode content other
  obtain ⟨reader, chosen, tolerates⟩ := runnable.tolerates
  refine ⟨?_, readable, reader, chosen, ?_, ?_⟩
  · rw [discovery_put file site]
    exact runnable.searched
  · rw [asked]
    exact tolerates.asked
  · rw [asked]
    intro present error failed
    have read := FileTree.read_put_of_isFile leadsToFile mode content other present
    rw [Lockfile.packages_congr reader read] at failed
    exact tolerates.faults present error failed

end Replaced

/-! ## The two modes -/

/-- The check of a project in strict mode, which changes nothing. -/
def strictCheck (gate : Gate) : Gate := { gate with strict := true, prune := false, fix := false }

/-- The run in standard mode that prunes and adds nothing. -/
def standardPruning (gate : Gate) : Gate :=
  { gate with strict := false, prune := true, fix := false }

/-- Standard mode has no reason to fail that strict mode does not have. -/
theorem Runnable.standardPruning
    (within : gate.settings.standardDirectories ⊆ gate.settings.strictDirectories)
    (runnable : gate.strictCheck.Runnable tree tool) : gate.standardPruning.Runnable tree tool where
  searched := Source.failure_discover_eq_none_of_subset within runnable.searched
  readable := runnable.readable
  tolerates := runnable.tolerates

section Sequence

variable (apart : gate.strictCheck.ManifestApart tree)
  (readable : Manifest.textAt tree gate.manifestPath = .ok before)
  (pruned : runFrom (Session.start tree tool) gate.standardPruning.run = (.ok pruning, between))

include apart readable pruned

/-- The strict check returns after a pruning in standard mode if it does so before. -/
theorem strictCheck_returns_after_pruning (runnable : gate.strictCheck.Runnable tree tool) :
    ∃ second after, runFrom (Session.start between.tree tool) gate.strictCheck.run =
      (.ok second, after) := by
  apply (run_returns_iff rfl).mpr
  change gate.strictCheck.Runnable between.tree tool
  obtain ⟨prunes, -⟩ := prunes_of_run_without_additions rfl readable pruned
  generalize pruning.pruned = names at prunes
  generalize between.tree = left at prunes ⊢
  cases prunes with
  | kept => exact runnable
  | written found site =>
      exact runnable.put apart (Manifest.textAt_eq_some found).1 site _ _
        ⟨_, Manifest.textAt_put_pruned found site _ _ _⟩

/-- If the strict check has found nothing missing before a pruning in standard mode, it misses
afterwards the pruned names that it needs, unless they share an entry that stays. -/
theorem mem_missing_strictCheck_iff
    (complete : ∀ name, gate.strictCheck.Needs tree (.ofText? before) name →
      name ∈ (Declared.ofText? before).required)
    (checked : runFrom (Session.start between.tree tool) gate.strictCheck.run =
      (.ok second, after)) (name : Text) :
    name ∈ second.missing ↔ name ∈ pruning.pruned ∧
      gate.strictCheck.Needs tree (.ofText? before) name ∧
      ∀ text ∈ before, ¬SharesEntry text name := by
  obtain ⟨prunes, -⟩ := prunes_of_run_without_additions rfl readable pruned
  change gate.standardPruning.Prunes (gate.standardPruning.neededNames tree (.ofText? before)) tree
    pruning.pruned between.tree at prunes
  generalize gate.standardPruning.neededNames tree (.ofText? before) = used at prunes
  generalize pruning.pruned = names at prunes ⊢
  generalize between.tree = left at prunes checked
  cases prunes with
  | kept =>
      rw [(prunes_of_run_without_additions rfl readable checked).2]
      simp only [List.not_mem_nil, false_and, iff_false, not_and, not_not]
      exact complete name
  | @written text place mode found site =>
      obtain rfl := Except.ok.inj (readable.symm.trans found)
      have left := Manifest.textAt_put_pruned found site mode used gate.settings.protectedPackages
      have missing := (prunes_of_run_without_additions rfl left checked).2 name
      change name ∈ second.missing ↔
          gate.strictCheck.Needs (tree.put place (.file mode (Utf8.encode
            (Manifest.pruned used gate.settings.protectedPackages text))))
            (.ofText (Manifest.pruned used gate.settings.protectedPackages text)) name ∧
          name ∉ Manifest.declaredNames
            (Manifest.pruned used gate.settings.protectedPackages text) .required at missing
      have same := Manifest.package_pruned used gate.settings.protectedPackages text
      rw [missing, needs_put_iff apart (Manifest.textAt_eq_some found).1 site _ _ same]
      simp only [Option.mem_some_iff, forall_eq']
      constructor
      · rintro ⟨needed, lost⟩
        obtain ⟨removed, alone⟩ :=
          (Manifest.not_mem_declaredNames_pruned_iff (complete name needed)).mp lost
        exact ⟨removed, needed, alone⟩
      · rintro ⟨removed, needed, alone⟩
        exact ⟨needed, (Manifest.not_mem_declaredNames_pruned_iff (complete name needed)).mpr
          ⟨removed, alone⟩⟩

end Sequence

/-- What the strict check needs and a standard run prunes is referred to outside of the standard
directories alone. -/
theorem not_references_of_mem_pruned
    (readable : Manifest.textAt tree gate.manifestPath = .ok before)
    (pruned : runFrom (Session.start tree tool) gate.standardPruning.run = (.ok pruning, between))
    (removed : name ∈ pruning.pruned)
    (needed : gate.strictCheck.Needs tree (.ofText? before) name) :
    ¬gate.standardPruning.References tree name := by
  obtain ⟨prunes, -⟩ := prunes_of_run_without_additions rfl readable pruned
  change gate.standardPruning.Prunes (gate.standardPruning.neededNames tree (.ofText? before)) tree
    pruning.pruned between.tree at prunes
  generalize pruning.pruned = names at prunes removed
  generalize between.tree = left at prunes
  cases prunes with
  | kept => simp at removed
  | written =>
      obtain ⟨-, -, -, exempt⟩ := mem_prunedNames_neededNames.mp removed
      exact fun referenced => (needs_iff.mp needed).2 (exempt referenced)

/-- A strict check after a pruning in standard mode. If a project passes the strict check, then
a standard run that prunes returns, and so does the strict check after it. That finds missing
what the standard run has pruned and the sources of strict mode need, apart from names that share
an entry that stays; to these names no source of standard mode refers. So the project passes
again exactly if no needed name is lost. -/
theorem strictCheck_after_standardPruning (gate : Gate) (tree : FileTree)
    (tool : Option Lockfile.Tool)
    (within : gate.settings.standardDirectories ⊆ gate.settings.strictDirectories)
    (apart : gate.strictCheck.ManifestApart tree) {first : Result} {unchanged : Session}
    (checked : runFrom (Session.start tree tool) gate.strictCheck.run = (.ok first, unchanged))
    (passed : first.exitCode = 0) :
    ∃ before pruning between second after,
      Manifest.textAt tree gate.manifestPath = .ok before ∧ unchanged.tree = tree ∧
      runFrom (Session.start tree tool) gate.standardPruning.run = (.ok pruning, between) ∧
      runFrom (Session.start between.tree tool) gate.strictCheck.run = (.ok second, after) ∧
      (∀ name, name ∈ second.missing ↔ name ∈ pruning.pruned ∧
        gate.strictCheck.Needs tree (.ofText? before) name ∧
        ∀ text ∈ before, ¬SharesEntry text name) ∧
      (∀ name ∈ second.missing, ¬gate.standardPruning.References tree name) ∧
      (second.exitCode = 0 ↔ ∀ name ∈ pruning.pruned,
        gate.strictCheck.Needs tree (.ofText? before) name →
          ∃ text ∈ before, SharesEntry text name) := by
  have runnable : gate.strictCheck.Runnable tree tool :=
    (run_returns_iff rfl).mp ⟨first, unchanged, checked⟩
  obtain ⟨before, readable⟩ := runnable.readable
  have complete := (exitCode_eq_zero_iff_of_run_without_additions rfl readable checked).mp passed
  obtain ⟨pruning, between, pruned⟩ : ∃ pruning between,
      runFrom (Session.start tree tool) gate.standardPruning.run = (.ok pruning, between) :=
    (run_returns_iff rfl).mpr (runnable.standardPruning within)
  obtain ⟨second, after, checkedAgain⟩ :=
    strictCheck_returns_after_pruning apart readable pruned runnable
  have lost := mem_missing_strictCheck_iff apart readable pruned complete checkedAgain
  refine ⟨before, pruning, between, second, after, readable,
    tree_of_run_without_pruning rfl rfl readable checked, pruned, checkedAgain, lost, ?_, ?_⟩
  · intro name listed
    obtain ⟨removed, needed, -⟩ := (lost name).mp listed
    exact not_references_of_mem_pruned readable pruned removed needed
  · rw [exitCode_eq_zero_iff, List.eq_nil_iff_forall_not_mem]
    refine forall_congr' fun name => ?_
    rw [lost]
    push Not
    rfl

/-! ## Checks that fail after a pruning -/

/-- Whether a project passes the strict check, and fails it after a pruning in standard mode. -/
def LosesStrictCheck (gate : Gate) (tree : FileTree) (tool : Option Lockfile.Tool) : Prop :=
  ∃ first unchanged pruning between second after,
    runFrom (Session.start tree tool) gate.strictCheck.run = (.ok first, unchanged) ∧
    first.exitCode = 0 ∧
    runFrom (Session.start tree tool) gate.standardPruning.run = (.ok pruning, between) ∧
    runFrom (Session.start between.tree tool) gate.strictCheck.run = (.ok second, after) ∧
    second.exitCode = 1

/-- A strict check passes if it returns and the manifest requires what is needed. -/
theorem strictCheck_passes (runnable : gate.strictCheck.Runnable tree tool)
    (readable : Manifest.textAt tree gate.manifestPath = .ok before)
    (complete : ∀ name, gate.strictCheck.Needs tree (.ofText? before) name →
      name ∈ (Declared.ofText? before).required) :
    ∃ first unchanged, runFrom (Session.start tree tool) gate.strictCheck.run =
      (.ok first, unchanged) ∧ first.exitCode = 0 := by
  obtain ⟨first, unchanged, checked⟩ : ∃ first unchanged,
      runFrom (Session.start tree tool) gate.strictCheck.run = (.ok first, unchanged) :=
    (run_returns_iff rfl).mpr runnable
  exact ⟨first, unchanged, checked,
    (exitCode_eq_zero_iff_of_run_without_additions rfl readable checked).mpr complete⟩

/-- A manifest that requires two packages. -/
def testedManifest : Text := "Imports: dplyr, withr\n"

/-- A project with that manifest, of which only a test uses the second package. -/
def testedProject : FileTree :=
  ⟨[(["DESCRIPTION"], .file 0o644 (Utf8.encode testedManifest)),
    (["R"], .directory 0o755),
    (["R", "model.R"], .file 0o644 (Utf8.encode "dplyr::filter(cars)\n")),
    (["tests"], .directory 0o755),
    (["tests", "check.R"], .file 0o644 (Utf8.encode "withr::local_tempdir()\n"))]⟩

/-- What the sources of the project refer to, what its manifest says, and what pruning takes out
of that. -/
theorem facts_testedProject :
    smallCheck.strictCheck.scannedNames testedProject = ["dplyr", "withr"] ∧
    smallCheck.standardPruning.scannedNames testedProject = [("dplyr" : Text)] ∧
    (Declared.ofText testedManifest).package = none ∧
    Manifest.declaredNames testedManifest .required = [("dplyr" : Text), "withr"] ∧
    Manifest.prunedNames [("dplyr" : Text)] Settings.standard.protectedPackages testedManifest =
      [("withr" : Text)] ∧
    ∀ entry ∈ Manifest.fieldEntries testedManifest .required,
      ',' ∉ Manifest.entryName entry := by
  decide +kernel

theorem textAt_testedProject :
    Manifest.textAt testedProject smallCheck.manifestPath = .ok (some testedManifest) :=
  Manifest.textAt_of_nodeAt rfl (by decide)

theorem runnable_testedProject : smallCheck.strictCheck.Runnable testedProject none := by
  have searched : (smallCheck.strictCheck.discovery testedProject).failure = none := rfl
  have absent : testedProject.isFile smallCheck.strictCheck.lockfilePath = .ok false := rfl
  exact runnable_of_absent searched textAt_testedProject absent (by decide)

theorem manifestApart_testedProject : smallCheck.strictCheck.ManifestApart testedProject := by
  have manifest : testedProject.resolve smallCheck.strictCheck.manifestPath =
      .ok [("DESCRIPTION" : Text)] := rfl
  have found : (smallCheck.strictCheck.discovery testedProject).found =
        [(Path.anchored ["R", "model.R"], .script),
          (Path.anchored ["tests", "check.R"], .script)] := by
    rfl
  have first : testedProject.resolve (Path.anchored ["R", "model.R"]) =
      .ok [("R" : Text), "model.R"] := rfl
  have second : testedProject.resolve (Path.anchored ["tests", "check.R"]) =
      .ok [("tests" : Text), "check.R"] := rfl
  have lockfile : testedProject.resolve smallCheck.strictCheck.lockfilePath = .error .missing := by
    rfl
  constructor
  · intro place resolved
    obtain rfl := Except.ok.inj (manifest.symm.trans resolved)
    rw [found, List.forall_mem_cons, List.forall_mem_singleton]
    exact ⟨FileTree.not_reaches_of_resolve first (by decide),
      FileTree.not_reaches_of_resolve second (by decide)⟩
  · intro _ _
    exact FileTree.not_reaches_of_missing lockfile

theorem neededNames_strictCheck_testedProject :
    smallCheck.strictCheck.neededNames testedProject (.ofText testedManifest) =
      ["dplyr", "withr"] := by
  obtain ⟨scanned, -, package, -⟩ := facts_testedProject
  rw [neededNames, scanned, package]
  rfl

theorem neededNames_standardPruning_testedProject :
    smallCheck.standardPruning.neededNames testedProject (.ofText testedManifest) =
      [("dplyr" : Text)] := by
  obtain ⟨-, scanned, package, -⟩ := facts_testedProject
  rw [neededNames, scanned, package]
  rfl

theorem complete_testedProject (name : Text)
    (needed : smallCheck.strictCheck.Needs testedProject (.ofText testedManifest) name) :
    name ∈ Manifest.declaredNames testedManifest .required := by
  rw [← mem_neededNames, neededNames_strictCheck_testedProject] at needed
  obtain ⟨-, -, -, required, -⟩ := facts_testedProject
  exact required ▸ needed

/-- What the strict check of that project finds after a pruning in standard mode. -/
theorem smallCheck_after_standardPruning :
    smallCheck.settings.standardDirectories ⊆ smallCheck.settings.strictDirectories ∧
    smallCheck.strictCheck.ManifestApart testedProject ∧
    ∃ first unchanged before pruning between second after,
      runFrom (Session.start testedProject none) smallCheck.strictCheck.run =
        (.ok first, unchanged) ∧ first.exitCode = 0 ∧
      Manifest.textAt testedProject smallCheck.manifestPath = .ok before ∧
      runFrom (Session.start testedProject none) smallCheck.standardPruning.run =
        (.ok pruning, between) ∧
      runFrom (Session.start between.tree none) smallCheck.strictCheck.run =
        (.ok second, after) ∧
      (second.exitCode = 0 ↔ ∀ name ∈ pruning.pruned,
        smallCheck.strictCheck.Needs testedProject (.ofText? before) name →
          ∃ text ∈ before, SharesEntry text name) := by
  have within : smallCheck.settings.standardDirectories ⊆
      smallCheck.settings.strictDirectories := by decide
  obtain ⟨first, unchanged, checked, passed⟩ :=
    strictCheck_passes runnable_testedProject textAt_testedProject complete_testedProject
  obtain ⟨before, pruning, between, second, after, readable, -, pruned, checkedAgain, -, -, iff⟩ :=
    strictCheck_after_standardPruning smallCheck testedProject none within
      manifestApart_testedProject checked passed
  exact ⟨within, manifestApart_testedProject, first, unchanged, before, pruning, between, second,
    after, checked, passed, readable, pruned, checkedAgain, iff⟩

theorem exitCode_eq_one_iff : result.exitCode = 1 ↔ result.missing ≠ [] := by
  rw [Result.exitCode, Result.passes]
  by_cases none : result.missing = [] <;> simp [none]

theorem replaceFile_testedProject (text : Text) :
    (testedProject.replaceFile smallCheck.manifestPath text.widen).1 = .ok () := by
  have held : testedProject.node? [("DESCRIPTION" : Text)] =
      some (.file 0o644 (Utf8.encode testedManifest)) := rfl
  exact Manifest.replaceFile_description held text

/-- A standard run on it prunes the package that only the test uses. -/
theorem pruned_testedProject
    (pruned : runFrom (Session.start testedProject none) smallCheck.standardPruning.run =
      (.ok pruning, between)) : pruning.pruned = [("withr" : Text)] := by
  obtain ⟨-, -, -, required, removable, -⟩ := facts_testedProject
  have declared : ∀ name ∈ smallCheck.standardPruning.neededNames testedProject
      (.ofText testedManifest), name ∈ Manifest.declaredNames testedManifest .required := by
    simp [neededNames_standardPruning_testedProject, required]
  have readable : Manifest.textAt testedProject smallCheck.standardPruning.manifestPath =
      .ok (some testedManifest) := textAt_testedProject
  have replaceable := replaceFile_testedProject (Manifest.pruned
    (smallCheck.standardPruning.neededNames testedProject (.ofText testedManifest))
    smallCheck.standardPruning.settings.protectedPackages testedManifest)
  obtain ⟨removed, -⟩ := prunes_of_run_eq_ok rfl rfl readable declared replaceable pruned
  rw [removed, neededNames_standardPruning_testedProject]
  exact removable

theorem not_sharesEntry_testedManifest (name : Text) : ¬SharesEntry testedManifest name := by
  obtain ⟨-, -, -, -, -, single⟩ := facts_testedProject
  rintro ⟨entry, listed, shared, -⟩
  exact single entry listed shared

/-- It does not pass it again after that. -/
theorem losesStrictCheck_testedProject : smallCheck.LosesStrictCheck testedProject none := by
  obtain ⟨first, unchanged, checked, passed⟩ :=
    strictCheck_passes runnable_testedProject textAt_testedProject complete_testedProject
  obtain ⟨pruning, between, pruned⟩ : ∃ pruning between,
      runFrom (Session.start testedProject none) smallCheck.standardPruning.run =
        (.ok pruning, between) :=
    (run_returns_iff rfl).mpr (runnable_testedProject.standardPruning (by decide))
  obtain ⟨second, after, checkedAgain⟩ := strictCheck_returns_after_pruning
    manifestApart_testedProject textAt_testedProject pruned runnable_testedProject
  refine ⟨first, unchanged, pruning, between, second, after, checked, passed, pruned,
    checkedAgain, exitCode_eq_one_iff.mpr fun none => ?_⟩
  have lost := mem_missing_strictCheck_iff manifestApart_testedProject textAt_testedProject pruned
    complete_testedProject checkedAgain ("withr" : Text)
  have needed : smallCheck.strictCheck.Needs testedProject (.ofText testedManifest) "withr" := by
    rw [← mem_neededNames, neededNames_strictCheck_testedProject]
    decide
  rw [none, pruned_testedProject pruned] at lost
  exact List.not_mem_nil (lost.mpr ⟨List.mem_singleton_self _, needed,
    fun text same => Option.mem_some_iff.mp same ▸ not_sharesEntry_testedManifest _⟩)

/-- A check of the project at the root whose manifest lies among the sources. -/
def blendedCheck : Gate :=
  ⟨{ Settings.standard with manifestName := "R/pkgs.R", protectedPackages := [":bar"] },
    Path.anchored [], false, false, false, .usual⟩

/-- A manifest with an entry that begins with a colon. -/
def blendedManifest : Text := "Imports: foo,:bar\n"

/-- The manifest without the entry before that. -/
def blendedLeft : Text := "Imports::bar\n"

/-- A project whose only file is that manifest. -/
def blendedProject : FileTree :=
  ⟨[(["R"], .directory 0o755), (["R", "pkgs.R"], .file 0o644 (Utf8.encode blendedManifest))]⟩

/-- That project with the other manifest. -/
def blendedProjectLeft (mode : Nat) : FileTree :=
  blendedProject.put ["R", "pkgs.R"] (.file mode (Utf8.encode blendedLeft))

/-- The sources of the project refer to nothing; what pruning takes out of the manifest, and what
the rest of it refers to and says. -/
theorem facts_blendedProject :
    blendedCheck.strictCheck.scannedNames blendedProject = [] ∧
    blendedCheck.standardPruning.scannedNames blendedProject = [] ∧
    Manifest.prunedNames [] blendedCheck.settings.protectedPackages blendedManifest =
      [("foo" : Text)] ∧
    Manifest.pruned [] blendedCheck.settings.protectedPackages blendedManifest = blendedLeft ∧
    ⟨"Imports", .namespaceAccess, 1⟩ ∈
      Source.tokens (Utf8.decodeLossy (Utf8.encode blendedLeft)).unifyLineEndings ∧
    (Declared.ofText blendedLeft).package = none ∧
    ("Imports" : Text) ∉ Manifest.declaredNames blendedLeft .required := by
  decide +kernel

theorem runnable_blendedProject : blendedCheck.strictCheck.Runnable blendedProject none := by
  have searched : (blendedCheck.strictCheck.discovery blendedProject).failure = none := rfl
  have readable : Manifest.textAt blendedProject blendedCheck.strictCheck.manifestPath =
      .ok (some blendedManifest) := Manifest.textAt_of_nodeAt rfl (by decide)
  have absent : blendedProject.isFile blendedCheck.strictCheck.lockfilePath = .ok false := rfl
  exact runnable_of_absent searched readable absent (by decide)

theorem textAt_blendedProjectLeft (mode : Nat) :
    Manifest.textAt (blendedProjectLeft mode) blendedCheck.strictCheck.manifestPath =
      .ok (some blendedLeft) :=
  Manifest.textAt_of_nodeAt rfl (by decide)

/-- What is left of the manifest refers to a package. -/
theorem needs_blendedProjectLeft (mode : Nat) :
    blendedCheck.strictCheck.Needs (blendedProjectLeft mode) (.ofText blendedLeft) "Imports" := by
  obtain ⟨-, -, -, -, present, package, -⟩ := facts_blendedProject
  have found : (blendedCheck.strictCheck.discovery (blendedProjectLeft mode)).found =
      [(.anchored ["R", "pkgs.R"], .script)] := rfl
  exact ⟨⟨_, found ▸ List.mem_singleton_self _, _, rfl, _, present, rfl⟩, by decide, by decide,
    by simp [package]⟩

theorem runnable_blendedProjectLeft (mode : Nat) :
    blendedCheck.strictCheck.Runnable (blendedProjectLeft mode) none := by
  have searched : (blendedCheck.strictCheck.discovery (blendedProjectLeft mode)).failure =
      none := rfl
  have absent : (blendedProjectLeft mode).isFile blendedCheck.strictCheck.lockfilePath =
      .ok false := rfl
  exact runnable_of_absent searched (textAt_blendedProjectLeft mode) absent (by decide)

/-- The sources of the project refer to no package. -/
theorem not_needs_blendedProject (declared : Declared) (name : Text) :
    ¬blendedCheck.strictCheck.Needs blendedProject declared name := by
  obtain ⟨scanned, -⟩ := facts_blendedProject
  rw [← mem_neededNames, neededNames, scanned, withoutOwnPackage_nil]
  exact List.not_mem_nil

theorem neededNames_standardPruning_blendedProject (declared : Declared) :
    blendedCheck.standardPruning.neededNames blendedProject declared = [] := by
  obtain ⟨-, scanned, -⟩ := facts_blendedProject
  rw [neededNames, scanned, withoutOwnPackage_nil]

theorem replaceFile_blendedProject (text : Text) :
    (blendedProject.replaceFile blendedCheck.standardPruning.manifestPath text.widen).1 =
      .ok () := by
  have held : blendedProject.nodeAt blendedCheck.standardPruning.manifestPath =
      .ok (.file 0o644 (Utf8.encode blendedManifest)) := rfl
  have site : blendedProject.site blendedCheck.standardPruning.manifestPath =
      .ok [("R" : Text), "pkgs.R"] := rfl
  have sited : blendedProject.site (FileTree.temporaryPath
      blendedCheck.standardPruning.manifestPath ("gate0000" : Text)) =
        .ok [("R" : Text), ".pkgs.R.gate0000.tmp"] := rfl
  rw [FileTree.replaceFile_of_nodeAt site (Utf8.encodeWide_widen text) held ⟨_, sited⟩]

/-- A standard run on the project takes the first entry out of the manifest. -/
theorem exists_left_blendedProject
    (pruned : runFrom (Session.start blendedProject none) blendedCheck.standardPruning.run =
      (.ok pruning, between)) : ∃ mode, between.tree = blendedProjectLeft mode := by
  have readable : Manifest.textAt blendedProject blendedCheck.standardPruning.manifestPath =
      .ok (some blendedManifest) := Manifest.textAt_of_nodeAt rfl (by decide)
  have site : blendedProject.site blendedCheck.standardPruning.manifestPath =
      .ok [("R" : Text), "pkgs.R"] := rfl
  have unneeded := neededNames_standardPruning_blendedProject (.ofText blendedManifest)
  obtain ⟨removed, -⟩ := prunes_of_run_eq_ok rfl rfl readable (by simp [unneeded])
    (replaceFile_blendedProject _) pruned
  obtain ⟨prunes, -⟩ := prunes_of_run_without_additions rfl readable pruned
  change blendedCheck.standardPruning.Prunes (blendedCheck.standardPruning.neededNames
    blendedProject (.ofText blendedManifest)) blendedProject pruning.pruned between.tree at prunes
  obtain ⟨-, -, some, rebuilt, -⟩ := facts_blendedProject
  change Manifest.prunedNames [] blendedCheck.standardPruning.settings.protectedPackages
    blendedManifest = _ at some
  change Manifest.pruned [] blendedCheck.standardPruning.settings.protectedPackages
    blendedManifest = _ at rebuilt
  rw [unneeded] at removed prunes
  rw [removed] at prunes
  generalize between.tree = left at prunes ⊢
  generalize names : Manifest.prunedNames [] blendedCheck.standardPruning.settings.protectedPackages
    blendedManifest = list at prunes
  cases prunes with
  | kept => simp [some] at names
  | @written text place mode found sited =>
      obtain rfl := Option.some.inj (Except.ok.inj (readable.symm.trans found))
      obtain rfl := Except.ok.inj (site.symm.trans sited)
      rw [rebuilt]
      exact ⟨mode, rfl⟩

/-- The strict check finds a reference in what is left of the manifest. -/
theorem losesStrictCheck_blendedProject : blendedCheck.LosesStrictCheck blendedProject none := by
  have readable : Manifest.textAt blendedProject blendedCheck.manifestPath =
      .ok (some blendedManifest) := Manifest.textAt_of_nodeAt rfl (by decide)
  obtain ⟨first, unchanged, checked, passed⟩ := strictCheck_passes runnable_blendedProject readable
    fun name needed => absurd needed (not_needs_blendedProject _ name)
  obtain ⟨pruning, between, pruned⟩ : ∃ pruning between,
      runFrom (Session.start blendedProject none) blendedCheck.standardPruning.run =
        (.ok pruning, between) :=
    (run_returns_iff rfl).mpr (runnable_blendedProject.standardPruning (by decide))
  obtain ⟨mode, left⟩ := exists_left_blendedProject pruned
  obtain ⟨second, after, checkedAgain⟩ : ∃ second after,
      runFrom (Session.start (blendedProjectLeft mode) none) blendedCheck.strictCheck.run =
        (.ok second, after) := (run_returns_iff rfl).mpr (runnable_blendedProjectLeft mode)
  refine ⟨first, unchanged, pruning, between, second, after, checked, passed, pruned,
    left ▸ checkedAgain, exitCode_eq_one_iff.mpr fun none => ?_⟩
  obtain ⟨-, missing⟩ :=
    prunes_of_run_without_additions rfl (textAt_blendedProjectLeft mode) checkedAgain
  obtain ⟨-, -, -, -, -, -, undeclared⟩ := facts_blendedProject
  have lost := (missing "Imports").mpr ⟨needs_blendedProjectLeft mode, undeclared⟩
  rw [none] at lost
  exact List.not_mem_nil lost

/-- Pruning in standard mode can undo a strict check: it takes out what only the further
directories need. Where the manifest is a source file, it can do so even if nothing is needed. -/
theorem strictCheck_fails_after_standardPruning :
    (smallCheck.settings.standardDirectories ⊆ smallCheck.settings.strictDirectories ∧
      smallCheck.strictCheck.ManifestApart testedProject ∧
      smallCheck.LosesStrictCheck testedProject none) ∧
    (blendedCheck.settings.standardDirectories ⊆ blendedCheck.settings.strictDirectories ∧
      (∀ declared name, ¬blendedCheck.strictCheck.Needs blendedProject declared name) ∧
      blendedCheck.LosesStrictCheck blendedProject none) :=
  ⟨⟨by decide, manifestApart_testedProject, losesStrictCheck_testedProject⟩,
    by decide, not_needs_blendedProject, losesStrictCheck_blendedProject⟩

end Gate
end DependencyGate

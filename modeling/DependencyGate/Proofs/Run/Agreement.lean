/-
# What a run reports of the manifest

After a run, its result says which packages the manifest requires. It does not read the
manifest again for this, but takes the names that it read first, puts in those that it
added and takes out those that it pruned. The manifest that it leaves declares exactly
these names if no pruned name is left in an entry that it shares with others
(`describes_left_iff_no_pruned_sharesEntry`), as long as additions keep stray lines
apart.
-/

import DependencyGate.Proofs.Run.Verdict

namespace DependencyGate

open DependencyGate.Action (runFrom)
open Manifest (Declared KeepsStrayApart SharesEntry)

/-- Whether a result says what a manifest requires. -/
def Result.Describes (result : Result) (text : Option Text) : Prop :=
  (Declared.ofText? text).required = result.declared

namespace Gate

variable {gate : Gate} {session after : Session} {compared fixed result : Result}
  {before middle : Option Text}

/-! ## Results of edits -/

/-- Putting the added names in describes the extended manifest. -/
theorem describes_withAdded (valid : ∀ name ∈ compared.missing, PackageName.isValid name = true)
    (described : compared.Describes before)
    (apart : before.elim [] (Manifest.addedNames compared.missing) = [] ∨
      ∀ text ∈ before, KeepsStrayApart text .required) :
    (withAdded compared (before.elim [] (Manifest.addedNames compared.missing))).Describes
      (before.map (Manifest.extended compared.missing)) := by
  rw [Result.Describes] at described ⊢
  rw [withAdded, ← described]
  cases before with
  | none => rfl
  | some text =>
      exact Manifest.declaredNames_extended valid (apart.imp_right fun all => all text rfl)

/-- Taking the pruned names out describes the pruned manifest exactly if none of them
shares an entry. -/
theorem describes_withPruned_iff (used kept : List Text) (described : fixed.Describes middle) :
    (withPruned fixed (middle.elim [] (Manifest.prunedNames used kept))).Describes
        (middle.map (Manifest.pruned used kept)) ↔
      ∀ text ∈ middle, ∀ name ∈ middle.elim [] (Manifest.prunedNames used kept),
        ¬SharesEntry text name := by
  rw [Result.Describes] at described ⊢
  rw [withPruned, ← described]
  cases middle with
  | none => simp [Declared.ofText?, without]
  | some text =>
      simp only [Option.mem_some_iff, forall_eq']
      exact Manifest.declaredNames_pruned_eq_without_iff

/-! ## The steps of a run -/

/-- Adding missing packages leaves the manifest with the added names in it, and the result
describes it if the addition keeps stray lines apart. -/
theorem settleMissing_eq_ok
    (found : Manifest.textAt session.tree gate.manifestPath = .ok before)
    (valid : ∀ name ∈ compared.missing, PackageName.isValid name = true)
    (unadded : compared.added = []) (described : compared.Describes before)
    (finished : runFrom session (gate.settleMissing compared) = (.ok fixed, after)) :
    fixed.pruned = compared.pruned ∧
      Manifest.textAt after.tree gate.manifestPath =
        .ok (before.map (Manifest.addEntries · .required fixed.added)) ∧
      (fixed.added = [] ∨ (∀ text ∈ before, KeepsStrayApart text .required) →
        fixed.Describes (before.map (Manifest.addEntries · .required fixed.added))) := by
  have nothingAdded : before.map (Manifest.addEntries · .required []) = before := by
    cases before <;> simp [Manifest.addEntries_nil]
  have plain : ∀ name ∈ compared.missing, '\r' ∉ name := fun name missing =>
    PackageName.return_not_mem_of_isValid (valid name missing)
  rw [settleMissing] at finished
  split at finished
  case isFalse =>
    simp only [Action.runFrom_pure, Prod.mk.injEq, Except.ok.injEq] at finished
    obtain ⟨rfl, rfl⟩ := finished
    rw [unadded, nothingAdded]
    exact ⟨rfl, found, fun _ => described⟩
  case isTrue =>
    rcases addMissing_cases found plain finished with ⟨read, rfl⟩ | ⟨unchanged, warning, rfl⟩
    · have extended : before.map (Manifest.extended compared.missing) =
          before.map (Manifest.addEntries · .required
            (before.elim [] (Manifest.addedNames compared.missing))) := by
        cases before <;> rfl
      refine ⟨rfl, read.trans (congrArg _ extended), fun apart => ?_⟩
      have describes := describes_withAdded valid described apart
      rwa [extended] at describes
    · refine ⟨rfl, ?_, fun _ => ?_⟩
      · rw [unchanged, found, withWarning, unadded, nothingAdded]
      · rw [withWarning, unadded, nothingAdded]
        exact described

/-- Removing unused packages leaves a manifest that the result describes exactly if no
removed name shares an entry. -/
theorem settleUnused_eq_ok
    (found : Manifest.textAt session.tree gate.manifestPath = .ok middle)
    (unpruned : fixed.pruned = [])
    (finished : runFrom session (gate.settleUnused fixed) = (.ok result, after)) :
    result.added = fixed.added ∧
      ∃ left, Manifest.textAt after.tree gate.manifestPath = .ok left ∧
        (fixed.Describes middle →
          (result.Describes left ↔
            ∀ text ∈ middle, ∀ name ∈ result.pruned, ¬SharesEntry text name)) := by
  rw [settleUnused] at finished
  split at finished
  case isFalse =>
    simp only [Action.runFrom_pure, Prod.mk.injEq, Except.ok.injEq] at finished
    obtain ⟨rfl, rfl⟩ := finished
    exact ⟨rfl, middle, found, fun described => by simp [described, unpruned]⟩
  case isTrue =>
    rcases removeUnused_cases found finished with ⟨read, rfl⟩ | ⟨unchanged, warning, rfl⟩
    · exact ⟨rfl, _, read, describes_withPruned_iff _ _⟩
    · refine ⟨rfl, middle, unchanged ▸ found, fun described => ?_⟩
      exact iff_of_true described (by simp [withWarning, unpruned])

/-! ## A whole run -/

theorem valid_of_mem_missing {manifest : Declared} {locked : List WideText}
    {lockfileFound : Bool} {tree : FileTree} :
    ∀ name ∈ (gate.compared (gate.gathered (gate.scannedNames tree) manifest locked
      lockfileFound)).missing, PackageName.isValid name = true := by
  intro name missing
  exact (mem_withoutOwnPackage_scannedNames.mp (mem_missingNames.mp missing).1).valid

/-- A result describes the manifest that the run leaves, whatever was added and pruned,
exactly if no pruned name shares an entry of the manifest that pruning found, as long as
additions keep stray lines apart. -/
theorem describes_left_iff_no_pruned_sharesEntry (gate : Gate) (tree : FileTree)
    (tool : Option Lockfile.Tool) {result : Result} {after : Session}
    (finished : runFrom (Session.start tree tool) gate.run = (.ok result, after)) :
    ∃ before left, Manifest.textAt tree gate.manifestPath = .ok before ∧
      Manifest.textAt after.tree gate.manifestPath = .ok left ∧
      (result.added = [] ∨ (∀ text ∈ before, KeepsStrayApart text .required) →
        (result.Describes left ↔
          ∀ text ∈ before.map (Manifest.addEntries · .required result.added),
            ∀ name ∈ result.pruned, ¬SharesEntry text name)) := by
  obtain ⟨before, locked, lockfileFound, between, found, kept, settled⟩ :=
    exists_gathered_of_run_eq_ok finished
  change Manifest.textAt tree gate.manifestPath = .ok before at found
  change between.tree = tree at kept
  rw [settle_eq] at settled
  obtain ⟨fixed, third, completed, settled⟩ := Action.exists_of_runFrom_bind settled
  obtain ⟨unpruned, extended, describes⟩ :=
    settleMissing_eq_ok (kept ▸ found) valid_of_mem_missing rfl rfl completed
  obtain ⟨added, left, read, iff⟩ := settleUnused_eq_ok extended unpruned settled
  refine ⟨before, left, found, read, fun apart => ?_⟩
  rw [added] at apart ⊢
  exact iff (describes apart)

/-- A manifest with a stray line between its entries. -/
def unevenManifest : Text := "Imports: tidyr,\nfoo\n    zoo (>= 1.0)\n"

/-- A project with that manifest, which uses a package that it does not require and none of
those that it requires. -/
def unevenProject : FileTree :=
  ⟨[(["DESCRIPTION"], .file 0o644 (Utf8.encode unevenManifest)),
    (["R"], .directory 0o755),
    (["R", "model.R"], .file 0o644 (Utf8.encode "dplyr::filter(cars)\n"))]⟩

/-- A run on the project at the root that adds what is missing and prunes what is unused. -/
def smallRepair : Gate := ⟨Settings.standard, Path.anchored [], false, true, true, .usual⟩

theorem smallRepair_describes_left :
    ∃ result after left,
      runFrom (Session.start unevenProject none) smallRepair.run = (.ok result, after) ∧
      Manifest.textAt after.tree smallRepair.manifestPath = .ok left ∧
      (result.Describes left ↔ ∀ name ∈ result.pruned,
        ¬SharesEntry (Manifest.addEntries unevenManifest .required result.added) name) := by
  have searched : (smallRepair.discovery unevenProject).failure = none := rfl
  have readable : Manifest.textAt unevenProject smallRepair.manifestPath =
      .ok (some unevenManifest) := Manifest.textAt_of_nodeAt rfl (by decide)
  have absent : unevenProject.isFile smallRepair.lockfilePath = .ok false := rfl
  obtain ⟨result, after, finished⟩ : ∃ result after,
      runFrom (Session.start unevenProject none) smallRepair.run = (.ok result, after) :=
    run_returns rfl searched readable absent (by decide)
  obtain ⟨before, left, found, read, describes⟩ :=
    describes_left_iff_no_pruned_sharesEntry smallRepair unevenProject none finished
  obtain rfl := Except.ok.inj (readable.symm.trans found)
  have ended : unevenManifest.getLast? = some '\n' := rfl
  have apart : KeepsStrayApart unevenManifest .required :=
    Manifest.keepsStrayApart_of_ended (by simp [ended, Text.isLineBreak])
  have iff := describes (.inr fun text same => Option.mem_some_iff.mp same ▸ apart)
  rw [Option.map_some] at iff
  simp only [Option.mem_some_iff, forall_eq'] at iff
  exact ⟨result, after, left, finished, read, iff⟩

/-- A manifest that has a stray line and ends in blanks. -/
def strayManifest : Text := "Imports: dplyr,\nfoo\n    tidyr  "

/-- The manifest that adding a package leaves. -/
def gluedManifest : Text := "Imports: dplyr,\n    tidyr,\n    purrr  foo\n"

/-- A project with that manifest, which uses a package that it does not require. -/
def strayProject : FileTree :=
  ⟨[(["DESCRIPTION"], .file 0o644 (Utf8.encode strayManifest)),
    (["R"], .directory 0o755),
    (["R", "model.R"], .file 0o644 (Utf8.encode "purrr::map(1, f)\n"))]⟩

/-- A run on the project at the root that adds what is missing. -/
def smallAddition : Gate := ⟨Settings.standard, Path.anchored [], false, false, true, .usual⟩

/-- What the project refers to, what the two manifests say, and what adding the package does. -/
theorem facts_strayProject :
    smallAddition.scannedNames strayProject = [("purrr" : Text)] ∧
    (Declared.ofText strayManifest).package = none ∧
    (Declared.ofText strayManifest).required = [("dplyr" : Text), "tidyr"] ∧
    Manifest.addedNames [("purrr" : Text)] strayManifest = [("purrr" : Text)] ∧
    Manifest.extended [("purrr" : Text)] strayManifest = gluedManifest ∧
    Manifest.declaredNames gluedManifest .required =
      [("dplyr" : Text), "purrr foo", "tidyr"] := by
  decide +kernel

theorem replaceFile_strayProject (text : Text) :
    (strayProject.replaceFile smallAddition.manifestPath text.widen).1 = .ok () := by
  have held : strayProject.node? [("DESCRIPTION" : Text)] =
      some (.file 0o644 (Utf8.encode strayManifest)) := rfl
  exact Manifest.replaceFile_description held text

/-- What the run finds missing, whatever is locked. -/
theorem missing_strayProject (locked : List WideText) (lockfileFound : Bool) :
    (smallAddition.compared (smallAddition.gathered [("purrr" : Text)]
      (.ofText strayManifest) locked lockfileFound)).missing = [("purrr" : Text)] := by
  obtain ⟨-, package, required, -⟩ := facts_strayProject
  change missingNames (smallAddition.withoutOwnPackage [("purrr" : Text)]
    (Declared.ofText strayManifest).package) (Declared.ofText strayManifest).required = _
  rw [package, required]
  decide

/-- What is reported after the addition is not what the manifest declares. -/
theorem not_describes_gluedManifest (result : Result)
    (declared : result.declared = (Declared.ofText strayManifest).required)
    (missing : result.missing = [("purrr" : Text)]) :
    ¬(withAdded result (Manifest.addedNames result.missing strayManifest)).Describes
      (some gluedManifest) := by
  obtain ⟨-, -, required, added, -, left⟩ := facts_strayProject
  rw [Result.Describes, withAdded, declared, missing, required, added]
  change ¬Manifest.declaredNames gluedManifest .required =
    canonical ([("dplyr" : Text), "tidyr"] ++ [("purrr" : Text)])
  rw [left]
  decide

/-- The steps that follow a comparison add the package, as nothing keeps the manifest from being
replaced. -/
theorem settle_strayProject (kept : session.tree = strayProject)
    (declared : compared.declared = (Declared.ofText strayManifest).required)
    (missing : compared.missing = [("purrr" : Text)])
    (settled : runFrom session (smallAddition.settle compared) = (.ok result, after)) :
    Manifest.textAt after.tree smallAddition.manifestPath = .ok (some gluedManifest) ∧
      ¬result.Describes (some gluedManifest) := by
  have readable : Manifest.textAt session.tree smallAddition.manifestPath =
      .ok (some strayManifest) := by
    rw [kept]
    exact Manifest.textAt_of_nodeAt rfl (by decide)
  rw [settle_eq] at settled
  obtain ⟨fixed, third, completed, settled⟩ := Action.exists_of_runFrom_bind settled
  rw [settleMissing, if_pos (by rw [Result.passes, missing]; rfl), addMissing_eq] at completed
  rcases editPhase_cases Manifest.edits_fixFile completed with
    ⟨written, edits, rfl⟩ | ⟨failure, edits, rfl⟩
  · obtain ⟨read, rfl⟩ := edits.textAt_of_ok readable
      (fun _ => Manifest.extended_of_addedNames_eq_nil)
      (fun _ => Manifest.return_not_mem_extended (by rw [missing]; decide))
    rw [settleUnused, if_neg (by simp [smallAddition]), Action.runFrom_pure, Prod.mk.injEq,
      Except.ok.injEq] at settled
    obtain ⟨rfl, rfl⟩ := settled
    obtain ⟨-, -, -, -, rebuilt, -⟩ := facts_strayProject
    rw [missing, Option.map_some, rebuilt] at read
    exact ⟨read, not_describes_gluedManifest compared declared missing⟩
  · obtain ⟨error, refused⟩ := edits.refused readable
    have replaced := replaceFile_strayProject (Manifest.extended ["purrr"] strayManifest)
    rw [← kept, ← missing, refused] at replaced
    cases replaced

/-- A run that adds a package to that manifest reports one that the manifest does not declare
afterwards. -/
theorem smallAddition_describes_another_manifest :
    ∃ result after left,
      runFrom (Session.start strayProject none) smallAddition.run = (.ok result, after) ∧
      Manifest.textAt after.tree smallAddition.manifestPath = .ok left ∧
      ¬result.Describes left := by
  have searched : (smallAddition.discovery strayProject).failure = none := rfl
  have readable : Manifest.textAt strayProject smallAddition.manifestPath =
      .ok (some strayManifest) := Manifest.textAt_of_nodeAt rfl (by decide)
  have absent : strayProject.isFile smallAddition.lockfilePath = .ok false := rfl
  obtain ⟨scanned, -⟩ := facts_strayProject
  obtain ⟨result, after, finished⟩ : ∃ result after,
      runFrom (Session.start strayProject none) smallAddition.run = (.ok result, after) :=
    run_returns rfl searched readable absent (by decide)
  obtain ⟨before, locked, lockfileFound, between, found, kept, settled⟩ :=
    exists_gathered_of_run_eq_ok finished
  change between.tree = strayProject at kept
  obtain rfl := Except.ok.inj (readable.symm.trans found)
  change runFrom between (smallAddition.settle (smallAddition.compared (smallAddition.gathered
    (smallAddition.scannedNames strayProject) (.ofText _) locked lockfileFound))) = _ at settled
  rw [scanned] at settled
  obtain ⟨read, other⟩ := settle_strayProject kept rfl (missing_strayProject locked lockfileFound)
    settled
  exact ⟨result, after, _, finished, read, other⟩

end Gate
end DependencyGate

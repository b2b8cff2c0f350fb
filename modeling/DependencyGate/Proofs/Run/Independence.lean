/-
# Runs beside another lockfile

A lockfile is read for the report alone. Two runs on trees that differ by one file, whether in
what it holds or in whether it is there, come to the same result and leave the same manifest, as
long as that file is neither the manifest nor a source file (`run_agrees_beside_lockfile`). What
they warn of is the same as well, unless the directory of the manifest's temporary file is looked
for under the lockfile: under a file there is nothing for another reason than where there is no
file (`pruning_depends_on_lockfile`).

The proof goes through both runs at once: their comparisons agree on all but what is locked, and
so do the amendments that follow.
-/

import DependencyGate.Proofs.Run.Parallel
import DependencyGate.Proofs.Run.Undeclared
import DependencyGate.Proofs.Source.Search

namespace DependencyGate

open DependencyGate.Action (runFrom)
open FileTree (AgreeOff DifferBy FindsAlike temporaryPath)
open Manifest (Declared textAt)

/-! ## Results that agree -/

/-- Whether two results say the same of all but what is locked and what is warned of. -/
structure Result.AgreesWith (first second : Result) : Prop where
  used : first.used = second.used
  declared : first.declared = second.declared
  optional : first.optional = second.optional
  missing : first.missing = second.missing
  unused : first.unused = second.unused
  added : first.added = second.added
  pruned : first.pruned = second.pruned

/-- A path that is extended as it is read has no empty names. -/
theorem Path.nil_not_mem_join {path : Path} (steps : [] ∉ path.names) (written : Text) :
    [] ∉ (path.join written).names := by
  have read : [] ∉ (Path.ofText written).names := by
    simp [Path.ofText, Path.isStep]
  rw [Path.join]
  split
  · simp [steps, read]
  · exact read

/-! ## Runs in two trees -/

namespace Gate

variable {gate : Gate} {tree other : FileTree} {path : Path} {before : Option Text}
  {directory : Location} {name : Text} {tool toolThere : Option Lockfile.Tool}
  {lockfileFound lockfileFoundThere : Bool} {between betweenThere after afterThere : FileTree}
  {compared comparedThere fixed fixedThere result resultThere : Result}

/-- Whether the file under a name is neither the manifest nor a source file, not even over
links. -/
structure Bystander (gate : Gate) (tree : FileTree) (directory : Location) (name : Text) :
    Prop where
  manifest : tree.Avoids directory name gate.manifestPath
  source : ∀ found ∈ (gate.discovery tree).found, tree.Avoids directory name found.1

/-- A file that is not there is neither. -/
theorem bystander_of_free (free : tree.node? (directory ++ [name]) = none) :
    gate.Bystander tree directory name :=
  ⟨FileTree.avoids_of_free free _, fun found _ => FileTree.avoids_of_free free found.1⟩

/-- Warnings of two runs: the same, or of a failure to write the manifest that has no directory
for its temporary file in either tree. -/
inductive WarnsAlike (gate : Gate) (tree other : FileTree) : List Text → List Text → Prop
  | same {warnings : List Text} : WarnsAlike gate tree other warnings warnings
  | failed {title : Text} {failure failureThere : Failure}
      (titled : title = "Auto-fix failed: " ∨ title = "Pruning skipped: ")
      (fails : Amendment.FailsAlike gate.manifestPath tree other failure failureThere) :
      WarnsAlike gate tree other [title ++ failure.message] [title ++ failureThere.message]

/-- The warnings are the same if the directory of the temporary file is found alike. -/
theorem WarnsAlike.eq_of_site_eq {warnings warningsThere : List Text}
    (alike : gate.WarnsAlike tree other warnings warningsThere)
    (same : other.site (temporaryPath gate.manifestPath ("gate0000" : Text)) =
      tree.site (temporaryPath gate.manifestPath ("gate0000" : Text))) :
    warnings = warningsThere := by
  cases alike with
  | same => rfl
  | failed _ fails =>
      cases fails with
      | same => rfl
      | homeless here there =>
          obtain rfl := Except.error.inj (there.symm.trans (same.trans here))
          rfl

/-! ### What agrees -/

theorem alike_addition (agree : compared.AgreesWith comparedThere) :
    (gate.addition compared).Alike (gate.addition comparedThere) where
  asked := by simp only [addition, agree.missing]
  edit := by simp only [addition, agree.missing]
  names := by simp only [addition, agree.missing]
  warning := rfl

theorem alike_removal (agree : fixed.AgreesWith fixedThere) :
    (gate.removal fixed).Alike (gate.removal fixedThere) where
  asked := by simp only [removal, agree.missing, agree.unused]
  edit := by simp only [removal, agree.used]
  names := by simp only [removal, agree.used]
  warning := rfl

theorem agreesWith_withWarning (agree : compared.AgreesWith comparedThere)
    (warning warningThere : Text) :
    (withWarning compared warning).AgreesWith (withWarning comparedThere warningThere) :=
  { agree with }

theorem agreesWith_withAdded (agree : compared.AgreesWith comparedThere) (names : List Text) :
    (withAdded compared names).AgreesWith (withAdded comparedThere names) :=
  { agree with
    declared := by simp only [withAdded, agree.declared]
    missing := by simp only [withAdded, agree.missing]
    added := rfl }

theorem agreesWith_withPruned (agree : fixed.AgreesWith fixedThere) (names : List Text) :
    (withPruned fixed names).AgreesWith (withPruned fixedThere names) :=
  { agree with
    declared := by simp only [withPruned, agree.declared]
    unused := by simp only [withPruned, agree.unused]
    pruned := rfl }

theorem agreesWith_of_addition (agree : compared.AgreesWith comparedThere)
    (reports : (gate.addition compared).ReportsAlike (gate.addition comparedThere) path tree other
      compared comparedThere fixed fixedThere between betweenThere) :
    fixed.AgreesWith fixedThere := by
  cases reports with
  | idle => exact agree
  | refused => exact agreesWith_withWarning agree _ _
  | written => exact agreesWith_withAdded agree _

theorem agreesWith_of_removal (agree : fixed.AgreesWith fixedThere)
    (reports : (gate.removal fixed).ReportsAlike (gate.removal fixedThere) path tree other fixed
      fixedThere result resultThere between betweenThere) : result.AgreesWith resultThere := by
  cases reports with
  | idle => exact agree
  | refused => exact agreesWith_withWarning agree _ _
  | written => exact agreesWith_withPruned agree _

/-- Only one of the two amendments of a run can fail: what is unused is left alone while something
is missing, and where a manifest has been written there is a directory for its temporary file. -/
theorem warnsAlike_of_amendments (silent : compared.warnings = [])
    (silentThere : comparedThere.warnings = [])
    (added : (gate.addition compared).ReportsAlike (gate.addition comparedThere) gate.manifestPath
      tree other compared comparedThere fixed fixedThere between betweenThere)
    (removed : (gate.removal fixed).ReportsAlike (gate.removal fixedThere) gate.manifestPath
      between betweenThere fixed fixedThere result resultThere after afterThere) :
    gate.WarnsAlike tree other result.warnings resultThere.warnings := by
  cases added with
  | idle =>
      cases removed with
      | idle =>
          rw [silent, silentThere]
          exact .same
      | refused _ fails =>
          simp only [withWarning, silent, silentThere, List.nil_append]
          exact .failed (.inr rfl) fails
      | written =>
          change gate.WarnsAlike tree other compared.warnings comparedThere.warnings
          rw [silent, silentThere]
          exact .same
  | refused asked fails =>
      cases removed with
      | idle =>
          simp only [withWarning, silent, silentThere, List.nil_append]
          exact .failed (.inl rfl) fails
      | refused unneeded | written unneeded => exact absurd unneeded.1 asked.1
  | written _ housed =>
      cases removed with
      | idle | written =>
          change gate.WarnsAlike tree other compared.warnings comparedThere.warnings
          rw [silent, silentThere]
          exact .same
      | refused _ fails =>
          cases fails with
          | same =>
              simp only [withWarning, addition, withAdded, silent, silentThere]
              exact .same
          | homeless here =>
              obtain ⟨place, site⟩ := housed
              cases site.symm.trans here

/-! ### What is read -/

section Read

variable (differ : DifferBy directory name tree other)
  (entries : ∀ part ∈ directory, FileTree.IsEntryName part)
  (here : gate.Bystander tree directory name) (there : gate.Bystander other directory name)

include differ here there

/-- The sources give the same names. -/
theorem scannedNames_eq (entries : ∀ part ∈ directory, FileTree.IsEntryName part) :
    gate.scannedNames other = gate.scannedNames tree := by
  have same : gate.discovery other = gate.discovery tree :=
    Source.discover_eq differ entries _ _ _ _ (.inr ⟨here.source, there.source⟩)
  have sources := there.source
  rw [same] at sources
  have read := Source.readableFiles_eq fun file listed =>
    differ.findsAlike (here.source file listed) (sources file listed)
  rw [scannedNames, scannedNames, references_scanned, references_scanned, same, read]

/-- The manifest is the same and can be replaced alike. -/
theorem manifestAlike_of_differBy (steps : [] ∉ gate.project.names)
    (found : textAt tree gate.manifestPath = .ok before) :
    ManifestAlike gate.manifestPath (directory ++ [name]) tree other before := by
  have finds := differ.findsAlike here.manifest there.manifest
  refine ⟨differ.agree, finds, found, fun present text => ?_⟩
  obtain ⟨manifest, rfl⟩ := Option.ne_none_iff_exists'.mp present
  obtain ⟨file, -⟩ := Manifest.textAt_eq_some found
  obtain ⟨mode, content, held⟩ := FileTree.isFile_eq_true_iff.mp file
  have named : gate.manifestPath.name ≠ [] :=
    FileTree.name_ne_nil_of_isFile file (Path.nil_not_mem_join steps _)
  exact FileTree.replacesAlike_of_differBy differ finds named held text

end Read

theorem agreesWith_comparison (same : gate.scannedNames other = gate.scannedNames tree) :
    (gate.comparison tree tool before lockfileFound).AgreesWith
      (gate.comparison other toolThere before lockfileFoundThere) := by
  constructor <;> simp only [comparison, same] <;> rfl

theorem leadsToFile_lockedPair :
    lockedPair.LeadsToFile [] ("renv.lock" : Text) [("renv.lock" : Text)] := by
  have held : lockedPair.node? [("renv.lock" : Text)] = some (.file 0o644
      (Utf8.encode "\x7b\"Packages\": \x7b\"tidyr\": \x7b\x7d\x7d\x7d")) := rfl
  exact FileTree.leadsToFile_of_file rfl ⟨by decide, by decide, by decide⟩ held

theorem bystander_lockedPair : smallPruning.Bystander lockedPair [] ("renv.lock" : Text) := by
  have held : lockedPair.node? ([] ++ [("renv.lock" : Text)]) = some (.file 0o644
      (Utf8.encode "\x7b\"Packages\": \x7b\"tidyr\": \x7b\x7d\x7d\x7d")) := rfl
  have manifest : lockedPair.resolve smallPruning.manifestPath = .ok [("DESCRIPTION" : Text)] := by
    rfl
  have found : (smallPruning.discovery lockedPair).found =
      [(Path.anchored ["R", "model.R"], .script)] := rfl
  have source : lockedPair.resolve (Path.anchored ["R", "model.R"]) =
      .ok [("R" : Text), "model.R"] := rfl
  refine ⟨FileTree.avoids_of_resolve held manifest (by decide), ?_⟩
  rw [found, List.forall_mem_singleton]
  exact FileTree.avoids_of_resolve held source (by decide)

/-- Whether two runs, on trees that differ by the lockfile alone, warn of different things, although
the lockfile is neither the manifest nor a source file. -/
structure DependsOnLockfile (gate : Gate) (tree other : FileTree) (directory : Location)
    (name : Text) : Prop where
  lockfile : gate.lockfilePath = Path.anchored (directory ++ [name])
  differ : DifferBy directory name tree other
  here : gate.Bystander tree directory name
  there : gate.Bystander other directory name
  tells : ∃ result after resultThere afterThere,
    runFrom (Session.start tree none) gate.run = (.ok result, after) ∧
    runFrom (Session.start other none) gate.run = (.ok resultThere, afterThere) ∧
    result.warnings ≠ resultThere.warnings

/-- A pruning that cannot create the manifest's temporary file warns of that and of nothing else. -/
theorem warns_of_createTemporary {text : Text} {error : PathError} {last : Session}
    (prunes : gate.prune = true) (found : textAt tree gate.manifestPath = .ok (some text))
    (complete : ∀ name ∈ gate.neededNames tree (.ofText text),
      name ∈ Manifest.declaredNames text .required)
    (present : Manifest.prunedNames (gate.neededNames tree (.ofText text))
      gate.settings.protectedPackages text ≠ [])
    (failed : tree.createTemporary gate.manifestPath = .error error)
    (finished : runFrom (Session.start tree tool) gate.run = (.ok result, last)) :
    result.warnings =
      ["Pruning skipped: " ++ (Action.replaceFailure gate.manifestPath (.path error)).message] := by
  obtain ⟨before, lockfileFound, fixed, between, middle, left, foundAgain, added, removed⟩ :=
    exists_amendments_of_run_eq_ok finished
  change textAt tree gate.manifestPath = .ok before at foundAgain
  change (gate.addition (gate.comparison tree tool before lockfileFound)).Makes gate.manifestPath
    tree before (gate.comparison tree tool before lockfileFound) fixed between middle at added
  obtain rfl := Except.ok.inj (found.symm.trans foundAgain)
  have passes : (gate.comparison tree tool (some text) lockfileFound).missing = [] := by
    rw [List.eq_nil_iff_forall_not_mem]
    intro name missing
    obtain ⟨needed, undeclared⟩ := mem_missing_comparison.mp missing
    exact undeclared (complete name needed)
  have unused : (gate.comparison tree tool (some text) lockfileFound).unused ≠ [] := by
    obtain ⟨name, removable⟩ := List.exists_mem_of_ne_nil _ present
    exact List.ne_nil_of_mem (Manifest.mem_prunedNames.mp removable).1
  have refused (edited : WideText) : tree.replaceFile gate.manifestPath edited =
      (.error (.path error), tree) :=
    FileTree.replaceFile_of_createTemporary_eq_error failed
  generalize last.tree = after at removed
  cases added with
  | refused asked | written asked => exact absurd passes asked.1
  | idle =>
      have asked : (gate.removal (gate.comparison tree tool (some text) lockfileFound)).asked :=
        ⟨passes, prunes, unused⟩
      cases removed with
      | idle nothing =>
          obtain ⟨other, same, none⟩ := nothing asked
          obtain rfl := Option.some.inj same
          exact absurd none present
      | written _ _ _ _ replaced =>
          cases (Prod.mk.inj ((refused _).symm.trans replaced)).1
      | refused _ fails =>
          cases fails with
          | absent none => cases none
          | unwritable _ _ refusedHere =>
              obtain rfl :=
                Except.error.inj (Prod.mk.inj ((refused _).symm.trans refusedHere)).1
              rfl

/-- A manifest that requires a package that nothing uses. -/
def idleManifest : Text := "Imports: tidyr\n"

/-- A project whose manifest is reached over a link to a directory and up again, and whose
lockfile bears the name of the manifest's directory. -/
def linkedProject : FileTree :=
  ⟨[(["link"], .link "some/inner"), (["some"], .directory 0o755),
    (["some", "inner"], .directory 0o755), (["some", "lock"], .directory 0o755),
    (["some", "lock", "DESCRIPTION"], .file 0o644 (Utf8.encode idleManifest)),
    (["lock"], .file 0o644 (Utf8.encode "\x7b\x7d"))]⟩

/-- A pruning of that project. Without its parent step, the path of the manifest leads to the
lockfile first, and that is where the temporary file is to go. -/
def linkedPruning : Gate :=
  ⟨{ Settings.standard with
      manifestName := "link/../lock/DESCRIPTION", lockfileName := "lock" },
    Path.anchored [], false, true, false, .usual⟩

/-- The project without its lockfile. -/
def linkedProjectUnlocked : FileTree := linkedProject.erase [("lock" : Text)]

/-- With the lockfile or without it, the sources refer to nothing and the path of the manifest leads
over the link; pruning takes something out of the manifest. -/
theorem facts_linkedProject :
    (linkedPruning.scannedNames linkedProject = [] ∧
      linkedProject.resolve linkedPruning.manifestPath =
        .ok [("some" : Text), "lock", "DESCRIPTION"]) ∧
    (linkedPruning.scannedNames linkedProjectUnlocked = [] ∧
      linkedProjectUnlocked.resolve linkedPruning.manifestPath =
        .ok [("some" : Text), "lock", "DESCRIPTION"]) ∧
    (Lockfile.Reader.json Headroom.usual.values).packages linkedProject none
      linkedPruning.lockfilePath = .ok [] ∧
    Manifest.prunedNames [] Settings.standard.protectedPackages idleManifest ≠ [] := by
  decide +kernel

theorem leadsToFile_lock_linkedProject :
    linkedProject.LeadsToFile [] ("lock" : Text) [("lock" : Text)] := by
  have held : linkedProject.node? [("lock" : Text)] =
      some (.file 0o644 (Utf8.encode "\x7b\x7d")) := rfl
  exact FileTree.leadsToFile_of_file rfl ⟨by decide, by decide, by decide⟩ held

theorem bystander_linkedProject : linkedPruning.Bystander linkedProject [] ("lock" : Text) := by
  obtain ⟨⟨-, resolved⟩, -⟩ := facts_linkedProject
  have held : linkedProject.node? ([] ++ [("lock" : Text)]) =
      some (.file 0o644 (Utf8.encode "\x7b\x7d")) := rfl
  have found : (linkedPruning.discovery linkedProject).found = [] := rfl
  exact ⟨FileTree.avoids_of_resolve held resolved (by decide), by simp [found]⟩

/-- What the pruning warns of if it cannot reach the place of the manifest's temporary file. -/
def linkedWarning (fault : PathFault) : Text :=
  "Pruning skipped: " ++ (Action.replaceFailure linkedPruning.manifestPath (.path
    ⟨fault, (temporaryPath linkedPruning.manifestPath ("gate0000" : Text)).text, none⟩)).message

theorem warnings_linkedPruning {tree : FileTree} {fault : PathFault} {last : Session}
    (found : textAt tree linkedPruning.manifestPath = .ok (some idleManifest))
    (unused : linkedPruning.scannedNames tree = [])
    (homeless : tree.site (temporaryPath linkedPruning.manifestPath ("gate0000" : Text)) =
      .error fault)
    (finished : runFrom (Session.start tree none) linkedPruning.run = (.ok result, last)) :
    result.warnings = [linkedWarning fault] := by
  obtain ⟨-, -, -, removable⟩ := facts_linkedProject
  have needed : linkedPruning.neededNames tree (.ofText idleManifest) = [] := by
    rw [neededNames, unused, withoutOwnPackage_nil]
  refine warns_of_createTemporary rfl found ?_ ?_
    (FileTree.createTemporary_of_site_eq_error homeless) finished
  · simp [needed]
  · rw [needed]
    exact removable

/-- With the lockfile, what should be a directory is a file. -/
theorem linkedPruning_warns :
    ∃ result after, runFrom (Session.start linkedProject none) linkedPruning.run =
        (.ok result, after) ∧ result.warnings = [linkedWarning .notDirectory] := by
  obtain ⟨⟨unused, resolved⟩, -, read, -⟩ := facts_linkedProject
  have held := FileTree.nodeAt_eq_ok_iff.mpr ⟨_, resolved, rfl⟩
  have found : textAt linkedProject linkedPruning.manifestPath = .ok (some idleManifest) :=
    Manifest.textAt_of_nodeAt held (by decide)
  have searched : (linkedPruning.discovery linkedProject).failure = none := rfl
  have site : linkedProject.site (temporaryPath linkedPruning.manifestPath ("gate0000" : Text)) =
      .error .notDirectory := rfl
  have present : linkedProject.isFile linkedPruning.lockfilePath = .ok true := rfl
  have runnable : linkedPruning.Runnable linkedProject none :=
    ⟨searched, ⟨_, found⟩, .json Headroom.usual.values, rfl, ⟨true, present⟩,
      fun _ error failed => by simp [read] at failed⟩
  obtain ⟨result, after, finished⟩ : ∃ result after,
      runFrom (Session.start linkedProject none) linkedPruning.run = (.ok result, after) :=
    (run_returns_iff rfl).mpr runnable
  exact ⟨result, after, finished, warnings_linkedPruning found unused site finished⟩

/-- Without it, there is nothing. -/
theorem linkedPruning_warns_unlocked :
    ∃ result after, runFrom (Session.start linkedProjectUnlocked none) linkedPruning.run =
        (.ok result, after) ∧ result.warnings = [linkedWarning .missing] := by
  obtain ⟨-, ⟨unused, resolved⟩, -⟩ := facts_linkedProject
  have held := FileTree.nodeAt_eq_ok_iff.mpr ⟨_, resolved, rfl⟩
  have found : textAt linkedProjectUnlocked linkedPruning.manifestPath =
      .ok (some idleManifest) := Manifest.textAt_of_nodeAt held (by decide)
  have searched : (linkedPruning.discovery linkedProjectUnlocked).failure = none := rfl
  have site : linkedProjectUnlocked.site (temporaryPath linkedPruning.manifestPath
      ("gate0000" : Text)) = .error .missing := rfl
  have absent : linkedProjectUnlocked.isFile linkedPruning.lockfilePath = .ok false := rfl
  obtain ⟨result, after, finished⟩ : ∃ result after,
      runFrom (Session.start linkedProjectUnlocked none) linkedPruning.run =
        (.ok result, after) :=
    run_returns rfl searched found absent (by decide)
  exact ⟨result, after, finished, warnings_linkedPruning found unused site finished⟩

end Gate

end DependencyGate

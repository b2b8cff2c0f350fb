/-
# What a run changes

The only place that a run may change is the site of the manifest's path, where neither a
temporary file nor anything else is left. A run that ends early or does not pass leaves the
very same tree. One that returns has changed the manifest exactly if it reports that it added
or pruned a name: an edit that concerns a name makes a difference, and a removal does not take
an addition back (`leaves_of_amendments`).
-/

import DependencyGate.Proofs.Manifest.Difference
import DependencyGate.Proofs.Run.Laws
import DependencyGate.Proofs.Run.Modes

namespace DependencyGate

open DependencyGate.Action (runFrom)
open Manifest (textAt)

namespace Gate

variable {gate : Gate} {tree between after : FileTree} {tool : Option Lockfile.Tool}
  {before middle left : Option Text} {lockfileFound : Bool} {compared fixed result : Result}

/-- What a run with a result leaves of a file tree: the same tree, or one with another manifest,
and the result says which of the two. -/
inductive Leaves (path : Path) (tree : FileTree) (result : Result) : FileTree → Prop
  | kept (unadded : result.added = []) (unpruned : result.pruned = []) :
      Leaves path tree result tree
  | rewritten {place : Location} {mode : Nat} {bytes : List UInt8}
      (site : tree.site path = .ok place)
      (differs : tree.node? place ≠ some (.file mode bytes)) (complete : result.missing = [])
      (accounted : result.added ≠ [] ∨ result.pruned ≠ []) :
      Leaves path tree result (tree.put place (.file mode bytes))

/-- A removal behind a comparison to which nothing has been added. -/
theorem leaves_of_removal (found : textAt tree gate.manifestPath = .ok middle)
    (unadded : fixed.added = []) (unpruned : fixed.pruned = [])
    (removed : (gate.removal fixed).Makes gate.manifestPath tree middle fixed result after left) :
    Leaves gate.manifestPath tree result after := by
  cases removed with
  | idle | refused => exact .kept unadded unpruned
  | written asked same present site =>
      subst same
      obtain ⟨-, clear⟩ := Manifest.textAt_eq_some found
      refine .rewritten site ?_ asked.1 (.inr present)
      exact Manifest.node?_site_ne found site (clear_removal _ clear)
        (Manifest.pruned_ne present) _

/-- Both amendments together. -/
theorem leaves_of_amendments (found : textAt tree gate.manifestPath = .ok before)
    (same : compared = gate.comparison tree tool before lockfileFound)
    (added : (gate.addition compared).Makes gate.manifestPath tree before compared fixed between
      middle)
    (removed : (gate.removal fixed).Makes gate.manifestPath between middle fixed result after
      left) :
    Leaves gate.manifestPath tree result after := by
  have valid : ∀ name ∈ compared.missing, PackageName.isValid name = true :=
    same ▸ valid_of_mem_missing_comparison
  have used : ∀ name ∈ compared.missing, name ∈ compared.used := fun name missing =>
    (((same ▸ isLawful_comparison : compared.IsLawful _).mem_missing_iff name).mp missing).1
  have unadded : compared.added = [] := same ▸ rfl
  have unpruned : compared.pruned = [] := same ▸ rfl
  cases added with
  | idle | refused =>
      refine leaves_of_removal found ?_ ?_ removed
      · exact unadded
      · exact unpruned
  | @written text place mode _ present new site =>
      have names := names_addition same present
      subst present
      obtain ⟨file, clear⟩ := Manifest.textAt_eq_some found
      have clearAdded : '\r' ∉ (gate.addition compared).edit text := clear_addition valid _ clear
      have complete : (withAdded compared ((gate.addition compared).names text)).missing = [] := by
        rw [names]
        simp [withAdded, List.eq_nil_iff_forall_not_mem]
      cases removed with
      | idle | refused =>
          refine .rewritten site ?_ complete (.inl new)
          exact Manifest.node?_site_ne found site clearAdded (Manifest.extended_ne valid new) _
      | written _ again _ siteAgain =>
          obtain rfl := Option.some.inj again
          obtain rfl := Except.ok.inj
            ((FileTree.site_put_site file site _ _).symm.trans siteAgain)
          rw [FileTree.put_put]
          refine .rewritten site ?_ complete (.inl new)
          exact Manifest.node?_site_ne found site (clear_removal _ clearAdded)
            (Manifest.pruned_extended_ne valid new used) _

/-- A run ends early and leaves the tree as it was, or it returns a result that says what it
leaves. -/
theorem leaves_of_run {outcome : Except Failure Result} {session last : Session}
    (ended : runFrom session gate.run = (outcome, last)) :
    (∃ failure, outcome = .error failure ∧ last.tree = session.tree) ∨
      ∃ result, outcome = .ok result ∧
        Leaves gate.manifestPath session.tree result last.tree := by
  rcases run_cases ended with
    stopped | ⟨before, lockfileFound, between, found, kept, phase, settled⟩
  · exact .inl stopped
  · obtain ⟨result, after, returned⟩ := settle_returns phase (kept ▸ found) _
    obtain ⟨rfl, rfl⟩ := Prod.mk.inj (returned.symm.trans settled)
    obtain ⟨fixed, between', middle, left, added, removed⟩ :=
      exists_amendments_of_settle_eq_ok (kept ▸ found) rfl returned
    rw [kept] at added
    exact .inr ⟨result, rfl, leaves_of_amendments found rfl added removed⟩

theorem Leaves.eq_of_missing {path : Path} (leaves : Leaves path tree result after)
    (missing : result.missing ≠ []) : after = tree := by
  cases leaves with
  | kept => rfl
  | rewritten _ _ complete => exact absurd complete missing

theorem Leaves.site_of_change {path : Path} {place : Location}
    (leaves : Leaves path tree result after) (changed : after.node? place ≠ tree.node? place) :
    tree.site path = .ok place := by
  cases leaves with
  | kept => exact absurd rfl changed
  | @rewritten changedPlace _ _ site =>
      by_cases here : place = changedPlace
      · rw [here, site]
      · exact absurd (FileTree.node?_put_of_ne here) changed

theorem Leaves.changed_iff {path : Path} (leaves : Leaves path tree result after) :
    (∃ place, tree.site path = .ok place ∧ after.node? place ≠ tree.node? place) ↔
      result.added ≠ [] ∨ result.pruned ≠ [] := by
  cases leaves with
  | kept unadded unpruned => simp [unadded, unpruned]
  | @rewritten place mode bytes site differs _ accounted =>
      refine iff_of_true ⟨place, site, ?_⟩ accounted
      obtain ⟨-, -, directory, -, -, -, -, -, rfl⟩ := FileTree.site_eq_ok_iff.mp site
      rw [FileTree.node?_put_self (by simp)]
      exact differs.symm

/-- A run changes nothing but the manifest. A place that it changes is the site of the
manifest's path, so that no temporary file is left. A run that ends early or does not pass leaves
the very same tree. One that returns has changed the manifest exactly if it reports that it added
or pruned a name. -/
theorem run_changes_manifest_alone (gate : Gate) (tree : FileTree) (tool : Option Lockfile.Tool)
    {outcome : Except Failure Result} {after : Session}
    (ended : runFrom (Session.start tree tool) gate.run = (outcome, after)) :
    (∀ place, after.tree.node? place ≠ tree.node? place →
      tree.site gate.manifestPath = .ok place) ∧
    (∀ failure, outcome = .error failure → after.tree = tree) ∧
    ∀ result, outcome = .ok result →
      (result.exitCode = 1 → after.tree = tree) ∧
      ((∃ place, tree.site gate.manifestPath = .ok place ∧
          after.tree.node? place ≠ tree.node? place) ↔
        result.added ≠ [] ∨ result.pruned ≠ []) := by
  rcases leaves_of_run ended with ⟨failure, rfl, kept⟩ | ⟨result, rfl, leaves⟩
  · change after.tree = tree at kept
    refine ⟨fun place changed => absurd (by rw [kept]) changed, fun _ _ => kept, ?_⟩
    rintro _ ⟨⟩
  · refine ⟨fun place => leaves.site_of_change, by rintro _ ⟨⟩, ?_⟩
    rintro _ ⟨⟩
    refine ⟨fun fails => ?_, leaves.changed_iff⟩
    exact leaves.eq_of_missing (exitCode_eq_one_iff.mp fails)

theorem smallRepair_changes_manifest_alone :
    ∃ result after,
      runFrom (Session.start unevenProject none) smallRepair.run = (.ok result, after) ∧
      (∀ place, after.tree.node? place ≠ unevenProject.node? place →
        unevenProject.site smallRepair.manifestPath = .ok place) ∧
      ((∃ place, unevenProject.site smallRepair.manifestPath = .ok place ∧
          after.tree.node? place ≠ unevenProject.node? place) ↔
        result.added ≠ [] ∨ result.pruned ≠ []) := by
  obtain ⟨result, after, finished⟩ := smallRepair_returns
  obtain ⟨alone, -, returned⟩ := run_changes_manifest_alone smallRepair unevenProject none finished
  exact ⟨result, after, finished, alone, (returned result rfl).2⟩

end Gate
end DependencyGate

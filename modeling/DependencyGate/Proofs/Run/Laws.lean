/-
# Laws of a result

The lists of a result stand for sets of names, and these are related: what is missing is used
and not declared, what is unused is declared and neither used nor protected, what was added is
used and declared, and what was pruned is none of the three (`Result.IsLawful`). A comparison
establishes these laws at once. The amendments behind it change what is declared and make up
for that in the other lists, each in its own way, and keep the laws whether they are done or
fail.
-/

import DependencyGate.Proofs.Run.Amendment

namespace DependencyGate

open DependencyGate.Action (runFrom)
open Manifest (Declared textAt)

/-- Whether the lists of a result are in ascending order by code point, so that no name is
listed twice. -/
structure Result.IsAscending (result : Result) : Prop where
  used : result.used.Pairwise (· < ·)
  declared : result.declared.Pairwise (· < ·)
  optional : result.optional.Pairwise (· < ·)
  locked : result.locked.Pairwise (· < ·)
  missing : result.missing.Pairwise (· < ·)
  unused : result.unused.Pairwise (· < ·)
  extraLocked : result.extraLocked.Pairwise (· < ·)
  added : result.added.Pairwise (· < ·)
  pruned : result.pruned.Pairwise (· < ·)

/-- Whether the lists of a result are related as the sets they stand for, beside the protected
names. -/
structure Result.IsLawful (result : Result) (kept : List Text) : Prop where
  mem_missing_iff : ∀ name, name ∈ result.missing ↔
    name ∈ result.used ∧ name ∉ result.declared
  mem_unused_iff : ∀ name, name ∈ result.unused ↔
    name ∈ result.declared ∧ name ∉ result.used ∧ name ∉ kept
  used_of_added : ∀ name ∈ result.added, name ∈ result.used
  declared_of_added : ∀ name ∈ result.added, name ∈ result.declared
  apart_of_pruned : ∀ name ∈ result.pruned,
    name ∉ result.used ∧ name ∉ kept ∧ name ∉ result.declared

namespace Gate

variable {gate : Gate} {session after : Session} {tree between left : FileTree}
  {tool : Option Lockfile.Tool} {before middle : Option Text} {lockfileFound : Bool}
  {compared fixed result : Result} {kept names : List Text}

/-! ## A comparison -/

theorem pairwise_neededNames (tree : FileTree) (declared : Declared) :
    (gate.neededNames tree declared).Pairwise (· < ·) := by
  rw [neededNames, scannedNames, PackageName.select]
  cases declared.package with
  | none => exact pairwise_canonical _
  | some package =>
      rw [withoutOwnPackage]
      split
      · exact pairwise_canonical _
      · exact pairwise_canonical _

theorem pairwise_required (before : Option Text) :
    (Declared.ofText? before).required.Pairwise (· < ·) :=
  canonical_eq_self_iff.mp (canonical_required before)

theorem pairwise_optional (before : Option Text) :
    (Declared.ofText? before).optional.Pairwise (· < ·) := by
  cases before with
  | none => exact .nil
  | some text => exact canonical_eq_self_iff.mp (Manifest.canonical_declaredNames text .optional)

theorem pairwise_lockedNames : (gate.lockedNames tree tool).Pairwise (· < ·) := by
  rw [lockedNames]
  split
  · exact Lockfile.pairwise_given
  · exact .nil

theorem isAscending_comparison :
    (gate.comparison tree tool before lockfileFound).IsAscending where
  used := pairwise_neededNames tree _
  declared := pairwise_required before
  optional := pairwise_optional before
  locked := pairwise_lockedNames
  missing := pairwise_canonical _
  unused := pairwise_canonical _
  extraLocked := pairwise_canonical _
  added := .nil
  pruned := .nil

theorem isLawful_comparison :
    (gate.comparison tree tool before lockfileFound).IsLawful gate.settings.protectedPackages where
  mem_missing_iff _ := mem_missingNames
  mem_unused_iff _ := Manifest.mem_unusedNames
  used_of_added _ listed := absurd listed List.not_mem_nil
  declared_of_added _ listed := absurd listed List.not_mem_nil
  apart_of_pruned _ listed := absurd listed List.not_mem_nil

/-! ## What amendments report -/

theorem isAscending_withWarning {warning : Text} (ascending : compared.IsAscending) :
    (withWarning compared warning).IsAscending :=
  { ascending with }

theorem isLawful_withWarning {warning : Text} (lawful : compared.IsLawful kept) :
    (withWarning compared warning).IsLawful kept :=
  { lawful with }

theorem isAscending_withAdded (ascending : compared.IsAscending) (listed : names.Pairwise (· < ·)) :
    (withAdded compared names).IsAscending :=
  { ascending with
    declared := pairwise_canonical _
    missing := ascending.missing.filter _
    added := listed }

/-- Adding all that is missing keeps the laws: nothing is missing then, and what was added is
used. -/
theorem isLawful_withAdded (lawful : compared.IsLawful kept) (unpruned : compared.pruned = []) :
    (withAdded compared compared.missing).IsLawful kept where
  mem_missing_iff name := by
    simp only [withAdded, mem_without, mem_canonical, List.mem_append, lawful.mem_missing_iff name]
    tauto
  mem_unused_iff name := by
    simp only [withAdded, mem_canonical, List.mem_append, lawful.mem_missing_iff name,
      lawful.mem_unused_iff name]
    tauto
  used_of_added name added := ((lawful.mem_missing_iff name).mp added).1
  declared_of_added name added := mem_canonical.mpr (List.mem_append_right _ added)
  apart_of_pruned name pruned := by
    change name ∈ compared.pruned at pruned
    simp [unpruned] at pruned

theorem isAscending_withPruned (ascending : fixed.IsAscending) (listed : names.Pairwise (· < ·)) :
    (withPruned fixed names).IsAscending :=
  { ascending with
    declared := ascending.declared.filter _
    unused := ascending.unused.filter _
    pruned := listed }

/-- Taking out names that are neither used nor protected keeps the laws. -/
theorem isLawful_withPruned (lawful : fixed.IsLawful kept)
    (unneeded : ∀ name ∈ names, name ∉ fixed.used ∧ name ∉ kept) :
    (withPruned fixed names).IsLawful kept where
  mem_missing_iff name := by
    have apart : name ∈ fixed.used → name ∉ names := fun used listed =>
      (unneeded name listed).1 used
    simp only [withPruned, mem_without, lawful.mem_missing_iff name]
    tauto
  mem_unused_iff name := by
    simp only [withPruned, mem_without, lawful.mem_unused_iff name]
    tauto
  used_of_added name added := lawful.used_of_added name added
  declared_of_added name added := mem_without.mpr ⟨lawful.declared_of_added name added,
    fun listed => (unneeded name listed).1 (lawful.used_of_added name added)⟩
  apart_of_pruned name pruned :=
    ⟨(unneeded name pruned).1, (unneeded name pruned).2,
      fun stays => (mem_without.mp stays).2 pruned⟩

/-! ## What amendments keep -/

/-- The added names are the missing ones. -/
theorem names_addition (same : compared = gate.comparison tree tool before lockfileFound)
    {text : Text} (found : before = some text) :
    (gate.addition compared).names text = compared.missing := by
  subst same
  exact addedNames_comparison found

theorem isAscending_of_addition
    (makes : (gate.addition compared).Makes gate.manifestPath tree before compared fixed between
      middle) (ascending : compared.IsAscending) : fixed.IsAscending := by
  cases makes with
  | idle => exact ascending
  | refused => exact isAscending_withWarning ascending
  | written =>
      exact isAscending_withAdded ascending ((pairwise_canonical _).filter _)

theorem isLawful_of_addition (same : compared = gate.comparison tree tool before lockfileFound)
    {path : Path} {start : FileTree}
    (makes : (gate.addition compared).Makes path start before compared fixed between middle) :
    fixed.IsLawful gate.settings.protectedPackages := by
  have lawful : compared.IsLawful gate.settings.protectedPackages := same ▸ isLawful_comparison
  cases makes with
  | idle => exact lawful
  | refused => exact isLawful_withWarning lawful
  | written _ found =>
      rw [names_addition same found]
      exact isLawful_withAdded lawful (same ▸ rfl)

theorem isAscending_of_removal
    (makes : (gate.removal fixed).Makes gate.manifestPath between middle fixed result left before)
    (ascending : fixed.IsAscending) : result.IsAscending := by
  cases makes with
  | idle => exact ascending
  | refused => exact isAscending_withWarning ascending
  | written =>
      refine isAscending_withPruned ascending ?_
      change (Manifest.removeEntries _ _).2.Pairwise (· < ·)
      rw [Manifest.snd_removeEntries]
      exact pairwise_canonical _

theorem isLawful_of_removal
    (makes : (gate.removal fixed).Makes gate.manifestPath between middle fixed result left before)
    (lawful : fixed.IsLawful gate.settings.protectedPackages) :
    result.IsLawful gate.settings.protectedPackages := by
  cases makes with
  | idle => exact lawful
  | refused => exact isLawful_withWarning lawful
  | written =>
      refine isLawful_withPruned lawful fun name removed => ?_
      exact (Manifest.mem_unusedNames.mp (Manifest.mem_prunedNames.mp removed).1).2

/-- Removing what is unused touches neither what is missing nor what was added, and takes no
warning back. -/
theorem keeps_of_removal {path : Path}
    (makes : (gate.removal fixed).Makes path between middle fixed result left before) :
    result.used = fixed.used ∧ result.missing = fixed.missing ∧ result.added = fixed.added ∧
      fixed.warnings ⊆ result.warnings := by
  cases makes with
  | idle => exact ⟨rfl, rfl, rfl, List.Subset.refl _⟩
  | refused => exact ⟨rfl, rfl, rfl, List.subset_append_left _ _⟩
  | written => exact ⟨rfl, rfl, rfl, List.Subset.refl _⟩

/-! ## Runs that add what is missing -/

/-- Whether a result warns of an addition that failed. -/
def WarnsOfAddition (result : Result) : Prop :=
  ∃ warning ∈ result.warnings, ("Auto-fix failed: " : Text) <+: warning

/-- An addition that is asked for and does not fail adds all that is missing. -/
theorem complete_of_addition (same : compared = gate.comparison tree tool before lockfileFound)
    {path : Path} {start : FileTree} (fixes : gate.fix = true)
    (makes : (gate.addition compared).Makes path start before compared fixed between middle)
    (unwarned : ¬WarnsOfAddition fixed) :
    fixed.used = compared.used ∧ fixed.missing = [] ∧ fixed.added = compared.missing := by
  cases makes with
  | idle nothing =>
      have complete : compared.missing = [] := by
        by_contra missing
        obtain ⟨text, found, none⟩ := nothing ⟨missing, fixes⟩
        exact missing ((names_addition same found).symm.trans none)
      have unadded : compared.added = [] := same ▸ rfl
      exact ⟨rfl, complete, unadded.trans complete.symm⟩
  | refused =>
      exact absurd ⟨_, List.mem_append_right _ (List.mem_singleton_self _), List.prefix_append _ _⟩
        unwarned
  | written _ found =>
      rw [names_addition same found]
      refine ⟨rfl, ?_, rfl⟩
      simp [addition, withAdded, List.eq_nil_iff_forall_not_mem]

/-- The laws hold of every result. Whatever a run is asked to do and whatever of that fails,
the lists of the result that it returns are ascending and related as sets. If the run is to add
what is missing and warns of no failure to do so, nothing is missing, and what it added are the
used names that the manifest did not require before. -/
theorem result_isLawful (gate : Gate) (tree : FileTree) (tool : Option Lockfile.Tool)
    {result : Result} {after : Session}
    (finished : runFrom (Session.start tree tool) gate.run = (.ok result, after)) :
    result.IsAscending ∧ result.IsLawful gate.settings.protectedPackages ∧
      ∃ before, textAt tree gate.manifestPath = .ok before ∧
        (gate.fix = true → ¬WarnsOfAddition result →
          result.missing = [] ∧ ∀ name, name ∈ result.added ↔
            name ∈ result.used ∧ name ∉ (Declared.ofText? before).required) := by
  obtain ⟨before, lockfileFound, fixed, between, middle, left, found, added, removed⟩ :=
    exists_amendments_of_run_eq_ok finished
  change textAt tree gate.manifestPath = .ok before at found
  refine ⟨isAscending_of_removal removed (isAscending_of_addition added isAscending_comparison),
    isLawful_of_removal removed (isLawful_of_addition rfl added), before, found,
    fun fixes unwarned => ?_⟩
  obtain ⟨sameUsed, sameMissing, sameAdded, warned⟩ := keeps_of_removal removed
  have unwarnedBefore : ¬WarnsOfAddition fixed := by
    rintro ⟨warning, listed, titled⟩
    exact unwarned ⟨warning, warned listed, titled⟩
  obtain ⟨used, missing, addedNames⟩ := complete_of_addition rfl fixes added unwarnedBefore
  rw [sameMissing, sameAdded, sameUsed, used, addedNames]
  exact ⟨missing, fun name => mem_missing_comparison⟩

theorem smallRepair_returns :
    ∃ result after,
      runFrom (Session.start unevenProject none) smallRepair.run = (.ok result, after) := by
  have searched : (smallRepair.discovery unevenProject).failure = none := rfl
  have readable : textAt unevenProject smallRepair.manifestPath =
      .ok (some unevenManifest) := Manifest.textAt_of_nodeAt rfl (by decide)
  have absent : unevenProject.isFile smallRepair.lockfilePath = .ok false := rfl
  exact run_returns rfl searched readable absent (by decide)

theorem smallRepair_result_isLawful :
    ∃ result after,
      runFrom (Session.start unevenProject none) smallRepair.run = (.ok result, after) ∧
      result.IsAscending ∧ result.IsLawful smallRepair.settings.protectedPackages := by
  obtain ⟨result, after, finished⟩ := smallRepair_returns
  obtain ⟨ascending, lawful, -⟩ := result_isLawful smallRepair unevenProject none finished
  exact ⟨result, after, finished, ascending, lawful⟩

end Gate
end DependencyGate

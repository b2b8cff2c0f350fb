/-
# The stricter of two modes

A check in strict mode scans at least the directories that standard mode scans, so it refers to
at least the same names (`References.strictCheck`). Both modes compare these with one manifest.
What standard mode uses or misses is therefore used or missed in strict mode, and what strict mode
uses besides is referred to in the further directories alone. A project that passes the strict
check passes the standard one (`standardCheck_within_strictCheck`).
-/

import DependencyGate.Proofs.Run.Amendment
import DependencyGate.Proofs.Run.Modes

namespace DependencyGate

open DependencyGate.Action (runFrom)
open Manifest (Declared)

namespace Gate

variable {gate : Gate} {session after : Session} {tree : FileTree} {tool : Option Lockfile.Tool}
  {declared : Declared} {result : Result} {name : Text}

/-- The check of a project in standard mode, which changes nothing. -/
def standardCheck (gate : Gate) : Gate :=
  { gate with strict := false, prune := false, fix := false }

/-- A run that is to change nothing returns its comparison. -/
theorem exists_comparison_of_check_eq_ok (checks : gate.fix = false) (keeps : gate.prune = false)
    (finished : runFrom session gate.run = (.ok result, after)) :
    ∃ before lockfileFound, Manifest.textAt session.tree gate.manifestPath = .ok before ∧
      result = gate.comparison session.tree session.tool before lockfileFound := by
  obtain ⟨before, lockfileFound, between, found, -, settled⟩ := exists_settle_of_run_eq_ok finished
  refine ⟨before, lockfileFound, found, ?_⟩
  simp only [settle, checks, keeps, Bool.and_false, Bool.false_and, Bool.false_eq_true, if_false,
    pure_bind, Action.runFrom_pure, Prod.mk.injEq, Except.ok.injEq] at settled
  exact settled.1.symm

section Modes

variable (within : gate.settings.standardDirectories ⊆ gate.settings.strictDirectories)

include within

/-- Standard mode has no reason to fail that strict mode does not have. -/
theorem Runnable.standardCheck (runnable : gate.strictCheck.Runnable tree tool) :
    gate.standardCheck.Runnable tree tool where
  searched := Source.failure_discover_eq_none_of_subset within runnable.searched
  readable := runnable.readable
  tolerates := runnable.tolerates

variable (searched : (Source.discover tree gate.headroom.directories gate.project
  gate.settings.strictDirectories gate.settings.sourceKinds).failure = none)

include searched

/-- What the sources of standard mode refer to, those of strict mode refer to. -/
theorem References.strictCheck (referenced : gate.standardCheck.References tree name) :
    gate.strictCheck.References tree name := by
  obtain ⟨found, listed, read⟩ := referenced
  exact ⟨found, Source.found_discover_subset within searched listed, read⟩

theorem Needs.strictCheck (needed : gate.standardCheck.Needs tree declared name) :
    gate.strictCheck.Needs tree declared name where
  referenced := needed.referenced.strictCheck within searched
  valid := needed.valid
  not_base := needed.not_base
  not_own := needed.not_own

end Modes

/-- Strict mode is at least as strict. If the strict check of a project returns, so does the
standard check. What that uses or misses, the strict check uses or misses, and what only the strict
check uses is referred to outside of the standard directories alone. So a project that passes the
strict check passes the standard one. -/
theorem standardCheck_within_strictCheck (gate : Gate) (tree : FileTree)
    (tool : Option Lockfile.Tool)
    (within : gate.settings.standardDirectories ⊆ gate.settings.strictDirectories)
    {strict : Result} {unchanged : Session}
    (checked : runFrom (Session.start tree tool) gate.strictCheck.run = (.ok strict, unchanged)) :
    ∃ standard after,
      runFrom (Session.start tree tool) gate.standardCheck.run = (.ok standard, after) ∧
      standard.used ⊆ strict.used ∧ standard.missing ⊆ strict.missing ∧
      (∀ name ∈ strict.used, name ∉ standard.used →
        ¬gate.standardCheck.References tree name) ∧
      (strict.exitCode = 0 → standard.exitCode = 0) := by
  have runnable : gate.strictCheck.Runnable tree tool :=
    (run_returns_iff rfl).mp ⟨strict, unchanged, checked⟩
  obtain ⟨standard, after, checkedToo⟩ : ∃ standard after,
      runFrom (Session.start tree tool) gate.standardCheck.run = (.ok standard, after) :=
    (run_returns_iff rfl).mpr (runnable.standardCheck within)
  obtain ⟨before, locked, found, rfl⟩ := exists_comparison_of_check_eq_ok rfl rfl checked
  obtain ⟨again, lockedToo, foundAgain, rfl⟩ := exists_comparison_of_check_eq_ok rfl rfl checkedToo
  obtain rfl : before = again := Except.ok.inj (found.symm.trans foundAgain)
  have needs {name : Text} (needed : gate.standardCheck.Needs tree (.ofText? before) name) :
      gate.strictCheck.Needs tree (.ofText? before) name :=
    needed.strictCheck within runnable.searched
  have missing : (gate.standardCheck.comparison tree tool before lockedToo).missing ⊆
      (gate.strictCheck.comparison tree tool before locked).missing := by
    intro name listed
    obtain ⟨needed, undeclared⟩ := mem_missing_comparison.mp listed
    exact mem_missing_comparison.mpr
      ⟨mem_neededNames.mpr (needs (mem_neededNames.mp needed)), undeclared⟩
  refine ⟨_, after, checkedToo, ?_, missing, ?_, ?_⟩
  · intro name used
    exact mem_neededNames.mpr (needs (mem_neededNames.mp used))
  · intro name used unused referenced
    have exempt := (needs_iff.mp (mem_neededNames.mp used)).2
    exact unused (mem_neededNames.mpr (needs_iff.mpr ⟨referenced, exempt⟩))
  · rw [exitCode_eq_zero_iff, exitCode_eq_zero_iff]
    intro complete
    exact List.subset_nil.mp (complete ▸ missing)

/-- In the example project only a test refers to the second package, so that the two modes
differ. -/
theorem standardCheck_within_strictCheck_testedProject :
    smallCheck.settings.standardDirectories ⊆ smallCheck.settings.strictDirectories ∧
      ∃ strict unchanged standard after,
        runFrom (Session.start testedProject none) smallCheck.strictCheck.run =
          (.ok strict, unchanged) ∧
        runFrom (Session.start testedProject none) smallCheck.standardCheck.run =
          (.ok standard, after) ∧
        standard.used ⊆ strict.used ∧ standard.missing ⊆ strict.missing ∧
        (∀ name ∈ strict.used, name ∉ standard.used →
          ¬smallCheck.standardCheck.References testedProject name) ∧
        (strict.exitCode = 0 → standard.exitCode = 0) := by
  have within :
      smallCheck.settings.standardDirectories ⊆ smallCheck.settings.strictDirectories := by
    decide
  obtain ⟨strict, unchanged, checked⟩ : ∃ strict unchanged,
      runFrom (Session.start testedProject none) smallCheck.strictCheck.run =
        (.ok strict, unchanged) :=
    (run_returns_iff rfl).mpr runnable_testedProject
  obtain ⟨standard, after, compared⟩ :=
    standardCheck_within_strictCheck smallCheck testedProject none within checked
  exact ⟨within, strict, unchanged, standard, after, checked, compared⟩

end Gate
end DependencyGate

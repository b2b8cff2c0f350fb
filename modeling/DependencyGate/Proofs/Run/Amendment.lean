/-
# What a run makes of a manifest

Behind its comparison, a run amends the manifest at most twice: it adds what is missing, and
then it removes what is unused. An amendment is left out, or it is refused and becomes a
warning, or it is written and accounted for in the result (`Amendment.Makes`). Both amendments
of a run are of this kind (`exists_amendments_of_run_eq_ok`), so what holds of a result is
what holds of a comparison and is kept by either.
-/

import DependencyGate.Proofs.Run.Pruned

namespace DependencyGate

open DependencyGate.Action (runFrom)
open Manifest (Declared textAt)

/-- An edit of the manifest as a run makes it: when it is asked for, the text that it writes and
the names that it concerns, what it warns of if it fails and what it reports if it is done. -/
structure Amendment where
  asked : Prop
  edit : Text → Text
  names : Text → List Text
  warning : Failure → Text
  done : List Text → Result

namespace Amendment

variable {amendment : Amendment} {path : Path} {tree after : FileTree} {before left : Option Text}
  {result amended : Result}

/-- Why an amendment fails: there is no manifest, or it cannot be replaced. -/
inductive Fails (amendment : Amendment) (path : Path) (tree : FileTree) (before : Option Text) :
    Failure → Prop
  | absent (none : before = none) : Fails amendment path tree before (.manifestMissing path.text)
  | unwritable {text : Text} {error : ReplaceError} (found : before = some text)
      (present : amendment.names text ≠ [])
      (refused : tree.replaceFile path (amendment.edit text).widen = (.error error, tree)) :
      Fails amendment path tree before (Action.replaceFailure path error)

/-- What an amendment makes of a result, of the file tree and of the manifest's text. -/
inductive Makes (amendment : Amendment) (path : Path) (tree : FileTree) (before : Option Text)
    (result : Result) : Result → FileTree → Option Text → Prop
  | idle (nothing : amendment.asked → ∃ text, before = some text ∧ amendment.names text = []) :
      Makes amendment path tree before result result tree before
  | refused {failure : Failure} (asked : amendment.asked)
      (fails : amendment.Fails path tree before failure) :
      Makes amendment path tree before result
        (Gate.withWarning result (amendment.warning failure)) tree before
  | written {text : Text} {place : Location} {mode : Nat} (asked : amendment.asked)
      (found : before = some text) (present : amendment.names text ≠ [])
      (site : tree.site path = .ok place)
      (replaced : tree.replaceFile path (amendment.edit text).widen =
        (.ok (), tree.put place (.file mode (Utf8.encode (amendment.edit text))))) :
      Makes amendment path tree before result (amendment.done (amendment.names text))
        (tree.put place (.file mode (Utf8.encode (amendment.edit text))))
        (some (amendment.edit text))

/-- What is read of the manifest afterwards. -/
theorem Makes.textAt (makes : amendment.Makes path tree before result amended after left)
    (found : textAt tree path = .ok before)
    (clear : ∀ text, '\r' ∉ text → '\r' ∉ amendment.edit text) : textAt after path = .ok left := by
  cases makes with
  | idle | refused => exact found
  | written _ same _ site =>
      subst same
      obtain ⟨file, absent⟩ := Manifest.textAt_eq_some found
      rw [Manifest.textAt_put_site file site, Text.unifyLineEndings_eq_self (clear _ absent)]

/-- A phase that edits the manifest amends it. -/
theorem makes_of_editPhase (amendment : Amendment) {session after : Session} {phase : Phase}
    {step : Action (List Text)} {event : Failure → Log.Event} (asked : amendment.asked)
    (found : Manifest.textAt session.tree path = .ok before)
    (edits : ∀ {session after : Session} {outcome}, runFrom session step = (outcome, after) →
      Manifest.Edits path amendment.edit amendment.names session.tree outcome after.tree)
    (absent : before = none → ∀ {session after : Session} {outcome},
      Manifest.textAt session.tree path = .ok none → runFrom session step = (outcome, after) →
        outcome = .error (.manifestMissing path.text))
    (same : amendment.done [] = result)
    (finished : runFrom session (Gate.editPhase phase step event amendment.warning amendment.done
      result) = (.ok amended, after)) :
    ∃ left, amendment.Makes path session.tree before result amended after.tree left := by
  obtain ⟨first, outcome, second, kept, ended, unchanged, accounted⟩ :=
    Gate.exists_outcome_of_editPhase_eq_ok finished
  have edited := edits ended
  rw [kept, ← unchanged] at edited
  generalize after.tree = tree at edited
  cases before with
  | none =>
      obtain rfl := absent rfl (kept ▸ found) ended
      obtain ⟨_, impossible, -⟩ | ⟨failure, failed, rfl⟩ := accounted
      · cases impossible
      · cases failed
        obtain rfl := edited.eq_of_error
        exact ⟨_, .refused asked (.absent rfl)⟩
  | some text =>
      cases edited with
      | idle nothing =>
          obtain ⟨written, done, rfl⟩ | ⟨_, impossible, -⟩ := accounted
          · obtain rfl := Except.ok.inj done
            rw [same]
            exact ⟨_, .idle fun _ => ⟨text, rfl, nothing text found⟩⟩
          · cases impossible
      | failed _ refused =>
          obtain ⟨_, impossible, -⟩ | ⟨failure, failed, rfl⟩ := accounted
          · cases impossible
          · cases failed
            obtain ⟨present, error, unwritable, rfl⟩ := refused text found
            exact ⟨_, .refused asked (.unwritable rfl present unwritable)⟩
      | written read present site replaced =>
          obtain rfl := Option.some.inj (Except.ok.inj (found.symm.trans read))
          obtain ⟨written, done, rfl⟩ | ⟨_, impossible, -⟩ := accounted
          · obtain rfl := Except.ok.inj done
            exact ⟨_, .written asked rfl present site replaced⟩
          · cases impossible

end Amendment

namespace Gate

variable {gate : Gate} {session after : Session} {tree : FileTree} {tool : Option Lockfile.Tool}
  {before middle : Option Text} {lockfileFound : Bool} {compared fixed result : Result}

/-- Adding what a comparison found missing. -/
def addition (gate : Gate) (compared : Result) : Amendment where
  asked := compared.missing ≠ [] ∧ gate.fix = true
  edit := Manifest.extended compared.missing
  names := Manifest.addedNames compared.missing
  warning failure := "Auto-fix failed: " ++ failure.message
  done := withAdded compared

/-- Removing what is unused, once nothing is missing. -/
def removal (gate : Gate) (fixed : Result) : Amendment where
  asked := fixed.missing = [] ∧ gate.prune = true ∧ fixed.unused ≠ []
  edit := Manifest.pruned fixed.used gate.settings.protectedPackages
  names := Manifest.prunedNames fixed.used gate.settings.protectedPackages
  warning failure := "Pruning skipped: " ++ failure.message
  done := withPruned fixed

/-! ## What is compared -/

theorem valid_of_mem_missing_comparison :
    ∀ name ∈ (gate.comparison tree tool before lockfileFound).missing,
      PackageName.isValid name = true :=
  valid_of_mem_missing

theorem mem_missing_comparison {name : Text} :
    name ∈ (gate.comparison tree tool before lockfileFound).missing ↔
      name ∈ gate.neededNames tree (.ofText? before) ∧
        name ∉ (Declared.ofText? before).required :=
  mem_missingNames

/-- All that is missing has to be added. -/
theorem addedNames_comparison {text : Text} (found : before = some text) :
    Manifest.addedNames (gate.comparison tree tool before lockfileFound).missing text =
      (gate.comparison tree tool before lockfileFound).missing := by
  subst found
  have ascending : canonical (gate.comparison tree tool (some text) lockfileFound).missing =
      (gate.comparison tree tool (some text) lockfileFound).missing :=
    canonical_eq_self_iff.mpr (pairwise_canonical _)
  rw [Manifest.addedNames, ascending]
  exact without_eq_self fun name missing => (mem_missing_comparison.mp missing).2

theorem canonical_required (before : Option Text) :
    canonical (Declared.ofText? before).required = (Declared.ofText? before).required := by
  cases before with
  | none => rfl
  | some text => exact Manifest.canonical_declaredNames text .required

/-! ## The two amendments -/

theorem clear_addition (valid : ∀ name ∈ compared.missing, PackageName.isValid name = true) :
    ∀ text, '\r' ∉ text → '\r' ∉ (gate.addition compared).edit text :=
  fun _ => Manifest.return_not_mem_extended fun name missing =>
    PackageName.return_not_mem_of_isValid (valid name missing)

theorem clear_removal : ∀ text, '\r' ∉ text → '\r' ∉ (gate.removal fixed).edit text :=
  fun _ => Manifest.return_not_mem_pruned

/-- A run amends the manifest by what is missing, if it is asked to fix it. -/
theorem exists_makes_addition (found : textAt session.tree gate.manifestPath = .ok before)
    (same : compared = gate.comparison tree tool before lockfileFound)
    (finished : runFrom session (gate.settleMissing compared) = (.ok fixed, after)) :
    ∃ left, (gate.addition compared).Makes gate.manifestPath session.tree before compared fixed
      after.tree left := by
  rw [settleMissing] at finished
  split at finished
  case isFalse idle =>
    simp only [Action.runFrom_pure, Prod.mk.injEq, Except.ok.injEq] at finished
    obtain ⟨rfl, rfl⟩ := finished
    refine ⟨before, .idle fun asked => absurd ?_ idle⟩
    simpa [Result.passes, addition] using asked
  case isTrue asked =>
    rw [addMissing_eq] at finished
    refine Amendment.makes_of_editPhase (gate.addition compared) ?_ found
      Manifest.edits_fixFile (fun _ => Manifest.fixFile_of_absent) ?_ finished
    · simpa [Result.passes, addition] using asked
    · subst same
      change withAdded (gate.comparison tree tool before lockfileFound) [] = _
      simp only [withAdded, List.append_nil, without_nil]
      rw [show (gate.comparison tree tool before lockfileFound).declared =
        (Declared.ofText? before).required from rfl, canonical_required]
      rfl

/-- A run amends the manifest by what is unused, if nothing is missing and it is asked to. -/
theorem exists_makes_removal (found : textAt session.tree gate.manifestPath = .ok middle)
    (unpruned : fixed.pruned = []) (declared : middle = none → fixed.unused = [])
    (finished : runFrom session (gate.settleUnused fixed) = (.ok result, after)) :
    ∃ left, (gate.removal fixed).Makes gate.manifestPath session.tree middle fixed result
      after.tree left := by
  rw [settleUnused] at finished
  split at finished
  case isFalse idle =>
    simp only [Action.runFrom_pure, Prod.mk.injEq, Except.ok.injEq] at finished
    obtain ⟨rfl, rfl⟩ := finished
    refine ⟨middle, .idle fun asked => absurd ?_ idle⟩
    simpa [Result.passes, removal, and_assoc] using asked
  case isTrue asked =>
    have asked : (gate.removal fixed).asked := by
      simpa [Result.passes, removal, and_assoc] using asked
    rw [removeUnused_eq] at finished
    refine Amendment.makes_of_editPhase (gate.removal fixed) asked found
      Manifest.edits_pruneFile (fun none => absurd (declared none) asked.2.2) ?_ finished
    change withPruned fixed [] = fixed
    rw [withPruned, without_nil, without_nil, ← unpruned]

/-- What follows a comparison amends the manifest twice at most. -/
theorem exists_amendments_of_settle_eq_ok
    (found : textAt session.tree gate.manifestPath = .ok before)
    (same : compared = gate.comparison tree tool before lockfileFound)
    (finished : runFrom session (gate.settle compared) = (.ok result, after)) :
    ∃ fixed between middle left,
      (gate.addition compared).Makes gate.manifestPath session.tree before compared fixed between
        middle ∧
      (gate.removal fixed).Makes gate.manifestPath between middle fixed result after.tree left := by
  rw [settle_eq] at finished
  obtain ⟨fixed, first, completed, finished⟩ := Action.exists_of_runFrom_bind finished
  obtain ⟨middle, added⟩ := exists_makes_addition found same completed
  have foundAgain := added.textAt found (clear_addition (same ▸ valid_of_mem_missing_comparison))
  have nothingUnused : middle = none → fixed.unused = [] := by
    rintro rfl
    generalize first.tree = between at added
    cases added with
    | idle | refused =>
        subst same
        rfl
  have unpruned : fixed.pruned = [] := by
    generalize first.tree = between at added
    cases added <;> exact same ▸ rfl
  obtain ⟨left, removed⟩ := exists_makes_removal foundAgain unpruned nothingUnused finished
  exact ⟨fixed, first.tree, middle, left, added, removed⟩

/-- A run that returns has amended the manifest twice at most, by what its comparison found
missing and by what is unused then. -/
theorem exists_amendments_of_run_eq_ok
    (finished : runFrom session gate.run = (.ok result, after)) :
    ∃ before lockfileFound fixed between middle left,
      textAt session.tree gate.manifestPath = .ok before ∧
      (gate.addition (gate.comparison session.tree session.tool before lockfileFound)).Makes
        gate.manifestPath session.tree before
        (gate.comparison session.tree session.tool before lockfileFound) fixed between middle ∧
      (gate.removal fixed).Makes gate.manifestPath between middle fixed result after.tree left := by
  obtain ⟨before, lockfileFound, between, found, kept, settled⟩ :=
    exists_settle_of_run_eq_ok finished
  obtain ⟨fixed, between', middle, left, added, removed⟩ :=
    exists_amendments_of_settle_eq_ok (kept ▸ found) rfl settled
  rw [kept] at added
  exact ⟨before, lockfileFound, fixed, between', middle, left, found, added, removed⟩

end Gate
end DependencyGate

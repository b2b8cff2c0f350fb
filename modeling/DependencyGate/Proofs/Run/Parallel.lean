/-
# Amendments in two trees

What a run makes of a manifest depends on the manifest and on whether it can be replaced. Two
trees that hold the same elsewhere, have the same manifest and replace it alike
(`ManifestAlike`) are amended alike, and afterwards they are two such trees again
(`Amendment.exists_reportsAlike`). An amendment that is refused in one is refused in the other.
The reasons may differ in one case: there is no directory for the manifest's temporary file, and
the two trees put that in different words.
-/

import DependencyGate.Proofs.FileTree.Temporary
import DependencyGate.Proofs.Run.Amendment

namespace DependencyGate

open FileTree (AgreeOff FindsAlike ReplacesAlike temporaryPath)
open Manifest (textAt)

/-! ## The manifest in two trees -/

variable {tree other : FileTree} {path : Path} {place : Location} {before : Option Text}

/-- A manifest that is found alike is read alike. -/
theorem Manifest.textAt_eq_of_findsAlike (alike : FindsAlike tree other path) :
    textAt other path = textAt tree path := by
  rw [textAt, textAt, alike.isFile_eq]
  cases file : tree.isFile path with
  | error error => rfl
  | ok present =>
      cases present with
      | false => rfl
      | true => simp only [loadText, FileTree.read, alike.nodeAt_eq_of_isFile file]

/-- Two trees with the same manifest, which is replaced alike in both. -/
structure ManifestAlike (path : Path) (place : Location) (tree other : FileTree)
    (before : Option Text) : Prop where
  agree : AgreeOff place tree other
  finds : FindsAlike tree other path
  found : textAt tree path = .ok before
  replaces : before ≠ none → ∀ text : Text, ReplacesAlike path tree other
    (tree.replaceFile path text.widen) (other.replaceFile path text.widen)

/-! ## Amendments in two trees -/

namespace Amendment

variable {amendment amendmentThere : Amendment} {after afterThere : FileTree}
  {left leftThere : Option Text} {result resultThere amended amendedThere : Result}
  {failure failureThere : Failure}

/-- Whether two amendments are asked for, write and warn alike. -/
structure Alike (amendment amendmentThere : Amendment) : Prop where
  asked : amendmentThere.asked ↔ amendment.asked
  edit : amendmentThere.edit = amendment.edit
  names : amendmentThere.names = amendment.names
  warning : amendmentThere.warning = amendment.warning

/-- Failures of an amendment in two trees: the same, or both say that there is no directory for
the manifest's temporary file. -/
inductive FailsAlike (path : Path) (tree other : FileTree) : Failure → Failure → Prop
  | same {failure : Failure} : FailsAlike path tree other failure failure
  | homeless {fault faultThere : PathFault}
      (here : tree.site (temporaryPath path ("gate0000" : Text)) = .error fault)
      (there : other.site (temporaryPath path ("gate0000" : Text)) = .error faultThere)
      (absent : fault.meansAbsent = true) (absentThere : faultThere.meansAbsent = true) :
      FailsAlike path tree other
        (.manifestUnwritable path.text
          ⟨fault, (temporaryPath path ("gate0000" : Text)).text, none⟩)
        (.manifestUnwritable path.text
          ⟨faultThere, (temporaryPath path ("gate0000" : Text)).text, none⟩)

/-- What amendments that agree report in two trees. -/
inductive ReportsAlike (amendment amendmentThere : Amendment) (path : Path)
    (tree other : FileTree) (result resultThere : Result) :
    Result → Result → FileTree → FileTree → Prop
  | idle : ReportsAlike amendment amendmentThere path tree other result resultThere result
      resultThere tree other
  | refused {failure failureThere : Failure} (asked : amendment.asked)
      (fails : FailsAlike path tree other failure failureThere) :
      ReportsAlike amendment amendmentThere path tree other result resultThere
        (Gate.withWarning result (amendment.warning failure))
        (Gate.withWarning resultThere (amendment.warning failureThere)) tree other
  | written {names : List Text} {after afterThere : FileTree} (asked : amendment.asked)
      (housed : after.HousesTemporary path) :
      ReportsAlike amendment amendmentThere path tree other result resultThere
        (amendment.done names) (amendmentThere.done names) after afterThere

/-! ### In one tree -/

/-- Whether an amendment comes to more than nothing: it is asked for, and there is no manifest or
something to change in it. -/
def Acts (amendment : Amendment) (before : Option Text) : Prop :=
  amendment.asked ∧ ∀ text, before = some text → amendment.names text ≠ []

theorem not_acts_of_idle (nothing : amendment.asked → ∃ text, before = some text ∧
    amendment.names text = []) : ¬amendment.Acts before := by
  rintro ⟨asked, present⟩
  obtain ⟨text, found, none⟩ := nothing asked
  exact present text found none

theorem acts_of_fails (asked : amendment.asked)
    (fails : amendment.Fails path tree before failure) : amendment.Acts before := by
  refine ⟨asked, fun text found => ?_⟩
  cases fails with
  | absent none => cases none.symm.trans found
  | unwritable foundAgain present =>
      obtain rfl := Option.some.inj (found.symm.trans foundAgain)
      exact present

theorem acts_of_present {text : Text} (asked : amendment.asked) (found : before = some text)
    (present : amendment.names text ≠ []) : amendment.Acts before := by
  refine ⟨asked, fun other foundAgain => ?_⟩
  obtain rfl := Option.some.inj (found.symm.trans foundAgain)
  exact present

theorem Fails.unique (first : amendment.Fails path tree before failure)
    (second : amendment.Fails path tree before failureThere) : failure = failureThere := by
  cases first with
  | absent none =>
      cases second with
      | absent => rfl
      | unwritable found => cases none.symm.trans found
  | unwritable found _ refused =>
      cases second with
      | absent none => cases none.symm.trans found
      | unwritable foundAgain _ refusedAgain =>
          obtain rfl := Option.some.inj (found.symm.trans foundAgain)
          rw [refused] at refusedAgain
          rw [Except.error.inj (Prod.mk.inj refusedAgain).1]

theorem Fails.not_replaced {text : Text} (fails : amendment.Fails path tree before failure)
    (found : before = some text) :
    tree.replaceFile path (amendment.edit text).widen ≠ (.ok (), after) := by
  cases fails with
  | absent none => cases none.symm.trans found
  | unwritable foundAgain _ refused =>
      obtain rfl := Option.some.inj (found.symm.trans foundAgain)
      rw [refused]
      simp

/-! ### In both trees -/

theorem Alike.acts_iff (alike : amendment.Alike amendmentThere) :
    amendmentThere.Acts before ↔ amendment.Acts before := by
  rw [Acts, Acts, alike.asked, alike.names]

/-- An amendment that fails in one tree fails in the other, for a reason that agrees. -/
theorem Fails.exists_alike (fails : amendment.Fails path tree before failure)
    (alike : amendment.Alike amendmentThere)
    (manifest : ManifestAlike path place tree other before) :
    ∃ failureThere, amendmentThere.Fails path other before failureThere ∧
      FailsAlike path tree other failure failureThere := by
  cases fails with
  | absent none => exact ⟨_, .absent none, .same⟩
  | @unwritable text error found present refused =>
      have replaces := manifest.replaces (by simp [found]) (amendment.edit text)
      rw [refused] at replaces
      have presentThere : amendmentThere.names text ≠ [] := alike.names ▸ present
      rcases replaces.of_error with
        same | ⟨fault, faultThere, site, siteThere, absent, absentThere, rfl, same⟩
      · exact ⟨_, .unwritable found presentThere (alike.edit ▸ same), .same⟩
      · refine ⟨_, .unwritable found presentThere (alike.edit ▸ same), ?_⟩
        have file := (Manifest.textAt_eq_some (found ▸ manifest.found)).1
        have plain := FileTree.nul_not_mem_of_isFile file
        have sound := FileTree.fault_ne_holdsNul_of_replaceFile plain (congrArg Prod.fst refused)
        have soundThere := FileTree.fault_ne_holdsNul_of_replaceFile plain
          (congrArg Prod.fst same)
        rw [Action.replaceFailure, Action.replaceFailure, if_neg sound, if_neg soundThere]
        exact .homeless site siteThere absent absentThere

/-- A manifest that is replaced in one tree is replaced in the other, and both trees have the same
manifest again. -/
theorem exists_replaced {text : Text} {mode : Nat} {written : Location}
    (manifest : ManifestAlike path place tree other before) (found : before = some text)
    (edited : Text) (clear : '\r' ∉ edited) (site : tree.site path = .ok written)
    (replaced : tree.replaceFile path edited.widen =
      (.ok (), tree.put written (.file mode (Utf8.encode edited)))) :
    ∃ afterThere, other.replaceFile path edited.widen = (.ok (), afterThere) ∧
      (tree.put written (.file mode (Utf8.encode edited))).HousesTemporary path ∧
      ManifestAlike path place (tree.put written (.file mode (Utf8.encode edited))) afterThere
        (some edited) := by
  obtain ⟨file, -⟩ := Manifest.textAt_eq_some (found ▸ manifest.found)
  have fileThere : other.isFile path = .ok true := manifest.finds.isFile_eq.trans file
  have read := Manifest.textAt_put_site file site mode edited
  rw [Text.unifyLineEndings_eq_self clear] at read
  have replaces := manifest.replaces (by simp [found]) edited
  rw [replaced] at replaces
  obtain ⟨again, newMode, bytes, siteAgain, siteThere, housed, housedThere, same, second⟩ :=
    replaces.of_ok
  rw [same] at read ⊢
  obtain ⟨-, -, directory, -, -, -, -, -, below⟩ := FileTree.site_eq_ok_iff.mp siteAgain
  refine ⟨_, second, housed.put_site file siteAgain newMode bytes,
    manifest.agree.put (by simp [below]) _, .inl ?_, read, fun _ => ?_⟩
  · rw [FileTree.nodeAt_put_site file siteAgain, FileTree.nodeAt_put_site fileThere siteThere]
  · exact FileTree.replacesAlike_put_site file fileThere siteAgain siteThere housed housedThere
      newMode bytes

/-- Amendments that agree are made alike in two trees with the same manifest, which they leave
with the same manifest. -/
theorem exists_reportsAlike (alike : amendment.Alike amendmentThere)
    (clear : ∀ text, '\r' ∉ text → '\r' ∉ amendment.edit text)
    (manifest : ManifestAlike path place tree other before)
    (here : amendment.Makes path tree before result amended after left)
    (there : amendmentThere.Makes path other before resultThere amendedThere afterThere
      leftThere) :
    leftThere = left ∧ ManifestAlike path place after afterThere left ∧
      ReportsAlike amendment amendmentThere path tree other result resultThere amended
        amendedThere after afterThere := by
  have same : amendmentThere.Acts before ↔ amendment.Acts before := alike.acts_iff
  cases here with
  | idle nothing =>
      have acts := not_acts_of_idle nothing
      rw [← same] at acts
      cases there with
      | idle => exact ⟨rfl, manifest, .idle⟩
      | refused asked fails => exact absurd (acts_of_fails asked fails) acts
      | written asked found present => exact absurd (acts_of_present asked found present) acts
  | refused asked fails =>
      have acts := same.mpr (acts_of_fails asked fails)
      obtain ⟨failureThere, failsThere, failsAlike⟩ := fails.exists_alike alike manifest
      cases there with
      | idle nothing => exact absurd acts (not_acts_of_idle nothing)
      | refused _ failsAgain =>
          rw [alike.warning, ← failsThere.unique failsAgain]
          exact ⟨rfl, manifest, .refused asked failsAlike⟩
      | written _ found _ _ replaced => exact absurd replaced (failsThere.not_replaced found)
  | @written text _ _ asked found present site replaced =>
      have acts := same.mpr (acts_of_present asked found present)
      obtain ⟨-, plain⟩ := Manifest.textAt_eq_some (found ▸ manifest.found)
      obtain ⟨afterThere, replacedThere, housed, manifestAgain⟩ :=
        exists_replaced manifest found _ (clear text plain) site replaced
      rw [← alike.edit] at replacedThere
      cases there with
      | idle nothing => exact absurd acts (not_acts_of_idle nothing)
      | refused _ fails => exact absurd replacedThere (fails.not_replaced found)
      | written _ foundThere _ _ replacedAgain =>
          obtain rfl := Option.some.inj (found.symm.trans foundThere)
          obtain rfl := (Prod.mk.inj (replacedThere.symm.trans replacedAgain)).2
          rw [alike.edit] at manifestAgain ⊢
          rw [alike.names]
          exact ⟨rfl, manifestAgain, .written asked housed⟩

end Amendment

end DependencyGate

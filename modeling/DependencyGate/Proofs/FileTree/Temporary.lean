/-
# Replacements in two trees

Whether a file can be replaced is decided by whether there is a directory for its temporary file
(`HousesTemporary`), as it still is after a replacement. In two trees that differ by one file,
another file is replaced alike: the differing file is no directory for anything, and there is
always another name beside it. Only if there is no directory for the temporary file in either
tree, they may put it in different words (`replacesAlike_of_differBy`).
-/

import DependencyGate.Proofs.FileTree.Beside
import DependencyGate.Proofs.FileTree.Faults

namespace DependencyGate.FileTree

variable {tree other : FileTree} {path : Path} {place directory : Location} {name : Text}
  {mode : Nat} {content : List UInt8} {text : WideText}

/-! ## One tree -/

theorem replaceFile_of_createTemporary_eq_error {error : PathError}
    (failed : tree.createTemporary path = .error error) :
    tree.replaceFile path text = (.error (.path error), tree) := by
  unfold replaceFile
  rw [failed]

theorem replaceFile_of_site_eq_error {fault : PathFault}
    (site : tree.site (temporaryPath path ("gate0000" : Text)) = .error fault) :
    tree.replaceFile path text =
      (.error (.path ⟨fault, (temporaryPath path ("gate0000" : Text)).text, none⟩), tree) :=
  replaceFile_of_createTemporary_eq_error (createTemporary_of_site_eq_error site)

/-- There is still a directory for the temporary file after a file has been replaced. -/
theorem HousesTemporary.put_site (housed : tree.HousesTemporary path)
    (file : tree.isFile path = .ok true) (site : tree.site path = .ok place) (mode : Nat)
    (content : List UInt8) : (tree.put place (.file mode content)).HousesTemporary path := by
  obtain ⟨free, sited⟩ := housed
  obtain ⟨between, directory, target, -, leadsToFile, -, rfl⟩ :=
    exists_leadsToFile_of_site file site
  exact ⟨free, (differBy_put leadsToFile mode content).site_eq_ok sited⟩

/-! ## Two trees -/

/-- How replacing a file ends in two trees: with the same new file in the same place, or for the
same reason, or because there is no directory for the temporary file. -/
inductive ReplacesAlike (path : Path) (tree other : FileTree) :
    Except ReplaceError Unit × FileTree → Except ReplaceError Unit × FileTree → Prop
  | done {place : Location} {mode : Nat} {bytes : List UInt8} (site : tree.site path = .ok place)
      (siteThere : other.site path = .ok place) (housed : tree.HousesTemporary path)
      (housedThere : other.HousesTemporary path) :
      ReplacesAlike path tree other (.ok (), tree.put place (.file mode bytes))
        (.ok (), other.put place (.file mode bytes))
  | refused {error : ReplaceError} :
      ReplacesAlike path tree other (.error error, tree) (.error error, other)
  | homeless {fault faultThere : PathFault}
      (here : tree.site (temporaryPath path ("gate0000" : Text)) = .error fault)
      (there : other.site (temporaryPath path ("gate0000" : Text)) = .error faultThere)
      (absent : fault.meansAbsent = true) (absentThere : faultThere.meansAbsent = true) :
      ReplacesAlike path tree other
        (.error (.path ⟨fault, (temporaryPath path ("gate0000" : Text)).text, none⟩), tree)
        (.error (.path ⟨faultThere, (temporaryPath path ("gate0000" : Text)).text, none⟩), other)

namespace ReplacesAlike

variable {after : FileTree} {error : ReplaceError}
  {second : Except ReplaceError Unit × FileTree}

theorem of_ok (alike : ReplacesAlike path tree other (.ok (), after) second) :
    ∃ place mode bytes, tree.site path = .ok place ∧ other.site path = .ok place ∧
      tree.HousesTemporary path ∧ other.HousesTemporary path ∧
      after = tree.put place (.file mode bytes) ∧
      second = (.ok (), other.put place (.file mode bytes)) := by
  generalize first : ((.ok (), after) : Except ReplaceError Unit × FileTree) = ended at alike
  cases alike with
  | done site siteThere housed housedThere =>
      exact ⟨_, _, _, site, siteThere, housed, housedThere, (Prod.mk.inj first).2, rfl⟩
  | refused | homeless => cases (Prod.mk.inj first).1

theorem of_error (alike : ReplacesAlike path tree other (.error error, after) second) :
    second = (.error error, other) ∨ ∃ fault faultThere,
      tree.site (temporaryPath path ("gate0000" : Text)) = .error fault ∧
      other.site (temporaryPath path ("gate0000" : Text)) = .error faultThere ∧
      fault.meansAbsent = true ∧ faultThere.meansAbsent = true ∧
      error = .path ⟨fault, (temporaryPath path ("gate0000" : Text)).text, none⟩ ∧
      second =
        (.error (.path ⟨faultThere, (temporaryPath path ("gate0000" : Text)).text, none⟩),
          other) := by
  generalize first : ((.error error, after) : Except ReplaceError Unit × FileTree) = ended at alike
  cases alike with
  | done => cases (Prod.mk.inj first).1
  | refused =>
      left
      rw [Except.error.inj (Prod.mk.inj first).1]
  | homeless here there absent absentThere =>
      exact .inr ⟨_, _, here, there, absent, absentThere, Except.error.inj (Prod.mk.inj first).1,
        rfl⟩

end ReplacesAlike

section Alike

variable {contentThere : List UInt8}

theorem replacesAlike_of_housed (held : tree.nodeAt path = .ok (.file mode content))
    (heldThere : other.nodeAt path = .ok (.file mode contentThere))
    (site : tree.site path = .ok place) (siteThere : other.site path = .ok place)
    (housed : tree.HousesTemporary path) (housedThere : other.HousesTemporary path)
    (text : Text) :
    ReplacesAlike path tree other (tree.replaceFile path text.widen)
      (other.replaceFile path text.widen) := by
  rw [replaceFile_of_nodeAt site (Utf8.encodeWide_widen text) held housed,
    replaceFile_of_nodeAt siteThere (Utf8.encodeWide_widen text) heldThere housedThere]
  exact .done site siteThere housed housedThere

/-- A file that has been replaced in two trees alike can be replaced in both again. -/
theorem replacesAlike_put_site (file : tree.isFile path = .ok true)
    (fileThere : other.isFile path = .ok true) (site : tree.site path = .ok place)
    (siteThere : other.site path = .ok place) (housed : tree.HousesTemporary path)
    (housedThere : other.HousesTemporary path) (mode : Nat) (content : List UInt8) (text : Text) :
    ReplacesAlike path (tree.put place (.file mode content)) (other.put place (.file mode content))
      ((tree.put place (.file mode content)).replaceFile path text.widen)
      ((other.put place (.file mode content)).replaceFile path text.widen) :=
  replacesAlike_of_housed (nodeAt_put_site file site mode content)
    (nodeAt_put_site fileThere siteThere mode content) (site_put_site file site mode content)
    (site_put_site fileThere siteThere mode content) (housed.put_site file site mode content)
    (housedThere.put_site fileThere siteThere mode content) text

/-- A file is replaced alike in two trees that differ by another file. -/
theorem replacesAlike_of_differBy (differ : DifferBy directory name tree other)
    (alike : FindsAlike tree other path) (named : path.name ≠ [])
    (held : tree.nodeAt path = .ok (.file mode content)) (text : Text) :
    ReplacesAlike path tree other (tree.replaceFile path text.widen)
      (other.replaceFile path text.widen) := by
  have file : tree.isFile path = .ok true := isFile_eq_true_iff.mpr ⟨mode, content, held⟩
  have heldThere := (alike.nodeAt_eq_of_isFile file).trans held
  rcases differ.site_cases (temporaryPath path ("gate0000" : Text)) with
    same | ⟨⟨fault, here, absent⟩, faultThere, there, absentThere⟩
  case inr =>
    rw [replaceFile_of_site_eq_error here, replaceFile_of_site_eq_error there]
    exact .homeless here there absent absentThere
  case inl =>
    cases sited : tree.site (temporaryPath path ("gate0000" : Text)) with
    | error fault =>
        rw [replaceFile_of_site_eq_error sited, replaceFile_of_site_eq_error (same.trans sited)]
        exact .refused
    | ok free =>
        obtain ⟨place, site⟩ := exists_site_of_isFile file named
        exact replacesAlike_of_housed held heldThere site (differ.site_eq_ok site) ⟨free, sited⟩
          ⟨free, same.trans sited⟩ text

end Alike

end DependencyGate.FileTree

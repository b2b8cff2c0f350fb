/-
# The characters of package names

A package name consists of letters, digits and dots. None of these is a blank, ends a
line or divides a list of packages, so a name can be written into a manifest without any
quoting, and selecting names from references yields such names only.
-/

import DependencyGate.PackageName
import DependencyGate.Proofs.Canonical
import DependencyGate.Proofs.Text.Blank

namespace DependencyGate.PackageName

variable {c : Char} {name : Text}

theorem isNameChar_iff :
    isNameChar c = true ↔ c.toNat = 46 ∨ (48 ≤ c.toNat ∧ c.toNat ≤ 57) ∨
      (65 ≤ c.toNat ∧ c.toNat ≤ 90) ∨ (97 ≤ c.toNat ∧ c.toNat ≤ 122) := by
  have dot : c = '.' ↔ c.toNat = 46 := by
    constructor
    · rintro rfl
      rfl
    · exact fun same => Char.toNat_inj.mp same
  have upper : 'A'.val.toNat = 65 ∧ 'Z'.val.toNat = 90 := by decide
  have lower : 'a'.val.toNat = 97 ∧ 'z'.val.toNat = 122 := by decide
  have digit : '0'.val.toNat = 48 ∧ '9'.val.toNat = 57 := by decide
  delta isNameChar Char.isAlphanum Char.isAlpha Char.isUpper Char.isLower Char.isDigit
  simp only [Bool.or_eq_true, Bool.and_eq_true, decide_eq_true_eq, dot, UInt32.le_iff_toNat_le,
    ge_iff_le, Char.toNat]
  omega

theorem isBlank_of_isNameChar (inName : isNameChar c = true) : Text.isBlank c = false := by
  rw [isNameChar_iff] at inName
  rw [← Bool.not_eq_true]
  simp only [Text.isBlank, Bool.or_eq_true, Bool.and_eq_true, decide_eq_true_eq, beq_iff_eq]
  omega

theorem isNameChar_of_isBlank (blank : Text.isBlank c = true) : isNameChar c = false := by
  by_contra inName
  rw [Bool.not_eq_false] at inName
  simp [isBlank_of_isNameChar inName] at blank

theorem isLineBreak_of_isNameChar (inName : isNameChar c = true) :
    Text.isLineBreak c = false := by
  by_contra breaks
  rw [Bool.not_eq_false] at breaks
  have blank := Text.isBlank_of_isLineBreak breaks
  simp [isBlank_of_isNameChar inName] at blank

/-- Name characters neither divide a list of packages nor surround a constraint. -/
theorem plain_of_isNameChar (inName : ∀ c ∈ name, isNameChar c = true) :
    ∀ c ∈ name, c ≠ '(' ∧ c ≠ ')' ∧ c ≠ ',' := by
  intro c listed
  have nameChar := inName c listed
  refine ⟨?_, ?_, ?_⟩ <;> rintro rfl <;> exact absurd nameChar (by decide)

/-- A valid name is not empty and consists of name characters. -/
theorem isNameChar_of_mem (valid : isValid name = true) : ∀ c ∈ name, isNameChar c = true := by
  match name, valid with
  | first :: second :: rest, valid =>
      simp only [isValid, Bool.and_eq_true, List.all_eq_true] at valid
      obtain ⟨⟨letter, others⟩, -⟩ := valid
      rw [List.forall_mem_cons]
      exact ⟨by simp [isNameChar, Char.isAlphanum, letter], others⟩

theorem return_not_mem_of_isValid (valid : isValid name = true) : '\r' ∉ name := fun listed =>
  absurd (isNameChar_of_mem valid '\r' listed) (by decide)

theorem ne_nil_of_isValid (valid : isValid name = true) : name ≠ [] := by
  rintro rfl
  exact absurd valid (by decide)

theorem mem_select {references excluded alsoExcluded : List Text} :
    name ∈ select references excluded alsoExcluded ↔
      name ∈ references ∧ isValid name = true ∧ name ∉ excluded ∧ name ∉ alsoExcluded := by
  rw [select, mem_canonical, List.mem_filter]
  simp [and_assoc]

end DependencyGate.PackageName

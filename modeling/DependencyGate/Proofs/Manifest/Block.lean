/-
# The block of a field

`Block.find?` is characterised once, by what it says about the lines of a manifest
(`Block.find?_eq_some_iff`): nothing before the block opens the field, nothing
within it opens another, and what follows does. Whether a line of a text continues a
field depends on its first character alone.
-/

import DependencyGate.Manifest.Edit
import DependencyGate.Proofs.Text.Blank
import DependencyGate.Proofs.Text.Line

namespace DependencyGate.Manifest

/-! ## Classes of lines -/

/-- A character with which lines start that continue a field. -/
def ContinuesAt (c : Char) : Prop := Text.isBlank c = true ∧ c ≠ '\n' ∧ c ≠ '\r'

instance : DecidablePred ContinuesAt := fun c =>
  inferInstanceAs (Decidable (Text.isBlank c = true ∧ c ≠ '\n' ∧ c ≠ '\r'))

/-- A character with which stray lines start. -/
def StrayAt (c : Char) : Prop := ¬ ContinuesAt c ∧ Text.isUppercase c = false

/-- A line of a text continues a field if its first character does. -/
theorem continuesField_full_iff {line : Line} (sound : line.IsSound) :
    continuesField line.full = true ↔ ∀ c ∈ line.full.head?, ContinuesAt c := by
  obtain ⟨c, rest, spelled⟩ := List.exists_cons_of_ne_nil sound.full_ne_nil
  rw [spelled]
  simp only [continuesField, List.head?_cons, Option.mem_some_iff, forall_eq', ContinuesAt,
    Bool.and_eq_true, List.any_eq_true, bne_iff_ne, ne_eq]
  refine and_congr_right fun blank => ⟨?_, fun first => ⟨c, List.mem_cons_self, first⟩⟩
  rintro ⟨d, listed, other⟩
  -- a line that starts with a break character is nothing but its ending
  by_contra breaksAtOnce
  have isBreak : c = '\n' ∨ c = '\r' := by tauto
  have noBody : line.body = [] := by
    cases body : line.body with
    | nil => rfl
    | cons first others =>
        rw [Line.full, body, List.cons_append, List.cons.injEq] at spelled
        have unbroken := sound.body_unbroken first (by simp [body])
        rw [spelled.1] at unbroken
        rcases isBreak with rfl | rfl <;> exact absurd unbroken (by decide)
  rw [Line.full, noBody, List.nil_append] at spelled
  rw [← spelled] at listed
  rcases sound.ending_sound with equal | equal | ⟨e, _, equal⟩
  · simp [equal] at listed
  · rw [equal] at listed
    rcases List.mem_pair.mp listed with rfl | rfl
    · exact other.2 rfl
    · exact other.1 rfl
  · rw [equal, List.mem_singleton] at listed
    rw [equal, List.cons.injEq] at spelled
    rw [listed, spelled.1] at other
    tauto

/-- A line opens a field if its first character is uppercase. -/
theorem opensField_eq_true_iff {line : Text} :
    opensField line = true ↔ ∃ c ∈ line.head?, Text.isUppercase c = true := by
  cases line <;> simp [opensField]

theorem not_opensField_of_continuesField {line : Text} (continues : continuesField line = true) :
    opensField line = false := by
  cases line with
  | nil => rfl
  | cons c rest =>
      simp only [continuesField, Bool.and_eq_true] at continues
      simpa [opensField] using Text.isUppercase_of_isBlank continues.1

/-! ## Finding a block -/

namespace Block

/-- What a block says about the lines of a manifest. -/
structure Divides (block : Block) (header : Text) (lines : List Line) : Prop where
  lines_eq : lines = block.before ++ block.opening :: (block.inner ++ block.after)
  before_other : ∀ line ∈ block.before, header.isPrefixOf line.full = false
  opening_header : header.isPrefixOf block.opening.full = true
  inner_closed : ∀ line ∈ block.inner, opensField line.full = false
  after_opens : ∀ line ∈ block.after.head?, opensField line.full = true

theorem takeWhile_closed_append {inner after : List Line}
    (closed : ∀ line ∈ inner, opensField line.full = false)
    (opens : ∀ line ∈ after.head?, opensField line.full = true) :
    (inner ++ after).takeWhile (!opensField ·.full) = inner ∧
      (inner ++ after).dropWhile (!opensField ·.full) = after := by
  induction inner with
  | nil =>
      cases after with
      | nil => simp
      | cons line after => simp_all
  | cons line inner ih =>
      rw [List.forall_mem_cons] at closed
      have behind := ih closed.2
      simp [closed.1, behind.1, behind.2]

/-- The block of a field is the one division of the lines at its opening line. -/
theorem find?_eq_some_iff {header : Text} {lines : List Line} {block : Block} :
    find? header lines = some block ↔ block.Divides header lines := by
  induction lines generalizing block with
  | nil =>
      constructor
      · intro found
        simp [find?] at found
      · intro divides
        simpa using divides.lines_eq
  | cons line rest ih =>
      by_cases opens : header.isPrefixOf line.full = true
      · rw [find?, if_pos opens, Option.some.injEq]
        constructor
        · rintro rfl
          refine ⟨by simp, by simp, opens, ?_, ?_⟩
          · intro next listed
            simpa using List.mem_takeWhile_imp listed
          · intro next first
            have stopped := List.head?_dropWhile_not (fun next => !opensField next.full) rest
            rw [Option.mem_def.mp first] at stopped
            simpa using stopped
        · rintro ⟨split, beforeOther, _, closed, opensAfter⟩
          obtain ⟨before, opening, inner, after⟩ := block
          cases before with
          | nil =>
              obtain ⟨rfl, rfl⟩ := List.cons.inj split
              obtain ⟨taken, dropped⟩ := takeWhile_closed_append closed opensAfter
              simp only at taken dropped
              simp [taken, dropped]
          | cons first before =>
              obtain ⟨rfl, rfl⟩ := List.cons.inj split
              rw [beforeOther line (by simp)] at opens
              exact absurd opens (by simp)
      · rw [find?, if_neg opens, Option.map_eq_some_iff]
        rw [Bool.not_eq_true] at opens
        constructor
        · rintro ⟨behind, found, rfl⟩
          obtain ⟨split, beforeOther, header, closed, opensAfter⟩ := ih.mp found
          exact ⟨by simp [split], List.forall_mem_cons.mpr ⟨opens, beforeOther⟩, header, closed,
            opensAfter⟩
        · rintro ⟨split, beforeOther, header, closed, opensAfter⟩
          obtain ⟨before, opening, inner, after⟩ := block
          cases before with
          | nil =>
              obtain ⟨rfl, rfl⟩ := List.cons.inj split
              rw [header] at opens
              exact absurd opens (by simp)
          | cons first before =>
              obtain ⟨rfl, rfl⟩ := List.cons.inj split
              exact ⟨⟨before, opening, inner, after⟩,
                ih.mpr ⟨rfl, fun next listed => beforeOther next (List.mem_cons_of_mem _ listed),
                  header, closed, opensAfter⟩, rfl⟩

/-- The lines of a block are among the lines it was found in. -/
theorem mem_of_mem_block {header : Text} {lines : List Line} {block : Block} {line : Line}
    (found : find? header lines = some block) (listed : line ∈ block.opening :: block.inner) :
    line ∈ lines := by
  rw [(find?_eq_some_iff.mp found).lines_eq]
  rcases List.mem_cons.mp listed with rfl | inner <;> simp [*]

theorem find?_eq_none_iff {header : Text} {lines : List Line} :
    find? header lines = none ↔ ∀ line ∈ lines, header.isPrefixOf line.full = false := by
  induction lines with
  | nil => simp [find?]
  | cons line rest ih =>
      rw [find?, List.forall_mem_cons, ← ih]
      split
      case isTrue opens => simp [opens]
      case isFalse other => simp [other]

/-! ## The characters of a block -/

section Characters

variable {header text : Text} {block : Block} {c : Char}

theorem own_subset (found : find? header text.lines = some block) : block.own ⊆ text := by
  have inside : block.opening :: block.inner.filter (continuesField ·.full) ⊆ text.lines := by
    rw [(find?_eq_some_iff.mp found).lines_eq]
    intro line listed
    rcases List.mem_cons.mp listed with rfl | inner
    · simp
    · simp [(List.mem_filter.mp inner).1]
  exact Text.flatMap_full_subset inside

theorem strayText_subset (found : find? header text.lines = some block) :
    block.strayText ⊆ text := by
  apply Text.flatMap_full_subset
  intro line listed
  rw [(find?_eq_some_iff.mp found).lines_eq]
  simp [(List.mem_filter.mp listed).1]

theorem mem_replaceWith {rebuilt : Text} (found : find? header text.lines = some block)
    (written : c ∈ block.replaceWith rebuilt) : c ∈ text ∨ c ∈ rebuilt := by
  have lines_eq := (find?_eq_some_iff.mp found).lines_eq
  rw [replaceWith, List.mem_append, List.mem_append] at written
  rcases written with (front | inside) | behind
  · exact .inl (Text.flatMap_full_subset (by simp [lines_eq]) front)
  · exact .inr inside
  · refine .inl (Text.flatMap_full_subset (fun line after => ?_) behind)
    simp [lines_eq, after]

end Characters

end Block
end DependencyGate.Manifest

/-
# Pruning

Pruning removes the entries whose name is neither used nor protected. It loses no
needed name and invents none. It is complete as far as an unneeded name is an entry of
its own: a name that shares its entry with others is declared but never removed. That
takes a comma which the division does not cut at and no constraint covers, as in nested
or unclosed parentheses (`mem_unusedNames_prune_iff`).
-/

import DependencyGate.Proofs.Manifest.Removal

namespace DependencyGate.Manifest

theorem mem_unusedNames {declared used kept : List Text} {name : Text} :
    name ∈ unusedNames declared used kept ↔ name ∈ declared ∧ name ∉ used ∧ name ∉ kept := by
  rw [unusedNames, mem_canonical, mem_without, mem_without, and_assoc]

/-! ## What pruning leaves -/

/-- After pruning, a manifest declares the names of the entries whose own name is
needed. -/
theorem mem_declaredNames_prune {text : Text} {declared used kept : List Text} {name : Text} :
    name ∈ declaredNames (prune text declared used kept) .required ↔
      ∃ entry ∈ fieldEntries text .required,
        entryName entry ∉ unusedNames declared used kept ∧ name ∈ entryNames entry := by
  have removed : declaredNames (prune text declared used kept) .required =
      declaredNames (removeEntries text (unusedNames declared used kept)).1 .required := by
    rw [prune]
    split
    case h_1 none =>
      rw [none, declaredNames_removeEntries, declaredNames_eq_canonical,
        List.filter_eq_self.mpr (by simp)]
    case h_2 => rfl
  rw [removed, declaredNames_removeEntries, mem_canonical, List.mem_flatMap]
  simp only [List.mem_filter, decide_eq_true_eq, and_assoc]

/-- A declared name that no entry shares goes with its entry and stays with it. -/
theorem entryName_of_mem_unusedNames {text : Text} {entry : Text} {used kept : List Text}
    (unused : entryName entry ∈ unusedNames (declaredNames text .required) used kept) :
    ',' ∉ entryName entry := by
  obtain ⟨_, _, listed⟩ := mem_declaredNames.mp (mem_unusedNames.mp unused).1
  exact comma_not_mem_of_mem_entryNames listed

/-- A needed name goes with no entry that pruning removes. -/
theorem mem_declaredNames_prune_of_needed {text : Text} {used kept : List Text} {name : Text}
    (declared : name ∈ declaredNames text .required) (needed : name ∈ used ∨ name ∈ kept) :
    name ∈ declaredNames (prune text (declaredNames text .required) used kept) .required := by
  obtain ⟨entry, listed, named⟩ := mem_declaredNames.mp declared
  refine mem_declaredNames_prune.mpr ⟨entry, listed, fun unused => ?_, named⟩
  have equal := eq_entryName_of_mem_entryNames (entryName_of_mem_unusedNames unused) named
  rw [← equal] at unused
  obtain ⟨_, notUsed, notKept⟩ := mem_unusedNames.mp unused
  exact needed.elim notUsed notKept

/-- Pruning loses no needed name and invents none. -/
theorem prune_keeps_needed_names (text : Text) (used kept : List Text) :
    (∀ name ∈ declaredNames text .required, name ∈ used ∨ name ∈ kept →
      name ∈ declaredNames (prune text (declaredNames text .required) used kept) .required) ∧
    ∀ name ∈ declaredNames (prune text (declaredNames text .required) used kept) .required,
      name ∈ declaredNames text .required := by
  constructor
  · intro name declared needed
    exact mem_declaredNames_prune_of_needed declared needed
  · intro name declared
    obtain ⟨entry, listed, _, named⟩ := mem_declaredNames_prune.mp declared
    exact mem_declaredNames.mpr ⟨entry, listed, named⟩

/-- The unneeded names that pruning leaves are those that share an entry. -/
theorem mem_unusedNames_prune_iff {text : Text} {used kept : List Text} {name : Text} :
    name ∈ unusedNames (declaredNames
        (prune text (declaredNames text .required) used kept) .required) used kept ↔
      (∃ entry ∈ fieldEntries text .required, ',' ∈ entryName entry ∧ name ∈ entryNames entry) ∧
        name ∉ used ∧ name ∉ kept := by
  rw [mem_unusedNames, mem_declaredNames_prune]
  apply and_congr_left
  intro unneeded
  constructor
  · rintro ⟨entry, listed, stays, named⟩
    refine ⟨entry, listed, ?_, named⟩
    by_contra single
    rw [← eq_entryName_of_mem_entryNames single named] at stays
    exact stays (mem_unusedNames.mpr ⟨mem_declaredNames.mpr ⟨entry, listed, named⟩, unneeded⟩)
  · rintro ⟨entry, listed, shared, named⟩
    exact ⟨entry, listed, fun unused => entryName_of_mem_unusedNames unused shared, named⟩

/-- Pruning is complete exactly if no unneeded name shares an entry. -/
theorem unusedNames_prune_eq_nil_iff (text : Text) (used kept : List Text) :
    unusedNames (declaredNames
        (prune text (declaredNames text .required) used kept) .required) used kept = [] ↔
      ∀ entry ∈ fieldEntries text .required, ',' ∈ entryName entry →
        ∀ name ∈ entryNames entry, name ∈ used ∨ name ∈ kept := by
  rw [List.eq_nil_iff_forall_not_mem]
  constructor
  · intro none entry listed shared name named
    by_contra unneeded
    rw [not_or] at unneeded
    exact none name (mem_unusedNames_prune_iff.mpr ⟨⟨entry, listed, shared, named⟩, unneeded⟩)
  · intro needed name left
    obtain ⟨⟨entry, listed, shared, named⟩, notUsed, notKept⟩ :=
      mem_unusedNames_prune_iff.mp left
    exact (needed entry listed shared name named).elim notUsed notKept

/-- Behind a parenthesis that nothing closes, a name is declared that pruning does not
remove. -/
theorem prune_leaves_unused_behind_open_parenthesis :
    unusedNames (declaredNames (prune "Imports: dplyr, foo (>= 1.0, bar\n"
        (declaredNames "Imports: dplyr, foo (>= 1.0, bar\n" .required) ["dplyr"] []) .required)
      ["dplyr"] [] = ["bar", "foo (>= 1.0"] := by
  decide +kernel

/-! ## Taking the removed names out -/

section Pruned

variable {text : Text} {used kept : List Text} {name : Text}

/-- The manifest that pruning leaves. -/
def pruned (used kept : List Text) (text : Text) : Text :=
  prune text (declaredNames text .required) used kept

/-- The names that pruning a manifest removes. -/
def prunedNames (used kept : List Text) (text : Text) : List Text :=
  (removeEntries text (unusedNames (declaredNames text .required) used kept)).2

theorem pruned_eq_removeEntries (used kept : List Text) (text : Text) :
    pruned used kept text =
      (removeEntries text (unusedNames (declaredNames text .required) used kept)).1 := by
  rw [pruned, prune]
  split
  case h_1 none => rw [none, removeEntries_of_snd_eq_nil (by simp [snd_removeEntries])]
  case h_2 => rfl

theorem pruned_of_prunedNames_eq_nil (none : prunedNames used kept text = []) :
    pruned used kept text = text := by
  rw [pruned_eq_removeEntries]
  exact removeEntries_of_snd_eq_nil none

theorem return_not_mem_pruned (absent : '\r' ∉ text) : '\r' ∉ pruned used kept text := by
  rw [pruned_eq_removeEntries]
  intro written
  rcases mem_removeEntries written with old | comma | broken
  · exact absent old
  · exact absurd comma (by decide)
  · rw [Text.lineEnding_of_return_not_mem absent] at broken
    exact absurd broken (by decide)

theorem mem_prunedNames :
    name ∈ prunedNames used kept text ↔
      name ∈ unusedNames (declaredNames text .required) used kept ∧
        ∃ entry ∈ fieldEntries text .required, entryName entry = name := by
  rw [prunedNames, snd_removeEntries, mem_canonical, List.mem_filter, List.mem_map, and_comm,
    decide_eq_true_eq]

/-- Whether a name shares its entry with others, as behind a parenthesis that nothing
closes. -/
def SharesEntry (text name : Text) : Prop :=
  ∃ entry ∈ fieldEntries text .required, ',' ∈ entryName entry ∧ name ∈ entryNames entry

/-- What pruning leaves declared and does not name as removed was declared before. -/
theorem mem_declaredNames_pruned_of_not_mem (removed : name ∉ prunedNames used kept text) :
    name ∈ declaredNames (pruned used kept text) .required ↔
      name ∈ declaredNames text .required := by
  rw [pruned, mem_declaredNames_prune, mem_declaredNames]
  constructor
  · rintro ⟨entry, listed, -, named⟩
    exact ⟨entry, listed, named⟩
  · rintro ⟨entry, listed, named⟩
    refine ⟨entry, listed, fun unused => ?_, named⟩
    have equal := eq_entryName_of_mem_entryNames (entryName_of_mem_unusedNames unused) named
    exact removed (mem_prunedNames.mpr ⟨equal ▸ unused, entry, listed, equal.symm⟩)

/-- What pruning names as removed stays declared if it shares another entry. -/
theorem mem_declaredNames_pruned_of_mem (removed : name ∈ prunedNames used kept text) :
    name ∈ declaredNames (pruned used kept text) .required ↔ SharesEntry text name := by
  obtain ⟨unused, -⟩ := mem_prunedNames.mp removed
  rw [pruned, mem_declaredNames_prune]
  constructor
  · rintro ⟨entry, listed, stays, named⟩
    refine ⟨entry, listed, ?_, named⟩
    by_contra single
    exact stays (eq_entryName_of_mem_entryNames single named ▸ unused)
  · rintro ⟨entry, listed, shared, named⟩
    exact ⟨entry, listed, fun unused => entryName_of_mem_unusedNames unused shared, named⟩

/-- Of the declared names, pruning loses those that it names as removed and that share no other
entry. -/
theorem not_mem_declaredNames_pruned_iff (declared : name ∈ declaredNames text .required) :
    name ∉ declaredNames (pruned used kept text) .required ↔
      name ∈ prunedNames used kept text ∧ ¬SharesEntry text name := by
  by_cases removed : name ∈ prunedNames used kept text
  · simp [mem_declaredNames_pruned_of_mem removed, removed]
  · simp [mem_declaredNames_pruned_of_not_mem removed, removed, declared]

/-- The declared names without those that pruning removes are what it leaves declared,
exactly if no removed name shares an entry. -/
theorem declaredNames_pruned_eq_without_iff :
    declaredNames (pruned used kept text) .required =
        without (declaredNames text .required) (prunedNames used kept text) ↔
      ∀ name ∈ prunedNames used kept text, ¬SharesEntry text name := by
  constructor
  · intro equal name removed shares
    have stays := (mem_declaredNames_pruned_of_mem removed).mpr shares
    rw [equal, mem_without] at stays
    exact stays.2 removed
  · intro apart
    rw [← canonical_declaredNames, ← canonical_without (canonical_declaredNames _ _)]
    apply canonical_congr
    intro name
    rw [mem_without]
    by_cases removed : name ∈ prunedNames used kept text
    · rw [mem_declaredNames_pruned_of_mem removed]
      simp [removed, apart name removed]
    · rw [mem_declaredNames_pruned_of_not_mem removed]
      simp [removed]

end Pruned

end DependencyGate.Manifest

/-
# Removing entries

An edit that drops entries leaves exactly the names of the entries that stay: the
rebuilt field divides into those entries again, wherever its line breaks, stray lines
and open parentheses lie (`declaredNames_removeEntries`). It writes nothing but
characters of the manifest, commas and the manifest's line ending.
-/

import DependencyGate.Proofs.Manifest.Joining
import Mathlib.Tactic.Set

namespace DependencyGate.Manifest

/-- Behind a field that ends in a line feed, stray lines need no ending in between. -/
theorem appendStray_of_ended {rebuilt : Text} (last : rebuilt.getLast? = some '\n')
    (ending stray : Text) : appendStray ending rebuilt stray = rebuilt ++ stray := by
  have ended : rebuilt.endsLine = true := by simp [Text.endsLine, last]
  rw [appendStray, if_pos ended]
  split
  case isTrue none => rw [List.isEmpty_iff.mp none, List.append_nil]
  case isFalse => rfl

/-! ## Removing entries -/

section Removal

variable {text : Text} {block : Block}

theorem removeEntries_of_find? (found : Block.find? Field.required.header text.lines = some block)
    (names : List Text) :
    removeEntries text names =
      if (((splitEntries (block.entriesText Field.required.header)).map entryName).filter
          (· ∈ names)).isEmpty then (text, [])
      else
        (block.replaceWith
          (appendStray (Text.lineEnding text)
            (Field.required.header
              ++ List.intercalate [',']
                ((splitEntries (block.entriesText Field.required.header)).filter
                  (entryName · ∉ names))
              ++ block.tail Field.required.header)
            block.strayText),
          canonical (((splitEntries (block.entriesText Field.required.header)).map
            entryName).filter (· ∈ names))) := by
  rw [removeEntries, found]

/-- What removal writes is joined to the stray lines and to what follows the block. -/
theorem exists_joins_removed
    (found : Block.find? Field.required.header text.lines = some block) {kept : List Text}
    (fewer : kept ⊆ splitEntries (block.entriesText Field.required.header)) :
    ∃ blanks stray, Joins Field.required.header
      (Field.required.header ++ List.intercalate [','] kept ++ block.tail Field.required.header)
      block.afterText
      (appendStray (Text.lineEnding text)
        (Field.required.header ++ List.intercalate [','] kept
          ++ block.tail Field.required.header)
        block.strayText) blanks stray := by
  have flows : ∀ entry ∈ kept, Flows entry := fun entry listed =>
    flows_of_mem_splitEntries (block.flows_entriesText found) entry (fewer listed)
  apply exists_joins (header_ne_nil .required)
  · exact isFieldText_intercalate flows (block.chain_body found).right_of_append
  · exact Block.isStrayText_strayText found
  · exact lineEnding_eq text
  · exact fun _ => Block.endsBefore_append_tail found _
  · exact Block.strayText_endsBefore_afterText found

theorem declaredNames_removeEntries_of_find?
    (found : Block.find? Field.required.header text.lines = some block) (names : List Text) :
    declaredNames (removeEntries text names).1 .required =
      canonical (((splitEntries (block.entriesText Field.required.header)).filter
        (entryName · ∉ names)).flatMap entryNames) := by
  set header := Field.required.header with header_eq
  set entries := splitEntries (block.entriesText header) with entries_eq
  rw [removeEntries_of_find? found]
  split
  case isTrue none =>
    have all : entries.filter (entryName · ∉ names) = entries := by
      rw [List.filter_eq_self]
      intro entry listed
      rw [List.isEmpty_iff, List.filter_eq_nil_iff] at none
      simpa using none (entryName entry) (List.mem_map_of_mem listed)
    rw [all]
    rw [declaredNames_eq_canonical, fieldEntries_of_find? found]
  case isFalse some =>
    have fewer : entries.filter (entryName · ∉ names) ⊆ entries := List.filter_subset_self ..
    obtain ⟨blanks, stray, joins⟩ := exists_joins_removed found fewer
    rw [declaredNames_replaceWith found (Text.blank_trailingBlanks _) joins,
      bodyNames_intercalate (isDivision_splitEntries _) List.filter_sublist]

/-- Removing entries leaves the names of the entries that stay. -/
theorem declaredNames_removeEntries (text : Text) (names : List Text) :
    declaredNames (removeEntries text names).1 .required =
      canonical (((fieldEntries text .required).filter (entryName · ∉ names)).flatMap
        entryNames) := by
  cases found : Block.find? Field.required.header text.lines with
  | none =>
      rw [removeEntries, found, fieldEntries_of_absent found]
      exact declaredNames_of_absent found
  | some block =>
      rw [fieldEntries_of_find? found]
      exact declaredNames_removeEntries_of_find? found names

/-- The names that a removal removes are those of entries. -/
theorem snd_removeEntries (text : Text) (names : List Text) :
    (removeEntries text names).2 =
      canonical (((fieldEntries text .required).map entryName).filter (· ∈ names)) := by
  cases found : Block.find? Field.required.header text.lines with
  | none =>
      rw [removeEntries, found, fieldEntries_of_absent found]
      rfl
  | some block =>
      rw [removeEntries_of_find? found, fieldEntries_of_find? found]
      split
      case isTrue none => rw [List.isEmpty_iff.mp none]; rfl
      case isFalse => rfl

/-- A removal that removes nothing writes nothing. -/
theorem removeEntries_of_snd_eq_nil {text : Text} {names : List Text}
    (none : (removeEntries text names).2 = []) : (removeEntries text names).1 = text := by
  cases found : Block.find? Field.required.header text.lines with
  | none => rw [removeEntries, found]
  | some block =>
      rw [removeEntries_of_find? found] at none ⊢
      split
      case isTrue => rfl
      case isFalse some =>
        rw [if_neg some, List.eq_nil_iff_forall_not_mem] at none
        simp only [mem_canonical, ← List.eq_nil_iff_forall_not_mem] at none
        exact absurd (List.isEmpty_iff.mpr none) some

/-! ## The characters of an edited manifest -/

theorem mem_appendStray {ending rebuilt stray : Text} {c : Char}
    (written : c ∈ appendStray ending rebuilt stray) : c ∈ rebuilt ∨ c ∈ ending ∨ c ∈ stray := by
  rw [appendStray] at written
  split at written
  · exact .inl written
  · split at written
    · exact (List.mem_append.mp written).imp_right .inr
    · rw [List.mem_append, List.mem_append, or_assoc] at written
      exact written

/-- A removal writes characters of the manifest, commas and its line ending. -/
theorem mem_removeEntries {names : List Text} {c : Char}
    (written : c ∈ (removeEntries text names).1) :
    c ∈ text ∨ c = ',' ∨ c ∈ Text.lineEnding text := by
  cases found : Block.find? Field.required.header text.lines with
  | none =>
      rw [removeEntries, found] at written
      exact .inl written
  | some block =>
      rw [removeEntries_of_find? found] at written
      split at written
      case isTrue => exact .inl written
      case isFalse =>
        have own := Block.own_subset found
        rw [Block.own_eq found] at own
        rcases Block.mem_replaceWith found written with outside | rebuilt
        · exact .inl outside
        · rcases mem_appendStray rebuilt with field | broken | stray
          · rw [List.mem_append, List.mem_append] at field
            rcases field with (header | entries) | tail
            · exact .inl (own (by simp [header]))
            · rcases Text.mem_of_mem_intercalate entries with comma | ⟨entry, listed, inside⟩
              · exact .inr (.inl (List.mem_singleton.mp comma))
              · have body := mem_of_mem_splitEntries (List.mem_of_mem_filter listed) inside
                exact .inl (own (by simp [body]))
            · exact .inl (own (by simp [tail]))
          · exact .inr (.inr broken)
          · exact .inl (Block.strayText_subset found stray)

end Removal

end DependencyGate.Manifest

/-
# Editing twice

An edit that is made again reads the text that the first one left. A removal leaves no entry with
a name that it removes, so pruning twice is pruning once (`prune_prune`). An addition gives each
name that it adds an entry of its own, and adding twice is adding once, unless a parenthesis is
open where the field ended: then what is added becomes part of the last entry, and every further
addition adds it again (`addEntries_addEntries_eq_self_iff`).
-/

import DependencyGate.Proofs.Manifest.Difference

namespace DependencyGate.Manifest

/-! ## Removing twice -/

section Removal

variable {text : Text} {names : List Text}

/-- Entries that stay of a division are divided into themselves; if none stays, into an empty
one. -/
theorem mem_splitEntries_intercalate {entries kept : List Text} {entry : Text}
    (division : IsDivision 0 entries) (fewer : kept.Sublist entries)
    (listed : entry ∈ splitEntries (List.intercalate [','] kept)) : entry ∈ kept ∨ entry = [] := by
  by_cases none : kept = []
  · rw [none] at listed
    exact .inr (List.mem_singleton.mp listed)
  · rw [splitEntries, splitEntriesAt_intercalate (division.sublist fewer none)] at listed
    exact .inl listed

/-- A removal that finds nothing to remove changes nothing. -/
theorem removeEntries_eq_self
    (none : ∀ entry ∈ fieldEntries text .required, entryName entry ∉ names) :
    removeEntries text names = (text, []) := by
  have nothing : (removeEntries text names).2 = [] := by
    have absent : ((fieldEntries text .required).map entryName).filter (· ∈ names) = [] := by
      rw [List.filter_eq_nil_iff, List.forall_mem_map]
      simpa using none
    rw [snd_removeEntries, absent]
    rfl
  exact Prod.ext (removeEntries_of_snd_eq_nil nothing) nothing

/-- A removal leaves no entry with a name that it removes. -/
theorem entryName_not_mem_of_mem_removeEntries (named : [] ∉ names) {entry : Text}
    (left : entry ∈ fieldEntries (removeEntries text names).1 .required) :
    entryName entry ∉ names := by
  by_cases none : ∀ entry ∈ fieldEntries text .required, entryName entry ∉ names
  · rw [removeEntries_eq_self none] at left
    exact none entry left
  · cases found : Block.find? Field.required.header text.lines with
    | none => simp [fieldEntries_of_absent found] at none
    | some block =>
        have some : ¬(((splitEntries (block.entriesText Field.required.header)).map
            entryName).filter (· ∈ names)).isEmpty := by
          rw [List.isEmpty_iff, List.filter_eq_nil_iff, List.forall_mem_map]
          simpa [fieldEntries_of_find? found] using none
        have fewer : (splitEntries (block.entriesText Field.required.header)).filter
            (entryName · ∉ names) ⊆ splitEntries (block.entriesText Field.required.header) :=
          List.filter_subset_self _
        obtain ⟨blanks, stray, joins⟩ := exists_joins_removed found fewer
        rw [removeEntries_of_find? found, if_neg some] at left
        have again := List.mem_map_of_mem (f := entryName) left
        rw [map_entryName_fieldEntries_replaceWith found (Text.blank_trailingBlanks _) joins]
          at again
        obtain ⟨kept, listed, same⟩ := List.mem_map.mp again
        rw [← same]
        rcases mem_splitEntries_intercalate (isDivision_splitEntries _) List.filter_sublist listed
          with stays | rfl
        · simpa using (List.mem_filter.mp stays).2
        · exact named

end Removal

section Pruning

variable {text : Text} {used kept : List Text}

theorem nil_not_mem_declaredNames (text : Text) (field : Field) :
    [] ∉ declaredNames text field := by
  intro declared
  obtain ⟨entry, -, named⟩ := mem_declaredNames.mp declared
  simpa using (List.mem_filter.mp named).2

/-- Pruning twice is pruning once, and the second time there is nothing to remove. -/
theorem prune_prune (text : Text) (used kept : List Text) :
    pruned used kept (pruned used kept text) = pruned used kept text ∧
      prunedNames used kept (pruned used kept text) = [] := by
  have named : [] ∉ unusedNames (declaredNames text .required) used kept := fun unused =>
    nil_not_mem_declaredNames text .required (mem_unusedNames.mp unused).1
  have settled : removeEntries (pruned used kept text)
      (unusedNames (declaredNames (pruned used kept text) .required) used kept) =
        (pruned used kept text, []) := by
    apply removeEntries_eq_self
    intro entry left unused
    rw [pruned_eq_removeEntries] at left
    apply entryName_not_mem_of_mem_removeEntries named left
    -- what is still declared was declared before
    obtain ⟨declared, unneeded⟩ := mem_unusedNames.mp unused
    obtain ⟨other, listed, -, holds⟩ := mem_declaredNames_prune.mp declared
    exact mem_unusedNames.mpr ⟨mem_declaredNames.mpr ⟨other, listed, holds⟩, unneeded⟩
  constructor
  · rw [pruned_eq_removeEntries used kept (pruned used kept text), settled]
  · rw [prunedNames, settled]

end Pruning

/-! ## Adding twice -/

section Addition

variable {text : Text} {field : Field} {block : Block} {names : List Text}

/-- Whether a field closes the parentheses that it opens, if there is such a field. -/
def ClosesParentheses (text : Text) (field : Field) : Prop :=
  ∀ block, Block.find? field.header text.lines = some block →
    openBehind 0 (block.entriesText field.header) = 0

instance (text : Text) (field : Field) : Decidable (ClosesParentheses text field) :=
  inferInstanceAs (Decidable (∀ block ∈ Block.find? field.header text.lines,
    openBehind 0 (block.entriesText field.header) = 0))

/-- An addition that changes nothing has nothing to add. -/
theorem addEntries_eq_self_iff (valid : ∀ name ∈ names, PackageName.isValid name = true) :
    addEntries text field names = text ↔ unlisted text field names = [] := by
  constructor
  · intro same
    by_contra new
    have more := ink_lt_ink_addEntries valid new
    rw [same] at more
    exact Nat.lt_irrefl _ more
  · exact addEntries_of_unlisted_eq_nil

section Found

variable (found : Block.find? field.header text.lines = some block)
  (valid : ∀ name ∈ names, PackageName.isValid name = true)

include found valid in
/-- The entries behind an addition have the names of the body that it writes. -/
theorem map_entryName_fieldEntries_addEntries (apart : KeepsStrayApart text field)
    (new : unlisted text field names ≠ []) :
    (fieldEntries (addEntries text field names) field).map entryName =
      (splitEntries (List.intercalate [',']
        (block.listed field.header ++ addedEntries text (unlisted text field names)))).map
          entryName := by
  have validNew := isValid_of_mem_unlisted text field valid
  have flows := flows_of_mem_listed_append found validNew
  obtain ⟨blanks, stray, joins⟩ := exists_joins_added found apart flows
  rw [addEntries_of_find? found new,
    map_entryName_fieldEntries_replaceWith found (blank_closing block field.header text) joins]

include valid in
/-- Behind an open parenthesis, added entries belong to the last one. -/
theorem splitEntries_listed_append_of_open
    (opened : openBehind 0 (block.entriesText field.header) ≠ 0) (present : names ≠ []) :
    ∃ front last, front ⊆ splitEntries (block.entriesText field.header) ∧
      splitEntries (List.intercalate [',']
          (block.listed field.header ++ addedEntries text names)) =
        front ++ [last ++ ',' :: List.intercalate [','] (addedEntries text names)] := by
  obtain ⟨front, last, depth, divided, level, leads⟩ :=
    (isDivision_splitEntries (block.entriesText field.header)).exists_last
  have deep : 0 < depth := by
    rw [← intercalate_splitEntries (block.entriesText field.header), divided,
      openBehind_intercalate level leads] at opened
    exact Nat.pos_iff_ne_zero.mpr opened
  have shows : Text.isAllBlank last = false := by
    rw [← Bool.not_eq_true]
    intro blank
    have stays := depthAfter?_of_blank 0 (Text.isAllBlank_iff.mp blank)
    rw [leads, Option.some.injEq] at stays
    omega
  have listed : block.listed field.header = front.filter (!Text.isAllBlank ·) ++ [last] := by
    simp [Block.listed, divided, shows]
  have plain := parentheses_not_mem_addedEntries text valid
  have single :
      (depthAfter? depth (',' :: List.intercalate [','] (addedEntries text names))).isSome := by
    rw [depthAfter?_of_opened deep (by simpa using plain)]
    rfl
  refine ⟨front.filter (!Text.isAllBlank ·), last, ?_, ?_⟩
  · rw [divided]
    exact List.Subset.trans (List.filter_subset_self _) (List.subset_append_left _ _)
  · rw [listed, intercalate_append (by simp) (by simp [addedEntries, present])]
    exact splitEntries_intercalate_append
      (fun entry inside => level entry (List.mem_of_mem_filter inside)) leads single

include found valid in
theorem unlisted_addEntries_of_closed (apart : KeepsStrayApart text field)
    (new : unlisted text field names ≠ [])
    (closed : openBehind 0 (block.entriesText field.header) = 0) :
    unlisted (addEntries text field names) field names = [] := by
  have validNew := isValid_of_mem_unlisted text field valid
  rw [unlisted_eq_nil_iff, map_entryName_fieldEntries_addEntries found valid apart new,
    splitEntries_listed_append_of_closed closed validNew new, List.map_append,
    map_entryName_addedEntries validNew]
  intro name asked
  rw [List.mem_append]
  by_cases old : name ∈ (fieldEntries text field).map entryName
  · left
    obtain ⟨entry, listed, rfl⟩ := List.mem_map.mp old
    rw [fieldEntries_of_find? found] at listed
    refine List.mem_map_of_mem (List.mem_filter.mpr ⟨listed, ?_⟩)
    -- an entry of blanks has no name, let alone a valid one
    by_contra blank
    apply PackageName.ne_nil_of_isValid (valid _ asked)
    exact entryName_of_blank (Text.isAllBlank_iff.mp (by simpa using blank))
  · exact .inr (List.mem_filter.mpr ⟨by simpa using asked, by simpa using old⟩)

include found valid in
theorem unlisted_addEntries_of_open (apart : KeepsStrayApart text field)
    (new : unlisted text field names ≠ [])
    (opened : openBehind 0 (block.entriesText field.header) ≠ 0) :
    unlisted (addEntries text field names) field names ≠ [] := by
  have validNew := isValid_of_mem_unlisted text field valid
  obtain ⟨front, last, fewer, divided⟩ := splitEntries_listed_append_of_open validNew opened new
  obtain ⟨name, unnamed⟩ := List.exists_mem_of_ne_nil _ new
  obtain ⟨asked, others⟩ := mem_unlisted.mp unnamed
  rw [ne_eq, unlisted_eq_nil_iff, map_entryName_fieldEntries_addEntries found valid apart new,
    divided]
  intro all
  obtain ⟨entry, listed, same⟩ := List.mem_map.mp (all name asked)
  rcases List.mem_append.mp listed with old | joined
  · apply others entry _ same
    rw [fieldEntries_of_find? found]
    exact fewer old
  · have comma : ',' ∈ entryName entry := by
      rw [List.mem_singleton.mp joined]
      exact comma_mem_entryName (parentheses_not_mem_addedEntries text validNew).2
    rw [same] at comma
    exact (PackageName.plain_of_isNameChar
      (PackageName.isNameChar_of_mem (valid name asked)) _ comma).2.2 rfl

end Found

/-- A field that an addition opens lists all names. -/
theorem unlisted_addEntries_of_absent (absent : Block.find? field.header text.lines = none)
    (valid : ∀ name ∈ names, PackageName.isValid name = true)
    (new : unlisted text field names ≠ []) :
    unlisted (addEntries text field names) field names = [] := by
  have validNew := isValid_of_mem_unlisted text field valid
  obtain ⟨block, found, own⟩ := exists_find?_addEntries_of_absent absent valid new
  rw [unlisted_eq_nil_iff, fieldEntries_of_find? found, Block.entriesText,
    map_entryName_splitEntries_congr (.trimEnd_left _), own, List.append_assoc, List.drop_left,
    ← map_entryName_splitEntries_congr (.append_blanks _ (blank_lineEnding text)), splitEntries,
    splitEntriesAt_intercalate (isDivision_addedEntries text validNew new),
    map_entryName_addedEntries validNew]
  intro name asked
  exact mem_unlisted.mpr ⟨asked, by simp [fieldEntries_of_absent absent]⟩

/-- Adding twice is adding once exactly if there is nothing to add or the field closes its
parentheses, as long as stray lines stay apart. -/
theorem addEntries_addEntries_eq_self_iff (text : Text) (field : Field) (names : List Text)
    (valid : ∀ name ∈ names, PackageName.isValid name = true)
    (apart : KeepsStrayApart text field) :
    addEntries (addEntries text field names) field names = addEntries text field names ↔
      unlisted text field names = [] ∨ ClosesParentheses text field := by
  rw [addEntries_eq_self_iff valid]
  by_cases new : unlisted text field names = []
  · simp [addEntries_of_unlisted_eq_nil new, new]
  cases found : Block.find? field.header text.lines with
  | none => simp [unlisted_addEntries_of_absent found valid new, ClosesParentheses, found]
  | some block =>
      have closes : ClosesParentheses text field ↔
          openBehind 0 (block.entriesText field.header) = 0 := by
        simp [ClosesParentheses, found]
      simp only [new, false_or, closes]
      constructor
      · intro settled
        by_contra opened
        exact unlisted_addEntries_of_open found valid apart new opened settled
      · exact unlisted_addEntries_of_closed found valid apart new

end Addition

/-- A manifest whose field holds a nested constraint, a stray line and a comma at its end. -/
def nestedManifest : Text := "Imports: dplyr (>= (1.0), < 2.0),\nfoo\n    tidyr,\n"

/-- One name that the field lists and one that it does not are added to it twice. -/
theorem addEntries_addEntries_nestedManifest :
    (∀ name ∈ ([("purrr" : Text), ("tidyr" : Text)] : List Text),
        PackageName.isValid name = true) ∧
      KeepsStrayApart nestedManifest .required ∧
      addEntries nestedManifest .required ["purrr", "tidyr"] =
        "Imports: dplyr (>= (1.0), < 2.0),\n    tidyr,\n    purrr\nfoo\n" ∧
      addEntries (addEntries nestedManifest .required ["purrr", "tidyr"]) .required
          ["purrr", "tidyr"] =
        addEntries nestedManifest .required ["purrr", "tidyr"] := by
  have valid : ∀ name ∈ ([("purrr" : Text), ("tidyr" : Text)] : List Text),
      PackageName.isValid name = true := by
    decide
  have last : List.getLast? nestedManifest = some '\n' := by decide +kernel
  have apart : KeepsStrayApart nestedManifest .required :=
    keepsStrayApart_of_ended (by simp [last, Text.isLineBreak])
  have closed : ClosesParentheses nestedManifest .required := by decide +kernel
  exact ⟨valid, apart, by decide +kernel,
    (addEntries_addEntries_eq_self_iff _ .required _ valid apart).mpr (.inr closed)⟩

/-- Behind a parenthesis that nothing closes, a name is added again that was added before. -/
theorem addEntries_repeats_behind_open_parenthesis :
    PackageName.isValid "purrr" = true ∧
      addEntries "Imports: dplyr, foo (>= 1.0\n" .required ["purrr"] =
        "Imports: dplyr, foo (>= 1.0,\n    purrr\n" ∧
      addEntries (addEntries "Imports: dplyr, foo (>= 1.0\n" .required ["purrr"]) .required
          ["purrr"] =
        "Imports: dplyr, foo (>= 1.0,\n    purrr,\n    purrr\n" := by
  decide +kernel

end DependencyGate.Manifest

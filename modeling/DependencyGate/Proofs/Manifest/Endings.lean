/-
# Line endings through edits

Edits cut a manifest between its lines, at commas and in front of the blanks at the end of a
field, and never within an ending. What they add is written with the ending that the manifest has.
So a manifest that is written with one ending stays so (`edits_keep_endings`). Nothing is said of
manifests that mix endings, or that have breaks of other kinds.
-/

import DependencyGate.Proofs.Manifest.Addition
import DependencyGate.Proofs.Manifest.Removal
import DependencyGate.Proofs.Text.Ending

namespace DependencyGate.Manifest

open Text (EndsInFeed WrittenWith)

variable {ending text rebuilt stray name : Text} {field : Field} {block : Block}
  {names : List Text}

/-- Whether all that edits write of a manifest again is written with an ending. -/
structure Block.PartsWrittenWith (ending header : Text) (block : Block) : Prop where
  before : WrittenWith ending block.beforeText
  after : WrittenWith ending block.afterText
  stray : WrittenWith ending block.strayText
  entries : ∀ entry ∈ splitEntries (block.entriesText header), WrittenWith ending entry
  tail : WrittenWith ending (block.tail header)

/-- The body of a field is cut in front of the blanks at its end. -/
theorem Block.writtenWith_entriesText_and_tail (feed : EndsInFeed ending)
    (written : WrittenWith ending text) (found : find? field.header text.lines = some block) :
    WrittenWith ending (block.entriesText field.header) ∧
      WrittenWith ending (block.tail field.header) := by
  have inside : block.opening :: block.inner.filter (continuesField ·.full) ⊆ text.lines :=
    fun line listed => mem_of_mem_block found
      (List.cons_subset_cons _ (List.filter_subset_self _) listed)
  have own : WrittenWith ending block.own := written.of_subset_lines feed inside
  have body : WrittenWith ending (block.own.drop field.header.length) := by
    rw [own_eq found] at own ⊢
    rw [List.drop_left]
    exact own.of_append feed.isEnding (unbroken_header field)
  exact body.trimEnd_and_trailingBlanks feed.isEnding

theorem Block.partsWrittenWith (feed : EndsInFeed ending) (written : WrittenWith ending text)
    (found : find? field.header text.lines = some block) :
    block.PartsWrittenWith ending field.header where
  before := written.of_subset_lines feed fun line listed => by
    simp [(find?_eq_some_iff.mp found).lines_eq, listed]
  after := written.of_subset_lines feed fun line listed => by
    simp [(find?_eq_some_iff.mp found).lines_eq, listed]
  stray := written.of_subset_lines feed fun line listed =>
    mem_of_mem_block found (List.mem_cons_of_mem _ (List.mem_filter.mp listed).1)
  entries := by
    rw [← WrittenWith.intercalate_iff feed.isEnding, intercalate_splitEntries]
    exact (block.writtenWith_entriesText_and_tail feed written found).1
  tail := (block.writtenWith_entriesText_and_tail feed written found).2

theorem writtenWith_header (field : Field) : WrittenWith ending field.header :=
  .of_unbroken (unbroken_header field)

theorem Block.PartsWrittenWith.replaceWith {header : Text}
    (parts : block.PartsWrittenWith ending header) (written : WrittenWith ending rebuilt) :
    WrittenWith ending (block.replaceWith rebuilt) :=
  (parts.before.append written).append parts.after

theorem writtenWith_appendStray (written : WrittenWith ending rebuilt)
    (strayToo : WrittenWith ending stray) :
    WrittenWith ending (appendStray ending rebuilt stray) := by
  rw [appendStray]
  split
  · exact written
  · split
    · exact written.append strayToo
    · exact (written.append (.self ending)).append strayToo

theorem writtenWith_addedEntry (valid : PackageName.isValid name = true) :
    WrittenWith ending (addedEntry ending name) := by
  have indent : WrittenWith ending [' ', ' ', ' ', ' '] :=
    .of_unbroken (Text.unbroken_of_all rfl)
  have unbroken : ∀ c ∈ name, Text.isLineBreak c = false := fun c listed =>
    PackageName.isLineBreak_of_isNameChar (PackageName.isNameChar_of_mem valid c listed)
  exact ((WrittenWith.self ending).append indent).append (.of_unbroken unbroken)

theorem writtenWith_removeEntries (feed : EndsInFeed ending) (written : WrittenWith ending text)
    (same : Text.lineEnding text = ending) (names : List Text) :
    WrittenWith ending (removeEntries text names).1 := by
  cases found : Block.find? Field.required.header text.lines with
  | none =>
      rw [removeEntries, found]
      exact written
  | some block =>
      have parts := block.partsWrittenWith feed written found
      rw [removeEntries_of_find? found, same]
      split
      · exact written
      · have kept : WrittenWith ending (List.intercalate [',']
            ((splitEntries (block.entriesText Field.required.header)).filter
              (entryName · ∉ names))) :=
          (WrittenWith.intercalate_iff feed.isEnding).mpr fun entry listed =>
            parts.entries entry (List.mem_filter.mp listed).1
        exact parts.replaceWith (writtenWith_appendStray
          (((writtenWith_header .required).append kept).append parts.tail) parts.stray)

theorem writtenWith_addEntries (feed : EndsInFeed ending) (written : WrittenWith ending text)
    (same : Text.lineEnding text = ending) (field : Field)
    (valid : ∀ name ∈ names, PackageName.isValid name = true) :
    WrittenWith ending (addEntries text field names) := by
  by_cases none : unlisted text field names = []
  · rw [addEntries_of_unlisted_eq_nil none]
    exact written
  have added : ∀ entry ∈ addedEntries text (unlisted text field names),
      WrittenWith ending entry := by
    rw [addedEntries, same]
    intro entry listed
    obtain ⟨name, new, rfl⟩ := List.mem_map.mp listed
    exact writtenWith_addedEntry (isValid_of_mem_unlisted text field valid name new)
  cases found : Block.find? field.header text.lines with
  | none =>
      have start : WrittenWith ending (completed text ending) := by
        rw [completed]
        split
        · exact written
        · exact written.append (.self ending)
      have body := (WrittenWith.intercalate_iff feed.isEnding).mpr added
      rw [addEntries_of_absent found none, same]
      exact start.append (((writtenWith_header field).append body).append (.self ending))
  | some block =>
      have parts := block.partsWrittenWith feed written found
      have closing : WrittenWith ending (block.closing field.header ending) := by
        rw [Block.closing]
        split
        · exact .self ending
        · exact parts.tail
      have body : WrittenWith ending (List.intercalate [',']
          (block.listed field.header ++ addedEntries text (unlisted text field names))) := by
        refine (WrittenWith.intercalate_iff feed.isEnding).mpr
          (List.forall_mem_append.mpr ⟨fun entry listed => ?_, added⟩)
        exact parts.entries entry (List.mem_filter.mp listed).1
      rw [addEntries_of_find? found none, same]
      exact parts.replaceWith
        ((((writtenWith_header field).append body).append closing).append parts.stray)

/-- Edits keep the line endings. A manifest with at least one line feed, in which all breaks
are line feeds, or in which all are carriage returns with line feeds behind them, has no other
breaks after names have been removed from its required field, or valid names have been added to
either field. -/
theorem edits_keep_endings (feed : EndsInFeed ending) (written : WrittenWith ending text)
    (occurs : Text.contains ending text = true) :
    (∀ names, WrittenWith ending (removeEntries text names).1) ∧
      ∀ field names, (∀ name ∈ names, PackageName.isValid name = true) →
        WrittenWith ending (addEntries text field names) := by
  have same := Text.lineEnding_of_writtenWith feed written occurs
  exact ⟨writtenWith_removeEntries feed written same,
    fun field _ valid => writtenWith_addEntries feed written same field valid⟩

/-- A manifest with carriage returns in front of its line feeds. A line ends within an entry, one
is stray, and the last has no ending. -/
def returnsManifest : Text :=
  "Imports: dplyr,\r\n    foo (>= 1.0,\r\n    < 2),\r\nstray\r\n    purrr "

/-- A stray line is put behind the field, and a field behind the last line. -/
theorem returnsManifest_keeps_endings :
    WrittenWith ['\r', '\n'] (removeEntries returnsManifest ["foo"]).1 ∧
      (removeEntries returnsManifest ["foo"]).1 =
        ("Imports: dplyr,\r\n    purrr \r\nstray\r\n" : Text) ∧
      WrittenWith ['\r', '\n'] (addEntries returnsManifest .optional ["covr"]) ∧
      addEntries returnsManifest .optional ["covr"] =
        returnsManifest ++ ("\r\nSuggests:\r\n    covr\r\n" : Text) := by
  have feed : EndsInFeed ['\r', '\n'] := .inl rfl
  have written : WrittenWith ['\r', '\n'] returnsManifest :=
    (Text.writtenWith_iff feed).mpr (by decide)
  obtain ⟨removed, added⟩ := edits_keep_endings feed written (by decide)
  exact ⟨removed ["foo"], by decide, added .optional ["covr"] (by decide), by decide⟩

end DependencyGate.Manifest

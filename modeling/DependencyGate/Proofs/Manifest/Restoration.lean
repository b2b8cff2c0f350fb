/-
# Taking an addition back

Adding names and then removing them gives the manifest back, character by character
(`removeEntries_addEntries`). The two edits agree on where a body ends, and both put the blanks at
its end and the stray lines back behind it. What an addition tidies up on its way stays tidied,
so this takes a field that is tidy already (`Block.IsTidy`): it ends where its last line does, its
stray lines come behind it, no entry is left empty and no parenthesis open.
-/

import DependencyGate.Proofs.Manifest.Addition
import DependencyGate.Proofs.Manifest.Confinement
import DependencyGate.Proofs.Manifest.Removal

namespace DependencyGate.Manifest

open Text (Blank)

/-- A body that ends in no blank is found again in the place of another, with the same blanks and
stray lines behind it. -/
theorem Block.find?_replaceWith_intercalate {text : Text} {field : Field} {block : Block}
    (found : Block.find? field.header text.lines = some block)
    (ended : (block.tail field.header).getLast? = some '\n') {entries : List Text}
    (flows : ∀ entry ∈ entries, Flows entry)
    (visible : ∀ c ∈ (List.intercalate [','] entries).getLast?, Text.isBlank c = false) :
    ∃ again : Block, Block.find? field.header (block.replaceWith (field.header
        ++ List.intercalate [','] entries ++ block.tail field.header ++ block.strayText)).lines =
          some again ∧
      again.before = block.before ∧ again.after = block.after ∧
      again.strayText = block.strayText ∧
      again.entriesText field.header = List.intercalate [','] entries ∧
      again.tail field.header = block.tail field.header := by
  have blank : Blank (block.tail field.header) := Text.blank_trailingBlanks _
  have ownLast : (field.header ++ List.intercalate [','] entries
      ++ block.tail field.header).getLast? = some '\n' := by
    rw [List.getLast?_append, ended]
    rfl
  obtain ⟨again, foundAgain, before, after, own, stray⟩ := Block.find?_replaceWith
    (unbroken_header field) (header_ne_nil field) found
    (isFieldText_intercalate flows (block.chain_body found).right_of_append)
    (Block.isStrayText_strayText found) (Text.endsBefore_of_getLast? ownLast _)
    (Block.strayText_endsBefore_afterText found)
  rw [List.append_assoc] at own
  -- a reader cuts the body where it ends: what comes behind it is blank, and its end is not
  refine ⟨again, foundAgain, before, after, stray, ?_, ?_⟩
  · rw [Block.entriesText, own, List.drop_left, Text.trimEnd_append_of_blank blank,
      Text.trimEnd_eq_self visible]
  · rw [Block.tail, own, List.drop_left, Text.trailingBlanks_append visible blank]

/-- Whether a field has nothing that an addition tidies up: its lines end in line feeds, perhaps
behind carriage returns, and come before the stray ones; a body that is not empty has no blank
entry; and no parenthesis is open at its end. -/
structure Block.IsTidy (block : Block) (header : Text) : Prop where
  own_terminated : ∀ line ∈ block.opening :: block.inner.filter (continuesField ·.full),
    line.IsTerminated
  own_first : block.inner = block.inner.filter (continuesField ·.full) ++ block.stray
  entries_shown : block.entriesText header = [] ∨
    ∀ entry ∈ splitEntries (block.entriesText header), Text.isAllBlank entry = false
  closed : openBehind 0 (block.entriesText header) = 0

section Tidy

variable {text header : Text} {block : Block} (tidy : block.IsTidy header)

include tidy

/-- The lines of a tidy block are its own and then the stray ones. -/
theorem text_of_tidy : block.text = block.own ++ block.strayText := by
  rw [Block.text, tidy.own_first, List.flatMap_append, ← List.append_assoc]
  rfl

/-- An addition to a tidy field leaves out no entry. -/
theorem intercalate_listed_of_tidy :
    List.intercalate [','] (block.listed header) = block.entriesText header := by
  rcases tidy.entries_shown with empty | shown
  · rw [Block.listed, empty]
    rfl
  · have all : block.listed header = splitEntries (block.entriesText header) :=
      List.filter_eq_self.mpr fun entry listed => by simp [shown entry listed]
    rw [all, intercalate_splitEntries]

end Tidy

section Restoration

variable {text : Text} {block : Block} {names : List Text}

/-- A tidy block whose entries are written back stands for the manifest. -/
theorem replaceWith_listed_of_tidy
    (found : Block.find? Field.required.header text.lines = some block)
    (tidy : block.IsTidy Field.required.header) :
    block.replaceWith (Field.required.header
      ++ List.intercalate [','] (block.listed Field.required.header)
      ++ block.tail Field.required.header ++ block.strayText) = text := by
  rw [intercalate_listed_of_tidy tidy, List.append_assoc Field.required.header,
    ← Block.own_eq found, ← text_of_tidy tidy, Block.replaceWith, ← Block.eq_append_text found]

/-- What an addition writes into a field that ends in a line feed is found there again, with
nothing else around it changed. -/
theorem exists_find?_addEntries_of_ended
    (found : Block.find? Field.required.header text.lines = some block)
    (ended : (block.tail Field.required.header).getLast? = some '\n')
    (valid : ∀ name ∈ names, PackageName.isValid name = true)
    (new : unlisted text .required names ≠ []) :
    ∃ again : Block,
      Block.find? Field.required.header (addEntries text .required names).lines = some again ∧
      again.before = block.before ∧ again.after = block.after ∧
      again.strayText = block.strayText ∧
      again.entriesText Field.required.header = List.intercalate [','] (
        block.listed Field.required.header ++ addedEntries text (unlisted text .required names)) ∧
      again.tail Field.required.header = block.tail Field.required.header := by
  have validNew := isValid_of_mem_unlisted text .required valid
  have present : block.tail Field.required.header ≠ [] := by
    intro none
    simp [none] at ended
  rw [addEntries_of_find? found new, Block.closing, if_neg (by simpa using present)]
  apply Block.find?_replaceWith_intercalate found ended
  · exact flows_of_mem_listed_append found validNew
  · exact not_isBlank_of_getLast?_addedEntries _ text validNew new

/-- Among entries with other names, those of added names are the ones that a removal takes. -/
theorem filter_append_addedEntries (text : Text) {entries added : List Text}
    (others : ∀ entry ∈ entries, entryName entry ∉ names)
    (valid : ∀ name ∈ added, PackageName.isValid name = true) (fewer : added ⊆ names) :
    (entries ++ addedEntries text added).filter (entryName · ∉ names) = entries ∧
      ((entries ++ addedEntries text added).map entryName).filter (· ∈ names) = added := by
  have named : (addedEntries text added).map entryName = added := map_entryName_addedEntries valid
  constructor
  · have stay : entries.filter (entryName · ∉ names) = entries :=
      List.filter_eq_self.mpr fun entry listed => by simp [others entry listed]
    rw [List.filter_append, stay, List.filter_eq_nil_iff.mpr, List.append_nil]
    intro entry listed
    have asked := List.mem_map_of_mem (f := entryName) listed
    rw [named] at asked
    simpa using fewer asked
  · have go : added.filter (· ∈ names) = added :=
      List.filter_eq_self.mpr fun name listed => by simpa using fewer listed
    rw [List.map_append, named, List.filter_append, go, List.filter_eq_nil_iff.mpr, List.nil_append]
    intro name listed
    obtain ⟨entry, old, rfl⟩ := List.mem_map.mp listed
    simpa using others entry old

/-- Removing undoes adding, character by character, if the field is tidy and has no entry of
the names. -/
theorem removeEntries_addEntries
    (found : Block.find? Field.required.header text.lines = some block)
    (tidy : block.IsTidy Field.required.header) (present : names ≠ [])
    (valid : ∀ name ∈ names, PackageName.isValid name = true)
    (new : ∀ entry ∈ splitEntries (block.entriesText Field.required.header),
      entryName entry ∉ names) :
    removeEntries (addEntries text .required names) names = (text, canonical names) := by
  have validNew : ∀ name ∈ canonical names, PackageName.isValid name = true :=
    fun name listed => valid name (mem_canonical.mp listed)
  have nonempty : canonical names ≠ [] := by
    obtain ⟨name, listed⟩ := List.exists_mem_of_ne_nil names present
    exact List.ne_nil_of_mem (mem_canonical.mpr listed)
  have all : unlisted text .required names = canonical names :=
    unlisted_eq_canonical (by rwa [fieldEntries_of_find? found])
  have ended : (block.tail Field.required.header).getLast? = some '\n' :=
    getLast?_tail_of_own_terminated found tidy.own_terminated
  obtain ⟨again, foundAgain, before, after, stray, body, tail⟩ :=
    exists_find?_addEntries_of_ended found ended valid (all ▸ nonempty)
  rw [all] at body
  -- of the entries that are found, the removal takes those that the addition wrote
  have others : ∀ entry ∈ block.listed Field.required.header, entryName entry ∉ names :=
    fun entry listed => new entry (List.mem_of_mem_filter listed)
  obtain ⟨kept, removed⟩ := filter_append_addedEntries text others validNew
    fun name listed => mem_canonical.mp listed
  have rebuilt : (Field.required.header
      ++ List.intercalate [','] (block.listed Field.required.header)
      ++ block.tail Field.required.header).getLast? = some '\n' := by
    rw [List.getLast?_append, ended]
    rfl
  rw [removeEntries_of_find? foundAgain, body,
    splitEntries_listed_append_of_closed tidy.closed validNew nonempty, removed, kept,
    if_neg (by simpa using nonempty), tail, stray, appendStray_of_ended rebuilt]
  refine Prod.ext ?_ (canonical_eq_self_iff.mpr (pairwise_canonical names))
  rw [Block.replaceWith, Block.beforeText, Block.afterText, before, after]
  exact replaceWith_listed_of_tidy found tidy

end Restoration

/-- A manifest whose required field holds a nested constraint, a continuation line of blanks and,
behind its own lines, a stray one. -/
def tidyManifest : Text :=
  "Package: demo\r\nImports:\r\n    dplyr (>= (1.0), < 2.0)\r\n  \r\nfoo\r\nSuggests: testthat\r\n"

/-- The block of its required field. -/
def tidyBlock : Block :=
  ⟨[⟨"Package: demo", ['\r', '\n']⟩], ⟨"Imports:", ['\r', '\n']⟩,
    [⟨"    dplyr (>= (1.0), < 2.0)", ['\r', '\n']⟩, ⟨"  ", ['\r', '\n']⟩, ⟨"foo", ['\r', '\n']⟩],
    [⟨"Suggests: testthat", ['\r', '\n']⟩]⟩

/-- Two names, one of them given twice, are added to the tidy manifest and removed again. -/
theorem removeEntries_addEntries_tidyManifest :
    Block.find? Field.required.header tidyManifest.lines = some tidyBlock ∧
      tidyBlock.IsTidy Field.required.header ∧
      (∀ name ∈ ([("tidyr" : Text), ("purrr" : Text), ("tidyr" : Text)] : List Text),
        PackageName.isValid name = true) ∧
      addEntries tidyManifest .required ["tidyr", "purrr", "tidyr"] ≠ tidyManifest ∧
      removeEntries (addEntries tidyManifest .required ["tidyr", "purrr", "tidyr"])
        ["tidyr", "purrr", "tidyr"] = (tidyManifest, [("purrr" : Text), ("tidyr" : Text)]) := by
  have lines : tidyManifest.lines =
      tidyBlock.before ++ tidyBlock.opening :: (tidyBlock.inner ++ tidyBlock.after) := by
    decide +kernel
  have found : Block.find? Field.required.header tidyManifest.lines = some tidyBlock := by
    rw [lines]
    rfl
  have tidy : tidyBlock.IsTidy Field.required.header := by
    constructor
    case own_terminated =>
      have terminated : ∀ line ∈ tidyBlock.opening :: tidyBlock.inner,
          line.body.all (!Text.isLineBreak ·) = true ∧ line.ending = ['\r', '\n'] := by
        decide +kernel
      intro line listed
      obtain ⟨unbroken, ending⟩ :=
        terminated line (List.cons_subset_cons _ (List.filter_subset_self _) listed)
      exact ⟨Text.unbroken_of_all unbroken, .inr ending⟩
    case own_first => decide +kernel
    case entries_shown => decide +kernel
    case closed => decide +kernel
  have valid : ∀ name ∈ ([("tidyr" : Text), ("purrr" : Text), ("tidyr" : Text)] : List Text),
      PackageName.isValid name = true := by
    decide
  exact ⟨found, tidy, valid, by decide +kernel,
    removeEntries_addEntries found tidy (by simp) valid (by decide +kernel)⟩

end DependencyGate.Manifest

/-
# Edits stay inside the block

An edit of a field writes a new block where the old one stood. However its entries are
cut and its stray lines are moved, no line of the new block but the first opens a field,
and the block ends where a line ends. The new manifest therefore divides at the same
place (`Block.find?_replaceWith_closed`), and what is read of other fields is what was
read before (`Block.Replaces.linesOfField_eq`). Both hold even where an addition joins a
stray line to an entry.
-/

import DependencyGate.Proofs.Manifest.Addition
import DependencyGate.Proofs.Manifest.Removal

namespace DependencyGate.Manifest

open Text (isLineBreak Blank StartsLines EndsBefore lines)

/-! ## Text that opens no field -/

/-- A character with which no line starts that opens a field. -/
def ClosedAt (c : Char) : Prop := Text.isUppercase c = false

theorem closedAt_of_continuesAt {c : Char} (continues : ContinuesAt c) : ClosedAt c :=
  Text.isUppercase_of_isBlank continues.1

theorem isChain_closed_of_continues {text : Text}
    (chain : text.IsChain (StartsLines ContinuesAt)) : text.IsChain (StartsLines ClosedAt) :=
  chain.imp fun _ _ starts breaks => (starts breaks).imp_left closedAt_of_continuesAt

/-- Stray text may come behind any text that opens no field. -/
theorem isChain_closed_append_stray {front stray : Text}
    (chain : front.IsChain (StartsLines ClosedAt)) (strayText : IsStrayText stray) :
    (front ++ stray).IsChain (StartsLines ClosedAt) := by
  apply chain.append
  · exact strayText.chain.imp fun _ _ starts breaks => (starts breaks).imp_left And.right
  · intro _ _ d first _
    exact .inl (strayText.head d first).2

theorem isStrayText_lineEnding (text : Text) : IsStrayText (Text.lineEnding text) := by
  rcases lineEnding_eq text with equal | equal <;> rw [equal]
  · exact ⟨by simp [strayAt_return], by simp [StartsLines]⟩
  · exact ⟨by simp [strayAt_newline], .singleton _⟩

theorem isChain_closed_appendStray {text front stray : Text}
    (chain : front.IsChain (StartsLines ClosedAt)) (strayText : IsStrayText stray) :
    (appendStray (Text.lineEnding text) front stray).IsChain (StartsLines ClosedAt) := by
  rw [appendStray]
  split
  · exact chain
  · split
    · exact isChain_closed_append_stray chain strayText
    · exact isChain_closed_append_stray
        (isChain_closed_append_stray chain (isStrayText_lineEnding text)) strayText

/-- Where the stray lines of a block end, what is written in front of them does not
matter. -/
theorem endsBefore_append {front back behind : Text} (ends : EndsBefore back behind)
    (alone : back = [] → EndsBefore front behind) : EndsBefore (front ++ back) behind := by
  by_cases none : back = []
  · rw [none, List.append_nil]
    exact alone none
  · apply ends.imp_right
    intro breaks c last
    rw [List.getLast?_append_of_ne_nil _ none] at last
    exact breaks c last

/-! ## The same place in another text -/

namespace Block

/-- The lines of the block as text. -/
def text (block : Block) : Text := block.opening.full ++ block.inner.flatMap Line.full

/-- Whether `again` stands in one manifest where `block` stands in another: both are the
blocks of the same field, and the lines around them are the same. -/
structure Replaces (again block : Block) (header text edited : Text) : Prop where
  found : find? header text.lines = some block
  found_again : find? header edited.lines = some again
  before_eq : again.before = block.before
  after_eq : again.after = block.after

variable {header text edited : Text} {block again : Block}

/-- A manifest is what stands before a block, the block and what stands after it. -/
theorem eq_append_text (found : find? header text.lines = some block) :
    text = block.beforeText ++ block.text ++ block.afterText := by
  rw [beforeText, afterText, Block.text, ← Text.flatMap_full_lines text,
    (find?_eq_some_iff.mp found).lines_eq]
  simp

theorem replaces_self (found : find? header text.lines = some block) :
    block.Replaces block header text text := ⟨found, found, rfl, rfl⟩

theorem Replaces.edited_eq (replaces : again.Replaces block header text edited) :
    edited = block.replaceWith again.text := by
  rw [eq_append_text replaces.found_again, replaceWith, beforeText, afterText,
    replaces.before_eq, replaces.after_eq]
  rfl

/-- A text that opens no field behind its first line is a block where another block of
the field stood. -/
theorem find?_replaceWith_closed {field : Field} {rebuilt : Text}
    (found : find? field.header text.lines = some block) (starts : field.header <+: rebuilt)
    (chain : rebuilt.IsChain (StartsLines ClosedAt))
    (ends : EndsBefore rebuilt block.afterText) :
    ∃ again : Block, again.Replaces block field.header text (block.replaceWith rebuilt) ∧
      again.text = rebuilt := by
  have divides := find?_eq_some_iff.mp found
  obtain ⟨opening, others, split, opens⟩ :=
    exists_opening (unbroken_header field) (header_ne_nil field) starts
  refine ⟨⟨block.before, opening, others, block.after⟩,
    ⟨found, find?_eq_some_iff.mpr ⟨?_, divides.before_other, opens, ?_, divides.after_opens⟩, rfl,
      rfl⟩, ?_⟩
  · rw [replaceWith, List.append_assoc,
      Text.lines_append
        (endsBefore_beforeText (unbroken_header field) (header_ne_nil field) found starts _),
      Text.lines_append ends, lines_afterText found,
      lines_beforeText (unbroken_header field) (header_ne_nil field) found, split]
    rfl
  · intro line listed
    rw [← Bool.not_eq_true, opensField_eq_true_iff]
    rintro ⟨c, first, upper⟩
    have closed : ClosedAt c :=
      Text.startsLater_of_isChain chain line (by simp [split, listed]) c first
    exact absurd upper (by simp [show Text.isUppercase c = false from closed])
  · rw [Block.text, ← List.flatMap_cons, ← split, Text.flatMap_full_lines]

end Block

/-! ## Edits -/

section Edits

variable {text : Text} {field : Field} {block : Block} {names : List Text}

/-- The entries of the required field that a removal keeps. -/
def keptEntries (text : Text) (names : List Text) : List Text :=
  (fieldEntries text .required).filter (entryName · ∉ names)

/-- What a removal keeps of a block: the entries that stay, written with commas between
them, are the new body up to blanks at its end; and the block is as it was, or its stray
lines stand behind the field, perhaps with a line ending in between. -/
structure Block.KeepsEntries (again block : Block) (text : Text) (names : List Text) : Prop where
  own_eq : ∃ blanks, Blank blanks ∧
    again.own = Field.required.header ++ List.intercalate [','] (keptEntries text names) ++ blanks
  text_eq : again = block ∨ ∃ gap, (gap = [] ∨ gap = Text.lineEnding text) ∧
    again.text = Field.required.header ++ List.intercalate [','] (keptEntries text names)
      ++ block.tail Field.required.header ++ gap ++ block.strayText

theorem exists_gap_appendStray (ending rebuilt stray : Text) :
    ∃ gap, (gap = [] ∨ gap = ending) ∧
      appendStray ending rebuilt stray = rebuilt ++ gap ++ stray := by
  rw [appendStray]
  split
  case isTrue none => exact ⟨[], .inl rfl, by simp [List.isEmpty_iff.mp none]⟩
  case isFalse =>
    split
    · exact ⟨[], .inl rfl, by simp⟩
    · exact ⟨ending, .inr rfl, by simp⟩

/-- What a removal writes opens no field and ends where the block ended. -/
theorem closed_removed (found : Block.find? Field.required.header text.lines = some block)
    {kept : List Text} (fewer : kept ⊆ splitEntries (block.entriesText Field.required.header)) :
    let rebuilt := appendStray (Text.lineEnding text)
      (Field.required.header ++ List.intercalate [','] kept ++ block.tail Field.required.header)
      block.strayText
    Field.required.header <+: rebuilt ∧ rebuilt.IsChain (StartsLines ClosedAt) ∧
      EndsBefore rebuilt block.afterText := by
  have flows : ∀ entry ∈ kept, Flows entry := fun entry listed =>
    flows_of_mem_splitEntries (block.flows_entriesText found) entry (fewer listed)
  have fieldText : IsFieldText Field.required.header (Field.required.header
      ++ List.intercalate [','] kept ++ block.tail Field.required.header) :=
    isFieldText_intercalate flows (block.chain_body found).right_of_append
  have strayEnds := Block.strayText_endsBefore_afterText found
  refine ⟨?_, ?_, ?_⟩
  · obtain ⟨gap, -, spelled⟩ := exists_gap_appendStray (Text.lineEnding text) _ block.strayText
    rw [spelled, List.append_assoc]
    exact fieldText.header_in_front.trans (List.prefix_append _ _)
  · exact isChain_closed_appendStray (isChain_closed_of_continues fieldText.chain)
      (Block.isStrayText_strayText found)
  · obtain ⟨gap, -, spelled⟩ := exists_gap_appendStray (Text.lineEnding text)
      (Field.required.header ++ List.intercalate [','] kept ++ block.tail Field.required.header)
      block.strayText
    by_cases none : block.strayText = []
    · rw [appendStray, if_pos (by simp [none])]
      exact Block.endsBefore_append_tail found _
    · rw [spelled]
      exact endsBefore_append strayEnds fun absent => absurd absent none

/-- What an addition writes opens no field and ends where the block ended. -/
theorem closed_added (found : Block.find? field.header text.lines = some block)
    {entries : List Text} (flows : ∀ entry ∈ entries, Flows entry) :
    let rebuilt := field.header ++ List.intercalate [','] entries
      ++ block.closing field.header (Text.lineEnding text) ++ block.strayText
    field.header <+: rebuilt ∧ rebuilt.IsChain (StartsLines ClosedAt) ∧
      EndsBefore rebuilt block.afterText := by
  have fieldText : IsFieldText field.header (field.header ++ List.intercalate [','] entries
      ++ block.closing field.header (Text.lineEnding text)) :=
    isFieldText_intercalate flows (isChain_closing found)
  have strayEnds := Block.strayText_endsBefore_afterText found
  refine ⟨fieldText.header_in_front.trans (List.prefix_append _ _), ?_, ?_⟩
  · exact isChain_closed_append_stray (isChain_closed_of_continues fieldText.chain)
      (Block.isStrayText_strayText found)
  · exact endsBefore_append strayEnds fun _ => endsBefore_append_closing found _

/-- An addition replaces the block of its field. -/
theorem exists_replaces_addEntries (found : Block.find? field.header text.lines = some block)
    (valid : ∀ name ∈ names, PackageName.isValid name = true) :
    ∃ again : Block, again.Replaces block field.header text (addEntries text field names) := by
  by_cases new : unlisted text field names = []
  · rw [addEntries_of_unlisted_eq_nil new]
    exact ⟨block, Block.replaces_self found⟩
  · have flows := flows_of_mem_listed_append found (isValid_of_mem_unlisted text field valid)
    obtain ⟨starts, chain, ends⟩ := closed_added found flows
    obtain ⟨again, replaces, -⟩ := Block.find?_replaceWith_closed found starts chain ends
    rw [addEntries_of_find? found new]
    exact ⟨again, replaces⟩

theorem keptEntries_of_find? (found : Block.find? Field.required.header text.lines = some block) :
    keptEntries text names =
      (splitEntries (block.entriesText Field.required.header)).filter (entryName · ∉ names) := by
  rw [keptEntries, fieldEntries_of_find? found]

/-- A removal that removes nothing keeps all entries. -/
theorem keepsEntries_self (found : Block.find? Field.required.header text.lines = some block)
    (none : ∀ entry ∈ fieldEntries text .required, entryName entry ∉ names) :
    block.KeepsEntries block text names where
  own_eq := by
    have all : keptEntries text names = fieldEntries text .required :=
      List.filter_eq_self.mpr fun entry listed => by simpa using none entry listed
    refine ⟨block.tail Field.required.header, Text.blank_trailingBlanks _, ?_⟩
    rw [all, fieldEntries_of_find? found, intercalate_splitEntries, List.append_assoc]
    exact Block.own_eq found
  text_eq := .inl rfl

/-- A removal replaces the block of the required field and keeps what it does not
remove. -/
theorem exists_replaces_removeEntries
    (found : Block.find? Field.required.header text.lines = some block) (names : List Text) :
    ∃ again : Block, again.Replaces block Field.required.header text (removeEntries text names).1 ∧
      again.KeepsEntries block text names := by
  rw [removeEntries_of_find? found]
  split
  case isTrue none =>
    refine ⟨block, Block.replaces_self found, keepsEntries_self found ?_⟩
    rw [List.isEmpty_iff, List.filter_eq_nil_iff] at none
    intro entry listed
    rw [fieldEntries_of_find? found] at listed
    simpa using none (entryName entry) (List.mem_map_of_mem listed)
  case isFalse =>
    rw [← keptEntries_of_find? found]
    have fewer : keptEntries text names ⊆
        splitEntries (block.entriesText Field.required.header) := by
      rw [keptEntries_of_find? found]
      exact List.filter_subset_self ..
    obtain ⟨starts, chain, ends⟩ := closed_removed found fewer
    obtain ⟨again, replaces, written⟩ := Block.find?_replaceWith_closed found starts chain ends
    refine ⟨again, replaces, ?_, .inr ?_⟩
    · obtain ⟨blanks, stray, joins⟩ := exists_joins_removed found fewer
      obtain ⟨same, foundSame, -, -, own, -⟩ := Block.find?_replaceWith_joined found joins
      obtain rfl := Option.some.inj (foundSame.symm.trans replaces.found_again)
      refine ⟨block.tail Field.required.header ++ blanks,
        Text.blank_append.mpr ⟨Text.blank_trailingBlanks _, joins.blank⟩, ?_⟩
      rw [own, List.append_assoc _ _ blanks]
    · obtain ⟨gap, which, spelled⟩ := exists_gap_appendStray (Text.lineEnding text)
        (Field.required.header ++ List.intercalate [','] (keptEntries text names)
          ++ block.tail Field.required.header) block.strayText
      exact ⟨gap, which, written.trans spelled⟩

end Edits

/-! ## Reading other fields -/

/-- Whether two headers open fields and cannot open the same line. -/
def OpenApart (header other : Text) : Prop :=
  ∃ c ∈ header.head?, ∃ d ∈ other.head?,
    Text.isUppercase c = true ∧ Text.isUppercase d = true ∧ c ≠ d

theorem openApart_header {field other : Field} (different : other ≠ field) :
    OpenApart field.header other.header := by
  cases field <;> cases other
  case required.required | optional.optional => exact absurd rfl different
  case required.optional => exact ⟨'I', rfl, 'S', rfl, by decide +kernel⟩
  case optional.required => exact ⟨'S', rfl, 'I', rfl, by decide +kernel⟩

theorem openApart_package (field : Field) : OpenApart field.header "Package:" := by
  cases field
  case required => exact ⟨'I', rfl, 'P', rfl, by decide +kernel⟩
  case optional => exact ⟨'S', rfl, 'P', rfl, by decide +kernel⟩

theorem head?_of_isPrefixOf {start line : Text} {c : Char} (first : c ∈ start.head?)
    (starts : start.isPrefixOf line = true) : line.head? = some c := by
  obtain ⟨others, rfl⟩ := List.head?_eq_some_iff.mp (Option.mem_def.mp first)
  obtain ⟨behind, rfl⟩ := List.isPrefixOf_iff_prefix.mp starts
  rfl

section Reading

variable {header other : Text} {line : Text}

theorem OpenApart.opensField (apart : OpenApart header other)
    (starts : header.isPrefixOf line = true) : opensField line = true := by
  obtain ⟨c, first, -, -, upper, -⟩ := apart
  exact opensField_eq_true_iff.mpr ⟨c, head?_of_isPrefixOf first starts, upper⟩

/-- A line that opens one field or none does not open another. -/
theorem OpenApart.not_isPrefixOf (apart : OpenApart header other)
    (starts : header.isPrefixOf line = true ∨ Manifest.opensField line = false) :
    other.isPrefixOf line = false := by
  obtain ⟨c, first, d, firstOther, -, upper, different⟩ := apart
  rw [← Bool.not_eq_true]
  intro startsOther
  have atOther := head?_of_isPrefixOf firstOther startsOther
  rcases starts with starts | closed
  · rw [head?_of_isPrefixOf first starts, Option.some.injEq] at atOther
    exact different atOther
  · rw [← Bool.not_eq_true, opensField_eq_true_iff] at closed
    exact closed ⟨d, atOther, upper⟩

variable {front foreign back : List Text}

/-- Lines of which the first opens a field and none opens the field that is read end the
search for its lines: it finds them all before or all behind. -/
theorem linesOfField_append_foreign
    (opens : ∃ line ∈ foreign.head?, Manifest.opensField line = true)
    (apart : ∀ line ∈ foreign, other.isPrefixOf line = false) :
    linesOfField other (front ++ (foreign ++ back)) =
      if front.any (other.isPrefixOf ·) then linesOfField other front
      else linesOfField other back := by
  induction front with
  | nil =>
      have skipped : (foreign ++ back).dropWhile (!other.isPrefixOf ·) =
          back.dropWhile (!other.isPrefixOf ·) :=
        List.dropWhile_append_of_pos fun line listed => by simp [apart line listed]
      rw [List.nil_append, linesOfField, skipped]
      rfl
  | cons line front ih =>
      by_cases starts : other.isPrefixOf line = true
      · have stopped : (foreign ++ back).takeWhile (!Manifest.opensField ·) = [] := by
          obtain ⟨first, found, opening⟩ := opens
          obtain ⟨others, rfl⟩ := List.head?_eq_some_iff.mp (Option.mem_def.mp found)
          simp [opening]
        have taken : (front ++ (foreign ++ back)).takeWhile (!Manifest.opensField ·) =
            front.takeWhile (!Manifest.opensField ·) := by
          rw [List.takeWhile_append, stopped, List.append_nil]
          split
          case isTrue whole => exact ((List.takeWhile_prefix _).eq_of_length whole).symm
          case isFalse => rfl
        simp [linesOfField, starts, taken]
      · have passed (rest : List Text) :
            linesOfField other (line :: rest) = linesOfField other rest := by
          simp [linesOfField, starts]
        rw [List.cons_append, passed, passed, ih]
        simp [starts]

theorem find?_append_foreign (apart : ∀ line ∈ foreign, other.isPrefixOf line = false) :
    (front ++ (foreign ++ back)).find? (other.isPrefixOf ·) =
      (front.find? (other.isPrefixOf ·)).or (back.find? (other.isPrefixOf ·)) := by
  have none : foreign.find? (other.isPrefixOf ·) = none :=
    List.find?_eq_none.mpr fun line listed => by simp [apart line listed]
  rw [List.find?_append, List.find?_append, none, Option.none_or]

end Reading

namespace Block

variable {header other text edited : Text} {block again : Block}

/-- The bodies of the lines of a block. -/
def bodies (block : Block) : List Text := (block.opening :: block.inner).map Line.body

theorem map_body_lines (found : find? header text.lines = some block) :
    text.lines.map Line.body =
      block.before.map Line.body ++ (block.bodies ++ block.after.map Line.body) := by
  rw [(find?_eq_some_iff.mp found).lines_eq]
  simp [bodies]

section Foreign

variable (found : find? header text.lines = some block) (apart : OpenApart header other)

include found in
theorem isSound_of_mem {line : Line} (listed : line ∈ block.opening :: block.inner) :
    line.IsSound :=
  Text.isSound_of_mem_lines (mem_of_mem_block found listed)

include found apart in
/-- The lines of a block do not open another field. -/
theorem not_isPrefixOf_bodies (unbroken : ∀ c ∈ other, isLineBreak c = false) :
    ∀ body ∈ block.bodies, other.isPrefixOf body = false := by
  have divides := find?_eq_some_iff.mp found
  intro body listed
  obtain ⟨line, inside, rfl⟩ := List.mem_map.mp listed
  rw [isPrefixOf_body unbroken (isSound_of_mem found inside)]
  apply apart.not_isPrefixOf
  rcases List.mem_cons.mp inside with rfl | inner
  · exact .inl divides.opening_header
  · exact .inr (divides.inner_closed line inner)

include found apart in
theorem opensField_head?_bodies : ∃ line ∈ block.bodies.head?, opensField line = true := by
  refine ⟨block.opening.body, rfl, ?_⟩
  rw [opensField_body (isSound_of_mem found List.mem_cons_self)]
  exact apart.opensField (find?_eq_some_iff.mp found).opening_header

end Foreign

namespace Replaces

variable (replaces : again.Replaces block header text edited) (apart : OpenApart header other)
  (unbroken : ∀ c ∈ other, isLineBreak c = false)

include replaces apart unbroken

/-- Another field has the same lines. -/
theorem linesOfField_eq :
    linesOfField other (edited.lines.map Line.body) =
      linesOfField other (text.lines.map Line.body) := by
  rw [map_body_lines replaces.found_again, map_body_lines replaces.found,
    linesOfField_append_foreign (opensField_head?_bodies replaces.found_again apart)
      (not_isPrefixOf_bodies replaces.found_again apart unbroken),
    linesOfField_append_foreign (opensField_head?_bodies replaces.found apart)
      (not_isPrefixOf_bodies replaces.found apart unbroken),
    replaces.before_eq, replaces.after_eq]

/-- The first line of another field is the same. -/
theorem find?_eq :
    (edited.lines.map Line.body).find? (other.isPrefixOf ·) =
      (text.lines.map Line.body).find? (other.isPrefixOf ·) := by
  rw [map_body_lines replaces.found_again, map_body_lines replaces.found,
    find?_append_foreign (not_isPrefixOf_bodies replaces.found_again apart unbroken),
    find?_append_foreign (not_isPrefixOf_bodies replaces.found apart unbroken),
    replaces.before_eq, replaces.after_eq]

end Replaces

/-- A new block of one field leaves what another field declares. -/
theorem Replaces.declaredNames_eq {field other : Field}
    (replaces : again.Replaces block field.header text edited) (different : other ≠ field) :
    declaredNames edited other = declaredNames text other := by
  rw [declaredNames, declaredNames,
    replaces.linesOfField_eq (openApart_header different) (unbroken_header other)]

/-- It leaves the name of the package, too. -/
theorem Replaces.package_eq {field : Field}
    (replaces : again.Replaces block field.header text edited) :
    scalarValue? "Package" (edited.lines.map Line.body) =
      scalarValue? "Package" (text.lines.map Line.body) := by
  have same : (edited.lines.map Line.body).find? (("Package" ++ [':'] : Text).isPrefixOf ·) =
      (text.lines.map Line.body).find? (("Package" ++ [':'] : Text).isPrefixOf ·) :=
    replaces.find?_eq (openApart_package field) (Text.unbroken_of_all rfl)
  simp only [scalarValue?, same]

/-- Whether an edit of a field stays in its block: the lines around it are the same, the new
block is found where the old one was, and everything else is read as before. -/
structure StaysIn (again block : Block) (field : Field) (text edited : Text) : Prop where
  replaces : again.Replaces block field.header text edited
  edited_eq : edited = block.beforeText ++ again.text ++ block.afterText
  declared_eq : ∀ other ≠ field, declaredNames edited other = declaredNames text other
  package_eq : scalarValue? "Package" (edited.lines.map Line.body) =
    scalarValue? "Package" (text.lines.map Line.body)

theorem Replaces.staysIn {field : Field}
    (replaces : again.Replaces block field.header text edited) :
    again.StaysIn block field text edited where
  replaces := replaces
  edited_eq := replaces.edited_eq
  declared_eq := fun _ different => replaces.declaredNames_eq different
  package_eq := replaces.package_eq

end Block

/-- Edits stay inside the block. Whatever line breaks, commas, blanks and stray lines a
field has: adding valid names to it and removing names from the required field replace its
block by another one at the same place, and leave the lines around it, the other field and the
name of the package as they are. A removal keeps the text of the other entries and of the stray
lines, in their order. -/
theorem edits_stay_in_block {text : Text} {field : Field} {block : Block}
    (found : Block.find? field.header text.lines = some block) :
    text = block.beforeText ++ block.text ++ block.afterText ∧
      (∀ names, (∀ name ∈ names, PackageName.isValid name = true) →
        ∃ again : Block, again.StaysIn block field text (addEntries text field names)) ∧
      (field = .required → ∀ names,
        ∃ again : Block, again.StaysIn block field text (removeEntries text names).1 ∧
          again.KeepsEntries block text names) := by
  refine ⟨Block.eq_append_text found, ?_, ?_⟩
  · intro names valid
    obtain ⟨again, replaces⟩ := exists_replaces_addEntries found valid
    exact ⟨again, replaces.staysIn⟩
  · rintro rfl names
    obtain ⟨again, replaces, keeps⟩ := exists_replaces_removeEntries found names
    exact ⟨again, replaces.staysIn, keeps⟩

/-- A manifest whose required field holds a constraint over two lines and a stray line. -/
def layeredManifest : Text :=
  "Package: demo\nImports: dplyr (>= 1.0,\n    < 2.0),\nfoo\n    tidyr\nSuggests: testthat\n"

/-- The block of its required field. -/
def layeredBlock : Block :=
  ⟨[⟨"Package: demo", ['\n']⟩], ⟨"Imports: dplyr (>= 1.0,", ['\n']⟩,
    [⟨"    < 2.0),", ['\n']⟩, ⟨"foo", ['\n']⟩, ⟨"    tidyr", ['\n']⟩],
    [⟨"Suggests: testthat", ['\n']⟩]⟩

/-- The block of the layered manifest gives way to others: one with an entry more, and one
without its first entry and that entry's second line. -/
theorem edits_stay_in_layeredBlock :
    Block.find? Field.required.header layeredManifest.lines = some layeredBlock ∧
      PackageName.isValid "purrr" = true ∧
      addEntries layeredManifest .required ["purrr"] ≠ layeredManifest ∧
      (∃ again : Block, again.StaysIn layeredBlock .required layeredManifest
        (addEntries layeredManifest .required ["purrr"])) ∧
      (removeEntries layeredManifest ["dplyr"]).1 ≠ layeredManifest ∧
      ∃ again : Block, again.StaysIn layeredBlock .required layeredManifest
          (removeEntries layeredManifest ["dplyr"]).1 ∧
        again.KeepsEntries layeredBlock layeredManifest ["dplyr"] := by
  have lines : layeredManifest.lines =
      layeredBlock.before ++
        layeredBlock.opening :: (layeredBlock.inner ++ layeredBlock.after) := by
    decide +kernel
  have found : Block.find? Field.required.header layeredManifest.lines = some layeredBlock := by
    rw [lines]
    rfl
  have valid : ∀ name ∈ ([("purrr" : Text)] : List Text), PackageName.isValid name = true := by
    decide
  obtain ⟨-, adds, removes⟩ := edits_stay_in_block found
  exact ⟨found, by decide, by decide +kernel, adds _ valid, by decide +kernel, removes rfl _⟩

end DependencyGate.Manifest

/-
# Adding entries

An edit that adds entries writes each of them on a line of its own behind the entries
that a field has. What a reader finds afterwards are the names that were declared before
and the names that were added (`declaredNames_addEntries`), whatever line breaks, commas
and open parentheses the field has, and also if the manifest has no such field yet.

There is one exception. The stray lines of a block come right behind the blanks at the
end of its field. If these blanks do not end in a break, which takes a manifest whose
last line continues the field and ends in blanks, then the first stray line becomes part
of the last entry (`addEntries_glues_stray_line`).
-/

import DependencyGate.Proofs.Manifest.Joining
import DependencyGate.Proofs.PackageName

namespace DependencyGate.Manifest

open PackageName (isNameChar isNameChar_of_mem plain_of_isNameChar)
open Text (isLineBreak Blank StartsLines EndsBefore)

/-! ## The entry of a name -/

section Entry

variable {name ending : Text} (inName : ∀ c ∈ name, isNameChar c = true)
  (ends : ending = ['\r', '\n'] ∨ ending = ['\n'])

include ends in
theorem blank_ending_append_indent : Blank (ending ++ [' ', ' ', ' ', ' ']) := by
  rcases ends with rfl | rfl <;> simp [Text.isBlank]

include ends inName in
theorem plain_addedEntry : ∀ c ∈ addedEntry ending name, c ≠ '(' ∧ c ≠ ')' ∧ c ≠ ',' := by
  intro c listed
  rw [addedEntry, List.mem_append] at listed
  rcases listed with blanks | named
  · exact plain_of_blank (blank_ending_append_indent ends) c blanks
  · exact plain_of_isNameChar inName c named

include ends inName in
theorem entryName_addedEntry : entryName (addedEntry ending name) = name := by
  have visible : ∀ c ∈ name, Text.isBlank c = false := fun c listed =>
    PackageName.isBlank_of_isNameChar (inName c listed)
  have unclosing : ')' ∉ addedEntry ending name := fun listed =>
    (plain_addedEntry inName ends _ listed).2.1 rfl
  rw [entryName, stripConstraints_of_unclosing unclosing, addedEntry,
    Text.trim_collapseBlanks_append_left (blank_ending_append_indent ends),
    Text.collapseBlanks_eq_self visible, Text.trim_eq_self visible]

include ends inName in
theorem entryNames_addedEntry (present : name ≠ []) :
    entryNames (addedEntry ending name) = [name] := by
  have single : ',' ∉ name := fun listed => (plain_of_isNameChar inName _ listed).2.2 rfl
  rw [entryNames_of_single] <;> rw [entryName_addedEntry inName ends]
  · simp [present]
  · exact single

include ends inName in
/-- An added entry starts a line that continues the field and ends in no break. -/
theorem flows_addedEntry : Flows (addedEntry ending name) := by
  have unbroken : ∀ c ∈ [' ', ' ', ' ', ' '] ++ name, isLineBreak c = false := by
    intro c listed
    rcases List.mem_append.mp listed with indent | named
    · obtain rfl : c = ' ' := by simpa using indent
      decide
    · exact PackageName.isLineBreak_of_isNameChar (inName c named)
  have behind := flows_of_unbroken unbroken
  have continues : ContinuesAt ' ' := by simp [ContinuesAt, Text.isBlank]
  rw [addedEntry, List.append_assoc]
  constructor
  · apply List.IsChain.append _ behind.chain
    · rcases ends with rfl | rfl <;> simp [StartsLines, continues]
    · rcases ends with rfl | rfl <;> simp [StartsLines]
  · intro c last
    apply behind.last c
    rwa [List.getLast?_append_of_ne_nil _ (by simp)] at last

end Entry

/-! ## The names that are added -/

/-- The names that no entry of a field has, in canonical order. -/
def unlisted (text : Text) (field : Field) (names : List Text) : List Text :=
  (canonical names).filter (· ∉ (fieldEntries text field).map entryName)

section Unlisted

variable {text : Text} {field : Field} {names : List Text} {name : Text}

theorem mem_unlisted :
    name ∈ unlisted text field names ↔
      name ∈ names ∧ ∀ entry ∈ fieldEntries text field, entryName entry ≠ name := by
  simp [unlisted]

theorem isValid_of_mem_unlisted (text : Text) (field : Field)
    (valid : ∀ name ∈ names, PackageName.isValid name = true) :
    ∀ name ∈ unlisted text field names, PackageName.isValid name = true :=
  fun name new => valid name (mem_unlisted.mp new).1

/-- The names asked for all have an entry exactly if none is left to add. -/
theorem unlisted_eq_nil_iff :
    unlisted text field names = [] ↔
      ∀ name ∈ names, name ∈ (fieldEntries text field).map entryName := by
  rw [List.eq_nil_iff_forall_not_mem]
  simp [mem_unlisted]

/-- Names that no entry has are all left to add. -/
theorem unlisted_eq_canonical
    (others : ∀ entry ∈ fieldEntries text field, entryName entry ∉ names) :
    unlisted text field names = canonical names := by
  rw [unlisted, List.filter_eq_self]
  intro name listed
  simp only [List.mem_map, decide_eq_true_eq, not_exists, not_and]
  rintro entry divided rfl
  exact others entry divided (mem_canonical.mp listed)

/-- A valid name is declared or no entry has it. -/
theorem mem_declaredNames_or_unlisted (valid : PackageName.isValid name = true)
    (listed : name ∈ names) :
    name ∈ declaredNames text field ∨ name ∈ unlisted text field names := by
  by_cases named : ∃ entry ∈ fieldEntries text field, entryName entry = name
  · obtain ⟨entry, present, rfl⟩ := named
    have single : ',' ∉ entryName entry := fun comma =>
      (plain_of_isNameChar (isNameChar_of_mem valid) _ comma).2.2 rfl
    refine .inl (mem_declaredNames.mpr ⟨entry, present, ?_⟩)
    rw [entryNames_of_single single]
    simp [PackageName.ne_nil_of_isValid valid]
  · push Not at named
    exact .inr (mem_unlisted.mpr ⟨listed, named⟩)

/-- What is declared together with the names that no entry has are all names asked for. -/
theorem canonical_declaredNames_append_unlisted
    (valid : ∀ name ∈ names, PackageName.isValid name = true) :
    canonical (declaredNames text field ++ unlisted text field names) =
      canonical (declaredNames text field ++ names) := by
  apply canonical_congr
  intro name
  rw [List.mem_append, List.mem_append]
  constructor
  · exact Or.imp_right fun new => (mem_unlisted.mp new).1
  · rintro (declared | asked)
    · exact .inl declared
    · exact mem_declaredNames_or_unlisted (valid name asked) asked

end Unlisted

/-! ## Adding to a field -/

section Present

variable {text : Text} {field : Field} {block : Block} {names : List Text}

/-- Whether the stray lines of a field's block stay apart from it when entries are added:
there are none, or the blanks at the end of the field, if it has any there, end in a
break. -/
def KeepsStrayApart (text : Text) (field : Field) : Prop :=
  ∀ block, Block.find? field.header text.lines = some block → block.strayText ≠ [] →
    ∀ c ∈ (block.tail field.header).getLast?, isLineBreak c = true

/-- The entries behind which others are added. -/
def Block.listed (block : Block) (header : Text) : List Text :=
  (splitEntries (block.entriesText header)).filter (!Text.isAllBlank ·)

/-- The blanks that are written behind the added entries. -/
def Block.closing (block : Block) (header ending : Text) : Text :=
  if (block.tail header).isEmpty then ending else block.tail header

/-- The entries that are written for names. -/
def addedEntries (text : Text) (names : List Text) : List Text :=
  names.map (addedEntry (Text.lineEnding text))

/-- The field's own text ends as one of its lines does. -/
theorem exists_getLast?_own (block : Block) :
    ∃ line ∈ block.opening :: block.inner.filter (continuesField ·.full),
      line.full.getLast? = block.own.getLast? := by
  rw [Block.own]
  rcases List.eq_nil_or_concat (block.inner.filter (continuesField ·.full)) with
    none | ⟨others, line, continuing⟩
  · exact ⟨block.opening, by simp, by simp [none]⟩
  · have listed : line ∈ block.inner.filter (continuesField ·.full) := by simp [continuing]
    have continues : continuesField line.full = true := (List.mem_filter.mp listed).2
    have present : line.full ≠ [] := by
      intro empty
      simp [continuesField, empty] at continues
    refine ⟨line, List.mem_cons_of_mem _ listed, ?_⟩
    rw [continuing, List.concat_eq_append, List.flatMap_append, List.flatMap_singleton,
      ← List.append_assoc, List.getLast?_append_of_ne_nil _ present]

/-- A field whose own lines end in line feeds has one behind its entries. -/
theorem getLast?_tail_of_own_terminated
    (found : Block.find? field.header text.lines = some block)
    (terminated : ∀ line ∈ block.opening :: block.inner.filter (continuesField ·.full),
      line.IsTerminated) :
    (block.tail field.header).getLast? = some '\n' := by
  obtain ⟨line, listed, last⟩ := exists_getLast?_own block
  rw [Text.getLast?_full_of_terminated (terminated line listed)] at last
  exact Block.getLast?_tail found last.symm (by decide)

/-- Stray lines stay apart in a manifest that ends in a break. -/
theorem keepsStrayApart_of_ended (ended : ∀ c ∈ text.getLast?, isLineBreak c = true) :
    KeepsStrayApart text field := by
  intro block found _ c last
  have breaks : ∀ line ∈ block.opening :: block.inner,
      ∃ d, line.full.getLast? = some d ∧ isLineBreak d = true := fun line listed =>
    Text.exists_getLast?_full_of_ended ended (Block.mem_of_mem_block found listed)
  -- the blanks at the end of the field end where its last line ends
  have ownLast : block.own.getLast? = some c := by
    rw [Block.own_eq found, ← List.append_assoc, List.getLast?_append, Option.mem_def.mp last]
    rfl
  obtain ⟨line, listed, lineLast⟩ := exists_getLast?_own block
  obtain ⟨d, found, breaking⟩ :=
    breaks line (List.cons_subset_cons _ (List.filter_subset_self _) listed)
  rw [← lineLast, found, Option.some.injEq] at ownLast
  rwa [← ownLast]

theorem addEntries_of_unlisted_eq_nil (none : unlisted text field names = []) :
    addEntries text field names = text := by
  rw [unlisted, fieldEntries] at none
  rw [addEntries]
  cases found : Block.find? field.header text.lines with
  | none =>
      have empty : canonical names = [] := by simpa [found] using none
      simp [empty]
  | some block =>
      rw [found] at none
      simp only [none]

theorem addEntries_nil (text : Text) (field : Field) : addEntries text field [] = text :=
  addEntries_of_unlisted_eq_nil rfl

theorem addEntries_of_find? (found : Block.find? field.header text.lines = some block)
    (new : unlisted text field names ≠ []) :
    addEntries text field names =
      block.replaceWith (field.header
        ++ List.intercalate [',']
          (block.listed field.header ++ addedEntries text (unlisted text field names))
        ++ block.closing field.header (Text.lineEnding text) ++ block.strayText) := by
  rw [unlisted, fieldEntries_of_find? found] at new ⊢
  rw [addEntries, found]
  simp only
  generalize (canonical names).filter _ = added at new
  cases added with
  | nil => exact absurd rfl new
  | cons => rfl

section Closing

theorem blank_lineEnding (text : Text) : Blank (Text.lineEnding text) := by
  rcases lineEnding_eq text with equal | equal <;> simp [equal, Text.isBlank]

theorem getLast?_append_lineEnding (front text : Text) :
    (front ++ Text.lineEnding text).getLast? = some '\n' := by
  rcases lineEnding_eq text with equal | equal <;> simp [equal]

theorem endsBefore_append_lineEnding (front behind : Text) :
    EndsBefore (front ++ Text.lineEnding text) behind := by
  right
  intro c last
  rw [getLast?_append_lineEnding, Option.mem_some_iff] at last
  subst last
  exact ⟨by decide, by simp⟩

theorem isChain_lineEnding (text : Text) :
    (Text.lineEnding text).IsChain (StartsLines ContinuesAt) := by
  rcases lineEnding_eq text with equal | equal <;> simp [equal, StartsLines]

theorem blank_closing (block : Block) (header text : Text) :
    Blank (block.closing header (Text.lineEnding text)) := by
  rw [Block.closing]
  split
  · exact blank_lineEnding text
  · exact Text.blank_trailingBlanks _

theorem isChain_closing (found : Block.find? field.header text.lines = some block) :
    (block.closing field.header (Text.lineEnding text)).IsChain (StartsLines ContinuesAt) := by
  rw [Block.closing]
  split
  · exact isChain_lineEnding text
  · exact (block.chain_body found).right_of_append

theorem endsBefore_append_closing (found : Block.find? field.header text.lines = some block)
    (front : Text) :
    EndsBefore (front ++ block.closing field.header (Text.lineEnding text)) block.afterText := by
  rw [Block.closing]
  split
  · exact endsBefore_append_lineEnding front _
  · exact Block.endsBefore_append_tail found front

theorem isLineBreak_append_closing (found : Block.find? field.header text.lines = some block)
    (apart : KeepsStrayApart text field) (stray : block.strayText ≠ []) (front : Text) :
    ∀ c ∈ (front ++ block.closing field.header (Text.lineEnding text)).getLast?,
      isLineBreak c = true := by
  rw [Block.closing]
  split
  case isTrue =>
    rw [getLast?_append_lineEnding]
    simp [isLineBreak]
  case isFalse present =>
    rw [List.getLast?_append_of_ne_nil _ (by simpa using present)]
    exact apart block found stray

end Closing

theorem flows_of_mem_addedEntries {entry : Text}
    (valid : ∀ name ∈ names, PackageName.isValid name = true)
    (member : entry ∈ addedEntries text names) : Flows entry := by
  obtain ⟨name, listed, rfl⟩ := List.mem_map.mp member
  exact flows_addedEntry (isNameChar_of_mem (valid name listed)) (lineEnding_eq text)

theorem flows_of_mem_listed_append
    (found : Block.find? field.header text.lines = some block)
    (valid : ∀ name ∈ names, PackageName.isValid name = true) :
    ∀ entry ∈ block.listed field.header ++ addedEntries text names, Flows entry := by
  intro entry member
  rcases List.mem_append.mp member with old | new
  · exact flows_of_mem_splitEntries (block.flows_entriesText found) entry
      (List.mem_of_mem_filter old)
  · exact flows_of_mem_addedEntries valid new

/-- What an addition writes is joined to the stray lines and to what follows the block. -/
theorem exists_joins_added (found : Block.find? field.header text.lines = some block)
    (apart : KeepsStrayApart text field) {entries : List Text}
    (flows : ∀ entry ∈ entries, Flows entry) :
    ∃ blanks stray, Joins field.header
      (field.header ++ List.intercalate [','] entries
        ++ block.closing field.header (Text.lineEnding text))
      block.afterText
      (field.header ++ List.intercalate [','] entries
        ++ block.closing field.header (Text.lineEnding text) ++ block.strayText)
      blanks stray := by
  apply exists_joins_of_break (header_ne_nil field)
  · exact isFieldText_intercalate flows (isChain_closing found)
  · exact Block.isStrayText_strayText found
  · exact fun _ => endsBefore_append_closing found _
  · exact fun stray => isLineBreak_append_closing found apart stray _
  · exact Block.strayText_endsBefore_afterText found

/-- Entries without a name in them are left out before others are added. -/
theorem flatMap_entryNames_listed (block : Block) (header : Text) :
    (block.listed header).flatMap entryNames =
      (splitEntries (block.entriesText header)).flatMap entryNames := by
  rw [Block.listed]
  induction splitEntries (block.entriesText header) with
  | nil => rfl
  | cons entry entries ih =>
      rw [List.filter_cons]
      split
      case isTrue => rw [List.flatMap_cons, List.flatMap_cons, ih]
      case isFalse blank =>
        have nameless : entryNames entry = [] :=
          entryNames_of_blank (Text.isAllBlank_iff.mp (by simpa using blank))
        rw [List.flatMap_cons, nameless, List.nil_append, ih]

theorem flatMap_entryNames_addedEntries
    (valid : ∀ name ∈ names, PackageName.isValid name = true) :
    (addedEntries text names).flatMap entryNames = names := by
  rw [addedEntries, List.flatMap_map]
  induction names with
  | nil => rfl
  | cons name names ih =>
      rw [List.forall_mem_cons] at valid
      rw [List.flatMap_cons, ih valid.2,
        entryNames_addedEntry (isNameChar_of_mem valid.1) (lineEnding_eq text)
          (PackageName.ne_nil_of_isValid valid.1)]
      rfl

theorem map_entryName_addedEntries (valid : ∀ name ∈ names, PackageName.isValid name = true) :
    (addedEntries text names).map entryName = names := by
  rw [addedEntries, List.map_map, List.map_congr_left, List.map_id]
  intro name listed
  exact entryName_addedEntry (isNameChar_of_mem (valid name listed)) (lineEnding_eq text)

/-- Added entries open no parenthesis. -/
theorem depthAfter?_of_mem_addedEntries {entry : Text}
    (valid : ∀ name ∈ names, PackageName.isValid name = true)
    (member : entry ∈ addedEntries text names) : depthAfter? 0 entry = some 0 := by
  obtain ⟨name, listed, rfl⟩ := List.mem_map.mp member
  exact depthAfter?_of_plain 0
    (plain_addedEntry (isNameChar_of_mem (valid name listed)) (lineEnding_eq text))

theorem isDivision_addedEntries (text : Text)
    (valid : ∀ name ∈ names, PackageName.isValid name = true) (present : names ≠ []) :
    IsDivision 0 (addedEntries text names) :=
  isDivision_of_depthAfter? (by simpa [addedEntries] using present)
    fun _ => depthAfter?_of_mem_addedEntries valid

/-- Added entries hold no parentheses, nor do the commas between them. -/
theorem parentheses_not_mem_addedEntries (text : Text)
    (valid : ∀ name ∈ names, PackageName.isValid name = true) :
    '(' ∉ List.intercalate [','] (addedEntries text names) ∧
      ')' ∉ List.intercalate [','] (addedEntries text names) := by
  have plain {c : Char} (inside : c ∈ List.intercalate [','] (addedEntries text names)) :
      c ≠ '(' ∧ c ≠ ')' := by
    rcases Text.mem_of_mem_intercalate inside with comma | ⟨entry, member, inEntry⟩
    · rw [List.mem_singleton.mp comma]
      decide
    · obtain ⟨name, listed, rfl⟩ := List.mem_map.mp member
      obtain ⟨opens, closes, -⟩ :=
        plain_addedEntry (isNameChar_of_mem (valid name listed)) (lineEnding_eq text) c inEntry
      exact ⟨opens, closes⟩
  exact ⟨fun opens => (plain opens).1 rfl, fun closes => (plain closes).2 rfl⟩

/-- Added entries end in a name and not in a blank. -/
theorem not_isBlank_of_getLast?_addedEntries (entries : List Text) (text : Text)
    (valid : ∀ name ∈ names, PackageName.isValid name = true) (present : names ≠ []) :
    ∀ c ∈ (List.intercalate [','] (entries ++ addedEntries text names)).getLast?,
      Text.isBlank c = false := by
  intro c last
  obtain ⟨others, name, rfl⟩ := List.eq_nil_or_concat names |>.resolve_left present
  rw [List.concat_eq_append] at valid last
  have named : PackageName.isValid name = true := valid name (by simp)
  have nonempty : addedEntry (Text.lineEnding text) name ≠ [] := by simp [addedEntry]
  rw [addedEntries, List.map_append, List.map_singleton, ← List.append_assoc,
    getLast?_intercalate_concat _ nonempty, addedEntry,
    List.getLast?_append_of_ne_nil _ (PackageName.ne_nil_of_isValid named)] at last
  exact PackageName.isBlank_of_isNameChar
    (isNameChar_of_mem named c (List.mem_of_mem_getLast? last))

/-- The added entries hold the added names. -/
theorem bodyNames_addedEntries (valid : ∀ name ∈ names, PackageName.isValid name = true) :
    bodyNames (List.intercalate [','] (addedEntries text names)) = names := by
  by_cases none : names = []
  · rw [none]
    rfl
  · rw [bodyNames_intercalate (isDivision_addedEntries text valid none) (List.Sublist.refl _),
      flatMap_entryNames_addedEntries valid]

/-- Behind entries that close their parentheses, added ones are entries of their own. -/
theorem splitEntries_listed_append_of_closed {header : Text}
    (closed : openBehind 0 (block.entriesText header) = 0)
    (valid : ∀ name ∈ names, PackageName.isValid name = true) (present : names ≠ []) :
    splitEntries (List.intercalate [','] (block.listed header ++ addedEntries text names)) =
      block.listed header ++ addedEntries text names := by
  apply splitEntriesAt_intercalate
  apply isDivision_of_depthAfter? (by simp [addedEntries, present])
  intro entry listed
  rcases List.mem_append.mp listed with old | added
  · exact openBehind_eq_zero_iff.mp closed entry (List.mem_of_mem_filter old)
  · exact depthAfter?_of_mem_addedEntries valid added

/-- Behind the entries that a field has, the added ones hold the added names, even if the
last of the others leaves a parenthesis open. -/
theorem bodyNames_listed_append_addedEntries
    (valid : ∀ name ∈ names, PackageName.isValid name = true) (block : Block) (header : Text) :
    bodyNames (List.intercalate [','] (block.listed header ++ addedEntries text names)) =
      (splitEntries (block.entriesText header)).flatMap entryNames ++ names := by
  have unclosing := (parentheses_not_mem_addedEntries text valid).2
  have old : bodyNames (List.intercalate [','] (block.listed header)) =
      (block.listed header).flatMap entryNames :=
    bodyNames_intercalate (isDivision_splitEntries _) List.filter_sublist
  rw [bodyNames_intercalate_append unclosing, old, flatMap_entryNames_listed,
    bodyNames_addedEntries valid]

theorem declaredNames_addEntries_of_find?
    (found : Block.find? field.header text.lines = some block)
    (valid : ∀ name ∈ names, PackageName.isValid name = true)
    (apart : KeepsStrayApart text field) (new : unlisted text field names ≠ []) :
    declaredNames (addEntries text field names) field =
      canonical (declaredNames text field ++ unlisted text field names) := by
  have validNew := isValid_of_mem_unlisted text field valid
  have flows := flows_of_mem_listed_append found validNew
  obtain ⟨blanks, stray, joins⟩ := exists_joins_added found apart flows
  rw [addEntries_of_find? found new,
    declaredNames_replaceWith found (blank_closing block field.header text) joins,
    bodyNames_listed_append_addedEntries validNew, ← fieldEntries_of_find? found]
  apply canonical_congr
  intro name
  rw [List.mem_append, List.mem_append, List.mem_flatMap, mem_declaredNames]

end Present

/-! ## Opening a field -/

section Absent

variable {text : Text} {field : Field} {names : List Text}

/-- The manifest with a line ending at its end, unless one is there already. -/
def completed (text ending : Text) : Text :=
  if text.isEmpty || text.endsLine then text else text ++ ending

theorem addEntries_of_absent (absent : Block.find? field.header text.lines = none)
    (new : unlisted text field names ≠ []) :
    addEntries text field names = completed text (Text.lineEnding text)
      ++ (field.header
        ++ List.intercalate [','] (addedEntries text (unlisted text field names))
        ++ Text.lineEnding text) := by
  have all : unlisted text field names = canonical names :=
    unlisted_eq_canonical (by simp [fieldEntries_of_absent absent])
  rw [all] at new ⊢
  rw [addEntries, absent]
  simp only
  generalize canonical names = added at new
  cases added with
  | nil => exact absurd rfl new
  | cons => simp [completed, addedEntries]

/-- Completing a manifest opens no field in it. -/
theorem find?_completed (absent : Block.find? field.header text.lines = none) :
    Block.find? field.header (completed text (Text.lineEnding text)).lines = none := by
  rw [completed]
  split
  case isTrue => exact absent
  case isFalse unended =>
    have notReturn : text.getLast? ≠ some '\r' := by
      intro last
      simp [Text.endsLine, last] at unended
    have same {lines : Text} {line : Line} (listed : line ∈ lines.lines) :=
      isPrefixOf_body (unbroken_header field) (Text.isSound_of_mem_lines listed)
    rw [Block.find?_eq_none_iff] at absent ⊢
    have bodies : ∀ body ∈ text.lines.map Line.body ++ [[]],
        field.header.isPrefixOf body = false := by
      intro body listed
      rcases List.mem_append.mp listed with old | empty
      · obtain ⟨line, member, rfl⟩ := List.mem_map.mp old
        rw [same member, absent line member]
      · rw [List.mem_singleton.mp empty]
        cases field <;> rfl
    intro line listed
    rw [← same listed]
    apply bodies
    have member := List.mem_map_of_mem (f := Line.body) listed
    rcases Text.map_body_lines_append_ending (lineEnding_eq text) notReturn with equal | equal
    · rw [equal] at member
      exact List.mem_append_left _ member
    · rwa [equal] at member

/-- A field may start behind a completed manifest. -/
theorem endsBefore_completed {own : Text} (starts : field.header <+: own) :
    EndsBefore (completed text (Text.lineEnding text)) own := by
  rw [completed]
  split
  case isTrue ended =>
    right
    intro c last
    have breaks : text.endsLine = true := by
      cases text with
      | nil => simp at last
      | cons => simpa using ended
    refine ⟨isLineBreak_of_endsLine breaks c last, fun _ => ?_⟩
    have notFeed : (own ++ []).head? ≠ some '\n' :=
      Block.head?_ne_newline (unbroken_header field) (header_ne_nil field) starts
    rwa [List.append_nil] at notFeed
  case isFalse => exact endsBefore_append_lineEnding text own

/-- A field that is opened at the end of a manifest without it is found there. -/
theorem find?_append_field {start own : Text}
    (absent : Block.find? field.header start.lines = none) (ends : EndsBefore start own)
    (fieldText : IsFieldText field.header own) :
    ∃ block, Block.find? field.header (start ++ own).lines = some block ∧
      block.before = start.lines ∧ block.after = [] ∧ block.own = own := by
  have found := Block.find?_append_own (unbroken_header field) (header_ne_nil field) absent
    (by rwa [List.append_nil]) fieldText (.inl rfl) (by simp [Text.lines])
  rwa [List.append_nil] at found

/-- The field that an addition opens is found behind the manifest. -/
theorem exists_find?_addEntries_of_absent
    (absent : Block.find? field.header text.lines = none)
    (valid : ∀ name ∈ names, PackageName.isValid name = true)
    (new : unlisted text field names ≠ []) :
    ∃ block, Block.find? field.header (addEntries text field names).lines = some block ∧
      block.own = field.header
        ++ List.intercalate [','] (addedEntries text (unlisted text field names))
        ++ Text.lineEnding text := by
  have validNew := isValid_of_mem_unlisted text field valid
  have flows : ∀ entry ∈ addedEntries text (unlisted text field names), Flows entry :=
    fun _ => flows_of_mem_addedEntries validNew
  have fieldText : IsFieldText field.header _ :=
    isFieldText_intercalate flows (isChain_lineEnding text)
  obtain ⟨block, found, -, -, own⟩ :=
    find?_append_field (find?_completed absent) (endsBefore_completed fieldText.header_in_front)
      fieldText
  rw [← addEntries_of_absent absent new] at found
  exact ⟨block, found, own⟩

theorem declaredNames_addEntries_of_absent
    (absent : Block.find? field.header text.lines = none)
    (valid : ∀ name ∈ names, PackageName.isValid name = true)
    (new : unlisted text field names ≠ []) :
    declaredNames (addEntries text field names) field =
      canonical (declaredNames text field ++ unlisted text field names) := by
  obtain ⟨block, found, own⟩ := exists_find?_addEntries_of_absent absent valid new
  rw [declaredNames_of_find? found, own, List.append_assoc, List.drop_left,
    ← bodyNames_congr (.append_blanks _ (blank_lineEnding text)),
    bodyNames_addedEntries (isValid_of_mem_unlisted text field valid),
    declaredNames_of_absent absent, List.nil_append]

end Absent

/-! ## The characters of an extended manifest -/

section Characters

variable {text : Text} {field : Field} {names : List Text} {c : Char}

/-- Where a character comes from that an addition writes. -/
def AddedFrom (text : Text) (field : Field) (names : List Text) (c : Char) : Prop :=
  c = ',' ∨ c ∈ field.header ∨ c ∈ Text.lineEnding text ∨ c = ' ' ∨ ∃ name ∈ names, c ∈ name

theorem addedFrom_of_mem_addedEntries {entry : Text}
    (member : entry ∈ addedEntries text (unlisted text field names)) (inside : c ∈ entry) :
    AddedFrom text field names c := by
  obtain ⟨name, listed, rfl⟩ := List.mem_map.mp member
  rw [addedEntry, List.mem_append, List.mem_append] at inside
  rcases inside with (broken | indent) | named
  · exact .inr (.inr (.inl broken))
  · exact .inr (.inr (.inr (.inl (by simpa using indent))))
  · exact .inr (.inr (.inr (.inr ⟨name, (mem_unlisted.mp listed).1, named⟩)))

theorem mem_addEntries_of_find? {block : Block}
    (found : Block.find? field.header text.lines = some block)
    (new : unlisted text field names ≠ []) (written : c ∈ addEntries text field names) :
    c ∈ text ∨ AddedFrom text field names c := by
  have own := Block.own_subset found
  rw [Block.own_eq found] at own
  rw [addEntries_of_find? found new] at written
  rcases Block.mem_replaceWith found written with outside | rebuilt
  · exact .inl outside
  · rw [List.mem_append, List.mem_append, List.mem_append] at rebuilt
    rcases rebuilt with ((header | entries) | closing) | stray
    · exact .inr (.inr (.inl header))
    · rcases Text.mem_of_mem_intercalate entries with comma | ⟨entry, listed, inside⟩
      · exact .inr (.inl (List.mem_singleton.mp comma))
      · rcases List.mem_append.mp listed with old | added
        · have body := mem_of_mem_splitEntries (List.mem_of_mem_filter old) inside
          exact .inl (own (by simp [body]))
        · exact .inr (addedFrom_of_mem_addedEntries added inside)
    · rw [Block.closing] at closing
      split at closing
      · exact .inr (.inr (.inr (.inl closing)))
      · exact .inl (own (by simp [closing]))
    · exact .inl (Block.strayText_subset found stray)

theorem mem_addEntries_of_absent (absent : Block.find? field.header text.lines = none)
    (new : unlisted text field names ≠ []) (written : c ∈ addEntries text field names) :
    c ∈ text ∨ AddedFrom text field names c := by
  rw [addEntries_of_absent absent new] at written
  rw [completed, List.mem_append, List.mem_append, List.mem_append] at written
  rcases written with start | (header | entries) | ending
  · split at start
    · exact .inl start
    · exact (List.mem_append.mp start).imp_right fun broken => .inr (.inr (.inl broken))
  · exact .inr (.inr (.inl header))
  · rcases Text.mem_of_mem_intercalate entries with comma | ⟨entry, listed, inside⟩
    · exact .inr (.inl (List.mem_singleton.mp comma))
    · exact .inr (addedFrom_of_mem_addedEntries listed inside)
  · exact .inr (.inr (.inr (.inl ending)))

/-- An addition writes characters of the manifest, of the names and of what it puts around
them. -/
theorem mem_addEntries (written : c ∈ addEntries text field names) :
    c ∈ text ∨ AddedFrom text field names c := by
  by_cases new : unlisted text field names = []
  · rw [addEntries_of_unlisted_eq_nil new] at written
    exact .inl written
  · cases found : Block.find? field.header text.lines with
    | none => exact mem_addEntries_of_absent found new written
    | some block => exact mem_addEntries_of_find? found new written

end Characters

/-! ## What is declared afterwards -/

section Declared

variable {text : Text} {field : Field} {names : List Text}

theorem declaredNames_addEntries_unlisted
    (valid : ∀ name ∈ names, PackageName.isValid name = true)
    (apart : KeepsStrayApart text field) :
    declaredNames (addEntries text field names) field =
      canonical (declaredNames text field ++ unlisted text field names) := by
  by_cases new : unlisted text field names = []
  · rw [addEntries_of_unlisted_eq_nil new, new, List.append_nil, canonical_declaredNames]
  · cases found : Block.find? field.header text.lines with
    | none => exact declaredNames_addEntries_of_absent found valid new
    | some block => exact declaredNames_addEntries_of_find? found valid apart new

/-- The names that an addition to a manifest adds. -/
def addedNames (names : List Text) (text : Text) : List Text :=
  without (canonical names) (declaredNames text .required)

/-- The manifest that an addition leaves. -/
def extended (names : List Text) (text : Text) : Text :=
  addEntries text .required (addedNames names text)

theorem extended_of_addedNames_eq_nil (none : addedNames names text = []) :
    extended names text = text := by
  rw [extended, none, addEntries_nil]

theorem return_not_mem_extended (plain : ∀ name ∈ names, '\r' ∉ name) (absent : '\r' ∉ text) :
    '\r' ∉ extended names text := by
  intro written
  rcases mem_addEntries written with old | comma | header | broken | indent | ⟨name, added, inside⟩
  · exact absent old
  · exact absurd comma (by decide)
  · exact absurd header (by decide)
  · rw [Text.lineEnding_of_return_not_mem absent] at broken
    exact absurd broken (by decide)
  · exact absurd indent (by decide)
  · rw [addedNames, mem_without, mem_canonical] at added
    exact plain name added.1 inside

/-- An extended manifest declares the added names, too. -/
theorem declaredNames_extended (valid : ∀ name ∈ names, PackageName.isValid name = true)
    (apart : addedNames names text = [] ∨ KeepsStrayApart text .required) :
    declaredNames (extended names text) .required =
      canonical (declaredNames text .required ++ addedNames names text) := by
  rcases apart with none | apart
  · rw [extended_of_addedNames_eq_nil none, none, List.append_nil, canonical_declaredNames]
  · have validAdded : ∀ name ∈ addedNames names text, PackageName.isValid name = true := by
      intro name added
      rw [addedNames, mem_without, mem_canonical] at added
      exact valid name added.1
    rw [extended, declaredNames_addEntries_unlisted validAdded apart,
      canonical_declaredNames_append_unlisted validAdded]

end Declared

/-- An addition declares the names that are asked for besides those that were declared,
and no others, as long as stray lines stay apart. -/
theorem declaredNames_addEntries (text : Text) (field : Field) (names : List Text)
    (valid : ∀ name ∈ names, PackageName.isValid name = true)
    (apart : KeepsStrayApart text field) :
    declaredNames (addEntries text field names) field =
      canonical (declaredNames text field ++ names) := by
  rw [declaredNames_addEntries_unlisted valid apart, canonical_declaredNames_append_unlisted valid]

/-- A field with a stray line, an open parenthesis and a comma at its end. -/
theorem declaredNames_addEntries_beside_stray_line :
    (∀ name ∈ ([("purrr" : Text)] : List Text), PackageName.isValid name = true) ∧
      KeepsStrayApart "Imports: dplyr,\nfoo\n    tidyr (>= 1.0,\n" .required ∧
      declaredNames (addEntries "Imports: dplyr,\nfoo\n    tidyr (>= 1.0,\n" .required ["purrr"])
          .required =
        canonical (declaredNames "Imports: dplyr,\nfoo\n    tidyr (>= 1.0,\n" .required
          ++ [("purrr" : Text)]) := by
  have valid : ∀ name ∈ ([("purrr" : Text)] : List Text), PackageName.isValid name = true := by
    decide
  have apart : KeepsStrayApart "Imports: dplyr,\nfoo\n    tidyr (>= 1.0,\n" .required :=
    keepsStrayApart_of_ended (by simp [Text.isLineBreak])
  exact ⟨valid, apart, declaredNames_addEntries _ _ _ valid apart⟩

/-- Behind a stray line, a last line continues the field and ends in blanks: what is added
becomes part of another name. -/
theorem addEntries_glues_stray_line :
    PackageName.isValid "purrr" = true ∧
      declaredNames (addEntries "Imports: dplyr,\nfoo\n    tidyr  " .required ["purrr"])
        .required = ["dplyr", "purrr foo", "tidyr"] := by
  decide +kernel

end DependencyGate.Manifest

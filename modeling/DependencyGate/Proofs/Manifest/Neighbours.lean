/-
# Neighbouring fields

A field ends where a line starts with an uppercase character, whatever else a line may
open. So in a manifest that is one field after another, a field reaches over its
neighbours whose names start with a lowercase letter, up to the next one that starts with
an uppercase letter. The lines that open such neighbours are stray and stay, but the lines
that continue them are read and edited as lines of the field (`neighbours_survive`).
All other fields keep their lines.
-/

import DependencyGate.Proofs.Manifest.Addition
import DependencyGate.Proofs.Manifest.Pruning
import Mathlib.Data.List.Infix

namespace DependencyGate.Manifest

open Text (isLineBreak EndsBefore lines)

/-! ## Manifests written as fields -/

/-- A field as it is written: a line with its name, a colon and what follows, and any
number of lines that start with a space or a tab. -/
structure WrittenField where
  name : Text
  value : Text
  ending : Text
  continuation : List Line
  name_starts : ∃ c ∈ name.head?, c.isAlpha = true
  name_alphanumeric : ∀ c ∈ name, c.isAlphanum = true
  opening_terminated : (⟨name ++ ':' :: value, ending⟩ : Line).IsTerminated
  continuation_terminated : ∀ line ∈ continuation, line.IsTerminated
  continuation_indented : ∀ line ∈ continuation, ∃ c ∈ line.body.head?, c = ' ' ∨ c = '\t'

namespace WrittenField

/-- The line that opens the field. -/
def opening (field : WrittenField) : Line := ⟨field.name ++ ':' :: field.value, field.ending⟩

def lines (field : WrittenField) : List Line := field.opening :: field.continuation

/-- Whether the name starts with an uppercase letter. -/
def isCapitalized (field : WrittenField) : Bool := field.name.head?.any Text.isUppercase

/-- The field with the lines behind its own that continue others. -/
def continuedBy (field : WrittenField) (others : List WrittenField) : WrittenField where
  name := field.name
  value := field.value
  ending := field.ending
  continuation := field.continuation ++ others.flatMap continuation
  name_starts := field.name_starts
  name_alphanumeric := field.name_alphanumeric
  opening_terminated := field.opening_terminated
  continuation_terminated := by
    intro line listed
    rcases List.mem_append.mp listed with own | foreign
    · exact field.continuation_terminated line own
    · obtain ⟨other, _, inside⟩ := List.mem_flatMap.mp foreign
      exact other.continuation_terminated line inside
  continuation_indented := by
    intro line listed
    rcases List.mem_append.mp listed with own | foreign
    · exact field.continuation_indented line own
    · obtain ⟨other, _, inside⟩ := List.mem_flatMap.mp foreign
      exact other.continuation_indented line inside

end WrittenField

/-- The text of a manifest that is one field after another. -/
def written (fields : List WrittenField) : Text :=
  (fields.flatMap WrittenField.lines).flatMap Line.full

/-- The fields behind the first one of a name, up to the next capitalized one. -/
def overrun (field : Field) (fields : List WrittenField) : List WrittenField :=
  (fields.dropWhile (·.name ≠ field.name)).tail.takeWhile (!·.isCapitalized)

/-- What is read of a manifest for a field: its lines and those that continue the fields it
reaches over. -/
def readFor (field : Field) (fields : List WrittenField) : List WrittenField :=
  match fields.dropWhile (·.name ≠ field.name) with
  | [] => []
  | own :: _ => [own.continuedBy (overrun field fields)]

/-! ## Classes of written lines -/

section Classes

variable {written : WrittenField} {field : Field} {line : Line}

theorem WrittenField.terminated_of_mem (listed : line ∈ written.lines) : line.IsTerminated := by
  rcases List.mem_cons.mp listed with rfl | inside
  · exact written.opening_terminated
  · exact written.continuation_terminated line inside

/-- A line that opens a written field starts with a letter. -/
theorem head?_opening (written : WrittenField) :
    ∃ c, written.opening.full.head? = some c ∧ c.isAlpha = true ∧ written.name.head? = some c := by
  obtain ⟨c, first, letter⟩ := written.name_starts
  obtain ⟨others, spelled⟩ := List.head?_eq_some_iff.mp (Option.mem_def.mp first)
  exact ⟨c, by simp [WrittenField.opening, Line.full, spelled], letter, first⟩

theorem opensField_opening : opensField written.opening.full = written.isCapitalized := by
  obtain ⟨c, first, -, same⟩ := head?_opening written
  rw [opensField, WrittenField.isCapitalized, first, same]

theorem isSound_opening (written : WrittenField) : written.opening.IsSound :=
  Text.isSound_of_terminated written.opening_terminated

theorem continuesField_opening : continuesField written.opening.full = false := by
  obtain ⟨c, first, letter, -⟩ := head?_opening written
  have visible : Text.isBlank c = false := PackageName.isBlank_of_isNameChar
    (by simp [PackageName.isNameChar, Char.isAlphanum, letter])
  rw [← Bool.not_eq_true, continuesField_full_iff (isSound_opening written)]
  intro continues
  simp [(continues c first).1] at visible

theorem colon_not_mem_name (written : WrittenField) : ':' ∉ written.name := by
  intro listed
  exact absurd (written.name_alphanumeric ':' listed) (by decide)

/-- A written field is opened by the header of a name exactly if it has that name. -/
theorem isPrefixOf_opening_iff :
    field.header.isPrefixOf written.opening.full = true ↔ written.name = field.name := by
  have upToColon {name : Text} (plain : ':' ∉ name) (behind : Text) :
      (name ++ ':' :: behind).takeWhile (· ≠ ':') = name := by
    rw [List.takeWhile_append_of_pos fun c listed => by
      simpa using ne_of_mem_of_not_mem listed plain]
    simp
  have plain : ':' ∉ field.name := by cases field <;> decide
  rw [List.isPrefixOf_iff_prefix, WrittenField.opening, Line.full, Field.header]
  constructor
  · rintro ⟨rest, spelled⟩
    have names := congrArg (List.takeWhile (· ≠ ':')) spelled
    rw [List.append_assoc, List.append_assoc, List.cons_append, List.cons_append, upToColon plain,
      upToColon (colon_not_mem_name written)] at names
    exact names.symm
  · intro same
    exact ⟨written.value ++ written.ending, by simp [same]⟩

/-- A line that continues a written field starts with a blank that continues fields. -/
theorem head?_of_mem_continuation (listed : line ∈ written.continuation) :
    ∃ c, line.body.head? = some c ∧ line.full.head? = some c ∧ ContinuesAt c := by
  obtain ⟨c, first, indents⟩ := written.continuation_indented line listed
  obtain ⟨others, spelled⟩ := List.head?_eq_some_iff.mp (Option.mem_def.mp first)
  refine ⟨c, first, by simp [Line.full, spelled], ?_⟩
  rcases indents with rfl | rfl <;> simp [ContinuesAt, Text.isBlank]

theorem continuesField_of_mem_continuation (listed : line ∈ written.continuation) :
    continuesField line.full = true := by
  obtain ⟨c, -, first, continues⟩ := head?_of_mem_continuation listed
  rw [continuesField_full_iff (Text.isSound_of_terminated
    (written.continuation_terminated line listed)), first]
  rintro _ ⟨⟩
  exact continues

theorem continuesField_body_of_mem_continuation (listed : line ∈ written.continuation) :
    continuesField line.body = true := by
  obtain ⟨c, first, -⟩ := head?_of_mem_continuation listed
  rw [continuesField_body (Text.isSound_of_terminated
    (written.continuation_terminated line listed)), continuesField_of_mem_continuation listed]
  cases body : line.body with
  | nil => simp [body] at first
  | cons => rfl

theorem opensField_of_mem_continuation (listed : line ∈ written.continuation) :
    opensField line.full = false :=
  not_opensField_of_continuesField (continuesField_of_mem_continuation listed)

/-- A line opens a field that is looked for only if it opens some field. -/
theorem opensField_header (opens : field.header.isPrefixOf line.full = true) :
    opensField line.full = true := by
  obtain ⟨rest, spelled⟩ := List.isPrefixOf_iff_prefix.mp opens
  rw [← spelled]
  cases field <;> exact rfl

/-- The lines of a written field with another name do not open the field. -/
theorem not_isPrefixOf_of_mem_lines (other : written.name ≠ field.name)
    (listed : line ∈ written.lines) : field.header.isPrefixOf line.full = false := by
  rw [← Bool.not_eq_true]
  intro opens
  rcases List.mem_cons.mp listed with rfl | inside
  · exact other (isPrefixOf_opening_iff.mp opens)
  · simpa [opensField_of_mem_continuation inside] using opensField_header opens

end Classes

/-! ## The block of a written field -/

theorem lines_written (fields : List WrittenField) :
    (written fields).lines = fields.flatMap WrittenField.lines := by
  apply Text.lines_flatMap_full_of_terminated
  intro line listed
  obtain ⟨other, -, inside⟩ := List.mem_flatMap.mp listed
  exact WrittenField.terminated_of_mem inside

/-- Where the first field of a name lies among others. -/
structure Lies (field : Field) (fields front : List WrittenField) (own : WrittenField)
    (behind : List WrittenField) : Prop where
  fields_eq : fields = front ++ own :: behind
  front_other : ∀ other ∈ front, other.name ≠ field.name
  own_name : own.name = field.name

theorem exists_lies (field : Field) (fields : List WrittenField) :
    (∀ other ∈ fields, other.name ≠ field.name) ∨
      ∃ front own behind, Lies field fields front own behind := by
  induction fields with
  | nil => exact .inl (by simp)
  | cons first fields ih =>
      by_cases named : first.name = field.name
      · exact .inr ⟨[], first, fields, rfl, by simp, named⟩
      · rcases ih with none | ⟨front, own, behind, lies⟩
        · exact .inl (List.forall_mem_cons.mpr ⟨named, none⟩)
        · exact .inr ⟨first :: front, own, behind, by simp [lies.fields_eq],
            List.forall_mem_cons.mpr ⟨named, lies.front_other⟩, lies.own_name⟩

theorem Lies.dropWhile_eq {field : Field} {fields front behind : List WrittenField}
    {own : WrittenField} (lies : Lies field fields front own behind) :
    fields.dropWhile (·.name ≠ field.name) = own :: behind := by
  rw [lies.fields_eq, List.dropWhile_append_of_pos fun other listed => by
    simpa using lies.front_other other listed]
  simp [lies.own_name]

theorem find?_written_of_absent {field : Field} {fields : List WrittenField}
    (absent : ∀ other ∈ fields, other.name ≠ field.name) :
    Block.find? field.header (written fields).lines = none := by
  rw [lines_written, Block.find?_eq_none_iff]
  intro line listed
  obtain ⟨other, among, inside⟩ := List.mem_flatMap.mp listed
  exact not_isPrefixOf_of_mem_lines (absent other among) inside

section Lying

variable {field : Field} {fields front behind : List WrittenField} {own : WrittenField}

/-- The block of a written field: it reaches up to the next capitalized one. -/
def writtenBlock (front : List WrittenField) (own : WrittenField) (behind : List WrittenField) :
    Block where
  before := front.flatMap WrittenField.lines
  opening := own.opening
  inner := own.continuation
    ++ (behind.takeWhile (!·.isCapitalized)).flatMap WrittenField.lines
  after := (behind.dropWhile (!·.isCapitalized)).flatMap WrittenField.lines

theorem find?_written (lies : Lies field fields front own behind) :
    Block.find? field.header (written fields).lines = some (writtenBlock front own behind) := by
  rw [lines_written, Block.find?_eq_some_iff]
  constructor
  · show fields.flatMap WrittenField.lines = front.flatMap WrittenField.lines ++ own.opening ::
      (own.continuation ++ (behind.takeWhile (!·.isCapitalized)).flatMap WrittenField.lines ++
        (behind.dropWhile (!·.isCapitalized)).flatMap WrittenField.lines)
    rw [List.append_assoc, ← List.flatMap_append, List.takeWhile_append_dropWhile, lies.fields_eq,
      List.flatMap_append, List.flatMap_cons]
    rfl
  · intro line listed
    obtain ⟨other, among, inside⟩ := List.mem_flatMap.mp listed
    exact not_isPrefixOf_of_mem_lines (lies.front_other other among) inside
  · exact isPrefixOf_opening_iff.mpr lies.own_name
  · intro line listed
    rcases List.mem_append.mp listed with mine | foreign
    · exact opensField_of_mem_continuation mine
    · obtain ⟨other, among, inside⟩ := List.mem_flatMap.mp foreign
      rcases List.mem_cons.mp inside with rfl | continuing
      · simpa [opensField_opening] using List.mem_takeWhile_imp among
      · exact opensField_of_mem_continuation continuing
  · intro line first
    have stopped := List.head?_dropWhile_not (fun other => !other.isCapitalized) behind
    simp only [writtenBlock] at first
    cases after : behind.dropWhile (!·.isCapitalized) with
    | nil => simp [after] at first
    | cons next others =>
        obtain rfl : next.opening = line := by simpa [after, WrittenField.lines] using first
        rw [after] at stopped
        simpa [opensField_opening] using stopped

/-! ## What is read -/

theorem filter_continuation (other : WrittenField) :
    (other.continuation.map Line.body).filter continuesField =
      other.continuation.map Line.body := by
  rw [List.filter_eq_self]
  intro body listed
  obtain ⟨line, inside, rfl⟩ := List.mem_map.mp listed
  exact continuesField_body_of_mem_continuation inside

/-- Of the fields that a field reaches over, the lines are read that continue them. -/
theorem filter_continues_lines (others : List WrittenField) :
    ((others.flatMap WrittenField.lines).map Line.body).filter continuesField =
      (others.flatMap WrittenField.continuation).map Line.body := by
  induction others with
  | nil => rfl
  | cons other others ih =>
      have opening : continuesField other.opening.body = false := by
        rw [continuesField_body (isSound_opening other), continuesField_opening, Bool.false_and]
      rw [List.flatMap_cons, List.flatMap_cons, List.map_append, List.map_append,
        List.filter_append, ih, WrittenField.lines, List.map_cons, List.filter_cons,
        if_neg (by simp [opening]), filter_continuation]

theorem linesOfField_written (lies : Lies field fields front own behind) :
    linesOfField field.header ((written fields).lines.map Line.body) =
      own.opening.body :: (own.continuation
        ++ (behind.takeWhile (!·.isCapitalized)).flatMap WrittenField.continuation).map
          Line.body := by
  rw [linesOfField_map_body (unbroken_header field) fun _ => Text.isSound_of_mem_lines,
    find?_written lies]
  simp only [writtenBlock, List.map_append, List.filter_append, filter_continuation,
    filter_continues_lines]

end Lying

/-- A written field is read as if the lines that continue the fields it reaches over were
its own, and as if there were no other fields. -/
theorem declaredNames_written (field : Field) (fields : List WrittenField) :
    declaredNames (written fields) field =
      declaredNames (written (readFor field fields)) field := by
  rcases exists_lies field fields with absent | ⟨front, own, behind, lies⟩
  · have none : fields.dropWhile (·.name ≠ field.name) = [] :=
      List.dropWhile_eq_nil_iff.mpr fun other listed => by simpa using absent other listed
    rw [readFor, none, declaredNames_of_absent (find?_written_of_absent absent)]
    exact (declaredNames_of_absent rfl).symm
  · have reached : overrun field fields = behind.takeWhile (!·.isCapitalized) := by
      rw [overrun, lies.dropWhile_eq]
      rfl
    have alone : Lies field [own.continuedBy (overrun field fields)] []
        (own.continuedBy (overrun field fields)) [] := ⟨rfl, by simp, lies.own_name⟩
    have same : linesOfField field.header ((written fields).lines.map Line.body) =
        linesOfField field.header
          ((written [own.continuedBy (overrun field fields)]).lines.map Line.body) := by
      rw [linesOfField_written lies, linesOfField_written alone, ← reached]
      simp [WrittenField.continuedBy, WrittenField.opening]
    rw [readFor, lies.dropWhile_eq, declaredNames, declaredNames, same]

/-! ## What is edited -/

section Terminated

variable {text : Text} {field : Field} {block : Block} {names : List Text}
  (found : Block.find? field.header text.lines = some block)
  (terminated : ∀ line ∈ text.lines, line.IsTerminated)

include found terminated

theorem terminated_of_mem_block {line : Line} (listed : line ∈ block.opening :: block.inner) :
    line.IsTerminated :=
  terminated _ (Block.mem_of_mem_block found listed)

theorem getLast?_tail_of_terminated : (block.tail field.header).getLast? = some '\n' := by
  apply getLast?_tail_of_own_terminated found
  intro line listed
  apply terminated_of_mem_block found terminated
  exact List.cons_subset_cons _ (List.filter_subset_self _) listed

/-- The lines of a manifest in which a block has been replaced, its stray lines apart. -/
theorem lines_replaceWith_of_terminated {own : Text} (starts : field.header <+: own)
    (last : own.getLast? = some '\n') :
    (block.replaceWith (own ++ block.strayText)).lines =
      block.before ++ (own.lines ++ (block.stray ++ block.after)) := by
  have stray : block.strayText.lines = block.stray :=
    Text.lines_flatMap_full_of_terminated fun line listed =>
      terminated_of_mem_block found terminated
        (List.mem_cons_of_mem _ (List.mem_of_mem_filter listed))
  have strayEnds := Block.strayText_endsBefore_afterText found
  rw [Block.replaceWith, List.append_assoc, List.append_assoc,
    Text.lines_append (Block.endsBefore_beforeText (unbroken_header field) (header_ne_nil field)
      found starts _),
    Text.lines_append (Text.endsBefore_of_getLast? last _), Text.lines_append strayEnds, stray,
    Block.lines_afterText found,
    Block.lines_beforeText (unbroken_header field) (header_ne_nil field) found]

/-- What an addition writes if it writes anything. -/
theorem addEntries_of_terminated (new : unlisted text field names ≠ []) :
    ∃ own, field.header <+: own ∧ own.getLast? = some '\n' ∧
      addEntries text field names = block.replaceWith (own ++ block.strayText) := by
  have last := getLast?_tail_of_terminated found terminated
  have present : block.tail field.header ≠ [] := by
    intro none
    simp [none] at last
  refine ⟨_, ?_, ?_, addEntries_of_find? found new⟩
  · rw [List.append_assoc]
    exact List.prefix_append _ _
  · rw [Block.closing, if_neg (by simpa using present),
      List.getLast?_append_of_ne_nil _ present, last]

end Terminated

/-- What a removal writes if it writes anything. -/
theorem removeEntries_of_terminated {text : Text} {block : Block}
    (found : Block.find? Field.required.header text.lines = some block)
    (terminated : ∀ line ∈ text.lines, line.IsTerminated) (names : List Text) :
    (removeEntries text names).1 = text ∨
      ∃ own, Field.required.header <+: own ∧ own.getLast? = some '\n' ∧
        (removeEntries text names).1 = block.replaceWith (own ++ block.strayText) := by
  have last := getLast?_tail_of_terminated found terminated
  have present : block.tail Field.required.header ≠ [] := by
    intro none
    simp [none] at last
  rw [removeEntries_of_find? found]
  split
  case isTrue => exact .inl rfl
  case isFalse =>
    right
    generalize List.intercalate [','] _ = entries
    have ends : (Field.required.header ++ entries ++ block.tail Field.required.header).getLast? =
        some '\n' := by
      rw [List.getLast?_append_of_ne_nil _ present, last]
    refine ⟨_, ?_, ends, ?_⟩
    · rw [List.append_assoc]
      exact List.prefix_append _ _
    · rw [appendStray_of_ended ends]

/-! ## What becomes of the neighbours -/

section Neighbours

variable {field : Field} {fields front behind : List WrittenField} {own other : WrittenField}

theorem infix_flatMap_lines (listed : other ∈ fields) :
    other.lines <:+: fields.flatMap WrittenField.lines := by
  rw [List.flatMap_def]
  exact List.infix_of_mem_flatten (List.mem_map_of_mem listed)

theorem Lies.overrun_eq (lies : Lies field fields front own behind) :
    overrun field fields = behind.takeWhile (!·.isCapitalized) := by
  rw [overrun, lies.dropWhile_eq]
  rfl

/-- The lines of another field are together before the block, behind it or, if nothing
continues them, among its stray lines. -/
theorem infix_of_lies (lies : Lies field fields front own behind) (listed : other ∈ fields)
    (different : other.name ≠ field.name)
    (short : other ∈ overrun field fields → other.continuation = []) :
    other.lines <:+: (writtenBlock front own behind).before ∨
      other.lines <:+: (writtenBlock front own behind).stray ∨
      other.lines <:+: (writtenBlock front own behind).after := by
  rw [lies.overrun_eq] at short
  rw [lies.fields_eq, List.mem_append, List.mem_cons] at listed
  rcases listed with before | rfl | later
  · exact .inl (infix_flatMap_lines before)
  · exact absurd lies.own_name different
  · rw [← List.takeWhile_append_dropWhile (p := (!·.isCapitalized)) (l := behind),
      List.mem_append] at later
    rcases later with skipped | after
    · have stray : other.opening ∈ (writtenBlock front own behind).stray := by
        have inside : other.opening ∈ (writtenBlock front own behind).inner :=
          List.mem_append_right _ (List.mem_flatMap.mpr ⟨other, skipped, List.mem_cons_self⟩)
        exact List.mem_filter.mpr ⟨inside, by simp [continuesField_opening]⟩
      rw [WrittenField.lines, short skipped, List.singleton_infix_iff, List.singleton_infix_iff]
      exact .inr (.inl stray)
    · exact .inr (.inr (infix_flatMap_lines after))

/-- They are in every text whose lines are those before the block, others, the stray lines
and those behind the block. -/
theorem infix_of_parts {part before middle stray after : List Line}
    (inside : part <:+: before ∨ part <:+: stray ∨ part <:+: after) :
    part <:+: before ++ (middle ++ (stray ++ after)) := by
  rcases inside with inBefore | inStray | inAfter
  · exact inBefore.trans (List.prefix_append _ _).isInfix
  · have behind : stray <:+: middle ++ (stray ++ after) := List.infix_append' _ _ _
    exact (inStray.trans behind).trans (List.suffix_append _ _).isInfix
  · have behind : after <:+ middle ++ (stray ++ after) :=
      (List.suffix_append _ _).trans (List.suffix_append _ _)
    exact (inAfter.trans behind.isInfix).trans (List.suffix_append _ _).isInfix

theorem terminated_written {line : Line} (listed : line ∈ (written fields).lines) :
    line.IsTerminated := by
  rw [lines_written] at listed
  obtain ⟨other, -, inside⟩ := List.mem_flatMap.mp listed
  exact WrittenField.terminated_of_mem inside

theorem infix_written (listed : other ∈ fields) : other.lines <:+: (written fields).lines := by
  rw [lines_written]
  exact infix_flatMap_lines listed

/-- A field that is added to a manifest comes behind all others. -/
theorem infix_addEntries_of_absent (absent : ∀ other ∈ fields, other.name ≠ field.name)
    {names : List Text} (new : unlisted (written fields) field names ≠ [])
    (listed : other ∈ fields) :
    other.lines <:+: (addEntries (written fields) field names).lines := by
  have last : (written fields).getLast? = some '\n' := by
    apply Text.getLast?_flatMap_full_of_terminated
    · intro line inside
      rw [← lines_written] at inside
      exact terminated_written inside
    · intro none
      exact List.cons_ne_nil _ _ (List.flatMap_eq_nil_iff.mp none other listed)
  have whole : completed (written fields) (Text.lineEnding (written fields)) = written fields := by
    rw [completed, if_pos (by simp [Text.endsLine, last])]
  rw [addEntries_of_absent (find?_written_of_absent absent) new, whole,
    Text.lines_append (Text.endsBefore_of_getLast? last _)]
  exact (infix_written listed).trans (List.prefix_append _ _).isInfix

theorem infix_addEntries (listed : other ∈ fields) (different : other.name ≠ field.name)
    (short : other ∈ overrun field fields → other.continuation = []) (names : List Text) :
    other.lines <:+: (addEntries (written fields) field names).lines := by
  by_cases new : unlisted (written fields) field names = []
  · rw [addEntries_of_unlisted_eq_nil new]
    exact infix_written listed
  · rcases exists_lies field fields with absent | ⟨front, own, behind, lies⟩
    · exact infix_addEntries_of_absent absent new listed
    · obtain ⟨rebuilt, starts, last, equal⟩ := addEntries_of_terminated (find?_written lies)
        (fun _ => terminated_written) new
      rw [equal, lines_replaceWith_of_terminated (find?_written lies)
        (fun _ => terminated_written) starts last]
      exact infix_of_parts (infix_of_lies lies listed different short)

theorem infix_removeEntries (listed : other ∈ fields)
    (different : other.name ≠ Field.required.name)
    (short : other ∈ overrun .required fields → other.continuation = []) (names : List Text) :
    other.lines <:+: (removeEntries (written fields) names).1.lines := by
  rcases exists_lies .required fields with absent | ⟨front, own, behind, lies⟩
  · rw [removeEntries, find?_written_of_absent absent]
    exact infix_written listed
  · rcases removeEntries_of_terminated (find?_written lies) (fun _ => terminated_written) names with
      same | ⟨rebuilt, starts, last, equal⟩
    · rw [same]
      exact infix_written listed
    · rw [equal, lines_replaceWith_of_terminated (find?_written lies)
        (fun _ => terminated_written) starts last]
      exact infix_of_parts (infix_of_lies lies listed different short)

theorem infix_prune (listed : other ∈ fields) (different : other.name ≠ Field.required.name)
    (short : other ∈ overrun .required fields → other.continuation = [])
    (declared used kept : List Text) :
    other.lines <:+: (prune (written fields) declared used kept).lines := by
  rw [prune]
  split
  · exact infix_written listed
  · exact infix_removeEntries listed different short _

end Neighbours

/-- Neighbouring fields survive. In a manifest that is one field after another, what is
declared in a field depends on its own lines and on those that continue the fields it reaches
over, which have no capital. Edits of the field keep the lines of every other field together
and unchanged, unless it is one that the field reaches over and that is continued. -/
theorem neighbours_survive (field : Field) (fields : List WrittenField) :
    declaredNames (written fields) field =
        declaredNames (written (readFor field fields)) field ∧
      ∀ other ∈ fields, other.name ≠ field.name →
        (other ∈ overrun field fields → other.continuation = []) →
        (∀ names, other.lines <:+: (addEntries (written fields) field names).lines) ∧
          (field = .required → ∀ declared used kept,
            other.lines <:+: (prune (written fields) declared used kept).lines) := by
  refine ⟨declaredNames_written field fields, ?_⟩
  intro other listed different short
  refine ⟨infix_addEntries listed different short, ?_⟩
  rintro rfl
  exact infix_prune listed different short

/-- A required field with one name and a comma at its end. -/
def smallImports : WrittenField where
  name := "Imports"
  value := " dplyr,"
  ending := ['\n']
  continuation := []
  name_starts := ⟨'I', rfl, rfl⟩
  name_alphanumeric := List.all_eq_true.mp rfl
  opening_terminated := ⟨Text.unbroken_of_all rfl, .inl rfl⟩
  continuation_terminated := by simp
  continuation_indented := by simp

/-- A continued field without a capital. -/
def smallViews : WrittenField where
  name := "biocViews"
  value := " Genetics,"
  ending := ['\n']
  continuation := [⟨"    Software", ['\n']⟩]
  name_starts := ⟨'b', rfl, rfl⟩
  name_alphanumeric := List.all_eq_true.mp rfl
  opening_terminated := ⟨Text.unbroken_of_all rfl, .inl rfl⟩
  continuation_terminated := by
    intro line listed
    rw [List.mem_singleton.mp listed]
    exact ⟨Text.unbroken_of_all rfl, .inl rfl⟩
  continuation_indented := by
    intro line listed
    rw [List.mem_singleton.mp listed]
    exact ⟨' ', rfl, .inl rfl⟩

/-- In front of the required field, the continued field keeps its lines. -/
theorem smallViews_survive_in_front :
    smallViews ∈ [smallViews, smallImports] ∧ smallViews.name ≠ Field.required.name ∧
      (smallViews ∈ overrun .required [smallViews, smallImports] →
        smallViews.continuation = []) ∧
      prune (written [smallViews, smallImports]) [("dplyr" : Text)] [] [] ≠
        written [smallViews, smallImports] ∧
      smallViews.lines <:+:
        (prune (written [smallViews, smallImports]) [("dplyr" : Text)] [] []).lines := by
  have different : smallViews.name ≠ Field.required.name := by decide
  have short : smallViews ∈ overrun .required [smallViews, smallImports] →
      smallViews.continuation = [] := by
    have none : overrun .required [smallViews, smallImports] = [] := by
      rw [overrun, List.dropWhile_cons_of_pos (by decide), List.dropWhile_cons_of_neg (by decide)]
      rfl
    simp [none]
  have kept := (neighbours_survive .required [smallViews, smallImports]).2 smallViews
    List.mem_cons_self different short
  exact ⟨List.mem_cons_self, different, short, by decide +kernel, kept.2 rfl _ _ _⟩

/-- Behind the required field, the line that continues the field is read as another name, which
pruning removes. -/
theorem smallViews_do_not_survive_behind :
    declaredNames (written [smallImports]) .required = ["dplyr"] ∧
      declaredNames (written [smallImports, smallViews]) .required = ["Software", "dplyr"] ∧
      ¬ smallViews.lines <:+: (prune (written [smallImports, smallViews])
        [("Software" : Text), ("dplyr" : Text)] [("dplyr" : Text)] []).lines := by
  decide +kernel

end DependencyGate.Manifest

/-
# Reading any layout

A list of packages can be laid out in many ways: blanks stand around names, constraints and
commas, a constraint holds commas and reaches over lines, entries are empty or come twice, and
every break of the body is followed by an indented line. A reader joins the lines, deletes the
constraints and divides the rest, and finds the names that were written, whatever the layout
(`declaredNames_layout`). The field may stand anywhere between lines that do not open it and a
line that opens another one.
-/

import DependencyGate.Proofs.Manifest.Joining
import DependencyGate.Proofs.PackageName

namespace DependencyGate.Manifest

open Text (isLineBreak Blank EndsBefore lines)

/-! ## Entries as they are written -/

/-- A name as it is written: among blanks, and perhaps with a constraint behind it. -/
structure WrittenName where
  front : Text
  name : Text
  gap : Text
  constraint : Option Text
  back : Text
  front_blank : Blank front
  name_valid : PackageName.isValid name = true
  gap_blank : Blank gap
  constraint_plain : ∀ inside ∈ constraint, '(' ∉ inside ∧ ')' ∉ inside
  back_blank : Blank back

/-- An entry as it is written; it may be empty but for blanks. -/
inductive WrittenEntry
  | empty (gap : Text) (gap_blank : Blank gap)
  | named (written : WrittenName)

/-- A constraint in its parentheses. -/
def constraintText : Option Text → Text
  | none => []
  | some inside => '(' :: inside ++ [')']

def WrittenName.text (written : WrittenName) : Text :=
  written.front ++ written.name ++ written.gap ++ constraintText written.constraint ++ written.back

namespace WrittenEntry

def text : WrittenEntry → Text
  | empty gap _ => gap
  | named written => written.text

/-- The name in an entry, if it is not empty. -/
def names : WrittenEntry → List Text
  | empty _ _ => []
  | named written => [written.name]

end WrittenEntry

/-- The body of a field with the given entries. -/
def bodyText (entries : List WrittenEntry) : Text :=
  List.intercalate [','] (entries.map WrittenEntry.text)

/-- Whether a text ends the field in front of it: it is empty, or a break and behind it nothing or
a line that starts with an uppercase character. -/
def EndsField (behind : Text) : Prop :=
  behind = [] ∨ ∃ ending rest, behind = ending ++ rest ∧ IsEnding ending ∧
    ∀ c ∈ rest.head?, Text.isUppercase c = true

/-! ## Reading entries -/

section Name

variable (written : WrittenName)

theorem WrittenName.plain_name : ∀ c ∈ written.name, c ≠ '(' ∧ c ≠ ')' ∧ c ≠ ',' :=
  PackageName.plain_of_isNameChar (PackageName.isNameChar_of_mem written.name_valid)

/-- A constraint closes the parenthesis that it opens. -/
theorem depthAfter?_constraintText :
    depthAfter? 0 (constraintText written.constraint) = some 0 := by
  cases found : written.constraint with
  | none => rfl
  | some inside =>
      have plain := written.constraint_plain inside found
      rw [constraintText, List.cons_append, depthAfter?, if_pos rfl, depthAfter?_append,
        depthAfter?_of_opened (by omega) plain]
      rfl

theorem WrittenName.depthAfter?_text : depthAfter? 0 written.text = some 0 := by
  simp only [WrittenName.text, depthAfter?_append, depthAfter?_of_blank _ written.front_blank,
    depthAfter?_of_plain _ written.plain_name, depthAfter?_of_blank _ written.gap_blank,
    depthAfter?_constraintText, depthAfter?_of_blank _ written.back_blank, Option.bind_some]

/-- Of a constraint nothing is left. -/
theorem stripConstraints_constraintText_append :
    stripConstraints (constraintText written.constraint ++ written.back) = written.back := by
  have unclosing : ')' ∉ written.back := (parentheses_not_mem_of_blank written.back_blank).2
  cases found : written.constraint with
  | none => exact stripConstraints_of_unclosing unclosing
  | some inside =>
      have plain := written.constraint_plain inside found
      have closed : ')' ∈ inside ++ ')' :: written.back := by simp
      rw [constraintText, List.cons_append, List.cons_append, List.append_assoc,
        List.singleton_append, stripConstraints, stripConstraintsFrom_cons_opening, if_pos closed,
        stripConstraintsFrom_append_of_plain plain]
      exact stripConstraints_of_unclosing unclosing

theorem WrittenName.stripConstraints_text :
    stripConstraints written.text =
      written.front ++ written.name ++ (written.gap ++ written.back) := by
  have rest := stripConstraints_constraintText_append written
  simp only [WrittenName.text, List.append_assoc]
  rw [stripConstraints,
    stripConstraintsFrom_append_of_plain (parentheses_not_mem_of_blank written.front_blank),
    stripConstraintsFrom_append_of_plain (parentheses_not_mem_of_plain written.plain_name),
    stripConstraintsFrom_append_of_plain (parentheses_not_mem_of_blank written.gap_blank),
    ← stripConstraints, rest]
  rfl

theorem WrittenName.entryName_text : entryName written.text = written.name := by
  rw [entryName, WrittenName.stripConstraints_text,
    Text.trim_collapseBlanks_between written.front_blank
      (Text.blank_append.mpr ⟨written.gap_blank, written.back_blank⟩)]
  intro c listed
  exact PackageName.isBlank_of_isNameChar
    (PackageName.isNameChar_of_mem written.name_valid c listed)

theorem WrittenName.entryNames_text : entryNames written.text = [written.name] := by
  have single : ',' ∉ written.name := fun listed => (written.plain_name _ listed).2.2 rfl
  rw [entryNames_of_single] <;> rw [written.entryName_text]
  · simp [PackageName.ne_nil_of_isValid written.name_valid]
  · exact single

end Name

theorem WrittenEntry.depthAfter?_text (entry : WrittenEntry) :
    depthAfter? 0 entry.text = some 0 := by
  cases entry with
  | empty gap blank => exact depthAfter?_of_blank 0 blank
  | named written => exact written.depthAfter?_text

theorem WrittenEntry.entryNames_text (entry : WrittenEntry) :
    entryNames entry.text = entry.names := by
  cases entry with
  | empty gap blank => exact entryNames_of_blank blank
  | named written => exact written.entryNames_text

/-- A body holds the names that are written in its entries. -/
theorem bodyNames_bodyText (entries : List WrittenEntry) :
    bodyNames (bodyText entries) = entries.flatMap WrittenEntry.names := by
  cases entries with
  | nil => rfl
  | cons first others =>
      have division : IsDivision 0 ((first :: others).map WrittenEntry.text) := by
        apply isDivision_of_depthAfter? (by simp)
        intro entry listed
        obtain ⟨written, -, rfl⟩ := List.mem_map.mp listed
        exact written.depthAfter?_text
      rw [bodyText, bodyNames_intercalate division (List.Sublist.refl _), List.flatMap_map]
      exact List.flatMap_congr fun written _ => written.entryNames_text

/-! ## Reading a field -/

/-- What ends a field is a break that belongs to it, if any, and a text before which the field
ends. -/
theorem EndsField.exists_ending {behind : Text} (ends : EndsField behind) :
    ∃ ending rest, behind = ending ++ rest ∧ Blank ending ∧
      ending.IsChain (Text.StartsLines ContinuesAt) ∧ (∀ front, EndsBefore (front ++ ending) rest) ∧
      ∀ line ∈ rest.lines.head?, opensField line.full = true := by
  rcases ends with rfl | ⟨ending, rest, rfl, sound, upper⟩
  · exact ⟨[], [], rfl, Text.blank_nil, .nil, fun _ => .inl rfl, by simp [Text.lines]⟩
  · refine ⟨ending, rest, rfl,
      fun c listed => Text.isBlank_of_isLineBreak (sound.isLineBreak c listed), ?_, ?_, ?_⟩
    · rcases sound with rfl | ⟨c, -, rfl⟩ <;> simp [Text.StartsLines]
    · intro front
      right
      intro c last
      have present : ending ≠ [] := by
        rcases sound with rfl | ⟨d, -, rfl⟩ <;> simp
      rw [List.getLast?_append_of_ne_nil _ present] at last
      refine ⟨sound.isLineBreak c (List.mem_of_getLast? last), fun _ feed => ?_⟩
      exact absurd (upper '\n' feed) (by simp [strayAt_newline.2])
    · intro line first
      obtain ⟨others, split⟩ := List.head?_eq_some_iff.mp (Option.mem_def.mp first)
      have listed : line ∈ rest.lines := List.mem_of_mem_head? first
      obtain ⟨c, behind, spelled⟩ :=
        List.exists_cons_of_ne_nil (Text.isSound_of_mem_lines listed).full_ne_nil
      have sameStart := Text.head?_full_of_lines_eq_cons split
      rw [opensField_eq_true_iff]
      exact ⟨c, by simp [spelled], upper c (by simp [← sameStart, spelled])⟩

/-- Reading undoes any layout. A field that is written anywhere between complete lines that do
not open it and what ends it declares exactly the names in its entries, as long as each break of
its body is followed by a blank that continues the line. -/
theorem declaredNames_layout (field : Field) (entries : List WrittenEntry) {front behind : Text}
    (complete : ∀ c ∈ front.getLast?, isLineBreak c = true)
    (other : ∀ line ∈ front.lines, field.header.isPrefixOf line.full = false)
    (flows : Flows (bodyText entries)) (ends : EndsField behind) :
    declaredNames (front ++ (field.header ++ bodyText entries ++ behind)) field =
      canonical (entries.flatMap WrittenEntry.names) := by
  obtain ⟨ending, rest, rfl, blank, chain, ownEnds, opens⟩ := ends.exists_ending
  have fieldText : IsFieldText field.header (field.header ++ bodyText entries ++ ending) := by
    simpa using isFieldText_intercalate (List.forall_mem_singleton.mpr flows) chain
  have frontEnds : EndsBefore front (field.header ++ bodyText entries ++ ending ++ rest) :=
    .inr fun c last => ⟨complete c last, fun _ =>
      Block.head?_ne_newline (unbroken_header field) (header_ne_nil field)
        fieldText.header_in_front⟩
  obtain ⟨block, found, -, -, own⟩ := Block.find?_append_own (unbroken_header field)
    (header_ne_nil field) (Block.find?_eq_none_iff.mpr other) frontEnds fieldText (ownEnds _) opens
  rw [← List.append_assoc (field.header ++ bodyText entries), declaredNames_of_find? found, own,
    List.append_assoc, List.drop_left, ← bodyNames_congr (.append_blanks _ blank),
    bodyNames_bodyText]

/-- A name behind a break, with a constraint that holds a comma and reaches over two lines. -/
def constrainedName : WrittenName where
  front := "\n    "
  name := "tidyr"
  gap := "\t"
  constraint := some ">= 1.0,\r  < 2.0"
  back := []
  front_blank := by decide
  name_valid := by decide
  gap_blank := by decide
  constraint_plain := by
    rintro _ ⟨⟩
    decide
  back_blank := by decide

/-- A name in front of a line that holds a tab only. -/
def unconstrainedName : WrittenName where
  front := " "
  name := "dplyr"
  gap := "\r\n\t"
  constraint := none
  back := []
  front_blank := by decide
  name_valid := by decide
  gap_blank := by decide
  constraint_plain := by simp
  back_blank := by decide

/-- Entries with a name twice, an empty entry and a comma at the end. -/
def spreadEntries : List WrittenEntry :=
  [.named constrainedName, .named unconstrainedName, .empty " " (by decide), .named constrainedName,
    .empty [] (by decide)]

/-- The spread entries between the line of the package and another field. -/
theorem declaredNames_spreadEntries :
    (∀ c ∈ ("Package: demo\r\n" : Text).getLast?, isLineBreak c = true) ∧
      (∀ line ∈ lines "Package: demo\r\n",
        Field.required.header.isPrefixOf line.full = false) ∧
      Flows (bodyText spreadEntries) ∧ EndsField "\r\nSuggests: testthat\n" ∧
      declaredNames ("Package: demo\r\n" ++ (Field.required.header ++ bodyText spreadEntries
        ++ "\r\nSuggests: testthat\n")) .required = ["dplyr", "tidyr"] := by
  have complete : ∀ c ∈ ("Package: demo\r\n" : Text).getLast?, isLineBreak c = true := by
    simp [isLineBreak]
  have other : ∀ line ∈ lines "Package: demo\r\n",
      Field.required.header.isPrefixOf line.full = false := by decide
  have flows : Flows (bodyText spreadEntries) := by decide +kernel
  have ends : EndsField "\r\nSuggests: testthat\n" :=
    .inr ⟨['\r', '\n'], "Suggests: testthat\n", rfl, .inl rfl, by
      rintro _ ⟨⟩
      decide +kernel⟩
  refine ⟨complete, other, flows, ends, ?_⟩
  rw [declaredNames_layout .required spreadEntries complete other flows ends]
  decide

end DependencyGate.Manifest

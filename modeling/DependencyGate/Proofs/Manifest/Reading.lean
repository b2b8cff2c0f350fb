/-
# Readers and editors see the same entries

A reader works on the bodies of lines and joins them by spaces; an editor works on
whole lines and keeps their breaks. The two even disagree on some lines: one that is
only a vertical tab continues a field for the editor and is ignored by the reader.
What is left of the difference is the length of blanks, so the names that a reader
declares are those in the editor's entries.
-/

import DependencyGate.Proofs.Canonical
import DependencyGate.Proofs.Manifest.Block
import DependencyGate.Proofs.Manifest.Names

namespace DependencyGate.Manifest

open Text (SpacedAlike Blank isLineBreak)

/-! ## Bodies and whole lines -/

section SoundLine

variable {line : Line}

theorem blank_ending (sound : line.IsSound) : Blank line.ending := by
  rcases sound.ending_sound with equal | ends
  · simp [equal]
  · exact fun c listed => Text.isBlank_of_isLineBreak (ends.isLineBreak c listed)

/-- A line starts with a text without breaks if its body does. -/
theorem isPrefixOf_body {header : Text} (unbroken : ∀ c ∈ header, isLineBreak c = false)
    (sound : line.IsSound) : header.isPrefixOf line.body = header.isPrefixOf line.full := by
  symm
  apply Text.isPrefixOf_append_break unbroken
  intro c first
  rcases sound.ending_sound with equal | ends
  · simp [equal] at first
  · exact ends.isLineBreak c (List.mem_of_mem_head? first)

theorem opensField_body (sound : line.IsSound) :
    opensField line.body = opensField line.full := by
  cases body : line.body with
  | cons c rest => simp [opensField, Line.full, body]
  | nil =>
      have blank := blank_ending sound
      rw [Line.full, body, List.nil_append]
      cases ending : line.ending with
      | nil => rfl
      | cons c rest =>
          rw [ending, Text.blank_cons] at blank
          simp [opensField, Text.isUppercase_of_isBlank blank.1]

/-- A body continues a field if its line does and there is a body at all. -/
theorem continuesField_body (sound : line.IsSound) :
    continuesField line.body = (continuesField line.full && !line.body.isEmpty) := by
  cases body : line.body with
  | nil => simp [continuesField]
  | cons c rest =>
      have unbroken := sound.body_unbroken c (by simp [body])
      have feed : c ≠ '\n' := by rintro rfl; exact absurd unbroken (by decide)
      have carriage : c ≠ '\r' := by rintro rfl; exact absurd unbroken (by decide)
      have visible : (c != '\n' && c != '\r') = true := by simp [feed, carriage]
      simp [continuesField, Line.full, body, visible]

end SoundLine

/-- Every line of a text with another one behind it ends in a break. -/
theorem pairwise_isEnding_lines (text : Text) :
    text.lines.Pairwise fun line _ => IsEnding line.ending := by
  generalize found : text.lines = all
  induction all generalizing text with
  | nil => exact .nil
  | cons line others ih =>
      apply List.pairwise_cons.mpr
      constructor
      · intro next listed
        cases others with
        | nil => simp at listed
        | cons next others => exact Text.isEnding_of_cons_cons found
      · exact ih _ (Text.lines_flatMap_full_of_cons found)

/-! ## The lines of a field -/

theorem unbroken_header (field : Field) : ∀ c ∈ field.header, isLineBreak c = false := by
  cases field <;> exact Text.unbroken_of_all rfl

theorem takeWhile_map_body {lines : List Line} (sound : ∀ line ∈ lines, line.IsSound) :
    (lines.map Line.body).takeWhile (!opensField ·) =
      (lines.takeWhile (!opensField ·.full)).map Line.body := by
  induction lines with
  | nil => rfl
  | cons line rest ih =>
      rw [List.forall_mem_cons] at sound
      rw [List.map_cons, List.takeWhile_cons, List.takeWhile_cons, opensField_body sound.1,
        ih sound.2]
      split <;> rfl

theorem header_ne_nil (field : Field) : field.header ≠ [] := by cases field <;> decide

/-- The reader's lines of a field are the bodies that continue it in its block. -/
theorem linesOfField_map_body {header : Text} (unbroken : ∀ c ∈ header, isLineBreak c = false)
    {lines : List Line} (sound : ∀ line ∈ lines, line.IsSound) :
    linesOfField header (lines.map Line.body) =
      match Block.find? header lines with
      | none => []
      | some block => block.opening.body :: (block.inner.map Line.body).filter continuesField := by
  induction lines with
  | nil => rfl
  | cons line rest ih =>
      rw [List.forall_mem_cons] at sound
      have sameHeader := isPrefixOf_body unbroken sound.1
      by_cases opens : header.isPrefixOf line.full = true
      · have taken : (rest.map Line.body).takeWhile (!opensField ·) =
            (rest.takeWhile (!opensField ·.full)).map Line.body := by
          exact takeWhile_map_body sound.2
        simp [linesOfField, Block.find?, opens, sameHeader, taken]
      · rw [Bool.not_eq_true] at opens
        have skipped : linesOfField header ((line :: rest).map Line.body) =
            linesOfField header (rest.map Line.body) := by
          simp [linesOfField, sameHeader, opens]
        rw [skipped, ih sound.2, Block.find?, if_neg (by simp [opens])]
        cases Block.find? header rest <;> rfl

/-- Joining bodies by spaces and writing whole lines one after another differ in the
length of blanks, behind a gap that is there whenever a line is. -/
theorem spacedAlike_joined {inner : List Line} (sound : ∀ line ∈ inner, line.IsSound)
    (ended : inner.Pairwise fun line _ => IsEnding line.ending) {gap : Text} (blank : Blank gap)
    (present : gap ≠ [] ∨ inner = []) :
    SpacedAlike (((inner.map Line.body).filter continuesField).flatMap (' ' :: ·))
      (gap ++ (inner.filter (continuesField ·.full)).flatMap Line.full) := by
  induction inner generalizing gap with
  | nil => simpa using SpacedAlike.ends Text.blank_nil blank
  | cons line inner ih =>
      have gapPresent : gap ≠ [] := by simpa using present
      rw [List.forall_mem_cons] at sound
      rw [List.pairwise_cons] at ended
      have blankEnding := blank_ending sound.1
      by_cases continues : continuesField line.full = true
      · rw [List.filter_cons, if_pos continues, List.flatMap_cons, Line.full, List.map_cons]
        by_cases empty : line.body = []
        · -- a line without a body belongs to the gap, which grows by its ending
          have longer := ih sound.2 ended.2 (Text.blank_append.mpr ⟨blank, blankEnding⟩)
            (.inl (by simp [gapPresent]))
          simpa [empty, continuesField] using longer
        · have bodyContinues : continuesField line.body = true := by
            simp [continuesField_body sound.1, continues, empty]
          have endingPresent : line.ending ≠ [] ∨ inner = [] := by
            cases inner with
            | nil => exact .inr rfl
            | cons next inner =>
                rcases ended.1 next List.mem_cons_self with equal | ⟨d, _, equal⟩ <;>
                  simp [equal]
          have behind := ih sound.2 ended.2 blankEnding endingPresent
          have space : Text.Blank [' '] := by simp [Text.isBlank]
          have joined := SpacedAlike.runs space blank (List.cons_ne_nil _ _) gapPresent
            (behind.append_left line.body)
          simpa [bodyContinues] using joined
      · have bodyStops : continuesField line.body = false := by
          simp [continuesField_body sound.1, continues]
        rw [List.filter_cons, if_neg continues, List.map_cons, List.filter_cons,
          if_neg (by simp [bodyStops])]
        exact ih sound.2 ended.2 blank (.inl gapPresent)

theorem intercalate_cons_eq_append_flatMap (first : Text) (others : List Text) :
    List.intercalate [' '] (first :: others) = first ++ others.flatMap (' ' :: ·) := by
  induction others generalizing first with
  | nil => simp
  | cons next others ih => simp [List.intercalate_cons_cons, ih]

/-- What the reader makes of a field is spaced like the text that the editor divides. -/
theorem spacedAlike_own {text : Text} {field : Field} {block : Block}
    (found : Block.find? field.header text.lines = some block) :
    SpacedAlike
      ((List.intercalate [' '] (block.opening.body ::
        (block.inner.map Line.body).filter continuesField)).drop field.header.length)
      (block.own.drop field.header.length) := by
  have divides := Block.find?_eq_some_iff.mp found
  have sound : ∀ line ∈ text.lines, line.IsSound := fun _ => Text.isSound_of_mem_lines
  have ended := pairwise_isEnding_lines text
  rw [divides.lines_eq] at sound ended
  simp only [List.forall_mem_append, List.forall_mem_cons] at sound
  obtain ⟨-, soundOpening, soundInner, -⟩ := sound
  have endedBlock := (List.pairwise_cons.mp (List.pairwise_append.mp ended).2.1)
  have endingPresent : block.opening.ending ≠ [] ∨ block.inner = [] := by
    cases inner : block.inner with
    | nil => exact .inr rfl
    | cons next inner =>
        rcases endedBlock.1 next (by simp [inner]) with equal | ⟨d, _, equal⟩ <;> simp [equal]
  have opens := divides.opening_header
  rw [← isPrefixOf_body (unbroken_header field) soundOpening, List.isPrefixOf_iff_prefix] at opens
  obtain ⟨rest, spelled⟩ := opens
  have joined := (spacedAlike_joined soundInner (List.pairwise_append.mp endedBlock.2).1
    (blank_ending soundOpening) endingPresent).append_left rest
  simpa [Block.own, Line.full, ← spelled, intercalate_cons_eq_append_flatMap] using joined

theorem declaredNames_of_absent {text : Text} {field : Field}
    (absent : Block.find? field.header text.lines = none) : declaredNames text field = [] := by
  rw [declaredNames, linesOfField_map_body (unbroken_header field)
    (fun _ => Text.isSound_of_mem_lines), absent]

/-- The names that a manifest declares are those in the field's own text. -/
theorem declaredNames_of_find? {text : Text} {field : Field} {block : Block}
    (found : Block.find? field.header text.lines = some block) :
    declaredNames text field = canonical (bodyNames (block.own.drop field.header.length)) := by
  rw [declaredNames, linesOfField_map_body (unbroken_header field)
    (fun _ => Text.isSound_of_mem_lines), found, ← bodyNames_congr (spacedAlike_own found)]
  rfl

/-- The entries of a field as an editor divides them; none if the field is absent. -/
def fieldEntries (text : Text) (field : Field) : List Text :=
  match Block.find? field.header text.lines with
  | none => []
  | some block => splitEntries (block.entriesText field.header)

theorem fieldEntries_of_absent {text : Text} {field : Field}
    (absent : Block.find? field.header text.lines = none) : fieldEntries text field = [] := by
  rw [fieldEntries, absent]

theorem fieldEntries_of_find? {text : Text} {field : Field} {block : Block}
    (found : Block.find? field.header text.lines = some block) :
    fieldEntries text field = splitEntries (block.entriesText field.header) := by
  rw [fieldEntries, found]

/-- The names that a manifest declares are those in the entries of the field. -/
theorem declaredNames_eq_canonical (text : Text) (field : Field) :
    declaredNames text field = canonical ((fieldEntries text field).flatMap entryNames) := by
  cases found : Block.find? field.header text.lines with
  | none =>
      rw [declaredNames_of_absent found, fieldEntries_of_absent found]
      rfl
  | some block =>
      rw [declaredNames_of_find? found, fieldEntries_of_find? found,
        ← bodyNames_eq_flatMap_entryNames, Block.entriesText, bodyNames_congr (.trimEnd_left _)]

theorem canonical_declaredNames (text : Text) (field : Field) :
    canonical (declaredNames text field) = declaredNames text field := by
  rw [canonical_eq_self_iff, declaredNames_eq_canonical]
  exact pairwise_canonical _

@[simp]
theorem mem_declaredNames {text : Text} {field : Field} {name : Text} :
    name ∈ declaredNames text field ↔
      ∃ entry ∈ fieldEntries text field, name ∈ entryNames entry := by
  rw [declaredNames_eq_canonical, mem_canonical, List.mem_flatMap]

/-- Readers and editors see the same entries. What a manifest declares in a field
are the names in the entries that an editor divides the field's block into. Nothing is
assumed of line breaks, stray lines or parentheses. -/
theorem declaredNames_eq_entryNames (text : Text) (field : Field) :
    declaredNames text field =
      match Block.find? field.header text.lines with
      | none => []
      | some block =>
          canonical ((splitEntries (block.entriesText field.header)).flatMap entryNames) := by
  rw [declaredNames_eq_canonical, fieldEntries]
  cases Block.find? field.header text.lines <;> rfl

end DependencyGate.Manifest

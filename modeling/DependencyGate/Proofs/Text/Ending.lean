/-
# Texts with one ending

A text is written with an ending if each of its breaks belongs to an occurrence of that ending,
and all else are characters that break no line (`WrittenWith`). Such texts can be written one
after another, and they can be cut at any character that breaks no line, so that no cut goes
through an ending.
-/

import DependencyGate.Proofs.Text.Blank
import DependencyGate.Proofs.Text.Line

namespace DependencyGate.Text

/-- Texts of characters that break no line and of the given ending. -/
inductive WrittenWith (ending : Text) : Text → Prop
  | nil : WrittenWith ending []
  | plain {c : Char} {rest : Text} (unbroken : isLineBreak c = false)
      (later : WrittenWith ending rest) : WrittenWith ending (c :: rest)
  | ended {rest : Text} (later : WrittenWith ending rest) : WrittenWith ending (ending ++ rest)

/-- A line feed, perhaps behind a carriage return. -/
def EndsInFeed (ending : Text) : Prop := ending = ['\r', '\n'] ∨ ending = ['\n']

variable {ending text front back : Text}

theorem EndsInFeed.isEnding (feed : EndsInFeed ending) : IsEnding ending := by
  rcases feed with rfl | rfl
  · exact .inl rfl
  · exact .inr ⟨'\n', rfl, rfl⟩

namespace WrittenWith

theorem of_unbroken (unbroken : ∀ c ∈ text, isLineBreak c = false) : WrittenWith ending text := by
  induction text with
  | nil => exact .nil
  | cons c rest ih =>
      rw [List.forall_mem_cons] at unbroken
      exact .plain unbroken.1 (ih unbroken.2)

theorem self (ending : Text) : WrittenWith ending ending := by
  have written : WrittenWith ending (ending ++ []) := .ended .nil
  rwa [List.append_nil] at written

theorem append (writtenFront : WrittenWith ending front) (writtenBack : WrittenWith ending back) :
    WrittenWith ending (front ++ back) := by
  induction writtenFront with
  | nil => exact writtenBack
  | plain unbroken _ ih => exact .plain unbroken ih
  | ended _ ih =>
      rw [List.append_assoc]
      exact .ended ih

theorem flatMap {α : Type} {items : List α} {spell : α → Text}
    (written : ∀ item ∈ items, WrittenWith ending (spell item)) :
    WrittenWith ending (items.flatMap spell) := by
  induction items with
  | nil => exact .nil
  | cons item items ih =>
      rw [List.forall_mem_cons] at written
      exact written.1.append (ih written.2)

/-- A text is cut at a character that breaks no line without cutting an ending. -/
theorem of_append_cons (ends : IsEnding ending) {c : Char} (unbroken : isLineBreak c = false)
    (written : WrittenWith ending (front ++ c :: back)) :
    WrittenWith ending front ∧ WrittenWith ending back := by
  generalize spelled : front ++ c :: back = text at written
  induction written generalizing front with
  | nil => simp at spelled
  | plain unbrokenFirst later ih =>
      cases front with
      | nil =>
          obtain ⟨rfl, rfl⟩ := List.cons.inj spelled
          exact ⟨.nil, later⟩
      | cons first front =>
          rw [List.cons_append, List.cons.injEq] at spelled
          obtain ⟨rfl, spelled⟩ := spelled
          obtain ⟨writtenFront, writtenBack⟩ := ih spelled
          exact ⟨.plain unbrokenFirst writtenFront, writtenBack⟩
  | @ended rest later ih =>
      rcases List.append_eq_append_iff.mp spelled with ⟨behind, whole, split⟩ | ⟨behind, rfl, split⟩
      · -- the character would lie within the ending, which has breaks only
        cases behind with
        | nil =>
            rw [List.append_nil] at whole
            have behindIt : [] ++ c :: back = rest := split
            exact ⟨whole ▸ self ending, (ih behindIt).2⟩
        | cons first behind =>
            obtain rfl : c = first := (List.cons.inj split).1
            have breaks : isLineBreak c = true := ends.isLineBreak c (by simp [whole])
            rw [unbroken] at breaks
            cases breaks
      · obtain ⟨writtenFront, writtenBack⟩ := ih split.symm
        exact ⟨.ended writtenFront, writtenBack⟩

theorem of_append (ends : IsEnding ending) (unbroken : ∀ c ∈ front, isLineBreak c = false)
    (written : WrittenWith ending (front ++ back)) : WrittenWith ending back := by
  induction front with
  | nil => exact written
  | cons c front ih =>
      rw [List.forall_mem_cons] at unbroken
      have whole : WrittenWith ending ([] ++ c :: (front ++ back)) := written
      exact ih unbroken.2 (of_append_cons ends unbroken.1 whole).2

/-- Pieces between commas are written with an ending if the whole text is. -/
theorem intercalate_iff (ends : IsEnding ending) {pieces : List Text} :
    WrittenWith ending (List.intercalate [','] pieces) ↔
      ∀ piece ∈ pieces, WrittenWith ending piece := by
  have comma : isLineBreak ',' = false := rfl
  induction pieces with
  | nil => simp [nil]
  | cons piece pieces ih =>
      cases pieces with
      | nil => simp
      | cons next pieces =>
          rw [List.intercalate_cons_cons, List.append_assoc, List.singleton_append,
            List.forall_mem_cons]
          constructor
          · intro written
            obtain ⟨front, back⟩ := of_append_cons ends comma written
            exact ⟨front, ih.mp back⟩
          · rintro ⟨front, back⟩
            exact front.append (.plain comma (ih.mpr back))

/-- A text is cut in front of the blanks at its end without cutting an ending. -/
theorem trimEnd_and_trailingBlanks (ends : IsEnding ending) (written : WrittenWith ending text) :
    WrittenWith ending (trimEnd text) ∧ WrittenWith ending (trailingBlanks text) := by
  have spelled := trimEnd_append_trailingBlanks text
  rcases List.eq_nil_or_concat (trimEnd text) with none | ⟨front, c, cut⟩
  · rw [none, List.nil_append] at spelled
    rw [none, spelled]
    exact ⟨.nil, written⟩
  · have last : (trimEnd text).getLast? = some c := by
      rw [cut, List.concat_eq_append, List.getLast?_concat]
    have visible : isBlank c = false := not_isBlank_of_getLast?_trimEnd last
    have unbroken : isLineBreak c = false := by
      by_contra breaks
      rw [isBlank_of_isLineBreak (by simpa using breaks)] at visible
      cases visible
    rw [cut, List.concat_eq_append, List.append_assoc, List.singleton_append] at spelled
    rw [← spelled] at written
    obtain ⟨writtenFront, writtenBack⟩ := of_append_cons ends unbroken written
    rw [cut, List.concat_eq_append]
    exact ⟨writtenFront.append (.plain unbroken .nil), writtenBack⟩

theorem isLineBreak_or_mem (written : WrittenWith ending text) :
    ∀ c ∈ text, isLineBreak c = false ∨ c ∈ ending := by
  induction written with
  | nil => simp
  | plain unbroken _ ih => exact List.forall_mem_cons.mpr ⟨.inl unbroken, ih⟩
  | ended _ ih => exact List.forall_mem_append.mpr ⟨fun _ => .inr, ih⟩

end WrittenWith

theorem WrittenWith.full {line : Line} (sound : line.IsSound)
    (ended : line.ending = [] ∨ line.ending = ending) : WrittenWith ending line.full := by
  have body : WrittenWith ending line.body := .of_unbroken sound.body_unbroken
  rw [Line.full]
  rcases ended with none | some
  · exact none ▸ body.append .nil
  · exact some ▸ body.append (.self _)

/-- A text is written with an ending exactly if its lines end in it, or in none. -/
theorem writtenWith_iff (feed : EndsInFeed ending) :
    WrittenWith ending text ↔ ∀ line ∈ text.lines, line.ending = [] ∨ line.ending = ending := by
  constructor
  · intro written
    induction written with
    | nil => simp [lines]
    | @plain c rest unbroken _ ih =>
        rw [lines_cons_of_unbroken unbroken]
        cases split : lines rest with
        | nil => simp [consFirstLine]
        | cons first others =>
            rw [split, List.forall_mem_cons] at ih
            exact List.forall_mem_cons.mpr ih
    | @ended rest _ ih =>
        have split : lines (ending ++ rest) = ⟨[], ending⟩ :: lines rest := by
          rcases feed with rfl | rfl
          · rfl
          · exact lines_cons_of_isLineBreak rfl (by simp)
        rw [split, List.forall_mem_cons]
        exact ⟨.inr rfl, ih⟩
  · intro ended
    rw [← flatMap_full_lines text]
    exact .flatMap fun line listed => .full (isSound_of_mem_lines listed) (ended line listed)

/-- Lines of a text that is written with an ending are written with it. -/
theorem WrittenWith.of_subset_lines (feed : EndsInFeed ending) (written : WrittenWith ending text)
    {part : List Line} (inside : part ⊆ text.lines) :
    WrittenWith ending (part.flatMap Line.full) :=
  .flatMap fun line listed => .full (isSound_of_mem_lines (inside listed))
    ((writtenWith_iff feed).mp written line (inside listed))

/-- The ending that an editor gives to added lines is the one that the text is written with. -/
theorem lineEnding_of_writtenWith (feed : EndsInFeed ending) (written : WrittenWith ending text)
    (occurs : contains ending text = true) : lineEnding text = ending := by
  rcases feed with rfl | rfl
  · rw [lineEnding, if_pos occurs]
  · refine lineEnding_of_return_not_mem fun listed => ?_
    rcases written.isLineBreak_or_mem '\r' listed with unbroken | inside
    · exact absurd unbroken (by decide)
    · exact absurd inside (by decide)

end DependencyGate.Text

/-
# Edits make a difference

An edit that concerns some name leaves another text than it was given. A removal leaves fewer
characters that show, blanks and commas apart (`ink_removeEntries_lt`). An addition leaves the
added names declared or, where a stray line becomes part of them, a text that ends in a break
and did not before. A removal behind it that keeps the added names takes neither back
(`pruned_extended_ne`).
-/

import DependencyGate.Proofs.Manifest.Confinement
import DependencyGate.Proofs.Manifest.Pruning
import Mathlib.Algebra.Order.BigOperators.Group.List
import Mathlib.Algebra.Order.Ring.Nat

namespace DependencyGate.Manifest

open Text (isBlank isLineBreak Blank)

/-! ## Characters that show -/

/-- The number of characters that are neither blank nor a comma. -/
def ink (text : Text) : Nat := text.countP fun c => !isBlank c && c != ','

@[simp]
theorem ink_append (front back : Text) : ink (front ++ back) = ink front + ink back :=
  List.countP_append

theorem ink_eq_zero_iff {text : Text} : ink text = 0 ↔ ∀ c ∈ text, isBlank c = true ∨ c = ',' := by
  simp only [ink, List.countP_eq_zero, Bool.and_eq_true, Bool.not_eq_true', bne_iff_ne, ne_eq,
    not_and, not_not]
  refine forall_congr' fun c => imp_congr_right fun _ => ?_
  cases isBlank c <;> simp

theorem ink_of_blank {text : Text} (blank : Blank text) : ink text = 0 :=
  ink_eq_zero_iff.mpr fun c listed => .inl (blank c listed)

theorem ink_intercalate (entries : List Text) :
    ink (List.intercalate [','] entries) = (entries.map ink).sum := by
  induction entries with
  | nil => rfl
  | cons entry entries ih =>
      cases entries with
      | nil => simp
      | cons next entries =>
          have comma : ink [','] = 0 := rfl
          rw [List.intercalate_cons_cons, ink_append, ink_append, ih, comma, Nat.add_zero]
          simp only [List.map_cons, List.sum_cons]

/-- What is left out of some texts is missing from their characters. -/
theorem sum_ink_filter_lt {entries : List Text} {keep : Text → Bool} {entry : Text}
    (listed : entry ∈ entries) (dropped : keep entry = false) (shows : 0 < ink entry) :
    ((entries.filter keep).map ink).sum < (entries.map ink).sum := by
  have fewer (some : List Text) : ((some.filter keep).map ink).sum ≤ (some.map ink).sum :=
    (List.filter_sublist.map ink).sum_le_sum fun _ _ => Nat.zero_le _
  obtain ⟨front, back, rfl⟩ := List.append_of_mem listed
  have fewerInFront := fewer front
  have fewerBehind := fewer back
  rw [List.filter_append, List.filter_cons_of_neg (by simp [dropped])]
  simp only [List.map_append, List.map_cons, List.sum_append, List.sum_cons]
  omega

theorem ink_flatMap_full (lines : List Line) (keep : Line → Bool) :
    ink (lines.flatMap Line.full) =
      ink ((lines.filter keep).flatMap Line.full)
        + ink ((lines.filter (!keep ·)).flatMap Line.full) := by
  induction lines with
  | nil => rfl
  | cons line lines ih =>
      cases kept : keep line <;>
        simp only [List.flatMap_cons, List.filter_cons, kept, ink_append, ih, Bool.not_false,
          Bool.not_true, Bool.false_eq_true, if_true, if_false] <;>
        omega

section Removal

variable {text : Text} {block : Block} {names : List Text}

theorem Block.ink_text (block : Block) : ink block.text = ink block.own + ink block.strayText := by
  rw [Block.text, Block.own, Block.strayText, Block.stray, ink_append, ink_append,
    ink_flatMap_full block.inner (continuesField ·.full), Nat.add_assoc]

theorem ink_own {field : Field} (found : Block.find? field.header text.lines = some block) :
    ink block.own = ink field.header + ((fieldEntries text field).map ink).sum := by
  have blank : ink (block.tail field.header) = 0 := ink_of_blank (Text.blank_trailingBlanks _)
  rw [Block.own_eq found, ink_append, ink_append, blank, fieldEntries_of_find? found,
    ← ink_intercalate, intercalate_splitEntries, Nat.add_zero]

/-- What shows of a manifest are the lines around a field, its entries and its stray lines. -/
theorem ink_of_find? {field : Field} (found : Block.find? field.header text.lines = some block) :
    ink text = ink block.beforeText
      + (ink field.header + ((fieldEntries text field).map ink).sum + ink block.strayText)
      + ink block.afterText := by
  conv => lhs; rw [Block.eq_append_text found]
  rw [ink_append, ink_append, block.ink_text, ink_own found]

theorem ink_appendStray (text rebuilt stray : Text) :
    ink (appendStray (Text.lineEnding text) rebuilt stray) = ink rebuilt + ink stray := by
  rw [appendStray]
  split
  case isTrue none => simp [List.isEmpty_iff.mp none, ink]
  case isFalse =>
    split
    · exact ink_append rebuilt stray
    · rw [ink_append, ink_append, ink_of_blank (blank_lineEnding text), Nat.add_zero]

/-- An entry whose name is declared shows. -/
theorem ink_entry_pos {entry : Text} (declared : entryName entry ∈ declaredNames text .required) :
    0 < ink entry := by
  obtain ⟨other, -, named⟩ := mem_declaredNames.mp declared
  have present : entryName entry ≠ [] := by simpa using (List.mem_filter.mp named).2
  have single := comma_not_mem_of_mem_entryNames named
  by_contra hidden
  rw [Nat.pos_iff_ne_zero, not_not, ink_eq_zero_iff] at hidden
  -- then all characters of the name are blanks, which trimming takes away
  have blank : Blank (entryName entry) := by
    intro c listed
    rcases Text.mem_of_mem_collapseBlanks ((Text.trim_sublist _).mem listed) with rfl | inside
    · decide
    · refine (hidden c ((stripConstraintsFrom_sublist false entry).mem inside)).resolve_right ?_
      rintro rfl
      exact single listed
  apply present
  rw [← Text.trim_eq_nil blank, entryName, Text.trim_trim]

/-- A removal leaves fewer characters that show, if it removes an entry whose name is
declared. -/
theorem ink_removeEntries_lt {entry : Text} (listed : entry ∈ fieldEntries text .required)
    (named : entryName entry ∈ names)
    (declared : entryName entry ∈ declaredNames text .required) :
    ink (removeEntries text names).1 < ink text := by
  cases found : Block.find? Field.required.header text.lines with
  | none => simp [fieldEntries_of_absent found] at listed
  | some block =>
      have some : ¬(((splitEntries (block.entriesText Field.required.header)).map
          entryName).filter (· ∈ names)).isEmpty := by
        rw [List.isEmpty_iff, List.filter_eq_nil_iff]
        intro none
        rw [fieldEntries_of_find? found] at listed
        exact none _ (List.mem_map_of_mem listed) (by simp [named])
      rw [ink_of_find? found, removeEntries_of_find? found, if_neg some, Block.replaceWith,
        ← fieldEntries_of_find? found]
      simp only [ink_append, ink_appendStray, ink_intercalate]
      have blank : ink (block.tail Field.required.header) = 0 :=
        ink_of_blank (Text.blank_trailingBlanks _)
      generalize split : (fieldEntries text .required).filter _ = rest
      have fewer : (rest.map ink).sum < ((fieldEntries text .required).map ink).sum := by
        rw [← split]
        exact sum_ink_filter_lt listed (by simp [named]) (ink_entry_pos declared)
      rw [blank]
      omega

/-- What pruning removes makes a difference. -/
theorem pruned_ne {used kept : List Text} (removed : prunedNames used kept text ≠ []) :
    pruned used kept text ≠ text := by
  obtain ⟨name, listed⟩ := List.exists_mem_of_ne_nil _ removed
  obtain ⟨unused, entry, present, rfl⟩ := mem_prunedNames.mp listed
  have fewer := ink_removeEntries_lt present unused (mem_unusedNames.mp unused).1
  intro same
  rw [← pruned_eq_removeEntries, same] at fewer
  exact Nat.lt_irrefl _ fewer

end Removal

/-! ## Names that are added show -/

section Extension

variable {text : Text} {field : Field} {names : List Text}

theorem ink_name_pos {name : Text} (valid : PackageName.isValid name = true) : 0 < ink name := by
  obtain ⟨c, rest, rfl⟩ := List.exists_cons_of_ne_nil (PackageName.ne_nil_of_isValid valid)
  have inName := PackageName.isNameChar_of_mem valid
  have visible := PackageName.isBlank_of_isNameChar (inName c List.mem_cons_self)
  have single : c ≠ ',' := (PackageName.plain_of_isNameChar inName c List.mem_cons_self).2.2
  rw [Nat.pos_iff_ne_zero, ne_eq, ink_eq_zero_iff]
  intro hidden
  rcases hidden c List.mem_cons_self with blank | comma
  · simp [blank] at visible
  · exact single comma

theorem sum_ink_addedEntries_pos (text : Text)
    (valid : ∀ name ∈ names, PackageName.isValid name = true) (present : names ≠ []) :
    0 < ((addedEntries text names).map ink).sum := by
  obtain ⟨name, listed⟩ := List.exists_mem_of_ne_nil _ present
  have entry : addedEntry (Text.lineEnding text) name ∈ addedEntries text names :=
    List.mem_map_of_mem listed
  have shows : 0 < ink (addedEntry (Text.lineEnding text) name) := by
    rw [addedEntry, ink_append]
    exact Nat.lt_add_left _ (ink_name_pos (valid name listed))
  exact shows.trans_le (List.single_le_sum (by simp) _ (List.mem_map_of_mem entry))

/-- Nothing shows of the entries behind which no others are added. -/
theorem sum_ink_listed (block : Block) (header : Text) :
    ((block.listed header).map ink).sum =
      ((splitEntries (block.entriesText header)).map ink).sum := by
  rw [Block.listed]
  induction splitEntries (block.entriesText header) with
  | nil => rfl
  | cons entry entries ih =>
      rw [List.filter_cons]
      split
      case isTrue => rw [List.map_cons, List.map_cons, List.sum_cons, List.sum_cons, ih]
      case isFalse hidden =>
        have blank : ink entry = 0 :=
          ink_of_blank (Text.isAllBlank_iff.mp (by simpa using hidden))
        rw [List.map_cons, List.sum_cons, blank, Nat.zero_add, ih]

theorem ink_le_ink_completed (text ending : Text) : ink text ≤ ink (completed text ending) := by
  rw [completed]
  split
  · exact Nat.le_refl _
  · rw [ink_append]
    exact Nat.le_add_right _ _

/-- An addition leaves more characters that show, if it adds an entry. -/
theorem ink_lt_ink_addEntries (valid : ∀ name ∈ names, PackageName.isValid name = true)
    (new : unlisted text field names ≠ []) : ink text < ink (addEntries text field names) := by
  have added := sum_ink_addedEntries_pos text (isValid_of_mem_unlisted text field valid) new
  cases found : Block.find? field.header text.lines with
  | none =>
      have kept := ink_le_ink_completed text (Text.lineEnding text)
      rw [addEntries_of_absent found new]
      simp only [ink_append, ink_intercalate]
      omega
  | some block =>
      rw [ink_of_find? found, addEntries_of_find? found new, Block.replaceWith,
        fieldEntries_of_find? found]
      simp only [ink_append, ink_intercalate, List.map_append, List.sum_append, sum_ink_listed]
      omega

end Extension

/-! ## The end of a text -/

/-- Whether a text ends in a break, if it is not empty. -/
def EndsInBreak (text : Text) : Prop := ∀ c ∈ text.getLast?, isLineBreak c = true

section Ends

variable {text front back : Text} {block : Block}

theorem EndsInBreak.append (ends : EndsInBreak back) (alone : back = [] → EndsInBreak front) :
    EndsInBreak (front ++ back) := by
  by_cases none : back = []
  · rw [none, List.append_nil]
    exact alone none
  · rw [EndsInBreak, List.getLast?_append_of_ne_nil _ none]
    exact ends

theorem endsInBreak_flatMap_full {part : List Line}
    (breaks : ∀ line ∈ part, ∃ c, line.full.getLast? = some c ∧ isLineBreak c = true) :
    EndsInBreak (part.flatMap Line.full) := by
  rcases List.eq_nil_or_concat part with rfl | ⟨others, line, rfl⟩
  · simp [EndsInBreak]
  · obtain ⟨c, last, breaking⟩ := breaks line (by simp)
    rw [List.concat_eq_append, List.flatMap_append, List.flatMap_singleton]
    refine EndsInBreak.append ?_ ?_
    · rintro d ended
      rw [last, Option.mem_some_iff] at ended
      rwa [← ended]
    · intro none
      simp [none] at last

/-- Lines of a text that ends in a break make up texts that do. -/
theorem endsInBreak_of_subset (ends : EndsInBreak text) {part : List Line}
    (inside : part ⊆ text.lines) : EndsInBreak (part.flatMap Line.full) :=
  endsInBreak_flatMap_full fun _ listed => Text.exists_getLast?_full_of_ended ends (inside listed)

theorem endsInBreak_append_lineEnding (front text : Text) :
    EndsInBreak (front ++ Text.lineEnding text) := by
  intro c last
  rw [getLast?_append_lineEnding, Option.mem_some_iff] at last
  rw [← last]
  decide

/-- Two lines of a text that differ do not both lack a break. -/
theorem exists_getLast?_full_of_ne {line other : Line} (listed : line ∈ text.lines)
    (listed' : other ∈ text.lines) (different : line ≠ other)
    (unended : ∀ c ∈ other.full.getLast?, isLineBreak c = false) :
    ∃ c, line.full.getLast? = some c ∧ isLineBreak c = true := by
  have ended : text.lines.Pairwise fun a b => IsEnding a.ending ∨ IsEnding b.ending :=
    (pairwise_isEnding_lines text).imp Or.inl
  have : Std.Symm fun a b : Line => IsEnding a.ending ∨ IsEnding b.ending := ⟨fun _ _ => Or.symm⟩
  rcases ended.forall listed listed' different with ends | ends
  · exact Text.getLast?_full ends
  · obtain ⟨c, last, breaks⟩ := Text.getLast?_full ends
    rw [unended c last] at breaks
    cases breaks

/-- Behind a field that ends in no break there is nothing more, and its stray lines, which stand
before its last line, end in breaks. -/
theorem block_of_unended {field : Field}
    (found : Block.find? field.header text.lines = some block)
    (unended : ∀ c ∈ block.own.getLast?, isLineBreak c = false) :
    block.afterText = [] ∧ EndsInBreak block.strayText := by
  have divides := Block.find?_eq_some_iff.mp found
  obtain ⟨last, listed, ends⟩ := exists_getLast?_own block
  rw [← ends] at unended
  have inBlock : last ∈ block.opening :: block.inner :=
    List.cons_subset_cons _ (List.filter_subset_self _) listed
  have inText := Block.mem_of_mem_block found inBlock
  constructor
  · cases after : block.after with
    | nil => simp [Block.afterText, after]
    | cons next others =>
        have split :
            text.lines = (block.before ++ block.opening :: block.inner) ++ block.after := by
          rw [divides.lines_eq]
          simp
        have ended := pairwise_isEnding_lines text
        rw [split] at ended
        have ending := (List.pairwise_append.mp ended).2.2 last (List.mem_append_right _ inBlock)
          next (by simp [after])
        obtain ⟨c, found, breaks⟩ := Text.getLast?_full ending
        rw [unended c found] at breaks
        cases breaks
  · apply endsInBreak_flatMap_full
    intro line stray
    obtain ⟨inner, apart⟩ := List.mem_filter.mp stray
    refine exists_getLast?_full_of_ne (Block.mem_of_mem_block found (List.mem_cons_of_mem _ inner))
      inText ?_ unended
    rintro rfl
    rcases List.mem_cons.mp listed with equal | continuing
    · have opens := (openApart_package field).opensField divides.opening_header
      rw [← equal, divides.inner_closed line inner] at opens
      cases opens
    · simp [(List.mem_filter.mp continuing).2] at apart

end Ends

/-! ## Additions -/

section Addition

variable {text left : Text} {names used kept : List Text} {block : Block}

/-- What is to be added and is not declared has no entry. -/
theorem unlisted_ne_nil (valid : ∀ name ∈ names, PackageName.isValid name = true)
    (new : addedNames names text ≠ []) : unlisted text .required (addedNames names text) ≠ [] := by
  obtain ⟨name, added⟩ := List.exists_mem_of_ne_nil _ new
  have asked := added
  rw [addedNames, mem_without, mem_canonical] at asked
  have listed : name ∈ unlisted text .required (addedNames names text) :=
    (mem_declaredNames_or_unlisted (valid name asked.1) added).resolve_left asked.2
  exact List.ne_nil_of_mem listed

/-- An addition that does not keep stray lines apart leaves a text that ends in a break. -/
theorem endsInBreak_extended (valid : ∀ name ∈ names, PackageName.isValid name = true)
    (new : addedNames names text ≠ []) (glued : ¬KeepsStrayApart text .required) :
    EndsInBreak (extended names text) := by
  simp only [KeepsStrayApart, not_forall, Bool.not_eq_true] at glued
  obtain ⟨block, found, present, c, last, unbroken⟩ := glued
  have unended : ∀ d ∈ block.own.getLast?, isLineBreak d = false := by
    rw [Block.own_eq found, ← List.append_assoc, List.getLast?_append, Option.mem_def.mp last]
    rintro d ends
    rwa [← Option.some.inj (Option.mem_def.mp ends)]
  obtain ⟨nothing, ends⟩ := block_of_unended found unended
  rw [extended, addEntries_of_find? found (unlisted_ne_nil valid new), Block.replaceWith, nothing,
    List.append_nil, ← List.append_assoc]
  exact ends.append fun none => absurd none present

/-- A text that extends another by new names, and from then on keeps them and the break at its
end, is not that text. -/
theorem ne_of_extended (valid : ∀ name ∈ names, PackageName.isValid name = true)
    (new : addedNames names text ≠ [])
    (declared : ∀ name ∈ addedNames names text,
      name ∈ declaredNames (extended names text) .required → name ∈ declaredNames left .required)
    (ends : EndsInBreak (extended names text) → EndsInBreak left) : left ≠ text := by
  intro same
  subst same
  have apart : KeepsStrayApart left .required := by
    by_contra glued
    exact glued (keepsStrayApart_of_ended (ends (endsInBreak_extended valid new glued)))
  obtain ⟨name, added⟩ := List.exists_mem_of_ne_nil _ new
  have extends_ : name ∈ declaredNames (extended names left) .required := by
    rw [declaredNames_extended valid (.inr apart), mem_canonical]
    exact List.mem_append_right _ added
  have absent := added
  rw [addedNames, mem_without] at absent
  exact absent.2 (declared name added extends_)

/-- What an addition adds makes a difference. -/
theorem extended_ne (valid : ∀ name ∈ names, PackageName.isValid name = true)
    (new : addedNames names text ≠ []) : extended names text ≠ text :=
  ne_of_extended valid new (fun _ _ declared => declared) id

/-- The blanks at the end of a field end in a break if the manifest does. -/
theorem exists_getLast?_tail_of_ended
    (found : Block.find? Field.required.header text.lines = some block) (ends : EndsInBreak text) :
    ∃ c, (block.tail Field.required.header).getLast? = some c ∧ isLineBreak c = true := by
  obtain ⟨line, listed, same⟩ := exists_getLast?_own block
  have inText := Block.mem_of_mem_block found
    (List.cons_subset_cons _ (List.filter_subset_self _) listed)
  obtain ⟨c, last, breaks⟩ := Text.exists_getLast?_full_of_ended ends inText
  exact ⟨c, Block.getLast?_tail found (same.symm.trans last) (Text.isBlank_of_isLineBreak breaks),
    breaks⟩

theorem endsInBreak_appendStray {rebuilt stray : Text} (own : EndsInBreak rebuilt)
    (ends : EndsInBreak stray) :
    EndsInBreak (appendStray (Text.lineEnding text) rebuilt stray) := by
  rw [appendStray]
  split
  · exact own
  · split
    · exact ends.append fun _ => own
    · exact ends.append fun _ => endsInBreak_append_lineEnding rebuilt text

/-- A removal leaves a break at the end of a text. -/
theorem endsInBreak_removeEntries (ends : EndsInBreak text) (names : List Text) :
    EndsInBreak (removeEntries text names).1 := by
  cases found : Block.find? Field.required.header text.lines with
  | none => rwa [removeEntries, found]
  | some block =>
      have lines := (Block.find?_eq_some_iff.mp found).lines_eq
      have before : EndsInBreak block.beforeText := endsInBreak_of_subset ends (by simp [lines])
      have stray : EndsInBreak block.strayText := endsInBreak_of_subset ends fun line listed => by
        simp [lines, List.mem_of_mem_filter listed]
      have after : EndsInBreak block.afterText := endsInBreak_of_subset ends fun line listed => by
        simp [lines, listed]
      obtain ⟨c, last, breaks⟩ := exists_getLast?_tail_of_ended found ends
      have own (front : Text) : EndsInBreak (front ++ block.tail Field.required.header) := by
        rw [EndsInBreak, List.getLast?_append, last]
        rintro d same
        rwa [← Option.some.inj (Option.mem_def.mp same)]
      rw [removeEntries_of_find? found]
      split
      case isTrue => exact ends
      case isFalse =>
        rw [Block.replaceWith]
        refine after.append fun _ => EndsInBreak.append ?_ fun _ => before
        exact endsInBreak_appendStray (own _) stray

/-- What an addition adds makes a difference, also with a removal behind it that keeps it. -/
theorem pruned_extended_ne (valid : ∀ name ∈ names, PackageName.isValid name = true)
    (new : addedNames names text ≠ []) (needed : ∀ name ∈ names, name ∈ used) :
    pruned used kept (extended names text) ≠ text := by
  apply ne_of_extended valid new
  · intro name added declared
    rw [addedNames, mem_without, mem_canonical] at added
    exact mem_declaredNames_prune_of_needed declared (.inl (needed name added.1))
  · intro ends
    rw [pruned_eq_removeEntries]
    exact endsInBreak_removeEntries ends _

end Addition

end DependencyGate.Manifest

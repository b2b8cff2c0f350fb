/-
# Trimming and collapsing blanks

Blanks at the ends of a text and the length of a run of blanks carry no meaning in
a manifest. This module says so once: trimming ignores blanks at the ends,
collapsing goes through a text run by run, and the break characters are blanks
that no uppercase letter shares.
-/

import DependencyGate.Text.Blank
import DependencyGate.Text.Line
import DependencyGate.Text.Uppercase
import Mathlib.Data.List.TakeWhile

namespace DependencyGate.Text

/-- Nothing but blanks. -/
def Blank (text : Text) : Prop := ∀ c ∈ text, isBlank c = true

theorem isAllBlank_iff {text : Text} : isAllBlank text = true ↔ Blank text := by
  simp [isAllBlank, Blank]

instance (text : Text) : Decidable (Blank text) := decidable_of_iff _ isAllBlank_iff

@[simp]
theorem blank_nil : Blank [] := by simp [Blank]

@[simp]
theorem blank_cons {c : Char} {rest : Text} :
    Blank (c :: rest) ↔ isBlank c = true ∧ Blank rest := by
  simp [Blank]

@[simp]
theorem blank_append {front back : Text} : Blank (front ++ back) ↔ Blank front ∧ Blank back := by
  simp only [Blank, List.mem_append, or_imp, forall_and]

theorem isBlank_of_isLineBreak {c : Char} (breaks : isLineBreak c = true) :
    isBlank c = true := by
  simp only [isLineBreak, isBlank, Bool.or_eq_true, Bool.and_eq_true, decide_eq_true_eq,
    beq_iff_eq] at breaks ⊢
  omega

/-- The code points of the blanks. -/
private def blankCodes : List Nat :=
  List.range' 9 5 ++ List.range' 28 5 ++ [0x85, 0xA0, 0x1680] ++ List.range' 0x2000 11
    ++ [0x2028, 0x2029, 0x202F, 0x205F, 0x3000]

private theorem toNat_mem_blankCodes {c : Char} (blank : isBlank c = true) :
    c.toNat ∈ blankCodes := by
  simp only [isBlank, Bool.or_eq_true, Bool.and_eq_true, decide_eq_true_eq, beq_iff_eq] at blank
  simp only [blankCodes, List.mem_append, List.mem_range'_1, List.mem_cons, List.not_mem_nil,
    or_false]
  omega

/-- A line that starts with a blank opens no field. -/
theorem isUppercase_of_isBlank {c : Char} (blank : isBlank c = true) :
    isUppercase c = false := by
  have outside : ∀ code ∈ blankCodes, ∀ run ∈ uppercaseRuns,
      ¬ (run.first ≤ code ∧ code ≤ run.last) := by
    decide +kernel
  have bounds := outside c.toNat (toNat_mem_blankCodes blank)
  simp only [isUppercase, inRuns, List.any_eq_false, CharacterRun.holds, Bool.and_eq_true,
    decide_eq_true_eq, not_and]
  intro run listed inside _
  exact absurd inside (bounds run listed)

section Trimming

variable {front text back : Text}

theorem blank_trailingBlanks (text : Text) : Blank (trailingBlanks text) := by
  intro c listed
  exact (List.mem_takeWhile_imp (List.mem_reverse.mp listed))

theorem trimStart_eq_nil (blank : Blank text) : trimStart text = [] :=
  List.dropWhile_eq_nil_iff.mpr blank

theorem trimStart_append_of_blank (blank : Blank front) :
    trimStart (front ++ text) = trimStart text :=
  List.dropWhile_append_of_pos blank

theorem trimEnd_append_of_blank (blank : Blank back) : trimEnd (text ++ back) = trimEnd text := by
  have reversed : Blank back.reverse := fun c listed => blank c (List.mem_reverse.mp listed)
  rw [trimEnd, List.reverse_append]
  exact congrArg List.reverse (trimStart_append_of_blank reversed)

theorem trimEnd_eq_nil (blank : Blank text) : trimEnd text = [] := by
  rw [← List.nil_append text, trimEnd_append_of_blank blank]
  rfl

/-- The end of a trimmed text is no blank. -/
theorem not_isBlank_of_getLast?_trimEnd {c : Char} (last : (trimEnd text).getLast? = some c) :
    isBlank c = false := by
  rw [trimEnd, List.getLast?_reverse] at last
  have stopped := List.head?_dropWhile_not isBlank text.reverse
  rw [last] at stopped
  simpa using stopped

theorem trimEnd_eq_self (visible : ∀ c ∈ text.getLast?, isBlank c = false) :
    trimEnd text = text := by
  have stays : text.reverse.dropWhile isBlank = text.reverse := by
    cases reversed : text.reverse with
    | nil => rfl
    | cons c rest =>
        have last : text.getLast? = some c := by rw [← List.head?_reverse, reversed]; rfl
        exact List.dropWhile_cons_of_neg (by simp [visible c last])
  rw [trimEnd, stays, List.reverse_reverse]

/-- Blanks behind a text that does not end in one are what trimming takes away. -/
theorem trailingBlanks_append (visible : ∀ c ∈ text.getLast?, isBlank c = false)
    (blank : Blank back) : trailingBlanks (text ++ back) = back := by
  have spelled := trimEnd_append_trailingBlanks (text ++ back)
  rw [trimEnd_append_of_blank blank, trimEnd_eq_self visible] at spelled
  exact List.append_cancel_left spelled

/-- A text is what trimming leaves, between two runs of blanks. -/
theorem exists_blanks_around_trim (text : Text) :
    ∃ front back, Blank front ∧ Blank back ∧ text = front ++ trim text ++ back := by
  refine ⟨text.takeWhile isBlank, trailingBlanks (trimStart text),
    fun c listed => List.mem_takeWhile_imp listed, blank_trailingBlanks _, ?_⟩
  rw [trim, List.append_assoc, trimEnd_append_trailingBlanks, trimStart,
    List.takeWhile_append_dropWhile]

/-- Blanks in front of a text do not show once it has been trimmed. -/
theorem trim_append_left (blank : Blank front) : trim (front ++ text) = trim text := by
  rw [trim, trim, trimStart_append_of_blank blank]

/-- Blanks behind a text do not show once it has been trimmed. -/
theorem trim_append_right (blank : Blank back) : trim (text ++ back) = trim text := by
  rw [trim, trim, trimStart, List.dropWhile_append]
  split
  case isTrue empty =>
    rw [trimStart, List.isEmpty_iff.mp empty, List.dropWhile_eq_nil_iff.mpr blank]
  case isFalse nonempty => exact trimEnd_append_of_blank blank

@[simp]
theorem trim_trim (text : Text) : trim (trim text) = trim text := by
  obtain ⟨front, back, blankFront, blankBack, spelled⟩ := exists_blanks_around_trim text
  conv => rhs; rw [spelled, trim_append_right blankBack, trim_append_left blankFront]

/-- A text of blanks has nothing left when it is trimmed. -/
theorem trim_eq_nil (blank : Blank text) : trim text = [] := by
  rw [trim, trimStart_eq_nil blank]
  rfl

theorem trimStart_eq_self (visible : ∀ c ∈ text.head?, isBlank c = false) :
    trimStart text = text := by
  cases text with
  | nil => rfl
  | cons c rest => simp [trimStart, visible c (by simp)]

/-- A text without blanks has nothing to trim. -/
theorem trim_eq_self (visible : ∀ c ∈ text, isBlank c = false) : trim text = text := by
  have reversed : trimStart text.reverse = text.reverse :=
    trimStart_eq_self fun c first => visible c (List.mem_reverse.mp (List.mem_of_mem_head? first))
  rw [trim, trimStart_eq_self fun c first => visible c (List.mem_of_mem_head? first), trimEnd]
  exact (congrArg List.reverse reversed).trans text.reverse_reverse

theorem mem_trim_of_visible {c : Char} (visible : isBlank c = false) (listed : c ∈ text) :
    c ∈ trim text := by
  obtain ⟨front, back, blankFront, blankBack, spelled⟩ := exists_blanks_around_trim text
  rw [spelled, List.mem_append, List.mem_append] at listed
  rcases listed with (inFront | inside) | inBack
  · simp [blankFront c inFront] at visible
  · exact inside
  · simp [blankBack c inBack] at visible

theorem trim_sublist (text : Text) : (trim text).Sublist text := by
  obtain ⟨front, back, -, -, spelled⟩ := exists_blanks_around_trim text
  conv => rhs; rw [spelled]
  exact (List.sublist_append_right front _).trans (List.sublist_append_left _ back)

end Trimming

section Collapsing

variable {c : Char} {rest : Text}

theorem collapseBlanks_cons_of_not_blank (visible : isBlank c = false) :
    collapseBlanks (c :: rest) = c :: collapseBlanks rest := by
  cases rest with
  | nil => simp [collapseBlanks, visible]
  | cons next rest => simp [collapseBlanks, visible]

/-- Collapsing turns a whole run of blanks into one space. -/
theorem collapseBlanks_cons_of_blank (blank : isBlank c = true) :
    collapseBlanks (c :: rest) = ' ' :: collapseBlanks (trimStart rest) := by
  induction rest generalizing c with
  | nil => simp [collapseBlanks, trimStart, blank]
  | cons next rest ih =>
      by_cases blankNext : isBlank next = true
      · have dropped : trimStart (next :: rest) = trimStart rest := by
          simp [trimStart, blankNext]
        simpa [collapseBlanks, blank, blankNext, dropped] using ih blankNext
      · simp [collapseBlanks, blank, blankNext, trimStart]

/-- Collapsing brings in no character but the space. -/
theorem mem_of_mem_collapseBlanks {text : Text} {d : Char} (listed : d ∈ collapseBlanks text) :
    d = ' ' ∨ d ∈ text := by
  fun_induction collapseBlanks text with
  | case1 => exact .inr listed
  | case2 c blank => exact .inl (List.mem_singleton.mp listed)
  | case3 c visible => exact .inr listed
  | case4 c next rest _ _ ih => exact (ih listed).imp_right (List.mem_cons_of_mem _)
  | case5 c next rest _ _ ih =>
      rcases List.mem_cons.mp listed with space | behind
      · exact .inl space
      · exact (ih behind).imp_right (List.mem_cons_of_mem _)
  | case6 c next rest _ ih =>
      rcases List.mem_cons.mp listed with rfl | behind
      · exact .inr List.mem_cons_self
      · exact (ih behind).imp_right (List.mem_cons_of_mem _)

/-- Collapsing loses no character but blanks. -/
theorem mem_collapseBlanks_of_visible {text : Text} {d : Char} (visible : isBlank d = false)
    (listed : d ∈ text) : d ∈ collapseBlanks text := by
  have other {c : Char} (blank : isBlank c = true) : d ≠ c := by
    rintro rfl
    simp [blank] at visible
  fun_induction collapseBlanks text with
  | case1 => exact listed
  | case2 c blank => exact absurd (List.mem_singleton.mp listed) (other blank)
  | case3 c shown => exact listed
  | case4 c next rest blank _ ih =>
      exact ih ((List.mem_cons.mp listed).resolve_left (other blank))
  | case5 c next rest blank _ ih =>
      exact List.mem_cons_of_mem _ (ih ((List.mem_cons.mp listed).resolve_left (other blank)))
  | case6 c next rest _ ih =>
      rcases List.mem_cons.mp listed with rfl | behind
      · exact List.mem_cons_self
      · exact List.mem_cons_of_mem _ (ih behind)

/-- Trimming and collapsing commute at the front of a text. -/
theorem trimStart_collapseBlanks (text : Text) :
    trimStart (collapseBlanks text) = collapseBlanks (trimStart text) := by
  cases text with
  | nil => rfl
  | cons c rest =>
      by_cases blank : isBlank c = true
      · have dropped : trimStart (c :: rest) = trimStart rest := by simp [trimStart, blank]
        have spaced : trimStart (' ' :: collapseBlanks (trimStart rest)) =
            trimStart (collapseBlanks (trimStart rest)) := rfl
        rw [dropped, collapseBlanks_cons_of_blank blank, spaced]
        cases visible : trimStart rest with
        | nil => rfl
        | cons next others =>
            have stopped : isBlank next = false := by
              have := List.head?_dropWhile_not isBlank rest
              rw [show rest.dropWhile isBlank = next :: others from visible] at this
              simpa using this
            rw [collapseBlanks_cons_of_not_blank stopped]
            simp [trimStart, stopped]
      · rw [Bool.not_eq_true] at blank
        have stays : trimStart (c :: rest) = c :: rest := by simp [trimStart, blank]
        rw [stays, collapseBlanks_cons_of_not_blank blank]
        simp [trimStart, blank]

/-- A text without blanks has nothing to collapse. -/
theorem collapseBlanks_eq_self {text : Text} (visible : ∀ c ∈ text, isBlank c = false) :
    collapseBlanks text = text := by
  induction text with
  | nil => rfl
  | cons c rest ih =>
      rw [List.forall_mem_cons] at visible
      rw [collapseBlanks_cons_of_not_blank visible.1, ih visible.2]

/-- Blanks in front of a text do not show once runs are collapsed and ends are trimmed. -/
theorem trim_collapseBlanks_append_left {front text : Text} (blank : Blank front) :
    trim (collapseBlanks (front ++ text)) = trim (collapseBlanks text) := by
  rw [trim, trim, trimStart_collapseBlanks, trimStart_collapseBlanks,
    trimStart_append_of_blank blank]

end Collapsing

end DependencyGate.Text

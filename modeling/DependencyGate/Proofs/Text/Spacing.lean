/-
# Texts with the same spacing up to length

A field is read with a space in place of each line break and edited with the breaks
it has, and the two views may end in different blanks. `SpacedAlike` relates texts
that differ in nothing else: where one has a run of blanks, the other has one too,
and behind the last visible character anything blank may follow. Cutting at a
visible character respects the relation, and related texts have the same words.
-/

import DependencyGate.Proofs.Text.Cut
import Mathlib.Data.List.Forall2

namespace DependencyGate.Text

/-- Texts that agree but for the length and the kind of their runs of blanks; a run
may be missing only at the end. -/
inductive SpacedAlike : Text → Text → Prop
  | ends {first second : Text} (blank : Blank first) (blank' : Blank second) :
      SpacedAlike first second
  | same (c : Char) {first second : Text} (rest : SpacedAlike first second) :
      SpacedAlike (c :: first) (c :: second)
  | runs {gap gap' first second : Text} (blank : Blank gap) (blank' : Blank gap')
      (present : gap ≠ []) (present' : gap' ≠ []) (rest : SpacedAlike first second) :
      SpacedAlike (gap ++ first) (gap' ++ second)

namespace SpacedAlike

variable {first second : Text}

theorem append_left (front : Text) (alike : SpacedAlike first second) :
    SpacedAlike (front ++ first) (front ++ second) := by
  induction front with
  | nil => exact alike
  | cons c front ih => exact .same c ih

theorem refl (text : Text) : SpacedAlike text text := by
  simpa using append_left text (ends blank_nil blank_nil)

theorem symm (alike : SpacedAlike first second) : SpacedAlike second first := by
  induction alike with
  | ends blank blank' => exact .ends blank' blank
  | same c rest ih => exact .same c ih
  | runs blank blank' present present' rest ih => exact .runs blank' blank present' present ih

/-- Blanks may be added behind a text. -/
theorem append_blanks {blanks : Text} (text : Text) (blank : Blank blanks) :
    SpacedAlike text (text ++ blanks) := by
  simpa using append_left text (ends blank_nil blank)

/-- Trailing blanks may be taken away. -/
theorem trimEnd_left (text : Text) : SpacedAlike (trimEnd text) text := by
  conv => rhs; rw [← trimEnd_append_trailingBlanks text]
  exact append_blanks _ (blank_trailingBlanks text)

/-- The same visible characters occur in both texts. -/
theorem mem_iff {c : Char} (visible : isBlank c = false) (alike : SpacedAlike first second) :
    c ∈ first ↔ c ∈ second := by
  have absent {blanks : Text} (blank : Blank blanks) : c ∉ blanks := fun listed => by
    simp [blank c listed] at visible
  induction alike with
  | ends blank blank' => simp [absent blank, absent blank']
  | same d rest ih => simp [ih]
  | runs blank blank' _ _ rest ih => simp [absent blank, absent blank', ih]

/-- Cutting at a visible character gives related pieces. -/
theorem splitAtChar {separator : Char} (visible : isBlank separator = false)
    (alike : SpacedAlike first second) :
    List.Forall₂ SpacedAlike (Text.splitAtChar separator first)
      (Text.splitAtChar separator second) := by
  have absent {blanks : Text} (blank : Blank blanks) : separator ∉ blanks := fun listed => by
    simp [blank separator listed] at visible
  induction alike with
  | ends blank blank' =>
      simp only [splitAtChar_eq_splitOn, List.splitOn_eq_singleton (absent blank),
        List.splitOn_eq_singleton (absent blank')]
      exact .cons (.ends blank blank') .nil
  | @same c first second rest ih =>
      by_cases cut : c = separator
      · rw [cut, splitAtChar_cons_separator, splitAtChar_cons_separator]
        exact .cons (refl []) ih
      · obtain ⟨piece, pieces, found, cutFirst⟩ := splitAtChar_cons_of_ne cut first
        obtain ⟨piece', pieces', found', cutSecond⟩ :=
          splitAtChar_cons_of_ne cut second
        rw [found, found', List.forall₂_cons] at ih
        rw [cutFirst, cutSecond]
        exact .cons (.same c ih.1) ih.2
  | @runs gap gap' first second blank blank' present present' rest ih =>
      obtain ⟨piece, pieces, found, joined⟩ :=
        splitAtChar_append_left (absent blank) first
      obtain ⟨piece', pieces', found', joined'⟩ :=
        splitAtChar_append_left (absent blank') second
      rw [found, found', List.forall₂_cons] at ih
      rw [joined, joined']
      exact .cons (.runs blank blank' present present' ih.1) ih.2

/-- The end of a text can be trimmed before something is put in front of it. -/
private theorem trimEnd_append_trimEnd (front back : Text) :
    trimEnd (front ++ trimEnd back) = trimEnd (front ++ back) := by
  conv => rhs; rw [← trimEnd_append_trailingBlanks back, ← List.append_assoc]
  exact (trimEnd_append_of_blank (blank_trailingBlanks back)).symm

private theorem blank_collapseBlanks {text : Text} (blank : Blank text) :
    Blank (collapseBlanks text) := by
  cases text with
  | nil => exact blank
  | cons c rest =>
      rw [blank_cons] at blank
      rw [collapseBlanks_cons_of_blank blank.1, trimStart_eq_nil blank.2]
      simp [collapseBlanks, isBlank]

/-- Related texts are equal once their runs of blanks are collapsed and their ends
are trimmed. -/
theorem trim_collapseBlanks (alike : SpacedAlike first second) :
    trim (collapseBlanks first) = trim (collapseBlanks second) := by
  -- the two halves feed each other: a blank in front hides what `trimStart` removes
  suffices both : trimEnd (collapseBlanks first) = trimEnd (collapseBlanks second) ∧
      trimEnd (collapseBlanks (trimStart first)) =
        trimEnd (collapseBlanks (trimStart second)) by
    rw [trim, trim, trimStart_collapseBlanks, trimStart_collapseBlanks, both.2]
  have consCongr (c : Char) {first second : Text} (equal : trimEnd first = trimEnd second) :
      trimEnd (c :: first) = trimEnd (c :: second) := by
    rw [← List.singleton_append, ← trimEnd_append_trimEnd, equal, trimEnd_append_trimEnd]
    rfl
  induction alike with
  | ends blank blank' =>
      rw [trimStart_eq_nil blank, trimStart_eq_nil blank',
        trimEnd_eq_nil (blank_collapseBlanks blank), trimEnd_eq_nil (blank_collapseBlanks blank')]
      exact ⟨rfl, rfl⟩
  | @same c first second rest ih =>
      by_cases blank : isBlank c = true
      · have dropped (text : Text) : trimStart (c :: text) = trimStart text := by
          simp [trimStart, blank]
        rw [collapseBlanks_cons_of_blank blank, collapseBlanks_cons_of_blank blank, dropped,
          dropped]
        exact ⟨consCongr ' ' ih.2, ih.2⟩
      · rw [Bool.not_eq_true] at blank
        have stays (text : Text) : trimStart (c :: text) = c :: text := by
          simp [trimStart, blank]
        rw [stays, stays, collapseBlanks_cons_of_not_blank blank,
          collapseBlanks_cons_of_not_blank blank]
        exact ⟨consCongr c ih.1, consCongr c ih.1⟩
  | @runs gap gap' first second blank blank' present present' rest ih =>
      have collapsed {gap text : Text} (blank : Blank gap) (present : gap ≠ []) :
          collapseBlanks (gap ++ text) = ' ' :: collapseBlanks (trimStart text) := by
        obtain ⟨c, others, rfl⟩ := List.exists_cons_of_ne_nil present
        rw [blank_cons] at blank
        rw [List.cons_append, collapseBlanks_cons_of_blank blank.1,
          trimStart_append_of_blank blank.2]
      rw [collapsed blank present, collapsed blank' present', trimStart_append_of_blank blank,
        trimStart_append_of_blank blank']
      exact ⟨consCongr ' ' ih.2, ih.2⟩

end SpacedAlike

/-- Blanks around a text without blanks do not show once runs are collapsed and ends are
trimmed. -/
theorem trim_collapseBlanks_between {front word back : Text} (blankFront : Blank front)
    (blankBack : Blank back) (visible : ∀ c ∈ word, isBlank c = false) :
    trim (collapseBlanks (front ++ word ++ back)) = word := by
  rw [List.append_assoc, trim_collapseBlanks_append_left blankFront,
    ← (SpacedAlike.append_blanks word blankBack).trim_collapseBlanks,
    collapseBlanks_eq_self visible, trim_eq_self visible]

end DependencyGate.Text

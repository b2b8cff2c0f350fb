/-
# Cutting at a character

Cutting a text at every occurrence of a character is the library's `splitOn`, which
supplies most of what is needed. Added here is how the cut goes together with
writing pieces one after another, with collapsing runs of blanks and with trimming:
each can be done to the text or to its pieces.
-/

import DependencyGate.Proofs.Text.Blank

namespace DependencyGate.Text

variable {separator : Char} {text : Text}

theorem splitAtChar_eq_splitOn (separator : Char) (text : Text) :
    splitAtChar separator text = text.splitOn separator := by
  induction text with
  | nil => rfl
  | cons c rest ih =>
      rw [splitAtChar, List.splitOn_cons_eq_if_modifyHead, ih]
      by_cases cut : c = separator
      · simp [cut]
      · obtain ⟨piece, pieces, found⟩ :=
          List.exists_cons_of_ne_nil (List.splitOn_ne_nil separator rest)
        simp [cut, found, consFirst]

@[simp]
theorem splitAtChar_ne_nil (separator : Char) (text : Text) :
    splitAtChar separator text ≠ [] := by
  simp [splitAtChar_eq_splitOn]

/-- What stands in written pieces stands between them or in one of them. -/
theorem mem_of_mem_intercalate {written : Text} {pieces : List Text} {c : Char}
    (listed : c ∈ List.intercalate written pieces) : c ∈ written ∨ ∃ piece ∈ pieces, c ∈ piece := by
  induction pieces with
  | nil => simp at listed
  | cons piece pieces ih =>
      rcases pieces with _ | ⟨next, pieces⟩
      · exact .inr ⟨piece, List.mem_cons_self, by simpa using listed⟩
      · rw [List.intercalate_cons_cons, List.mem_append, List.mem_append] at listed
        rcases listed with (inside | between) | later
        · exact .inr ⟨piece, List.mem_cons_self, inside⟩
        · exact .inl between
        · exact (ih later).imp_right fun ⟨found, behind, inside⟩ =>
            ⟨found, List.mem_cons_of_mem _ behind, inside⟩

theorem mem_intercalate_of_mem {written : Text} {pieces : List Text} {piece : Text} {c : Char}
    (listed : piece ∈ pieces) (inside : c ∈ piece) : c ∈ List.intercalate written pieces := by
  induction pieces with
  | nil => simp at listed
  | cons first pieces ih =>
      rcases pieces with _ | ⟨next, pieces⟩
      · obtain rfl := List.mem_singleton.mp listed
        rwa [List.intercalate_singleton]
      · rw [List.intercalate_cons_cons, List.mem_append, List.mem_append]
        rcases List.mem_cons.mp listed with rfl | later
        · exact .inl (.inl inside)
        · exact .inr (ih later)

/-- The pieces of a cut do not hold the separator. -/
theorem not_mem_of_mem_splitAtChar {piece : Text}
    (listed : piece ∈ splitAtChar separator text) : separator ∉ piece := by
  induction text generalizing piece with
  | nil => simp_all [splitAtChar]
  | cons c rest ih =>
      rw [splitAtChar] at listed
      split at listed
      case isTrue =>
        rcases List.mem_cons.mp listed with rfl | later
        · simp
        · exact ih later
      case isFalse other =>
        obtain ⟨first, others, found⟩ :=
          List.exists_cons_of_ne_nil (splitAtChar_ne_nil separator rest)
        rw [found, consFirst] at listed
        rcases List.mem_cons.mp listed with rfl | later
        · have := ih (found ▸ List.mem_cons_self)
          simp [Ne.symm other, this]
        · exact ih (found ▸ List.mem_cons_of_mem _ later)

theorem sublist_of_mem_splitAtChar {piece : Text}
    (listed : piece ∈ splitAtChar separator text) : piece.Sublist text := by
  have spelled : List.intercalate [separator] (splitAtChar separator text) = text := by
    rw [splitAtChar_eq_splitOn, List.intercalate_splitOn]
  rw [← spelled]
  generalize splitAtChar separator text = pieces at listed
  induction pieces with
  | nil => simp at listed
  | cons first pieces ih =>
      cases pieces with
      | nil => simp_all
      | cons next pieces =>
          rw [List.intercalate_cons_cons]
          rcases List.mem_cons.mp listed with rfl | later
          · rw [List.append_assoc]
            exact List.sublist_append_left ..
          · exact (ih later).trans (List.sublist_append_right ..)

theorem splitAtChar_append_separator (front back : Text) :
    splitAtChar separator (front ++ separator :: back) =
      splitAtChar separator front ++ splitAtChar separator back := by
  simp only [splitAtChar_eq_splitOn, List.splitOn_append_cons_self]

/-- Cutting texts that are written with separators between them cuts each of them. -/
theorem splitAtChar_intercalate {pieces : List Text} (nonempty : pieces ≠ []) :
    splitAtChar separator (List.intercalate [separator] pieces) =
      pieces.flatMap (splitAtChar separator) := by
  induction pieces with
  | nil => exact absurd rfl nonempty
  | cons piece pieces ih =>
      cases pieces with
      | nil => simp
      | cons next pieces =>
          rw [List.intercalate_cons_cons, List.append_assoc, List.singleton_append,
            splitAtChar_append_separator, ih (by simp)]
          rfl

theorem splitAtChar_cons_separator (rest : Text) :
    splitAtChar separator (separator :: rest) = [] :: splitAtChar separator rest :=
  splitAtChar_append_separator [] rest

/-- The cut of a text that starts with another character. -/
theorem splitAtChar_cons_of_ne {c : Char} (other : c ≠ separator) (rest : Text) :
    ∃ piece pieces, splitAtChar separator rest = piece :: pieces ∧
      splitAtChar separator (c :: rest) = (c :: piece) :: pieces := by
  obtain ⟨piece, pieces, found⟩ :=
    List.exists_cons_of_ne_nil (splitAtChar_ne_nil separator rest)
  exact ⟨piece, pieces, found, by simp [splitAtChar, other, found, consFirst]⟩

/-- A text in front without the separator joins the first piece. -/
theorem splitAtChar_append_left {front : Text} (absent : separator ∉ front) (back : Text) :
    ∃ piece pieces, splitAtChar separator back = piece :: pieces ∧
      splitAtChar separator (front ++ back) = (front ++ piece) :: pieces := by
  induction front with
  | nil =>
      obtain ⟨piece, pieces, found⟩ :=
        List.exists_cons_of_ne_nil (splitAtChar_ne_nil separator back)
      exact ⟨piece, pieces, found, found⟩
  | cons c front ih =>
      rw [List.mem_cons, not_or] at absent
      obtain ⟨piece, pieces, found, joined⟩ := ih absent.2
      obtain ⟨_, _, foundBehind, cut⟩ :=
        splitAtChar_cons_of_ne (Ne.symm absent.1) (front ++ back)
      rw [joined, List.cons.injEq] at foundBehind
      obtain ⟨rfl, rfl⟩ := foundBehind
      exact ⟨piece, pieces, found, cut⟩

/-- A text behind without the separator joins the last piece. -/
theorem splitAtChar_append_right (front : Text) {back : Text} (absent : separator ∉ back) :
    ∃ pieces last, splitAtChar separator front = pieces ++ [last] ∧
      splitAtChar separator (front ++ back) = pieces ++ [last ++ back] := by
  induction front with
  | nil =>
      exact ⟨[], [], rfl, by simp [splitAtChar_eq_splitOn, List.splitOn_eq_singleton absent]⟩
  | cons c front ih =>
      obtain ⟨pieces, last, found, joined⟩ := ih
      rw [List.cons_append, splitAtChar, splitAtChar, found, joined]
      split
      case isTrue => exact ⟨[] :: pieces, last, rfl, rfl⟩
      case isFalse =>
        cases pieces with
        | nil => exact ⟨[], c :: last, rfl, rfl⟩
        | cons piece pieces => exact ⟨(c :: piece) :: pieces, last, rfl, rfl⟩

/-- Collapsing blanks before a cut is collapsing them in every piece. -/
theorem splitAtChar_collapseBlanks (visible : isBlank separator = false) (text : Text) :
    splitAtChar separator (collapseBlanks text) =
      (splitAtChar separator text).map collapseBlanks := by
  have space : ' ' ≠ separator := fun equal => by simp [← equal, isBlank] at visible
  have apart {c : Char} (blank : isBlank c = true) : c ≠ separator := fun equal => by
    simp [← equal, blank] at visible
  fun_induction collapseBlanks text with
  | case1 => rfl
  | case2 c blank => simp [splitAtChar, apart blank, space, consFirst, collapseBlanks, blank]
  | case3 c shown =>
      by_cases cut : c = separator <;> simp [splitAtChar, cut, shown, consFirst, collapseBlanks]
  | case4 c next rest blank blankNext ih =>
      obtain ⟨piece, pieces, found, cutNext⟩ :=
        splitAtChar_cons_of_ne (apart blankNext) rest
      obtain ⟨_, _, foundNext, cutBoth⟩ :=
        splitAtChar_cons_of_ne (apart blank) (next :: rest)
      rw [cutNext, List.cons.injEq] at foundNext
      obtain ⟨rfl, rfl⟩ := foundNext
      rw [ih, cutNext, cutBoth]
      simp [collapseBlanks, blank, blankNext]
  | case5 c next rest blank shownNext ih =>
      obtain ⟨piece, pieces, found, cutBoth⟩ :=
        splitAtChar_cons_of_ne (apart blank) (next :: rest)
      have unspaced : collapseBlanks (c :: piece) = ' ' :: collapseBlanks piece := by
        by_cases cut : next = separator
        · rw [cut, splitAtChar_cons_separator, List.cons.injEq] at found
          simp [← found.1, collapseBlanks, blank]
        · obtain ⟨first, _, _, cutNext⟩ := splitAtChar_cons_of_ne cut rest
          rw [cutNext, List.cons.injEq] at found
          simp [← found.1, collapseBlanks, blank, shownNext]
      rw [splitAtChar, if_neg space, ih, cutBoth, found, List.map_cons, List.map_cons, unspaced]
      rfl
  | case6 c next rest shown ih =>
      rw [Bool.not_eq_true] at shown
      by_cases cut : c = separator
      · rw [cut, splitAtChar_cons_separator, splitAtChar_cons_separator, ih]
        rfl
      · obtain ⟨piece, pieces, found, cutFirst⟩ :=
          splitAtChar_cons_of_ne cut (next :: rest)
        rw [splitAtChar, if_neg cut, ih, cutFirst, found, List.map_cons, List.map_cons,
          collapseBlanks_cons_of_not_blank shown]
        rfl

/-- Trimming a text before a cut does not show once the pieces are trimmed. -/
theorem map_trim_splitAtChar_trim (visible : isBlank separator = false) (text : Text) :
    (splitAtChar separator (trim text)).map trim = (splitAtChar separator text).map trim := by
  have absent {blanks : Text} (blank : Blank blanks) : separator ∉ blanks := fun listed => by
    simp [blank separator listed] at visible
  obtain ⟨front, back, blankFront, blankBack, spelled⟩ := exists_blanks_around_trim text
  obtain ⟨piece, pieces, found, joined⟩ :=
    splitAtChar_append_left (absent blankFront) (trim text)
  obtain ⟨others, last, cut, extended⟩ :=
    splitAtChar_append_right (front ++ trim text) (absent blankBack)
  rw [← spelled] at extended
  calc (splitAtChar separator (trim text)).map trim
      = ((front ++ piece) :: pieces).map trim := by
        rw [found, List.map_cons, List.map_cons, trim_append_left blankFront]
    _ = (others ++ [last]).map trim := by rw [← joined, cut]
    _ = (splitAtChar separator text).map trim := by
        rw [extended, List.map_append, List.map_append, List.map_singleton, List.map_singleton,
          trim_append_right blankBack]

end DependencyGate.Text

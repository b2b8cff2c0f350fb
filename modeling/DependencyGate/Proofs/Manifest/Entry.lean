/-
# Dividing a body into entries

Editors divide a body at the commas outside parentheses. The division is described
through the depth that a text leads to: an entry that a comma ends leads from depth
zero back to depth zero, and only the last one may leave a parenthesis open. Such a
list of entries can be written with commas and divided again, and so can what is
left of it when entries are dropped (`splitEntries_intercalate_of_sublist`).
-/

import DependencyGate.Manifest.Entry
import DependencyGate.Proofs.Text.Cut

namespace DependencyGate.Manifest

/-- The number of open parentheses at the end of a text that is preceded by `depth`
of them; nothing if the text holds a comma that divides. -/
def depthAfter? (depth : Nat) : Text → Option Nat
  | [] => some depth
  | c :: rest =>
      if c = '(' then depthAfter? (depth + 1) rest
      else if c = ')' then depthAfter? (depth - 1) rest
      else if c = ',' && depth = 0 then none
      else depthAfter? depth rest

/-- A list of entries as a division yields it: none holds a comma that divides, and
only the last may leave a parenthesis open. -/
def IsDivision (depth : Nat) : List Text → Prop
  | [] => False
  | [last] => (depthAfter? depth last).isSome
  | entry :: entries => depthAfter? depth entry = some 0 ∧ IsDivision 0 entries

@[simp]
theorem isDivision_cons_cons {depth : Nat} {entry next : Text} {entries : List Text} :
    IsDivision depth (entry :: next :: entries) ↔
      depthAfter? depth entry = some 0 ∧ IsDivision 0 (next :: entries) :=
  Iff.rfl

/-- One character in front of a divided text: it opens an entry of its own behind a
dividing comma, and joins the first entry otherwise. Parentheses stay open behind
anything but a closing one. -/
theorem splitEntriesAt_cons (depth : Nat) (c : Char) (rest : Text) :
    (c = ',' ∧ depth = 0 ∧ splitEntriesAt depth (c :: rest) = [] :: splitEntriesAt 0 rest) ∨
      ∃ next, (c = '(' ∨ 0 < depth ∧ c ≠ ')' → 0 < next) ∧
        (∀ entry, depthAfter? depth (c :: entry) = depthAfter? next entry) ∧
        splitEntriesAt depth (c :: rest) = Text.consFirst c (splitEntriesAt next rest) := by
  by_cases opens : c = '('
  · exact .inr ⟨depth + 1, by simp [depthAfter?, splitEntriesAt, opens]⟩
  by_cases closes : c = ')'
  · exact .inr ⟨depth - 1, by simp [depthAfter?, splitEntriesAt, closes]⟩
  by_cases divides : c = ',' ∧ depth = 0
  · exact .inl ⟨divides.1, divides.2, by simp [splitEntriesAt, divides]⟩
  · have joins : (decide (c = ',') && decide (depth = 0)) = false := by simpa using divides
    exact .inr ⟨depth, by simp +contextual [opens], by simp [depthAfter?, opens, closes, joins],
      by simp [splitEntriesAt, opens, closes, joins]⟩

theorem exists_splitEntriesAt_eq_cons (depth : Nat) (text : Text) :
    ∃ entry entries, splitEntriesAt depth text = entry :: entries := by
  cases text with
  | nil => exact ⟨[], [], rfl⟩
  | cons c rest =>
      rcases splitEntriesAt_cons depth c rest with ⟨_, _, divided⟩ | ⟨next, _, _, joined⟩
      · exact ⟨_, _, divided⟩
      · cases found : splitEntriesAt next rest with
        | nil => exact ⟨_, _, by rw [joined, found]; rfl⟩
        | cons entry entries => exact ⟨_, _, by rw [joined, found]; rfl⟩

theorem splitEntries_ne_nil (body : Text) : splitEntries body ≠ [] := by
  obtain ⟨entry, entries, found⟩ := exists_splitEntriesAt_eq_cons 0 body
  simp [splitEntries, found]

/-- A text that leads from an open parenthesis to depth zero closes one. -/
theorem closing_mem_of_depthAfter? {depth : Nat} (opened : 0 < depth) {text : Text}
    (leads : depthAfter? depth text = some 0) : ')' ∈ text := by
  induction text generalizing depth with
  | nil =>
      rw [depthAfter?, Option.some.injEq] at leads
      omega
  | cons c rest ih =>
      rw [depthAfter?] at leads
      split at leads
      · exact List.mem_cons_of_mem c (ih (Nat.succ_pos depth) leads)
      · split at leads
        case isTrue closes => rw [closes]; exact List.mem_cons_self
        · split at leads
          · exact absurd leads (by simp)
          · exact List.mem_cons_of_mem c (ih opened leads)

/-- A division yields entries of which only the last may be unclosed. -/
theorem isDivision_splitEntriesAt (depth : Nat) (text : Text) :
    IsDivision depth (splitEntriesAt depth text) := by
  induction text generalizing depth with
  | nil => simp [splitEntriesAt, IsDivision, depthAfter?]
  | cons c rest ih =>
      rcases splitEntriesAt_cons depth c rest with ⟨_, rfl, divided⟩ | ⟨next, _, step, joined⟩
      · obtain ⟨entry, entries, found⟩ := exists_splitEntriesAt_eq_cons 0 rest
        rw [divided, found]
        exact ⟨rfl, found ▸ ih 0⟩
      · obtain ⟨entry, entries, found⟩ := exists_splitEntriesAt_eq_cons next rest
        have divisionBehind := ih next
        rw [joined, found]
        rw [found] at divisionBehind
        cases entries with
        | nil => simpa [Text.consFirst, IsDivision, step] using divisionBehind
        | cons other entries => simpa [Text.consFirst, step] using divisionBehind

theorem isDivision_splitEntries (body : Text) : IsDivision 0 (splitEntries body) :=
  isDivision_splitEntriesAt 0 body

/-- A text without a dividing comma joins the first entry of what follows it. -/
theorem splitEntriesAt_append {depth between : Nat} {front : Text}
    (leads : depthAfter? depth front = some between) (back : Text) :
    ∃ entry entries, splitEntriesAt between back = entry :: entries ∧
      splitEntriesAt depth (front ++ back) = (front ++ entry) :: entries := by
  induction front generalizing depth with
  | nil =>
      obtain ⟨entry, entries, found⟩ := exists_splitEntriesAt_eq_cons between back
      rw [depthAfter?, Option.some.injEq] at leads
      exact ⟨entry, entries, found, by rw [leads]; exact found⟩
  | cons c front ih =>
      rcases splitEntriesAt_cons depth c (front ++ back) with
        ⟨rfl, rfl, _⟩ | ⟨next, _, step, joined⟩
      · simp [depthAfter?] at leads
      · rw [step] at leads
        obtain ⟨entry, entries, found, split⟩ := ih leads
        exact ⟨entry, entries, found, by rw [List.cons_append, joined, split]; rfl⟩

/-- Entries written with commas between them divide into the same entries. -/
theorem splitEntriesAt_intercalate {depth : Nat} {entries : List Text}
    (division : IsDivision depth entries) :
    splitEntriesAt depth (List.intercalate [','] entries) = entries := by
  induction entries generalizing depth with
  | nil => exact division.elim
  | cons entry entries ih =>
      cases entries with
      | nil =>
          obtain ⟨last, leads⟩ := Option.isSome_iff_exists.mp division
          obtain ⟨_, _, found, split⟩ := splitEntriesAt_append leads []
          obtain ⟨rfl, rfl⟩ := List.cons.inj found
          simpa using split
      | cons next entries =>
          obtain ⟨_, _, found, split⟩ := splitEntriesAt_append division.1
            (',' :: List.intercalate [','] (next :: entries))
          rw [splitEntriesAt, if_neg (by decide), if_neg (by decide), if_pos (by decide),
            ih division.2] at found
          obtain ⟨rfl, rfl⟩ := List.cons.inj found
          rw [List.intercalate_cons_cons, List.append_assoc, List.singleton_append, split,
            List.append_nil]

/-- The entries of a body, written with commas between them, are the body. -/
theorem intercalate_splitEntriesAt (depth : Nat) (text : Text) :
    List.intercalate [','] (splitEntriesAt depth text) = text := by
  induction text generalizing depth with
  | nil => rfl
  | cons c rest ih =>
      rcases splitEntriesAt_cons depth c rest with ⟨rfl, rfl, divided⟩ | ⟨next, _, _, joined⟩
      · obtain ⟨entry, entries, found⟩ := exists_splitEntriesAt_eq_cons 0 rest
        rw [divided, found, List.intercalate_cons_cons, ← found, ih]
        rfl
      · obtain ⟨entry, entries, found⟩ := exists_splitEntriesAt_eq_cons next rest
        rw [joined, found, Text.consFirst, List.intercalate_cons_cons_left, ← found, ih]

theorem intercalate_splitEntries (body : Text) :
    List.intercalate [','] (splitEntries body) = body :=
  intercalate_splitEntriesAt 0 body

theorem intercalate_append {front back : List Text} (present : front ≠ []) (present' : back ≠ []) :
    List.intercalate [','] (front ++ back) =
      List.intercalate [','] front ++ ',' :: List.intercalate [','] back := by
  induction front with
  | nil => exact absurd rfl present
  | cons entry front ih =>
      cases front with
      | nil =>
          obtain ⟨next, others, rfl⟩ := List.exists_cons_of_ne_nil present'
          simp [List.intercalate_cons_cons]
      | cons next front =>
          have behind := ih (by simp)
          rw [List.cons_append] at behind
          simp [List.intercalate_cons_cons, behind]

/-- Written entries end as the last of them does. -/
theorem getLast?_intercalate_concat {last : Text} (front : List Text) (present : last ≠ []) :
    (List.intercalate [','] (front ++ [last])).getLast? = last.getLast? := by
  by_cases none : front = []
  · simp [none]
  · rw [intercalate_append none (by simp), List.intercalate_singleton, List.getLast?_append,
      List.getLast?_cons_of_ne_nil present, List.getLast?_eq_some_getLast present]
    rfl

theorem mem_of_mem_splitEntries {body entry : Text} {c : Char} (listed : entry ∈ splitEntries body)
    (inside : c ∈ entry) : c ∈ body := by
  rw [← intercalate_splitEntries body]
  exact Text.mem_intercalate_of_mem listed inside

theorem IsDivision.isSome_depthAfter? {entries : List Text} (division : IsDivision 0 entries)
    {entry : Text} (listed : entry ∈ entries) : (depthAfter? 0 entry).isSome := by
  induction entries with
  | nil => exact division.elim
  | cons first entries ih =>
      cases entries with
      | nil => rwa [List.mem_singleton.mp listed]
      | cons next entries =>
          rcases List.mem_cons.mp listed with rfl | later
          · rw [division.1]; rfl
          · exact ih division.2 later

/-- A text without parentheses and commas leaves the depth as it is. -/
theorem depthAfter?_of_plain {text : Text} (depth : Nat)
    (plain : ∀ c ∈ text, c ≠ '(' ∧ c ≠ ')' ∧ c ≠ ',') : depthAfter? depth text = some depth := by
  induction text with
  | nil => rfl
  | cons c rest ih =>
      rw [List.forall_mem_cons] at plain
      obtain ⟨⟨opens, closes, divides⟩, others⟩ := plain
      rw [depthAfter?, if_neg opens, if_neg closes, if_neg (by simp [divides]), ih others]

/-- Blanks are neither parentheses nor commas. -/
theorem plain_of_blank {blanks : Text} (blank : Text.Blank blanks) :
    ∀ c ∈ blanks, c ≠ '(' ∧ c ≠ ')' ∧ c ≠ ',' := by
  intro c listed
  have isBlank := blank c listed
  refine ⟨?_, ?_, ?_⟩ <;> rintro rfl <;> exact absurd isBlank (by decide)

theorem depthAfter?_of_blank {blanks : Text} (depth : Nat) (blank : Text.Blank blanks) :
    depthAfter? depth blanks = some depth :=
  depthAfter?_of_plain depth (plain_of_blank blank)

/-- Behind an open parenthesis no comma divides, so without other parentheses the depth stays. -/
theorem depthAfter?_of_opened {depth : Nat} (opened : 0 < depth) {text : Text}
    (plain : '(' ∉ text ∧ ')' ∉ text) : depthAfter? depth text = some depth := by
  induction text with
  | nil => rfl
  | cons c rest ih =>
      simp only [List.mem_cons, not_or] at plain
      rw [depthAfter?, if_neg (Ne.symm plain.1.1), if_neg (Ne.symm plain.2.1),
        if_neg (by simp [opened.ne']), ih ⟨plain.1.2, plain.2.2⟩]

theorem depthAfter?_append (depth : Nat) (front back : Text) :
    depthAfter? depth (front ++ back) = (depthAfter? depth front).bind (depthAfter? · back) := by
  induction front generalizing depth with
  | nil => rfl
  | cons c front ih =>
      rw [List.cons_append, depthAfter?, depthAfter?]
      split
      · exact ih _
      · split
        · exact ih _
        · split
          · rfl
          · exact ih _

/-- A division is any number of entries that lead back to depth zero and a last one that holds no
dividing comma. -/
theorem isDivision_concat_iff {front : List Text} {last : Text} :
    IsDivision 0 (front ++ [last]) ↔
      (∀ entry ∈ front, depthAfter? 0 entry = some 0) ∧ (depthAfter? 0 last).isSome := by
  induction front with
  | nil => simp [IsDivision]
  | cons entry front ih =>
      obtain ⟨next, others, found⟩ := List.exists_cons_of_ne_nil
        (List.append_ne_nil_of_right_ne_nil front (List.cons_ne_nil last []))
      rw [List.cons_append, found, isDivision_cons_cons, ← found, ih, List.forall_mem_cons,
        and_assoc]

theorem IsDivision.exists_last {entries : List Text} (division : IsDivision 0 entries) :
    ∃ front last depth, entries = front ++ [last] ∧
      (∀ entry ∈ front, depthAfter? 0 entry = some 0) ∧ depthAfter? 0 last = some depth := by
  rcases List.eq_nil_or_concat entries with rfl | ⟨front, last, rfl⟩
  · exact division.elim
  · rw [List.concat_eq_append] at division ⊢
    obtain ⟨level, single⟩ := isDivision_concat_iff.mp division
    obtain ⟨depth, leads⟩ := Option.isSome_iff_exists.mp single
    exact ⟨front, last, depth, rfl, level, leads⟩

/-- Entries that leave the depth at zero are a division. -/
theorem isDivision_of_depthAfter? {entries : List Text} (present : entries ≠ [])
    (level : ∀ entry ∈ entries, depthAfter? 0 entry = some 0) : IsDivision 0 entries := by
  induction entries with
  | nil => exact absurd rfl present
  | cons entry entries ih =>
      rw [List.forall_mem_cons] at level
      cases entries with
      | nil => simp [IsDivision, level.1]
      | cons next entries => exact ⟨level.1, ih (by simp) level.2⟩

/-- What is left of a division when entries are dropped is a division again. -/
theorem IsDivision.sublist {entries kept : List Text} (division : IsDivision 0 entries)
    (fewer : kept.Sublist entries) (nonempty : kept ≠ []) : IsDivision 0 kept := by
  induction fewer with
  | slnil => exact absurd rfl nonempty
  | @cons kept entries entry fewer ih =>
      cases entries with
      | nil => exact absurd (List.sublist_nil.mp fewer) nonempty
      | cons next entries => exact ih division.2 nonempty
  | @cons_cons kept entries entry fewer ih =>
      cases kept with
      | nil => exact division.isSome_depthAfter? List.mem_cons_self
      | cons next kept =>
          cases entries with
          | nil => exact absurd (List.sublist_nil.mp fewer) (by simp)
          | cons other entries => exact ⟨division.1, ih division.2 (by simp)⟩

/-! ## Text behind a body -/

/-- Text behind the last entry that holds no dividing comma belongs to it. -/
theorem splitEntries_intercalate_append {front : List Text} {last back : Text} {depth : Nat}
    (level : ∀ entry ∈ front, depthAfter? 0 entry = some 0)
    (leads : depthAfter? 0 last = some depth) (single : (depthAfter? depth back).isSome) :
    splitEntries (List.intercalate [','] (front ++ [last]) ++ back) = front ++ [last ++ back] := by
  have spelled : List.intercalate [','] (front ++ [last]) ++ back =
      List.intercalate [','] (front ++ [last ++ back]) := by
    by_cases none : front = []
    · simp [none]
    · simp [intercalate_append none]
  rw [spelled, splitEntries, splitEntriesAt_intercalate]
  rw [isDivision_concat_iff, depthAfter?_append, leads]
  exact ⟨level, single⟩

/-- The number of parentheses that are open at the end of a text that is preceded by `depth` open
ones. Commas do not matter. -/
def openBehind (depth : Nat) : Text → Nat
  | [] => depth
  | c :: rest =>
      openBehind (if c = '(' then depth + 1 else if c = ')' then depth - 1 else depth) rest

theorem openBehind_append (depth : Nat) (front back : Text) :
    openBehind depth (front ++ back) = openBehind (openBehind depth front) back := by
  induction front generalizing depth with
  | nil => rfl
  | cons c front ih => exact ih _

theorem openBehind_of_depthAfter? {depth between : Nat} {text : Text}
    (leads : depthAfter? depth text = some between) : openBehind depth text = between := by
  induction text generalizing depth with
  | nil => simpa [depthAfter?, openBehind] using leads
  | cons c rest ih =>
      rw [depthAfter?] at leads
      rw [openBehind]
      split at leads
      case isTrue opens => rw [if_pos opens, ih leads]
      case isFalse other =>
        rw [if_neg other]
        split at leads
        case isTrue closes => rw [if_pos closes, ih leads]
        case isFalse other =>
          rw [if_neg other]
          split at leads
          · cases leads
          · exact ih leads

/-- What is open behind entries is what the last of them leaves open. -/
theorem openBehind_intercalate {front : List Text} {last : Text} {depth : Nat}
    (level : ∀ entry ∈ front, depthAfter? 0 entry = some 0)
    (leads : depthAfter? 0 last = some depth) :
    openBehind 0 (List.intercalate [','] (front ++ [last])) = depth := by
  induction front with
  | nil => simpa using openBehind_of_depthAfter? leads
  | cons entry front ih =>
      rw [List.forall_mem_cons] at level
      rw [List.cons_append, List.intercalate_cons_of_ne_nil (by simp), openBehind_append,
        openBehind_append, openBehind_of_depthAfter? level.1]
      exact ih level.2

/-- A body leaves no parenthesis open exactly if none of its entries does. -/
theorem openBehind_eq_zero_iff {body : Text} :
    openBehind 0 body = 0 ↔ ∀ entry ∈ splitEntries body, depthAfter? 0 entry = some 0 := by
  obtain ⟨front, last, depth, divided, level, leads⟩ := (isDivision_splitEntries body).exists_last
  have same : openBehind 0 body = depth := by
    rw [← intercalate_splitEntries body, divided, openBehind_intercalate level leads]
  rw [same, divided]
  constructor
  · rintro rfl entry listed
    rcases List.mem_append.mp listed with inFront | isLast
    · exact level entry inFront
    · rwa [List.mem_singleton.mp isLast]
  · intro all
    have closed := all last (by simp)
    rwa [leads, Option.some.injEq] at closed

/-! ## Entries that are kept -/

/-- Dividing is stable under dropping entries. The entries of a body spell it, and any of
them that are kept in their order, if only one, divide into themselves when they are written with
commas. Behind every entry but the last no parenthesis is open, whatever the body leaves open, so
no comma that is written behind an entry can fall within parentheses. -/
theorem splitEntries_intercalate_of_sublist (body : Text) :
    List.intercalate [','] (splitEntries body) = body ∧
      (∀ kept : List Text, kept.Sublist (splitEntries body) → kept ≠ [] →
        splitEntries (List.intercalate [','] kept) = kept) ∧
      ∀ entry ∈ (splitEntries body).dropLast, openBehind 0 entry = 0 := by
  have division : IsDivision 0 (splitEntries body) := isDivision_splitEntries body
  refine ⟨intercalate_splitEntries body, fun kept fewer nonempty => ?_, fun entry listed => ?_⟩
  · exact splitEntriesAt_intercalate (division.sublist fewer nonempty)
  · obtain ⟨front, last, depth, divided, level, -⟩ := division.exists_last
    rw [divided, List.dropLast_concat] at listed
    exact openBehind_of_depthAfter? (level entry listed)

/-- A body with nested parentheses, one too many that closes and one that stays open. -/
def unevenBody : Text := "dplyr (>= 1.0, (a, b)), tidyr), readr (, purrr), withr (>= 2, renv"

theorem splitEntries_unevenBody_kept :
    let kept : List Text := ["dplyr (>= 1.0, (a, b))", " tidyr)", " withr (>= 2, renv"]
    kept.Sublist (splitEntries unevenBody) ∧ kept ≠ [] ∧
      splitEntries (List.intercalate [','] kept) = kept := by
  intro kept
  have fewer : kept.Sublist (splitEntries unevenBody) := by decide
  have nonempty : kept ≠ [] := by decide
  exact ⟨fewer, nonempty,
    (splitEntries_intercalate_of_sublist unevenBody).2.1 kept fewer nonempty⟩

end DependencyGate.Manifest

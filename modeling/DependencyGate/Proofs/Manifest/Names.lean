/-
# The names in a body

A reader deletes the constraints of a body and divides the rest at every comma. No
deleted part reaches across a comma outside parentheses, since the depth is above
zero from an opening parenthesis up to the next closing one. The names that a reader
finds are therefore the names in the entries that an editor sees
(`bodyNames_eq_flatMap_entryNames`), and neither depends on the length of blanks.
-/

import DependencyGate.Proofs.Manifest.Entry
import DependencyGate.Proofs.Text.Spacing

namespace DependencyGate.Manifest

open Text (SpacedAlike Blank splitAtChar isBlank trim collapseBlanks)

/-- The names that a reader finds in the body of a field. -/
def bodyNames (body : Text) : List Text :=
  ((splitAtChar ',' (stripConstraints body)).map entryName).filter (!·.isEmpty)

/-- The names in one entry: the parts of its name between commas, trimmed, as far as
they are not empty. An entry holds more than one only if its parentheses are nested
or left open. -/
def entryNames (entry : Text) : List Text :=
  ((splitAtChar ',' (entryName entry)).map trim).filter (!·.isEmpty)

/-! ## Deleting constraints -/

section Constraints

variable {inside : Bool} {text : Text}

theorem stripConstraintsFrom_cons_inside (c : Char) (rest : Text) :
    stripConstraintsFrom true (c :: rest) = stripConstraintsFrom (c != ')') rest :=
  rfl

theorem stripConstraintsFrom_cons_opening (rest : Text) :
    stripConstraintsFrom false ('(' :: rest) =
      if ')' ∈ rest then stripConstraintsFrom true rest
      else '(' :: stripConstraintsFrom false rest := by
  simp [stripConstraintsFrom]

theorem stripConstraintsFrom_cons_other {c : Char} (other : c ≠ '(') (rest : Text) :
    stripConstraintsFrom false (c :: rest) = c :: stripConstraintsFrom false rest := by
  simp [stripConstraintsFrom, other]

/-- A text without parentheses is deleted as a whole or not at all. -/
theorem stripConstraintsFrom_append_of_plain {front back : Text}
    (plain : '(' ∉ front ∧ ')' ∉ front) :
    stripConstraintsFrom inside (front ++ back) =
      (if inside then [] else front) ++ stripConstraintsFrom inside back := by
  induction front with
  | nil => cases inside <;> rfl
  | cons c front ih =>
      simp only [List.mem_cons, not_or] at plain
      have behind := ih ⟨plain.1.2, plain.2.2⟩
      cases inside with
      | true =>
          have stillInside : (c != ')') = true := by simpa using Ne.symm plain.2.1
          rw [List.cons_append, stripConstraintsFrom_cons_inside, stillInside, behind]
          rfl
      | false =>
          rw [List.cons_append, stripConstraintsFrom_cons_other (Ne.symm plain.1.1), behind]
          rfl

theorem parentheses_not_mem_of_plain (plain : ∀ c ∈ text, c ≠ '(' ∧ c ≠ ')' ∧ c ≠ ',') :
    '(' ∉ text ∧ ')' ∉ text :=
  ⟨fun listed => (plain _ listed).1 rfl, fun listed => (plain _ listed).2.1 rfl⟩

theorem parentheses_not_mem_of_blank (blank : Blank text) : '(' ∉ text ∧ ')' ∉ text :=
  parentheses_not_mem_of_plain (plain_of_blank blank)

theorem stripConstraintsFrom_sublist (inside : Bool) (text : Text) :
    (stripConstraintsFrom inside text).Sublist text := by
  induction text generalizing inside with
  | nil => simp [stripConstraintsFrom]
  | cons c rest ih =>
      rw [stripConstraintsFrom]
      split
      · exact (ih _).cons c
      · split
        · exact (ih _).cons c
        · exact (ih _).cons_cons c

/-- No opening parenthesis comes before a closing one. -/
def Unmatched (text : Text) : Prop := text.Pairwise fun c d => ¬ (c = '(' ∧ d = ')')

/-- Nothing is left to delete once constraints have been deleted. -/
theorem unmatched_stripConstraintsFrom (inside : Bool) (text : Text) :
    Unmatched (stripConstraintsFrom inside text) := by
  induction text generalizing inside with
  | nil => simp [stripConstraintsFrom, Unmatched]
  | cons c rest ih =>
      rw [stripConstraintsFrom]
      split
      · exact ih _
      · split
        · exact ih _
        case isFalse kept =>
          apply List.pairwise_cons.mpr
          constructor
          · intro d listed
            have present := (stripConstraintsFrom_sublist _ _).mem listed
            rintro ⟨rfl, rfl⟩
            simp [present] at kept
          · exact ih _

theorem stripConstraints_of_unmatched (unmatched : Unmatched text) :
    stripConstraints text = text := by
  induction text with
  | nil => rfl
  | cons c rest ih =>
      obtain ⟨first, behind⟩ := List.pairwise_cons.mp unmatched
      have stays : stripConstraintsFrom false rest = rest := ih behind
      by_cases opens : c = '('
      · have absent : ')' ∉ rest := fun present => first _ present ⟨opens, rfl⟩
        rw [stripConstraints, opens, stripConstraintsFrom_cons_opening, if_neg absent, stays]
      · rw [stripConstraints, stripConstraintsFrom_cons_other opens, stays]

theorem stripConstraints_of_unclosing (unclosing : ')' ∉ text) : stripConstraints text = text := by
  apply stripConstraints_of_unmatched
  apply List.pairwise_of_forall_mem_list
  rintro c _ d listed ⟨-, rfl⟩
  exact unclosing listed

/-- What comes behind a text and closes no parenthesis does not change which of its
constraints are deleted. -/
theorem stripConstraintsFrom_append_of_unclosing {front back : Text}
    (closes : inside = true → ')' ∈ front) (unclosing : ')' ∉ back) :
    stripConstraintsFrom inside (front ++ back) = stripConstraintsFrom inside front ++ back := by
  induction front generalizing inside with
  | nil =>
      obtain rfl : inside = false := by simpa using closes
      exact stripConstraints_of_unclosing unclosing
  | cons c front ih =>
      have same : ')' ∈ front ++ back ↔ ')' ∈ front := by simp [unclosing]
      cases inside with
      | true =>
          rw [List.cons_append, stripConstraintsFrom_cons_inside, stripConstraintsFrom_cons_inside]
          apply ih
          intro stillInside
          have other : c ≠ ')' := by simpa using stillInside
          simpa [Ne.symm other] using closes rfl
      | false =>
          by_cases opens : c = '('
          · rw [opens, List.cons_append, stripConstraintsFrom_cons_opening,
              stripConstraintsFrom_cons_opening]
            simp only [same]
            split
            case isTrue closed => exact ih fun _ => closed
            case isFalse => rw [ih (by simp), List.cons_append]
          · rw [List.cons_append, stripConstraintsFrom_cons_other opens,
              stripConstraintsFrom_cons_other opens, ih (by simp), List.cons_append]

/-- Deleting constraints respects the spacing of texts. -/
theorem stripConstraintsFrom_spacedAlike {first second : Text} (inside : Bool)
    (alike : SpacedAlike first second) :
    SpacedAlike (stripConstraintsFrom inside first) (stripConstraintsFrom inside second) := by
  induction alike generalizing inside with
  | ends blank blank' =>
      apply SpacedAlike.ends
      · intro c listed
        exact blank c ((stripConstraintsFrom_sublist _ _).mem listed)
      · intro c listed
        exact blank' c ((stripConstraintsFrom_sublist _ _).mem listed)
  | @same c first second rest ih =>
      cases inside with
      | true => exact ih _
      | false =>
          by_cases opens : c = '('
          · rw [opens, stripConstraintsFrom_cons_opening, stripConstraintsFrom_cons_opening]
            simp only [rest.mem_iff (c := ')') (by decide)]
            split
            · exact ih true
            · exact .same '(' (ih false)
          · rw [stripConstraintsFrom_cons_other opens, stripConstraintsFrom_cons_other opens]
            exact .same c (ih false)
  | @runs gap gap' first second blank blank' present present' rest ih =>
      rw [stripConstraintsFrom_append_of_plain (parentheses_not_mem_of_blank blank),
        stripConstraintsFrom_append_of_plain (parentheses_not_mem_of_blank blank')]
      cases inside with
      | true => exact ih true
      | false => exact .runs blank blank' present present' (ih false)

end Constraints

/-! ## Constraints and entries -/

/-- The first entry behind an open parenthesis holds a closing one if anything does. -/
theorem closing_mem_first_entry {depth : Nat} (opened : 0 < depth) {text entry : Text}
    {entries : List Text} (divided : splitEntriesAt depth text = entry :: entries) :
    ')' ∈ text ↔ ')' ∈ entry := by
  have spelled := intercalate_splitEntriesAt depth text
  have division := isDivision_splitEntriesAt depth text
  rw [divided] at spelled division
  cases entries with
  | nil => rw [← spelled, List.intercalate_singleton]
  | cons next entries =>
      have closes := closing_mem_of_depthAfter? opened division.1
      rw [← spelled, List.intercalate_cons_cons]
      simp [closes]

/-- Deleting the constraints of a body deletes those of its entries. A text that
begins within a constraint is preceded by an open parenthesis. -/
theorem stripConstraintsFrom_eq_intercalate {depth : Nat} {inside : Bool}
    (opened : inside = true → 0 < depth) {text entry : Text} {entries : List Text}
    (divided : splitEntriesAt depth text = entry :: entries) :
    stripConstraintsFrom inside text =
      List.intercalate [',']
        (stripConstraintsFrom inside entry :: entries.map stripConstraints) := by
  induction text generalizing depth inside entry entries with
  | nil =>
      obtain ⟨rfl, rfl⟩ := List.cons.inj divided
      rfl
  | cons c rest ih =>
      rcases splitEntriesAt_cons depth c rest with
        ⟨rfl, rfl, split⟩ | ⟨next, staysOpen, _, joined⟩
      · obtain ⟨first, others, found⟩ := exists_splitEntriesAt_eq_cons 0 rest
        obtain rfl : inside = false := by simpa using mt opened (Nat.lt_irrefl 0)
        rw [split] at divided
        obtain ⟨rfl, rfl⟩ := List.cons.inj divided
        rw [stripConstraintsFrom_cons_other (by decide), ih (by simp) found, found]
        rfl
      · obtain ⟨first, others, found⟩ := exists_splitEntriesAt_eq_cons next rest
        rw [joined, found] at divided
        obtain ⟨rfl, rfl⟩ := List.cons.inj divided
        cases inside with
        | true =>
            apply ih _ found
            intro stillInside
            apply staysOpen
            exact .inr ⟨opened rfl, by simpa using stillInside⟩
        | false =>
            by_cases opens : c = '('
            · have deeper : 0 < next := staysOpen (.inl opens)
              rw [opens, stripConstraintsFrom_cons_opening, stripConstraintsFrom_cons_opening]
              simp only [closing_mem_first_entry deeper found]
              split
              · exact ih (fun _ => deeper) found
              · rw [ih (by simp) found, List.intercalate_cons_cons_left]
            · rw [stripConstraintsFrom_cons_other opens, stripConstraintsFrom_cons_other opens,
                ih (by simp) found, List.intercalate_cons_cons_left]

/-- Deleting constraints and dividing into entries commute. -/
theorem stripConstraints_eq_intercalate (body : Text) :
    stripConstraints body = List.intercalate [','] ((splitEntries body).map stripConstraints) := by
  obtain ⟨entry, entries, found⟩ := exists_splitEntriesAt_eq_cons 0 body
  rw [splitEntries, found]
  exact stripConstraintsFrom_eq_intercalate (by simp) found

/-! ## Entries and blanks -/

theorem forall₂_consFirst (c : Char) {pieces pieces' : List Text}
    (alike : List.Forall₂ SpacedAlike pieces pieces') :
    List.Forall₂ SpacedAlike (Text.consFirst c pieces) (Text.consFirst c pieces') := by
  cases alike with
  | nil => exact .cons (.refl [c]) .nil
  | cons first others => exact .cons (.same c first) others

/-- Dividing into entries respects the spacing of texts. -/
theorem splitEntriesAt_spacedAlike {first second : Text} (depth : Nat)
    (alike : SpacedAlike first second) :
    List.Forall₂ SpacedAlike (splitEntriesAt depth first) (splitEntriesAt depth second) := by
  induction alike generalizing depth with
  | ends blank blank' =>
      obtain ⟨_, _, found, divided⟩ := splitEntriesAt_append (depthAfter?_of_blank depth blank) []
      obtain ⟨_, _, found', divided'⟩ :=
        splitEntriesAt_append (depthAfter?_of_blank depth blank') []
      obtain ⟨rfl, rfl⟩ := List.cons.inj found
      obtain ⟨rfl, rfl⟩ := List.cons.inj found'
      simp only [List.append_nil] at divided divided'
      rw [divided, divided']
      exact .cons (.ends blank blank') .nil
  | @same c first second rest ih =>
      rw [splitEntriesAt, splitEntriesAt]
      by_cases opens : c = '('
      · rw [if_pos opens, if_pos opens]
        exact forall₂_consFirst c (ih _)
      rw [if_neg opens, if_neg opens]
      by_cases closes : c = ')'
      · rw [if_pos closes, if_pos closes]
        exact forall₂_consFirst c (ih _)
      rw [if_neg closes, if_neg closes]
      split
      · exact .cons (.refl []) (ih 0)
      · exact forall₂_consFirst c (ih depth)
  | @runs gap gap' first second blank blank' present present' rest ih =>
      obtain ⟨entry, entries, found, divided⟩ :=
        splitEntriesAt_append (depthAfter?_of_blank depth blank) first
      obtain ⟨entry', entries', found', divided'⟩ :=
        splitEntriesAt_append (depthAfter?_of_blank depth blank') second
      have behind := ih depth
      rw [found, found', List.forall₂_cons] at behind
      rw [divided, divided']
      exact .cons (.runs blank blank' present present' behind.1) behind.2

/-! ## Names -/

/-- The names in an entry are those between the commas that deleting its constraints
leaves. -/
theorem entryNames_eq (entry : Text) :
    entryNames entry =
      ((splitAtChar ',' (stripConstraints entry)).map entryName).filter (!·.isEmpty) := by
  rw [entryNames, entryName, Text.map_trim_splitAtChar_trim (by decide),
    Text.splitAtChar_collapseBlanks (by decide), List.map_map]
  apply congrArg
  apply List.map_congr_left
  intro part listed
  have unmatched : Unmatched part :=
    (unmatched_stripConstraintsFrom false entry).sublist (Text.sublist_of_mem_splitAtChar listed)
  have settled : stripConstraints part = part := stripConstraints_of_unmatched unmatched
  rw [Function.comp_apply, entryName, settled]

/-- A reader finds the names that the entries hold, entry by entry. -/
theorem bodyNames_eq_flatMap_entryNames (body : Text) :
    bodyNames body = (splitEntries body).flatMap entryNames := by
  have present : (splitEntries body).map stripConstraints ≠ [] := by
    simpa using splitEntries_ne_nil body
  rw [bodyNames, stripConstraints_eq_intercalate, Text.splitAtChar_intercalate present,
    List.flatMap_map, List.map_flatMap, List.filter_flatMap]
  exact List.flatMap_congr fun entry _ => (entryNames_eq entry).symm

/-- The names in a body that goes on behind a comma and closes no parenthesis there are
those in front of the comma and those behind it. -/
theorem bodyNames_append_comma {front back : Text} (unclosing : ')' ∉ back) :
    bodyNames (front ++ ',' :: back) = bodyNames front ++ bodyNames back := by
  rw [bodyNames, bodyNames, bodyNames, stripConstraints,
    stripConstraintsFrom_append_of_unclosing (by simp) (by simp [unclosing]),
    Text.splitAtChar_append_separator, List.map_append, List.filter_append,
    stripConstraints_of_unclosing unclosing, stripConstraints]

/-- The name of an entry does not depend on the length of blanks. -/
theorem entryName_congr {first second : Text} (alike : SpacedAlike first second) :
    entryName first = entryName second :=
  (stripConstraintsFrom_spacedAlike false alike).trim_collapseBlanks

/-- The names of the entries of a body do not depend on the length of blanks. -/
theorem map_entryName_splitEntries_congr {first second : Text} (alike : SpacedAlike first second) :
    (splitEntries first).map entryName = (splitEntries second).map entryName := by
  rw [← List.forall₂_eq_eq_eq, List.forall₂_map_left_iff, List.forall₂_map_right_iff]
  exact (splitEntriesAt_spacedAlike 0 alike).imp fun _ _ => entryName_congr

/-- The names in a body do not depend on the length of blanks. -/
theorem bodyNames_congr {first second : Text} (alike : SpacedAlike first second) :
    bodyNames first = bodyNames second := by
  have pieces : List.Forall₂ SpacedAlike (splitAtChar ',' (stripConstraints first))
      (splitAtChar ',' (stripConstraints second)) :=
    (stripConstraintsFrom_spacedAlike false alike).splitAtChar (by decide)
  have named : List.Forall₂ (· = ·) ((splitAtChar ',' (stripConstraints first)).map entryName)
      ((splitAtChar ',' (stripConstraints second)).map entryName) := by
    rw [List.forall₂_map_left_iff, List.forall₂_map_right_iff]
    exact pieces.imp fun _ _ => entryName_congr
  rw [List.forall₂_eq_eq_eq] at named
  rw [bodyNames, bodyNames, named]

/-! ## Entries of one name -/

theorem comma_not_mem_of_mem_entryNames {entry name : Text} (listed : name ∈ entryNames entry) :
    ',' ∉ name := by
  obtain ⟨part, cut, rfl⟩ := List.mem_map.mp (List.mem_of_mem_filter listed)
  intro comma
  exact Text.not_mem_of_mem_splitAtChar cut ((Text.trim_sublist part).mem comma)

/-- An entry whose name holds no comma names that package, if any. -/
theorem entryNames_of_single {entry : Text} (single : ',' ∉ entryName entry) :
    entryNames entry = [entryName entry].filter (!·.isEmpty) := by
  have whole : splitAtChar ',' (entryName entry) = [entryName entry] := by
    rw [Text.splitAtChar_eq_splitOn, List.splitOn_eq_singleton single]
  rw [entryNames, whole, List.map_singleton, entryName, Text.trim_trim]

theorem eq_entryName_of_mem_entryNames {entry name : Text} (single : ',' ∉ entryName entry)
    (listed : name ∈ entryNames entry) : name = entryName entry := by
  rw [entryNames_of_single single] at listed
  exact List.mem_singleton.mp (List.mem_of_mem_filter listed)

/-- A comma behind which nothing is closed shows in the name of an entry. -/
theorem comma_mem_entryName {front back : Text} (unclosing : ')' ∉ back) :
    ',' ∈ entryName (front ++ ',' :: back) := by
  have visible : isBlank ',' = false := by decide
  have behind : ')' ∉ ',' :: back := by simp [unclosing]
  apply Text.mem_trim_of_visible visible
  apply Text.mem_collapseBlanks_of_visible visible
  rw [stripConstraints, stripConstraintsFrom_append_of_unclosing (by simp) behind]
  simp

theorem entryName_of_blank {entry : Text} (blank : Blank entry) : entryName entry = [] :=
  entryName_congr (.ends blank Text.blank_nil)

theorem entryNames_of_blank {entry : Text} (blank : Blank entry) : entryNames entry = [] := by
  rw [entryNames, entryName_of_blank blank]
  rfl

end DependencyGate.Manifest

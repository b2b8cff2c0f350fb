/-
# Putting lines together

Editors take a text apart into lines and write some of them, and other text, one
after another. What the result's lines are depends on its junctions alone: a text
that ends in a break keeps its lines whatever follows, unless a carriage return
meets a line feed (`lines_append`). And what every line starts with can be read off
the characters behind the breaks (`startsLater_of_isChain`), so a rebuilt text is
classified without knowing where its lines came from.
-/

import DependencyGate.Text.Line
import Mathlib.Data.List.Chain

namespace DependencyGate

open Text (isLineBreak)

/-! ## Single lines -/

/-- What ends a line: one break character, or a carriage return and a line feed. -/
def IsEnding (ending : Text) : Prop :=
  ending = ['\r', '\n'] ∨ ∃ c, isLineBreak c = true ∧ ending = [c]

theorem IsEnding.isLineBreak {ending : Text} (ends : IsEnding ending) :
    ∀ c ∈ ending, isLineBreak c = true := by
  intro c listed
  rcases ends with rfl | ⟨d, breaks, rfl⟩
  · rw [List.mem_cons, List.mem_singleton] at listed
    rcases listed with rfl | rfl <;> rfl
  · rw [List.mem_singleton.mp listed, breaks]

/-- A line that some text has: breaks occur only at its end, and it is not empty. -/
structure Line.IsSound (line : Line) : Prop where
  body_unbroken : ∀ c ∈ line.body, isLineBreak c = false
  ending_sound : line.ending = [] ∨ IsEnding line.ending
  full_ne_nil : line.full ≠ []

theorem Text.unbroken_of_all {text : Text} (all : text.all (!isLineBreak ·) = true) :
    ∀ c ∈ text, isLineBreak c = false := by
  intro c listed
  simpa using List.all_eq_true.mp all c listed

/-- A line that ends in a line feed, perhaps behind a carriage return. -/
structure Line.IsTerminated (line : Line) : Prop where
  body_unbroken : ∀ c ∈ line.body, isLineBreak c = false
  ending_feed : line.ending = ['\n'] ∨ line.ending = ['\r', '\n']

/-- The line as it is read: a carriage return, with the line feed that may follow it, becomes
a line feed. -/
def Line.unified (line : Line) : Line :=
  ⟨line.body, if line.ending.head? = some '\r' then ['\n'] else line.ending⟩

namespace Text

variable {text : Text} {line : Line}

/-- A character that breaks no line starts the first line. -/
theorem isSound_cons {c : Char} {first : Line} (unbroken : isLineBreak c = false)
    (sound : first.IsSound) : (⟨c :: first.body, first.ending⟩ : Line).IsSound where
  body_unbroken := by simpa [unbroken] using sound.body_unbroken
  ending_sound := sound.ending_sound
  full_ne_nil := by simp [Line.full]

theorem isSound_of_mem_lines (listed : line ∈ lines text) : line.IsSound := by
  fun_induction lines text generalizing line with
  | case1 => simp at listed
  | case2 rest ih =>
      rcases List.mem_cons.mp listed with rfl | later
      · exact ⟨by simp, .inr (.inl rfl), by simp [Line.full]⟩
      · exact ih later
  | case3 c rest _ breaks ih =>
      rcases List.mem_cons.mp listed with rfl | later
      · exact ⟨by simp, .inr (.inr ⟨c, breaks, rfl⟩), by simp [Line.full]⟩
      · exact ih later
  | case4 c rest _ unbroken ih =>
      rw [Bool.not_eq_true] at unbroken
      cases found : lines rest with
      | nil =>
          rw [found, consFirstLine, List.mem_singleton] at listed
          exact listed ▸ ⟨by simp [unbroken], .inl rfl, by simp [Line.full]⟩
      | cons first others =>
          rw [found] at ih
          rw [found, consFirstLine] at listed
          rcases List.mem_cons.mp listed with rfl | later
          · exact isSound_cons unbroken (ih List.mem_cons_self)
          · exact ih (List.mem_cons_of_mem first later)

theorem lines_eq_nil_iff : lines text = [] ↔ text = [] := by
  constructor
  · intro none
    rw [← flatMap_full_lines text, none]
    rfl
  · rintro rfl
    rfl

/-- Behind the first line of a text stand the lines of what follows it. -/
theorem lines_flatMap_full_of_cons {others : List Line} (split : lines text = line :: others) :
    lines (others.flatMap Line.full) = others := by
  fun_induction lines text generalizing line with
  | case1 => simp at split
  | case2 rest ih =>
      obtain ⟨rfl, rfl⟩ := List.cons.inj split
      rw [flatMap_full_lines]
  | case3 c rest _ _ ih =>
      obtain ⟨rfl, rfl⟩ := List.cons.inj split
      rw [flatMap_full_lines]
  | case4 c rest _ _ ih =>
      cases found : lines rest with
      | nil =>
          rw [found] at split
          obtain ⟨rfl, rfl⟩ := List.cons.inj split
          rfl
      | cons first behind =>
          rw [found] at split ih
          obtain ⟨rfl, rfl⟩ := List.cons.inj split
          exact ih rfl

/-- Any number of lines can be taken from the front of a text. -/
theorem lines_flatMap_full_of_append {front back : List Line}
    (split : lines text = front ++ back) : lines (back.flatMap Line.full) = back := by
  induction front generalizing text with
  | nil =>
      rw [List.nil_append] at split
      rw [← split, flatMap_full_lines]
  | cons line front ih => exact ih (lines_flatMap_full_of_cons split)

theorem flatMap_full_subset {part : List Line} (inside : part ⊆ lines text) :
    part.flatMap Line.full ⊆ text := by
  intro c listed
  obtain ⟨line, member, found⟩ := List.mem_flatMap.mp listed
  rw [← flatMap_full_lines text]
  exact List.mem_flatMap.mpr ⟨line, inside member, found⟩

/-- Only the last line can lack a break. -/
theorem isEnding_of_cons_cons {next : Line} {others : List Line}
    (split : lines text = line :: next :: others) : IsEnding line.ending := by
  fun_induction lines text generalizing line with
  | case1 => simp at split
  | case2 rest ih => exact (List.cons.inj split).1 ▸ .inl rfl
  | case3 c rest _ breaks ih => exact (List.cons.inj split).1 ▸ .inr ⟨c, breaks, rfl⟩
  | case4 c rest _ _ ih =>
      cases found : lines rest with
      | nil => simp [found, consFirstLine] at split
      | cons first behind =>
          rw [found, consFirstLine, List.cons.injEq] at split
          obtain ⟨rfl, rfl⟩ := split
          have ended : IsEnding first.ending := ih found
          exact ended

/-! ## Junctions -/

/-- Whether a text ends where a line does, so that what follows starts a new one. -/
def EndsBefore (front back : Text) : Prop :=
  back = [] ∨ ∀ c ∈ front.getLast?, isLineBreak c = true ∧ (c = '\r' → back.head? ≠ some '\n')

theorem EndsBefore.of_cons {c : Char} {front back : Text}
    (ends : EndsBefore (c :: front) back) : EndsBefore front back := by
  cases front with
  | nil => exact .inr (by simp)
  | cons next front =>
      rcases ends with none | breaks
      · exact .inl none
      · exact .inr fun last found => breaks last (by simpa using found)

theorem lines_cons_of_isLineBreak {c : Char} {rest : Text} (breaks : isLineBreak c = true)
    (clear : c = '\r' → rest.head? ≠ some '\n') :
    lines (c :: rest) = ⟨[], [c]⟩ :: lines rest := by
  rw [lines.eq_def]
  split <;> simp_all

/-- Lines stay as they are when text is added behind the break that ends the last. -/
theorem lines_append {front back : Text} (ends : EndsBefore front back) :
    lines (front ++ back) = lines front ++ lines back := by
  rcases ends with rfl | breaks
  · simp [lines]
  fun_induction lines front with
  | case1 => rfl
  | case2 rest ih =>
      rw [List.cons_append, List.cons_append, lines, ih, List.cons_append]
      intro c last
      cases rest with
      | nil => simp at last
      | cons next rest => exact breaks c (by simpa using last)
  | case3 c rest apart broken ih =>
      have clear : c = '\r' → (rest ++ back).head? ≠ some '\n' := by
        rintro isReturn
        cases rest with
        | nil => exact (breaks c (by simp)).2 isReturn
        | cons next rest =>
            intro found
            obtain rfl : next = '\n' := by simpa using found
            exact apart rest isReturn rfl
      have breaksBehind : ∀ d ∈ rest.getLast?, isLineBreak d = true ∧
          (d = '\r' → back.head? ≠ some '\n') := by
        intro d last
        cases rest with
        | nil => simp at last
        | cons next rest => exact breaks d (by simpa using last)
      rw [List.cons_append, lines_cons_of_isLineBreak broken clear, ih breaksBehind,
        List.cons_append]
  | case4 c rest apart unbroken ih =>
      have later : rest ≠ [] := by
        rintro rfl
        exact unbroken (breaks c (by simp)).1
      obtain ⟨first, others, found⟩ := List.exists_cons_of_ne_nil (mt lines_eq_nil_iff.mp later)
      rw [List.cons_append, lines, if_neg unbroken, ih, found]
      · rfl
      · intro d last
        obtain ⟨next, behind, rfl⟩ := List.exists_cons_of_ne_nil later
        exact breaks d (by simpa using last)
      · intro behind isReturn joined
        exact unbroken (by rw [isReturn]; decide)

theorem getLast?_full {line : Line} (ends : IsEnding line.ending) :
    ∃ c, line.full.getLast? = some c ∧ isLineBreak c = true := by
  have present : line.ending ≠ [] := by
    rcases ends with equal | ⟨c, _, equal⟩ <;> simp [equal]
  refine ⟨line.ending.getLast present, ?_, ends.isLineBreak _ (List.getLast_mem present)⟩
  rw [Line.full, List.getLast?_append, List.getLast?_eq_some_getLast present]
  rfl

/-- A text without breaks does not reach beyond the first break. -/
theorem isPrefixOf_append_break {start body behind : Text}
    (unbroken : ∀ c ∈ start, isLineBreak c = false)
    (breaks : ∀ c ∈ behind.head?, isLineBreak c = true) :
    start.isPrefixOf (body ++ behind) = start.isPrefixOf body := by
  induction start generalizing body with
  | nil => simp
  | cons c start ih =>
      rw [List.forall_mem_cons] at unbroken
      cases body with
      | cons d body =>
          rw [List.cons_append, List.isPrefixOf, List.isPrefixOf, ih unbroken.2]
      | nil =>
          cases behind with
          | nil => rfl
          | cons d behind =>
              have different : c ≠ d := by
                rintro rfl
                simpa [unbroken.1] using breaks c (by simp)
              simp [List.isPrefixOf, different]

/-- What stands before a line of a text ends in a break. -/
theorem exists_getLast?_of_lines_eq_append {front : List Line} {next : Line} {back : List Line}
    (split : lines text = front ++ next :: back) (present : front ≠ []) :
    ∃ c, (front.flatMap Line.full).getLast? = some c ∧ isLineBreak c = true := by
  obtain ⟨others, last, rfl⟩ := List.eq_nil_or_concat front |>.resolve_left present
  rw [List.concat_eq_append, List.append_assoc, List.singleton_append] at split
  have behind := lines_flatMap_full_of_append split
  obtain ⟨c, found, breaks⟩ := getLast?_full (isEnding_of_cons_cons behind)
  refine ⟨c, ?_, breaks⟩
  rw [List.concat_eq_append, List.flatMap_append, List.flatMap_singleton, List.getLast?_append,
    found]
  rfl

/-- If a text ends in a break, then so does each of its lines. -/
theorem exists_getLast?_full_of_ended (ended : ∀ c ∈ text.getLast?, isLineBreak c = true)
    {line : Line} (listed : line ∈ lines text) :
    ∃ c, line.full.getLast? = some c ∧ isLineBreak c = true := by
  obtain ⟨front, back, split⟩ := List.append_of_mem listed
  cases back with
  | cons next others =>
      exact getLast?_full (isEnding_of_cons_cons (lines_flatMap_full_of_append split))
  | nil =>
      have present : line.full ≠ [] := (isSound_of_mem_lines listed).full_ne_nil
      have spelled : text = front.flatMap Line.full ++ line.full := by
        rw [← flatMap_full_lines text, split]
        simp
      have last := List.getLast?_eq_some_getLast present
      refine ⟨_, last, ended _ ?_⟩
      rw [spelled, List.getLast?_append, last]
      rfl

theorem lines_cons_of_unbroken {c : Char} (unbroken : isLineBreak c = false) (rest : Text) :
    lines (c :: rest) = consFirstLine c (lines rest) := by
  have plain : c ≠ '\r' := by
    rintro rfl
    exact absurd unbroken (by decide)
  rw [lines, if_neg (by simp [unbroken])]
  exact fun _ isReturn => absurd isReturn plain

/-- A text without breaks is its only line, if it is one at all. -/
theorem lines_of_unbroken (unbroken : ∀ c ∈ text, isLineBreak c = false) (present : text ≠ []) :
    lines text = [⟨text, []⟩] := by
  induction text with
  | nil => exact absurd rfl present
  | cons c rest ih =>
      rw [List.forall_mem_cons] at unbroken
      rw [lines_cons_of_unbroken unbroken.1]
      cases rest with
      | nil => rfl
      | cons next rest => rw [ih unbroken.2 (List.cons_ne_nil next rest)]; rfl

theorem map_body_consFirstLine (c : Char) (found : List Line) :
    (consFirstLine c found).map Line.body = consFirst c (found.map Line.body) := by
  cases found <;> rfl

/-- An ending behind a text completes its last line or is a line of its own. -/
theorem map_body_lines_append_ending {ending : Text}
    (ends : ending = ['\r', '\n'] ∨ ending = ['\n']) (unended : text.getLast? ≠ some '\r') :
    (lines (text ++ ending)).map Line.body = (lines text).map Line.body ∨
      (lines (text ++ ending)).map Line.body = (lines text).map Line.body ++ [[]] := by
  fun_induction lines text with
  | case1 =>
      right
      rcases ends with rfl | rfl <;> rfl
  | case2 rest ih =>
      have behind := ih fun last => unended (by simp [List.getLast?_cons, last])
      rw [List.cons_append, List.cons_append, lines]
      simpa using behind
  | case3 c rest apart breaks ih =>
      have behind := ih fun last => unended (by simp [List.getLast?_cons, last])
      have clear : c = '\r' → (rest ++ ending).head? ≠ some '\n' := by
        rintro isReturn
        cases rest with
        | nil => simp [isReturn] at unended
        | cons next rest => exact fun found => apart rest isReturn (by simpa using found)
      rw [List.cons_append, lines_cons_of_isLineBreak breaks clear]
      simpa using behind
  | case4 c rest apart unbroken ih =>
      rw [Bool.not_eq_true] at unbroken
      have behind := ih fun last => unended (by simp [List.getLast?_cons, last])
      rw [List.cons_append, lines_cons_of_unbroken unbroken, map_body_consFirstLine,
        map_body_consFirstLine]
      rcases behind with same | longer
      · exact .inl (congrArg _ same)
      · rw [longer]
        cases (lines rest).map Line.body with
        | nil => exact .inl rfl
        | cons first others => exact .inr rfl

/-! ## What lines start with -/

/-- What may come behind a character if every line starts with an accepted one. -/
def StartsLines (accept : Char → Prop) (c d : Char) : Prop :=
  isLineBreak c = true → accept d ∨ c = '\r' ∧ d = '\n'

variable {accept : Char → Prop}

instance [DecidablePred accept] : DecidableRel (StartsLines accept) := fun c d =>
  inferInstanceAs (Decidable (isLineBreak c = true → accept d ∨ c = '\r' ∧ d = '\n'))

theorem isChain_of_unbroken {body : Text} (unbroken : ∀ c ∈ body, isLineBreak c = false) :
    body.IsChain (StartsLines accept) := by
  induction body with
  | nil => exact .nil
  | cons c rest ih =>
      rw [List.isChain_cons]
      constructor
      · intro d _ breaks
        rw [unbroken c List.mem_cons_self] at breaks
        exact absurd breaks (by simp)
      · apply ih
        intro d listed
        exact unbroken d (List.mem_cons_of_mem c listed)

theorem isChain_full {line : Line} (sound : line.IsSound) :
    line.full.IsChain (StartsLines accept) := by
  rw [Line.full, List.isChain_append]
  refine ⟨isChain_of_unbroken sound.body_unbroken, ?_, ?_⟩
  · rcases sound.ending_sound with equal | equal | ⟨c, _, equal⟩ <;>
      simp [equal, StartsLines]
  · intro c last d _ breaks
    rw [sound.body_unbroken c (List.mem_of_getLast? last)] at breaks
    exact absurd breaks (by simp)

/-- Lines of which all but the first start with an accepted character. -/
theorem isChain_flatMap_full {found : List Line} (sound : ∀ line ∈ found, line.IsSound)
    (later : ∀ line ∈ found.tail, ∀ c ∈ line.full.head?, accept c) :
    (found.flatMap Line.full).IsChain (StartsLines accept) := by
  induction found with
  | nil => exact .nil
  | cons line others ih =>
      rw [List.forall_mem_cons] at sound
      rw [List.flatMap_cons, List.isChain_append]
      refine ⟨isChain_full sound.1,
        ih sound.2 fun next listed => later next (List.mem_of_mem_tail listed), ?_⟩
      intro c _ d first _
      cases others with
      | nil => simp at first
      | cons next others =>
          obtain ⟨head, behind, equal⟩ :=
            List.exists_cons_of_ne_nil (sound.2 next List.mem_cons_self).full_ne_nil
          left
          apply later next List.mem_cons_self d
          simpa [equal] using first

/-- The first line of a text starts as the text does. -/
theorem head?_full_of_lines_eq_cons {others : List Line} (split : lines text = line :: others) :
    line.full.head? = text.head? := by
  have listed : line ∈ lines text := by simp [split]
  have sound : line.IsSound := isSound_of_mem_lines listed
  obtain ⟨head, behind, equal⟩ := List.exists_cons_of_ne_nil sound.full_ne_nil
  rw [← flatMap_full_lines text, split, List.flatMap_cons, equal]
  rfl

/-- All lines of a text start with accepted characters if the text itself and all
lines but the first do. -/
theorem starts_of_startsLater (head : ∀ c ∈ text.head?, accept c)
    (later : ∀ line ∈ (lines text).tail, ∀ c ∈ line.full.head?, accept c) :
    ∀ line ∈ lines text, ∀ c ∈ line.full.head?, accept c := by
  cases split : lines text with
  | nil => simp
  | cons first others =>
      rw [split] at later
      exact List.forall_mem_cons.mpr ⟨head?_full_of_lines_eq_cons split ▸ head, later⟩

/-- In a text whose breaks are followed by accepted characters, every line but the
first starts with one. -/
theorem startsLater_of_isChain (chain : text.IsChain (StartsLines accept)) :
    ∀ line ∈ (lines text).tail, ∀ c ∈ line.full.head?, accept c := by
  fun_induction lines text with
  | case1 => simp
  | case2 rest ih =>
      obtain ⟨_, atFeed, chainRest⟩ := by simpa only [List.isChain_cons] using chain
      apply starts_of_startsLater _ (ih chainRest)
      intro c first
      exact (atFeed c first (by decide)).resolve_right (by simp)
  | case3 c rest apart breaks ih =>
      obtain ⟨atBreak, chainRest⟩ := List.isChain_cons.mp chain
      apply starts_of_startsLater _ (ih chainRest)
      intro d first
      apply (atBreak d first breaks).resolve_right
      rintro ⟨isReturn, rfl⟩
      obtain ⟨others, rfl⟩ := List.head?_eq_some_iff.mp first
      exact apart others isReturn rfl
  | case4 c rest apart unbroken ih =>
      have chainRest := (List.isChain_cons.mp chain).2
      cases split : lines rest with
      | nil => simp [consFirstLine]
      | cons first others =>
          rw [split] at ih
          exact ih chainRest

/-! ## Terminated lines -/

section Terminated

theorem getLast?_full_of_terminated (terminated : line.IsTerminated) :
    line.full.getLast? = some '\n' := by
  rcases terminated.ending_feed with feed | feed <;> simp [Line.full, feed]

theorem isSound_of_terminated (terminated : line.IsTerminated) : line.IsSound where
  body_unbroken := terminated.body_unbroken
  ending_sound := by
    rcases terminated.ending_feed with feed | feed
    · exact .inr (.inr ⟨'\n', rfl, feed⟩)
    · exact .inr (.inl feed)
  full_ne_nil := by
    intro empty
    simpa [empty] using getLast?_full_of_terminated terminated

theorem endsBefore_of_getLast? {front : Text} (last : front.getLast? = some '\n') (back : Text) :
    EndsBefore front back := by
  right
  intro c lastToo
  obtain rfl : '\n' = c := by simpa [last] using lastToo
  exact ⟨by decide, by simp⟩

/-- A terminated line is the one line of its text. -/
theorem lines_full_of_terminated (terminated : line.IsTerminated) : lines line.full = [line] := by
  obtain ⟨body, ending⟩ := line
  obtain ⟨unbroken, feed⟩ := terminated
  simp only [Line.full] at unbroken feed ⊢
  induction body with
  | nil => rcases feed with rfl | rfl <;> rfl
  | cons c body ih =>
      rw [List.forall_mem_cons] at unbroken
      rw [List.cons_append, lines_cons_of_unbroken unbroken.1, ih unbroken.2]
      rfl

/-- Terminated lines, written one after another, are the lines of the text. -/
theorem lines_flatMap_full_of_terminated {part : List Line}
    (terminated : ∀ line ∈ part, line.IsTerminated) : lines (part.flatMap Line.full) = part := by
  induction part with
  | nil => rfl
  | cons line part ih =>
      rw [List.forall_mem_cons] at terminated
      rw [List.flatMap_cons,
        lines_append (endsBefore_of_getLast? (getLast?_full_of_terminated terminated.1) _),
        lines_full_of_terminated terminated.1, ih terminated.2, List.singleton_append]

/-- A text of terminated lines ends in a line feed if there is any. -/
theorem getLast?_flatMap_full_of_terminated {part : List Line}
    (terminated : ∀ line ∈ part, line.IsTerminated) (present : part ≠ []) :
    (part.flatMap Line.full).getLast? = some '\n' := by
  obtain ⟨others, line, rfl⟩ := List.eq_nil_or_concat part |>.resolve_left present
  rw [List.concat_eq_append, List.flatMap_append, List.flatMap_singleton, List.getLast?_append,
    getLast?_full_of_terminated (terminated line (by simp))]
  rfl

end Terminated

/-! ## Line endings -/

theorem return_not_mem_unifyLineEndings (text : Text) : '\r' ∉ unifyLineEndings text := by
  fun_induction unifyLineEndings text with
  | case1 => simp
  | case2 rest ih => simp [ih]
  | case3 c rest _ ih =>
      rw [List.mem_cons, not_or]
      refine ⟨?_, ih⟩
      split
      case isTrue => decide
      case isFalse other => exact Ne.symm other

theorem unifyLineEndings_eq_self (absent : '\r' ∉ text) : unifyLineEndings text = text := by
  fun_induction unifyLineEndings text with
  | case1 => rfl
  | case2 rest ih => simp at absent
  | case3 c rest _ ih =>
      rw [List.mem_cons, not_or] at absent
      rw [if_neg (Ne.symm absent.1), ih absent.2]

/-- Unifying the endings of a text is unifying those of its lines. -/
theorem lines_unifyLineEndings (text : Text) :
    lines text.unifyLineEndings = (lines text).map Line.unified := by
  fun_induction lines text with
  | case1 => rfl
  | case2 rest ih =>
      rw [unifyLineEndings, lines_cons_of_isLineBreak rfl (by simp), ih]
      rfl
  | case3 c rest apart breaks ih =>
      rw [unifyLineEndings.eq_3 _ _ apart]
      by_cases isReturn : c = '\r'
      · subst isReturn
        rw [if_pos rfl, lines_cons_of_isLineBreak rfl (by simp), ih]
        rfl
      · rw [if_neg isReturn, lines_cons_of_isLineBreak breaks fun same => absurd same isReturn, ih,
          List.map_cons, Line.unified, if_neg (by simpa using isReturn)]
  | case4 c rest apart unbroken ih =>
      have plain : c ≠ '\r' := by
        rintro rfl
        exact unbroken rfl
      rw [unifyLineEndings.eq_3 _ _ apart, if_neg plain,
        lines_cons_of_unbroken (by simpa using unbroken), ih]
      cases lines rest <;> rfl

theorem subset_of_contains {part : Text} (occurs : contains part text = true) : part ⊆ text := by
  fun_induction contains part text with
  | case1 => rw [List.isEmpty_iff.mp occurs]; exact List.nil_subset _
  | case2 c rest ih =>
      rw [Bool.or_eq_true] at occurs
      rcases occurs with front | later
      · exact (List.isPrefixOf_iff_prefix.mp front).subset
      · exact List.Subset.trans (ih later) (List.subset_cons_self c rest)

/-- Without carriage returns the ending is a line feed. -/
theorem lineEnding_of_return_not_mem (absent : '\r' ∉ text) : lineEnding text = ['\n'] := by
  have missing : ¬contains ['\r', '\n'] text := fun occurs =>
    absent (subset_of_contains occurs List.mem_cons_self)
  rw [lineEnding, if_neg missing]

end Text
end DependencyGate

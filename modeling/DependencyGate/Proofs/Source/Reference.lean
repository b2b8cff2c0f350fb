/-
# How references are spelled

What a reference looks like, said without any reading: the parts of a library call and of a
roxygen tag in the order in which they stand. Each recogniser finds exactly the texts that
begin with such a spelling, and the package that it finds is the one that is spelled.
-/

import DependencyGate.Proofs.PackageName
import DependencyGate.Source.Token

namespace DependencyGate.Source

open PackageName (isNameChar)
open Text (Blank isBlank)

variable {text name rest tag : Text}

/-! ## The parts of a reference -/

/-- A letter, and behind it characters that may stand in a name. -/
structure IsName (name : Text) : Prop where
  letter : ∃ c ∈ name.head?, c.isAlpha = true
  run : ∀ c ∈ name, isNameChar c = true

/-- A name as it stands in front of a text: the run of its characters is as long as can be. -/
structure NameBefore (name rest : Text) : Prop extends IsName name where
  longest : ∀ c ∈ rest.head?, isNameChar c = false

/-- The words that attach a package. -/
def callWords : List Text := ["library", "require"]

/-- A quote that may be left out. -/
def quotes : List Text := [[], ['"'], ['\'']]

/-- The texts that begin with a library call, and what follows it. -/
inductive StartsCall (name rest : Text) : Text → Prop
  | spelled {word gap inner opening closing pad : Text} (called : word ∈ callWords)
      (blankGap : Blank gap) (blankInner : Blank inner) (opens : opening ∈ quotes)
      (named : NameBefore name (closing ++ (pad ++ ')' :: rest))) (closes : closing ∈ quotes)
      (blankPad : Blank pad) :
      StartsCall name rest (word ++ (gap ++ '(' ::
        (inner ++ (opening ++ (name ++ (closing ++ (pad ++ ')' :: rest)))))))

/-- The texts that begin with a roxygen tag that names a package, and what follows it. -/
inductive StartsTag (tag name rest : Text) : Text → Prop
  | spelled {gap space : Text} (blankGap : Blank gap) (blankSpace : Blank space)
      (apart : space ≠ []) (named : NameBefore name rest) :
      StartsTag tag name rest ('#' :: '\'' :: (gap ++ (tag ++ (space ++ (name ++ rest)))))

/-! ## Reading the parts -/

theorem mem_quotes {quote : Text} :
    quote ∈ quotes ↔ quote = [] ∨ quote = ['"'] ∨ quote = ['\''] := by
  simp only [quotes, List.mem_cons, List.not_mem_nil, or_false]

theorem isNameChar_of_isAlpha {c : Char} (letter : c.isAlpha = true) : isNameChar c = true := by
  simp [isNameChar, Char.isAlphanum, letter]

theorem IsName.exists_cons (named : IsName name) :
    ∃ first others, name = first :: others ∧ first.isAlpha = true := by
  obtain ⟨first, leads, letter⟩ := named.letter
  cases name with
  | nil => simp at leads
  | cons c others => exact ⟨c, others, rfl, by simpa [Option.some.inj leads] using letter⟩

theorem after?_eq_some_iff {start : Text} :
    after? start text = some rest ↔ text = start ++ rest := by
  rw [after?]
  split
  case isTrue starts =>
    obtain ⟨others, rfl⟩ := List.isPrefixOf_iff_prefix.mp starts
    simp
  case isFalse differs =>
    simp only [reduceCtorEq, false_iff]
    rintro rfl
    exact differs (List.isPrefixOf_iff_prefix.mpr (List.prefix_append start rest))

theorem called_eq_some_iff :
    (after? "library" text <|> after? "require" text) = some rest ↔
      ∃ word ∈ callWords, text = word ++ rest := by
  rw [callWords, List.exists_mem_cons_iff]
  simp only [List.mem_singleton, exists_eq_left]
  constructor
  · intro called
    cases attached : after? "library" text with
    | some others =>
        rw [attached] at called
        obtain rfl : others = rest := Option.some.inj called
        exact .inl (after?_eq_some_iff.mp attached)
    | none =>
        rw [attached] at called
        exact .inr (after?_eq_some_iff.mp called)
  · rintro (rfl | rfl)
    · rw [after?_eq_some_iff.mpr rfl]
      rfl
    · rw [after?_eq_some_iff.mpr rfl]
      rfl

theorem trimStart_eq_iff (visible : ∀ c ∈ rest.head?, isBlank c = false) :
    text.trimStart = rest ↔ ∃ gap, Blank gap ∧ text = gap ++ rest := by
  constructor
  · rintro rfl
    exact ⟨text.takeWhile isBlank, fun _ listed => List.mem_takeWhile_imp listed,
      (List.takeWhile_append_dropWhile ..).symm⟩
  · rintro ⟨gap, blank, rfl⟩
    rw [Text.trimStart_append_of_blank blank, Text.trimStart_eq_self visible]

theorem exists_quote_skipQuote (text : Text) :
    ∃ quote ∈ quotes, text = quote ++ skipQuote text := by
  fun_cases skipQuote text with
  | case1 rest => exact ⟨['"'], by decide, rfl⟩
  | case2 rest => exact ⟨['\''], by decide, rfl⟩
  | case3 => exact ⟨[], by decide, rfl⟩

theorem skipQuote_append {quote : Text} (optional : quote ∈ quotes)
    (bare : ∀ c ∈ text.head?, c ≠ '"' ∧ c ≠ '\'') : skipQuote (quote ++ text) = text := by
  rcases mem_quotes.mp optional with rfl | rfl | rfl
  · cases text with
    | nil => rfl
    | cons c others =>
        obtain ⟨notDouble, notSingle⟩ := bare c rfl
        rw [List.nil_append, skipQuote]
        · rintro _ same
          exact notDouble (List.cons.inj same).1
        · rintro _ same
          exact notSingle (List.cons.inj same).1
  · rfl
  · rfl

section Runs

variable {accepts : Char → Bool} {front : Text}

theorem takeWhile_append_of_stop (run : ∀ c ∈ front, accepts c = true)
    (stop : ∀ c ∈ text.head?, accepts c = false) : (front ++ text).takeWhile accepts = front := by
  rw [List.takeWhile_append_of_pos run]
  cases text with
  | nil => simp
  | cons c others => simp [stop c rfl]

theorem dropWhile_append_of_stop (run : ∀ c ∈ front, accepts c = true)
    (stop : ∀ c ∈ text.head?, accepts c = false) : (front ++ text).dropWhile accepts = text := by
  rw [List.dropWhile_append_of_pos run]
  cases text with
  | nil => rfl
  | cons c others => simp [stop c rfl]

theorem stop_dropWhile (accepts : Char → Bool) (text : Text) :
    ∀ c ∈ (text.dropWhile accepts).head?, accepts c = false := by
  intro c leads
  have stopped := List.head?_dropWhile_not accepts text
  rw [leads] at stopped
  simpa using stopped

/-- A text that begins with an accepted character begins with a longest run of them. -/
theorem longest_run {c : Char} (first : accepts c = true) (others : Text) :
    c :: others = c :: others.takeWhile accepts ++ others.dropWhile accepts ∧
      (∀ d ∈ c :: others.takeWhile accepts, accepts d = true) ∧
      ∀ d ∈ (others.dropWhile accepts).head?, accepts d = false :=
  ⟨congrArg (c :: ·) (List.takeWhile_append_dropWhile ..).symm,
    List.forall_mem_cons.mpr ⟨first, fun _ listed => List.mem_takeWhile_imp listed⟩,
    stop_dropWhile accepts others⟩

end Runs

theorem takeName?_eq_some_iff :
    takeName? text = some (name, rest) ↔ text = name ++ rest ∧ NameBefore name rest := by
  constructor
  · fun_cases takeName? text with
    | case1 => simp
    | case2 c others letter =>
        rintro ⟨⟩
        refine ⟨by simp, ⟨⟨c, rfl, letter⟩, ?_⟩, ?_⟩
        · rw [List.forall_mem_cons]
          exact ⟨isNameChar_of_isAlpha letter, fun _ listed => List.mem_takeWhile_imp listed⟩
        · exact stop_dropWhile isNameChar others
    | case3 => simp
  · rintro ⟨rfl, named⟩
    obtain ⟨first, others, rfl, letter⟩ := named.exists_cons
    have run := (List.forall_mem_cons.mp named.run).2
    rw [List.cons_append, takeName?, if_pos letter, takeWhile_append_of_stop run named.longest,
      dropWhile_append_of_stop run named.longest]

/-- The name in front of a text and what follows it are determined. -/
theorem NameBefore.unique {other back : Text} (named : NameBefore name rest)
    (namedToo : NameBefore other back) (same : name ++ rest = other ++ back) :
    name = other ∧ rest = back := by
  have read := takeName?_eq_some_iff.mpr ⟨rfl, named⟩
  rw [takeName?_eq_some_iff.mpr ⟨same, namedToo⟩] at read
  obtain ⟨rfl, rfl⟩ := Prod.mk.inj (Option.some.inj read)
  exact ⟨rfl, rfl⟩

/-! ## What the recognisers recognise -/

theorem letter_apart {c : Char} (letter : c.isAlpha = true) :
    isBlank c = false ∧ c ≠ '"' ∧ c ≠ '\'' := by
  refine ⟨PackageName.isBlank_of_isNameChar (isNameChar_of_isAlpha letter), ?_, ?_⟩
  · rintro rfl
    exact absurd letter (by decide)
  · rintro rfl
    exact absurd letter (by decide)

theorem IsName.visible (named : IsName name) :
    ∀ c ∈ (name ++ rest).head?, isBlank c = false := by
  obtain ⟨first, others, rfl, letter⟩ := named.exists_cons
  simpa using (letter_apart letter).1

/-- Blanks and what is bare of names stand apart from a name. -/
theorem blank_apart {gap : Text} (blank : Blank gap) {stop : Char}
    (bare : isNameChar stop = false) :
    ∀ c ∈ (gap ++ stop :: rest).head?, isNameChar c = false := by
  cases gap with
  | nil => simpa using bare
  | cons first others =>
      simpa using PackageName.isNameChar_of_isBlank (blank first (List.mem_cons_self ..))

theorem pad_apart {pad : Text} (blank : Blank pad) :
    ∀ c ∈ (pad ++ ')' :: rest).head?, c ≠ '"' ∧ c ≠ '\'' := by
  cases pad with
  | nil => simp
  | cons first others =>
      intro c leads
      obtain rfl := Option.some.inj leads
      have isBlank := blank first (List.mem_cons_self ..)
      refine ⟨?_, ?_⟩
      · rintro rfl
        exact absurd isBlank (by decide)
      · rintro rfl
        exact absurd isBlank (by decide)

/-- Neither a quote nor a blank nor the parenthesis that closes a call stands in a name. -/
theorem closing_apart {closing pad : Text} (closes : closing ∈ quotes) (blank : Blank pad) :
    ∀ c ∈ (closing ++ (pad ++ ')' :: rest)).head?, isNameChar c = false := by
  rcases mem_quotes.mp closes with rfl | rfl | rfl
  · exact blank_apart blank (by decide)
  · simpa using (by decide : isNameChar '"' = false)
  · simpa using (by decide : isNameChar '\'' = false)

theorem quote_apart {opening : Text} (optional : opening ∈ quotes) (named : NameBefore name rest) :
    ∀ c ∈ (opening ++ (name ++ rest)).head?, isBlank c = false := by
  obtain ⟨first, others, rfl, letter⟩ := named.exists_cons
  rcases mem_quotes.mp optional with rfl | rfl | rfl
  · simpa using (letter_apart letter).1
  · simpa using (by decide : isBlank '"' = false)
  · simpa using (by decide : isBlank '\'' = false)

/-- A library call is recognised where one is spelled. -/
theorem libraryCall?_eq_some_iff :
    libraryCall? text = some name ↔ ∃ rest, StartsCall name rest text := by
  rw [libraryCall?]
  simp only [Option.bind_eq_bind, Option.bind_eq_some_iff, Option.pure_def, Prod.exists,
    Option.some.injEq, called_eq_some_iff, after?_eq_some_iff, takeName?_eq_some_iff]
  constructor
  · rintro ⟨called, ⟨word, attaches, rfl⟩, argument, opened, found, behind, ⟨read, named⟩, rest,
      closed, rfl⟩
    obtain ⟨gap, blankGap, rfl⟩ := (trimStart_eq_iff (by simp; decide)).mp opened
    obtain ⟨opening, opens, quoted⟩ := exists_quote_skipQuote argument.trimStart
    obtain ⟨closing, closes, left⟩ := exists_quote_skipQuote behind
    obtain ⟨pad, blankPad, ended⟩ := (trimStart_eq_iff (by simp; decide)).mp closed
    rw [ended] at left
    subst left
    rw [read] at quoted
    obtain ⟨inner, blankInner, rfl⟩ := (trimStart_eq_iff (quote_apart opens named)).mp quoted
    exact ⟨rest, .spelled attaches blankGap blankInner opens named closes blankPad⟩
  · rintro ⟨rest, @⟨word, gap, inner, opening, closing, pad, attaches, blankGap, blankInner, opens,
      named, closes, blankPad⟩⟩
    refine ⟨_, ⟨word, attaches, rfl⟩,
      inner ++ (opening ++ (name ++ (closing ++ (pad ++ ')' :: rest)))),
      (trimStart_eq_iff (by simp; decide)).mpr ⟨gap, blankGap, rfl⟩, name, _, ⟨?_, named⟩, rest,
      ?_, rfl⟩
    · rw [(trimStart_eq_iff (quote_apart opens named)).mpr ⟨inner, blankInner, rfl⟩]
      apply skipQuote_append opens
      obtain ⟨first, others, rfl, letter⟩ := named.exists_cons
      simpa using (letter_apart letter).2
    · rw [skipQuote_append closes (pad_apart blankPad)]
      exact (trimStart_eq_iff (by simp; decide)).mpr ⟨pad, blankPad, rfl⟩

/-- A roxygen tag is recognised where one is spelled. -/
theorem roxygenTag?_eq_some_iff (marked : tag.head? = some '@') :
    roxygenTag? tag text = some name ↔ ∃ rest, StartsTag tag name rest text := by
  rw [roxygenTag?]
  simp only [Option.bind_eq_bind, Option.bind_eq_some_iff, after?_eq_some_iff]
  have visible (others : Text) : ∀ c ∈ (tag ++ others).head?, isBlank c = false := by
    rw [List.head?_append, marked]
    intro c leads
    obtain rfl := Option.some.inj leads
    decide
  constructor
  · rintro ⟨comment, rfl, tagged, tags, found⟩
    split at found
    case isTrue => simp at found
    case isFalse apart =>
      obtain ⟨⟨_, rest⟩, read, same⟩ := Option.bind_eq_some_iff.mp found
      obtain rfl := Option.some.inj same
      obtain ⟨read, named⟩ := takeName?_eq_some_iff.mp read
      obtain ⟨gap, blankGap, rfl⟩ := (trimStart_eq_iff (visible tagged)).mp tags
      obtain ⟨space, blankSpace, rfl⟩ := (trimStart_eq_iff named.visible).mp read
      rw [read] at apart
      refine ⟨rest, .spelled blankGap blankSpace ?_ named⟩
      rintro rfl
      exact apart rfl
  · rintro ⟨rest, @⟨gap, space, blankGap, blankSpace, apart, named⟩⟩
    have read : Text.trimStart (space ++ (name ++ rest)) = name ++ rest :=
      (trimStart_eq_iff named.visible).mpr ⟨space, blankSpace, rfl⟩
    refine ⟨gap ++ (tag ++ (space ++ (name ++ rest))), rfl, space ++ (name ++ rest),
      (trimStart_eq_iff (visible _)).mpr ⟨gap, blankGap, rfl⟩, ?_⟩
    rw [read, if_neg (by simpa using apart), takeName?_eq_some_iff.mpr ⟨rfl, named⟩]
    rfl

/-! ## No reference begins inside another -/

section Skipping

variable {recognise : Text → Option Text} {skipped others : Text} {c : Char}

/-- Positions at which nothing is recognised can be skipped. -/
theorem matchesIn_append (none : ∀ tail, tail ≠ [] → tail <:+ skipped →
    recognise (tail ++ rest) = none) :
    matchesIn recognise (skipped ++ rest) = matchesIn recognise rest := by
  induction skipped with
  | nil => rfl
  | cons c others ih =>
      have first := none (c :: others) (List.cons_ne_nil _ _) (List.suffix_refl _)
      rw [List.cons_append] at first ⊢
      rw [matchesIn, first]
      exact ih fun tail some within => none tail some (within.trans (List.suffix_cons _ _))

theorem isNameChar_of_mem_callWord {word : Text} (attaches : word ∈ callWords) :
    ∀ c ∈ word, isNameChar c = true := by
  rw [callWords, List.mem_cons, List.mem_singleton] at attaches
  rcases attaches with rfl | rfl
  · exact List.all_eq_true.mp rfl
  · exact List.all_eq_true.mp rfl

/-- A call begins with its word, and the parenthesis comes next. -/
theorem StartsCall.runs (starts : StartsCall name rest text) :
    text.takeWhile isNameChar ∈ callWords ∧
      (Text.trimStart (text.dropWhile isNameChar)).head? = some '(' := by
  obtain @⟨word, gap, inner, opening, closing, pad, attaches, blankGap, -⟩ := starts
  have run : ∀ c ∈ word, isNameChar c = true := isNameChar_of_mem_callWord attaches
  rw [takeWhile_append_of_stop run (blank_apart blankGap (by decide)),
    dropWhile_append_of_stop run (blank_apart blankGap (by decide)),
    (trimStart_eq_iff (by simp; decide)).mpr ⟨gap, blankGap, rfl⟩]
  exact ⟨attaches, rfl⟩

theorem libraryCall?_eq_none (elsewhere : text.takeWhile isNameChar ∉ callWords ∨
    (Text.trimStart (text.dropWhile isNameChar)).head? ≠ some '(') : libraryCall? text = none := by
  cases recognised : libraryCall? text with
  | none => rfl
  | some name =>
      obtain ⟨rest, starts⟩ := libraryCall?_eq_some_iff.mp recognised
      rcases elsewhere with noWord | closed
      · exact absurd starts.runs.1 noWord
      · exact absurd starts.runs.2 closed

/-- No call begins where no name character stands. -/
theorem matchesIn_libraryCall?_of_bare (bare : ∀ c ∈ skipped, isNameChar c = false) :
    matchesIn libraryCall? (skipped ++ rest) = matchesIn libraryCall? rest := by
  refine matchesIn_append fun tail some within => libraryCall?_eq_none (.inl ?_)
  obtain ⟨c, others, rfl⟩ := List.exists_cons_of_ne_nil some
  have refused := bare c (within.subset (List.mem_cons_self ..))
  rw [List.cons_append, List.takeWhile_cons_of_neg (by simp [refused])]
  decide

theorem isNameChar_of_mem_quotes {quote : Text} (optional : quote ∈ quotes) :
    ∀ c ∈ quote, isNameChar c = false := by
  rcases mem_quotes.mp optional with rfl | rfl | rfl
  · exact List.forall_mem_nil _
  · exact List.forall_mem_singleton.mpr rfl
  · exact List.forall_mem_singleton.mpr rfl

/-- The word of a call is too short for another call to begin in it. -/
theorem matchesIn_libraryCall?_of_word (attaches : c :: others ∈ callWords)
    (stop : ∀ d ∈ rest.head?, isNameChar d = false) :
    matchesIn libraryCall? (others ++ rest) = matchesIn libraryCall? rest := by
  have wide : ∀ word ∈ callWords, word.length = 7 := by
    rw [callWords, List.forall_mem_cons, List.forall_mem_singleton]
    exact ⟨rfl, rfl⟩
  refine matchesIn_append fun tail _ within => libraryCall?_eq_none (.inl ?_)
  have run : ∀ d ∈ tail, isNameChar d = true := fun d listed =>
    isNameChar_of_mem_callWord attaches d (List.mem_cons_of_mem _ (within.subset listed))
  rw [takeWhile_append_of_stop run stop]
  intro listed
  have short := within.length_le
  have whole := wide _ attaches
  rw [List.length_cons] at whole
  have same := wide tail listed
  omega

/-- No call begins in a name if no parenthesis opens behind it. -/
theorem matchesIn_libraryCall?_of_name (run : ∀ d ∈ name, isNameChar d = true)
    (stop : ∀ d ∈ rest.head?, isNameChar d = false)
    (closed : (Text.trimStart rest).head? ≠ some '(') :
    matchesIn libraryCall? (name ++ rest) = matchesIn libraryCall? rest := by
  refine matchesIn_append fun tail _ within => libraryCall?_eq_none (.inr ?_)
  rwa [dropWhile_append_of_stop (fun d listed => run d (within.subset listed)) stop]

theorem head?_trimStart_closing {closing pad : Text} (closes : closing ∈ quotes)
    (blank : Blank pad) :
    (Text.trimStart (closing ++ (pad ++ ')' :: rest))).head? ≠ some '(' := by
  rcases mem_quotes.mp closes with rfl | rfl | rfl
  · rw [List.nil_append, (trimStart_eq_iff (by simp; decide)).mpr ⟨pad, blank, rfl⟩]
    simp
  · rw [Text.trimStart_eq_self (by simp; decide)]
    simp
  · rw [Text.trimStart_eq_self (by simp; decide)]
    simp

/-- Behind the first character of a call, none begins before the call ends. -/
theorem StartsCall.skip (starts : StartsCall name rest (c :: others)) :
    rest.length ≤ others.length ∧ matchesIn libraryCall? others = matchesIn libraryCall? rest := by
  generalize spelled : c :: others = text at starts
  obtain @⟨word, gap, inner, opening, closing, pad, attaches, blankGap, blankInner, opens, named,
    closes, blankPad⟩ := starts
  have some : word ≠ [] := fun none => absurd (none ▸ attaches) (by decide)
  obtain ⟨first, tail, rfl⟩ := List.exists_cons_of_ne_nil some
  rw [List.cons_append, List.cons.injEq] at spelled
  obtain ⟨rfl, rfl⟩ := spelled
  have opened : ∀ d ∈ gap ++ '(' :: (inner ++ opening), isNameChar d = false := by
    simp only [List.forall_mem_append, List.forall_mem_cons]
    exact ⟨fun d listed => PackageName.isNameChar_of_isBlank (blankGap d listed), by decide,
      fun d listed => PackageName.isNameChar_of_isBlank (blankInner d listed),
      isNameChar_of_mem_quotes opens⟩
  have closed : ∀ d ∈ closing ++ (pad ++ [')']), isNameChar d = false := by
    simp only [List.forall_mem_append, List.forall_mem_singleton]
    exact ⟨isNameChar_of_mem_quotes closes,
      fun d listed => PackageName.isNameChar_of_isBlank (blankPad d listed), by decide⟩
  refine ⟨by simp only [List.length_append, List.length_cons]; omega, ?_⟩
  have regroupOpened (behind : Text) : gap ++ '(' :: (inner ++ (opening ++ behind)) =
      (gap ++ '(' :: (inner ++ opening)) ++ behind := by simp
  have regroupClosed : closing ++ (pad ++ ')' :: rest) = (closing ++ (pad ++ [')'])) ++ rest := by
    simp
  -- no call begins in the word, between it and the name, in the name, or behind that
  rw [matchesIn_libraryCall?_of_word attaches (blank_apart blankGap (by decide)), regroupOpened,
    matchesIn_libraryCall?_of_bare opened, matchesIn_libraryCall?_of_name named.run named.longest
      (head?_trimStart_closing closes blankPad), regroupClosed,
    matchesIn_libraryCall?_of_bare closed]

/-- Behind the first character of a tag, none begins before the tag ends. -/
theorem StartsTag.skip (marked : tag.head? = some '@') (plain : '#' ∉ tag)
    (starts : StartsTag tag name rest (c :: others)) :
    rest.length ≤ others.length ∧
      matchesIn (roxygenTag? tag) others = matchesIn (roxygenTag? tag) rest := by
  generalize spelled : c :: others = text at starts
  obtain @⟨gap, space, blankGap, blankSpace, apart, named⟩ := starts
  rw [List.cons.injEq] at spelled
  obtain ⟨rfl, rfl⟩ := spelled
  refine ⟨by simp only [List.length_append, List.length_cons]; omega, ?_⟩
  have unmarked : '#' ∉ '\'' :: (gap ++ (tag ++ (space ++ name))) := by
    simp only [List.mem_cons, List.mem_append, not_or]
    exact ⟨by decide, fun listed => absurd (blankGap _ listed) (by decide), plain,
      fun listed => absurd (blankSpace _ listed) (by decide),
      fun listed => absurd (named.run _ listed) (by decide)⟩
  have regroup : '\'' :: (gap ++ (tag ++ (space ++ (name ++ rest)))) =
      '\'' :: (gap ++ (tag ++ (space ++ name))) ++ rest := by simp
  rw [regroup]
  refine matchesIn_append fun tail some within => ?_
  obtain ⟨d, front, rfl⟩ := List.exists_cons_of_ne_nil some
  cases recognised : roxygenTag? tag (d :: front ++ rest) with
  | none => rfl
  | some found =>
      obtain ⟨_, starts⟩ := (roxygenTag?_eq_some_iff marked).mp recognised
      generalize read : d :: front ++ rest = text at starts
      cases starts
      obtain ⟨rfl, -⟩ := List.cons.inj read
      exact absurd (within.subset (List.mem_cons_self ..)) unmarked

end Skipping

end DependencyGate.Source

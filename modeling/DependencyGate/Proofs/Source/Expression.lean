/-
# Searching by regular expressions

The four patterns as regular expressions, and what a backtracking search finds with them. At
each position the ways to match are tried in the order of preference, where a repetition
prefers the longest run; the search then goes on behind the match that was found. Since no
character of a run can stand behind it, no shorter run ever matches in the end, and since no
match begins inside another, trying every position on its own finds the same.
-/

import DependencyGate.Proofs.Source.Reference

namespace DependencyGate.Source

open PackageName (isNameChar)
open Text (Blank isBlank)

/-- A regular expression, of what the patterns need: a repetition is of single characters. -/
inductive Expression
  | word (start : Text)
  | one (accepts : Char → Bool)
  | many (accepts : Char → Bool)
  | optional (accepts : Char → Bool)
  | either (first second : Expression)
  | next (first second : Expression)
  | group (inner : Expression)

/-- A match at the front of a text: what the group holds, if there is one, and what follows. -/
structure Match where
  held : Option Text
  rest : Text

namespace Expression

/-- What follows each run of accepted characters at the front of a text, the longest first. -/
def behindRuns (accepts : Char → Bool) : Text → List Text
  | [] => [[]]
  | c :: rest => if accepts c then behindRuns accepts rest ++ [c :: rest] else [c :: rest]

/-- What follows an accepted character at the front of a text. -/
def behindOne (accepts : Char → Bool) : Text → List Text
  | [] => []
  | c :: rest => if accepts c then [rest] else []

/-- The ways to match the front of a text, in the order in which they are tried. -/
def outcomes : Expression → Text → List Match
  | word start, text => (after? start text).toList.map (⟨none, ·⟩)
  | one accepts, text => (behindOne accepts text).map (⟨none, ·⟩)
  | many accepts, text => (behindRuns accepts text).map (⟨none, ·⟩)
  | optional accepts, text => (behindOne accepts text ++ [text]).map (⟨none, ·⟩)
  | either first second, text => first.outcomes text ++ second.outcomes text
  | next first second, text =>
      (first.outcomes text).flatMap fun before =>
        (second.outcomes before.rest).map fun behind =>
          ⟨behind.held.or before.held, behind.rest⟩
  | group inner, text =>
      (inner.outcomes text).map fun found =>
        ⟨some (text.take (text.length - found.rest.length)), found.rest⟩

/-- What the group holds in each match that a search from left to right finds. Behind a match
the search goes on; matches of nothing are passed over. -/
def search (expression : Expression) : Text → List Text
  | [] => []
  | c :: rest =>
      match (expression.outcomes (c :: rest)).head? with
      | none => search expression rest
      | some found =>
          if found.rest.length ≤ rest.length then
            found.held.toList ++ search expression found.rest
          else search expression rest
termination_by text => text.length

/-- A package name, held by the group. -/
def name : Expression := group (next (one Char.isAlpha) (many isNameChar))

/-- Whether a character is a quote. -/
def isQuote (c : Char) : Bool := c = '"' || c = '\''

/-- A call that attaches a package. -/
def libraryCall : Expression :=
  next (either (word "library") (word "require")) <| next (many isBlank) <| next (word ['(']) <|
    next (many isBlank) <| next (optional isQuote) <| next name <| next (optional isQuote) <|
      next (many isBlank) (word [')'])

/-- An access to the namespace of a package. -/
def namespaceAccess : Expression := next name (word [':', ':'])

/-- A roxygen tag with the name of a package. -/
def roxygenTag (tag : Text) : Expression :=
  next (word ['#', '\'']) <| next (many isBlank) <| next (word tag) <| next (one isBlank) <|
    next (many isBlank) name

/-! ## Which matches there are -/

variable {first second expression : Expression} {accepts : Char → Bool} {text rest start : Text}
  {found : Match}

theorem mem_behindOne :
    rest ∈ behindOne accepts text ↔ ∃ c, accepts c = true ∧ text = c :: rest := by
  cases text with
  | nil => simp [behindOne]
  | cons c others =>
      rw [behindOne]
      split
      case isTrue accepted =>
        rw [List.mem_singleton]
        constructor
        · rintro rfl
          exact ⟨c, accepted, rfl⟩
        · rintro ⟨_, -, same⟩
          exact (List.cons.inj same).2.symm
      case isFalse refused =>
        simp only [List.not_mem_nil, false_iff]
        rintro ⟨_, accepted, same⟩
        obtain rfl := (List.cons.inj same).1
        exact refused accepted

theorem mem_behindRuns :
    rest ∈ behindRuns accepts text ↔
      ∃ run, (∀ c ∈ run, accepts c = true) ∧ text = run ++ rest := by
  induction text with
  | nil =>
      rw [behindRuns, List.mem_singleton]
      constructor
      · rintro rfl
        exact ⟨[], by simp, rfl⟩
      · rintro ⟨run, -, same⟩
        exact (List.append_eq_nil_iff.mp same.symm).2
  | cons c others ih =>
      have front : (∃ run, (∀ d ∈ run, accepts d = true) ∧ c :: others = run ++ rest) ↔
          rest = c :: others ∨ accepts c = true ∧
            ∃ run, (∀ d ∈ run, accepts d = true) ∧ others = run ++ rest := by
        constructor
        · rintro ⟨_ | ⟨d, run⟩, accepted, same⟩
          · exact .inl same.symm
          · obtain ⟨rfl, rfl⟩ := List.cons.inj same
            rw [List.forall_mem_cons] at accepted
            exact .inr ⟨accepted.1, run, accepted.2, rfl⟩
        · rintro (rfl | ⟨accepted, run, others, rfl⟩)
          · exact ⟨[], by simp, rfl⟩
          · exact ⟨c :: run, List.forall_mem_cons.mpr ⟨accepted, others⟩, rfl⟩
      rw [front, behindRuns]
      split
      case isTrue accepted =>
        rw [List.mem_append, List.mem_singleton, ih, or_comm]
        simp only [accepted, true_and]
      case isFalse refused => simp [refused]

/-- In front of another expression, one that holds nothing leaves its rests to that. -/
theorem mem_outcomes_next_of_silent {rests : List Text}
    (silent : first.outcomes text = rests.map (⟨none, ·⟩)) :
    found ∈ (next first second).outcomes text ↔ ∃ rest ∈ rests, found ∈ second.outcomes rest := by
  simp only [outcomes, silent, List.mem_flatMap, List.mem_map, Option.or_none,
    exists_exists_and_eq_and, exists_eq_right]

theorem mem_outcomes_next_word :
    found ∈ (next (word start) second).outcomes text ↔
      ∃ rest, text = start ++ rest ∧ found ∈ second.outcomes rest := by
  rw [mem_outcomes_next_of_silent rfl]
  simp only [Option.mem_toList, after?_eq_some_iff]

theorem mem_outcomes_next_either {other : Text} :
    found ∈ (next (either (word start) (word other)) second).outcomes text ↔
      ∃ word ∈ [start, other], ∃ rest, text = word ++ rest ∧ found ∈ second.outcomes rest := by
  have silent : (either (word start) (word other)).outcomes text =
      ((after? start text).toList ++ (after? other text).toList).map (⟨none, ·⟩) :=
    (List.map_append ..).symm
  rw [mem_outcomes_next_of_silent silent]
  simp only [List.mem_append, Option.mem_toList, after?_eq_some_iff, List.mem_cons,
    List.not_mem_nil, or_false, exists_eq_left, or_and_right, exists_or]

theorem mem_outcomes_next_one :
    found ∈ (next (one accepts) second).outcomes text ↔
      ∃ c rest, accepts c = true ∧ text = c :: rest ∧ found ∈ second.outcomes rest := by
  rw [mem_outcomes_next_of_silent rfl]
  simp only [mem_behindOne]
  grind

theorem mem_outcomes_next_many :
    found ∈ (next (many accepts) second).outcomes text ↔
      ∃ run rest, (∀ c ∈ run, accepts c = true) ∧ text = run ++ rest ∧
        found ∈ second.outcomes rest := by
  rw [mem_outcomes_next_of_silent rfl]
  simp only [mem_behindRuns]
  grind

theorem mem_outcomes_next_quote :
    found ∈ (next (optional isQuote) second).outcomes text ↔
      ∃ quote ∈ quotes, ∃ rest, text = quote ++ rest ∧ found ∈ second.outcomes rest := by
  rw [mem_outcomes_next_of_silent rfl]
  simp only [List.mem_append, mem_behindOne, isQuote, mem_quotes, List.mem_singleton,
    Bool.or_eq_true, decide_eq_true_eq]
  constructor
  · rintro ⟨rest, ⟨c, rfl | rfl, rfl⟩ | rfl, matched⟩
    · exact ⟨['"'], .inr (.inl rfl), rest, rfl, matched⟩
    · exact ⟨['\''], .inr (.inr rfl), rest, rfl, matched⟩
    · exact ⟨[], .inl rfl, _, rfl, matched⟩
  · rintro ⟨quote, rfl | rfl | rfl, rest, rfl, matched⟩
    · exact ⟨_, .inr rfl, matched⟩
    · exact ⟨rest, .inl ⟨_, .inl rfl, rfl⟩, matched⟩
    · exact ⟨rest, .inl ⟨_, .inr rfl, rfl⟩, matched⟩

theorem mem_outcomes_word :
    found ∈ (word start).outcomes text ↔ found.held = none ∧ text = start ++ found.rest := by
  rw [outcomes, List.mem_map]
  simp only [Option.mem_toList, after?_eq_some_iff]
  constructor
  · rintro ⟨rest, rfl, rfl⟩
    exact ⟨rfl, rfl⟩
  · rintro ⟨silent, rfl⟩
    exact ⟨found.rest, rfl, by rw [← silent]⟩

theorem take_run (c : Char) (run rest : Text) :
    (c :: (run ++ rest)).take ((run ++ rest).length + 1 - rest.length) = c :: run := by
  have width : (run ++ rest).length + 1 - rest.length = run.length + 1 := by
    rw [List.length_append]
    omega
  rw [width, List.take_succ_cons, List.take_left]

theorem outcomes_name_nil : name.outcomes [] = [] := rfl

theorem outcomes_name_cons (c : Char) (others : Text) :
    name.outcomes (c :: others) =
      if c.isAlpha then
        (behindRuns isNameChar others).map fun rest =>
          ⟨some ((c :: others).take (others.length + 1 - rest.length)), rest⟩
      else [] := by
  simp only [name, outcomes, behindOne]
  split <;> simp

theorem mem_outcomes_name :
    found ∈ name.outcomes text ↔
      ∃ package, found.held = some package ∧ IsName package ∧ text = package ++ found.rest := by
  cases text with
  | nil =>
      simp only [outcomes_name_nil, List.not_mem_nil, false_iff]
      rintro ⟨package, -, named, none⟩
      obtain ⟨first, others, rfl, -⟩ := named.exists_cons
      cases none
  | cons c others =>
      rw [outcomes_name_cons]
      split
      case isTrue letter =>
        simp only [List.mem_map, mem_behindRuns]
        constructor
        · rintro ⟨rest, ⟨run, accepted, rfl⟩, rfl⟩
          refine ⟨c :: run, congrArg some (take_run c run rest), ⟨⟨c, rfl, letter⟩, ?_⟩, rfl⟩
          exact List.forall_mem_cons.mpr ⟨isNameChar_of_isAlpha letter, accepted⟩
        · rintro ⟨package, held, named, read⟩
          obtain ⟨first, run, rfl, -⟩ := named.exists_cons
          rw [List.cons_append, List.cons.injEq] at read
          obtain ⟨rfl, rfl⟩ := read
          refine ⟨found.rest, ⟨run, (List.forall_mem_cons.mp named.run).2, rfl⟩, ?_⟩
          rw [take_run, ← held]
      case isFalse other =>
        simp only [List.not_mem_nil, false_iff]
        rintro ⟨package, -, named, read⟩
        obtain ⟨first, run, rfl, letter⟩ := named.exists_cons
        obtain ⟨rfl, rfl⟩ := List.cons.inj read
        exact other letter

/-- A name in front of an expression that holds nothing is what is held. -/
theorem mem_outcomes_next_name
    (silent : ∀ text, ∀ behind ∈ second.outcomes text, behind.held = none) :
    found ∈ (next name second).outcomes text ↔
      ∃ package rest, found.held = some package ∧ IsName package ∧ text = package ++ rest ∧
        ⟨none, found.rest⟩ ∈ second.outcomes rest := by
  rw [outcomes, List.mem_flatMap]
  simp only [mem_outcomes_name, List.mem_map]
  constructor
  · rintro ⟨before, ⟨package, held, named, read⟩, behind, matched, rfl⟩
    have nothing := silent _ behind matched
    refine ⟨package, before.rest, ?_, named, read, ?_⟩
    · rw [nothing, held]
      rfl
    · rwa [← nothing]
  · rintro ⟨package, rest, held, named, read, matched⟩
    refine ⟨⟨some package, rest⟩, ⟨package, rfl, named, read⟩, ⟨none, found.rest⟩, matched, ?_⟩
    rw [← held]
    rfl

/-- A call matches where one is spelled, and in no other way: what follows the name cannot stand in
it, so that no shorter name matches. -/
theorem mem_outcomes_libraryCall :
    found ∈ libraryCall.outcomes text ↔
      ∃ package, found.held = some package ∧ StartsCall package found.rest text := by
  have silent (text : Text) : ∀ behind ∈
      (next (optional isQuote) <| next (many isBlank) (word [')'])).outcomes text,
        behind.held = none := by
    intro behind matched
    obtain ⟨_, -, _, -, matched⟩ := mem_outcomes_next_quote.mp matched
    obtain ⟨_, _, -, -, matched⟩ := mem_outcomes_next_many.mp matched
    exact (mem_outcomes_word.mp matched).1
  constructor
  · intro matched
    obtain ⟨word, attaches, _, rfl, called⟩ := mem_outcomes_next_either.mp matched
    obtain ⟨gap, _, blankGap, rfl, spaced⟩ := mem_outcomes_next_many.mp called
    obtain ⟨_, rfl, opened⟩ := mem_outcomes_next_word.mp spaced
    obtain ⟨inner, _, blankInner, rfl, argued⟩ := mem_outcomes_next_many.mp opened
    obtain ⟨opening, opens, _, rfl, quoted⟩ := mem_outcomes_next_quote.mp argued
    obtain ⟨package, _, held, named, rfl, read⟩ := (mem_outcomes_next_name silent).mp quoted
    obtain ⟨closing, closes, _, rfl, unquoted⟩ := mem_outcomes_next_quote.mp read
    obtain ⟨pad, _, blankPad, rfl, padded⟩ := mem_outcomes_next_many.mp unquoted
    obtain ⟨-, rfl⟩ := mem_outcomes_word.mp padded
    exact ⟨package, held, .spelled attaches blankGap blankInner opens
      ⟨named, closing_apart closes blankPad⟩ closes blankPad⟩
  · rintro ⟨package, held, @⟨word, gap, inner, opening, closing, pad, attaches, blankGap,
      blankInner, opens, named, closes, blankPad⟩⟩
    refine mem_outcomes_next_either.mpr ⟨word, attaches, _, rfl, ?_⟩
    refine mem_outcomes_next_many.mpr ⟨gap, _, blankGap, rfl, ?_⟩
    refine mem_outcomes_next_word.mpr ⟨_, rfl, ?_⟩
    refine mem_outcomes_next_many.mpr ⟨inner, _, blankInner, rfl, ?_⟩
    refine mem_outcomes_next_quote.mpr ⟨opening, opens, _, rfl, ?_⟩
    refine (mem_outcomes_next_name silent).mpr ⟨package, _, held, named.toIsName, rfl, ?_⟩
    refine mem_outcomes_next_quote.mpr ⟨closing, closes, _, rfl, ?_⟩
    refine mem_outcomes_next_many.mpr ⟨pad, _, blankPad, rfl, ?_⟩
    exact mem_outcomes_word.mpr ⟨rfl, rfl⟩

/-- An access to a namespace matches where a name stands in front of two colons. -/
theorem mem_outcomes_namespaceAccess :
    found ∈ namespaceAccess.outcomes text ↔
      ∃ package, found.held = some package ∧ NameBefore package (':' :: ':' :: found.rest) ∧
        text = package ++ ':' :: ':' :: found.rest := by
  rw [namespaceAccess, mem_outcomes_next_name fun _ _ matched => (mem_outcomes_word.mp matched).1]
  simp only [mem_outcomes_word, true_and]
  constructor
  · rintro ⟨package, _, held, named, rfl, rfl⟩
    exact ⟨package, held, ⟨named, by simpa using (by decide : isNameChar ':' = false)⟩, rfl⟩
  · rintro ⟨package, held, named, read⟩
    exact ⟨package, _, held, named.toIsName, read, rfl⟩

/-- Some run of the characters behind the first letter matches wherever a tag is spelled, not only
the longest. -/
theorem mem_outcomes_roxygenTag {tag : Text} :
    found ∈ (roxygenTag tag).outcomes text ↔
      ∃ package gap space, found.held = some package ∧ Blank gap ∧ Blank space ∧ space ≠ [] ∧
        IsName package ∧
        text = '#' :: '\'' :: (gap ++ (tag ++ (space ++ (package ++ found.rest)))) := by
  constructor
  · intro matched
    obtain ⟨_, rfl, commented⟩ := mem_outcomes_next_word.mp matched
    obtain ⟨gap, _, blankGap, rfl, spaced⟩ := mem_outcomes_next_many.mp commented
    obtain ⟨_, rfl, tagged⟩ := mem_outcomes_next_word.mp spaced
    obtain ⟨c, _, blank, rfl, apart⟩ := mem_outcomes_next_one.mp tagged
    obtain ⟨space, _, blankSpace, rfl, read⟩ := mem_outcomes_next_many.mp apart
    obtain ⟨package, held, named, rfl⟩ := mem_outcomes_name.mp read
    exact ⟨package, gap, c :: space, held, blankGap, Text.blank_cons.mpr ⟨blank, blankSpace⟩,
      List.cons_ne_nil _ _, named, rfl⟩
  · rintro ⟨package, gap, space, held, blankGap, blankSpace, apart, named, rfl⟩
    obtain ⟨c, space, rfl⟩ := List.exists_cons_of_ne_nil apart
    obtain ⟨blank, blankSpace⟩ := Text.blank_cons.mp blankSpace
    refine mem_outcomes_next_word.mpr ⟨_, rfl, ?_⟩
    refine mem_outcomes_next_many.mpr ⟨gap, _, blankGap, rfl, ?_⟩
    refine mem_outcomes_next_word.mpr ⟨_, rfl, ?_⟩
    refine mem_outcomes_next_one.mpr ⟨c, _, blank, rfl, ?_⟩
    refine mem_outcomes_next_many.mpr ⟨space, _, blankSpace, rfl, ?_⟩
    exact mem_outcomes_name.mpr ⟨package, held, named, rfl⟩

/-! ## Which match is preferred -/

/-- Whether the preferred match of an expression leaves no character of a class in front. -/
def Exhausts (accepts : Char → Bool) (expression : Expression) : Prop :=
  ∀ text found, (expression.outcomes text).head? = some found →
    ∀ c ∈ found.rest.head?, accepts c = false

theorem head?_behindRuns (accepts : Char → Bool) (text : Text) :
    (behindRuns accepts text).head? = some (text.dropWhile accepts) := by
  induction text with
  | nil => rfl
  | cons c others ih =>
      rw [behindRuns]
      split
      case isTrue accepted => rw [List.head?_append, ih, List.dropWhile_cons_of_pos accepted]; rfl
      case isFalse refused => rw [List.dropWhile_cons_of_neg refused, List.head?_cons]

theorem exhausts_many (accepts : Char → Bool) : Exhausts accepts (many accepts) := by
  intro text found preferred
  rw [outcomes, List.head?_map, head?_behindRuns] at preferred
  obtain rfl := Option.some.inj preferred
  exact stop_dropWhile accepts text

theorem Exhausts.next (exhausts : Exhausts accepts second) (first : Expression) :
    Exhausts accepts (next first second) := by
  intro text found preferred
  rw [outcomes, List.head?_flatMap] at preferred
  obtain ⟨before, -, preferredBehind⟩ := List.exists_of_findSome?_eq_some preferred
  rw [List.head?_map, Option.map_eq_some_iff] at preferredBehind
  obtain ⟨behind, foremost, rfl⟩ := preferredBehind
  exact exhausts before.rest behind foremost

theorem Exhausts.group (exhausts : Exhausts accepts expression) :
    Exhausts accepts (group expression) := by
  intro text found preferred
  rw [outcomes, List.head?_map, Option.map_eq_some_iff] at preferred
  obtain ⟨inner, foremost, rfl⟩ := preferred
  exact exhausts text inner foremost

/-- A tag takes the whole name. -/
theorem exhausts_roxygenTag (tag : Text) : Exhausts isNameChar (roxygenTag tag) :=
  ((((((exhausts_many isNameChar).next _).group.next _).next _).next _).next _).next _

/-- The preferred match is where a tag is spelled, and there is one wherever one is. -/
theorem startsTag_of_preferred {tag : Text}
    (preferred : ((roxygenTag tag).outcomes text).head? = some found) :
    ∃ package, found.held = some package ∧ StartsTag tag package found.rest text := by
  obtain ⟨package, gap, space, held, blankGap, blankSpace, apart, named, rfl⟩ :=
    mem_outcomes_roxygenTag.mp (List.mem_of_mem_head? preferred)
  exact ⟨package, held, .spelled blankGap blankSpace apart
    ⟨named, exhausts_roxygenTag tag _ _ preferred⟩⟩

/-! ## What a search finds -/

/-- A search finds what trying every position finds, if the matches are those that are recognised
and none begins inside another. -/
theorem search_eq_matchesIn {recognise : Text → Option Text}
    {Starts : Text → Text → Text → Prop}
    (recognised : ∀ {text package}, recognise text = some package ↔
      ∃ rest, Starts package rest text)
    (preferred : ∀ {text found}, (expression.outcomes text).head? = some found →
      ∃ package, found.held = some package ∧ Starts package found.rest text)
    (matched : ∀ {text package rest}, Starts package rest text → expression.outcomes text ≠ [])
    (skip : ∀ {c others package rest}, Starts package rest (c :: others) →
      rest.length ≤ others.length ∧ matchesIn recognise others = matchesIn recognise rest)
    (text : Text) : expression.search text = matchesIn recognise text := by
  fun_induction search expression text with
  | case1 => rfl
  | case2 c others nothing ih =>
      rw [ih, matchesIn]
      cases found : recognise (c :: others) with
      | none => rfl
      | some package =>
          obtain ⟨rest, starts⟩ := recognised.mp found
          exact absurd (List.head?_eq_none_iff.mp nothing) (matched starts)
  | case3 c others found first shorter ih =>
      obtain ⟨package, held, starts⟩ := preferred first
      rw [ih, matchesIn, recognised.mpr ⟨_, starts⟩, (skip starts).2, held]
  | case4 c others found first empty ih =>
      obtain ⟨package, -, starts⟩ := preferred first
      exact absurd (skip starts).1 empty

theorem search_libraryCall (text : Text) : libraryCall.search text = matchesIn libraryCall? text :=
  search_eq_matchesIn libraryCall?_eq_some_iff
    (fun preferred => mem_outcomes_libraryCall.mp (List.mem_of_mem_head? preferred))
    (fun starts => List.ne_nil_of_mem
      (mem_outcomes_libraryCall.mpr ⟨_, rfl, starts⟩ : ⟨some _, _⟩ ∈ _))
    StartsCall.skip text

theorem search_roxygenTag {tag : Text} (marked : tag.head? = some '@') (plain : '#' ∉ tag)
    (text : Text) : (roxygenTag tag).search text = matchesIn (roxygenTag? tag) text := by
  refine search_eq_matchesIn (roxygenTag?_eq_some_iff marked) startsTag_of_preferred ?_
    (StartsTag.skip marked plain) text
  rintro _ package rest ⟨blankGap, blankSpace, apart, named⟩
  have matched : ⟨some package, rest⟩ ∈ (roxygenTag tag).outcomes _ :=
    mem_outcomes_roxygenTag.mpr
      ⟨package, _, _, rfl, blankGap, blankSpace, apart, named.toIsName, rfl⟩
  exact List.ne_nil_of_mem matched

/-! ## Namespaces -/

variable {c : Char} {others package behind : Text}

theorem outcomes_namespaceAccess_of_apart (apart : c.isAlpha = false) :
    namespaceAccess.outcomes (c :: others) = [] := by
  refine List.eq_nil_iff_forall_not_mem.mpr fun found matched => ?_
  obtain ⟨package, -, named, read⟩ := mem_outcomes_namespaceAccess.mp matched
  obtain ⟨first, tail, rfl, letter⟩ := named.exists_cons
  obtain ⟨rfl, -⟩ := List.cons.inj read
  simp [letter] at apart

theorem search_namespaceAccess_of_none
    (none : namespaceAccess.outcomes (c :: others) = []) :
    namespaceAccess.search (c :: others) = namespaceAccess.search others := by
  rw [search, none]
  rfl

/-- A name in front of two colons is found, and then the search goes on behind the colons. -/
theorem search_namespaceAccess_of_name (named : NameBefore package (':' :: ':' :: rest)) :
    namespaceAccess.search (package ++ ':' :: ':' :: rest) =
      package :: namespaceAccess.search rest := by
  have matched : ⟨some package, rest⟩ ∈
      namespaceAccess.outcomes (package ++ ':' :: ':' :: rest) :=
    mem_outcomes_namespaceAccess.mpr ⟨package, rfl, named, rfl⟩
  cases listed : namespaceAccess.outcomes (package ++ ':' :: ':' :: rest) with
  | nil => simp [listed] at matched
  | cons found more =>
      have foremost : found ∈ namespaceAccess.outcomes (package ++ ':' :: ':' :: rest) := by
        simp [listed]
      obtain ⟨other, held, namedToo, read⟩ := mem_outcomes_namespaceAccess.mp foremost
      obtain ⟨rfl, same⟩ := named.unique namedToo read
      obtain ⟨first, tail, rfl, -⟩ := named.exists_cons
      obtain rfl : rest = found.rest := by simpa using same
      rw [List.cons_append] at listed ⊢
      rw [search, listed]
      simp only [List.head?_cons, held]
      rw [if_pos (by simp only [List.length_append, List.length_cons]; omega)]
      rfl

/-- In a run of name characters in front of others, the name from the first letter on is found if
two colons follow. -/
theorem search_namespaceAccess_append {run : Text} (accepted : ∀ c ∈ run, isNameChar c = true)
    (stop : ∀ c ∈ behind.head?, isNameChar c = false) :
    namespaceAccess.search (run ++ behind) =
      (if [':', ':'].isPrefixOf behind && !(run.dropWhile (!·.isAlpha)).isEmpty then
        [run.dropWhile (!·.isAlpha)] else []) ++ namespaceAccess.search behind := by
  -- nothing matches in front of the first letter; a name from there on that does not match leaves
  -- shorter ones behind, which have the same text behind them and do not match either
  induction run with
  | nil => simp
  | cons c others ih =>
      rw [List.forall_mem_cons] at accepted
      cases letter : c.isAlpha with
      | false =>
          rw [List.dropWhile_cons_of_pos (by simp [letter]), List.cons_append,
            search_namespaceAccess_of_none (outcomes_namespaceAccess_of_apart letter),
            ih accepted.2]
      | true =>
          rw [List.dropWhile_cons_of_neg (by simp [letter])]
          have named : NameBefore (c :: others) behind :=
            ⟨⟨⟨c, rfl, letter⟩, List.forall_mem_cons.mpr accepted⟩, stop⟩
          by_cases colons : [':', ':'].isPrefixOf behind = true
          · obtain ⟨rest, rfl⟩ := List.isPrefixOf_iff_prefix.mp colons
            have found := search_namespaceAccess_of_name named
            have passed : namespaceAccess.search (':' :: ':' :: rest) =
                namespaceAccess.search rest := by
              rw [search_namespaceAccess_of_none (outcomes_namespaceAccess_of_apart (by decide)),
                search_namespaceAccess_of_none (outcomes_namespaceAccess_of_apart (by decide))]
            rw [if_pos (by rw [colons]; rfl)]
            exact found.trans (congrArg (_ :: ·) passed.symm)
          · have nothing : namespaceAccess.outcomes (c :: (others ++ behind)) = [] := by
              refine List.eq_nil_iff_forall_not_mem.mpr fun found matched => ?_
              obtain ⟨other, -, namedToo, read⟩ := mem_outcomes_namespaceAccess.mp matched
              obtain ⟨-, rfl⟩ := named.unique namedToo read
              exact colons rfl
            rw [List.cons_append, search_namespaceAccess_of_none nothing, ih accepted.2]
            simp [colons]

theorem search_namespaceAccess (text : Text) : namespaceAccess.search text = namespacesIn text := by
  fun_induction namespacesIn text with
  | case1 => rw [search]
  | case2 c others inName run behind name found ih =>
      obtain ⟨spelled, accepted, stop⟩ := longest_run inName others
      rw [spelled, search_namespaceAccess_append accepted stop, ih]
      rfl
  | case3 c others apart ih =>
      have noLetter : c.isAlpha = false := by
        by_contra letter
        exact apart (isNameChar_of_isAlpha (by simpa using letter))
      rw [search_namespaceAccess_of_none (outcomes_namespaceAccess_of_apart noLetter), ih]

end Expression
end DependencyGate.Source

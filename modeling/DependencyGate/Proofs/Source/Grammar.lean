/-
# The grammar of references

Which references a text holds, said without any search: at which column of which line a
reference of which pattern stands. The references that are found are exactly these, line by
line, pattern by pattern and from left to right, each of them once.
-/

import DependencyGate.Proofs.Source.Expression

namespace DependencyGate.Source

open PackageName (isNameChar)

/-! ## Where references stand -/

/-- Where a line accesses the namespace of a package: at a run of name characters that is as long
as can be, holds a letter, and has two colons behind it. The package is the run from its first
letter on. -/
inductive AccessAt (name : Text) : Text → Nat → Prop
  | spelled {before run rest : Text} (apart : ∀ c ∈ before.getLast?, isNameChar c = false)
      (accepted : ∀ c ∈ run, isNameChar c = true) (letter : ∃ c ∈ run, c.isAlpha = true)
      (named : name = run.dropWhile (!·.isAlpha)) :
      AccessAt name (before ++ (run ++ ':' :: ':' :: rest)) before.length

/-- Whether a reference of a pattern to a package stands at a column of a line. -/
def Pattern.StandsAt (line : Text) (column : Nat) (name : Text) : Pattern → Prop
  | .libraryCall => ∃ rest, StartsCall name rest (line.drop column)
  | .namespaceAccess => AccessAt name line column
  | .importFrom => ∃ rest, StartsTag "@importFrom" name rest (line.drop column)
  | .importAll => ∃ rest, StartsTag "@import" name rest (line.drop column)

/-- A reference and where it stands. -/
structure Occurrence where
  line : Nat
  pattern : Pattern
  column : Nat
  name : Text

namespace Occurrence

/-- Whether the reference stands in a text. Lines are counted from one. -/
def StandsIn (text : Text) (occurrence : Occurrence) : Prop :=
  ∃ index line, text.lines[index]? = some line ∧ occurrence.line = index + 1 ∧
    occurrence.pattern.StandsAt line.body occurrence.column occurrence.name

/-- The order of references: by their line, then by their pattern, then by their column. -/
def Before (first second : Occurrence) : Prop :=
  first.line < second.line ∨ first.line = second.line ∧
    (Pattern.all.idxOf first.pattern < Pattern.all.idxOf second.pattern ∨
      first.pattern = second.pattern ∧ first.column < second.column)

/-- The reference as it is reported, without its column. -/
def token (occurrence : Occurrence) : Token :=
  ⟨occurrence.name, occurrence.pattern, occurrence.line⟩

end Occurrence

/-- The regular expression of a pattern. -/
def Pattern.expression : Pattern → Expression
  | .libraryCall => .libraryCall
  | .namespaceAccess => .namespaceAccess
  | .importFrom => .roxygenTag "@importFrom"
  | .importAll => .roxygenTag "@import"

/-- What a search by the regular expressions finds in a text. -/
def searchedTokens (text : Text) : List Token :=
  (text.lines.zipIdx 1).flatMap fun (line, number) =>
    Pattern.all.flatMap fun pattern =>
      (pattern.expression.search line.body).map fun name => ⟨name, pattern, number⟩

/-! ## References in a line -/

/-- Whether names are listed from left to right, one for each column at which one stands. -/
def Lists (found : List Text) (stands : Nat → Text → Prop) : Prop :=
  ∃ places : List (Nat × Text), places.Pairwise (·.1 < ·.1) ∧
    (∀ column name, (column, name) ∈ places ↔ stands column name) ∧ found = places.map Prod.snd

section Lists

variable {found : List Text} {stands others : Nat → Text → Prop}

theorem Lists.congr (lists : Lists found stands)
    (same : ∀ column name, stands column name ↔ others column name) : Lists found others := by
  obtain ⟨places, ascending, listed, rfl⟩ := lists
  exact ⟨places, ascending, fun column name => (listed column name).trans (same column name), rfl⟩

theorem lists_nil (nowhere : ∀ column name, ¬stands column name) : Lists [] stands :=
  ⟨[], .nil, by simpa using nowhere, rfl⟩

/-- A name that may stand at the front, and those that stand further on. -/
theorem Lists.step {first : Option Text} {width : Nat} (later : Lists found stands)
    (wide : 0 < width) :
    Lists (first.toList ++ found) fun column name =>
      (column = 0 ∧ first = some name) ∨
        ∃ onward, column = onward + width ∧ stands onward name := by
  obtain ⟨places, ascending, listed, rfl⟩ := later
  have shifted (column : Nat) (name : Text) :
      (column, name) ∈ places.map (fun place => (place.1 + width, place.2)) ↔
        ∃ onward, column = onward + width ∧ stands onward name := by
    simp only [List.mem_map, Prod.mk.injEq, Prod.exists, ← listed]
    constructor
    · rintro ⟨onward, _, present, rfl, rfl⟩
      exact ⟨onward, rfl, present⟩
    · rintro ⟨onward, rfl, present⟩
      exact ⟨onward, name, present, rfl, rfl⟩
  refine ⟨first.toList.map (0, ·) ++ places.map fun place => (place.1 + width, place.2),
    ?_, fun column name => ?_, ?_⟩
  · refine List.pairwise_append.mpr ⟨?_, ?_, ?_⟩
    · cases first with
      | none => exact .nil
      | some name => exact List.pairwise_singleton ..
    · exact ascending.map _ fun _ _ before => Nat.add_lt_add_right before width
    · intro front atFront back behind
      obtain ⟨_, -, rfl⟩ := List.mem_map.mp atFront
      obtain ⟨place, -, rfl⟩ := List.mem_map.mp behind
      exact Nat.add_pos_right _ wide
  · rw [List.mem_append, shifted]
    cases first with
    | none => simp
    | some front => simp [eq_comm]
  · rw [List.map_append, List.map_map, List.map_map]
    cases first <;> rfl

theorem lists_matchesIn {recognise : Text → Option Text} (empty : recognise [] = none)
    (line : Text) :
    Lists (matchesIn recognise line) fun column name =>
      recognise (line.drop column) = some name := by
  induction line with
  | nil => exact lists_nil (by simp [empty])
  | cons c others ih =>
      rw [matchesIn]
      refine (ih.step Nat.one_pos).congr fun column name => ?_
      cases column <;> simp

end Lists

/-! ## Accesses in a line -/

section Accesses

variable {c : Char} {rest run behind name : Text} {column : Nat}

theorem AccessAt.exists_of_cons (bare : isNameChar c = false)
    (access : AccessAt name (c :: rest) column) :
    ∃ onward, column = onward + 1 ∧ AccessAt name rest onward := by
  generalize spelled : c :: rest = line at access
  obtain @⟨before, run, others, apart, accepted, letter, named⟩ := access
  cases before with
  | nil =>
      obtain ⟨_, listed, -⟩ := letter
      obtain ⟨first, tail, rfl⟩ := List.exists_cons_of_ne_nil (List.ne_nil_of_mem listed)
      obtain ⟨rfl, -⟩ := List.cons.inj spelled
      simp [accepted c (List.mem_cons_self ..)] at bare
  | cons first before =>
      rw [List.cons_append, List.cons.injEq] at spelled
      obtain ⟨rfl, rfl⟩ := spelled
      refine ⟨before.length, rfl, .spelled (fun d last => apart d ?_) accepted letter named⟩
      rw [List.getLast?_cons, Option.mem_def.mp last]
      rfl

theorem apart_append {front before : Text}
    (apart : ∀ d ∈ before.getLast?, isNameChar d = false)
    (alone : before = [] → ∀ d ∈ front.getLast?, isNameChar d = false) :
    ∀ d ∈ (front ++ before).getLast?, isNameChar d = false := by
  by_cases none : before = []
  · simpa [none] using alone none
  · rwa [List.getLast?_append_of_ne_nil _ none]

theorem AccessAt.cons (bare : isNameChar c = false) (access : AccessAt name rest column) :
    AccessAt name (c :: rest) (column + 1) := by
  obtain @⟨before, run, others, apart, accepted, letter, named⟩ := access
  have apartToo : ∀ d ∈ ([c] ++ before).getLast?, isNameChar d = false :=
    apart_append apart fun _ => by simpa using bare
  exact .spelled apartToo accepted letter named

/-- In a run, the only access is the one at its front. -/
theorem AccessAt.of_append (accepted : ∀ c ∈ run, isNameChar c = true)
    (stop : ∀ c ∈ behind.head?, isNameChar c = false)
    (access : AccessAt name (run ++ behind) column) :
    (column = 0 ∧ (∃ c ∈ run, c.isAlpha = true) ∧ [':', ':'] <+: behind ∧
        name = run.dropWhile (!·.isAlpha)) ∨
      ∃ onward, column = onward + run.length ∧ AccessAt name behind onward := by
  generalize spelled : run ++ behind = line at access
  obtain @⟨before, other, rest, apart, acceptedToo, letter, named⟩ := access
  rcases List.append_eq_append_iff.mp spelled with ⟨between, rfl, rfl⟩ | ⟨between, rfl, same⟩
  · refine .inr ⟨between.length, by rw [List.length_append, Nat.add_comm],
      .spelled (fun c last => apart c ?_) acceptedToo letter named⟩
    rw [List.getLast?_append, Option.mem_def.mp last]
    rfl
  · cases last : before.getLast? with
    | some c =>
        have inRun := accepted c (List.mem_append_left _ (List.mem_of_getLast? last))
        simp [apart c last] at inRun
    | none =>
        obtain rfl := List.getLast?_eq_none_iff.mp last
        rw [List.nil_append] at accepted ⊢
        have colons : ∀ c ∈ (':' :: ':' :: rest).head?, isNameChar c = false := by
          simpa using (by decide : isNameChar ':' = false)
        have sameRun := congrArg (List.takeWhile isNameChar) same
        have sameRest := congrArg (List.dropWhile isNameChar) same
        rw [takeWhile_append_of_stop acceptedToo colons,
          takeWhile_append_of_stop accepted stop] at sameRun
        rw [dropWhile_append_of_stop acceptedToo colons,
          dropWhile_append_of_stop accepted stop] at sameRest
        subst sameRun sameRest
        exact .inl ⟨rfl, letter, List.prefix_append _ rest, named⟩

theorem AccessAt.append (stop : ∀ c ∈ behind.head?, isNameChar c = false)
    (access : AccessAt name behind column) :
    AccessAt name (run ++ behind) (column + run.length) := by
  obtain @⟨before, other, rest, apart, accepted, letter, named⟩ := access
  have apartToo : ∀ c ∈ (run ++ before).getLast?, isNameChar c = false := by
    refine apart_append apart ?_
    rintro rfl
    obtain ⟨_, listed, -⟩ := letter
    obtain ⟨first, tail, rfl⟩ := List.exists_cons_of_ne_nil (List.ne_nil_of_mem listed)
    simp [accepted first (List.mem_cons_self ..)] at stop
  have further : AccessAt name (run ++ before ++ (other ++ ':' :: ':' :: rest)) _ :=
    .spelled apartToo accepted letter named
  rwa [List.append_assoc, List.length_append, Nat.add_comm] at further

/-- A run with a letter and two colons behind it is an access. -/
theorem accessAt_zero (accepted : ∀ c ∈ run, isNameChar c = true)
    (letter : ∃ c ∈ run, c.isAlpha = true) (colons : [':', ':'] <+: behind) :
    AccessAt (run.dropWhile (!·.isAlpha)) (run ++ behind) 0 := by
  obtain ⟨rest, rfl⟩ := colons
  have nothing : ∀ c ∈ ([] : Text).getLast?, isNameChar c = false := by simp
  exact .spelled nothing accepted letter rfl

theorem lists_namespacesIn (line : Text) :
    Lists (namespacesIn line) fun column name => AccessAt name line column := by
  fun_induction namespacesIn line with
  | case1 =>
      refine lists_nil fun column name access => ?_
      generalize spelled : [] = line at access
      obtain ⟨⟩ := access
      simp at spelled
  | case2 c others inName run behind name found ih =>
      obtain ⟨spelled, accepted, stop⟩ := longest_run inName others
      have wide : 0 < run.length := Nat.zero_lt_succ _
      have holds : (!name.isEmpty) = true ↔ ∃ d ∈ run, d.isAlpha = true := by
        rw [Bool.not_eq_true', ← Bool.not_eq_true, List.isEmpty_iff, List.dropWhile_eq_nil_iff]
        simp
      have asOption : found =
          (if [':', ':'].isPrefixOf behind && !name.isEmpty then some name else none).toList := by
        simp only [found]
        split <;> simp [*]
      rw [spelled, asOption]
      refine (ih.step wide).congr fun column package => ?_
      constructor
      · rintro (⟨rfl, front⟩ | ⟨onward, rfl, access⟩)
        · split at front
          case isTrue there =>
            obtain rfl := Option.some.inj front
            rw [Bool.and_eq_true, holds, List.isPrefixOf_iff_prefix] at there
            exact accessAt_zero accepted there.2 there.1
          case isFalse => cases front
        · exact access.append stop
      · intro access
        rcases access.of_append accepted stop with ⟨rfl, letter, colons, rfl⟩ | onward
        · refine .inl ⟨rfl, if_pos ?_⟩
          rw [Bool.and_eq_true, holds, List.isPrefixOf_iff_prefix]
          exact ⟨colons, letter⟩
        · exact .inr onward
  | case3 c others bare ih =>
      have bare : isNameChar c = false := by simpa using bare
      have step : Lists (Option.toList none ++ namespacesIn others) _ := ih.step Nat.one_pos
      refine step.congr fun column name => ?_
      constructor
      · rintro (⟨-, none⟩ | ⟨onward, rfl, access⟩)
        · cases none
        · exact access.cons bare
      · exact fun access => .inr (access.exists_of_cons bare)

end Accesses

/-! ## References in a text -/

/-- Each pattern finds what stands in a line, from left to right. -/
theorem lists_namesIn (pattern : Pattern) (line : Text) :
    Lists (pattern.namesIn line) fun column name => pattern.StandsAt line column name := by
  cases pattern with
  | libraryCall => exact (lists_matchesIn rfl line).congr fun _ _ => libraryCall?_eq_some_iff
  | namespaceAccess => exact lists_namespacesIn line
  | importFrom => exact (lists_matchesIn rfl line).congr fun _ _ => roxygenTag?_eq_some_iff rfl
  | importAll => exact (lists_matchesIn rfl line).congr fun _ _ => roxygenTag?_eq_some_iff rfl

/-- Each pattern finds what a search by its regular expression finds. -/
theorem search_expression (pattern : Pattern) (line : Text) :
    pattern.expression.search line = pattern.namesIn line := by
  cases pattern with
  | libraryCall => exact Expression.search_libraryCall line
  | namespaceAccess => exact Expression.search_namespaceAccess line
  | importFrom => exact Expression.search_roxygenTag rfl (by decide) line
  | importAll => exact Expression.search_roxygenTag rfl (by decide) line

theorem tokens_eq_searchedTokens (text : Text) : tokens text = searchedTokens text := by
  simp only [tokens, tokensOfLine, searchedTokens, search_expression]

theorem Pattern.mem_all (pattern : Pattern) : pattern ∈ Pattern.all := by
  cases pattern <;> decide

theorem pairwise_zipIdx {α : Type} (items : List α) (first : Nat) :
    (items.zipIdx first).Pairwise (·.2 < ·.2) := by
  have numbers := List.pairwise_lt_range' (s := first) (n := items.length)
  rwa [← List.zipIdx_map_snd, List.pairwise_map] at numbers

/-- The references in one line. -/
theorem exists_occurrences_of_line (number : Nat) (line : Text) :
    ∃ occurrences : List Occurrence, occurrences.Pairwise Occurrence.Before ∧
      (∀ occurrence, occurrence ∈ occurrences ↔ occurrence.line = number ∧
        occurrence.pattern.StandsAt line occurrence.column occurrence.name) ∧
      tokensOfLine number line = occurrences.map Occurrence.token := by
  choose places ascending listed named using fun pattern => lists_namesIn pattern line
  have inOrder : Pattern.all.Pairwise fun first second =>
      Pattern.all.idxOf first < Pattern.all.idxOf second := by decide
  refine ⟨Pattern.all.flatMap fun pattern => (places pattern).map fun place =>
    ⟨number, pattern, place.1, place.2⟩, ?_, fun occurrence => ?_, ?_⟩
  · refine List.pairwise_flatMap.mpr ⟨fun pattern _ => ?_, inOrder.imp ?_⟩
    · exact (ascending pattern).map _ fun _ _ before => .inr ⟨rfl, .inr ⟨rfl, before⟩⟩
    · intro first second before front atFirst back atSecond
      obtain ⟨_, -, rfl⟩ := List.mem_map.mp atFirst
      obtain ⟨_, -, rfl⟩ := List.mem_map.mp atSecond
      exact .inr ⟨rfl, .inl before⟩
  · simp only [List.mem_flatMap, List.mem_map, ← listed]
    constructor
    · rintro ⟨pattern, -, place, present, rfl⟩
      exact ⟨rfl, present⟩
    · rintro ⟨rfl, present⟩
      exact ⟨occurrence.pattern, Pattern.mem_all _, _, present, rfl⟩
  · simp only [tokensOfLine, List.map_flatMap, List.map_map, named]
    rfl

/-- The references found are those that stand in the text, in the order of their lines, in a
line by their patterns, and for a pattern from left to right. No reference is missed or found
twice, and a backtracking search by the regular expressions finds the same. -/
theorem tokens_eq_occurrences (text : Text) :
    tokens text = searchedTokens text ∧
      ∃ occurrences : List Occurrence, occurrences.Pairwise Occurrence.Before ∧
        (∀ occurrence, occurrence ∈ occurrences ↔ occurrence.StandsIn text) ∧
        tokens text = occurrences.map Occurrence.token := by
  refine ⟨tokens_eq_searchedTokens text, ?_⟩
  choose inLine ordered listed told using exists_occurrences_of_line
  refine ⟨(text.lines.zipIdx 1).flatMap fun (line, number) => inLine number line.body, ?_,
    fun occurrence => ?_, ?_⟩
  · refine List.pairwise_flatMap.mpr ⟨fun numbered _ => ordered .., ?_⟩
    refine (pairwise_zipIdx text.lines 1).imp fun before front atFirst back atSecond => ?_
    rw [listed] at atFirst atSecond
    exact .inl (by rw [atFirst.1, atSecond.1]; exact before)
  · simp only [List.mem_flatMap, Prod.exists, List.mk_mem_zipIdx_iff_le_and_getElem?_sub, listed,
      Occurrence.StandsIn]
    constructor
    · rintro ⟨line, number, ⟨counted, present⟩, rfl, stands⟩
      exact ⟨_, line, present, (Nat.sub_add_cancel counted).symm, stands⟩
    · rintro ⟨index, line, present, counted, stands⟩
      exact ⟨line, index + 1, ⟨Nat.le_add_left .., present⟩, counted, stands⟩
  · simp only [tokens, List.map_flatMap, told]

example : tokens "library('a)\nutils:::head(1.b::c)" =
    [⟨"a", .libraryCall, 1⟩, ⟨"utils", .namespaceAccess, 2⟩, ⟨"b", .namespaceAccess, 2⟩] := by cbv

end DependencyGate.Source

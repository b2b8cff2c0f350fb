/-
# Joining the parts of a block

Editors take the body of a field apart at commas and write some of its entries again,
with new ones and with the blanks at its end behind them. The result is text of the field
because no entry ends in a break (`Flows`). The stray lines of the block come behind it,
and the two touch at one junction, where a line feed may complete a break and a break may
be missing. `Joins` says what becomes of them there, and `declaredNames_replaceWith` what
a reader finds in the end.
-/

import DependencyGate.Proofs.Manifest.Rebuild

namespace DependencyGate.Manifest

open Text (isLineBreak isBlank Blank SpacedAlike StartsLines EndsBefore)

/-! ## Text that can be cut and joined -/

/-- Text within a field that ends in no break, so that anything may follow it. -/
structure Flows (text : Text) : Prop where
  chain : text.IsChain (StartsLines ContinuesAt)
  last : ∀ c ∈ text.getLast?, isLineBreak c = false

instance (text : Text) : Decidable (Flows text) :=
  -- the characters are those of the text, not all that there are
  haveI : Decidable (∀ c ∈ text.getLast?, isLineBreak c = false) := Option.decidableForallMem _
  decidable_of_iff (text.IsChain (StartsLines ContinuesAt) ∧
      ∀ c ∈ text.getLast?, isLineBreak c = false)
    ⟨fun flows => ⟨flows.1, flows.2⟩, fun flows => ⟨flows.chain, flows.last⟩⟩

theorem flows_nil : Flows [] := ⟨.nil, by simp⟩

/-- What flows can be continued by any part of a field. -/
theorem Flows.append_chain {front back : Text} (flows : Flows front)
    (chain : back.IsChain (StartsLines ContinuesAt)) :
    (front ++ back).IsChain (StartsLines ContinuesAt) :=
  flows.chain.append chain fun c last _ _ breaks => by simp [flows.last c last] at breaks

theorem Flows.append {front back : Text} (first : Flows front) (second : Flows back) :
    Flows (front ++ back) := by
  constructor
  · exact first.append_chain second.chain
  · intro c last
    rw [List.getLast?_append] at last
    cases found : back.getLast? with
    | none => exact first.last c (by simpa [found] using last)
    | some d => exact second.last c (by simpa [found] using last)

theorem flows_of_unbroken {text : Text} (unbroken : ∀ c ∈ text, isLineBreak c = false) :
    Flows text :=
  ⟨Text.isChain_of_unbroken unbroken, fun c last => unbroken c (List.mem_of_getLast? last)⟩

/-- What flows before a comma flows by itself: no break may come right before one. -/
theorem flows_of_append_comma {text behind : Text}
    (chain : (text ++ ',' :: behind).IsChain (StartsLines ContinuesAt)) : Flows text := by
  constructor
  · exact chain.left_of_append
  · intro c last
    by_contra breaks
    rw [Bool.not_eq_false] at breaks
    have stepped := (List.isChain_append.mp chain).2.2 c last ',' (by simp) breaks
    rcases stepped with continues | ⟨_, feed⟩
    · exact absurd continues.1 (by decide)
    · exact absurd feed (by decide)

/-- The entries of a text that flows flow. -/
theorem flows_of_mem_splitEntries {text : Text} (flows : Flows text) :
    ∀ entry ∈ splitEntries text, Flows entry := by
  have spelled := intercalate_splitEntries text
  generalize splitEntries text = entries at spelled
  induction entries generalizing text with
  | nil => simp
  | cons entry entries ih =>
      cases entries with
      | nil =>
          rw [List.intercalate_singleton] at spelled
          simpa [spelled] using flows
      | cons next entries =>
          rw [List.intercalate_cons_cons, List.append_assoc, List.singleton_append] at spelled
          subst spelled
          rw [List.forall_mem_cons]
          constructor
          · exact flows_of_append_comma flows.chain
          · apply ih _ rfl
            constructor
            · exact (List.isChain_cons.mp flows.chain.right_of_append).2
            · intro c last
              apply flows.last c
              rw [List.getLast?_append, List.getLast?_cons]
              simp [Option.mem_def.mp last]

/-- Entries that flow can be written with commas between them. -/
theorem flows_intercalate {entries : List Text} (flows : ∀ entry ∈ entries, Flows entry) :
    Flows (List.intercalate [','] entries) := by
  have comma : Flows [','] := by
    apply flows_of_unbroken
    intro c listed
    rw [List.mem_singleton.mp listed]
    rfl
  induction entries with
  | nil => exact flows_nil
  | cons entry entries ih =>
      rw [List.forall_mem_cons] at flows
      cases entries with
      | nil => simpa using flows.1
      | cons next entries =>
          rw [List.intercalate_cons_cons]
          exact (flows.1.append comma).append (ih flows.2)

namespace Block

variable {text : Text} {block : Block} {field : Field}

theorem own_eq (found : Block.find? field.header text.lines = some block) :
    block.own = field.header ++ (block.entriesText field.header ++ block.tail field.header) := by
  obtain ⟨body, spelled⟩ := (isFieldText_own found).header_in_front
  rw [entriesText, tail, Text.trimEnd_append_trailingBlanks, ← spelled, List.drop_left]

/-- A field that ends in a blank ends as the blanks at its end do. -/
theorem getLast?_tail (found : Block.find? field.header text.lines = some block) {c : Char}
    (last : block.own.getLast? = some c) (blank : Text.isBlank c = true) :
    (block.tail field.header).getLast? = some c := by
  rw [own_eq found, ← List.append_assoc] at last
  by_cases none : block.tail field.header = []
  · -- without blanks at its end the field ends in its header or in an entry
    rw [none, List.append_nil] at last
    cases entries : block.entriesText field.header with
    | nil =>
        rw [entries, List.append_nil] at last
        cases field <;> cases last <;> exact absurd blank (by decide)
    | cons d others =>
        rw [List.getLast?_append_of_ne_nil _ (by simp [entries])] at last
        simp [Text.not_isBlank_of_getLast?_trimEnd last] at blank
  · rwa [List.getLast?_append_of_ne_nil _ none] at last

theorem chain_body (found : Block.find? field.header text.lines = some block) :
    (block.entriesText field.header ++ block.tail field.header).IsChain
      (StartsLines ContinuesAt) := by
  have chain := (isFieldText_own found).chain
  rw [own_eq found] at chain
  exact chain.right_of_append

/-- The trimmed body of a field ends in no break. -/
theorem flows_entriesText (found : Block.find? field.header text.lines = some block) :
    Flows (block.entriesText field.header) := by
  constructor
  · exact (chain_body found).left_of_append
  · intro c last
    have visible := Text.not_isBlank_of_getLast?_trimEnd (Option.mem_def.mp last)
    by_contra breaks
    rw [Bool.not_eq_false] at breaks
    simp [Text.isBlank_of_isLineBreak breaks] at visible

/-- What follows a block starts with an uppercase character. -/
theorem head?_afterText_ne_newline (found : Block.find? field.header text.lines = some block) :
    block.afterText.head? ≠ some '\n' := by
  have divides := find?_eq_some_iff.mp found
  cases after : block.after with
  | nil => simp [afterText, after]
  | cons line others =>
      have opens := divides.after_opens line (by simp [after])
      obtain ⟨c, first, upper⟩ := opensField_eq_true_iff.mp opens
      obtain ⟨rest, spelled⟩ := List.head?_eq_some_iff.mp (Option.mem_def.mp first)
      simp only [afterText, after, List.flatMap_cons, spelled, List.cons_append, List.head?_cons,
        ne_eq, Option.some.injEq]
      rintro rfl
      exact absurd upper (by simp [strayAt_newline.2])

/-- Lines of a block end before what follows the block. -/
theorem endsBefore_afterText (found : Block.find? field.header text.lines = some block)
    {part : List Line} (inside : ∀ line ∈ part, line ∈ block.opening :: block.inner) :
    EndsBefore (part.flatMap Line.full) block.afterText := by
  have divides := find?_eq_some_iff.mp found
  cases after : block.after with
  | nil => exact .inl (by simp [afterText, after])
  | cons next others =>
      right
      intro c last
      have ended := pairwise_isEnding_lines text
      rw [divides.lines_eq, ← List.cons_append] at ended
      have endings := (List.pairwise_append.mp (List.pairwise_append.mp ended).2.1).2.2
      obtain ⟨front, line, rfl⟩ : ∃ front line, part = front ++ [line] := by
        have nonempty : part ≠ [] := by
          rintro rfl
          simp at last
        exact ⟨_, _, (List.dropLast_append_getLast nonempty).symm⟩
      obtain ⟨d, lastToo, breaks⟩ :=
        Text.getLast?_full (endings line (inside line (by simp)) next (by simp [after]))
      rw [List.flatMap_append, List.flatMap_singleton, List.getLast?_append, lastToo] at last
      obtain rfl : d = c := by simpa using last
      exact ⟨breaks, fun _ => head?_afterText_ne_newline found⟩

theorem strayText_endsBefore_afterText
    (found : Block.find? field.header text.lines = some block) :
    EndsBefore block.strayText block.afterText :=
  endsBefore_afterText found fun _ listed =>
    List.mem_cons_of_mem _ (List.mem_of_mem_filter listed)

/-- The blanks at the end of a field hold the break before what follows it. -/
theorem endsBefore_append_tail (found : Block.find? field.header text.lines = some block)
    (front : Text) : EndsBefore (front ++ block.tail field.header) block.afterText := by
  have inside : ∀ line ∈ block.opening :: block.inner.filter (continuesField ·.full),
      line ∈ block.opening :: block.inner := by
    intro line listed
    rcases List.mem_cons.mp listed with rfl | inner
    · exact List.mem_cons_self
    · exact List.mem_cons_of_mem _ (List.mem_filter.mp inner).1
  have own := endsBefore_afterText found inside
  rw [List.flatMap_cons] at own
  change EndsBefore block.own _ at own
  apply own.imp_right
  intro breaks c last
  rw [own_eq found] at breaks
  have flows : Flows (field.header ++ block.entriesText field.header) :=
    (flows_of_unbroken (unbroken_header field)).append (flows_entriesText found)
  rw [← List.append_assoc] at breaks
  cases tail : block.tail field.header with
  | cons d rest =>
      rw [tail, List.getLast?_append] at breaks last
      exact breaks c (by simpa using last)
  | nil =>
      -- without blanks at its end the field would not end in a break
      rw [tail, List.append_nil] at breaks
      obtain ⟨d, foundLast⟩ : ∃ d,
          (field.header ++ block.entriesText field.header).getLast? = some d :=
        ⟨_, List.getLast?_eq_some_getLast (by simp [header_ne_nil])⟩
      have := (breaks d foundLast).1
      simp [flows.last d foundLast] at this

end Block

/-! ## Stray lines behind a field -/

theorem lineEnding_eq (text : Text) :
    Text.lineEnding text = ['\r', '\n'] ∨ Text.lineEnding text = ['\n'] := by
  rw [Text.lineEnding]
  split
  · exact .inl rfl
  · exact .inr rfl

/-- How a rebuilt field and the stray lines behind it are joined: the field gains blanks
at its end, and what follows them is stray text. -/
structure Joins (header rebuilt behind joined blanks stray : Text) : Prop where
  blank : Blank blanks
  spelled : joined = rebuilt ++ blanks ++ stray
  field_text : IsFieldText header (rebuilt ++ blanks)
  stray_text : IsStrayText stray
  field_ends : EndsBefore (rebuilt ++ blanks) (stray ++ behind)
  stray_ends : EndsBefore stray behind

section Joining

variable {header front rebuilt stray behind ending : Text} {last next : Char}

/-- A line feed that meets a carriage return completes the last break of the field. -/
theorem joins_completed (fieldText : IsFieldText header (front ++ ['\r']))
    (strayText : IsStrayText ('\n' :: stray)) (strayEnds : EndsBefore ('\n' :: stray) behind) :
    Joins header (front ++ ['\r']) behind (front ++ ['\r'] ++ '\n' :: stray) ['\n'] stray where
  blank := by simp [isBlank]
  spelled := by simp
  field_text := by
    refine ⟨fieldText.header_in_front.trans (List.prefix_append _ _), ?_⟩
    exact fieldText.chain.append (.singleton _) (by simp [StartsLines])
  stray_text := by
    obtain ⟨stepped, chain⟩ := List.isChain_cons.mp strayText.chain
    exact ⟨fun c first => (stepped c first (by decide)).resolve_right (by simp), chain⟩
  field_ends := by
    right
    intro c found
    obtain rfl : '\n' = c := by simpa using found
    exact ⟨by decide, by simp⟩
  stray_ends := strayEnds.of_cons

/-- Behind any other break stray lines stay as they are. -/
theorem joins_at_break (breaks : isLineBreak last = true)
    (meets : ¬(last = '\r' ∧ next = '\n')) (fieldText : IsFieldText header (front ++ [last]))
    (strayText : IsStrayText (next :: stray)) (strayEnds : EndsBefore (next :: stray) behind) :
    Joins header (front ++ [last]) behind (front ++ [last] ++ next :: stray) []
      (next :: stray) where
  blank := Text.blank_nil
  spelled := by simp
  field_text := by rwa [List.append_nil]
  stray_text := strayText
  field_ends := by
    right
    intro c found
    obtain rfl : last = c := by simpa using found
    exact ⟨breaks, fun isReturn => by simpa using fun feed => meets ⟨isReturn, feed⟩⟩
  stray_ends := strayEnds

/-- A field without a break at its end gains an ending that is put between. -/
theorem joins_unended (ends : ending = ['\r', '\n'] ∨ ending = ['\n'])
    (unbroken : ¬isLineBreak last = true) (fieldText : IsFieldText header (front ++ [last]))
    (strayText : IsStrayText stray) (strayEnds : EndsBefore stray behind) :
    Joins header (front ++ [last]) behind (front ++ [last] ++ (ending ++ stray)) ending
      stray where
  blank := by rcases ends with rfl | rfl <;> simp [isBlank]
  spelled := by simp
  field_text := by
    refine ⟨fieldText.header_in_front.trans (List.prefix_append _ _), ?_⟩
    apply fieldText.chain.append
    · rcases ends with rfl | rfl <;> simp [StartsLines]
    · intro c found d _ broken
      obtain rfl : last = c := by simpa using found
      exact absurd broken unbroken
  stray_text := strayText
  field_ends := by
    right
    intro c found
    obtain rfl : '\n' = c := by rcases ends with rfl | rfl <;> simpa using found
    exact ⟨by decide, by simp⟩
  stray_ends := strayEnds

theorem exists_eq_append_singleton (present : header ≠ [])
    (fieldText : IsFieldText header rebuilt) : ∃ front last, rebuilt = front ++ [last] := by
  have nonempty : rebuilt ≠ [] := by
    rintro rfl
    exact present (List.prefix_nil.mp fieldText.header_in_front)
  exact ⟨_, _, (List.dropLast_append_getLast nonempty).symm⟩

/-- Stray lines right behind a field stay stray if the field ends in a break. -/
theorem exists_joins_of_break (present : header ≠ []) (fieldText : IsFieldText header rebuilt)
    (strayText : IsStrayText stray) (alone : stray = [] → EndsBefore rebuilt behind)
    (broken : stray ≠ [] → ∀ c ∈ rebuilt.getLast?, isLineBreak c = true)
    (strayEnds : EndsBefore stray behind) :
    ∃ blanks stray', Joins header rebuilt behind (rebuilt ++ stray) blanks stray' := by
  obtain ⟨front, last, rfl⟩ := exists_eq_append_singleton present fieldText
  cases stray with
  | nil =>
      exact ⟨[], [], Text.blank_nil, by simp, by rwa [List.append_nil], strayText,
        by simpa using alone rfl, strayEnds⟩
  | cons next stray =>
      by_cases meets : last = '\r' ∧ next = '\n'
      · obtain ⟨rfl, rfl⟩ := meets
        exact ⟨_, _, joins_completed fieldText strayText strayEnds⟩
      · have breaks : isLineBreak last = true := broken (by simp) last (by simp)
        exact ⟨_, _, joins_at_break breaks meets fieldText strayText strayEnds⟩

/-! ## Stray lines behind an ending -/

theorem isStrayText_ending_append (ends : ending = ['\r', '\n'] ∨ ending = ['\n'])
    (strayText : IsStrayText (next :: stray)) : IsStrayText (ending ++ next :: stray) := by
  have nextStray : StrayAt next := strayText.head next (by simp)
  rcases ends with rfl | rfl
  · refine ⟨by simp [strayAt_return], ?_⟩
    simp only [List.cons_append, List.nil_append, List.isChain_cons_cons]
    exact ⟨fun _ => .inl strayAt_newline, fun _ => .inl nextStray, strayText.chain⟩
  · refine ⟨by simp [strayAt_newline], ?_⟩
    simp only [List.cons_append, List.nil_append, List.isChain_cons_cons]
    exact ⟨fun _ => .inl nextStray, strayText.chain⟩

/-- An ending that is put between belongs to a field without a break at its end, and is a
stray line of its own behind any other. -/
theorem exists_joins_ending (present : header ≠ [])
    (ends : ending = ['\r', '\n'] ∨ ending = ['\n']) (fieldText : IsFieldText header rebuilt)
    (strayText : IsStrayText (next :: stray)) (strayEnds : EndsBefore (next :: stray) behind) :
    ∃ blanks stray',
      Joins header rebuilt behind (rebuilt ++ (ending ++ next :: stray)) blanks stray' := by
  by_cases broken : ∀ c ∈ rebuilt.getLast?, isLineBreak c = true
  · apply exists_joins_of_break present fieldText (isStrayText_ending_append ends strayText)
    · simp
    · exact fun _ => broken
    · apply strayEnds.imp_right
      intro breaks c found
      apply breaks c
      rwa [List.getLast?_append_cons] at found
  · obtain ⟨front, last, rfl⟩ := exists_eq_append_singleton present fieldText
    exact ⟨_, _, joins_unended ends (by simpa using broken) fieldText strayText strayEnds⟩

theorem isLineBreak_of_endsLine (ended : rebuilt.endsLine = true) :
    ∀ c ∈ rebuilt.getLast?, isLineBreak c = true := by
  intro c last
  rw [Text.endsLine, Option.mem_def.mp last] at ended
  have plain : c = '\n' ∨ c = '\r' := by simpa using ended
  rcases plain with rfl | rfl <;> rfl

/-- Stray lines that are put behind a field stay stray, and the field gains at most a
break. -/
theorem exists_joins (present : header ≠ []) (fieldText : IsFieldText header rebuilt)
    (strayText : IsStrayText stray) (ends : ending = ['\r', '\n'] ∨ ending = ['\n'])
    (alone : stray = [] → EndsBefore rebuilt behind) (strayEnds : EndsBefore stray behind) :
    ∃ blanks stray',
      Joins header rebuilt behind (appendStray ending rebuilt stray) blanks stray' := by
  cases stray with
  | nil =>
      rw [appendStray, if_pos (by rfl)]
      simpa using exists_joins_of_break present fieldText strayText alone (by simp) strayEnds
  | cons next stray =>
      rw [appendStray, if_neg (by simp)]
      split
      case isTrue ended =>
        exact exists_joins_of_break present fieldText strayText (by simp)
          (fun _ => isLineBreak_of_endsLine ended) strayEnds
      case isFalse =>
        rw [List.append_assoc]
        exact exists_joins_ending present ends fieldText strayText strayEnds

end Joining

/-! ## Reading a rebuilt block -/

/-- Entries that stay of a division, written with commas between them, hold the names
that they held before. -/
theorem bodyNames_intercalate {entries kept : List Text} (division : IsDivision 0 entries)
    (fewer : kept.Sublist entries) :
    bodyNames (List.intercalate [','] kept) = kept.flatMap entryNames := by
  rw [bodyNames_eq_flatMap_entryNames]
  cases kept with
  | nil => rfl
  | cons first kept =>
      rw [splitEntries, splitEntriesAt_intercalate (division.sublist fewer (by simp))]

/-- Entries that close no parenthesis can be written behind any others. -/
theorem bodyNames_intercalate_append {front back : List Text}
    (unclosing : ')' ∉ List.intercalate [','] back) :
    bodyNames (List.intercalate [','] (front ++ back)) =
      bodyNames (List.intercalate [','] front) ++ bodyNames (List.intercalate [','] back) := by
  have nothing : bodyNames (List.intercalate [','] []) = [] := rfl
  by_cases noFront : front = []
  · rw [noFront, nothing, List.nil_append, List.nil_append]
  by_cases noBack : back = []
  · rw [noBack, nothing, List.append_nil, List.append_nil]
  · rw [intercalate_append noFront noBack, bodyNames_append_comma unclosing]

section Reading

variable {text : Text} {block : Block} {field : Field} {joined blanks stray rebuilt tail : Text}

/-- A header, entries that flow and whatever may come behind them are text of a field. -/
theorem isFieldText_intercalate {entries : List Text} (flows : ∀ entry ∈ entries, Flows entry)
    (chain : tail.IsChain (StartsLines ContinuesAt)) :
    IsFieldText field.header (field.header ++ List.intercalate [','] entries ++ tail) := by
  have written : Flows (field.header ++ List.intercalate [','] entries) :=
    (flows_of_unbroken (unbroken_header field)).append (flows_intercalate flows)
  exact ⟨(List.prefix_append _ _).trans (List.prefix_append _ _), written.append_chain chain⟩

/-- A manifest with a rebuilt block divides where it did before. -/
theorem Block.find?_replaceWith_joined
    (found : Block.find? field.header text.lines = some block)
    (joins : Joins field.header rebuilt block.afterText joined blanks stray) :
    ∃ again, Block.find? field.header (block.replaceWith joined).lines = some again ∧
      again.before = block.before ∧ again.after = block.after ∧
      again.own = rebuilt ++ blanks ∧ again.strayText = stray := by
  rw [joins.spelled]
  exact Block.find?_replaceWith (unbroken_header field) (header_ne_nil field) found
    joins.field_text joins.stray_text joins.field_ends joins.stray_ends

/-- What a reader finds in a rebuilt block are the names in the body that was written,
whatever blanks and stray lines come behind it. -/
theorem declaredNames_replaceWith {body : Text}
    (found : Block.find? field.header text.lines = some block) (blankTail : Blank tail)
    (joins : Joins field.header (field.header ++ body ++ tail) block.afterText joined blanks
      stray) :
    declaredNames (block.replaceWith joined) field = canonical (bodyNames body) := by
  obtain ⟨again, foundAgain, -, -, own, -⟩ := Block.find?_replaceWith_joined found joins
  have spaced : SpacedAlike body (body ++ (tail ++ blanks)) :=
    .append_blanks body (Text.blank_append.mpr ⟨blankTail, joins.blank⟩)
  rw [declaredNames_of_find? foundAgain, own, List.append_assoc, List.append_assoc,
    List.drop_left, ← bodyNames_congr spaced]

/-- An editor finds entries of the same names there as in the body that was written. -/
theorem map_entryName_fieldEntries_replaceWith {body : Text}
    (found : Block.find? field.header text.lines = some block) (blankTail : Blank tail)
    (joins : Joins field.header (field.header ++ body ++ tail) block.afterText joined blanks
      stray) :
    (fieldEntries (block.replaceWith joined) field).map entryName =
      (splitEntries body).map entryName := by
  obtain ⟨again, foundAgain, -, -, own, -⟩ := Block.find?_replaceWith_joined found joins
  have spaced : SpacedAlike body (body ++ (tail ++ blanks)) :=
    .append_blanks body (Text.blank_append.mpr ⟨blankTail, joins.blank⟩)
  rw [fieldEntries_of_find? foundAgain, Block.entriesText,
    map_entryName_splitEntries_congr (.trimEnd_left _), own, List.append_assoc, List.append_assoc,
    List.drop_left, ← map_entryName_splitEntries_congr spaced]

end Reading

end DependencyGate.Manifest

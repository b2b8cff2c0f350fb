/-
# Rebuilding a block

An edit writes new text where a block stood: the field's own text and, behind it, its
stray lines. `Block.find?_replaceWith` says when the new manifest divides in the same
way: within the own text each break is followed by a blank that continues the field,
within the stray text by a character that does neither that nor open another, and
both parts end where a line ends.
-/

import DependencyGate.Proofs.Manifest.Reading

namespace DependencyGate.Manifest

open Text (isLineBreak StartsLines EndsBefore lines)

/-! ## Own text and stray text -/

/-- The own text of a field: it starts with the header, and every later line continues
the field. -/
structure IsFieldText (header own : Text) : Prop where
  header_in_front : header <+: own
  chain : own.IsChain (StartsLines ContinuesAt)

/-- Text of which every line is stray. -/
structure IsStrayText (stray : Text) : Prop where
  head : ∀ c ∈ stray.head?, StrayAt c
  chain : stray.IsChain (StartsLines StrayAt)

theorem strayAt_newline : StrayAt '\n' := by
  constructor
  · intro continues
    exact continues.2.1 rfl
  · decide +kernel

theorem strayAt_return : StrayAt '\r' := by
  constructor
  · intro continues
    exact continues.2.2 rfl
  · decide +kernel

/-- A line that starts as stray lines do is stray. -/
theorem stray_of_strayAt {line : Line} (sound : line.IsSound)
    (starts : ∀ c ∈ line.full.head?, StrayAt c) :
    continuesField line.full = false ∧ opensField line.full = false := by
  obtain ⟨c, rest, spelled⟩ := List.exists_cons_of_ne_nil sound.full_ne_nil
  have stray : StrayAt c := starts c (by simp [spelled])
  constructor
  · rw [← Bool.not_eq_true, continuesField_full_iff sound]
    exact fun continues => stray.1 (continues c (by simp [spelled]))
  · simp [opensField, spelled, stray.2]

theorem strayAt_of_stray {line : Line} (sound : line.IsSound)
    (continues : continuesField line.full = false) (opens : opensField line.full = false) :
    ∀ c ∈ line.full.head?, StrayAt c := by
  intro c first
  constructor
  · intro continuesAt
    rw [← Bool.not_eq_true, continuesField_full_iff sound] at continues
    apply continues
    intro d firstToo
    exact Option.mem_unique first firstToo ▸ continuesAt
  · rw [← Bool.not_eq_true, opensField_eq_true_iff] at opens
    rw [← Bool.not_eq_true]
    intro upper
    exact opens ⟨c, first, upper⟩

namespace Block

variable {header : Text} {text : Text} {block : Block}

theorem isFieldText_own (found : find? header text.lines = some block) :
    IsFieldText header block.own := by
  have divides := find?_eq_some_iff.mp found
  have sound : ∀ line ∈ text.lines, line.IsSound := fun _ => Text.isSound_of_mem_lines
  rw [divides.lines_eq] at sound
  constructor
  · exact (List.isPrefixOf_iff_prefix.mp divides.opening_header).trans (List.prefix_append _ _)
  · show ((block.opening :: block.inner.filter (continuesField ·.full)).flatMap
      Line.full).IsChain (Text.StartsLines ContinuesAt)
    apply Text.isChain_flatMap_full
    · intro line listed
      apply sound
      rcases List.mem_cons.mp listed with rfl | inner
      · simp
      · simp [(List.mem_filter.mp inner).1]
    · intro line listed c first
      obtain ⟨inner, continues⟩ := List.mem_filter.mp listed
      exact (continuesField_full_iff (sound line (by simp [inner]))).mp continues c first

theorem isStrayText_strayText (found : find? header text.lines = some block) :
    IsStrayText block.strayText := by
  have divides := find?_eq_some_iff.mp found
  have sound : ∀ line ∈ block.stray, line.IsSound := by
    intro line stray
    have listed : line ∈ text.lines := by
      simp [divides.lines_eq, (List.mem_filter.mp stray).1]
    exact Text.isSound_of_mem_lines listed
  have starts : ∀ line ∈ block.stray, ∀ c ∈ line.full.head?, StrayAt c := by
    intro line listed
    obtain ⟨inner, stray⟩ := List.mem_filter.mp listed
    exact strayAt_of_stray (sound line listed) (by simpa using stray)
      (divides.inner_closed line inner)
  constructor
  · intro c first
    cases stray : block.stray with
    | nil => simp [strayText, stray] at first
    | cons line others =>
        obtain ⟨d, rest, spelled⟩ :=
          List.exists_cons_of_ne_nil (sound line (by simp [stray])).full_ne_nil
        apply starts line (by simp [stray]) c
        simpa [strayText, stray, spelled] using first
  · apply Text.isChain_flatMap_full sound
    intro line listed
    exact starts line (List.mem_of_mem_tail listed)

/-! ## Replacing a block -/

variable (unbroken : ∀ c ∈ header, isLineBreak c = false) (present : header ≠ [])

include unbroken present in
/-- A text that starts with a header starts with no line feed. -/
theorem head?_ne_newline {own behind : Text} (starts : header <+: own) :
    (own ++ behind).head? ≠ some '\n' := by
  obtain ⟨c, rest, rfl⟩ := List.exists_cons_of_ne_nil present
  obtain ⟨others, rfl⟩ := starts
  simp only [List.cons_append, List.head?_cons, ne_eq, Option.some.injEq]
  rintro rfl
  exact absurd (unbroken '\n' (by simp)) (by decide)

include unbroken present in
/-- The lines before a block end where the block starts. -/
theorem endsBefore_beforeText (found : find? header text.lines = some block) {own : Text}
    (starts : header <+: own) (behind : Text) : EndsBefore block.beforeText (own ++ behind) := by
  have split := (find?_eq_some_iff.mp found).lines_eq
  right
  intro c last
  have nonempty : block.before ≠ [] := by
    intro empty
    simp [beforeText, empty] at last
  obtain ⟨d, lastToo, breaks⟩ := Text.exists_getLast?_of_lines_eq_append split nonempty
  obtain rfl : c = d := Option.mem_unique last lastToo
  exact ⟨breaks, fun _ => head?_ne_newline unbroken present starts⟩

include unbroken present in
theorem lines_beforeText (found : find? header text.lines = some block) :
    lines block.beforeText = block.before := by
  have divides := find?_eq_some_iff.mp found
  have opens := List.isPrefixOf_iff_prefix.mp divides.opening_header
  have junction := endsBefore_beforeText unbroken present found opens
    ((block.inner ++ block.after).flatMap Line.full)
  have behind := Text.lines_flatMap_full_of_append divides.lines_eq
  have whole := divides.lines_eq
  rw [← Text.flatMap_full_lines text, divides.lines_eq, List.flatMap_append,
    List.flatMap_cons] at whole
  rw [List.flatMap_cons] at behind
  rw [← beforeText, Text.lines_append junction, behind] at whole
  exact List.append_cancel_right whole

theorem lines_afterText (found : find? header text.lines = some block) :
    lines block.afterText = block.after := by
  have split := (find?_eq_some_iff.mp found).lines_eq
  rw [← List.cons_append, ← List.append_assoc] at split
  exact Text.lines_flatMap_full_of_append split

include unbroken present in
/-- The first line of a text that starts with a header starts with that header. -/
theorem exists_opening {own : Text} (starts : header <+: own) :
    ∃ opening others, lines own = opening :: others ∧
      header.isPrefixOf opening.full = true := by
  have nonempty : own ≠ [] := by
    rintro rfl
    exact present (List.prefix_nil.mp starts)
  obtain ⟨opening, others, split⟩ :=
    List.exists_cons_of_ne_nil (mt Text.lines_eq_nil_iff.mp nonempty)
  have sound : ∀ line ∈ lines own, line.IsSound := fun _ => Text.isSound_of_mem_lines
  refine ⟨opening, others, split, ?_⟩
  -- the header cannot reach beyond the break at the end of the opening line
  have spelled := Text.flatMap_full_lines own
  rw [split, List.flatMap_cons, Line.full, List.append_assoc] at spelled
  have starts := List.isPrefixOf_iff_prefix.mpr starts
  rw [← isPrefixOf_body unbroken (sound opening (by simp [split]))]
  rw [← spelled, Text.isPrefixOf_append_break unbroken fun c first => ?_] at starts
  · exact starts
  · cases others with
    | nil =>
        have blank := sound opening (by simp [split])
        rcases blank.ending_sound with equal | ends
        · simp [equal] at first
        · exact ends.isLineBreak c (by simpa using List.mem_of_mem_head? first)
    | cons next others =>
        have ends := Text.isEnding_of_cons_cons split
        rcases ends with equal | ⟨d, breaks, equal⟩ <;> rw [equal] at first
        · obtain rfl : '\r' = c := by simpa using first
          decide
        · obtain rfl : d = c := by simpa using first
          exact breaks

include unbroken present in
/-- The lines of a field's own text are one that opens it and others that continue
it. -/
theorem lines_own {own : Text} (fieldText : IsFieldText header own) :
    ∃ opening others, lines own = opening :: others ∧
      header.isPrefixOf opening.full = true ∧
      ∀ line ∈ others, continuesField line.full = true := by
  obtain ⟨opening, others, split, opens⟩ :=
    exists_opening unbroken present fieldText.header_in_front
  have sound : ∀ line ∈ lines own, line.IsSound := fun _ => Text.isSound_of_mem_lines
  refine ⟨opening, others, split, opens, ?_⟩
  intro line listed
  apply (continuesField_full_iff (sound line (by simp [split, listed]))).mpr
  exact Text.startsLater_of_isChain fieldText.chain line (by simp [split, listed])

include unbroken present in
/-- A field that is written behind a text without it is found there. -/
theorem find?_append_own {front own behind : Text} (absent : find? header (lines front) = none)
    (frontEnds : EndsBefore front (own ++ behind)) (fieldText : IsFieldText header own)
    (ownEnds : EndsBefore own behind)
    (opens : ∀ line ∈ (lines behind).head?, opensField line.full = true) :
    ∃ block, find? header (lines (front ++ (own ++ behind))) = some block ∧
      block.before = lines front ∧ block.after = lines behind ∧ block.own = own := by
  obtain ⟨opening, others, split, opensOwn, continues⟩ := lines_own unbroken present fieldText
  refine ⟨⟨lines front, opening, others, lines behind⟩, find?_eq_some_iff.mpr ⟨?_, ?_, opensOwn, ?_,
    opens⟩, rfl, rfl, ?_⟩
  · rw [Text.lines_append frontEnds, Text.lines_append ownEnds, split, List.cons_append]
  · exact find?_eq_none_iff.mp absent
  · exact fun line listed => not_opensField_of_continuesField (continues line listed)
  · rw [Block.own, List.filter_eq_self.mpr continues, ← List.flatMap_cons, ← split,
      Text.flatMap_full_lines]

include unbroken present in
/-- A manifest whose block has been replaced by own and stray text divides into the same
lines before and after it, that own text and that stray text. -/
theorem find?_replaceWith (found : find? header text.lines = some block) {own stray : Text}
    (fieldText : IsFieldText header own) (strayText : IsStrayText stray)
    (ownEnds : EndsBefore own (stray ++ block.afterText))
    (strayEnds : EndsBefore stray block.afterText) :
    ∃ rebuilt : Block, find? header (lines (block.replaceWith (own ++ stray))) = some rebuilt ∧
      rebuilt.before = block.before ∧ rebuilt.after = block.after ∧
      rebuilt.own = own ∧ rebuilt.strayText = stray := by
  have divides := find?_eq_some_iff.mp found
  obtain ⟨opening, others, split, opens, continues⟩ := lines_own unbroken present fieldText
  have strays : ∀ line ∈ lines stray,
      continuesField line.full = false ∧ opensField line.full = false := by
    intro line listed
    exact stray_of_strayAt (Text.isSound_of_mem_lines listed)
      (Text.starts_of_startsLater strayText.head
        (Text.startsLater_of_isChain strayText.chain) line listed)
  have keptOwn : (others ++ lines stray).filter (continuesField ·.full) = others := by
    rw [List.filter_append, List.filter_eq_self.mpr continues,
      List.filter_eq_nil_iff.mpr fun line listed => by simp [(strays line listed).1],
      List.append_nil]
  have keptStray : (others ++ lines stray).filter (!continuesField ·.full) = lines stray := by
    rw [List.filter_append, List.filter_eq_nil_iff.mpr fun line listed => by
        simp [continues line listed],
      List.filter_eq_self.mpr fun line listed => by simp [(strays line listed).1],
      List.nil_append]
  refine ⟨⟨block.before, opening, others ++ lines stray, block.after⟩,
    find?_eq_some_iff.mpr ⟨?_, divides.before_other, opens, ?_, divides.after_opens⟩, rfl, rfl,
    ?_, ?_⟩
  · rw [replaceWith, List.append_assoc, List.append_assoc,
      Text.lines_append (endsBefore_beforeText unbroken present found fieldText.header_in_front _),
      Text.lines_append ownEnds, Text.lines_append strayEnds, lines_afterText found,
      lines_beforeText unbroken present found, split]
    simp
  · intro line listed
    rcases List.mem_append.mp listed with inOwn | inStray
    · exact not_opensField_of_continuesField (continues line inOwn)
    · exact (strays line inStray).2
  · rw [Block.own, keptOwn, ← List.flatMap_cons, ← split, Text.flatMap_full_lines]
  · rw [Block.strayText, Block.stray, keptStray, Text.flatMap_full_lines]

end Block
end DependencyGate.Manifest

/-
# What surrounds an edited field

A step that edits the manifest replaces the block of the required field and writes the lines
before and after it as they were read. But reading unifies line endings and writing does
not undo that: the bytes around the block stay the same exactly if no carriage return
stands among them (`surrounds_iff_of_edit`).

The block is found in the text of the file, before line endings are unified. That the editor,
which sees the unified text, finds the same block is `Block.find?_unifyLineEndings`.
-/

import DependencyGate.Proofs.Manifest.Stored

namespace DependencyGate.Manifest

open DependencyGate.Action (runFrom)
open Text (isLineBreak)

variable {text : Text} {block : Block} {line : Line} {header : Text}

/-! ## The block of a text with unified line endings -/

/-- A line keeps how it starts when its ending is unified. -/
theorem opensField_unified (line : Line) :
    opensField line.unified.full = opensField line.full := by
  rw [Line.unified, Line.full, Line.full]
  split
  case isFalse => rfl
  case isTrue isReturn =>
    obtain ⟨others, ending⟩ := List.head?_eq_some_iff.mp isReturn
    cases body : line.body with
    | nil =>
        rw [ending]
        rfl
    | cons c rest => rfl

theorem isPrefixOf_unified (unbroken : ∀ c ∈ header, isLineBreak c = false) (line : Line) :
    header.isPrefixOf line.unified.full = header.isPrefixOf line.full := by
  rw [Line.unified, Line.full, Line.full]
  split
  case isFalse => rfl
  case isTrue isReturn =>
    have atReturn : ∀ c ∈ line.ending.head?, isLineBreak c = true := by
      rw [isReturn]
      rintro c ⟨⟩
      rfl
    have atFeed : ∀ c ∈ (['\n'] : Text).head?, isLineBreak c = true := by
      rintro c ⟨⟩
      rfl
    rw [Text.isPrefixOf_append_break unbroken atFeed,
      Text.isPrefixOf_append_break unbroken atReturn]

namespace Block

/-- The block with unified line endings. -/
def unified (block : Block) : Block :=
  ⟨block.before.map Line.unified, block.opening.unified, block.inner.map Line.unified,
    block.after.map Line.unified⟩

theorem Divides.unified {lines : List Line} (unbroken : ∀ c ∈ header, isLineBreak c = false)
    (divides : block.Divides header lines) :
    block.unified.Divides header (lines.map Line.unified) where
  lines_eq := by simp [divides.lines_eq, Block.unified]
  before_other := by
    intro line listed
    obtain ⟨line, old, rfl⟩ := List.mem_map.mp listed
    rw [isPrefixOf_unified unbroken]
    exact divides.before_other line old
  opening_header := by
    rw [Block.unified, isPrefixOf_unified unbroken]
    exact divides.opening_header
  inner_closed := by
    intro line listed
    obtain ⟨line, old, rfl⟩ := List.mem_map.mp listed
    rw [opensField_unified]
    exact divides.inner_closed line old
  after_opens := by
    intro line first
    rw [Block.unified, List.head?_map] at first
    obtain ⟨line, old, rfl⟩ := Option.map_eq_some_iff.mp first
    rw [opensField_unified]
    exact divides.after_opens line old

/-- The block of a text is that of the text as it is read. -/
theorem find?_unifyLineEndings (unbroken : ∀ c ∈ header, isLineBreak c = false)
    (found : find? header text.lines = some block) :
    find? header text.unifyLineEndings.lines = some block.unified := by
  rw [find?_eq_some_iff, Text.lines_unifyLineEndings]
  exact (find?_eq_some_iff.mp found).unified unbroken

theorem beforeText_unified (unbroken : ∀ c ∈ header, isLineBreak c = false)
    (present : header ≠ []) (found : find? header text.lines = some block) :
    block.unified.beforeText = block.beforeText.unifyLineEndings := by
  rw [← Text.flatMap_full_lines block.beforeText.unifyLineEndings, Text.lines_unifyLineEndings,
    lines_beforeText unbroken present found]
  rfl

theorem afterText_unified (found : find? header text.lines = some block) :
    block.unified.afterText = block.afterText.unifyLineEndings := by
  rw [← Text.flatMap_full_lines block.afterText.unifyLineEndings, Text.lines_unifyLineEndings,
    lines_afterText found]
  rfl

/-! ## Edits replace a block -/

/-- Whether a text has the lines of a manifest before and after a block and, between them, a
field of the given header. -/
def Reframes (block : Block) (header edited : Text) : Prop :=
  ∃ field, header <+: field ∧ edited = block.replaceWith field

/-- A manifest is framed by the lines around each of its blocks. -/
theorem reframes_self (found : find? header text.lines = some block) :
    block.Reframes header text := by
  have divides := find?_eq_some_iff.mp found
  have opens := List.isPrefixOf_iff_prefix.mp divides.opening_header
  refine ⟨block.opening.full ++ block.inner.flatMap Line.full,
    opens.trans (List.prefix_append _ _), ?_⟩
  rw [replaceWith, beforeText, afterText, ← Text.flatMap_full_lines text, divides.lines_eq]
  simp

end Block

theorem prefix_appendStray {ending rebuilt stray : Text} :
    rebuilt <+: appendStray ending rebuilt stray := by
  rw [appendStray]
  split
  · exact List.prefix_rfl
  · split
    · exact List.prefix_append _ _
    · rw [List.append_assoc]
      exact List.prefix_append _ _

/-- Pruning replaces the block of the required field. -/
theorem reframes_pruned (found : Block.find? Field.required.header text.lines = some block)
    (used kept : List Text) :
    block.Reframes Field.required.header (pruned used kept text) := by
  rw [pruned_eq_removeEntries, removeEntries_of_find? found]
  split
  case isTrue => exact Block.reframes_self found
  case isFalse =>
    refine ⟨_, ?_, rfl⟩
    rw [List.append_assoc]
    exact (List.prefix_append _ _).trans prefix_appendStray

/-- So does an addition to it. -/
theorem reframes_extended (found : Block.find? Field.required.header text.lines = some block)
    (names : List Text) : block.Reframes Field.required.header (extended names text) := by
  rw [extended]
  by_cases new : unlisted text .required (addedNames names text) = []
  · rw [addEntries_of_unlisted_eq_nil new]
    exact Block.reframes_self found
  · rw [addEntries_of_find? found new]
    refine ⟨_, ?_, rfl⟩
    rw [List.append_assoc, List.append_assoc]
    exact List.prefix_append _ _

/-! ## Files -/

/-- The steps that edit the manifest at a path. Names that are added have to be valid. -/
inductive IsEdit (path : Path) : Action (List Text) → Prop
  | prune (used kept : List Text) : IsEdit path (pruneFile path used kept)
  | fix {names : List Text} (valid : ∀ name ∈ names, PackageName.isValid name = true) :
      IsEdit path (fixFile path names)

section Edit

variable {path : Path} {step : Action (List Text)} {outcome : Except Failure (List Text)}
  {session after : Session} {bytes left : List UInt8} {raw : Text}

/-- A step that changes the file tree writes an edited manifest: a text without carriage
returns, in which the block of the required field has been replaced. -/
theorem IsEdit.exists_written (edit : IsEdit path step)
    (ended : runFrom session step = (outcome, after)) (changed : after.tree ≠ session.tree) :
    ∃ text edited place mode, textAt session.tree path = .ok (some text) ∧
      session.tree.site path = .ok place ∧
      after.tree = session.tree.put place (.file mode (Utf8.encode edited)) ∧ '\r' ∉ edited ∧
      ∀ block, Block.find? Field.required.header text.lines = some block →
        block.Reframes Field.required.header edited := by
  cases edit with
  | prune used kept =>
      have edits := edits_pruneFile ended
      generalize after.tree = tree at edits changed ⊢
      cases edits with
      | idle | failed => exact absurd rfl changed
      | @written text place mode found _ site =>
          exact ⟨text, _, place, mode, found, site, rfl,
            return_not_mem_pruned (textAt_eq_some found).2,
            fun block present => reframes_pruned present used kept⟩
  | @fix names valid =>
      have edits := edits_fixFile ended
      generalize after.tree = tree at edits changed ⊢
      cases edits with
      | idle | failed => exact absurd rfl changed
      | @written text place mode found _ site =>
          exact ⟨text, _, place, mode, found, site, rfl,
            return_not_mem_extended (fun name listed =>
              PackageName.return_not_mem_of_isValid (valid name listed)) (textAt_eq_some found).2,
            fun block present => reframes_extended present names⟩

/-- What a step that changes the file tree leaves in the file. -/
theorem IsEdit.exists_left (edit : IsEdit path step)
    (read : session.tree.read path = .ok bytes) (decoded : Utf8.decode bytes = .ok raw)
    (found : Block.find? Field.required.header raw.lines = some block)
    (ended : runFrom session step = (outcome, after)) (changed : after.tree ≠ session.tree) :
    ∃ edited, after.tree.read path = .ok (Utf8.encode edited) ∧ '\r' ∉ edited ∧
      block.unified.Reframes Field.required.header edited := by
  obtain ⟨text, edited, place, mode, stored, site, left, plain, reframes⟩ :=
    edit.exists_written ended changed
  have asRead := textAt_of_read (textAt_eq_some stored).1 read decoded
  obtain rfl := Option.some.inj (Except.ok.inj (asRead.symm.trans stored))
  refine ⟨edited, ?_, plain, reframes _ (Block.find?_unifyLineEndings (unbroken_header _) found)⟩
  rw [left]
  exact FileTree.read_of_nodeAt (FileTree.nodeAt_put_site (textAt_eq_some stored).1 site _ _)

/-- Whether bytes are those of the lines before a block, any others, and those of the lines
after it. -/
def Block.Surrounds (block : Block) (bytes : List UInt8) : Prop :=
  ∃ middle, bytes = Utf8.encode block.beforeText ++ middle ++ Utf8.encode block.afterText

/-- A text without carriage returns that has the lines around a block with unified endings has
the very lines exactly if no carriage return is among these. -/
theorem surrounds_iff {edited : Text}
    (found : Block.find? Field.required.header raw.lines = some block) (plain : '\r' ∉ edited)
    (reframes : block.unified.Reframes Field.required.header edited) :
    block.Surrounds (Utf8.encode edited) ↔ '\r' ∉ block.beforeText ∧ '\r' ∉ block.afterText := by
  constructor
  · rintro ⟨middle, same⟩
    rw [← Utf8.mem_encode_return_iff, same] at plain
    simp only [List.mem_append, Utf8.mem_encode_return_iff, not_or] at plain
    exact ⟨plain.1.1, plain.2⟩
  · rintro ⟨before, behind⟩
    obtain ⟨field, -, rfl⟩ := reframes
    refine ⟨Utf8.encode field, ?_⟩
    rw [Block.replaceWith, Block.beforeText_unified (unbroken_header _) (header_ne_nil _) found,
      Block.afterText_unified found, Text.unifyLineEndings_eq_self before,
      Text.unifyLineEndings_eq_self behind, Utf8.encode_append, Utf8.encode_append]

end Edit

/-- What an edit keeps of a file. A step that changes the file tree replaces the block of the
required field and unifies the line endings around it, so the bytes before and after the block
are kept exactly if there is no carriage return among them. -/
theorem surrounds_iff_of_edit {path : Path} {step : Action (List Text)}
    {outcome : Except Failure (List Text)} {session after : Session} {bytes : List UInt8}
    {raw : Text} (edit : IsEdit path step) (read : session.tree.read path = .ok bytes)
    (decoded : Utf8.decode bytes = .ok raw)
    (found : Block.find? Field.required.header raw.lines = some block)
    (ended : runFrom session step = (outcome, after)) (changed : after.tree ≠ session.tree) :
    block.Surrounds bytes ∧
      ∃ edited, after.tree.read path = .ok (Utf8.encode edited) ∧
        block.unified.Reframes Field.required.header edited ∧
        (block.Surrounds (Utf8.encode edited) ↔
          '\r' ∉ block.beforeText ∧ '\r' ∉ block.afterText) := by
  obtain ⟨edited, left, plain, reframes⟩ := edit.exists_left read decoded found ended changed
  obtain ⟨own, -, whole⟩ := Block.reframes_self found
  refine ⟨⟨Utf8.encode own, ?_⟩, edited, left, reframes, surrounds_iff found plain reframes⟩
  rw [← Utf8.encode_of_decode decoded, whole, Block.replaceWith, Utf8.encode_append,
    Utf8.encode_append]

/-! ## A small manifest -/

/-- The endings that a manifest may have here. -/
def smallEndings : List Text := [['\n'], ['\r', '\n']]

/-- A manifest whose lines have the given ending. -/
def smallManifest (ending : Text) : Text :=
  "Package: demo" ++ ending ++ "Imports: dplyr, foo" ++ ending ++ "License: MIT" ++ ending

/-- Where it lies. -/
def smallPath : Path := Path.anchored [("DESCRIPTION" : Text)]

/-- A project with this manifest, before a run. -/
def smallSession (ending : Text) : Session :=
  .start (.single "DESCRIPTION" (Utf8.encode (smallManifest ending))) none

/-- Its required field. -/
def smallBlock (ending : Text) : Block :=
  ⟨[⟨"Package: demo", ending⟩], ⟨"Imports: dplyr, foo", ending⟩, [], [⟨"License: MIT", ending⟩]⟩

theorem find?_smallManifest : ∀ ending ∈ smallEndings,
    Block.find? Field.required.header (smallManifest ending).lines = some (smallBlock ending) := by
  have lines : ∀ ending ∈ smallEndings, (smallManifest ending).lines =
      [⟨"Package: demo", ending⟩, ⟨"Imports: dplyr, foo", ending⟩, ⟨"License: MIT", ending⟩] := by
    decide +kernel
  intro ending listed
  rw [lines ending listed]
  rfl

theorem unifyLineEndings_smallManifest : ∀ ending ∈ smallEndings,
    (smallManifest ending).unifyLineEndings = smallManifest ['\n'] := by decide +kernel

theorem pruned_smallManifest_ne :
    pruned [("dplyr" : Text)] [] (smallManifest ['\n']) ≠ smallManifest ['\n'] := by
  decide +kernel

theorem nodeAt_smallPath (content : List UInt8) :
    (FileTree.single "DESCRIPTION" content).nodeAt smallPath = .ok (.file 0o644 content) :=
  FileTree.nodeAt_single ⟨by decide, by decide, by decide⟩ (by decide) content

theorem read_smallSession (ending : Text) :
    (smallSession ending).tree.read smallPath = .ok (Utf8.encode (smallManifest ending)) :=
  FileTree.read_of_nodeAt (nodeAt_smallPath _)

/-- The line endings of the small manifest are unified when it is read. -/
theorem textAt_smallSession {ending : Text} (listed : ending ∈ smallEndings) :
    textAt (smallSession ending).tree smallPath = .ok (some (smallManifest ['\n'])) := by
  have file := FileTree.isFile_eq_true_iff.mpr ⟨_, _, nodeAt_smallPath
    (Utf8.encode (smallManifest ending))⟩
  have stored := textAt_of_read file (read_smallSession ending) (Utf8.decode_encode _)
  rwa [unifyLineEndings_smallManifest ending listed] at stored

/-- The manifest of such a project can be replaced. -/
theorem replaceFile_smallPath (content : List UInt8) (text : Text) :
    ((FileTree.single "DESCRIPTION" content).replaceFile smallPath text.widen).1 = .ok () :=
  replaceFile_description (FileTree.node?_single_self _ _) text

/-- Pruning the small manifest, of which one package is used. -/
def smallPruning : Action (List Text) := pruneFile smallPath [("dplyr" : Text)] []

theorem tree_ne_of_smallPruning {ending : Text} (listed : ending ∈ smallEndings)
    {outcome : Except Failure (List Text)} {after : Session}
    (ended : runFrom (smallSession ending) smallPruning = (outcome, after)) :
    after.tree ≠ (smallSession ending).tree := by
  have stored := textAt_smallSession listed
  have edits := edits_pruneFile ended
  intro same
  cases outcome with
  | error failure =>
      obtain ⟨error, refused⟩ := edits.refused stored
      have replaced := replaceFile_smallPath (Utf8.encode (smallManifest ending))
        (pruned [("dplyr" : Text)] [] (smallManifest ['\n']))
      cases (congrArg Prod.fst refused).symm.trans replaced
  | ok written =>
      obtain ⟨left, -⟩ := edits.textAt_of_ok stored (fun _ => pruned_of_prunedNames_eq_nil)
        (fun _ => return_not_mem_pruned)
      rw [same, stored, Except.ok.injEq, Option.map_some, Option.some.injEq] at left
      exact pruned_smallManifest_ne left.symm

theorem smallPruning_surrounds :
    ∃ outcome after, runFrom (smallSession ['\n']) smallPruning = (outcome, after) ∧
      after.tree ≠ (smallSession ['\n']).tree ∧
      (smallBlock ['\n']).Surrounds (Utf8.encode (smallManifest ['\n'])) ∧
      ∃ edited, after.tree.read smallPath = .ok (Utf8.encode edited) ∧
        (smallBlock ['\n']).unified.Reframes Field.required.header edited ∧
        ((smallBlock ['\n']).Surrounds (Utf8.encode edited) ↔
          '\r' ∉ (smallBlock ['\n']).beforeText ∧ '\r' ∉ (smallBlock ['\n']).afterText) := by
  obtain ⟨outcome, after, ended⟩ : ∃ outcome after,
      runFrom (smallSession ['\n']) smallPruning = (outcome, after) := ⟨_, _, rfl⟩
  have changed := tree_ne_of_smallPruning (by decide) ended
  exact ⟨outcome, after, ended, changed, surrounds_iff_of_edit (.prune _ _)
    (read_smallSession _) (Utf8.decode_encode _) (find?_smallManifest _ (by decide)) ended
    changed⟩

/-- With carriage returns around it, pruning does not leave the surroundings of the field as
they were. -/
theorem smallPruning_loses_returns :
    ∃ outcome after left, runFrom (smallSession ['\r', '\n']) smallPruning = (outcome, after) ∧
      after.tree ≠ (smallSession ['\r', '\n']).tree ∧
      (smallSession ['\r', '\n']).tree.read smallPath =
        .ok (Utf8.encode (smallManifest ['\r', '\n'])) ∧
      Block.find? Field.required.header (smallManifest ['\r', '\n']).lines =
        some (smallBlock ['\r', '\n']) ∧
      after.tree.read smallPath = .ok left ∧ ¬(smallBlock ['\r', '\n']).Surrounds left := by
  obtain ⟨outcome, after, ended⟩ : ∃ outcome after,
      runFrom (smallSession ['\r', '\n']) smallPruning = (outcome, after) := ⟨_, _, rfl⟩
  have found := find?_smallManifest ['\r', '\n'] (by decide)
  have changed := tree_ne_of_smallPruning (by decide) ended
  obtain ⟨edited, left, plain, reframes⟩ := IsEdit.exists_left (.prune _ _)
    (read_smallSession _) (Utf8.decode_encode _) found ended changed
  refine ⟨outcome, after, _, ended, changed, read_smallSession _, found, left, ?_⟩
  rw [surrounds_iff found plain reframes]
  exact fun kept => absurd kept.1 (by decide)

end DependencyGate.Manifest

/-
# Manifests on disk

What is read of a manifest before and after a step that edits it. Such a step leaves the
file tree alone or replaces the manifest (`Edits`), and what is read afterwards is the
edited text (`Edits.textAt_of_ok`): writing and reading undo each other, and the path
leads to the new file. Pruning and adding are both of this kind.
-/

import DependencyGate.Manifest.Stored
import DependencyGate.Proofs.FileTree.Beside
import DependencyGate.Proofs.Manifest.Addition
import DependencyGate.Proofs.Manifest.Pruning
import DependencyGate.Proofs.Run.Action

namespace DependencyGate.Manifest

open DependencyGate.Action (runFrom)

variable {tree : FileTree} {path : Path} {place : Location} {text : Text} {session after : Session}

/-! ## Reading a manifest -/

/-- What is known of a manifest that may not exist. -/
def Declared.ofText? : Option Text → Declared
  | none => .absent
  | some text => .ofText text

theorem textAt_eq_some (found : textAt tree path = .ok (some text)) :
    tree.isFile path = .ok true ∧ '\r' ∉ text := by
  rw [textAt] at found
  split at found
  case h_1 => simp at found
  case h_2 => simp at found
  case h_3 file =>
    refine ⟨file, ?_⟩
    split at found
    case h_1 => simp at found
    case h_2 unified loaded =>
      obtain rfl : unified = text := by simpa using found
      rw [loadText] at loaded
      split at loaded
      case h_1 => simp at loaded
      case h_2 =>
        split at loaded
        case h_1 => simp at loaded
        case h_2 =>
          rw [← Except.ok.inj loaded]
          exact Text.return_not_mem_unifyLineEndings _

/-- The text of a manifest is that of its file with unified line endings. -/
theorem textAt_of_read {bytes : List UInt8} {raw : Text} (file : tree.isFile path = .ok true)
    (read : tree.read path = .ok bytes) (decoded : Utf8.decode bytes = .ok raw) :
    textAt tree path = .ok (some raw.unifyLineEndings) := by
  simp only [textAt, file, loadText, read, decoded]

/-- A manifest without carriage returns is read as it is stored. -/
theorem textAt_of_nodeAt {mode : Nat}
    (held : tree.nodeAt path = .ok (.file mode (Utf8.encode text))) (plain : '\r' ∉ text) :
    textAt tree path = .ok (some text) := by
  have file : tree.isFile path = .ok true := FileTree.isFile_eq_true_iff.mpr ⟨mode, _, held⟩
  rw [textAt_of_read file (FileTree.read_of_nodeAt held) (Utf8.decode_encode text),
    Text.unifyLineEndings_eq_self plain]

/-- A text that replaces a manifest is what is read next, its line endings unified. -/
theorem textAt_put_site (file : tree.isFile path = .ok true) (site : tree.site path = .ok place)
    (mode : Nat) (text : Text) :
    textAt (tree.put place (.file mode (Utf8.encode text))) path =
      .ok (some text.unifyLineEndings) := by
  have held := FileTree.nodeAt_put_site file site mode (Utf8.encode text)
  have fileAgain := FileTree.isFile_eq_true_iff.mpr ⟨mode, Utf8.encode text, held⟩
  exact textAt_of_read fileAgain (FileTree.read_of_nodeAt held) (Utf8.decode_encode text)

/-- A text other than the manifest's is not what the manifest's site holds. -/
theorem node?_site_ne {edited : Text} (found : textAt tree path = .ok (some text))
    (site : tree.site path = .ok place) (clear : '\r' ∉ edited) (other : edited ≠ text)
    (mode : Nat) : tree.node? place ≠ some (.file mode (Utf8.encode edited)) := by
  intro held
  obtain ⟨file, -⟩ := textAt_eq_some found
  have read := FileTree.read_of_nodeAt (FileTree.nodeAt_of_node?_site file site held)
  have again := textAt_of_read file read (Utf8.decode_encode edited)
  rw [Text.unifyLineEndings_eq_self clear] at again
  exact other (Option.some.inj (Except.ok.inj (again.symm.trans found)))

/-- A pruned manifest that replaces the manifest is what is read next. -/
theorem textAt_put_pruned (found : textAt tree path = .ok (some text))
    (site : tree.site path = .ok place) (mode : Nat) (used kept : List Text) :
    textAt (tree.put place (.file mode (Utf8.encode (pruned used kept text)))) path =
      .ok (some (pruned used kept text)) := by
  obtain ⟨file, plain⟩ := textAt_eq_some found
  rw [textAt_put_site file site, Text.unifyLineEndings_eq_self (return_not_mem_pruned plain)]

/-! ## Steps on the manifest -/

theorem runFrom_load (path : Path) (session : Session) :
    runFrom session (load path) =
      match textAt session.tree path with
      | .ok text => (.ok text, session)
      | .error failure => (.error failure, session) := by
  rw [load, Action.runFrom_bind]
  simp only [Action.runFrom_get]
  cases textAt session.tree path <;> rfl

/-- Reading a manifest changes no file. -/
theorem parse_eq_ok {declared : Declared}
    (finished : runFrom session (parse path) = (.ok declared, after)) :
    after.tree = session.tree ∧
      ∃ text, textAt session.tree path = .ok text ∧ declared = .ofText? text := by
  rw [parse, Action.runFrom_bind, runFrom_load] at finished
  cases found : textAt session.tree path with
  | error failure => simp [found] at finished
  | ok text =>
      simp only [found] at finished
      cases text with
      | none =>
          rw [Action.runFrom_bind, Action.runFrom_log] at finished
          simp only [Action.runFrom_pure, Prod.mk.injEq, Except.ok.injEq] at finished
          obtain ⟨rfl, rfl⟩ := finished
          exact ⟨rfl, none, rfl, rfl⟩
      | some text =>
          rw [Action.runFrom_bind, Action.runFrom_log] at finished
          simp only [Action.runFrom_pure, Prod.mk.injEq, Except.ok.injEq] at finished
          obtain ⟨rfl, rfl⟩ := finished
          exact ⟨rfl, some text, rfl, rfl⟩

theorem keeps_load {γ : Type} {part : Session → γ} (path : Path) :
    Action.Keeps part (load path) := by
  rw [load]
  exact .bind Action.keeps_get fun _ => Action.keeps_ofExcept _ _

theorem keeps_parse {γ : Type} {part : Session → γ} (silent : Action.Silent part) (path : Path) :
    Action.Keeps part (parse path) := by
  rw [parse]
  apply Action.Keeps.bind (keeps_load path)
  intro text
  split
  · exact .bind (Action.keeps_log silent rfl) fun _ => Action.keeps_pure _
  · exact .bind (Action.keeps_log silent rfl) fun _ => Action.keeps_pure _

theorem parse_returns {before : Option Text} (readable : textAt session.tree path = .ok before) :
    ∃ declared after, runFrom session (parse path) = (.ok declared, after) := by
  rw [parse, Action.runFrom_bind, runFrom_load, readable]
  cases before with
  | none => exact ⟨_, _, rfl⟩
  | some text => exact ⟨_, _, rfl⟩

/-! ## Steps that edit the manifest -/

/-- How a step ends that edits the manifest at a path, given the edited text and the names
that an edit concerns. If there are none, nothing is written. If there are some, the
manifest is replaced, unless that fails. -/
inductive Edits (path : Path) (edit : Text → Text) (names : Text → List Text)
    (tree : FileTree) : Except Failure (List Text) → FileTree → Prop
  | idle (nothing : ∀ text, textAt tree path = .ok (some text) → names text = []) :
      Edits path edit names tree (.ok []) tree
  | failed {failure : Failure}
      (concerns : ∀ before, textAt tree path = .ok before → failure.concernsManifest = true)
      (refused : ∀ text, textAt tree path = .ok (some text) → names text ≠ [] ∧
        ∃ error, tree.replaceFile path (edit text).widen = (.error error, tree) ∧
          failure = Action.replaceFailure path error) :
      Edits path edit names tree (.error failure) tree
  | written {text : Text} {place : Location} {mode : Nat}
      (found : textAt tree path = .ok (some text)) (present : names text ≠ [])
      (site : tree.site path = .ok place)
      (replaced : tree.replaceFile path (edit text).widen =
        (.ok (), tree.put place (.file mode (Utf8.encode (edit text))))) :
      Edits path edit names tree (.ok (names text))
        (tree.put place (.file mode (Utf8.encode (edit text))))

section Edits

variable {edit : Text → Text} {names : Text → List Text} {outcome : Except Failure (List Text)}
  {written : List Text} {failure : Failure} {before : Option Text} {left : FileTree}

theorem Edits.eq_of_error (edits : Edits path edit names tree (.error failure) left) :
    left = tree := by
  cases edits
  rfl

/-- Once the manifest can be read, an edit fails for reasons that concern the manifest. -/
theorem Edits.concernsManifest (edits : Edits path edit names tree (.error failure) left)
    (found : textAt tree path = .ok before) : failure.concernsManifest = true := by
  cases edits with
  | failed concerns => exact concerns before found

/-- An edit of a manifest that can be read fails because the manifest cannot be replaced. -/
theorem Edits.refused (edits : Edits path edit names tree (.error failure) left)
    (found : textAt tree path = .ok (some text)) :
    ∃ error, tree.replaceFile path (edit text).widen = (.error error, tree) := by
  cases edits with
  | failed _ refused =>
      obtain ⟨-, error, refused, -⟩ := refused text found
      exact ⟨error, refused⟩

/-- What is read after an edit is the edited text, if there was a manifest at all. -/
theorem Edits.textAt_of_ok (edits : Edits path edit names tree (.ok written) left)
    (found : textAt tree path = .ok before)
    (idle : ∀ text, names text = [] → edit text = text)
    (clear : ∀ text, '\r' ∉ text → '\r' ∉ edit text) :
    textAt left path = .ok (before.map edit) ∧ written = before.elim [] names := by
  generalize ended : Except.ok written = outcome at edits
  cases edits with
  | failed => cases ended
  | idle nothing =>
      obtain rfl := Except.ok.inj ended
      cases before with
      | none => exact ⟨found, rfl⟩
      | some text =>
          have none := nothing text found
          rw [Option.map_some, idle text none]
          exact ⟨found, none.symm⟩
  | written read _ site =>
      obtain rfl := Except.ok.inj ended
      obtain rfl := Except.ok.inj (found.symm.trans read)
      obtain ⟨file, absent⟩ := textAt_eq_some found
      rw [textAt_put_site file site, Text.unifyLineEndings_eq_self (clear _ absent)]
      exact ⟨rfl, rfl⟩

/-- A manifest that can be read can be read after an edit, however that ends. -/
theorem Edits.readable (edits : Edits path edit names tree outcome left)
    (found : textAt tree path = .ok before) : ∃ text, textAt left path = .ok text := by
  cases edits with
  | idle | failed => exact ⟨before, found⟩
  | written read _ site => exact ⟨_, textAt_put_site (textAt_eq_some read).1 site _ _⟩

/-- The part of an edit that writes. Nothing can fail once the file is replaced. -/
theorem edits_write {event : Log.Event} (found : textAt session.tree path = .ok (some text))
    (present : names text ≠ [])
    (ended : runFrom session (do
        Action.replaceFile path (edit text).widen
        Action.log event
        pure (names text)) = (outcome, after)) :
    Edits path edit names session.tree outcome after.tree := by
  have plain := FileTree.nul_not_mem_of_isFile (textAt_eq_some found).1
  rw [Action.runFrom_bind] at ended
  rcases Action.runFrom_replaceFile_cases path (edit text).widen session with
    ⟨error, refused, failed⟩ | ⟨place, mode, bytes, encoded, site, replaced, done⟩
  · have concerns := Action.concernsManifest_replaceFailure plain (congrArg Prod.fst refused)
    rw [failed, Prod.mk.injEq] at ended
    obtain ⟨rfl, rfl⟩ := ended
    refine .failed (fun _ _ => concerns) fun other foundAgain => ?_
    obtain rfl := Option.some.inj (Except.ok.inj (found.symm.trans foundAgain))
    exact ⟨present, error, refused, rfl⟩
  · rw [Utf8.encodeWide_widen, Except.ok.injEq] at encoded
    simp only [done, Action.runFrom_bind, Action.runFrom_log, Action.runFrom_pure,
      Prod.mk.injEq] at ended
    obtain ⟨rfl, rfl⟩ := ended
    subst encoded
    exact .written found present site replaced

theorem keeps_write {γ : Type} {part : Session → γ} (silent : Action.Silent part)
    (apart : ∀ (session : Session) (tree : FileTree),
      part { session with tree := tree } = part session)
    (path : Path) (text : Text) {event : Log.Event}
    (mute : Notice.tellsPhase (.logged event) = false) (names : List Text) :
    Action.Keeps part (do
      Action.replaceFile path text.widen
      Action.log event
      pure names) :=
  .bind (Action.keeps_replaceFile apart _ _) fun _ =>
    .bind (Action.keeps_log silent mute) fun _ => Action.keeps_pure _

end Edits

/-! ## Removing entries -/

section Pruning

variable {used kept : List Text} {outcome : Except Failure (List Text)}

/-- The part of a pruning step behind the names that are spared. -/
theorem edits_removeEntries {event : Log.Event}
    (found : textAt tree path = .ok (some text))
    (ended : runFrom session
      (if (unusedNames (declaredNames text .required) used kept).isEmpty then pure []
      else if (prunedNames used kept text).isEmpty then pure []
      else do
        Action.replaceFile path
          (removeEntries text (unusedNames (declaredNames text .required) used kept)).1.widen
        Action.log event
        pure (prunedNames used kept text)) = (outcome, after))
    (same : session.tree = tree) :
    Edits path (pruned used kept) (prunedNames used kept) tree outcome after.tree := by
  subst same
  have idle (none : prunedNames used kept text = []) :
      ∀ other, textAt session.tree path = .ok (some other) → prunedNames used kept other = [] := by
    intro other foundAgain
    rwa [← Option.some.inj (Except.ok.inj (found.symm.trans foundAgain))]
  split at ended
  case isTrue none =>
    rw [Action.runFrom_pure, Prod.mk.injEq] at ended
    obtain ⟨rfl, rfl⟩ := ended
    rw [List.isEmpty_iff] at none
    exact .idle (idle (by simp [prunedNames, none, snd_removeEntries]))
  case isFalse =>
    split at ended
    case isTrue none =>
      rw [Action.runFrom_pure, Prod.mk.injEq] at ended
      obtain ⟨rfl, rfl⟩ := ended
      exact .idle (idle (by simpa using none))
    case isFalse some =>
      rw [← pruned_eq_removeEntries] at ended
      exact edits_write found (by simpa using some) ended

theorem edits_pruneFile (ended : runFrom session (pruneFile path used kept) = (outcome, after)) :
    Edits path (pruned used kept) (prunedNames used kept) session.tree outcome after.tree := by
  rw [pruneFile, Action.runFrom_bind, runFrom_load] at ended
  cases found : textAt session.tree path with
  | error failure =>
      simp only [found, Prod.mk.injEq] at ended
      obtain ⟨rfl, rfl⟩ := ended
      exact .failed (by simp [found]) (by simp [found])
  | ok before =>
      simp only [found] at ended
      cases before with
      | none =>
          simp only [Action.runFrom_pure, Prod.mk.injEq] at ended
          obtain ⟨rfl, rfl⟩ := ended
          exact .idle (by simp [found])
      | some text =>
          simp only at ended
          -- the spared names are logged first, which no file notices
          split at ended
          case isTrue =>
            rw [Action.runFrom_bind, Action.runFrom_log] at ended
            exact edits_removeEntries found ended rfl
          case isFalse => exact edits_removeEntries found ended rfl

theorem keeps_pruneFile {γ : Type} {part : Session → γ} (silent : Action.Silent part)
    (apart : ∀ (session : Session) (tree : FileTree),
      part { session with tree := tree } = part session)
    (path : Path) (used kept : List Text) : Action.Keeps part (pruneFile path used kept) := by
  rw [pruneFile]
  apply Action.Keeps.bind (keeps_load path)
  intro text
  split
  · exact Action.keeps_pure _
  · have removal (none idle : Bool) (text : Text) {event : Log.Event}
        (mute : Notice.tellsPhase (.logged event) = false) (names : List Text) :
        Action.Keeps part (if none then pure [] else if idle then pure [] else do
          Action.replaceFile path text.widen
          Action.log event
          pure names) := by
      split
      · exact Action.keeps_pure _
      · split
        · exact Action.keeps_pure _
        · exact keeps_write silent apart path text mute names
    dsimp only
    split
    · exact .bind (Action.keeps_log silent rfl) fun _ => removal _ _ _ rfl _
    · exact removal _ _ _ rfl _

end Pruning

/-! ## Adding entries -/

section Adding

variable {names : List Text} {outcome : Except Failure (List Text)}

theorem edits_fixFile (ended : runFrom session (fixFile path names) = (outcome, after)) :
    Edits path (extended names) (addedNames names) session.tree outcome after.tree := by
  rw [fixFile, Action.runFrom_bind, runFrom_load] at ended
  cases found : textAt session.tree path with
  | error failure =>
      simp only [found, Prod.mk.injEq] at ended
      obtain ⟨rfl, rfl⟩ := ended
      exact .failed (by simp [found]) (by simp [found])
  | ok before =>
      simp only [found] at ended
      cases before with
      | none =>
          simp only [Action.runFrom_throw, Prod.mk.injEq] at ended
          obtain ⟨rfl, rfl⟩ := ended
          exact .failed (fun _ _ => rfl) (by simp [found])
      | some text =>
          simp only at ended
          split at ended
          case isTrue none =>
            rw [Action.runFrom_pure, Prod.mk.injEq] at ended
            obtain ⟨rfl, rfl⟩ := ended
            refine .idle fun other foundAgain => ?_
            rw [← Option.some.inj (Except.ok.inj (found.symm.trans foundAgain))]
            exact List.isEmpty_iff.mp none
          case isFalse some => exact edits_write found (mt List.isEmpty_iff.mpr some) ended

/-- Nothing is added to a manifest that does not exist. -/
theorem fixFile_of_absent (absent : textAt session.tree path = .ok none)
    (ended : runFrom session (fixFile path names) = (outcome, after)) :
    outcome = .error (.manifestMissing path.text) := by
  rw [fixFile, Action.runFrom_bind, runFrom_load, absent] at ended
  exact (congrArg Prod.fst ended).symm

theorem keeps_fixFile {γ : Type} {part : Session → γ} (silent : Action.Silent part)
    (apart : ∀ (session : Session) (tree : FileTree),
      part { session with tree := tree } = part session)
    (path : Path) (names : List Text) : Action.Keeps part (fixFile path names) := by
  rw [fixFile]
  apply Action.Keeps.bind (keeps_load path)
  intro text
  split
  · exact Action.keeps_throw _
  · dsimp only
    split
    · exact Action.keeps_pure _
    · exact keeps_write silent apart path _ rfl _

end Adding

/-! ## A manifest in the root -/

section Root

variable {mode : Nat} {content : List UInt8}

theorem nodeAt_description
    (held : tree.node? [("DESCRIPTION" : Text)] = some (.file mode content)) :
    tree.nodeAt (Path.anchored ["DESCRIPTION"]) = .ok (.file mode content) :=
  FileTree.nodeAt_anchored ⟨by decide, by decide, by decide⟩ (by decide) held

/-- A manifest in the root is replaced. -/
theorem replaceFile_description
    (held : tree.node? [("DESCRIPTION" : Text)] = some (.file mode content)) (text : Text) :
    (tree.replaceFile (Path.anchored ["DESCRIPTION"]) text.widen).1 = .ok () := by
  have site : tree.site (Path.anchored ["DESCRIPTION"]) = .ok [("DESCRIPTION" : Text)] := rfl
  have sited : tree.site (FileTree.temporaryPath (Path.anchored ["DESCRIPTION"])
      ("gate0000" : Text)) = .ok [(".DESCRIPTION.gate0000.tmp" : Text)] := rfl
  rw [FileTree.replaceFile_of_nodeAt site (Utf8.encodeWide_widen text) (nodeAt_description held)
    ⟨_, sited⟩]

end Root

end DependencyGate.Manifest

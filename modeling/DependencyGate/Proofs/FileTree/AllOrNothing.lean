/-
# All or nothing

A file is replaced exactly if nothing stands in the way (`Replaceable`): there is a directory for
its temporary file, the text can be encoded, the path names an entry that is no directory, and what
it leads to can be examined. Then the entry is the new file, with the permission bits of what the
path led to, and all else is as it was (`Replaced`). Otherwise the replacement fails and leaves the
very same tree.
-/

import DependencyGate.Proofs.FileTree.Temporary
import DependencyGate.Proofs.Run.Action
import DependencyGate.Proofs.Text.Wide

namespace DependencyGate

namespace FileTree

variable {tree after : FileTree} {path : Path} {text : WideText} {place : Location} {mode : Nat}
  {content : List UInt8}

/-- Whether nothing stands in the way of replacing the file at a path by one that holds a text. -/
structure Replaceable (tree : FileTree) (path : Path) (text : WideText) : Prop where
  housed : tree.HousesTemporary path
  sound : ∀ point ∈ text, point.isSurrogate = false
  site : ∃ place, tree.site path = .ok place ∧ tree.isDirectoryAt place = false
  examined : ∀ fault, tree.nodeAt path = .error fault → fault.meansAbsent = true

/-- What a replacement leaves: the entry that the path names is a file that holds the text, and all
else is as it was. The path leads to this file, unless it no longer names an entry, since a link
on its way was that very entry. -/
structure Replaced (path : Path) (written : Text) (tree after : FileTree) : Prop where
  entry : ∃ place, tree.site path = .ok place ∧ AgreeOff place tree after ∧
    after.node? place = some (.file (tree.adoptedMode path) (Utf8.encode written))
  found : path.name ≠ ['.'] → (∃ place, after.site path = .ok place) →
    after.nodeAt path = .ok (.file (tree.adoptedMode path) (Utf8.encode written))

theorem nodeAt_put_of_site_put (notHere : path.name ≠ ['.']) (site : tree.site path = .ok place)
    (again : ∃ other, (tree.put place (.file mode content)).site path = .ok other) :
    (tree.put place (.file mode content)).nodeAt path = .ok (.file mode content) := by
  obtain ⟨-, -, directory, -, -, -, notUp, -, rfl⟩ := site_eq_ok_iff.mp site
  obtain ⟨other, again⟩ := again
  obtain rfl := Except.ok.inj (site.symm.trans (site_of_site_put notHere notUp again))
  obtain ⟨plain, left, parent, leads, inside, nonempty, -, short, same⟩ := site_eq_ok_iff.mp again
  obtain ⟨rfl, -⟩ := List.append_inj' same rfl
  have held : (tree.put (directory ++ [path.name]) (.file mode content)).node?
      (directory ++ [path.name]) = some (.file mode content) := node?_put_self (by simp)
  refine nodeAt_eq_ok_iff.mpr ⟨_, resolve_eq_ok_iff.mpr ⟨plain, left, ?_⟩, held⟩
  rw [names_eq_dropLast_append_name nonempty]
  exact leads.append (.enter inside ⟨notHere, notUp, short⟩ held rfl (.stay _ _))

theorem replaced_put {written : Text} (site : tree.site path = .ok place) :
    Replaced path written tree
      (tree.put place (.file (tree.adoptedMode path) (Utf8.encode written))) where
  entry := by
    obtain ⟨-, -, directory, -, -, -, -, -, rfl⟩ := site_eq_ok_iff.mp site
    exact ⟨_, site, agreeOff_put tree _ _, node?_put_self (by simp)⟩
  found notHere := nodeAt_put_of_site_put notHere site

/-- A file is replaced if nothing stands in the way. -/
theorem replaceFile_of_replaceable {written : Text}
    (replaceable : tree.Replaceable path written.widen) (site : tree.site path = .ok place) :
    tree.replaceFile path written.widen =
      (.ok (), tree.put place (.file (tree.adoptedMode path) (Utf8.encode written))) := by
  obtain ⟨found, sited, other⟩ := replaceable.site
  obtain rfl := Except.ok.inj (sited.symm.trans site)
  exact replaceFile_of_housed site (Utf8.encodeWide_widen written) replaceable.housed
    replaceable.examined other

/-- A replacement that is done had nothing in its way. -/
theorem replaceable_of_replaceFile (done : (tree.replaceFile path text).1 = .ok ()) :
    tree.Replaceable path text := by
  rcases replaceFile_cases tree path text with
    ⟨error, failed⟩ | ⟨place, mode, bytes, encoded, site, other, -⟩
  · simp [failed] at done
  obtain ⟨temporary, created, creation⟩ : ∃ temporary created,
      tree.createTemporary path = .ok (temporary, created) := by
    cases creation : tree.createTemporary path with
    | error error => simp [replaceFile_of_createTemporary_eq_error creation] at done
    | ok made => exact ⟨made.1, made.2, rfl⟩
  refine ⟨exists_createTemporary_iff.mp ⟨_, _, creation⟩, ?_, ⟨place, site, other⟩, ?_⟩
  · intro point listed
    rcases Utf8.encodeWide_cases text with ⟨written, rfl, -⟩ | ⟨-, error, refused⟩
    · obtain ⟨c, -, rfl⟩ := List.mem_map.mp listed
      exact CodePoint.isSurrogate_ofChar c
    · simp [refused] at encoded
  · intro fault failed
    by_contra present
    rw [Bool.not_eq_true] at present
    obtain ⟨_, _, _, _, _, rfl⟩ := createTemporary_eq_ok creation
    unfold replaceFile at done
    simp [creation, fillTemporary, encoded, put_put,
      adoptMode_temporary_of_fault creation failed present] at done

end FileTree

namespace Action

open FileTree (Replaceable Replaced)

variable {session after : Session} {path : Path} {text : WideText} {outcome : Except Failure Unit}

/-- A file is replaced, or nothing happens. It is replaced exactly if nothing stands in the
way, and then the entry that the path names is a file that holds the text's bytes, with the
permission bits of what the path led to or those of a private file, and nothing else has changed.
Otherwise the replacement fails because the file cannot be written or the text not be encoded, and
the session is the same. -/
theorem replaceFile_all_or_nothing (path : Path) (text : WideText) (plain : '\x00' ∉ path.text)
    (ended : runFrom session (replaceFile path text) = (outcome, after)) :
    (session.tree.Replaceable path text ∧ outcome = .ok () ∧
        after = { session with tree := after.tree } ∧
        ∃ written : Text, text = written.widen ∧
          Replaced path written session.tree after.tree) ∨
      ¬session.tree.Replaceable path text ∧ after = session ∧
        ((∃ error, outcome = .error (.manifestUnwritable path.text error)) ∨
          (∃ error, outcome = .error (.encoding error)) ∧
            ∃ point ∈ text, point.isSurrogate = true) := by
  by_cases replaceable : session.tree.Replaceable path text
  case pos =>
    obtain ⟨place, site, -⟩ := replaceable.site
    rcases Utf8.encodeWide_cases text with ⟨written, rfl, -⟩ | ⟨⟨point, listed, surrogate⟩, -⟩
    · have done := FileTree.replaceFile_of_replaceable replaceable site
      rw [runFrom_replaceFile, done] at ended
      obtain ⟨rfl, rfl⟩ := Prod.mk.inj ended
      exact .inl ⟨replaceable, rfl, rfl, written, rfl, FileTree.replaced_put site⟩
    · simp [replaceable.sound point listed] at surrogate
  case neg =>
    rcases runFrom_replaceFile_cases path text session with
      ⟨error, failed, same⟩ | ⟨_, _, _, -, -, done, -⟩
    · rw [same] at ended
      obtain ⟨rfl, rfl⟩ := Prod.mk.inj ended
      refine .inr ⟨replaceable, rfl, ?_⟩
      have refused := congrArg Prod.fst failed
      cases error with
      | path error =>
          left
          exact ⟨error, by
            rw [replaceFailure, if_neg (FileTree.fault_ne_holdsNul_of_replaceFile plain refused)]⟩
      | encoding error =>
          right
          refine ⟨⟨error, rfl⟩, ?_⟩
          rcases Utf8.encodeWide_cases text with ⟨written, -, encoded⟩ | ⟨broken, -⟩
          · simp [FileTree.encodeWide_of_replaceFile refused] at encoded
          · exact broken
    · exact absurd (FileTree.replaceable_of_replaceFile (congrArg Prod.fst done)) replaceable

/-- A tree in which one name is a link to a file that others may not read. -/
def linkedNotes : FileTree :=
  ⟨[(["notes"], .link "hidden"), (["hidden"], .file 0o640 (Utf8.encode "old"))]⟩

theorem replaceable_linkedNotes :
    linkedNotes.Replaceable (Path.anchored ["notes"]) (Text.widen "new") where
  housed := ⟨[(".notes.gate0000.tmp" : Text)], rfl⟩
  sound := by decide
  site := ⟨[("notes" : Text)], rfl, rfl⟩
  examined := by
    have found : linkedNotes.nodeAt (Path.anchored ["notes"]) =
        .ok (.file 0o640 (Utf8.encode "old")) := rfl
    intro fault failed
    cases found.symm.trans failed

/-- The link is replaced by a file with the permission bits of the one that it led to. -/
theorem replaceFile_linkedNotes :
    '\x00' ∉ (Path.anchored ["notes"]).text ∧
      ∃ after, runFrom (Session.start linkedNotes none)
          (replaceFile (Path.anchored ["notes"]) (Text.widen "new")) = (.ok (), after) ∧
        Replaced (Path.anchored ["notes"]) "new" linkedNotes after.tree ∧
        linkedNotes.adoptedMode (Path.anchored ["notes"]) = 0o640 := by
  have plain : '\x00' ∉ (Path.anchored ["notes"]).text := by decide
  have bits : linkedNotes.adoptedMode (Path.anchored ["notes"]) = 0o640 := rfl
  rcases ended : runFrom (Session.start linkedNotes none)
    (replaceFile (Path.anchored ["notes"]) (Text.widen "new")) with ⟨outcome, after⟩
  rcases replaceFile_all_or_nothing (Path.anchored ["notes"]) (Text.widen "new") plain ended with
    ⟨-, rfl, -, written, same, replaced⟩ | ⟨refused, -⟩
  · obtain rfl := Text.widen_injective same
    exact ⟨plain, after, rfl, replaced, bits⟩
  · exact absurd replaceable_linkedNotes refused

end Action
end DependencyGate

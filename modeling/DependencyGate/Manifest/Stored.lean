/-
# Manifests on disk

Steps that read a manifest and edit it in place. The file is replaced only if the
edit changes which packages it lists.
-/

import DependencyGate.Manifest.Edit
import DependencyGate.Run.Session

namespace DependencyGate.Manifest

/-- The text of the manifest at a path that leads to a file. -/
def loadText (tree : FileTree) (path : Path) : Except ReadFault Text :=
  match tree.read path with
  | .error error => .error (.path error)
  | .ok bytes =>
      match Utf8.decode bytes with
      | .error error => .error (.encoding error)
      | .ok text => .ok text.unifyLineEndings

/-- The text of the manifest at a path, if the path leads to a file. -/
def textAt (tree : FileTree) (path : Path) : Except Failure (Option Text) :=
  match tree.isFile path with
  | .error error => .error (.path error)
  | .ok false => .ok none
  | .ok true =>
      match loadText tree path with
      | .error fault => .error (.manifestUnreadable path.text fault)
      | .ok text => .ok (some text)

/-- Reads the manifest at a path, if the path leads to a file. -/
def load (path : Path) : Action (Option Text) := do
  Action.ofExcept id (textAt (← get).tree path)

/-- What the manifest at a path declares. -/
def parse (path : Path) : Action Declared := do
  match ← load path with
  | none =>
      Action.log ⟨.warning, .manifest, "manifest.not_found", [("path", .text path.text)]⟩
      return .absent
  | some text =>
      let declared := Declared.ofText text
      Action.log ⟨.debug, .manifest, "manifest.parsed",
        [("path", .text path.text), ("package", .optional declared.package),
          ("required", .number declared.required.length),
          ("optional", .number declared.optional.length)]⟩
      return declared

/-- Removes the entries of a manifest that are neither used nor protected. Returns
the removed names. -/
def pruneFile (path : Path) (used kept : List Text) : Action (List Text) := do
  match ← load path with
  | none => return []
  | some text =>
      let declared := declaredNames text .required
      let unused := unusedNames declared used kept
      let spared := canonical ((without declared used).filter (· ∈ kept))
      if !spared.isEmpty then
        Action.log ⟨.debug, .manifest, "pruner.protected_kept", [("packages", .names spared)]⟩
      if unused.isEmpty then return []
      else
        let (edited, removed) := removeEntries text unused
        if removed.isEmpty then return []
        else
          Action.replaceFile path edited.widen
          Action.log ⟨.info, .manifest, "pruner.pruned",
            [("path", .text path.text), ("removed", .names removed)]⟩
          return removed

/-- Adds the names that the manifest does not require yet. Returns the added
names. -/
def fixFile (path : Path) (names : List Text) : Action (List Text) := do
  match ← load path with
  | none => throw (.manifestMissing path.text)
  | some text =>
      let declared := declaredNames text .required
      let added := without (canonical names) declared
      if added.isEmpty then return []
      else
        Action.replaceFile path (Text.widen (addEntries text .required added))
        Action.log ⟨.info, .manifest, "writer.entries_added",
          [("path", .text path.text), ("added", .names added)]⟩
        return added

end DependencyGate.Manifest

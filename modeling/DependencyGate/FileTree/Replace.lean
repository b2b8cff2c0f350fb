/-
# Replacing a file

A file is replaced in steps: a temporary file is created next to it and filled, it
takes over the permission bits of what the path led to, and a renaming puts it in
place. When a step fails the temporary file is discarded. The tree is passed from
step to step, so what a failure leaves behind is part of the result.
-/

import DependencyGate.FileTree.Resolve

namespace DependencyGate

/-- Why a file could not be replaced. -/
inductive ReplaceError
  | path (error : PathError)
  | encoding (error : Utf8.EncodeError)
deriving DecidableEq

namespace FileTree

/-- A temporary file: its path and where that lies. -/
structure Temporary where
  path : Path
  location : Location

/-- What distinguishes the names of temporary files. There is always another tag. -/
def temporaryTag (n : Nat) : Text :=
  let digits := Text.ofNat n
  "gate" ++ List.replicate (4 - digits.length) '0' ++ digits

/-- The name of a temporary file for `path`. -/
def temporaryName (path : Path) (tag : Text) : Text :=
  ['.'] ++ path.name ++ ['.'] ++ tag ++ ".tmp"

/-- The path of a temporary file for `path`. It lies where the parent of `path`
leads once parent steps have been removed from its written form. -/
def temporaryPath (path : Path) (tag : Text) : Path :=
  path.parent.withoutParentSteps.child (temporaryName path tag)

/-- The permission bits of a new temporary file. -/
def privateMode : Nat := 0o600

/-- The first tag that gives a temporary file for `path` a free place in a directory.
One more tag than the tree has entries is enough to find it. -/
def freeTag (tree : FileTree) (path : Path) (directory : Location) : Text :=
  let tags := (List.range (tree.entries.length + 1)).map temporaryTag
  let isFree := fun tag => (tree.node? (directory ++ [temporaryName path tag])).isNone
  (tags.find? isFree).getD (temporaryTag 0)

/-- Creates an empty temporary file for `path` under a name that is free. All names
count as equally long, so that the first tag tells whether there is a place for the
file at all. -/
def createTemporary (tree : FileTree) (path : Path) :
    Except PathError (Temporary × FileTree) :=
  let first := temporaryPath path (temporaryTag 0)
  match tree.site first with
  | .error fault => .error ⟨fault, first.text, none⟩
  | .ok place =>
      let directory := place.dropLast
      let tag := tree.freeTag path directory
      let location := directory ++ [temporaryName path tag]
      .ok (⟨temporaryPath path tag, location⟩, tree.put location (.file privateMode []))

/-- Writes a text into a temporary file. -/
def fillTemporary (tree : FileTree) (temporary : Temporary) (text : WideText) :
    Except Utf8.EncodeError FileTree :=
  match Utf8.encodeWide text with
  | .error error => .error error
  | .ok bytes => .ok (tree.put temporary.location (.file privateMode bytes))

/-- Gives the regular file at a location the given permission bits. -/
def setMode (tree : FileTree) (location : Location) (mode : Nat) : FileTree :=
  match tree.node? location with
  | some (.file _ content) => tree.put location (.file mode content)
  | _ => tree

/-- Gives a temporary file the permission bits of what `path` leads to, if it leads
anywhere. -/
def adoptMode (tree : FileTree) (temporary : Temporary) (path : Path) :
    Except PathError FileTree :=
  match tree.pathExists path with
  | .error error => .error error
  | .ok false => .ok tree
  | .ok true =>
      match tree.nodeAt path with
      | .error fault => .error ⟨fault, path.text, none⟩
      | .ok node => .ok (tree.setMode temporary.location (node.mode % 0o1000))

/-- Moves a temporary file to `path`, replacing a file or a link there. -/
def renameTemporary (tree : FileTree) (temporary : Temporary) (path : Path) :
    Except PathError FileTree :=
  let failure := fun fault => .error ⟨fault, temporary.path.text, some path.text⟩
  match tree.site path with
  | .error fault => failure fault
  | .ok location =>
      if tree.isDirectoryAt location then failure .isDirectory
      else
        match tree.node? temporary.location with
        | none => failure .missing
        | some node => .ok ((tree.erase temporary.location).put location node)

/-- Replaces the file at `path` by one that holds `text`. Returns how it went and
the tree it leaves. -/
def replaceFile (tree : FileTree) (path : Path) (text : WideText) :
    Except ReplaceError Unit × FileTree :=
  match tree.createTemporary path with
  | .error error => (.error (.path error), tree)
  | .ok (temporary, created) =>
      match created.fillTemporary temporary text with
      | .error error => (.error (.encoding error), created.erase temporary.location)
      | .ok filled =>
          match filled.adoptMode temporary path with
          | .error error => (.error (.path error), filled.erase temporary.location)
          | .ok adopted =>
              match adopted.renameTemporary temporary path with
              | .error error => (.error (.path error), adopted.erase temporary.location)
              | .ok renamed => (.ok (), renamed)

end FileTree
end DependencyGate

/-
# Following paths

A path is followed name by name from the root. A symbolic link is replaced by its
target, and at most forty links are followed. The rules that tell one failure from
another are those of a case-sensitive system with names of at most 255 bytes and
written paths of less than 4096.
-/

import DependencyGate.FileTree.Basic
import DependencyGate.Utf8

namespace DependencyGate

/-- Why an operation on a path fails. -/
inductive PathFault
  | missing
  | busy
  | notDirectory
  | isDirectory
  | nameTooLong
  | tooManyLinks
  | holdsNul
deriving DecidableEq

/-- A failed operation: the fault, the path it was applied to, and the second path
of a renaming. -/
structure PathError where
  fault : PathFault
  path : Text
  target : Option Text
deriving DecidableEq

/-- The number and the words of a fault. A null character is refused before any
operation takes place and has no number. -/
def PathFault.description : PathFault → Option Nat × Text
  | .missing => (some 2, "No such file or directory")
  | .busy => (some 16, "Device or resource busy")
  | .notDirectory => (some 20, "Not a directory")
  | .isDirectory => (some 21, "Is a directory")
  | .nameTooLong => (some 36, "File name too long")
  | .tooManyLinks => (some 40, "Too many levels of symbolic links")
  | .holdsNul => (none, "embedded null byte")

/-- The message of a failed operation. -/
def PathError.message (error : PathError) : Text :=
  match error.fault.description with
  | (none, words) => words
  | (some number, words) =>
      "[Errno " ++ Text.ofNat number ++ "] " ++ words ++ ": " ++ Text.quoted error.path
        ++ match error.target with
          | none => []
          | some target => " -> " ++ Text.quoted target

/-- Whether a fault merely means that nothing usable is there. -/
def PathFault.meansAbsent : PathFault → Bool
  | .missing | .notDirectory | .tooManyLinks | .holdsNul => true
  | _ => false

namespace FileTree

/-- The largest number of symbolic links that one path may lead through. -/
def linkLimit : Nat := 40

/-- The largest number of bytes in a name. -/
def nameLimit : Nat := 255

/-- The names that a link target leads through. A slash at the end asks for a
directory, as a final dot does. -/
def targetNames (target : Text) : List Text :=
  let pieces := Text.splitAtChar '/' target
  pieces.filter (· != []) ++ if pieces.getLast? = some [] then [['.']] else []

/-- Where a written path starts from: the root if a slash comes first, else a location. -/
def linkStart (location : Location) (written : Text) : Location :=
  if written.head? = some '/' then [] else location

/-- Follows names from a location up to the first link. From there `jump` goes on, with
the names of the link's target before those that are left. -/
def followNames (tree : FileTree) (jump : Location → List Text → Except PathFault Location)
    (location : Location) : List Text → Except PathFault Location
  | [] => .ok location
  | name :: rest =>
      if !tree.isDirectoryAt location then .error .notDirectory
      else if name = ['.'] then tree.followNames jump location rest
      else if name = ['.', '.'] then tree.followNames jump location.dropLast rest
      else if nameLimit < (Utf8.encode name).length then .error .nameTooLong
      else
        match tree.node? (location ++ [name]) with
        | none => .error .missing
        | some (.link target) => jump (linkStart location target) (targetNames target ++ rest)
        | some _ => tree.followNames jump (location ++ [name]) rest

/-- Follows names from a location over no more than so many links. -/
def follow (tree : FileTree) : Nat → Location → List Text → Except PathFault Location
  | 0 => tree.followNames fun _ _ => .error .tooManyLinks
  | links + 1 => tree.followNames (tree.follow links)

/-- What is wrong with a written path before it is followed. -/
def writtenFault? (written : Text) : Option PathFault :=
  if written.elem '\x00' then some .holdsNul
  else if 4096 ≤ (Utf8.encode written).length then some .nameTooLong
  else none

/-- Where an anchored path leads, every link followed. -/
def resolve (tree : FileTree) (path : Path) : Except PathFault Location :=
  match writtenFault? path.text with
  | some fault => .error fault
  | none => tree.follow linkLimit [] path.names

/-- The location that an anchored path gives to a file, whether or not something is
there already. Links on the way are followed, one under the last name is not. -/
def site (tree : FileTree) (path : Path) : Except PathFault Location :=
  match writtenFault? path.text with
  | some fault => .error fault
  | none =>
      match tree.follow linkLimit [] path.names.dropLast with
      | .error fault => .error fault
      | .ok directory =>
          if !tree.isDirectoryAt directory then .error .notDirectory
          else if path.name = [] || path.name = ['.', '.'] then .error .busy
          else if nameLimit < (Utf8.encode path.name).length then .error .nameTooLong
          else .ok (directory ++ [path.name])

/-- Where a written path leads that is relative to a location unless it starts with
a slash. -/
def resolveWritten (tree : FileTree) (start : Location) (written : Text) :
    Except PathFault Location :=
  match writtenFault? written with
  | some fault => .error fault
  | none =>
      if written.isEmpty then .error .missing
      else
        tree.follow linkLimit (linkStart start written) (targetNames written)

/-- What an anchored path leads to. -/
def nodeAt (tree : FileTree) (path : Path) : Except PathFault Node :=
  match tree.resolve path with
  | .error fault => .error fault
  | .ok location =>
      match tree.node? location with
      | none => .error .missing
      | some node => .ok node

/-- Whether a path leads to a node with the given property. Paths that lead
nowhere have none; other failures are reported. -/
def test (tree : FileTree) (path : Path) (property : Node → Bool) : Except PathError Bool :=
  match tree.nodeAt path with
  | .ok node => .ok (property node)
  | .error fault =>
      if fault.meansAbsent then .ok false else .error ⟨fault, path.text, none⟩

/-- Whether a path leads to a regular file. -/
def isFile (tree : FileTree) (path : Path) : Except PathError Bool :=
  tree.test path fun
    | .file _ _ => true
    | _ => false

/-- Whether a path leads to a directory. -/
def isDirectory (tree : FileTree) (path : Path) : Except PathError Bool :=
  tree.test path Node.isDirectory

/-- Whether a path leads to anything. -/
def pathExists (tree : FileTree) (path : Path) : Except PathError Bool :=
  tree.test path fun _ => true

/-- The bytes of the file that a path leads to. -/
def read (tree : FileTree) (path : Path) : Except PathError (List UInt8) :=
  match tree.nodeAt path with
  | .ok (.file _ content) => .ok content
  | .ok _ => .error ⟨.isDirectory, path.text, none⟩
  | .error fault => .error ⟨fault, path.text, none⟩

end FileTree
end DependencyGate

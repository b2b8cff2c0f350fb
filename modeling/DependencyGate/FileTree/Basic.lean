/-
# File trees

The files of a machine as a value: each location, a list of names from the root,
holds a regular file, a symbolic link or a directory. The root itself is always a
directory.

A tree says nothing of faults of the device, of denied access or of attributes such
as immutability: permission bits are kept, but they forbid nothing. So an operation
can only fail by the shape of the tree or of the path; once a temporary file has been
created, a replacement can fail by that or for want of an encoding, but not for lack
of space or permission.
-/

import DependencyGate.Canonical
import DependencyGate.Path

namespace DependencyGate

/-- The names that lead from the root to a place in the tree. -/
abbrev Location := List Text

/-- What a location holds. -/
inductive Node
  | file (mode : Nat) (content : List UInt8)
  | link (target : Text)
  | directory (mode : Nat)
deriving DecidableEq

/-- Whether a node is a directory. -/
def Node.isDirectory : Node → Bool
  | .directory _ => true
  | _ => false

/-- Whether a node is a symbolic link. -/
def Node.isLink : Node → Bool
  | .link _ => true
  | _ => false

/-- The permission bits of a node; links grant everything. -/
def Node.mode : Node → Nat
  | .file mode _ => mode
  | .link _ => 0o777
  | .directory mode => mode

/-- What every location but the root holds. An earlier entry hides a later one for
the same location. -/
structure FileTree where
  entries : List (Location × Node)
deriving DecidableEq

namespace FileTree

/-- What a location holds. -/
def node? (tree : FileTree) (location : Location) : Option Node :=
  if location = [] then some (.directory 0o755) else tree.entries.lookup location

/-- Whether a location is a directory. -/
def isDirectoryAt (tree : FileTree) (location : Location) : Bool :=
  (tree.node? location).any Node.isDirectory

/-- Empties a location. -/
def erase (tree : FileTree) (location : Location) : FileTree :=
  ⟨tree.entries.filter (·.1 ≠ location)⟩

/-- Fills a location, replacing what it held. -/
def put (tree : FileTree) (location : Location) (node : Node) : FileTree :=
  ⟨(location, node) :: (tree.erase location).entries⟩

/-- The name of a location within a directory, if it lies directly in it. -/
def nameWithin? (directory location : Location) : Option Text :=
  if location.dropLast = directory then location.getLast? else none

/-- The names within a directory, in ascending order. -/
def namesIn (tree : FileTree) (directory : Location) : List Text :=
  canonical (tree.entries.filterMap fun entry => nameWithin? directory entry.1)

end FileTree
end DependencyGate

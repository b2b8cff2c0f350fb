/-
# Finding source files

The scan roots of a project are searched for source files. A directory gives its
own files first and then those of its subdirectories, both in ascending order.
Linked directories are listed but not entered, and some directories, which hold
installed packages or the state of tools, are passed over; a root is searched
whatever its name and even if it is a link.

Each step of a search works on a written path. A link counts as a directory if
its path can be followed from the beginning, links before it included, and a
subdirectory is entered if its path is not too long to be followed at all.

Directories that lie within one another are searched by calls within calls, and
these may only nest so deep: where there is no room for another one, the search ends
with what it has found. Room is asked for before it is known whether a subdirectory
is entered, so that a linked one takes its share.
-/

import DependencyGate.FileTree.Resolve
import DependencyGate.Source.Kind

namespace DependencyGate

namespace FileTree

/-- Whether a path leads to a directory. A path that cannot be followed leads to
none. -/
def leadsToDirectory (tree : FileTree) (path : Path) : Bool :=
  match tree.nodeAt path with
  | .ok node => node.isDirectory
  | .error _ => false

/-- Whether a name within the directory that `path` leads to is listed among its
subdirectories: a directory, or a link that can be followed to one. -/
def listsDirectory (tree : FileTree) (path : Path) (directory : Location) (name : Text) :
    Bool :=
  match tree.node? (directory ++ [name]) with
  | some (.link _) => tree.leadsToDirectory (path.child name)
  | some node => node.isDirectory
  | none => false

/-- The names within the directory that `path` leads to that are listed as files. -/
def fileNames (tree : FileTree) (path : Path) (directory : Location) : List Text :=
  (tree.namesIn directory).filter (!tree.listsDirectory path directory ·)

end FileTree

namespace Source

/-- The directories that no search enters from above. -/
def skippedDirectories : List Text := [".git", ".Rproj.user", "renv", "packrat"]

/-- The names of the subdirectories that a search goes on to from the directory that
`path` leads to. -/
def subdirectoryNames (tree : FileTree) (path : Path) (directory : Location) : List Text :=
  (tree.namesIn directory).filter fun name =>
    tree.listsDirectory path directory name && name ∉ skippedDirectories

/-- What ends a search early: a root that cannot be examined, or directories that
lie within too many others. -/
inductive SearchFault
  | unexaminable (error : PathError)
  | tooDeep
deriving DecidableEq

/-- The files that a search found, in order, and what ended it early. -/
structure Search where
  files : List Path
  fault : Option SearchFault

namespace Search

/-- Goes on with another search if this one has not ended early. -/
def followedBy (first second : Search) : Search :=
  match first.fault with
  | some _ => first
  | none => ⟨first.files ++ second.files, second.fault⟩

/-- One search after another, up to the first that ends early. -/
def inTurn (searches : List Search) : Search := searches.foldr followedBy ⟨[], none⟩

end Search

/-- The search of what `path` leads to, with room for so many directories within one
another. What is itself no directory has no files, nor has what is too far to be listed. -/
def filesBelow (tree : FileTree) : Nat → Path → Location → Search
  | 0, _, _ => ⟨[], some .tooDeep⟩
  | room + 1, path, place =>
      if tree.isDirectoryAt place && (FileTree.writtenFault? path.text).isNone then
        Search.followedBy ⟨(tree.fileNames path place).map path.child, none⟩ <|
          Search.inTurn <| (subdirectoryNames tree path place).map fun name =>
            filesBelow tree room (path.child name) (place ++ [name])
      else ⟨[], none⟩

/-- The search of a scan root. A root that is no directory has no files. -/
def filesUnder (tree : FileTree) (room : Nat) (root : Path) : Search :=
  match tree.isDirectory root with
  | .error error => ⟨[], some (.unexaminable error)⟩
  | .ok false => ⟨[], none⟩
  | .ok true =>
      match tree.resolve root with
      | .error _ => ⟨[], none⟩
      | .ok directory => filesBelow tree room root directory

/-- The search of the scan roots of a project, one after another. -/
def filesUnderRoots (tree : FileTree) (room : Nat) (project : Path) (roots : List Text) :
    Search :=
  Search.inTurn (roots.map fun root => filesUnder tree room (project.join root))

/-- The source files that a search found, and what ended it early. -/
structure Discovery where
  found : List (Path × Kind)
  failure : Option SearchFault

/-- Searches the scan roots of a project for source files of some kinds. A path
that several roots lead to is found once. -/
def discover (tree : FileTree) (room : Nat) (project : Path) (roots : List Text)
    (kinds : List Kind) : Discovery :=
  let search := filesUnderRoots tree room project roots
  let recognised := search.files.filterMap fun path =>
    match Kind.ofPath? path with
    | some kind => if kind ∈ kinds then some (path, kind) else none
    | none => none
  ⟨recognised.eraseDups, search.fault⟩

end Source
end DependencyGate

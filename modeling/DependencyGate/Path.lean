/-
# Paths

A path is an anchor and a list of names. Empty names and single dots are dropped
when a path is read, so `./a//b/` and `a/b` are one path; parent steps stay.
-/

import DependencyGate.Text.Basic

namespace DependencyGate

/-- A path: what it starts from and the names that follow. -/
structure Path where
  anchor : Text
  names : List Text
deriving DecidableEq

namespace Path

/-- The anchor of a written path: nothing for a relative one. Exactly two leading
slashes are kept apart from any other number of them. -/
def anchorOf : Text → Text
  | '/' :: '/' :: '/' :: _ => ['/']
  | '/' :: '/' :: _ => ['/', '/']
  | '/' :: _ => ['/']
  | _ => []

/-- Whether a name leads somewhere; the empty name and the single dot do not. -/
def isStep (name : Text) : Bool := name != [] && name != ['.']

/-- Reads a path. -/
def ofText (text : Text) : Path :=
  ⟨anchorOf text, (Text.splitAtChar '/' text).filter isStep⟩

/-- The anchored path of the given names. -/
def anchored (names : List Text) : Path := ⟨['/'], names⟩

/-- The written form of a path. -/
def text (path : Path) : Text :=
  match path.anchor ++ List.intercalate ['/'] path.names with
  | [] => ['.']
  | written => written

/-- The path that `written` names as seen from `path`; an anchored one replaces it. -/
def join (path : Path) (written : Text) : Path :=
  let second := ofText written
  if second.anchor.isEmpty then ⟨path.anchor, path.names ++ second.names⟩ else second

/-- The path extended by one name. -/
def child (path : Path) (name : Text) : Path := ⟨path.anchor, path.names ++ [name]⟩

/-- The last name, or nothing for a bare anchor. -/
def name (path : Path) : Text := path.names.getLast?.getD []

/-- The path without its last name. -/
def parent (path : Path) : Path := ⟨path.anchor, path.names.dropLast⟩

/-- The last name from its last dot on, unless the dot begins or ends it. -/
def suffix (path : Path) : Text :=
  let name := path.name
  let ending := (name.reverse.takeWhile (· != '.')).reverse
  if ending.isEmpty || name.length ≤ ending.length + 1 then []
  else '.' :: ending

/-- Removes each parent step together with the name before it. A parent step at
the anchor leads back to it. -/
def withoutParentSteps (path : Path) : Path :=
  ⟨path.anchor,
    path.names.foldl (fun kept name => if name = ['.', '.'] then kept.dropLast else kept ++ [name])
      []⟩

end Path
end DependencyGate

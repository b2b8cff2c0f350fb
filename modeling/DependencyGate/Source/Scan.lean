/-
# Scanning a project

Every source file that a search finds is read once, ill-formed bytes replaced, and
its references are collected in the order of the search. A file that cannot be
read is reported and left out.
-/

import DependencyGate.Log.Event
import DependencyGate.Source.Discovery
import DependencyGate.Source.Token

namespace DependencyGate.Source

/-- A source file and its text. -/
structure File where
  path : Path
  kind : Kind
  text : Text

/-- Reads a source file. -/
def readFile (tree : FileTree) (found : Path × Kind) : Except PathError File :=
  match tree.read found.1 with
  | .error error => .error error
  | .ok bytes => .ok ⟨found.1, found.2, (Utf8.decodeLossy bytes).unifyLineEndings⟩

/-- The event for a file that cannot be read. -/
def unreadableEvent (path : Path) (error : PathError) : Log.Event :=
  ⟨.warning, .scanner, "scanner.file_unreadable",
    [("path", .text path.text), ("error", .text error.message)]⟩

/-- The files that a search found and that can be read. -/
def readableFiles (tree : FileTree) (found : List (Path × Kind)) : List File :=
  found.filterMap fun file => (readFile tree file).toOption

/-- The events for the files that a search found and that cannot be read. -/
def readingEvents (tree : FileTree) (found : List (Path × Kind)) : List Log.Event :=
  found.filterMap fun file =>
    match readFile tree file with
    | .ok _ => none
    | .error error => some (unreadableEvent file.1 error)

/-- A reference and the file that holds it. -/
structure Reference where
  path : Path
  token : Token

/-- The references in a file. -/
def File.references (file : File) : List Reference := (tokens file.text).map (⟨file.path, ·⟩)

/-- The number of files of each kind that occurs, in ascending order of the kinds'
names. -/
def countKinds (files : List File) : List (Text × Nat) :=
  [Kind.quarto, .script, .markdown, .sweave].filterMap fun kind =>
    match files.countP (·.kind = kind) with
    | 0 => none
    | count => some (kind.name, count)

/-- What a scan yields: the references, the events to log, and what ended it
early. -/
structure Scan where
  references : List Reference
  events : List Log.Event
  failure : Option SearchFault

/-- The events that end a complete scan. -/
def completionEvents (roots : List Text) (files : List File) (references : Nat) :
    List Log.Event :=
  let none : List Log.Event :=
    if files.isEmpty then [⟨.warning, .scanner, "scanner.no_files", [("dirs", .names roots)]⟩]
    else []
  none ++
    [⟨.info, .scanner, "scanner.scan_complete",
      [("files", .number files.length), ("by_kind", .counts (countKinds files)),
        ("tokens", .number references)]⟩]

/-- Scans the roots of a project for references in files of some kinds. -/
def scan (tree : FileTree) (room : Nat) (project : Path) (roots : List Text)
    (kinds : List Kind) : Scan :=
  let discovery := discover tree room project roots kinds
  let files := readableFiles tree discovery.found
  let references := files.flatMap File.references
  let events := readingEvents tree discovery.found
  match discovery.failure with
  | some failure => ⟨references, events, some failure⟩
  | none => ⟨references, events ++ completionEvents roots files references.length, none⟩

end DependencyGate.Source

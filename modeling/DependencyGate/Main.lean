/-
# The program

The thin layer between the command and the machine. It takes a picture of the
project as a file tree, lets the command work on that, and writes the files that
the command changed. It starts no other program, so the query tool counts as not
installed.

A picture holds the contents of the files that a check may look at. Links are
recorded by where they lead in the end.
-/

import DependencyGate.CommandLine.Program
import Std.Time.Format

namespace DependencyGate.Main

open CommandLine

/-- The time as it is written in the log. -/
def timestamp : IO Text := do
  let now := Std.Time.DateTime.ofTimestampWithZone (← Std.Time.Timestamp.now) .UTC
  return (now.format "uuuu-MM-dd'T'HH:mm:ss.SSSSSS'Z'").toList

/-- The location of an anchored path. -/
def locationOf (written : String) : Location := (Path.ofText written.toList).names

/-- The written form of a location. -/
def writtenForm (location : Location) : String := String.ofList (Path.anchored location).text

/-- Whether a check may look into a file. -/
def isRelevant (name : Text) : Bool :=
  (Source.Kind.ofPath? (Path.ofText name)).isSome
    || name = Settings.standard.manifestName || name = Settings.standard.lockfileName

/-- The file at a location, with its contents if a check may look at them. -/
def pictureOfFile (location : Location) (relevant : Bool) : IO Node := do
  let content ← if relevant then IO.FS.readBinFile (writtenForm location) else pure .empty
  return .file 0o644 content.toList

/-- Adds what lies in a directory to a list of entries. -/
partial def picture (seen : List (Location × Node)) (directory : Location) :
    IO (List (Location × Node)) := do
  let mut entries := (directory, Node.directory 0o755) :: seen
  for found in ← (← IO.FS.realPath (writtenForm directory)).readDir do
    let name := found.fileName.toList
    let location := directory ++ [name]
    match (← found.path.symlinkMetadata).type with
    | .dir =>
        if name ∈ Source.skippedDirectories then
          entries := (location, .directory 0o755) :: entries
        else entries ← picture entries location
    | .file => entries := (location, ← pictureOfFile location (isRelevant name)) :: entries
    | .symlink =>
        match ← (IO.FS.realPath found.path).toBaseIO with
        | .error _ => entries := (location, .link (name ++ ".missing")) :: entries
        | .ok target =>
            let place := locationOf target.toString
            entries := (location, .link target.toString.toList) :: entries
            if (entries.lookup place).isNone then
              match (← target.metadata).type with
              | .dir => entries ← picture entries place
              | .file => entries := (place, ← pictureOfFile place (isRelevant name)) :: entries
              | _ => pure ()
    | .other => pure ()
  return entries

/-- The directories that lead to a location. -/
def ancestors (location : Location) : List (Location × Node) :=
  (List.range location.length).map fun count =>
    (location.take (count + 1), .directory 0o755)

/-- The picture of the directory or file that a path names, if there is one. -/
def pictureOf (written : String) : IO (List (Location × Node)) := do
  match ← (IO.FS.realPath written).toBaseIO with
  | .error _ => return []
  | .ok place =>
      let location := locationOf place.toString
      match (← place.metadata).type with
      | .dir => return (← picture [] location) ++ ancestors location
      | _ => return (location, ← pictureOfFile location false) :: ancestors location.dropLast

/-- The environment variables that the gate looks at. -/
def readEnvironment : IO Environment := do
  let variableText (name : String) : IO (Option Text) := do
    return (← IO.getEnv name).map String.toList
  return {
    protectedPackages := ← variableText "RDEPCHECK_PROTECTED"
    lockfileReader := ← variableText "RDEPCHECK_LOCKFILE_READER"
    logLevel := ← variableText "RDEPCHECK_LOG_LEVEL"
    logFormat := ← variableText "RDEPCHECK_LOG_FORMAT" }

/-- Writes the files in which a tree differs from an earlier one. -/
def writeChanges (before after : FileTree) : IO Unit := do
  for (location, node) in after.entries do
    match node with
    | .file _ content =>
        if before.node? location ≠ some node then
          if (before.node? location).any Node.isLink then
            IO.FS.removeFile (writtenForm location)
          IO.FS.writeBinFile (writtenForm location) ⟨content.toArray⟩
    | _ => pure ()

/-- Runs the command on the machine. -/
def run (arguments : List String) : IO UInt32 := do
  let directory := locationOf (← IO.currentDir).toString
  let arguments := arguments.map String.toList
  let project := match readArguments arguments with
    | .ok read => (read.value? .projectDirectory).getD ['.']
    | .error _ => ['.']
  let entries ← pictureOf (String.ofList project)
  let tree : FileTree := ⟨entries ++ ancestors directory⟩
  let outcome := CommandLine.run ⟨directory, ← readEnvironment, none, .usual⟩ tree arguments
  let time ← timestamp
  for notice in outcome.errorNotices do
    IO.eprintln (String.ofList (outcome.style.line time notice))
  for line in outcome.outputLines do
    IO.println (String.ofList line)
  writeChanges tree outcome.session.tree
  match outcome.status with
  | .ok status => return UInt32.ofNat status
  | .error failure =>
      IO.eprintln (String.ofList failure.message)
      return 1

end DependencyGate.Main

/-- Checks the project that the arguments name. -/
def main (arguments : List String) : IO UInt32 := DependencyGate.Main.run arguments

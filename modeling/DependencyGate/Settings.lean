/-
# Settings

What a run of the gate is told: the directories to scan, the packages that need no
declaration, the packages that are never removed, and the names of the files it
reads. Environment variables override two of the defaults.
-/

import DependencyGate.Source.Kind
import DependencyGate.Text.Blank
import DependencyGate.Text.Quoted

namespace DependencyGate

/-- The settings of a run. -/
structure Settings where
  standardDirectories : List Text
  strictDirectories : List Text
  sourceKinds : List Source.Kind
  basePackages : List Text
  protectedPackages : List Text
  manifestName : Text
  lockfileName : Text
  lockfileReader : Text
deriving DecidableEq

/-- The environment variables that the gate looks at, as far as they are set. -/
structure Environment where
  protectedPackages : Option Text
  lockfileReader : Option Text
  logLevel : Option Text
  logFormat : Option Text

namespace Settings

/-- The directories that every scan covers. -/
def usualDirectories : List Text := ["R", "scripts", "analysis"]

/-- The settings that hold unless something overrides them. The base packages come
with every installation; `renv` is needed by the container even when no code
mentions it. -/
def standard : Settings where
  standardDirectories := usualDirectories
  strictDirectories := usualDirectories ++ ["tests", "vignettes", "inst"].map String.toList
  sourceKinds := Source.Kind.all
  basePackages :=
    ["base", "utils", "stats", "graphics", "grDevices", "methods", "datasets", "tools",
      "grid", "parallel"]
  protectedPackages := ["renv"]
  manifestName := "DESCRIPTION"
  lockfileName := "renv.lock"
  lockfileReader := "json"

/-- The directories to scan in standard or strict mode. -/
def directories (settings : Settings) (strict : Bool) : List Text :=
  if strict then settings.strictDirectories else settings.standardDirectories

/-- The names of the ways to read a lockfile. -/
def readerNames : List Text := ["json", "jq", "none"]

/-- What a list of protected packages names: the parts between commas that are not
blank. -/
def protectedNames (written : Text) : List Text :=
  ((Text.splitAtChar ',' written).map Text.trim).filter (!·.isEmpty)

/-- The message for an unknown reader in the environment. -/
def unknownReaderMessage (name : Text) : Text :=
  "RDEPCHECK_LOCKFILE_READER must be one of " ++ List.intercalate [',', ' '] readerNames
    ++ ", got " ++ Text.quoted name

/-- The standard settings with the overrides of the environment. The error is the
name of an unknown reader. -/
def ofEnvironment (environment : Environment) : Except Text Settings :=
  let base :=
    match environment.protectedPackages with
    | none => standard
    | some written => { standard with protectedPackages := protectedNames written }
  match environment.lockfileReader with
  | none | some [] => .ok base
  | some written =>
      let name := Text.lower (Text.trim written)
      if name ∈ readerNames then .ok { base with lockfileReader := name } else .error name

end Settings
end DependencyGate

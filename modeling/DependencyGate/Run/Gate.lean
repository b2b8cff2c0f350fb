/-
# Runs

A run scans the sources, reads the manifest and the lockfile, compares them and, as
far as it is asked to, adds missing packages to the manifest and removes unused
ones. Afterwards its result is reported once.
-/

import DependencyGate.Headroom
import DependencyGate.Lockfile.Locked
import DependencyGate.Manifest.Stored
import DependencyGate.PackageName
import DependencyGate.Run.Result
import DependencyGate.Settings
import DependencyGate.Source.Scan

namespace DependencyGate

/-- What to check, what may be changed, and how deep things may nest meanwhile. -/
structure Gate where
  settings : Settings
  project : Path
  strict : Bool
  prune : Bool
  fix : Bool
  headroom : Headroom

namespace Gate

/-- The path of the project's manifest. -/
def manifestPath (gate : Gate) : Path := gate.project.join gate.settings.manifestName

/-- The path of the project's lockfile. -/
def lockfilePath (gate : Gate) : Path := gate.project.join gate.settings.lockfileName

/-- Goes to the next phase, which must be a successor of the current one. -/
def advance (next : Phase) : Action Unit := do
  let current := (← get).phase
  if next ∈ current.successors then
    Action.log ⟨.debug, .pipeline, "pipeline.phase",
      [("previous", .text current.name), ("phase", .text next.name)]⟩
    modify fun session => { session with phase := next, past := session.past ++ [current] }
  else throw (.phaseOrder current next)

/-- The failure of a run whose search ended early. -/
def searchFailure : Source.SearchFault → Failure
  | .unexaminable error => .path error
  | .tooDeep => .tooDeep

/-- The names that the sources use, base packages apart. -/
def scan (gate : Gate) : Action (List Text) := do
  advance .scanning
  let roots := gate.settings.directories gate.strict
  Action.log ⟨.info, .pipeline, "pipeline.scanning",
    [("dirs", .names roots), ("strict", .flag gate.strict)]⟩
  let scan := Source.scan (← get).tree gate.headroom.directories gate.project roots
    gate.settings.sourceKinds
  Action.note (scan.events.map .logged)
  match scan.failure with
  | some fault => throw (searchFailure fault)
  | none =>
      return PackageName.select (scan.references.map (·.token.name))
        gate.settings.basePackages []

/-- The used names without the project's own package: calls into its own namespace
are no dependencies. -/
def withoutOwnPackage (gate : Gate) (used : List Text) : Option Text → List Text
  | none => used
  | some package =>
      if package ∈ used then PackageName.select used gate.settings.basePackages [package]
      else used

/-- Reads the manifest and the lockfile. -/
def parse (gate : Gate) (used : List Text) : Action Result := do
  advance .parsing
  let manifest ← Manifest.parse gate.manifestPath
  let lockfileFound ← Action.ofExcept .path ((← get).tree.isFile gate.lockfilePath)
  let reader ← Lockfile.select gate.headroom.values gate.settings.lockfileReader
  let locked ← Lockfile.locked reader gate.lockfilePath
  return { Result.empty with
    used := gate.withoutOwnPackage used manifest.package
    declared := manifest.required
    optional := manifest.optional
    locked := locked
    strict := gate.strict
    manifestFound := manifest.found
    lockfileFound := lockfileFound }

/-- Fills in what follows from the names that were read. -/
def compared (gate : Gate) (result : Result) : Result :=
  { result with
    missing := missingNames result.used result.declared
    extraLocked := undeclaredLocked result.locked result.declared result.optional
    unused :=
      Manifest.unusedNames result.declared result.used gate.settings.protectedPackages }

/-- Compares what was read. -/
def compare (gate : Gate) (result : Result) : Action Result := do
  advance .comparing
  let result := gate.compared result
  Action.log ⟨.info, .pipeline, "pipeline.compared",
    [("used", .number result.used.length), ("declared", .number result.declared.length),
      ("locked", .number result.locked.length), ("missing", .number result.missing.length)]⟩
  return result

/-- Adds the missing packages to the manifest. A failure to do so is a warning. -/
def addMissing (gate : Gate) (result : Result) : Action Result := do
  advance .fixing
  match ← Action.attemptOnManifest (Manifest.fixFile gate.manifestPath result.missing) with
  | .error failure =>
      Action.log ⟨.warning, .pipeline, "pipeline.fix_failed",
        [("error", .text failure.message)]⟩
      return { result with
        warnings := result.warnings ++ ["Auto-fix failed: " ++ failure.message] }
  | .ok added =>
      return { result with
        added := added
        declared := canonical (result.declared ++ added)
        missing := without result.missing added }

/-- Removes the unused packages from the manifest. A failure to do so is a warning
and never changes the verdict. -/
def removeUnused (gate : Gate) (result : Result) : Action Result := do
  advance .pruning
  let step :=
    Manifest.pruneFile gate.manifestPath result.used gate.settings.protectedPackages
  match ← Action.attemptOnManifest step with
  | .error failure =>
      Action.log ⟨.warning, .pipeline, "pipeline.prune_failed",
        [("error", .text failure.message)]⟩
      return { result with
        warnings := result.warnings ++ ["Pruning skipped: " ++ failure.message] }
  | .ok pruned =>
      return { result with
        pruned := pruned
        declared := without result.declared pruned
        unused := without result.unused pruned }

/-- Runs every phase up to the report. -/
def run (gate : Gate) : Action Result := do
  let used ← gate.scan
  let parsed ← gate.parse used
  let compared ← gate.compare parsed
  let fixed ← if !compared.passes && gate.fix then gate.addMissing compared else pure compared
  if fixed.passes && gate.prune && !fixed.unused.isEmpty then gate.removeUnused fixed
  else pure fixed

/-- Reports a result by the given step and returns the exit status. -/
def report (result : Result) (render : Result → Action Unit) : Action Nat := do
  advance .reported
  render result
  advance .exit
  Action.log ⟨.debug, .pipeline, "pipeline.exit", [("exit_code", .number result.exitCode)]⟩
  return result.exitCode

end Gate
end DependencyGate

/-
# Results

What a run found out. The verdict compares the packages that code uses with those
that the manifest requires, by exact name; a package that is only locked never
counts against a project.
-/

import DependencyGate.Canonical
import DependencyGate.Text.Wide

namespace DependencyGate

/-- The used names that are not declared. -/
def missingNames (used declared : List Text) : List Text := canonical (without used declared)

/-- The locked names that are declared nowhere. -/
def undeclaredLocked (locked : List WideText) (required optional : List Text) : List WideText :=
  canonical (without (without locked (required.map Text.widen)) (optional.map Text.widen))

/-- What a run found out. -/
structure Result where
  used : List Text
  declared : List Text
  optional : List Text
  locked : List WideText
  missing : List Text
  unused : List Text
  extraLocked : List WideText
  added : List Text
  pruned : List Text
  strict : Bool
  manifestFound : Bool
  lockfileFound : Bool
  warnings : List Text
deriving DecidableEq

namespace Result

/-- What is known before a run. -/
def empty : Result := ⟨[], [], [], [], [], [], [], [], [], false, false, false, []⟩

/-- Whether every used package is declared. -/
def passes (result : Result) : Bool := result.missing.isEmpty

/-- The exit status that the verdict asks for. -/
def exitCode (result : Result) : Nat := if result.passes then 0 else 1

end Result
end DependencyGate

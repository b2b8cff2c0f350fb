/-
# Headroom

Values that lie within one another in a text, and directories that lie within one another
below a scan root, are gone through by calls within calls, and calls may only nest so deep.
How much of that is left depends on what is in progress when a gate is run, so the limits are
given from outside.
-/

namespace DependencyGate

/-- How many values may lie within one another in a text, and how many directories within one
another in a search, the scan root included. -/
structure Headroom where
  values : Nat
  directories : Nat

/-- What a thousand nested calls leave if no more than a hundred of them are in progress. -/
def Headroom.usual : Headroom := ⟨900, 900⟩

end DependencyGate

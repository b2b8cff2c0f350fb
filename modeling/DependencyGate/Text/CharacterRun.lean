/-
# Runs of characters

A class of characters is stored as a list of runs: evenly spaced code points from
a first to a last one. Letters of the two cases alternate in many scripts, so a
spacing of two keeps such a table short.
-/

import DependencyGate.Text.Basic

namespace DependencyGate.Text

/-- The code points `first`, `first + step`, … up to `last`. -/
structure CharacterRun where
  first : Nat
  last : Nat
  step : Nat

/-- Whether the run contains the character. -/
def CharacterRun.holds (run : CharacterRun) (c : Char) : Bool :=
  run.first ≤ c.toNat && c.toNat ≤ run.last && (c.toNat - run.first) % run.step == 0

/-- Whether one of the runs contains the character. -/
def inRuns (runs : List CharacterRun) (c : Char) : Bool := runs.any (·.holds c)

end DependencyGate.Text

/-
# Phases of a run

A run goes through its phases in order and never back. Fixing and pruning may be
left out.
-/

import DependencyGate.Text.Basic

namespace DependencyGate

/-- A phase of a run. -/
inductive Phase
  | idle
  | scanning
  | parsing
  | comparing
  | fixing
  | pruning
  | reported
  | exit
deriving DecidableEq

namespace Phase

/-- The word for a phase. -/
def name : Phase → Text
  | .idle => "idle"
  | .scanning => "scanning"
  | .parsing => "parsing"
  | .comparing => "comparing"
  | .fixing => "fixing"
  | .pruning => "pruning"
  | .reported => "reported"
  | .exit => "exit"

/-- The phases that may follow a phase. -/
def successors : Phase → List Phase
  | .idle => [.scanning]
  | .scanning => [.parsing]
  | .parsing => [.comparing]
  | .comparing => [.fixing, .pruning, .reported]
  | .fixing => [.pruning, .reported]
  | .pruning => [.reported]
  | .reported => [.exit]
  | .exit => []

end Phase
end DependencyGate

/-
# Log events

What the gate reports about its own work. An event has a level, a source, a name
and named fields; how it is written is decided elsewhere.
-/

import DependencyGate.Text.Basic

namespace DependencyGate.Log

/-- How important an event is. -/
inductive Level
  | debug
  | info
  | warning
deriving DecidableEq

/-- The word for a level. -/
def Level.name : Level → Text
  | .debug => "debug"
  | .info => "info"
  | .warning => "warning"

/-- The rank of a level; a threshold lets through the levels of its rank or above. -/
def Level.rank : Level → Nat
  | .debug => 10
  | .info => 20
  | .warning => 30

/-- The part of the gate that an event comes from. -/
inductive Source
  | scanner
  | manifest
  | lockfile
  | pipeline
deriving DecidableEq

/-- The name under which a source logs. -/
def Source.name : Source → Text
  | .scanner => "rdepcheck.scanner"
  | .manifest => "rdepcheck.manifest"
  | .lockfile => "rdepcheck.lockfile"
  | .pipeline => "rdepcheck.pipeline"

/-- The value of a field. -/
inductive Value
  | text (value : Text)
  | optional (value : Option Text)
  | number (value : Nat)
  | flag (value : Bool)
  | names (values : List Text)
  | counts (values : List (Text × Nat))
deriving DecidableEq

/-- An event. -/
structure Event where
  level : Level
  source : Source
  name : Text
  fields : List (Text × Value)
deriving DecidableEq

end DependencyGate.Log

/-
# The locked packages

Steps that choose a reader and read the lockfile with it. A lockfile is advisory:
one that is missing or cannot be interpreted gives no packages and an event.
-/

import DependencyGate.Run.Session

namespace DependencyGate.Lockfile

/-- How to install the query tool. -/
def installHint : Text :=
  "Install jq: brew install jq (macOS) or apt-get install jq (Linux)"

/-- The reader of a given name, which takes values up to a depth if it reads JSON.
Without a query tool, a reader that needs one is replaced by one that reads nothing. -/
def select (depth : Nat) (name : Text) : Action Reader := do
  if name = ("json" : Text) then return .json depth
  else if name = ("jq" : Text) then
    match (← get).tool with
    | some tool => return .query tool.executable
    | none =>
        Action.log ⟨.warning, .lockfile, "lockfile.jq_missing", [("hint", .text installHint)]⟩
        return .unavailable (some installHint)
  else if name = ("none" : Text) then return .unavailable none
  else throw (.unknownReader name)

/-- The event with which a reader that reads nothing says so. -/
def Reader.events (path : Path) : Reader → List Log.Event
  | .unavailable hint =>
      [⟨.warning, .lockfile, "lockfile.reader_unavailable",
        [("path", .text path.text), ("hint", .optional hint)]⟩]
  | _ => []

/-- Reads the packages of a lockfile. -/
def read (reader : Reader) (path : Path) : Action (List WideText) := do
  Action.note ((reader.events path).map .logged)
  let session ← get
  Action.ofExcept (.lockfile path) (reader.packages session.tree session.tool path)

/-- The locked packages: none if there is no lockfile or it cannot be interpreted. -/
def locked (reader : Reader) (path : Path) : Action (List WideText) := do
  let present ← Action.ofExcept .path ((← get).tree.isFile path)
  if !present then
    Action.log ⟨.info, .lockfile, "lockfile.not_found", [("path", .text path.text)]⟩
    return []
  else
    Action.note ((reader.events path).map .logged)
    let session ← get
    match reader.packages session.tree session.tool path with
    | .ok packages =>
        Action.log ⟨.debug, .lockfile, "lockfile.parsed",
          [("path", .text path.text), ("reader", .text reader.name),
            ("packages", .number packages.length)]⟩
        return packages
    | .error (.fault fault) =>
        Action.log ⟨.warning, .lockfile, "lockfile.unreadable",
          [("path", .text path.text), ("reader", .text reader.name),
            ("error", .text (fault.message path))]⟩
        return []
    | .error error => throw (.lockfile path error)

end DependencyGate.Lockfile

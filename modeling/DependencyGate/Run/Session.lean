/-
# Sessions

The surroundings of a run: the file tree as it stands, the query tool that may be
installed, the phases that the run has gone through, and the transcript of what has
been logged and printed. Steps of a run act on a session and may fail; what they did
before they failed stays done.
-/

import DependencyGate.FileTree.Replace
import DependencyGate.Lockfile.Reader
import DependencyGate.Log.Event
import DependencyGate.Run.Phase

namespace DependencyGate

/-- Why a manifest cannot be read. -/
inductive ReadFault
  | path (error : PathError)
  | encoding (error : Utf8.DecodeError)
deriving DecidableEq

/-- Why a step fails. -/
inductive Failure
  | path (error : PathError)
  | tooDeep
  | encoding (error : Utf8.EncodeError)
  | manifestUnreadable (manifest : Text) (fault : ReadFault)
  | manifestMissing (manifest : Text)
  | manifestUnwritable (manifest : Text) (error : PathError)
  | lockfile (place : Path) (error : Lockfile.ReadError)
  | unknownReader (name : Text)
  | phaseOrder (current next : Phase)
  | unknownLogLevel
deriving DecidableEq

/-- The message of a fault. -/
def ReadFault.message : ReadFault → Text
  | .path error => error.message
  | .encoding error => error.message

/-- The message of a failure. -/
def Failure.message : Failure → Text
  | .path error => error.message
  | .tooDeep => "maximum recursion depth exceeded"
  | .encoding error => error.message
  | .manifestUnreadable manifest fault =>
      "Cannot read manifest " ++ manifest ++ ": " ++ fault.message
  | .manifestMissing manifest => "Manifest " ++ manifest ++ " not found; cannot add packages"
  | .manifestUnwritable manifest error =>
      "Cannot write manifest " ++ manifest ++ ": " ++ error.message
  | .lockfile place (.fault fault) => fault.message place
  | .lockfile _ (.longInteger digits) => Json.longIntegerMessage digits
  | .lockfile _ (.tooDeep nesting) => Json.tooDeepMessage nesting
  | .lockfile _ (.undecodableAnswer error) => error.message
  | .unknownReader name => "Unknown lockfile reader: " ++ Text.quoted name
  | .phaseOrder current next =>
      "invalid phase transition " ++ current.name ++ " -> " ++ next.name
  | .unknownLogLevel => "Unable to configure logger 'rdepcheck'"

/-- Whether a failure says that the manifest could not be read, found or written. -/
def Failure.concernsManifest : Failure → Bool
  | .manifestUnreadable _ _ | .manifestMissing _ | .manifestUnwritable _ _ => true
  | _ => false

/-- Where a line is printed. -/
inductive Channel
  | output
  | errors
deriving DecidableEq

/-- An entry of a transcript. -/
inductive Notice
  | logged (event : Log.Event)
  | printed (channel : Channel) (line : Text)
deriving DecidableEq

/-- The surroundings of a run. The phases behind the present one are kept in the order in which
they were left. -/
structure Session where
  tree : FileTree
  tool : Option Lockfile.Tool
  phase : Phase
  past : List Phase
  transcript : List Notice

/-- A step of a run. -/
abbrev Action (α : Type) : Type := ExceptT Failure (StateM Session) α

namespace Session

/-- A session in which nothing has happened. -/
def start (tree : FileTree) (tool : Option Lockfile.Tool) : Session :=
  ⟨tree, tool, .idle, [], []⟩

/-- The events of the transcript. -/
def events (session : Session) : List Log.Event :=
  session.transcript.filterMap fun
    | .logged event => some event
    | .printed _ _ => none

/-- The lines printed on a channel. -/
def printedOn (channel : Channel) (session : Session) : List Text :=
  session.transcript.filterMap fun
    | .logged _ => none
    | .printed used line => if used = channel then some line else none

end Session

namespace Action

/-- Adds entries to the transcript. -/
def note (notices : List Notice) : Action Unit :=
  modify fun session => { session with transcript := session.transcript ++ notices }

/-- Logs an event. -/
def log (event : Log.Event) : Action Unit := note [.logged event]

/-- Goes on with a result that another computation may have failed to give. -/
def ofExcept {ε α : Type} (failure : ε → Failure) : Except ε α → Action α
  | .ok value => pure value
  | .error error => throw (failure error)

/-- Replaces the file at a path by one that holds a text. -/
def replaceFile (path : Path) (text : WideText) : Action Unit := do
  let session ← get
  let (outcome, tree) := session.tree.replaceFile path text
  set { session with tree := tree }
  match outcome with
  | .ok () => return ()
  | .error (.encoding error) => throw (.encoding error)
  | .error (.path error) =>
      if error.fault = .holdsNul then throw (.path error)
      else throw (.manifestUnwritable path.text error)

/-- Runs a step; failures that concern the manifest become values. -/
def attemptOnManifest {α : Type} (step : Action α) : Action (Except Failure α) :=
  tryCatch (do return .ok (← step)) fun failure =>
    if failure.concernsManifest then return .error failure else throw failure

end Action
end DependencyGate

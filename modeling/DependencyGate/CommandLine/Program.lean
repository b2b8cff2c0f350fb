/-
# The command

From arguments to an exit status. Arguments are refused, help is printed, or a
project is checked and reported on. Settings of the log and of the gate come from
the environment; an option for the lockfile reader overrides them.
-/

import DependencyGate.CommandLine.Arguments
import DependencyGate.Log.Render
import DependencyGate.Run.Gate
import DependencyGate.Run.Report

namespace DependencyGate.CommandLine

/-- Where the command is started: its directory, its environment, the query tool that
may be installed, and how deep things may nest. -/
structure Surroundings where
  directory : Location
  environment : Environment
  tool : Option Lockfile.Tool
  headroom : Headroom

/-- Which events are written, and whether as JSON. -/
structure LogStyle where
  threshold : Nat
  json : Bool
deriving DecidableEq

/-- The thresholds that can be asked for. -/
def namedThresholds : List (Text × Nat) :=
  [("CRITICAL", 50), ("FATAL", 50), ("ERROR", 40), ("WARN", 30), ("WARNING", 30), ("INFO", 20),
    ("DEBUG", 10), ("NOTSET", 0)]

/-- The uppercase form of a character, as far as it is an ASCII letter: two letters
beyond ASCII have one. -/
def upperLetter (c : Char) : Char :=
  if c = '\u0131' then 'I' else if c = '\u017F' then 'S' else c.toUpper

/-- The way to log that the environment asks for; none if its level is unknown. -/
def LogStyle.ofEnvironment? (environment : Environment) (quiet : Bool) : Option LogStyle :=
  let usual : Text := if quiet then "WARNING" else "INFO"
  let level := (environment.logLevel.getD usual).map upperLetter
  let format := environment.logFormat.getD "console".toList
  match namedThresholds.lookup level with
  | none => none
  | some threshold => some ⟨threshold, Text.lower format = "json".toList⟩

/-- What the arguments ask for once they are accepted. -/
structure Request where
  project : Location
  strict : Bool
  fix : Bool
  prune : Bool
  quiet : Bool
  lockfileReader : Option Text

/-- What the arguments amount to. -/
inductive Decision
  | refuse (error : UsageError)
  | abandon (failure : Failure)
  | help
  | validate (request : Request)

/-- Finds the project directory. A path with a null character is not even looked
for. -/
def findDirectory (tree : FileTree) (start : Location) (written : Text) :
    Except Decision Location :=
  match tree.resolveWritten start written with
  | .error .holdsNul => .error (.abandon (.path ⟨.holdsNul, written, none⟩))
  | .error _ => .error (.refuse (.noSuchDirectory written))
  | .ok location =>
      match tree.node? location with
      | some (.directory _) => .ok location
      | some _ => .error (.refuse (.notADirectory written))
      | none => .error (.refuse (.noSuchDirectory written))

/-- Whether the value of an option is acceptable; if not, what follows. -/
def examine (tree : FileTree) (start : Location) (arguments : Arguments) :
    Switch → Option Decision
  | .projectDirectory =>
      match findDirectory tree start ((arguments.value? .projectDirectory).getD ['.']) with
      | .ok _ => none
      | .error decision => some decision
  | .lockfileReader =>
      match arguments.value? .lockfileReader with
      | none => none
      | some name =>
          if name ∈ Settings.readerNames then none else some (.refuse (.noSuchReader name))
  | _ => none

/-- Decides what arguments amount to. Faults in reading them come first, then the
wish for help, then unacceptable values in the order in which the options were
given, then arguments that are no options. -/
def interpret (tree : FileTree) (start : Location) (written : List Text) : Decision :=
  match readArguments written with
  | .error error => .refuse error
  | .ok arguments =>
      if arguments.has .help then .help
      else
        match arguments.switches.findSome? (examine tree start arguments) with
        | some decision => decision
        | none =>
            if !arguments.others.isEmpty then .refuse (.unexpected arguments.others)
            else
              let directory := (arguments.value? .projectDirectory).getD ['.']
              match findDirectory tree start directory with
              | .error decision => decision
              | .ok project =>
                  .validate {
                    project := project
                    strict := arguments.has .strict
                    fix := arguments.has .fix
                    prune := !arguments.has .noPrune
                    quiet := arguments.has .quiet
                    lockfileReader := arguments.value? .lockfileReader }

/-- Prints lines on a channel, without terminal commands. -/
def printLines (channel : Channel) (lines : List Text) : Action Unit :=
  Action.note (lines.map fun line => .printed channel (Text.withoutCommands line))

/-- Prints an error and gives the status for it. -/
def complain (message : Text) : Action Nat := do
  printLines .errors [("Error: " : Text) ++ message]
  return 1

/-- Runs the gate and reports; a manifest that cannot be used is an error. -/
def check (gate : Gate) (quiet : Bool) : Action Nat := do
  match ← Action.attemptOnManifest gate.run with
  | .error failure => complain failure.message
  | .ok result => Gate.report result (Report.print gate.settings quiet)

/-- Does what a request asks for. -/
def fulfil (surroundings : Surroundings) (request : Request) : Action Nat := do
  match Settings.ofEnvironment surroundings.environment with
  | .error name => complain (Settings.unknownReaderMessage name)
  | .ok settings =>
      let settings :=
        match request.lockfileReader with
        | none => settings
        | some name => { settings with lockfileReader := name }
      check
        { settings := settings
          project := Path.anchored request.project
          strict := request.strict
          prune := request.prune
          fix := request.fix
          headroom := surroundings.headroom }
        request.quiet

/-- How a call of the command ended. -/
structure Outcome where
  status : Except Failure Nat
  session : Session
  style : LogStyle

/-- Runs a step to its end. -/
def Outcome.of (step : Action Nat) (style : LogStyle) (session : Session) : Outcome :=
  let (status, session) := step.run session
  ⟨status, session, style⟩

/-- Runs the command on its arguments. Before the log has been set up only lines
are printed, so its style does not matter. -/
def run (surroundings : Surroundings) (tree : FileTree) (arguments : List Text) : Outcome :=
  let session := Session.start tree surroundings.tool
  let plain : LogStyle := ⟨0, false⟩
  match interpret tree surroundings.directory arguments with
  | .refuse error =>
      Outcome.of (do printLines .errors error.lines; return 1) plain session
  | .abandon failure => Outcome.of (throw failure) plain session
  | .help => Outcome.of (do printLines .output helpLines; return 0) plain session
  | .validate request =>
      match LogStyle.ofEnvironment? surroundings.environment request.quiet with
      | none => Outcome.of (throw .unknownLogLevel) plain session
      | some style => Outcome.of (fulfil surroundings request) style session

/-- What a call writes to the channel for errors: printed lines and the events that
reach the threshold, in order. -/
def Outcome.errorNotices (outcome : Outcome) : List Notice :=
  outcome.session.transcript.filter fun
    | .logged event => outcome.style.threshold ≤ event.level.rank
    | .printed channel _ => channel = .errors

/-- The line of a notice. -/
def LogStyle.line (style : LogStyle) (time : Text) : Notice → Text
  | .logged event => if style.json then event.jsonLine time else event.consoleLine time
  | .printed _ line => line

/-- The lines that a call prints on the ordinary channel. -/
def Outcome.outputLines (outcome : Outcome) : List Text := outcome.session.printedOn .output

end DependencyGate.CommandLine

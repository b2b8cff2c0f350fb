/-
# Command-line arguments

The options of the command and the rules for reading them. Options and other
arguments may stand in any order; two dashes end the options. A long option takes
its value from behind an equals sign or from the next argument, whatever that
looks like; short options can be combined. Nothing but options is wanted, so other
arguments are collected and refused later.
-/

import DependencyGate.CommandLine.Suggestion
import DependencyGate.Text.Quoted

namespace DependencyGate.CommandLine

/-- An option of the command. -/
inductive Switch
  | strict
  | projectDirectory
  | fix
  | noPrune
  | quiet
  | lockfileReader
  | help
deriving DecidableEq

/-- The long name of an option. -/
def Switch.longName : Switch → Text
  | .strict => "--strict"
  | .projectDirectory => "--project-dir"
  | .fix => "--fix"
  | .noPrune => "--no-prune"
  | .quiet => "--quiet"
  | .lockfileReader => "--lockfile-reader"
  | .help => "--help"

/-- Every option. -/
def Switch.all : List Switch :=
  [.strict, .projectDirectory, .fix, .noPrune, .quiet, .lockfileReader, .help]

/-- Whether an option has a value. -/
def Switch.takesValue : Switch → Bool
  | .projectDirectory | .lockfileReader => true
  | _ => false

/-- The option with a given long name. -/
def Switch.ofLongName? (name : Text) : Option Switch :=
  Switch.all.find? (·.longName = name)

/-- The option with a given letter. -/
def Switch.ofLetter? : Char → Option Switch
  | 'q' => some .quiet
  | 'h' => some .help
  | _ => none

/-- An option as it was given. -/
structure Given where
  switch : Switch
  value : Option Text
deriving DecidableEq

/-- Why arguments are refused. -/
inductive UsageError
  | noSuchOption (name : Text) (alternatives : List Text)
  | takesNoValue (name : Text)
  | needsValue (name : Text)
  | noSuchDirectory (written : Text)
  | notADirectory (written : Text)
  | noSuchReader (name : Text)
  | unexpected (arguments : List Text)
deriving DecidableEq

/-- Arguments that have been read: the options in the order in which they were
given, and what is no option. -/
structure Arguments where
  options : List Given
  others : List Text
deriving DecidableEq

/-- The arguments with one more option in front. -/
def Arguments.withOption (option : Given) (arguments : Arguments) : Arguments :=
  { arguments with options := option :: arguments.options }

/-- The arguments with something else in front. -/
def Arguments.withOther (other : Text) (arguments : Arguments) : Arguments :=
  { arguments with others := other :: arguments.others }

/-- Divides a long option at its first equals sign. -/
def divideLong (argument : Text) : Text × Option Text :=
  match argument.dropWhile (· != '=') with
  | [] => (argument, none)
  | _ :: value => (argument.takeWhile (· != '='), some value)

/-- Reads the letters of combined short options. -/
def readLetters : Text → Except UsageError (List Given)
  | [] => .ok []
  | letter :: letters =>
      match Switch.ofLetter? letter with
      | none => .error (.noSuchOption ['-', letter] [])
      | some switch =>
          match readLetters letters with
          | .error error => .error error
          | .ok options => .ok (⟨switch, none⟩ :: options)

/-- Whether an argument is meant as an option. -/
def looksLikeOption : Text → Bool
  | '-' :: _ :: _ => true
  | _ => false

/-- Reads arguments. -/
def readArguments : List Text → Except UsageError Arguments
  | [] => .ok ⟨[], []⟩
  | argument :: rest =>
      if argument = ['-', '-'] then .ok ⟨[], rest⟩
      else if !looksLikeOption argument then (readArguments rest).map (·.withOther argument)
      else
        let (name, value) := divideLong argument
        match Switch.ofLongName? name with
        | none =>
            if ['-', '-'].isPrefixOf argument then
              .error (.noSuchOption name (suggestions name (Switch.all.map (·.longName))))
            else
              match readLetters argument.tail with
              | .error error => .error error
              | .ok options =>
                  (readArguments rest).map fun arguments =>
                    { arguments with options := options ++ arguments.options }
        | some switch =>
            match switch.takesValue, value with
            | true, some value => (readArguments rest).map (·.withOption ⟨switch, some value⟩)
            | true, none =>
                match rest with
                | [] => .error (.needsValue name)
                | value :: rest => (readArguments rest).map (·.withOption ⟨switch, some value⟩)
            | false, some _ => .error (.takesNoValue name)
            | false, none => (readArguments rest).map (·.withOption ⟨switch, none⟩)

/-- Whether an option was given. -/
def Arguments.has (arguments : Arguments) (switch : Switch) : Bool :=
  arguments.options.any (·.switch = switch)

/-- The value of an option; of several the last counts. -/
def Arguments.value? (arguments : Arguments) (switch : Switch) : Option Text :=
  match arguments.options.reverse.find? (·.switch = switch) with
  | none => none
  | some given => given.value

/-- The given options, each once, in the order in which they were first given. -/
def Arguments.switches (arguments : Arguments) : List Switch :=
  (arguments.options.map (·.switch)).eraseDups

/-- Whether the message for a refusal comes with a hint on the usage. -/
def UsageError.hasHint : UsageError → Bool
  | .takesNoValue _ | .needsValue _ => false
  | _ => true

/-- The message for a refusal. -/
def UsageError.message : UsageError → Text
  | .noSuchOption name alternatives =>
      "No such option " ++ Text.quoted name ++ "." ++
        match alternatives.map Text.quoted with
        | [] => []
        | [alternative] => " Did you mean " ++ alternative ++ "?"
        | alternatives =>
            " (Did you mean one of: " ++ List.intercalate [',', ' '] alternatives ++ "?)"
  | .takesNoValue name => "Option " ++ Text.quoted name ++ " does not take a value."
  | .needsValue name => "Option " ++ Text.quoted name ++ " requires an argument."
  | .noSuchDirectory written =>
      "Invalid value for '--project-dir': Directory " ++ Text.quoted written
        ++ " does not exist."
  | .notADirectory written =>
      "Invalid value for '--project-dir': Directory " ++ Text.quoted written ++ " is a file."
  | .noSuchReader name =>
      "Invalid value for '--lockfile-reader': " ++ Text.quoted name
        ++ " is not one of 'json', 'jq', 'none'."
  | .unexpected arguments =>
      "Got unexpected extra argument" ++ (if arguments.length = 1 then [] else ['s']) ++ " ("
        ++ List.intercalate [' '] arguments ++ ")"

/-- The lines that are printed for a refusal. -/
def UsageError.lines (error : UsageError) : List Text :=
  let hint : List Text :=
    if error.hasHint then
      ["Usage: rdepcheck [OPTIONS]", "Try 'rdepcheck --help' for help.", ""]
    else []
  hint ++ [("Error: " : Text) ++ error.message]

/-- The lines of the help text. -/
def helpLines : List Text :=
  ["Usage: rdepcheck [OPTIONS]",
    "",
    "  Validate R package dependencies without requiring R on the host.",
    "",
    "Options:",
    "  --strict                        Scan all directories (including tests/,",
    "                                  vignettes/, inst/).",
    "  --project-dir DIRECTORY         Project root containing DESCRIPTION and",
    "                                  renv.lock.  [default: .]",
    "  --fix                           Add missing packages to DESCRIPTION Imports.",
    "  --no-prune                      Keep unused packages in DESCRIPTION Imports.",
    "  -q, --quiet                     Only print problems and the verdict.",
    "  --lockfile-reader [json|jq|none]",
    "                                  How to read renv.lock (default: json).",
    "  -h, --help                      Show this message and exit.",
    "",
    "  Requirements:",
    "    jq is only needed with --lockfile-reader jq (brew install jq / apt-get install jq).",
    "",
    "  Package installation and renv::snapshot() happen inside the project",
    "  container; this tool only reads code and metadata on the host."]

end DependencyGate.CommandLine

/-
# Reports

The report of a result for people: a summary, what was changed, every missing
package and the verdict. In a quiet report the summary and the list of unused
packages are left out, the rest stays. Warnings go to the channel for errors.
-/

import DependencyGate.Run.Session
import DependencyGate.Run.Result
import DependencyGate.Settings
import DependencyGate.Text.TerminalEscape

namespace DependencyGate.Report

/-- A line of a report and where it is printed. -/
structure Line where
  channel : Channel
  text : Text
deriving DecidableEq

/-- A line on the ordinary channel. -/
def say (text : Text) : Line := ⟨.output, text⟩

/-- Texts separated by a comma and a space. -/
def listed (texts : List Text) : Text := List.intercalate [',', ' '] texts

/-- The next steps for somebody whose project lacks packages. -/
def remediationSteps (settings : Settings) : List Text :=
  ["Add them manually to the " ++ settings.manifestName ++ " Imports field",
    "Run: rdepcheck --fix",
    "Inside the container: renv::install() then exit (auto-snapshot)"]

/-- The lines about what was scanned and read. -/
def summary (settings : Settings) (result : Result) : List Line :=
  let mode : Text := if result.strict then "strict" else "standard"
  let found (count : Nat) (place : Text) : Line :=
    say ("Found " ++ Text.ofNat count ++ " packages in " ++ place)
  [say ("Scanned " ++ listed (settings.directories result.strict) ++ " (" ++ mode ++ " mode)"),
    found result.used.length "code",
    if result.manifestFound then
      found result.declared.length (settings.manifestName ++ " Imports")
    else say ("No " ++ settings.manifestName ++ " found; nothing is declared"),
    if result.lockfileFound then found result.locked.length settings.lockfileName
    else say ("No " ++ settings.lockfileName ++ " found")] ++
  if result.extraLocked.isEmpty then []
  else
    [say ("Note: " ++ Text.ofNat result.extraLocked.length ++ " packages in "
      ++ settings.lockfileName ++ " are not declared in " ++ settings.manifestName)]

/-- The lines about warnings. -/
def warnings (result : Result) : List Line :=
  result.warnings.map fun warning => ⟨.errors, "Warning: " ++ warning⟩

/-- A heading and a list under it, each name behind a mark; nothing for an empty
list. -/
def titledList (heading mark : Text) (names : List Text) : List Line :=
  match names with
  | [] => []
  | names => say heading :: names.map fun name => say ([' ', ' '] ++ mark ++ [' '] ++ name)

/-- The lines about added packages. -/
def added (settings : Settings) (result : Result) : List Line :=
  titledList ("Added to " ++ settings.manifestName ++ " Imports:") ['+'] result.added

/-- The lines about removed packages. -/
def pruned (settings : Settings) (result : Result) : List Line :=
  titledList ("Removed unused packages from " ++ settings.manifestName ++ " Imports:") ['-']
    result.pruned

/-- The line about unused packages that were not removed. -/
def unused (settings : Settings) (result : Result) : List Line :=
  if result.pruned.isEmpty && !result.unused.isEmpty then
    [say ("Unused packages in " ++ settings.manifestName ++ " Imports: "
      ++ listed result.unused)]
  else []

/-- The numbered next steps. -/
def remediation (settings : Settings) : List Line :=
  ((remediationSteps settings).zipIdx 1).map fun (step, number) =>
    say ([' ', ' '] ++ Text.ofNat number ++ ". " ++ step)

/-- The missing packages and the verdict. -/
def verdict (settings : Settings) (result : Result) : List Line :=
  if result.passes then
    [say ("All packages properly declared in " ++ settings.manifestName),
      say "Package environment validation passed"]
  else
    titledList ("Missing from " ++ settings.manifestName ++ " Imports:") ['-'] result.missing ++
      [say "Package environment validation failed", say [],
        say "To fix missing packages, you can:"] ++
      remediation settings ++ [say []]

/-- The lines of a report. -/
def lines (settings : Settings) (quiet : Bool) (result : Result) : List Line :=
  (if quiet then [] else summary settings result) ++ warnings result
    ++ added settings result ++ pruned settings result
    ++ (if quiet then [] else unused settings result) ++ verdict settings result

/-- A line as it is printed: without terminal commands. -/
def Line.notice (line : Line) : Notice :=
  .printed line.channel (Text.withoutCommands line.text)

/-- Prints the report of a result. -/
def print (settings : Settings) (quiet : Bool) (result : Result) : Action Unit :=
  Action.note ((lines settings quiet result).map Line.notice)

end DependencyGate.Report

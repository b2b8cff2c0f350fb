/-
# Reading a lockfile

A lockfile records the packages that are installed, as the member names of its
`Packages` object. There are three ways to read it: to interpret its JSON, to ask
a query tool, or not at all. A reader is a pure function of the file tree and of
what the tool answers. Its failures are of two sorts: those that are a property of
the lockfile and are only reported, and those that end the run.
-/

import DependencyGate.Canonical
import DependencyGate.FileTree.Resolve
import DependencyGate.Json.Reader
import DependencyGate.Text.Blank
import DependencyGate.Text.Line

namespace DependencyGate.Lockfile

/-- What a query tool wrote and the status it ended with. -/
structure ToolOutput where
  output : List UInt8
  errors : List UInt8
  status : Nat

/-- An installed query tool: where it lies and what it answers. -/
structure Tool where
  executable : Text
  answer : ToolOutput

/-- A way to read a lockfile. The first takes values that lie within one another up
to a depth; the last one reads nothing, and may have a hint on what to install. -/
inductive Reader
  | json (depth : Nat)
  | query (executable : Text)
  | unavailable (hint : Option Text)
deriving DecidableEq

/-- The name of a reader. -/
def Reader.name : Reader → Text
  | .json _ => "json"
  | .query _ => "jq"
  | .unavailable _ => "none"

/-- Why a lockfile cannot be interpreted. -/
inductive Fault
  | unreadable (error : PathError)
  | undecodable (error : Utf8.DecodeError)
  | malformed (text : Text) (fault : Json.SyntaxFault) (offset : Nat)
  | notAnObject
  | packagesNotAnObject
  | queryFailed (report : Text)
deriving DecidableEq

/-- The message for a lockfile that cannot be interpreted. -/
def Fault.message (path : Path) : Fault → Text
  | .unreadable error => "Cannot parse " ++ path.text ++ ": " ++ error.message
  | .undecodable error => "Cannot parse " ++ path.text ++ ": " ++ error.message
  | .malformed text fault offset =>
      "Cannot parse " ++ path.text ++ ": " ++ Json.malformedMessage text fault offset
  | .notAnObject => path.text ++ " is not a JSON object"
  | .packagesNotAnObject => "'Packages' in " ++ path.text ++ " is not an object"
  | .queryFailed report => "jq failed on " ++ path.text ++ ": " ++ report

/-- Why reading fails: a fault of the lockfile, or one of three failures that end
the run. -/
inductive ReadError
  | fault (fault : Fault)
  | longInteger (digits : Nat)
  | tooDeep (nesting : Json.Nesting)
  | undecodableAnswer (error : Utf8.DecodeError)
deriving DecidableEq

/-- The names of the members of an object, in canonical order, without the empty
name. -/
def memberNames (members : List (WideText × Json)) : List WideText :=
  canonical ((members.map (·.1)).filter (!·.isEmpty))

/-- The packages that a JSON value records. -/
def recordedPackages : Json → Except Fault (List WideText)
  | .object members =>
      match Json.member? (Text.widen "Packages") members with
      | none => .ok []
      | some (.object packages) => .ok (memberNames packages)
      | some _ => .error .packagesNotAnObject
  | _ => .error .notAnObject

/-- The packages that the text of a lockfile records. -/
def packagesOfText (depth : Nat) (text : Text) : Except ReadError (List WideText) :=
  match Json.parse depth text with
  | .error (.malformed fault offset) => .error (.fault (.malformed text fault offset))
  | .error (.longInteger digits) => .error (.longInteger digits)
  | .error (.tooDeep nesting) => .error (.tooDeep nesting)
  | .ok json =>
      match recordedPackages json with
      | .error fault => .error (.fault fault)
      | .ok packages => .ok packages

/-- The packages that the lockfile at a path records. -/
def readJson (depth : Nat) (tree : FileTree) (path : Path) :
    Except ReadError (List WideText) :=
  match tree.read path with
  | .error error => .error (.fault (.unreadable error))
  | .ok bytes =>
      match Utf8.decode bytes with
      | .error error => .error (.fault (.undecodable error))
      | .ok text => packagesOfText depth text.unifyLineEndings

/-- The arguments of a query for the names of the recorded packages. -/
def queryArguments (executable : Text) (path : Path) : List Text :=
  [executable, "-r", ".Packages | keys[]", path.text]

/-- What a query that ended with a status other than zero is reported to be: what
the tool wrote about it or, if that is nothing, the call and its status. -/
def queryReport (executable : Text) (path : Path) (errors : Text) (status : Nat) : Text :=
  let report :=
    if errors.isEmpty then
      "Command '" ++ Text.quotedList (queryArguments executable path)
        ++ "' returned non-zero exit status " ++ Text.ofNat status ++ "."
    else errors
  Text.trim report

/-- The names that a tool lists, one to a line, without blanks around them and
without blank lines. -/
def listedNames (output : Text) : List WideText :=
  canonical <|
    ((output.lines.map fun line => line.body.trim).filter (!·.isEmpty)).map Text.widen

/-- Interprets what a query tool wrote. -/
def interpretAnswer (executable : Text) (path : Path) (answer : ToolOutput) :
    Except ReadError (List WideText) :=
  match Utf8.decode answer.output with
  | .error error => .error (.undecodableAnswer error)
  | .ok output =>
      match Utf8.decode answer.errors with
      | .error error => .error (.undecodableAnswer error)
      | .ok errors =>
          if answer.status = 0 then .ok (listedNames output.unifyLineEndings)
          else
            .error <| .fault <| .queryFailed <|
              queryReport executable path errors.unifyLineEndings answer.status

/-- The packages that a query tool lists. -/
def readQuery (tool : Option Tool) (executable : Text) (path : Path) :
    Except ReadError (List WideText) :=
  match tool.filter (·.executable = executable) with
  | none =>
      let error : PathError := ⟨.missing, executable, none⟩
      .error (.fault (.queryFailed error.message.trim))
  | some tool => interpretAnswer executable path tool.answer

/-- The packages that a reader finds in the lockfile at a path. -/
def Reader.packages (tree : FileTree) (tool : Option Tool) (path : Path) :
    Reader → Except ReadError (List WideText)
  | .json depth => readJson depth tree path
  | .query executable => readQuery tool executable path
  | .unavailable _ => .ok []

end DependencyGate.Lockfile

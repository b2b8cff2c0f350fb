/-
# JSON values

The values of a lockfile, and the ways in which reading one can fail. Numbers keep
their spelling, because nothing is computed from them. Strings and names are wide
texts: an escape may name half of a surrogate pair.
-/

import DependencyGate.Text.Wide

namespace DependencyGate

/-- A JSON value. An object keeps its members as written, repeated names included. -/
inductive Json
  | null
  | boolean (value : Bool)
  | number (spelling : Text)
  | string (value : WideText)
  | array (elements : List Json)
  | object (members : List (WideText × Json))

namespace Json

/-- The member of a name; of several members with one name the last counts. -/
def member? (name : WideText) (members : List (WideText × Json)) : Option Json :=
  (members.reverse.find? (·.1 = name)).map (·.2)

/-- What is wrong at some place of a text that is not JSON. -/
inductive SyntaxFault
  | byteOrderMark
  | expectingValue
  | expectingName
  | expectingColon
  | expectingComma
  | extraData
  | unterminatedString
  | invalidControl
  | invalidEscape
  | invalidUnicodeEscape
deriving DecidableEq

/-- The two kinds of value that contain values. -/
inductive Nesting
  | array
  | object
deriving DecidableEq

/-- Why a text cannot be read: a fault at an offset, an integer with too many
digits, or values within too many others. -/
inductive Error
  | malformed (fault : SyntaxFault) (offset : Nat)
  | longInteger (digits : Nat)
  | tooDeep (nesting : Nesting)
deriving DecidableEq

/-- The words for a fault. -/
def SyntaxFault.message : SyntaxFault → Text
  | .byteOrderMark => "Unexpected UTF-8 BOM (decode using utf-8-sig)"
  | .expectingValue => "Expecting value"
  | .expectingName => "Expecting property name enclosed in double quotes"
  | .expectingColon => "Expecting ':' delimiter"
  | .expectingComma => "Expecting ',' delimiter"
  | .extraData => "Extra data"
  | .unterminatedString => "Unterminated string starting at"
  | .invalidControl => "Invalid control character at"
  | .invalidEscape => "Invalid \\escape"
  | .invalidUnicodeEscape => "Invalid \\uXXXX escape"

/-- The message for a fault at an offset of a text, with the line and column that
the line feeds before it give. -/
def malformedMessage (text : Text) (fault : SyntaxFault) (offset : Nat) : Text :=
  let before := text.take offset
  let column := (before.reverse.takeWhile (· != '\n')).length + 1
  fault.message ++ ": line " ++ Text.ofNat (before.count '\n' + 1) ++ " column "
    ++ Text.ofNat column ++ " (char " ++ Text.ofNat offset ++ ")"

/-- The message for an integer with too many digits. -/
def longIntegerMessage (digits : Nat) : Text :=
  "Exceeds the limit (4300 digits) for integer string conversion: value has "
    ++ Text.ofNat digits ++ " digits; use sys.set_int_max_str_digits() to increase the limit"

/-- The message for values within too many others. -/
def tooDeepMessage (nesting : Nesting) : Text :=
  let kind : Text := match nesting with
    | .array => "array"
    | .object => "object"
  "maximum recursion depth exceeded while decoding a JSON " ++ kind
    ++ " from a unicode string"

end Json
end DependencyGate

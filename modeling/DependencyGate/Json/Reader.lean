/-
# Reading JSON

A reader for whole texts. It goes beyond the standard by accepting the numbers
`NaN`, `Infinity` and `-Infinity` and lone surrogate escapes; it refuses raw
control characters in strings, integers of more than 4300 digits, and values that
lie within too many others. The first fault from the left is reported with its
offset.

Every function returns what it read, the offset behind it and the rest of the
text.
-/

import DependencyGate.Json.Basic

namespace DependencyGate.Json

/-- Something that was read, the offset behind it and the text that follows. -/
structure Reading (α : Type) where
  value : α
  offset : Nat
  rest : Text

/-- The blanks between the tokens of JSON. -/
def isSpace (c : Char) : Bool := c = ' ' || c = '\t' || c = '\n' || c = '\r'

/-- Passes over blanks. -/
def skipSpace (offset : Nat) (text : Text) : Reading Unit :=
  ⟨(), offset + (text.takeWhile isSpace).length, text.dropWhile isSpace⟩

/-- The value of a hexadecimal digit. -/
def hexDigit? (c : Char) : Option Nat :=
  let code := c.toNat
  if 0x30 ≤ code ∧ code ≤ 0x39 then some (code - 0x30)
  else if 0x41 ≤ code ∧ code ≤ 0x46 then some (code - 0x37)
  else if 0x61 ≤ code ∧ code ≤ 0x66 then some (code - 0x57)
  else none

/-- The number that four hexadecimal digits write. At least one character must
follow them, as a string cannot end with an escape. -/
def fourDigits? : Text → Option Nat
  | a :: b :: c :: d :: _ :: _ =>
      match hexDigit? a, hexDigit? b, hexDigit? c, hexDigit? d with
      | some a, some b, some c, some d => some (((a * 16 + b) * 16 + c) * 16 + d)
      | _, _, _, _ => none
  | _ => none

/-- The character that a one-letter escape stands for. -/
def simpleEscape? : Char → Option Char
  | '"' => some '"'
  | '\\' => some '\\'
  | '/' => some '/'
  | 'b' => some '\x08'
  | 'f' => some '\x0C'
  | 'n' => some '\n'
  | 'r' => some '\r'
  | 't' => some '\t'
  | _ => none

/-- Reads the part of an escape behind its backslash, which stands at `offset`:
the code point and the number of characters taken. Two escapes that name the
halves of a surrogate pair are one code point. -/
def readEscape (opening offset : Nat) : Text → Except Error (CodePoint × Nat)
  | [] => .error (.malformed .unterminatedString opening)
  | 'u' :: digits =>
      match fourDigits? digits with
      | none => .error (.malformed .invalidUnicodeEscape (offset + 1))
      | some high =>
          let single := (CodePoint.ofNat high, 5)
          if 0xD800 ≤ high ∧ high ≤ 0xDBFF then
            match digits.drop 4 with
            | '\\' :: 'u' :: more =>
                if more.length < 5 then .ok single
                else
                  match fourDigits? more with
                  | none => .error (.malformed .invalidUnicodeEscape (offset + 7))
                  | some low =>
                      if 0xDC00 ≤ low ∧ low ≤ 0xDFFF then
                        let joined := 0x10000 + (high - 0xD800) * 0x400 + (low - 0xDC00)
                        .ok (CodePoint.ofNat joined, 11)
                      else .ok single
            | _ => .ok single
          else .ok single
  | c :: _ =>
      match simpleEscape? c with
      | some plain => .ok (CodePoint.ofChar plain, 1)
      | none => .error (.malformed .invalidEscape offset)

/-- Reads the rest of a string whose opening quote stands at `opening`. -/
def readString (opening offset : Nat) : Text → Except Error (Reading WideText)
  | [] => .error (.malformed .unterminatedString opening)
  | c :: rest =>
      if c = '"' then .ok ⟨[], offset + 1, rest⟩
      else if c = '\\' then
        match readEscape opening offset rest with
        | .error error => .error error
        | .ok (point, taken) =>
            match readString opening (offset + 1 + taken) (rest.drop taken) with
            | .error error => .error error
            | .ok read => .ok { read with value := point :: read.value }
      else if c.toNat < 0x20 then .error (.malformed .invalidControl offset)
      else
        match readString opening (offset + 1) rest with
        | .error error => .error error
        | .ok read => .ok { read with value := CodePoint.ofChar c :: read.value }
termination_by text => text.length
decreasing_by all_goals simp; try omega

/-- The largest number of digits in an integer. -/
def integerDigitLimit : Nat := 4300

/-- The length of a fraction at the front of a text; a dot without a digit after
it is none. -/
def fractionLength : Text → Nat
  | '.' :: rest =>
      match (rest.takeWhile Char.isDigit).length with
      | 0 => 0
      | digits + 1 => digits + 2
  | _ => 0

/-- The length of an exponent at the front of a text. -/
def exponentLength : Text → Nat
  | letter :: rest =>
      if letter = 'e' || letter = 'E' then
        let sign := if rest.head? = some '+' || rest.head? = some '-' then 1 else 0
        match ((rest.drop sign).takeWhile Char.isDigit).length with
        | 0 => 0
        | digits + 1 => sign + digits + 2
      else 0
  | [] => 0

/-- The length of the digits of an integer at the front of a text: a single zero,
or a run that starts with another digit. -/
def integerLength : Text → Nat
  | '0' :: _ => 1
  | text => (text.takeWhile Char.isDigit).length

/-- Reads a number. -/
def readNumber (offset : Nat) (text : Text) : Except Error (Reading Json) :=
  let sign := if text.head? = some '-' then 1 else 0
  let digits := integerLength (text.drop sign)
  if digits = 0 then .error (.malformed .expectingValue offset)
  else
    let fraction := fractionLength (text.drop (sign + digits))
    let exponent := exponentLength (text.drop (sign + digits + fraction))
    if fraction + exponent = 0 ∧ integerDigitLimit < digits then .error (.longInteger digits)
    else
      let length := sign + digits + fraction + exponent
      .ok ⟨.number (text.take length), offset + length, text.drop length⟩

/-- The words that are values. -/
def valueWords : List (Text × Json) :=
  [("null", .null), ("true", .boolean true), ("false", .boolean false), ("NaN", .number "NaN"),
    ("Infinity", .number "Infinity"), ("-Infinity", .number "-Infinity")]

/-- Reads a value that contains no other. -/
def readScalar (offset : Nat) (text : Text) : Except Error (Reading Json) :=
  match text with
  | '"' :: rest =>
      match readString offset (offset + 1) rest with
      | .error error => .error error
      | .ok read => .ok ⟨.string read.value, read.offset, read.rest⟩
  | _ =>
      match valueWords.find? (·.1.isPrefixOf text) with
      | some (word, value) => .ok ⟨value, offset + word.length, text.drop word.length⟩
      | none => readNumber offset text

mutual

/-- Reads a value that may lie within others and may contain values at most
`depth` deep. The first argument bounds the number of steps. -/
def readValue : Nat → Nat → Nat → Text → Except Error (Reading Json)
  | 0, _, offset, _ => .error (.malformed .expectingValue offset)
  | steps + 1, depth, offset, text =>
      match text with
      | '[' :: rest =>
          match depth with
          | 0 => .error (.tooDeep .array)
          | depth + 1 =>
              let start := skipSpace (offset + 1) rest
              match start.rest with
              | ']' :: after => .ok ⟨.array [], start.offset + 1, after⟩
              | _ =>
                  match readElements steps depth start.offset start.rest with
                  | .error error => .error error
                  | .ok read => .ok ⟨.array read.value, read.offset, read.rest⟩
      | '{' :: rest =>
          match depth with
          | 0 => .error (.tooDeep .object)
          | depth + 1 =>
              let start := skipSpace (offset + 1) rest
              match start.rest with
              | '}' :: after => .ok ⟨.object [], start.offset + 1, after⟩
              | _ =>
                  match readMembers steps depth start.offset start.rest with
                  | .error error => .error error
                  | .ok read => .ok ⟨.object read.value, read.offset, read.rest⟩
      | _ => readScalar offset text

/-- Reads the elements of an array up to its closing bracket. -/
def readElements : Nat → Nat → Nat → Text → Except Error (Reading (List Json))
  | 0, _, offset, _ => .error (.malformed .expectingValue offset)
  | steps + 1, depth, offset, text =>
      match readValue steps depth offset text with
      | .error error => .error error
      | .ok element =>
          let behind := skipSpace element.offset element.rest
          match behind.rest with
          | ']' :: after => .ok ⟨[element.value], behind.offset + 1, after⟩
          | ',' :: after =>
              let next := skipSpace (behind.offset + 1) after
              match readElements steps depth next.offset next.rest with
              | .error error => .error error
              | .ok read => .ok { read with value := element.value :: read.value }
          | _ => .error (.malformed .expectingComma behind.offset)

/-- Reads the members of an object up to its closing brace. -/
def readMembers : Nat → Nat → Nat → Text → Except Error (Reading (List (WideText × Json)))
  | 0, _, offset, _ => .error (.malformed .expectingValue offset)
  | steps + 1, depth, offset, text =>
      match text with
      | '"' :: rest =>
          match readString offset (offset + 1) rest with
          | .error error => .error error
          | .ok name =>
              let colon := skipSpace name.offset name.rest
              match colon.rest with
              | ':' :: after =>
                  let start := skipSpace (colon.offset + 1) after
                  match readValue steps depth start.offset start.rest with
                  | .error error => .error error
                  | .ok value =>
                      let behind := skipSpace value.offset value.rest
                      match behind.rest with
                      | '}' :: after =>
                          .ok ⟨[(name.value, value.value)], behind.offset + 1, after⟩
                      | ',' :: after =>
                          let next := skipSpace (behind.offset + 1) after
                          match readMembers steps depth next.offset next.rest with
                          | .error error => .error error
                          | .ok read =>
                              .ok { read with value := (name.value, value.value) :: read.value }
                      | _ => .error (.malformed .expectingComma behind.offset)
              | _ => .error (.malformed .expectingColon colon.offset)
      | _ => .error (.malformed .expectingName offset)

end

/-- Reads a text that consists of one value, in which at most `depth` arrays and
objects lie within one another. Each step of the reader takes a character or leads
to one that does, so the bound on steps is never met. -/
def parse (depth : Nat) (text : Text) : Except Error Json :=
  if text.head? = some '\uFEFF' then .error (.malformed .byteOrderMark 0)
  else
    let start := skipSpace 0 text
    match readValue (2 * text.length + 2) depth start.offset start.rest with
    | .error error => .error error
    | .ok read =>
        let behind := skipSpace read.offset read.rest
        if behind.rest.isEmpty then .ok read.value
        else .error (.malformed .extraData behind.offset)

end DependencyGate.Json

/-
# Written log events

An event is written on one line, for readers at a console or as a JSON object for
programs. Console fields are sorted by name; their text values are quoted only
where blanks, quotes or an equals sign would make the line ambiguous.
-/

import DependencyGate.Canonical
import DependencyGate.Log.Event
import DependencyGate.Text.Quoted

namespace DependencyGate.Log

/-- Whether a text value has to be quoted on a console line. -/
def needsQuotes (value : Text) : Bool :=
  value.any fun c => c = ' ' || c = '\t' || c = '=' || c = '\r' || c = '\n' || c = '"' || c = '\''

/-- A text value on a console line. -/
def consoleText (value : Text) : Text := if needsQuotes value then Text.quoted value else value

/-- A value on a console line. -/
def Value.console : Value → Text
  | .text value => consoleText value
  | .optional none => "None"
  | .optional (some value) => consoleText value
  | .number value => Text.ofNat value
  | .flag value => if value then "True" else "False"
  | .names values => Text.quotedList values
  | .counts values =>
      let written := values.map fun entry => Text.quoted entry.1 ++ ": " ++ Text.ofNat entry.2
      ['\x7b'] ++ List.intercalate [',', ' '] written ++ ['\x7d']

/-- A text followed by blanks up to the given width. -/
def padEnd (width : Nat) (text : Text) : Text :=
  text ++ List.replicate (width - text.length) ' '

/-- The fields in ascending order of their names. -/
def sortedFields (fields : List (Text × Value)) : List (Text × Value) :=
  (canonical (fields.map (·.1))).filterMap fun name => fields.find? (·.1 = name)

/-- The console line of an event. -/
def Event.consoleLine (time : Text) (event : Event) : Text :=
  let fields := (sortedFields event.fields).map fun field =>
    field.1 ++ ['='] ++ field.2.console
  time ++ " [" ++ padEnd 9 event.level.name ++ "] " ++ padEnd 30 event.name ++ " ["
    ++ event.source.name ++ "] " ++ List.intercalate [' '] fields

/-- The written form of one character in a JSON string that is all ASCII. -/
def jsonChar (c : Char) : Text :=
  if c = '"' || c = '\\' then ['\\', c]
  else if c = '\n' then ['\\', 'n']
  else if c = '\r' then ['\\', 'r']
  else if c = '\t' then ['\\', 't']
  else if c = '\x08' then ['\\', 'b']
  else if c = '\x0C' then ['\\', 'f']
  else if 0x20 ≤ c.toNat && c.toNat < 0x7F then [c]
  else if c.toNat < 0x10000 then '\\' :: 'u' :: Text.hexadecimal 4 c.toNat
  else
    let offset := c.toNat - 0x10000
    '\\' :: 'u' :: Text.hexadecimal 4 (0xD800 + offset / 0x400)
      ++ '\\' :: 'u' :: Text.hexadecimal 4 (0xDC00 + offset % 0x400)

/-- A text as a JSON string. -/
def jsonString (text : Text) : Text := ['"'] ++ text.flatMap jsonChar ++ ['"']

/-- Named values as a JSON object. -/
def jsonObject (members : List (Text × Text)) : Text :=
  let written := members.map fun member => jsonString member.1 ++ ": " ++ member.2
  ['\x7b'] ++ List.intercalate [',', ' '] written ++ ['\x7d']

/-- A value in JSON. -/
def Value.json : Value → Text
  | .text value => jsonString value
  | .optional none => "null"
  | .optional (some value) => jsonString value
  | .number value => Text.ofNat value
  | .flag value => if value then "true" else "false"
  | .names values => ['['] ++ List.intercalate [',', ' '] (values.map jsonString) ++ [']']
  | .counts values => jsonObject (values.map fun entry => (entry.1, Text.ofNat entry.2))

/-- The JSON line of an event. -/
def Event.jsonLine (time : Text) (event : Event) : Text :=
  let common : List (Text × Text) :=
    [("event", jsonString event.name), ("level", jsonString event.level.name),
      ("logger", jsonString event.source.name), ("timestamp", jsonString time)]
  jsonObject ((event.fields.map fun field => (field.1, field.2.json)) ++ common)

end DependencyGate.Log

/-
# Quoted texts

Messages show a text between quotes so that its blanks and invisible characters
can be seen. A single quote is used unless the text holds one and no double
quote; the chosen quote, the backslash and every character that shows nothing are
escaped.
-/

import DependencyGate.Text.Printable

namespace DependencyGate.Text

/-- A number in hexadecimal, padded with zeros to at least `width` digits. -/
def hexadecimal (width n : Nat) : Text :=
  let digits := Nat.toDigits 16 n
  List.replicate (width - digits.length) '0' ++ digits

/-- The written form of one character between the given quotes. -/
def escapeChar (quote c : Char) : Text :=
  if c = quote || c = '\\' then ['\\', c]
  else if c = '\n' then ['\\', 'n']
  else if c = '\r' then ['\\', 'r']
  else if c = '\t' then ['\\', 't']
  else if isPrintable c then [c]
  else if c.toNat < 0x100 then '\\' :: 'x' :: hexadecimal 2 c.toNat
  else if c.toNat < 0x10000 then '\\' :: 'u' :: hexadecimal 4 c.toNat
  else '\\' :: 'U' :: hexadecimal 8 c.toNat

/-- The quote that needs the fewer escapes, a single one if both do. -/
def quoteFor (text : Text) : Char :=
  if text.elem '\'' && !text.elem '"' then '"' else '\''

/-- The text between quotes, with escapes. -/
def quoted (text : Text) : Text :=
  let quote := quoteFor text
  quote :: text.flatMap (escapeChar quote) ++ [quote]

/-- Several quoted texts between brackets, separated by a comma and a space. -/
def quotedList (texts : List Text) : Text :=
  ['['] ++ List.intercalate [',', ' '] (texts.map quoted) ++ [']']

end DependencyGate.Text

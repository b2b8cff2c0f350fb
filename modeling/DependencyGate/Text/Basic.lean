/-
# Texts

Everything the gate reads or prints is a text, a list of characters. This
module fixes that choice once, lets string literals stand for texts, and
supplies the two operations that no list function provides directly: cutting at
every occurrence of one character, and writing a number in decimal.
-/

namespace DependencyGate

/-- A sequence of characters: a name, a line, a message or a whole file. -/
abbrev Text := List Char

instance : Coe String Text := ⟨String.toList⟩

namespace Text

/-- Texts that compare equal are equal, so membership in a list of texts is decidable. -/
instance lawfulBEq : LawfulBEq Text := inferInstance

/-- Puts a character in front of the first piece, opening a piece if there is none. -/
def consFirst (c : Char) : List Text → List Text
  | [] => [[c]]
  | piece :: pieces => (c :: piece) :: pieces

/-- The pieces between successive occurrences of `separator`; there is always
one piece more than there are separators. -/
def splitAtChar (separator : Char) : Text → List Text
  | [] => [[]]
  | c :: rest =>
      if c = separator then [] :: splitAtChar separator rest
      else consFirst c (splitAtChar separator rest)

/-- A number in decimal digits. -/
def ofNat (n : Nat) : Text := Nat.toDigits 10 n

/-- Whether `part` occurs somewhere in the text. -/
def contains (part : Text) : Text → Bool
  | [] => part.isEmpty
  | c :: rest => part.isPrefixOf (c :: rest) || contains part rest

end Text
end DependencyGate

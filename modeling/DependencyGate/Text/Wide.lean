/-
# Wide texts

An escape in a lockfile can name half of a surrogate pair, which no character
stands for. Names read from a lockfile are therefore sequences of code points, of
which texts are the special case without surrogates.
-/

import DependencyGate.Text.Basic

namespace DependencyGate

/-- A number of the Unicode code space, surrogates included. -/
structure CodePoint where
  value : Nat
  value_lt : value < 0x110000
deriving DecidableEq

namespace CodePoint

instance : LT CodePoint := ⟨fun a b => a.value < b.value⟩

instance : DecidableLT CodePoint := fun a b => inferInstanceAs (Decidable (a.value < b.value))

/-- The code point of a character. -/
def ofChar (c : Char) : CodePoint :=
  ⟨c.toNat, by
    have valid := c.valid
    simp only [UInt32.isValidChar, Nat.isValidChar] at valid
    simp only [Char.toNat]
    omega⟩

/-- The code point with the given number; numbers outside the code space give zero. -/
def ofNat (n : Nat) : CodePoint := if bounded : n < 0x110000 then ⟨n, bounded⟩ else ⟨0, by decide⟩

/-- Whether the code point is half of a surrogate pair. -/
def isSurrogate (point : CodePoint) : Bool := 0xD800 ≤ point.value && point.value ≤ 0xDFFF

/-- The character at a code point that is no surrogate. -/
def toChar (point : CodePoint) : Char := Char.ofNat point.value

end CodePoint

/-- A sequence of code points. -/
abbrev WideText := List CodePoint

/-- A text as a sequence of code points. -/
def Text.widen (text : Text) : WideText := text.map CodePoint.ofChar

end DependencyGate

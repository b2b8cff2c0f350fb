/-
# Blank characters

The white space that surrounds names in manifests, separates the words of a
roxygen tag and pads a library call. The class has twenty-nine members: the
ASCII controls from tab to carriage return and from file separator to unit
separator, the space, and the spaces beyond ASCII.
-/

import DependencyGate.Text.Basic

namespace DependencyGate.Text

/-- Whether a character is white space. -/
def isBlank (c : Char) : Bool :=
  let code := c.toNat
  (9 ≤ code && code ≤ 13) || (28 ≤ code && code ≤ 32) || code == 0x85 || code == 0xA0
    || code == 0x1680 || (0x2000 ≤ code && code ≤ 0x200A) || code == 0x2028
    || code == 0x2029 || code == 0x202F || code == 0x205F || code == 0x3000

/-- The text without its leading blanks. -/
def trimStart (text : Text) : Text := text.dropWhile isBlank

/-- The text without its trailing blanks. -/
def trimEnd (text : Text) : Text := (text.reverse.dropWhile isBlank).reverse

/-- The blanks that `trimEnd` takes away. -/
def trailingBlanks (text : Text) : Text := (text.reverse.takeWhile isBlank).reverse

/-- The text without the blanks at either end. -/
def trim (text : Text) : Text := trimEnd (trimStart text)

/-- Whether the text holds nothing but blanks. -/
def isAllBlank (text : Text) : Bool := text.all isBlank

/-- Replaces each run of blanks by a single space. -/
def collapseBlanks : Text → Text
  | [] => []
  | [c] => if isBlank c then [' '] else [c]
  | c :: next :: rest =>
      if isBlank c then
        if isBlank next then collapseBlanks (next :: rest)
        else ' ' :: collapseBlanks (next :: rest)
      else c :: collapseBlanks (next :: rest)

theorem trimEnd_append_trailingBlanks (text : Text) :
    trimEnd text ++ trailingBlanks text = text := by
  simp only [trimEnd, trailingBlanks, ← List.reverse_append, List.takeWhile_append_dropWhile,
    List.reverse_reverse]

end DependencyGate.Text

/-
# Lines

A text is cut into lines at ten break characters; a carriage return followed by
a line feed is one break. A line keeps its break apart from its body, so the
same division serves readers, which look at bodies, and editors, which put whole
lines back together. The main fact is `flatMap_full_lines`: the lines of a text
spell the text.

The module also holds the two rules on line endings: what reading a file does to
them, and which ending an editor writes.
-/

import DependencyGate.Text.Basic

namespace DependencyGate

/-- A line with the break that ended it; only a last line has an empty break. -/
structure Line where
  body : Text
  ending : Text
deriving DecidableEq

/-- The line as it stands in the text. -/
def Line.full (line : Line) : Text := line.body ++ line.ending

namespace Text

/-- The characters at which a line ends. -/
def isLineBreak (c : Char) : Bool :=
  let code := c.toNat
  (10 ≤ code && code ≤ 13) || (28 ≤ code && code ≤ 30) || code == 0x85
    || code == 0x2028 || code == 0x2029

/-- Puts a character in front of the first line, opening a line if there is none. -/
def consFirstLine (c : Char) : List Line → List Line
  | [] => [⟨[c], []⟩]
  | line :: lines => ⟨c :: line.body, line.ending⟩ :: lines

/-- The lines of a text. -/
def lines : Text → List Line
  | [] => []
  | '\r' :: '\n' :: rest => ⟨[], ['\r', '\n']⟩ :: lines rest
  | c :: rest =>
      if isLineBreak c then ⟨[], [c]⟩ :: lines rest
      else consFirstLine c (lines rest)

theorem flatMap_full_consFirstLine (c : Char) (found : List Line) :
    (consFirstLine c found).flatMap Line.full = c :: found.flatMap Line.full := by
  cases found <;> simp [consFirstLine, Line.full]

/-- The lines of a text, written one after another, are the text. -/
theorem flatMap_full_lines (text : Text) : (lines text).flatMap Line.full = text := by
  fun_induction lines text with
  | case1 => rfl
  | case2 rest ih => simp [Line.full, ih]
  | case3 c rest _ _ ih => simp [Line.full, ih]
  | case4 c rest _ _ ih => rw [flatMap_full_consFirstLine, ih]

/-- Reading a file turns every carriage return, with the line feed that may
follow it, into one line feed. -/
def unifyLineEndings : Text → Text
  | [] => []
  | '\r' :: '\n' :: rest => '\n' :: unifyLineEndings rest
  | c :: rest => (if c = '\r' then '\n' else c) :: unifyLineEndings rest

/-- The ending that an editor gives to the lines it adds: the two-character one
as soon as the text holds one such break. -/
def lineEnding (text : Text) : Text :=
  if contains ['\r', '\n'] text then ['\r', '\n'] else ['\n']

/-- Whether the text ends in a line feed or a carriage return. -/
def endsLine (text : Text) : Bool :=
  match text.getLast? with
  | some c => c = '\n' || c = '\r'
  | none => false

end Text
end DependencyGate

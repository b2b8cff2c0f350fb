/-
# Terminal escapes

Printed lines carry no commands to a terminal. A command is an escape character
and a bracket, then parameters, then intermediate characters, both possibly none,
and a final character. The three classes are disjoint stretches of the printable
characters, so a command has only one end. Other escapes are kept.
-/

import DependencyGate.Text.Basic

namespace DependencyGate.Text

/-- Whether a character can be a parameter of a terminal command. -/
def isCommandParameter (c : Char) : Bool := '0' ≤ c && c ≤ '?'

/-- Whether a character can stand between the parameters and the final character
of a terminal command. -/
def isCommandIntermediate (c : Char) : Bool := ' ' ≤ c && c ≤ '/'

/-- Whether a character can end a terminal command. -/
def isCommandFinal (c : Char) : Bool := '@' ≤ c && c ≤ '~'

/-- What follows a terminal command whose beginning, up to the bracket, has been
read. -/
def afterCommand? (text : Text) : Option Text :=
  match (text.dropWhile isCommandParameter).dropWhile isCommandIntermediate with
  | [] => none
  | c :: rest => if isCommandFinal c then some rest else none

theorem afterCommand?_length {text rest : Text} (ended : afterCommand? text = some rest) :
    rest.length < text.length := by
  have shorter :=
    ((List.dropWhile_suffix isCommandIntermediate).trans
      (List.dropWhile_suffix isCommandParameter (l := text))).length_le
  unfold afterCommand? at ended
  split at ended
  · simp at ended
  · next c after split =>
      split at ended
      · obtain rfl := Option.some.inj ended
        rw [split, List.length_cons] at shorter
        omega
      · simp at ended

/-- The text without terminal commands. -/
def withoutCommands : Text → Text
  | '\x1b' :: '[' :: rest =>
      match _ended : afterCommand? rest with
      | some after => withoutCommands after
      | none => '\x1b' :: withoutCommands ('[' :: rest)
  | c :: rest => c :: withoutCommands rest
  | [] => []
termination_by text => text.length
decreasing_by
  · have := afterCommand?_length _ended
    simp only [List.length_cons]
    omega
  · simp
  · simp

end DependencyGate.Text

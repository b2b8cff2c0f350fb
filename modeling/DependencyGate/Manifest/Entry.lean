/-
# Entries of a field

The body of a field lists entries between commas. An entry is a package name with
an optional version constraint in parentheses, and a constraint may contain
commas. Editors divide a body at the commas outside parentheses, which keeps each
entry as it was written; a reader deletes the constraints first.
-/

import DependencyGate.Text.Blank

namespace DependencyGate.Manifest

/-- The pieces between the commas outside parentheses, for a text that is preceded
by `depth` open parentheses. A closing parenthesis without partner changes
nothing. -/
def splitEntriesAt (depth : Nat) : Text → List Text
  | [] => [[]]
  | c :: rest =>
      if c = '(' then Text.consFirst c (splitEntriesAt (depth + 1) rest)
      else if c = ')' then Text.consFirst c (splitEntriesAt (depth - 1) rest)
      else if c = ',' && depth = 0 then [] :: splitEntriesAt 0 rest
      else Text.consFirst c (splitEntriesAt depth rest)

/-- The entries of a body, each with the blanks around it. -/
def splitEntries (body : Text) : List Text := splitEntriesAt 0 body

/-- Deletes constraints from the rest of a text; `inside` says whether it begins
within one. -/
def stripConstraintsFrom (inside : Bool) : Text → Text
  | [] => []
  | c :: rest =>
      if inside then stripConstraintsFrom (c != ')') rest
      else if c = '(' && rest.elem ')' then stripConstraintsFrom true rest
      else c :: stripConstraintsFrom false rest

/-- Deletes every constraint: from an opening parenthesis up to the next closing
one. An opening parenthesis that nothing closes stays. -/
def stripConstraints (text : Text) : Text := stripConstraintsFrom false text

/-- The package name of an entry. -/
def entryName (entry : Text) : Text :=
  Text.trim (Text.collapseBlanks (stripConstraints entry))

end DependencyGate.Manifest

/-
# Package names

A package name is an ASCII letter followed by at least one letter, digit or dot,
and does not end in a dot. What a scan finds is wider than that, so the names that
count as used packages are selected here.
-/

import DependencyGate.Canonical
import DependencyGate.Text.Basic

namespace DependencyGate.PackageName

/-- The characters that may follow the first letter of a name. -/
def isNameChar (c : Char) : Bool := c.isAlphanum || c = '.'

/-- Whether a text is a package name. -/
def isValid : Text → Bool
  | first :: second :: rest =>
      first.isAlpha && (second :: rest).all isNameChar
        && (second :: rest).getLast? != some '.'
  | _ => false

/-- The package names among some references, in canonical order, without the
excluded ones. An empty text excludes nothing. -/
def select (references excluded alsoExcluded : List Text) : List Text :=
  canonical <| references.filter fun reference =>
    isValid reference && reference ∉ excluded && reference ∉ alsoExcluded

end DependencyGate.PackageName

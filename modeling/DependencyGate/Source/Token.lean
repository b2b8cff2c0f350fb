/-
# Package references in a line of source

Four patterns reference a package: a library call, a namespace access, and the
roxygen tags for importing some or all of a package. Each is a small recogniser; a
line is searched for each of them from left to right. No two matches of one pattern
can overlap, so every position of a line may be tried on its own.
-/

import DependencyGate.PackageName
import DependencyGate.Text.Blank
import DependencyGate.Text.Line

namespace DependencyGate.Source

/-- How a package is referenced. -/
inductive Pattern
  | libraryCall
  | namespaceAccess
  | importFrom
  | importAll
deriving DecidableEq

/-- The name of a pattern. -/
def Pattern.name : Pattern → Text
  | .libraryCall => "library-call"
  | .namespaceAccess => "namespace"
  | .importFrom => "import-from"
  | .importAll => "import"

/-- A reference: the package name as written, its pattern and its line, counted
from one. -/
structure Token where
  name : Text
  pattern : Pattern
  line : Nat
deriving DecidableEq

/-- What follows the given beginning of a text. -/
def after? (start text : Text) : Option Text :=
  if start.isPrefixOf text then some (text.drop start.length) else none

/-- Passes over one quote, if there is one. -/
def skipQuote : Text → Text
  | '"' :: rest => rest
  | '\'' :: rest => rest
  | text => text

/-- The package name at the front of a text, and what follows it. -/
def takeName? : Text → Option (Text × Text)
  | [] => none
  | c :: rest =>
      if c.isAlpha then
        some (c :: rest.takeWhile PackageName.isNameChar,
          rest.dropWhile PackageName.isNameChar)
      else none

/-- The package that a library call at the front of a text attaches. The closing
parenthesis is required. -/
def libraryCall? (text : Text) : Option Text := do
  let called ← after? "library" text <|> after? "require" text
  let argument ← after? ['('] (Text.trimStart called)
  let (name, rest) ← takeName? (skipQuote (Text.trimStart argument))
  let _ ← after? [')'] (Text.trimStart (skipQuote rest))
  return name

/-- The package in a roxygen tag at the front of a text. -/
def roxygenTag? (tag text : Text) : Option Text := do
  let comment ← after? ['#', '\''] text
  let tagged ← after? tag (Text.trimStart comment)
  let named := Text.trimStart tagged
  if named.length = tagged.length then none
  else
    let (name, _) ← takeName? named
    return name

/-- Tries a recogniser at every position of a text. -/
def matchesIn (recognise : Text → Option Text) : Text → List Text
  | [] => []
  | c :: rest => (recognise (c :: rest)).toList ++ matchesIn recognise rest

/-- The packages whose namespaces a text accesses: each longest run of name
characters that two colons follow, from its first letter on. -/
def namespacesIn : Text → List Text
  | [] => []
  | c :: rest =>
      if PackageName.isNameChar c then
        let run := c :: rest.takeWhile PackageName.isNameChar
        let behind := rest.dropWhile PackageName.isNameChar
        let name := run.dropWhile (!·.isAlpha)
        let found := if [':', ':'].isPrefixOf behind && !name.isEmpty then [name] else []
        found ++ namespacesIn behind
      else namespacesIn rest
termination_by text => text.length
decreasing_by
  · have := (List.dropWhile_suffix PackageName.isNameChar (l := rest)).length_le
    simp only [List.length_cons]
    omega
  · simp

/-- The packages that a line references by one pattern, from left to right. -/
def Pattern.namesIn : Pattern → Text → List Text
  | .libraryCall => matchesIn libraryCall?
  | .namespaceAccess => namespacesIn
  | .importFrom => matchesIn (roxygenTag? "@importFrom")
  | .importAll => matchesIn (roxygenTag? "@import")

/-- The patterns in the order in which a line is searched for them. -/
def Pattern.all : List Pattern := [.libraryCall, .namespaceAccess, .importFrom, .importAll]

/-- The references in one line. -/
def tokensOfLine (number : Nat) (line : Text) : List Token :=
  Pattern.all.flatMap fun pattern =>
    (pattern.namesIn line).map fun name => ⟨name, pattern, number⟩

/-- The references in a text. -/
def tokens (text : Text) : List Token :=
  (text.lines.zipIdx 1).flatMap fun (line, number) => tokensOfLine number line.body

end DependencyGate.Source

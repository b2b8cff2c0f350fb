/-
# Kinds of source files

Four kinds of files can reference packages. A file's kind is recognised by its
suffix, in upper or lower case.
-/

import DependencyGate.Path
import DependencyGate.Text.Lowercase

namespace DependencyGate.Source

/-- A kind of source file. -/
inductive Kind
  | script
  | markdown
  | quarto
  | sweave
deriving DecidableEq

namespace Kind

/-- Every kind. -/
def all : List Kind := [.script, .markdown, .quarto, .sweave]

/-- The short name of a kind. -/
def name : Kind → Text
  | .script => "R"
  | .markdown => "RMD"
  | .quarto => "QMD"
  | .sweave => "RNW"

/-- The suffix of a kind, in lower case. -/
def suffix : Kind → Text
  | .script => ".r"
  | .markdown => ".rmd"
  | .quarto => ".qmd"
  | .sweave => ".rnw"

/-- The kind of the file at a path. -/
def ofPath? (path : Path) : Option Kind :=
  all.find? (·.suffix = Text.lower path.suffix)

end Kind
end DependencyGate.Source

/-
# What a manifest declares

The reader's view of a manifest: the package it describes and the names that its
two dependency fields list. It joins the lines of a field by spaces, deletes the
constraints and divides the rest at every comma, so a constraint may spread over
several lines.
-/

import DependencyGate.Canonical
import DependencyGate.Manifest.Entry
import DependencyGate.Manifest.Field

namespace DependencyGate.Manifest

/-- The bodies of the lines that make up a field, its opening line first; empty if
the field is absent. -/
def linesOfField (header : Text) (lines : List Text) : List Text :=
  match lines.dropWhile (!header.isPrefixOf ·) with
  | [] => []
  | opening :: rest => opening :: (rest.takeWhile (!opensField ·)).filter continuesField

/-- The package names that a field lists, in canonical order. -/
def declaredNames (text : Text) (field : Field) : List Text :=
  match linesOfField field.header (text.lines.map Line.body) with
  | [] => []
  | lines =>
      let body := (List.intercalate [' '] lines).drop field.header.length
      canonical <|
        ((Text.splitAtChar ',' (stripConstraints body)).map entryName).filter (!·.isEmpty)

/-- The value on the first line that opens the field `name`, if it is not blank. -/
def scalarValue? (name : Text) (lines : List Text) : Option Text :=
  let header := name ++ [':']
  match lines.find? (header.isPrefixOf ·) with
  | none => none
  | some line =>
      match Text.trim (line.drop header.length) with
      | [] => none
      | value => some value

/-- What is known of a manifest. -/
structure Declared where
  package : Option Text
  required : List Text
  optional : List Text
  found : Bool

/-- What is known of a manifest that does not exist. -/
def Declared.absent : Declared := ⟨none, [], [], false⟩

/-- What the text of a manifest declares. -/
def Declared.ofText (text : Text) : Declared where
  package := scalarValue? "Package" (text.lines.map Line.body)
  required := declaredNames text .required
  optional := declaredNames text .optional
  found := true

end DependencyGate.Manifest

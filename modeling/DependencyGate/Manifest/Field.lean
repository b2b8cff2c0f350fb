/-
# Fields of a manifest

A field is opened by a line that starts with its name and a colon at column zero.
Lines that start with a blank continue it, and the first line that starts with an
uppercase character opens the next field. A line that does neither is stray: it
lies within the field's block and belongs to no entry.

This module finds the block of a field and divides a manifest into the lines
before it, its own text, its stray lines and the lines after it.
-/

import DependencyGate.Text.Blank
import DependencyGate.Text.Line
import DependencyGate.Text.Uppercase

namespace DependencyGate.Manifest

/-- The manifest fields that list packages. -/
inductive Field
  | required
  | optional
deriving DecidableEq

/-- The name of a field. -/
def Field.name : Field → Text
  | .required => "Imports"
  | .optional => "Suggests"

/-- The text with which a field's first line starts. -/
def Field.header (field : Field) : Text := field.name ++ [':']

/-- Whether a line continues the field above it: without the line feeds and
carriage returns at its end, it starts with a blank. -/
def continuesField (line : Text) : Bool :=
  match line with
  | [] => false
  | first :: _ => Text.isBlank first && line.any fun c => c != '\n' && c != '\r'

/-- Whether a line opens a field. -/
def opensField (line : Text) : Bool := line.head?.any Text.isUppercase

/-- A manifest divided at the block of one field. -/
structure Block where
  before : List Line
  opening : Line
  inner : List Line
  after : List Line

/-- The first block whose opening line starts with `header`. -/
def Block.find? (header : Text) : List Line → Option Block
  | [] => none
  | line :: rest =>
      if header.isPrefixOf line.full then
        some {
          before := []
          opening := line
          inner := rest.takeWhile fun next => !opensField next.full
          after := rest.dropWhile fun next => !opensField next.full }
      else (Block.find? header rest).map fun block =>
        { block with before := line :: block.before }

/-- The lines of a manifest before the block, as text. -/
def Block.beforeText (block : Block) : Text := block.before.flatMap Line.full

/-- The lines of a manifest after the block, as text. -/
def Block.afterText (block : Block) : Text := block.after.flatMap Line.full

/-- The field's own text: its opening line and the lines that continue it. -/
def Block.own (block : Block) : Text :=
  block.opening.full ++ (block.inner.filter (continuesField ·.full)).flatMap Line.full

/-- The lines of the block that are no part of the field. -/
def Block.stray (block : Block) : List Line :=
  block.inner.filter (!continuesField ·.full)

/-- The stray lines as text. -/
def Block.strayText (block : Block) : Text := block.stray.flatMap Line.full

/-- The number of lines before the block. -/
def Block.firstLine (block : Block) : Nat := block.before.length

/-- The number of lines up to the end of the block. -/
def Block.endLine (block : Block) : Nat := block.before.length + 1 + block.inner.length

end DependencyGate.Manifest

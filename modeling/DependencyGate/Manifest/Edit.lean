/-
# Editing a field

Two edits of a manifest's text: removing entries from the required field, and
adding entries to either field. Both replace the block of the field and leave the
lines before and after it as they are. Entries that stay keep their spelling;
stray lines move behind the field.
-/

import DependencyGate.Manifest.Declared

namespace DependencyGate.Manifest

/-- The manifest with the block replaced by `rebuilt`. -/
def Block.replaceWith (block : Block) (rebuilt : Text) : Text :=
  block.beforeText ++ rebuilt ++ block.afterText

/-- The text of a field after its header, without trailing blanks. -/
def Block.entriesText (block : Block) (header : Text) : Text :=
  Text.trimEnd (block.own.drop header.length)

/-- The blanks at the end of a field. -/
def Block.tail (block : Block) (header : Text) : Text :=
  Text.trailingBlanks (block.own.drop header.length)

/-- Puts stray lines behind a rebuilt field, on a line of their own. -/
def appendStray (ending rebuilt stray : Text) : Text :=
  if stray.isEmpty then rebuilt
  else if rebuilt.endsLine then rebuilt ++ stray
  else rebuilt ++ ending ++ stray

/-- Removes the entries with the given names from the required field. Returns the
text and the names that had an entry. -/
def removeEntries (text : Text) (names : List Text) : Text × List Text :=
  let header := Field.required.header
  match Block.find? header text.lines with
  | none => (text, [])
  | some block =>
      let entries := splitEntries (block.entriesText header)
      let removed := (entries.map entryName).filter (· ∈ names)
      if removed.isEmpty then (text, [])
      else
        let kept := entries.filter (entryName · ∉ names)
        let rebuilt := header ++ List.intercalate [','] kept ++ block.tail header
        (block.replaceWith (appendStray (Text.lineEnding text) rebuilt block.strayText),
          canonical removed)

/-- The declared names that are neither used nor protected. -/
def unusedNames (declared used kept : List Text) : List Text :=
  canonical (without (without declared used) kept)

/-- Removes the entries of the required field that are neither used nor
protected. -/
def prune (text : Text) (declared used kept : List Text) : Text :=
  match unusedNames declared used kept with
  | [] => text
  | unused => (removeEntries text unused).1

/-- A line break, the indentation of an added entry and its name. -/
def addedEntry (ending name : Text) : Text := ending ++ [' ', ' ', ' ', ' '] ++ name

/-- Adds the names that a field does not list yet, one to a line. A missing field
is opened at the end of the manifest. -/
def addEntries (text : Text) (field : Field) (names : List Text) : Text :=
  let header := field.header
  let ending := Text.lineEnding text
  match Block.find? header text.lines with
  | none =>
      match canonical names with
      | [] => text
      | added =>
          let start := if text.isEmpty || text.endsLine then text else text ++ ending
          start ++ header ++ List.intercalate [','] (added.map (addedEntry ending)) ++ ending
  | some block =>
      let entries := splitEntries (block.entriesText header)
      match (canonical names).filter (· ∉ entries.map entryName) with
      | [] => text
      | added =>
          let listed := entries.filter (!Text.isAllBlank ·)
          let tail := block.tail header
          let rebuilt :=
            header ++ List.intercalate [','] (listed ++ added.map (addedEntry ending))
              ++ (if tail.isEmpty then ending else tail) ++ block.strayText
          block.replaceWith rebuilt

end DependencyGate.Manifest

/-
# Lines among broken bytes

What stands around a line of a file, be it ill-formed, has no part in the references of that line.
Bytes between two line feeds are decoded by themselves (`lines_decodeLossy_between`), and the
references that carry the number of a line are those found in its body (`filter_tokens`). So a scan
finds in a line what it would find if the line were the whole text.
-/

import DependencyGate.Proofs.Source.Reached
import DependencyGate.Proofs.Text.Line
import DependencyGate.Proofs.Utf8.Lossy

namespace DependencyGate

open Text (isLineBreak)

variable {text line : Text} {number : Nat}

/-! ## Decoded lines -/

namespace Utf8

theorem decodeLossy_feed (rest : List UInt8) :
    decodeLossy (0x0A :: rest) = '\n' :: decodeLossy rest :=
  decodeLossy_encode_append ['\n'] rest

/-- A line between line feeds is a line of the decoded text, whatever stands around it. -/
theorem lines_decodeLossy_between (unbroken : ∀ c ∈ line, isLineBreak c = false)
    (front back : List UInt8) :
    (decodeLossy (front ++ 0x0A :: (encode line ++ 0x0A :: back))).lines =
      (decodeLossy (front ++ [0x0A])).lines ++ ⟨line, ['\n']⟩ :: (decodeLossy back).lines := by
  have feed : (0x0A : UInt8).toNat < 0x80 := by decide
  have terminated : (⟨line, ['\n']⟩ : Line).IsTerminated := ⟨unbroken, .inl rfl⟩
  have ended : (decodeLossy (front ++ [0x0A])).getLast? = some '\n' := by
    rw [decodeLossy_append feed, decodeLossy_feed, decodeLossy, List.getLast?_concat]
  have decoded : decodeLossy (front ++ 0x0A :: (encode line ++ 0x0A :: back)) =
      decodeLossy (front ++ [0x0A]) ++ ((⟨line, ['\n']⟩ : Line).full ++ decodeLossy back) := by
    rw [decodeLossy_append feed, decodeLossy_append feed, decodeLossy_feed, decodeLossy_feed,
      decodeLossy_encode_append, decodeLossy_feed, decodeLossy]
    simp [Line.full]
  rw [decoded, Text.lines_append (Text.endsBefore_of_getLast? ended _),
    Text.lines_append (Text.endsBefore_of_getLast?
      (Text.getLast?_full_of_terminated terminated) _),
    Text.lines_full_of_terminated terminated, List.singleton_append]

end Utf8

namespace Source

/-! ## References by line -/

theorem line_of_mem_tokensOfLine {token : Token} (found : token ∈ tokensOfLine number line) :
    token.line = number := by
  simp only [tokensOfLine, List.mem_flatMap, List.mem_map] at found
  obtain ⟨_, -, _, -, rfl⟩ := found
  rfl

/-- Which references a line has does not hang on its number. -/
theorem map_tokensOfLine (number other : Nat) (line : Text) :
    (tokensOfLine other line).map ({ · with line := number }) = tokensOfLine number line := by
  simp only [tokensOfLine, List.map_flatMap, List.map_map]
  rfl

theorem filter_tokensOfLine_self :
    (tokensOfLine number line).filter (·.line = number) = tokensOfLine number line := by
  rw [List.filter_eq_self]
  intro token found
  simpa using line_of_mem_tokensOfLine found

/-- Lines with other numbers have no reference with this one. -/
theorem filter_flatMap_tokensOfLine_eq_nil {numbered : List (Line × Nat)}
    (apart : ∀ entry ∈ numbered, entry.2 ≠ number) :
    (numbered.flatMap fun (line, other) => tokensOfLine other line.body).filter
      (·.line = number) = [] := by
  rw [List.filter_eq_nil_iff]
  intro token found
  obtain ⟨entry, listed, inLine⟩ := List.mem_flatMap.mp found
  rw [line_of_mem_tokensOfLine inLine]
  simpa using apart entry listed

/-- The references that carry the number of a line are those found in that line. -/
theorem filter_tokens {front back : List Line} {found : Line}
    (split : text.lines = front ++ found :: back) :
    (tokens text).filter (·.line = front.length + 1) =
      tokensOfLine (front.length + 1) found.body := by
  have before : ∀ entry ∈ front.zipIdx 1, entry.2 ≠ front.length + 1 := by
    intro entry listed
    have := List.snd_lt_add_of_mem_zipIdx listed
    omega
  have behind : ∀ entry ∈ back.zipIdx (1 + front.length + 1), entry.2 ≠ front.length + 1 := by
    intro entry listed
    have := List.le_snd_of_mem_zipIdx listed
    omega
  rw [tokens, split, List.zipIdx_append, List.zipIdx_cons, List.flatMap_append,
    List.flatMap_cons, List.filter_append, List.filter_append,
    filter_flatMap_tokensOfLine_eq_nil before, filter_flatMap_tokensOfLine_eq_nil behind,
    List.nil_append, List.append_nil, Nat.add_comm 1, filter_tokensOfLine_self]

/-- The references of a text without breaks are those of one line. -/
theorem tokens_of_unbroken (unbroken : ∀ c ∈ line, isLineBreak c = false) :
    tokens line = tokensOfLine 1 line := by
  cases line with
  | nil => decide +kernel
  | cons c rest =>
      rw [tokens, Text.lines_of_unbroken unbroken (List.cons_ne_nil c rest)]
      simp

/-- The references of a line between line feeds, in a text read from bytes. -/
theorem filter_tokens_between (unbroken : ∀ c ∈ line, isLineBreak c = false)
    {front back : List UInt8}
    (counted : number = (Utf8.decodeLossy (front ++ [0x0A])).unifyLineEndings.lines.length + 1) :
    (tokens (Utf8.decodeLossy
        (front ++ 0x0A :: (Utf8.encode line ++ 0x0A :: back))).unifyLineEndings).filter
          (·.line = number) =
      (tokens line).map ({ · with line := number }) := by
  have split := Utf8.lines_decodeLossy_between unbroken front back
  have unified := Text.lines_unifyLineEndings
    (Utf8.decodeLossy (front ++ 0x0A :: (Utf8.encode line ++ 0x0A :: back)))
  rw [split, List.map_append, List.map_cons, ← Text.lines_unifyLineEndings] at unified
  rw [counted, filter_tokens unified, tokens_of_unbroken unbroken, map_tokensOfLine]
  rfl

/-! ## References by file -/

variable {tree : FileTree} {room : Nat} {project path : Path} {roots : List Text} {kind : Kind}
  {kinds : List Kind}

theorem readFile_of_read {bytes : List UInt8} (held : tree.read path = .ok bytes) (kind : Kind) :
    readFile tree (path, kind) =
      .ok ⟨path, kind, (Utf8.decodeLossy bytes).unifyLineEndings⟩ := by
  rw [readFile, held]

theorem path_of_readFile {found : Path × Kind} {file : File}
    (read : readFile tree found = .ok file) : file.path = found.1 := by
  rw [readFile] at read
  split at read
  · cases read
  · cases read
    rfl

theorem filter_references_self (file : File) :
    file.references.filter (·.path = file.path) = file.references := by
  rw [List.filter_eq_self]
  intro reference held
  obtain ⟨token, -, rfl⟩ := List.mem_map.mp held
  exact decide_eq_true rfl

/-- Files with other paths have no reference with this one. -/
theorem filter_references_eq_nil {found : List (Path × Kind)} (apart : path ∉ found.map Prod.fst) :
    ((readableFiles tree found).flatMap File.references).filter (·.path = path) = [] := by
  rw [List.filter_eq_nil_iff]
  intro reference held
  obtain ⟨file, readable, inFile⟩ := List.mem_flatMap.mp held
  obtain ⟨token, -, rfl⟩ := List.mem_map.mp inFile
  obtain ⟨other, listed, read⟩ := List.mem_filterMap.mp readable
  cases outcome : readFile tree other with
  | error error => simp [outcome, Except.toOption] at read
  | ok opened =>
      rw [outcome] at read
      obtain rfl := Option.some.inj read
      simp only [decide_eq_true_eq, path_of_readFile outcome]
      rintro rfl
      exact apart (List.mem_map_of_mem listed)

/-- If no path is found twice, the references that carry a path are those of its file. -/
theorem filter_references_of_nodup {found : List (Path × Kind)} {file : File}
    (once : (found.map Prod.fst).Nodup) (listed : (path, kind) ∈ found)
    (read : readFile tree (path, kind) = .ok file) :
    ((readableFiles tree found).flatMap File.references).filter (·.path = path) =
      file.references := by
  obtain ⟨front, back, rfl⟩ := List.append_of_mem listed
  rw [List.map_append, List.map_cons, List.nodup_middle, List.nodup_cons, List.mem_append,
    not_or] at once
  obtain ⟨⟨before, behind⟩, -⟩ := once
  have readable : readableFiles tree (front ++ (path, kind) :: back) =
      readableFiles tree front ++ file :: readableFiles tree back := by
    rw [readableFiles, List.filterMap_append, List.filterMap_cons, read]
    rfl
  rw [readable, List.flatMap_append, List.flatMap_cons, List.filter_append, List.filter_append,
    filter_references_eq_nil before, filter_references_eq_nil behind, List.nil_append,
    List.append_nil]
  have same : file.path = path := path_of_readFile read
  rw [← same, filter_references_self]

/-- Broken bytes hide no reference. Let a line without breaks stand between two line feeds in
a source file that a search finds. Whatever bytes stand in front of it and behind it, also if they
are ill-formed or end within a character, a scan finds in it the references that the line has by
itself, in the same order. Its number is one more than the number of lines in front of it. -/
theorem references_of_line
    (found : (path, kind) ∈ (discover tree room project roots kinds).found)
    (unbroken : ∀ c ∈ line, isLineBreak c = false) {front back : List UInt8}
    (held : tree.read path = .ok (front ++ 0x0A :: (Utf8.encode line ++ 0x0A :: back)))
    (counted : number = (Utf8.decodeLossy (front ++ [0x0A])).unifyLineEndings.lines.length + 1) :
    (((scan tree room project roots kinds).references.filter fun reference =>
        reference.path = path ∧ reference.token.line = number).map Reference.token) =
      (tokens line).map ({ · with line := number }) := by
  have inFile : (scan tree room project roots kinds).references.filter (·.path = path) =
      (tokens (Utf8.decodeLossy
        (front ++ 0x0A :: (Utf8.encode line ++ 0x0A :: back))).unifyLineEndings).map
          (⟨path, ·⟩) := by
    rw [references_scan]
    exact filter_references_of_nodup nodup_found found (readFile_of_read held kind)
  have both : ((scan tree room project roots kinds).references.filter fun reference =>
        reference.path = path ∧ reference.token.line = number) =
      ((scan tree room project roots kinds).references.filter (·.path = path)).filter
        (·.token.line = number) := by
    rw [List.filter_filter]
    simp only [Bool.decide_and, Bool.and_comm]
  rw [both, inFile, List.filter_map, List.map_map, ← filter_tokens_between unbroken counted]
  exact List.map_id _

/-- Bytes that are no text, and that end within a character. -/
def brokenFront : List UInt8 := [0x80, 0x0D, 0x0A, 0x23, 0xE2, 0x82]

/-- A project with one source file, which is broken on both sides of a line. -/
def brokenProject : FileTree :=
  ⟨[(["R"], .directory 0o755), (["R", "model.R"], .file 0o644
    (brokenFront ++ 0x0A :: (Utf8.encode "library(here)" ++ 0x0A :: [0xFF, 0x28, 0xC3])))]⟩

/-- The reference is found in the third line. -/
theorem brokenProject_references :
    (.anchored ["R", "model.R"], .script) ∈
        (discover brokenProject Headroom.usual.directories (.anchored []) ["R"] Kind.all).found ∧
      (((scan brokenProject Headroom.usual.directories (.anchored []) ["R"]
          Kind.all).references.filter fun reference =>
        reference.path = .anchored ["R", "model.R"] ∧ reference.token.line = 3).map
          Reference.token) = [⟨"here", .libraryCall, 3⟩] := by
  have found : (.anchored ["R", "model.R"], .script) ∈
      (discover brokenProject Headroom.usual.directories (.anchored []) ["R"] Kind.all).found := by
    have listing : (discover brokenProject Headroom.usual.directories (.anchored []) ["R"]
        Kind.all).found = [(.anchored ["R", "model.R"], .script)] := rfl
    rw [listing]
    exact List.mem_singleton_self _
  have unbroken : ∀ c ∈ ("library(here)" : Text), isLineBreak c = false :=
    Text.unbroken_of_all rfl
  have held : brokenProject.read (.anchored ["R", "model.R"]) = .ok
      (brokenFront ++ 0x0A :: (Utf8.encode "library(here)" ++ 0x0A :: [0xFF, 0x28, 0xC3])) := by
    rfl
  have counted : 3 =
      (Utf8.decodeLossy (brokenFront ++ [0x0A])).unifyLineEndings.lines.length + 1 := by
    decide +kernel
  refine ⟨found, (references_of_line found unbroken held counted).trans ?_⟩
  decide +kernel

end Source
end DependencyGate

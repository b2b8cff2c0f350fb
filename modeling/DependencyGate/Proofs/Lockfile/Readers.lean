/-
# Readers agree

A reader of JSON and a query tool find the same packages in a lockfile if the tool answers the
question: it lists the names that the lockfile records, in any order and as often as it likes
(`readers_agree`). A list of lines can tell names that fill a line (`Text.FillsLine`); of others, a
blank at the end of one or a break in it would be lost.

What the tool writes to its other channel is read as well, even if it succeeds. If that is no
text, asking the tool ends in a failure, although it has answered (`garblingTool_fails`).
-/

import DependencyGate.Proofs.Lockfile.Locked
import Mathlib.Tactic.Tauto

namespace DependencyGate

/-! ## Names on lines -/

namespace Text

/-- Whether a text can be told from a line that holds it, without regard to the blanks around. -/
structure FillsLine (text : Text) : Prop where
  present : text ≠ []
  trimmed : text.trim = text
  unbroken : ∀ c ∈ text, isLineBreak c = false

/-- Texts, each on a line of its own. -/
def onLines (texts : List Text) : Text := texts.flatMap (· ++ ['\n'])

variable {texts : List Text}

theorem lines_onLines (unbroken : ∀ text ∈ texts, ∀ c ∈ text, isLineBreak c = false) :
    lines (onLines texts) = texts.map (⟨·, ['\n']⟩) := by
  have terminated : ∀ line ∈ texts.map (⟨·, ['\n']⟩ : Text → Line), line.IsTerminated := by
    intro line listed
    obtain ⟨text, member, rfl⟩ := List.mem_map.mp listed
    exact ⟨unbroken text member, .inl rfl⟩
  rw [← lines_flatMap_full_of_terminated terminated, List.flatMap_map]
  rfl

theorem return_not_mem_onLines (unbroken : ∀ text ∈ texts, ∀ c ∈ text, isLineBreak c = false) :
    '\r' ∉ onLines texts := by
  intro listed
  obtain ⟨text, member, held⟩ := List.mem_flatMap.mp listed
  rcases List.mem_append.mp held with inside | behind
  · exact absurd (unbroken text member '\r' inside) (by decide)
  · exact absurd (List.mem_singleton.mp behind) (by decide)

end Text

namespace Lockfile

open DependencyGate.Action (runFrom)
open Text (FillsLine)

variable {tree : FileTree} {path : Path} {names printed : List Text} {session : Session}
  {reader : Reader} {depth : Nat} {packages : List WideText} {tool : Tool}

/-! ## What is read -/

/-- Whether the lockfile at a path is a JSON object that records packages of exactly the given
names, as a reader sees it that takes values up to a depth. -/
def Records (depth : Nat) (tree : FileTree) (path : Path) (names : List Text) : Prop :=
  ∃ bytes text members packages, tree.read path = .ok bytes ∧ Utf8.decode bytes = .ok text ∧
    Json.parse depth text.unifyLineEndings = .ok (.object members) ∧
    Json.member? (Text.widen "Packages") members = some (.object packages) ∧
    ∀ name, name ∈ packages.map (·.1) ↔ name ∈ names.map Text.widen

/-- The names of the packages that a text records if it is read as a lockfile. -/
def packageNames? (depth : Nat) (text : Text) : Option (List WideText) :=
  match Json.parse depth text.unifyLineEndings with
  | .ok (.object members) =>
      match Json.member? (Text.widen "Packages") members with
      | some (.object packages) => some (packages.map (·.1))
      | _ => none
  | _ => none

theorem records_of_packageNames? {text : Text} {listed : List WideText}
    (read : tree.read path = .ok (Utf8.encode text))
    (found : packageNames? depth text = some listed)
    (same : ∀ name, name ∈ listed ↔ name ∈ names.map Text.widen) :
    Records depth tree path names := by
  rw [packageNames?] at found
  split at found
  case h_2 => cases found
  case h_1 members parsed =>
    split at found
    case h_2 => cases found
    case h_1 packages recorded =>
      obtain rfl := Option.some.inj found
      exact ⟨_, text, members, packages, read, Utf8.decode_encode text, parsed, recorded, same⟩

/-- Whether a tool succeeds and lists exactly the given names, one to a line. -/
def ToolOutput.Lists (answer : ToolOutput) (names : List Text) : Prop :=
  ∃ printed, answer.output = Utf8.encode (Text.onLines printed) ∧
    (∀ name, name ∈ printed ↔ name ∈ names) ∧ answer.status = 0

theorem memberNames_eq {members : List (WideText × Json)}
    (same : ∀ name, name ∈ members.map (·.1) ↔ name ∈ names.map Text.widen)
    (fills : ∀ name ∈ names, FillsLine name) :
    memberNames members = canonical (names.map Text.widen) := by
  refine canonical_congr fun name => ?_
  rw [List.mem_filter, same]
  refine ⟨And.left, fun listed => ⟨listed, ?_⟩⟩
  obtain ⟨text, member, rfl⟩ := List.mem_map.mp listed
  have present : text.widen ≠ [] := mt Text.widen_eq_nil_iff.mp (fills text member).present
  simpa using present

theorem listedNames_onLines (fills : ∀ name ∈ printed, FillsLine name) :
    listedNames (Text.onLines printed) = canonical (printed.map Text.widen) := by
  have bodies : (printed.map (⟨·, ['\n']⟩ : Text → Line)).map (·.body.trim) = printed := by
    rw [List.map_map]
    exact (List.map_congr_left fun name listed => (fills name listed).trimmed).trans
      (List.map_id printed)
  have kept : printed.filter (!·.isEmpty) = printed := by
    rw [List.filter_eq_self]
    intro name listed
    simpa using (fills name listed).present
  rw [listedNames, Text.lines_onLines fun name listed => (fills name listed).unbroken, bodies, kept]

/-- The reader of JSON finds the recorded names. -/
theorem packages_json (records : Records depth tree path names)
    (fills : ∀ name ∈ names, FillsLine name) (installed : Option Tool) :
    (Reader.json depth).packages tree installed path =
      .ok (canonical (names.map Text.widen)) := by
  obtain ⟨bytes, text, members, packages, read, decoded, parsed, recorded, same⟩ := records
  rw [Reader.packages, readJson, read]
  simp only [decoded, packagesOfText, parsed, recordedPackages, recorded,
    memberNames_eq same fills]

/-- The query tool's reader finds the listed names, if what else the tool wrote is a text. -/
theorem packages_query {errors : Text} (lists : tool.answer.Lists names)
    (fills : ∀ name ∈ names, FillsLine name)
    (decoded : Utf8.decode tool.answer.errors = .ok errors) :
    (Reader.query tool.executable).packages tree (some tool) path =
      .ok (canonical (names.map Text.widen)) := by
  obtain ⟨printed, output, same, succeeded⟩ := lists
  have fillsToo : ∀ name ∈ printed, FillsLine name := fun name listed =>
    fills name ((same name).mp listed)
  have plain : '\r' ∉ Text.onLines printed :=
    Text.return_not_mem_onLines fun name listed => (fillsToo name listed).unbroken
  rw [packages_installed]
  simp only [interpretAnswer, output, Utf8.decode_encode, decoded, succeeded, if_true,
    Text.unifyLineEndings_eq_self plain, listedNames_onLines fillsToo]
  refine congrArg _ (canonical_congr fun name => ?_)
  simp only [List.mem_map, same]

/-- Otherwise it fails, whatever the tool has listed. -/
theorem packages_query_of_undecodable {broken : Utf8.DecodeError}
    (lists : tool.answer.Lists names)
    (undecodable : Utf8.decode tool.answer.errors = .error broken) :
    (Reader.query tool.executable).packages tree (some tool) path =
      .error (.undecodableAnswer broken) := by
  obtain ⟨printed, output, -, -⟩ := lists
  rw [packages_installed]
  simp only [interpretAnswer, output, Utf8.decode_encode, undecodable]

/-! ## What is given -/

/-- Whether reading a lockfile ends in some way, and reading it as an advice does so too. -/
structure EndsIn (session : Session) (reader : Reader) (path : Path)
    (outcome : Except Failure (List WideText)) : Prop where
  read : (runFrom session (read reader path)).1 = outcome
  locked : (runFrom session (locked reader path)).1 = outcome

theorem endsIn_of_packages_eq_ok (file : session.tree.isFile path = .ok true)
    (found : reader.packages session.tree session.tool path = .ok packages) :
    EndsIn session reader path (.ok packages) where
  read := by
    rw [Lockfile.read]
    simp only [Action.runFrom_bind, Action.runFrom_note, Action.runFrom_get, found,
      Action.ofExcept, Action.runFrom_pure]
  locked := by
    obtain ⟨others, event, finished, advises⟩ := locked_returns_of_faults reader file
      fun error failed => by simp [found] at failed
    cases advises with
    | parsed foundToo =>
        rw [finished]
        exact congrArg _ (Except.ok.inj (foundToo.symm.trans found))
    | unreadable failed => simp [found] at failed

theorem endsIn_of_packages_eq_error {error : ReadError}
    (file : session.tree.isFile path = .ok true)
    (failed : reader.packages session.tree session.tool path = .error error)
    (other : ∀ fault, error ≠ .fault fault) :
    EndsIn session reader path (.error (.lockfile path error)) where
  read := by
    rw [Lockfile.read]
    simp only [Action.runFrom_bind, Action.runFrom_note, Action.runFrom_get, failed,
      Action.ofExcept, Action.runFrom_throw]
  locked := by rw [locked_fails file failed other]

theorem Records.isFile (records : Records depth tree path names) :
    tree.isFile path = .ok true := by
  obtain ⟨bytes, _, _, _, read, -⟩ := records
  exact FileTree.isFile_of_read read

/-- Readers agree if a tool that answers writes nothing else but text. Let a lockfile record
packages of some names, each of which fills a line, and let the installed query tool list these
names, in any order and as often as it likes. Then the reader of JSON finds them in canonical
order, and they are the locked packages. The reader that asks the tool finds the same if what the
tool writes to its other channel is a text; if it is none, this reader ends in a failure, and the
run with it. -/
theorem readers_agree (fills : ∀ name ∈ names, FillsLine name)
    (records : Records depth session.tree path names) (installed : session.tool = some tool)
    (lists : tool.answer.Lists names) :
    EndsIn session (.json depth) path (.ok (canonical (names.map Text.widen))) ∧
      (∀ errors, Utf8.decode tool.answer.errors = .ok errors →
        EndsIn session (.query tool.executable) path
          (.ok (canonical (names.map Text.widen)))) ∧
      ∀ broken, Utf8.decode tool.answer.errors = .error broken →
        EndsIn session (.query tool.executable) path
          (.error (.lockfile path (.undecodableAnswer broken))) := by
  have file := records.isFile
  refine ⟨endsIn_of_packages_eq_ok file (packages_json records fills _), ?_, ?_⟩
  · intro errors decoded
    refine endsIn_of_packages_eq_ok file ?_
    rw [installed]
    exact packages_query lists fills decoded
  · intro broken undecodable
    refine endsIn_of_packages_eq_error file ?_ (by simp)
    rw [installed]
    exact packages_query_of_undecodable lists undecodable

/-- A lockfile with members of several sorts: a name that is not plain, one that occurs twice, and
values that are no packages. -/
def mixedLockfile : Text :=
  "\x7b\"R\": 4, \"Packages\": \x7b\"tidyr\": [1], \"d\\u00e9j\\u00e0 vu\": null, "
    ++ "\"tidyr\": \x7b\x7d\x7d\x7d"

/-- A tool that lists its names out of order and one of them twice. -/
def wordyTool : Tool :=
  ⟨"jq", Utf8.encode (Text.onLines ["tidyr", "déjà vu", "tidyr"]), Utf8.encode "note", 0⟩

/-- A project with that lockfile and that tool, before a run. -/
def mixedSession : Session :=
  .start (lockedProject (Utf8.encode mixedLockfile)) (some wordyTool)

/-- The packages of that lockfile. -/
def mixedPackages : List WideText := [Text.widen "déjà vu", Text.widen "tidyr"]

theorem mixedSession_readers_agree :
    EndsIn mixedSession usualReader rootLockfile (.ok mixedPackages) ∧
      EndsIn mixedSession (.query "jq") rootLockfile (.ok mixedPackages) := by
  have fills : ∀ name ∈ ([("tidyr" : Text), "déjà vu"] : List Text), FillsLine name := by
    simp only [List.forall_mem_cons]
    exact ⟨⟨by decide, by decide, Text.unbroken_of_all rfl⟩,
      ⟨by decide, by decide, Text.unbroken_of_all rfl⟩, by simp⟩
  have recorded : packageNames? Headroom.usual.values mixedLockfile =
      some [Text.widen "tidyr", Text.widen "déjà vu", Text.widen "tidyr"] := by
    decide +kernel
  have records : Records Headroom.usual.values mixedSession.tree rootLockfile
      ["tidyr", "déjà vu"] := by
    refine records_of_packageNames? (read_lockedProject _) recorded fun name => ?_
    simp only [List.map_cons, List.map_nil, List.mem_cons, List.not_mem_nil, or_false]
    tauto
  have lists : wordyTool.answer.Lists ["tidyr", "déjà vu"] := by
    refine ⟨["tidyr", "déjà vu", "tidyr"], rfl, fun name => ?_, rfl⟩
    simp only [List.mem_cons, List.not_mem_nil, or_false]
    tauto
  have order : canonical (([("tidyr" : Text), "déjà vu"] : List Text).map Text.widen) =
      mixedPackages := by decide
  obtain ⟨json, query, -⟩ := readers_agree fills records rfl lists
  rw [order] at json query
  exact ⟨json, query _ (Utf8.decode_encode _)⟩

/-! ## A tool that garbles its other channel -/

/-- A tool that lists its one name, and writes a byte besides that no text has. -/
def garblingTool : Tool := ⟨"jq", Utf8.encode (Text.onLines ["dplyr"]), [0xFF], 0⟩

/-- A lockfile that records a single package. -/
def singleLockfile : Text := "\x7b\"Packages\": \x7b\"dplyr\": \x7b\x7d\x7d\x7d"

/-- A project with that lockfile and that tool, before a run. -/
def garbledSession : Session :=
  .start (lockedProject (Utf8.encode singleLockfile)) (some garblingTool)

/-- The tool succeeds and lists what the lockfile records, but only the reader of JSON finds it. -/
theorem garblingTool_fails :
    Records Headroom.usual.values garbledSession.tree rootLockfile ["dplyr"] ∧
      garblingTool.answer.Lists ["dplyr"] ∧
      EndsIn garbledSession usualReader rootLockfile (.ok [Text.widen "dplyr"]) ∧
      EndsIn garbledSession (.query "jq") rootLockfile
        (.error (.lockfile rootLockfile (.undecodableAnswer ⟨0xFF, 0, 0, .invalidStart⟩))) := by
  have recorded : packageNames? Headroom.usual.values singleLockfile =
      some [Text.widen "dplyr"] := by
    decide +kernel
  have records : Records Headroom.usual.values garbledSession.tree rootLockfile ["dplyr"] :=
    records_of_packageNames? (read_lockedProject _) recorded fun _ => Iff.rfl
  have lists : garblingTool.answer.Lists ["dplyr"] := ⟨["dplyr"], rfl, fun _ => Iff.rfl, rfl⟩
  have fills : ∀ name ∈ ([("dplyr" : Text)] : List Text), FillsLine name := by
    rw [List.forall_mem_singleton]
    exact ⟨by decide, by decide, Text.unbroken_of_all rfl⟩
  have undecodable : Utf8.decode garblingTool.answer.errors =
      .error ⟨0xFF, 0, 0, .invalidStart⟩ := by decide +kernel
  have found := packages_json records fills (some garblingTool)
  have refused : (Reader.query garblingTool.executable).packages garbledSession.tree
      garbledSession.tool rootLockfile = .error (.undecodableAnswer ⟨0xFF, 0, 0, .invalidStart⟩) :=
    packages_query_of_undecodable lists undecodable
  exact ⟨records, lists, endsIn_of_packages_eq_ok records.isFile found,
    endsIn_of_packages_eq_error records.isFile refused (by simp)⟩

end Lockfile
end DependencyGate

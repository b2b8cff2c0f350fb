/-
# Lockfiles are advisory

A lockfile that can be interpreted gives the packages that it records. One that cannot be
interpreted gives none and a warning, and the run goes on. This is so as long as what is read
lies within the limits of its reader (`Reader.WithinLimits`): a JSON text has no integers that
are too long and no values that lie deeper than the reader takes them, and what a query tool
answers is encoded properly. Beyond these limits the run can end.
-/

import DependencyGate.Headroom
import DependencyGate.Lockfile.Locked
import DependencyGate.Proofs.Json.Limits
import DependencyGate.Proofs.Run.Action
import DependencyGate.Proofs.Text.Line
import DependencyGate.Proofs.Utf8

namespace DependencyGate.Lockfile

open DependencyGate.Action (runFrom)

variable {tree : FileTree} {tool : Option Tool} {path : Path} {session : Session}
  {reader : Reader} {depth : Nat} {error : ReadError}

/-! ## Faults of a lockfile -/

/-- Whether a tool's answer is encoded properly. -/
structure ToolOutput.IsText (answer : ToolOutput) : Prop where
  output : ∃ text, Utf8.decode answer.output = .ok text
  errors : ∃ text, Utf8.decode answer.errors = .ok text

/-- Whether what a reader is given for the lockfile at a path lies within what it can take. -/
def Reader.WithinLimits (tree : FileTree) (tool : Option Tool) (path : Path) : Reader → Prop
  | .json depth => ∀ bytes text, tree.read path = .ok bytes → Utf8.decode bytes = .ok text →
      Json.Fits depth text
  | .query executable => ∀ installed, tool = some installed →
      installed.executable = executable → installed.answer.IsText
  | .unavailable _ => True

theorem exists_fault_of_packagesOfText {text : Text} (fits : Json.Fits depth text)
    (failed : packagesOfText depth text = .error error) : ∃ fault, error = .fault fault := by
  rw [packagesOfText] at failed
  split at failed
  case h_1 fault offset _ => exact ⟨_, (Except.error.inj failed).symm⟩
  case h_2 refused =>
    obtain ⟨fault, offset, malformed⟩ := Json.exists_malformed_of_parse fits refused
    cases malformed
  case h_3 refused =>
    obtain ⟨fault, offset, malformed⟩ := Json.exists_malformed_of_parse fits refused
    cases malformed
  case h_4 =>
    split at failed
    case h_1 fault _ => exact ⟨fault, (Except.error.inj failed).symm⟩
    case h_2 => cases failed

theorem exists_fault_of_readJson (within : (Reader.json depth).WithinLimits tree tool path)
    (failed : readJson depth tree path = .error error) : ∃ fault, error = .fault fault := by
  rw [readJson] at failed
  split at failed
  case h_1 => exact ⟨_, (Except.error.inj failed).symm⟩
  case h_2 bytes read =>
    split at failed
    case h_1 => exact ⟨_, (Except.error.inj failed).symm⟩
    case h_2 text decoded =>
      have fits := within bytes text read decoded
      rw [Json.Fits, ← Json.staysWithin_unifyLineEndings] at fits
      exact exists_fault_of_packagesOfText fits failed

theorem exists_fault_of_interpretAnswer {executable : Text} {answer : ToolOutput}
    (isText : answer.IsText) (failed : interpretAnswer executable path answer = .error error) :
    ∃ fault, error = .fault fault := by
  obtain ⟨output, decodedOutput⟩ := isText.output
  obtain ⟨errors, decodedErrors⟩ := isText.errors
  rw [interpretAnswer, decodedOutput, decodedErrors] at failed
  dsimp only at failed
  split at failed
  case isTrue => cases failed
  case isFalse => exact ⟨_, (Except.error.inj failed).symm⟩

/-- Within the limits of a reader, all that can be wrong are faults of the lockfile. -/
theorem exists_fault_of_packages (within : reader.WithinLimits tree tool path)
    (failed : reader.packages tree tool path = .error error) : ∃ fault, error = .fault fault := by
  cases reader with
  | json => exact exists_fault_of_readJson within failed
  | unavailable => cases failed
  | query executable =>
      rw [Reader.packages, readQuery] at failed
      cases found : tool.filter (·.executable = executable) with
      | none =>
          rw [found] at failed
          exact ⟨_, (Except.error.inj failed).symm⟩
      | some installed =>
          rw [found] at failed
          obtain ⟨present, same⟩ := Option.filter_eq_some_iff.mp found
          exact exists_fault_of_interpretAnswer (within installed present (by simpa using same))
            failed

/-! ## Reading what is there -/

/-- What reading a lockfile gives and reports: the packages that the reader finds or, if it
finds a fault, no packages and a warning that tells the fault. -/
inductive Advises (reader : Reader) (path : Path) (session : Session) :
    List WideText → Log.Event → Prop
  | parsed {packages : List WideText} {event : Log.Event}
      (found : reader.packages session.tree session.tool path = .ok packages)
      (level : event.level = .debug) : Advises reader path session packages event
  | unreadable {fault : Fault} {event : Log.Event}
      (found : reader.packages session.tree session.tool path = .error (.fault fault))
      (level : event.level = .warning)
      (told : (("error" : Text), Log.Value.text (fault.message path)) ∈ event.fields) :
      Advises reader path session [] event

/-- The session in which a reader has said what it has to say before reading. -/
def Reader.announced (reader : Reader) (path : Path) (session : Session) : Session :=
  { session with transcript := session.transcript ++ (reader.events path).map .logged }

/-- That session with one more event. -/
def Reader.left (reader : Reader) (path : Path) (session : Session) (event : Log.Event) :
    Session :=
  { session with transcript := (reader.announced path session).transcript ++ [.logged event] }

/-- If all that can be wrong are faults of the lockfile, reading it succeeds. -/
theorem locked_returns_of_faults (reader : Reader) (file : session.tree.isFile path = .ok true)
    (faults : ∀ error, reader.packages session.tree session.tool path = .error error →
      ∃ fault, error = .fault fault) :
    ∃ packages event,
      runFrom session (locked reader path) = (.ok packages, reader.left path session event) ∧
      Advises reader path session packages event := by
  rw [locked]
  simp only [Action.runFrom_bind, Action.runFrom_get, file, Action.ofExcept, Action.runFrom_pure]
  cases found : reader.packages session.tree session.tool path with
  | ok packages =>
      simp only [Bool.not_true, Bool.false_eq_true, if_false, Action.runFrom_bind,
        Action.runFrom_note, Action.runFrom_get, found, Action.runFrom_log, Action.runFrom_pure]
      exact ⟨packages, _, rfl, .parsed found rfl⟩
  | error error =>
      obtain ⟨fault, rfl⟩ := faults error found
      simp only [Bool.not_true, Bool.false_eq_true, if_false, Action.runFrom_bind,
        Action.runFrom_note, Action.runFrom_get, found, Action.runFrom_log, Action.runFrom_pure]
      refine ⟨[], _, rfl, .unreadable found rfl ?_⟩
      exact List.mem_cons_of_mem _ (List.mem_cons_of_mem _ List.mem_cons_self)

/-- What a reader finds depends on the lockfile's bytes alone. -/
theorem packages_congr {other : FileTree} (reader : Reader)
    (same : other.read path = tree.read path) :
    reader.packages other tool path = reader.packages tree tool path := by
  cases reader with
  | json => simp only [Reader.packages, readJson, same]
  | query | unavailable => rfl

/-- What a reader finds that is no fault of the lockfile ends the run. -/
theorem locked_fails (file : session.tree.isFile path = .ok true)
    (failed : reader.packages session.tree session.tool path = .error error)
    (other : ∀ fault, error ≠ .fault fault) :
    runFrom session (locked reader path) =
      (.error (.lockfile path error), reader.announced path session) := by
  rw [locked]
  simp only [Action.runFrom_bind, Action.runFrom_get, file, Action.ofExcept, Action.runFrom_pure,
    Bool.not_true, Bool.false_eq_true, if_false, Action.runFrom_note, failed]
  cases error with
  | fault fault => exact absurd rfl (other fault)
  | longInteger | tooDeep | undecodableAnswer => rfl

/-- A lockfile ends a run beyond the limits of its reader alone. Reading a lockfile that is
there gives the packages that the reader finds or, if it finds a fault, none and a warning; or
the run ends, and what the reader was given lies beyond its limits. -/
theorem locked_returns_or_exceeds_limits (reader : Reader) (path : Path) (session : Session)
    (file : session.tree.isFile path = .ok true) :
    (∃ packages event,
      runFrom session (locked reader path) = (.ok packages, reader.left path session event) ∧
      Advises reader path session packages event) ∨
    ∃ error,
      runFrom session (locked reader path) =
        (.error (.lockfile path error), reader.announced path session) ∧
      reader.packages session.tree session.tool path = .error error ∧
      (∀ fault, error ≠ .fault fault) ∧
      ¬reader.WithinLimits session.tree session.tool path := by
  by_cases faults : ∀ error, reader.packages session.tree session.tool path = .error error →
      ∃ fault, error = .fault fault
  · exact .inl (locked_returns_of_faults reader file faults)
  · push Not at faults
    obtain ⟨error, failed, other⟩ := faults
    refine .inr ⟨error, locked_fails file failed other, failed, other, fun within => ?_⟩
    obtain ⟨fault, isFault⟩ := exists_fault_of_packages within failed
    exact other fault isFault

/-- Whether a lockfile, if there is one, can be read or shows its faults, whoever reads it. -/
structure Harmless (tree : FileTree) (tool : Option Tool) (path : Path) : Prop where
  asked : ∃ present, tree.isFile path = .ok present
  within : tree.isFile path = .ok true → ∀ reader : Reader, reader.WithinLimits tree tool path

theorem harmless_of_absent (absent : tree.isFile path = .ok false) : Harmless tree tool path where
  asked := ⟨false, absent⟩
  within := fun present => by simp [absent] at present

/-- Whether what a reader finds of a lockfile, if there is one, does not end a run. -/
structure Reader.Tolerates (reader : Reader) (tree : FileTree) (tool : Option Tool) (path : Path) :
    Prop where
  asked : ∃ present, tree.isFile path = .ok present
  faults : tree.isFile path = .ok true → ∀ error, reader.packages tree tool path = .error error →
    ∃ fault, error = .fault fault

theorem Harmless.tolerates (harmless : Harmless tree tool path) (reader : Reader) :
    reader.Tolerates tree tool path where
  asked := harmless.asked
  faults := fun file _ => exists_fault_of_packages (harmless.within file reader)

/-- Reading a lockfile succeeds, whether or not it is there, exactly if the reader tolerates it. -/
theorem locked_returns_iff :
    (∃ packages after, runFrom session (locked reader path) = (.ok packages, after)) ↔
      reader.Tolerates session.tree session.tool path := by
  constructor
  · rintro ⟨packages, after, done⟩
    cases asked : session.tree.isFile path with
    | error error =>
        simp only [locked, Action.runFrom_bind, Action.runFrom_get, asked, Action.ofExcept,
          Action.runFrom_throw, Prod.mk.injEq, reduceCtorEq, false_and] at done
    | ok present =>
        refine ⟨⟨present, asked⟩, fun file error failed => ?_⟩
        by_contra other
        rw [locked_fails file failed (not_exists.mp other)] at done
        simp at done
  · intro tolerates
    obtain ⟨present, asked⟩ := tolerates.asked
    cases present with
    | true =>
        obtain ⟨packages, event, done, -⟩ :=
          locked_returns_of_faults reader asked (tolerates.faults asked)
        exact ⟨packages, _, done⟩
    | false =>
        rw [locked]
        simp only [Action.runFrom_bind, Action.runFrom_get, asked, Action.ofExcept,
          Action.runFrom_pure, Bool.not_false, if_true, Action.runFrom_log]
        exact ⟨_, _, rfl⟩

/-! ## Choosing a reader -/

/-- The reader of a given name, if there is one, which takes values up to a depth if it reads
JSON. -/
def chosen? (depth : Nat) (tool : Option Tool) (name : Text) : Option Reader :=
  if name = ("json" : Text) then some (.json depth)
  else if name = ("jq" : Text) then
    match tool with
    | some tool => some (.query tool.executable)
    | none => some (.unavailable (some installHint))
  else if name = ("none" : Text) then some (.unavailable none)
  else none

/-- Which reader is selected depends on the query tool alone. -/
theorem exists_runFrom_select_iff {name : Text} {reader : Reader} :
    (∃ after, runFrom session (select depth name) = (.ok reader, after)) ↔
      chosen? depth session.tool name = some reader := by
  unfold select chosen?
  split
  case isTrue => simp
  case isFalse =>
    split
    case isTrue =>
      cases held : session.tool <;>
        simp only [Action.runFrom_bind, Action.runFrom_get, held, Action.runFrom_log,
          Action.runFrom_pure, Prod.mk.injEq, Except.ok.injEq, exists_and_left, exists_eq',
          and_true, Option.some.injEq]
    case isFalse => split <;> simp

/-! ## A lockfile that is cut off -/

/-- The reader of JSON as it is usually chosen. -/
def usualReader : Reader := .json Headroom.usual.values

/-- Where the root's lockfile lies. -/
def rootLockfile : Path := Path.anchored [("renv.lock" : Text)]

/-- A project whose only file is a lockfile. -/
def lockedProject (content : List UInt8) : FileTree := .single "renv.lock" content

theorem nodeAt_lockedProject (content : List UInt8) :
    (lockedProject content).nodeAt rootLockfile = .ok (.file 0o644 content) :=
  FileTree.nodeAt_single ⟨by decide, by decide, by decide⟩ (by decide) content

theorem isFile_lockedProject (content : List UInt8) :
    (lockedProject content).isFile rootLockfile = .ok true :=
  FileTree.isFile_eq_true_iff.mpr ⟨_, _, nodeAt_lockedProject content⟩

theorem read_lockedProject (content : List UInt8) :
    (lockedProject content).read rootLockfile = .ok content :=
  FileTree.read_of_nodeAt (nodeAt_lockedProject content)

/-- A lockfile that was not written to its end. -/
def cutOffLockfile : Text := "\x7b \"Packages\": \x7b \"dplyr\": ["

/-- A project with such a lockfile, before a run. -/
def cutOffSession : Session := .start (lockedProject (Utf8.encode cutOffLockfile)) none

theorem locked_cutOffLockfile :
    ∃ packages event,
      runFrom cutOffSession (locked usualReader rootLockfile) =
        (.ok packages, usualReader.left rootLockfile cutOffSession event) ∧
      Advises usualReader rootLockfile cutOffSession packages event := by
  have within : usualReader.WithinLimits cutOffSession.tree cutOffSession.tool rootLockfile := by
    intro bytes text read decoded
    obtain rfl : Utf8.encode cutOffLockfile = bytes :=
      Except.ok.inj ((read_lockedProject _).symm.trans read)
    rw [Utf8.decode_encode, Except.ok.injEq] at decoded
    subst decoded
    decide
  rcases locked_returns_or_exceeds_limits usualReader rootLockfile cutOffSession
    (isFile_lockedProject _) with returns | ⟨error, -, -, -, beyond⟩
  · exact returns
  · exact absurd within beyond

/-! ## Beyond the limits -/

/-- Of the installed tool, what it answers is interpreted. -/
theorem packages_installed (tool : Tool) :
    (Reader.query tool.executable).packages tree (some tool) path =
      interpretAnswer tool.executable path tool.answer := by
  have chosen : (some tool).filter (·.executable = tool.executable) = some tool := by simp
  rw [Reader.packages, readQuery, chosen]

/-- An answer of a query tool that is not encoded properly ends the run. -/
theorem locked_query_fails {installed : Tool} {broken : Utf8.DecodeError}
    (file : session.tree.isFile path = .ok true) (present : session.tool = some installed)
    (undecodable : Utf8.decode installed.answer.output = .error broken) :
    (runFrom session (locked (.query installed.executable) path)).1 =
      .error (.lockfile path (.undecodableAnswer broken)) := by
  have failed : (Reader.query installed.executable).packages session.tree session.tool path =
      .error (.undecodableAnswer broken) := by
    rw [present, packages_installed]
    simp only [interpretAnswer, undecodable]
  rw [locked_fails file failed (by simp)]

/-- So does a text that the reader of JSON refuses for another reason than a fault. -/
theorem locked_json_fails {text : Text} (file : session.tree.isFile path = .ok true)
    (read : session.tree.read path = .ok (Utf8.encode text)) (plain : '\r' ∉ text)
    (refused : packagesOfText depth text = .error error) (other : ∀ fault, error ≠ .fault fault) :
    (runFrom session (locked (.json depth) path)).1 = .error (.lockfile path error) := by
  have failed : (Reader.json depth).packages session.tree session.tool path = .error error := by
    rw [Reader.packages, readJson, read]
    simp only [Utf8.decode_encode, Text.unifyLineEndings_eq_self plain, refused]
  rw [locked_fails file failed other]

/-- An integer of too many digits ends the run. -/
theorem locked_digits_fails {first : Char} {digits : Text}
    (file : session.tree.isFile path = .ok true)
    (read : session.tree.read path = .ok (Utf8.encode (first :: digits)))
    (positive : first ≠ '0') (all : ∀ c ∈ first :: digits, c.isDigit = true)
    (long : Json.integerDigitLimit < (first :: digits).length) :
    (runFrom session (locked (.json depth) path)).1 =
      .error (.lockfile path (.longInteger (first :: digits).length)) := by
  have plain : '\r' ∉ first :: digits := fun listed => absurd (all '\r' listed) (by decide)
  apply locked_json_fails file read plain _ (by simp)
  rw [packagesOfText, Json.parse_of_digits depth positive all long]

/-- Too many opening brackets end the run. -/
theorem locked_brackets_fails {count : Nat} (file : session.tree.isFile path = .ok true)
    (read : session.tree.read path = .ok (Utf8.encode (List.replicate count '[')))
    (deep : depth < count) :
    (runFrom session (locked (.json depth) path)).1 =
      .error (.lockfile path (.tooDeep .array)) := by
  have plain : '\r' ∉ List.replicate count '[' := fun listed =>
    absurd (List.eq_of_mem_replicate listed) (by decide)
  apply locked_json_fails file read plain _ (by simp)
  rw [packagesOfText, Json.parse_of_brackets deep]

theorem locked_nines_fails (depth count : Nat) (long : Json.integerDigitLimit < count) :
    (runFrom (.start (lockedProject (Utf8.encode (List.replicate count '9'))) none)
      (locked (.json depth) rootLockfile)).1 =
        .error (.lockfile rootLockfile (.longInteger count)) := by
  have all : ∀ c ∈ List.replicate count '9', c.isDigit = true := by
    intro c listed
    rw [List.eq_of_mem_replicate listed]
    rfl
  have length : (List.replicate count '9').length = count := List.length_replicate
  obtain ⟨count, rfl⟩ : ∃ fewer, count = fewer + 1 := ⟨count - 1, by omega⟩
  rw [List.replicate_succ] at all length ⊢
  rw [← length] at long ⊢
  exact locked_digits_fails (isFile_lockedProject _) (read_lockedProject _) (by decide) all long

/-- A lockfile that is one integer of 4301 digits ends the run. -/
theorem locked_long_integer_fails :
    (runFrom (.start (lockedProject (Utf8.encode (List.replicate 4301 '9'))) none)
      (locked usualReader rootLockfile)).1 = .error (.lockfile rootLockfile (.longInteger 4301)) :=
  locked_nines_fails _ 4301 (by decide)

end DependencyGate.Lockfile

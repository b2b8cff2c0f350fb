/-
# What a report tells

A report prints three lists of names among other lines: what was added to the manifest, what was
removed from it and what is missing. Each of them can be read back from the printed lines
(`Listing.read_shownLines`): the heading of a list starts as no other line does, and the line
behind a list is not indented. So two reports that look the same tell the same, and a quiet report
tells as much as a full one (`report_tells_lists`).

The names and the settings must be plain for this: a line feed within a name could feign another
line of the report, and what looks like a command to a terminal is not printed. Nothing else is
asked of them; a name may be empty or look like a heading.
-/

import DependencyGate.Proofs.Run.Action
import DependencyGate.Proofs.Text.Cut
import DependencyGate.Run.Report

namespace DependencyGate

open DependencyGate.Action (runFrom)

/-! ## Plain texts -/

namespace Text

/-- Whether a text is printed as it is and on one line: it holds no line feed and no escape
character. All texts without control characters are plain. -/
def IsPlain (text : Text) : Prop := '\n' ∉ text ∧ '\x1b' ∉ text

instance (text : Text) : Decidable (IsPlain text) := inferInstanceAs (Decidable (_ ∧ _))

@[simp]
theorem isPlain_append {front back : Text} :
    IsPlain (front ++ back) ↔ IsPlain front ∧ IsPlain back := by
  simp only [IsPlain, List.mem_append, not_or]
  exact and_and_and_comm

theorem isPlain_intercalate {written : Text} {pieces : List Text} (between : IsPlain written)
    (plain : ∀ piece ∈ pieces, IsPlain piece) : IsPlain (List.intercalate written pieces) := by
  refine ⟨fun inside => ?_, fun inside => ?_⟩
  · rcases mem_of_mem_intercalate inside with inside | ⟨piece, listed, inside⟩
    · exact between.1 inside
    · exact (plain piece listed).1 inside
  · rcases mem_of_mem_intercalate inside with inside | ⟨piece, listed, inside⟩
    · exact between.2 inside
    · exact (plain piece listed).2 inside

theorem isPlain_ofNat (n : Nat) : IsPlain (ofNat n) := by
  constructor <;> intro inside <;>
    exact absurd (Nat.isDigit_of_mem_toDigits (by decide) (by decide) inside) (by decide)

/-- Without an escape character there are no commands to take away. -/
theorem withoutCommands_of_plain {text : Text} (plain : IsPlain text) :
    withoutCommands text = text := by
  obtain ⟨-, unescaped⟩ := plain
  fun_induction withoutCommands text with
  | case1 | case2 => simp at unescaped
  | case3 c rest _ ih => rw [ih fun inside => unescaped (List.mem_cons_of_mem c inside)]
  | case4 => rfl

/-- Lines that are written one after another, each with a line feed, are found again. -/
theorem splitAtChar_flatMap_ended {lines : List Text} (single : ∀ line ∈ lines, '\n' ∉ line) :
    splitAtChar '\n' (lines.flatMap (· ++ ['\n'])) = lines ++ [[]] := by
  induction lines with
  | nil => rfl
  | cons line lines ih =>
      rw [List.forall_mem_cons] at single
      rw [List.flatMap_cons, List.append_assoc, List.singleton_append,
        splitAtChar_append_separator, ih single.2, splitAtChar_eq_splitOn,
        List.splitOn_eq_singleton single.1]
      rfl

/-- Whether two texts differ at a place that both have. -/
def Differ (first second : Text) : Prop :=
  first.isPrefixOf second = false ∧ second.isPrefixOf first = false

instance (first second : Text) : Decidable (Differ first second) :=
  inferInstanceAs (Decidable (_ ∧ _))

/-- Then neither is the beginning of what starts with the other. -/
theorem Differ.isPrefixOf_append {first second : Text} (differ : Differ first second)
    (rest : Text) : first.isPrefixOf (second ++ rest) = false := by
  rw [← Bool.not_eq_true, List.isPrefixOf_iff_prefix]
  intro starts
  rcases List.prefix_or_prefix_of_prefix starts (List.prefix_append second rest) with short | short
  · exact absurd (List.isPrefixOf_iff_prefix.mpr short) (by simp [differ.1])
  · exact absurd (List.isPrefixOf_iff_prefix.mpr short) (by simp [differ.2])

end Text

/-- What has been printed on a channel, each line ended by a line feed. -/
def Session.shownOn (channel : Channel) (session : Session) : Text :=
  (session.printedOn channel).flatMap (· ++ ['\n'])

/-- Whether the settings that reports mention are plain. -/
structure Settings.IsPlain (settings : Settings) : Prop where
  manifestName : Text.IsPlain settings.manifestName
  lockfileName : Text.IsPlain settings.lockfileName
  directories : ∀ strict, ∀ name ∈ settings.directories strict, Text.IsPlain name

/-- Whether the names that reports mention are plain. -/
structure Result.IsPlain (result : Result) : Prop where
  missing : ∀ name ∈ result.missing, Text.IsPlain name
  added : ∀ name ∈ result.added, Text.IsPlain name
  pruned : ∀ name ∈ result.pruned, Text.IsPlain name
  unused : ∀ name ∈ result.unused, Text.IsPlain name

namespace Report

variable {settings : Settings} {quiet : Bool} {result : Result}

/-! ## What is shown -/

/-- What a report shows on a channel. -/
def shown (channel : Channel) (settings : Settings) (quiet : Bool) (result : Result) : Text :=
  (runFrom (Session.start ⟨[]⟩ none) (print settings quiet result)).2.shownOn channel

/-- The lines that a report shows on a channel; behind its last line feed stands an empty one. -/
def shownLines (channel : Channel) (settings : Settings) (quiet : Bool) (result : Result) :
    List Text :=
  Text.splitAtChar '\n' (shown channel settings quiet result)

/-- What a report prints on a channel comes behind what has been printed there. -/
theorem printedOn_print (channel : Channel) (session : Session) :
    (runFrom session (print settings quiet result)).2.printedOn channel =
      session.printedOn channel ++
        ((lines settings quiet result).filter (·.channel = channel)).map
          (Text.withoutCommands ·.text) := by
  rw [print, Action.runFrom_note, Session.printedOn, List.filterMap_append]
  congr 1
  induction lines settings quiet result with
  | nil => rfl
  | cons line lines ih =>
      rw [List.map_cons, List.filterMap_cons, List.filter_cons, Line.notice]
      by_cases same : line.channel = channel <;> simp [same, ih]

/-! ## The three lists -/

/-- A list of names in a report. -/
inductive Listing
  | added
  | pruned
  | missing
deriving DecidableEq

namespace Listing

/-- The words that the heading of a list starts with. -/
def opening : Listing → Text
  | .added => "Added to "
  | .pruned => "Removed unused packages from "
  | .missing => "Missing from "

/-- The character that marks a name of the list. -/
def mark : Listing → Text
  | .added => ['+']
  | .pruned | .missing => ['-']

/-- The line for a name. -/
def entry (listing : Listing) (name : Text) : Text :=
  [' ', ' '] ++ listing.mark ++ [' '] ++ name

/-- The names of the list. -/
def names (result : Result) : Listing → List Text
  | .added => result.added
  | .pruned => result.pruned
  | .missing => result.missing

/-- The heading of the list. -/
def heading (settings : Settings) (listing : Listing) : Text :=
  listing.opening ++ settings.manifestName ++ " Imports:"

/-- The lines of the list: its heading and its names, if there are any. -/
def lines (settings : Settings) (result : Result) (listing : Listing) : List Line :=
  titledList (listing.heading settings) listing.mark (listing.names result)

/-- The names that printed lines give for a list: those behind the marks under the first line
that starts as its heading does. -/
def read (listing : Listing) (printed : List Text) : List Text :=
  ((printed.dropWhile (!listing.opening.isPrefixOf ·)).tail.takeWhile
    ((listing.entry []).isPrefixOf ·)).map (·.drop (listing.entry []).length)

end Listing

/-- What a report says behind its lists. -/
def closing (settings : Settings) (result : Result) : List Line :=
  if result.passes then
    [say ("All packages properly declared in " ++ settings.manifestName),
      say "Package environment validation passed"]
  else
    [say "Package environment validation failed", say [],
      say "To fix missing packages, you can:"] ++ remediation settings ++ [say []]

/-- The lines that a report prints on the ordinary channel. -/
def outputLines (settings : Settings) (quiet : Bool) (result : Result) : List Line :=
  (if quiet then [] else summary settings result) ++ Listing.added.lines settings result ++
    Listing.pruned.lines settings result ++ (if quiet then [] else unused settings result) ++
    Listing.missing.lines settings result ++ closing settings result

theorem verdict_eq (settings : Settings) (result : Result) :
    verdict settings result =
      Listing.missing.lines settings result ++ closing settings result := by
  rw [verdict, closing]
  split
  case isTrue passes =>
    rw [Listing.lines, Listing.names, List.isEmpty_iff.mp passes]
    rfl
  case isFalse =>
    simp only [List.append_assoc]
    rfl

/-! ## The other lines -/

theorem isPlain_listed {texts : List Text} (plain : ∀ text ∈ texts, Text.IsPlain text) :
    Text.IsPlain (listed texts) :=
  Text.isPlain_intercalate (by decide) plain

/-- A line beside the lists: it stands on the ordinary channel, starts neither as the heading of a
list nor as the line for a name, and is plain if what it mentions is. -/
structure IsOther (settings : Settings) (result : Result) (line : Line) : Prop where
  output : line.channel = .output
  untitled : ∀ listing : Listing, listing.opening.isPrefixOf line.text = false
  unmarked : ∀ listing : Listing, (listing.entry []).isPrefixOf line.text = false
  plain : settings.IsPlain → result.IsPlain → Text.IsPlain line.text

/-- The words that lines beside the lists start with. -/
def otherWords : List Text :=
  ["Scanned ", "Found ", "No ", "Note: ", "Unused packages in ",
    "All packages properly declared in ", "Package environment validation ", "To fix ", "  1. ",
    "  2. ", "  3. "]

theorem differ_otherWords (listing : Listing) : ∀ words ∈ otherWords,
    Text.Differ listing.opening words ∧ Text.Differ (listing.entry []) words := by
  cases listing <;> decide

theorem isOther_say {words rest : Text} (known : words ∈ otherWords)
    (plain : settings.IsPlain → result.IsPlain → Text.IsPlain rest) :
    IsOther settings result (say (words ++ rest)) where
  output := rfl
  untitled listing := (differ_otherWords listing words known).1.isPrefixOf_append rest
  unmarked listing := (differ_otherWords listing words known).2.isPrefixOf_append rest
  plain settingsPlain resultPlain := by
    have allPlain : ∀ words ∈ otherWords, Text.IsPlain words := by decide
    exact Text.isPlain_append.mpr ⟨allPlain words known, plain settingsPlain resultPlain⟩

theorem isOther_of_mem_summary {line : Line} (present : line ∈ summary settings result) :
    IsOther settings result line := by
  have counted (count : Nat) {place : Text} (plain : Text.IsPlain place) :
      Text.IsPlain (Text.ofNat count ++ (" packages in " ++ place)) := by
    rw [Text.isPlain_append, Text.isPlain_append]
    exact ⟨Text.isPlain_ofNat count, by decide, plain⟩
  simp only [summary, List.mem_append, List.mem_cons, List.not_mem_nil, or_false,
    List.append_assoc] at present
  rcases present with (rfl | rfl | listed | listed) | listed
  · refine isOther_say (by decide) fun plain _ => ?_
    rw [Text.isPlain_append, Text.isPlain_append, Text.isPlain_append]
    refine ⟨isPlain_listed (plain.directories _), by decide, ?_, by decide⟩
    split <;> decide
  · exact isOther_say (by decide) fun _ _ => counted _ (by decide)
  · split at listed
    · rw [listed]
      refine isOther_say (by decide) fun plain _ => counted _ ?_
      exact Text.isPlain_append.mpr ⟨plain.manifestName, by decide⟩
    · rw [listed]
      refine isOther_say (by decide) fun plain _ => ?_
      exact Text.isPlain_append.mpr ⟨plain.manifestName, by decide⟩
  · split at listed
    · rw [listed]
      exact isOther_say (by decide) fun plain _ => counted _ plain.lockfileName
    · rw [listed]
      refine isOther_say (by decide) fun plain _ => ?_
      exact Text.isPlain_append.mpr ⟨plain.lockfileName, by decide⟩
  · split at listed
    · simp at listed
    · rw [List.mem_singleton.mp listed]
      refine isOther_say (by decide) fun plain _ => counted _ ?_
      rw [Text.isPlain_append, Text.isPlain_append]
      exact ⟨plain.lockfileName, by decide, plain.manifestName⟩

theorem isOther_of_mem_unused {line : Line} (present : line ∈ unused settings result) :
    IsOther settings result line := by
  rw [unused] at present
  split at present
  case isTrue =>
    simp only [List.mem_singleton, List.append_assoc] at present
    rw [present]
    refine isOther_say (by decide) fun plain resultPlain => ?_
    rw [Text.isPlain_append, Text.isPlain_append]
    exact ⟨plain.manifestName, by decide, isPlain_listed resultPlain.unused⟩
  case isFalse => simp at present

theorem remediation_eq (settings : Settings) :
    remediation settings =
      [say ("  1. " ++
          ("Add them manually to the " ++ (settings.manifestName ++ " Imports field"))),
        say ("  2. " ++ "Run: rdepcheck --fix".toList),
        say ("  3. " ++
          "Inside the container: renv::install() then exit (auto-snapshot)".toList)] :=
  rfl

/-- An empty line. -/
theorem isOther_empty : IsOther settings result (say []) where
  output := rfl
  untitled listing := by cases listing <;> rfl
  unmarked listing := by cases listing <;> rfl
  plain _ _ := by decide

theorem isOther_of_mem_closing {line : Line} (present : line ∈ closing settings result) :
    IsOther settings result line := by
  have environment (rest : Text) (plain : Text.IsPlain rest) :
      IsOther settings result (say ("Package environment validation " ++ rest)) :=
    isOther_say (by decide) fun _ _ => plain
  have help : IsOther settings result
      (say ("To fix " ++ ("missing packages, you can:" : Text))) :=
    isOther_say (by decide) fun _ _ => by decide
  rw [closing] at present
  split at present
  case isTrue =>
    simp only [List.mem_cons, List.not_mem_nil, or_false] at present
    rcases present with rfl | rfl
    · exact isOther_say (by decide) fun plain _ => plain.manifestName
    · exact environment "passed" (by decide)
  case isFalse =>
    simp only [remediation_eq, List.mem_append, List.mem_cons, List.not_mem_nil, or_false]
      at present
    rcases present with ((rfl | rfl | rfl) | (rfl | rfl | rfl)) | rfl
    · exact environment "failed" (by decide)
    · exact isOther_empty
    · exact help
    · refine isOther_say (by decide) fun plain _ => ?_
      rw [Text.isPlain_append, Text.isPlain_append]
      exact ⟨by decide, plain.manifestName, by decide⟩
    · exact isOther_say (by decide) fun _ _ => by decide
    · exact isOther_say (by decide) fun _ _ => by decide
    · exact isOther_empty

/-! ## The lines of a list -/

namespace Listing

variable {listing other : Listing}

theorem lines_of_nil (none : listing.names result = []) : listing.lines settings result = [] := by
  rw [lines, none]
  rfl

theorem lines_of_ne_nil (present : listing.names result ≠ []) :
    listing.lines settings result =
      say (listing.heading settings) :: (listing.names result).map (say ∘ listing.entry) := by
  obtain ⟨name, names, found⟩ := List.exists_cons_of_ne_nil present
  rw [lines, found]
  rfl

/-- A line of a list is its heading or the line for one of its names. -/
theorem eq_say_of_mem_lines {line : Line} (present : line ∈ listing.lines settings result) :
    line = say (listing.heading settings) ∨
      ∃ name ∈ listing.names result, line = say (listing.entry name) := by
  by_cases none : listing.names result = []
  · simp [lines_of_nil none] at present
  · rw [lines_of_ne_nil none, List.mem_cons, List.mem_map] at present
    exact present.imp_right fun ⟨name, listed, same⟩ => ⟨name, listed, same.symm⟩

theorem output_of_mem_lines {line : Line} (present : line ∈ listing.lines settings result) :
    line.channel = .output := by
  rcases eq_say_of_mem_lines present with rfl | ⟨name, -, rfl⟩ <;> rfl

theorem opening_isPrefixOf_heading (settings : Settings) (listing other : Listing) :
    listing.opening.isPrefixOf (other.heading settings) = decide (other = listing) := by
  cases listing <;> cases other <;> rfl

theorem opening_isPrefixOf_entry (listing other : Listing) (name : Text) :
    listing.opening.isPrefixOf (other.entry name) = false := by
  cases listing <;> cases other <;> rfl

/-- Whether no line starts as the heading of a list does. -/
def Untitled (listing : Listing) (printed : List Line) : Prop :=
  ∀ line ∈ printed, listing.opening.isPrefixOf line.text = false

theorem Untitled.append {front back : List Line} (first : Untitled listing front)
    (second : Untitled listing back) : Untitled listing (front ++ back) :=
  List.forall_mem_append.mpr ⟨first, second⟩

theorem untitled_of_isOther {printed : List Line}
    (other : ∀ line ∈ printed, IsOther settings result line) : Untitled listing printed :=
  fun line present => (other line present).untitled listing

/-- No line of another list starts as the heading of a list does. -/
theorem untitled_lines_of_ne (different : other ≠ listing) :
    Untitled listing (other.lines settings result) := by
  intro line present
  rcases eq_say_of_mem_lines present with rfl | ⟨name, -, rfl⟩
  · exact (opening_isPrefixOf_heading settings listing other).trans (decide_eq_false different)
  · exact opening_isPrefixOf_entry listing other name

theorem isPlain_names (plain : result.IsPlain) (listing : Listing) :
    ∀ name ∈ listing.names result, Text.IsPlain name := by
  cases listing with
  | added => exact plain.added
  | pruned => exact plain.pruned
  | missing => exact plain.missing

theorem isPlain_of_mem_lines (plain : settings.IsPlain) (resultPlain : result.IsPlain) {line : Line}
    (present : line ∈ listing.lines settings result) : Text.IsPlain line.text := by
  rcases eq_say_of_mem_lines present with rfl | ⟨name, listed, rfl⟩
  · rw [say, heading, Text.isPlain_append, Text.isPlain_append]
    exact ⟨⟨by cases listing <;> decide, plain.manifestName⟩, by decide⟩
  · rw [say, entry, Text.isPlain_append]
    exact ⟨by cases listing <;> decide, isPlain_names resultPlain listing name listed⟩

end Listing

/-- What holds of the other lines and of those of each list holds of all lines on the ordinary
channel. -/
theorem forall_mem_outputLines {property : Line → Prop}
    (other : ∀ line, IsOther settings result line → property line)
    (lists : ∀ listing : Listing, ∀ line ∈ listing.lines settings result, property line) :
    ∀ line ∈ outputLines settings quiet result, property line := by
  intro line present
  simp only [outputLines, List.mem_append, List.mem_ite_nil_left] at present
  rcases present with ((((⟨-, summary⟩ | added) | pruned) | ⟨-, unused⟩) | missing) | closing
  · exact other line (isOther_of_mem_summary summary)
  · exact lists .added line added
  · exact lists .pruned line pruned
  · exact other line (isOther_of_mem_unused unused)
  · exact lists .missing line missing
  · exact other line (isOther_of_mem_closing closing)

theorem output_of_mem_outputLines :
    ∀ line ∈ outputLines settings quiet result, line.channel = .output :=
  forall_mem_outputLines (fun _ other => other.output) fun _ _ => Listing.output_of_mem_lines

theorem isPlain_of_mem_outputLines (plain : settings.IsPlain) (resultPlain : result.IsPlain) :
    ∀ line ∈ outputLines settings quiet result, Text.IsPlain line.text :=
  forall_mem_outputLines (fun _ other => other.plain plain resultPlain)
    fun _ _ => Listing.isPlain_of_mem_lines plain resultPlain

/-! ## Reading a list -/

/-- Whether lines do not begin with one for a name, so that a list in front of them ends there. -/
def Stops (printed : List Line) : Prop :=
  ∀ line ∈ printed.head?, ∀ listing : Listing, (listing.entry []).isPrefixOf line.text = false

theorem Stops.append {front back : List Line} (first : Stops front) (second : Stops back) :
    Stops (front ++ back) := by
  cases front with
  | nil => exact second
  | cons line front => exact first

theorem stops_of_isOther {printed : List Line}
    (other : ∀ line ∈ printed, IsOther settings result line) : Stops printed :=
  fun line first => (other line (List.mem_of_mem_head? first)).unmarked

namespace Listing

variable {listing : Listing} {front back : List Line}

theorem stops_lines (settings : Settings) (result : Result) (listing : Listing) :
    Stops (listing.lines settings result) := by
  intro line first other
  by_cases none : listing.names result = []
  · simp [lines_of_nil none] at first
  · rw [lines_of_ne_nil none, List.head?_cons, Option.mem_some_iff] at first
    rw [← first]
    cases listing <;> cases other <;> rfl

/-- Under a heading, the names that are marked in a row are read. -/
theorem takeWhile_entry_append (names : List Text) (stops : Stops back) :
    (names.map listing.entry ++ back.map Line.text).takeWhile ((listing.entry []).isPrefixOf ·) =
      names.map listing.entry := by
  have marked : ∀ text ∈ names.map listing.entry, (listing.entry []).isPrefixOf text = true := by
    intro text present
    obtain ⟨name, -, rfl⟩ := List.mem_map.mp present
    cases listing <;> rfl
  rw [List.takeWhile_append_of_pos marked]
  cases back with
  | nil => simp
  | cons next back => simp [stops next rfl listing]

/-- A list is read back from lines of which no others start as its heading does, if it ends
where they go on. -/
theorem read_append (settings : Settings) (result : Result)
    (before : Untitled listing front) (behind : Untitled listing back) (stops : Stops back) :
    listing.read ((front ++ listing.lines settings result ++ back).map Line.text) =
      listing.names result := by
  have skipped {printed : List Line} (untitled : Untitled listing printed) :
      ∀ text ∈ printed.map Line.text, (!listing.opening.isPrefixOf text) = true := by
    intro text present
    obtain ⟨line, listed, rfl⟩ := List.mem_map.mp present
    rw [untitled line listed, Bool.not_false]
  rw [read, List.append_assoc, List.map_append, List.dropWhile_append_of_pos (skipped before)]
  by_cases none : listing.names result = []
  · rw [lines_of_nil none, none, List.nil_append, List.dropWhile_eq_nil_iff.mpr (skipped behind)]
    rfl
  · have titled : (!listing.opening.isPrefixOf (say (listing.heading settings)).text) = false := by
      simp [say, opening_isPrefixOf_heading]
    rw [lines_of_ne_nil none, List.cons_append, List.map_cons,
      List.dropWhile_cons_of_neg (by simp [titled]), List.tail_cons, List.map_append, List.map_map]
    have spelled : Line.text ∘ (say ∘ listing.entry) = listing.entry := rfl
    rw [spelled, takeWhile_entry_append _ stops, List.map_map]
    cases listing <;> exact List.map_id _

/-- Every list is read back from the lines on the ordinary channel, with an empty one behind
them. -/
theorem read_outputLines (listing : Listing) (settings : Settings) (quiet : Bool)
    (result : Result) :
    listing.read ((outputLines settings quiet result ++ [say []]).map Line.text) =
      listing.names result := by
  have summaryOther : ∀ line ∈ if quiet then [] else summary settings result,
      IsOther settings result line := fun line present =>
    isOther_of_mem_summary (List.mem_ite_nil_left.mp present).2
  have unusedOther : ∀ line ∈ if quiet then [] else unused settings result,
      IsOther settings result line := fun line present =>
    isOther_of_mem_unused (List.mem_ite_nil_left.mp present).2
  have endOther : ∀ line ∈ closing settings result ++ [say []], IsOther settings result line := by
    intro line present
    rcases List.mem_append.mp present with present | present
    · exact isOther_of_mem_closing present
    · rw [List.mem_singleton.mp present]
      exact isOther_empty
  rw [outputLines, List.append_assoc _ _ [say []]]
  generalize (if quiet then [] else summary settings result) = first at summaryOther
  generalize (if quiet then [] else unused settings result) = kept at unusedOther
  generalize closing settings result ++ [say []] = last at endOther
  have lastStops : Stops last := stops_of_isOther endOther
  have missingStops : Stops (Listing.missing.lines settings result ++ last) :=
    (stops_lines settings result .missing).append lastStops
  have keptStops : Stops (kept ++ (Listing.missing.lines settings result ++ last)) :=
    (stops_of_isOther unusedOther).append missingStops
  have unusedUntitled (listing : Listing) : Untitled listing kept := untitled_of_isOther unusedOther
  have endUntitled (listing : Listing) : Untitled listing last := untitled_of_isOther endOther
  have addedBefore (listing : Listing) (different : .added ≠ listing) :
      Untitled listing (first ++ Listing.added.lines settings result) :=
    (untitled_of_isOther summaryOther).append (untitled_lines_of_ne different)
  have missingBehind (listing : Listing) (different : .missing ≠ listing) :
      Untitled listing (kept ++ (Listing.missing.lines settings result ++ last)) :=
    (unusedUntitled listing).append ((untitled_lines_of_ne different).append (endUntitled listing))
  cases listing with
  | added =>
      have behind : Untitled .added (Listing.pruned.lines settings result ++
          (kept ++ (Listing.missing.lines settings result ++ last))) :=
        (untitled_lines_of_ne (by decide)).append (missingBehind .added (by decide))
      have stops := (stops_lines settings result .pruned).append keptStops
      simpa only [List.append_assoc] using
        read_append settings result (untitled_of_isOther summaryOther) behind stops
  | pruned =>
      simpa only [List.append_assoc] using
        read_append settings result (addedBefore .pruned (by decide))
          (missingBehind .pruned (by decide)) keptStops
  | missing =>
      have before : Untitled .missing (first ++ Listing.added.lines settings result ++
          Listing.pruned.lines settings result ++ kept) :=
        ((addedBefore .missing (by decide)).append (untitled_lines_of_ne (by decide))).append
          (unusedUntitled .missing)
      simpa only [List.append_assoc] using
        read_append settings result before (endUntitled .missing) lastStops

end Listing

/-! ## What a report tells -/

/-- On the ordinary channel stand the lists and the lines beside them, on the other the
warnings. -/
theorem filter_lines (settings : Settings) (quiet : Bool) (result : Result) :
    (lines settings quiet result).filter (·.channel = .output) =
        outputLines settings quiet result ∧
      (lines settings quiet result).filter (·.channel = .errors) = warnings result := by
  obtain ⟨front, back, all, output⟩ : ∃ front back,
      lines settings quiet result = front ++ (warnings result ++ back) ∧
        outputLines settings quiet result = front ++ back := by
    simp only [lines, outputLines, verdict_eq, List.append_assoc]
    exact ⟨_, _, rfl, rfl⟩
  have ordinary : ∀ line ∈ front ++ back, line.channel = .output := by
    rw [← output]
    exact output_of_mem_outputLines
  rw [List.forall_mem_append] at ordinary
  have apart : ∀ line ∈ warnings result, line.channel = .errors := by
    intro line present
    obtain ⟨warning, -, rfl⟩ := List.mem_map.mp present
    rfl
  simp only [all, output, List.filter_append]
  constructor
  · rw [List.filter_eq_self.mpr fun line present => by simp [ordinary.1 line present],
      List.filter_eq_nil_iff.mpr fun line present => by simp [apart line present],
      List.filter_eq_self.mpr fun line present => by simp [ordinary.2 line present],
      List.nil_append]
  · rw [List.filter_eq_nil_iff.mpr fun line present => by simp [ordinary.1 line present],
      List.filter_eq_self.mpr fun line present => by simp [apart line present],
      List.filter_eq_nil_iff.mpr fun line present => by simp [ordinary.2 line present],
      List.nil_append, List.append_nil]

theorem shownLines_output (plain : settings.IsPlain) (resultPlain : result.IsPlain) (quiet : Bool) :
    shownLines .output settings quiet result =
      (outputLines settings quiet result ++ [say []]).map Line.text := by
  have allPlain : ∀ line ∈ outputLines settings quiet result, Text.IsPlain line.text :=
    isPlain_of_mem_outputLines plain resultPlain
  have printed : (outputLines settings quiet result).map (Text.withoutCommands ·.text) =
      (outputLines settings quiet result).map Line.text :=
    List.map_congr_left fun line present => Text.withoutCommands_of_plain (allPlain line present)
  have single : ∀ text ∈ (outputLines settings quiet result).map Line.text, '\n' ∉ text := by
    intro text present
    obtain ⟨line, listed, rfl⟩ := List.mem_map.mp present
    exact (allPlain line listed).1
  have nothing : (Session.start ⟨[]⟩ none).printedOn .output = [] := rfl
  rw [shownLines, shown, Session.shownOn, printedOn_print, (filter_lines settings quiet result).1,
    printed, nothing, List.nil_append, Text.splitAtChar_flatMap_ended single, List.map_append]
  rfl

theorem shown_errors (settings : Settings) (quiet : Bool) (result : Result) :
    shown .errors settings quiet result =
      ((warnings result).map (Text.withoutCommands ·.text)).flatMap (· ++ ['\n']) := by
  rw [shown, Session.shownOn, printedOn_print, (filter_lines settings quiet result).2]
  rfl

/-- Every list is read back from what a report shows. -/
theorem Listing.read_shownLines (listing : Listing) (plain : settings.IsPlain)
    (resultPlain : result.IsPlain) (quiet : Bool) :
    listing.read (shownLines .output settings quiet result) = listing.names result := by
  rw [shownLines_output plain resultPlain, read_outputLines]

/-- The line that tells whether a result passes. -/
def verdictLine (result : Result) : Text :=
  if result.exitCode = 0 then "Package environment validation passed"
  else "Package environment validation failed"

/-- The lines of the three lists and the verdict. -/
def tellingLines (settings : Settings) (result : Result) : List Text :=
  (Listing.added.lines settings result ++ Listing.pruned.lines settings result ++
    Listing.missing.lines settings result).map Line.text ++ [verdictLine result]

theorem verdictLine_mem_closing (settings : Settings) (result : Result) :
    verdictLine result ∈ (closing settings result).map Line.text := by
  rw [verdictLine, closing, Result.exitCode]
  cases result.passes with
  | true => exact .tail _ (.head _)
  | false => exact .head _

theorem outputLines_quiet (settings : Settings) (result : Result) :
    outputLines settings true result =
      Listing.added.lines settings result ++ Listing.pruned.lines settings result ++
        Listing.missing.lines settings result ++ closing settings result := by
  simp only [outputLines, if_true, List.nil_append, List.append_nil]

theorem outputLines_quiet_sublist (settings : Settings) (result : Result) :
    (outputLines settings true result).Sublist (outputLines settings false result) := by
  rw [outputLines_quiet, outputLines]
  refine .append (.append ?_ (.refl _)) (.refl _)
  refine List.Sublist.trans ?_ (List.sublist_append_left _ _)
  exact .append (List.sublist_append_right _ _) (.refl _)

theorem tellingLines_sublist (settings : Settings) (result : Result) :
    (tellingLines settings result).Sublist ((outputLines settings true result).map Line.text) := by
  simp only [outputLines_quiet, tellingLines, List.map_append]
  exact .append (.refl _) (List.singleton_sublist.mpr (verdictLine_mem_closing settings result))

/-- A report loses nothing of what is added, removed and missing, nor of the verdict, whether
or not it is quiet: two results that show the same text on the ordinary channel agree on all of
these. A quiet report leaves out lines of the full one, but none of the three lists and not the
verdict, and shows the same on the channel for errors. -/
theorem report_tells_lists (settings : Settings) (quiet : Bool) (first second : Result)
    (plain : settings.IsPlain) (plainFirst : first.IsPlain) (plainSecond : second.IsPlain) :
    (shown .output settings quiet first = shown .output settings quiet second →
      first.missing = second.missing ∧ first.added = second.added ∧
        first.pruned = second.pruned ∧ first.exitCode = second.exitCode) ∧
    (shownLines .output settings true first).Sublist (shownLines .output settings false first) ∧
    (tellingLines settings first).Sublist (shownLines .output settings true first) ∧
    shown .errors settings true first = shown .errors settings false first := by
  refine ⟨fun same => ?_, ?_, ?_, ?_⟩
  · have told (listing : Listing) : listing.names first = listing.names second := by
      rw [← listing.read_shownLines plain plainFirst quiet, shownLines, same, ← shownLines,
        listing.read_shownLines plain plainSecond quiet]
    have missing : first.missing = second.missing := told .missing
    refine ⟨missing, told .added, told .pruned, ?_⟩
    rw [Result.exitCode, Result.exitCode, Result.passes, Result.passes, missing]
  · rw [shownLines_output plain plainFirst, shownLines_output plain plainFirst]
    exact (List.Sublist.append (outputLines_quiet_sublist settings first) (.refl _)).map _
  · rw [shownLines_output plain plainFirst, List.map_append]
    exact (tellingLines_sublist settings first).trans (List.sublist_append_left _ _)
  · rw [shown_errors, shown_errors]

/-- A result whose names look like parts of a report. -/
def puzzlingResult : Result :=
  { Result.empty with
    used := ["purrr"]
    declared := ["purrr"]
    missing := ["Removed unused packages from DESCRIPTION Imports:", ""]
    added := ["purrr", "  - tidyr"]
    pruned := ["- tidyr", "Missing from DESCRIPTION Imports:"]
    manifestFound := true
    warnings := ["Pruning skipped: the manifest is busy"] }

/-- Another one of which the report shows the same. -/
def likeResult : Result :=
  { puzzlingResult with used := ["dplyr"], declared := ["renv"], unused := ["renv"] }

theorem report_tells_lists_puzzlingResult :
    Settings.standard.IsPlain ∧ puzzlingResult.IsPlain ∧ likeResult.IsPlain ∧
      shown .output Settings.standard false puzzlingResult =
        shown .output Settings.standard false likeResult ∧
      (puzzlingResult.missing = likeResult.missing ∧ puzzlingResult.added = likeResult.added ∧
        puzzlingResult.pruned = likeResult.pruned ∧
        puzzlingResult.exitCode = likeResult.exitCode) ∧
      (shownLines .output Settings.standard true puzzlingResult).Sublist
        (shownLines .output Settings.standard false puzzlingResult) ∧
      (tellingLines Settings.standard puzzlingResult).Sublist
        (shownLines .output Settings.standard true puzzlingResult) ∧
      shown .errors Settings.standard true puzzlingResult =
        shown .errors Settings.standard false puzzlingResult := by
  have plain : Settings.standard.IsPlain := ⟨by decide, by decide, by decide⟩
  have plainFirst : puzzlingResult.IsPlain := ⟨by decide, by decide, by decide, by decide⟩
  have plainSecond : likeResult.IsPlain := ⟨by decide, by decide, by decide, by decide⟩
  have same : shown .output Settings.standard false puzzlingResult =
      shown .output Settings.standard false likeResult := by rfl
  obtain ⟨tells, fewer, kept, sameErrors⟩ := report_tells_lists Settings.standard false
    puzzlingResult likeResult plain plainFirst plainSecond
  exact ⟨plain, plainFirst, plainSecond, same, tells same, fewer, kept, sameErrors⟩

end Report
end DependencyGate

/-
# What a search reaches

The files that a search of some roots finds, said without searching. A way below a directory
leads through real directories, none of which is passed over, to an entry that is no directory
(`LiesBelow`); a link is one if its path can be followed to a directory. What is found under a
root are the entries at the end of such ways whose kind is asked for, as long as the directories
on the way can be listed: one whose path is too long to be followed is passed over in silence.

The order is that of the ways (`Way.Before`), and of several roots each adds what the ones before
it have not led to. All this is said of searches that are not ended early. One is ended by a root
that cannot be examined, and by directories that lie within more others than there is room for
(`failure_discover_eq_none_iff`); what it has found until then is right, but more is missed
(`search_misses_and_mistakes_files`).
-/

import DependencyGate.Headroom
import DependencyGate.Proofs.Source.Search
import Mathlib.Tactic.Choose

namespace DependencyGate

/-! ## Paths below a path -/

namespace Path

variable {path : Path} {names others : List Text} {name : Text}

/-- The path extended by further names. -/
def below (path : Path) (names : List Text) : Path := ⟨path.anchor, path.names ++ names⟩

@[simp]
theorem below_nil (path : Path) : path.below [] = path := by
  rw [below, List.append_nil]

@[simp]
theorem child_below (path : Path) (name : Text) (names : List Text) :
    (path.child name).below names = path.below (name :: names) := by
  rw [below, child, List.append_assoc]
  rfl

theorem below_injective (path : Path) : Function.Injective path.below := by
  intro names others same
  exact List.append_cancel_left (mk.inj same).2

end Path

namespace Source

variable {tree : FileTree} {room depth : Nat} {path root project : Path}
  {directory place : Location} {name : Text} {roots others : List Text} {kinds : List Kind}
  {kind : Kind}

/-! ## Ways below a directory -/

/-- A way from a directory to an entry below it: the directories that it leads through, and the
name of the entry in the last of them. -/
structure Way where
  steps : List Text
  name : Text
deriving DecidableEq

namespace Way

/-- The names along a way. -/
def names (way : Way) : List Text := way.steps ++ [way.name]

/-- The way that starts with one more directory. -/
def within (directory : Text) (way : Way) : Way := ⟨directory :: way.steps, way.name⟩

/-- The order in which a directory is searched: its own files in ascending order, and then what
lies in its subdirectories, which are in ascending order too. -/
inductive Before : Way → Way → Prop
  | file {first second : Text} (ascending : first < second) : Before ⟨[], first⟩ ⟨[], second⟩
  | fileFirst (name : Text) (directory : Text) (way : Way) :
      Before ⟨[], name⟩ (way.within directory)
  | directory {first second : Text} (ascending : first < second) (way other : Way) :
      Before (way.within first) (other.within second)
  | within (directory : Text) {way other : Way} (before : Before way other) :
      Before (way.within directory) (other.within directory)

end Way

/-- Whether what stands at a place is listed as a file: a regular file, or a link that cannot be
followed to a directory. -/
def IsListedFile (tree : FileTree) (path : Path) (place : Location) : Prop :=
  (∃ mode content, tree.node? place = some (.file mode content)) ∨
    (∃ written, tree.node? place = some (.link written)) ∧ tree.isDirectory path ≠ .ok true

/-- Whether a way leads from a directory, which `path` leads to, through real directories that
are searched to an entry that is listed as a file. -/
structure LiesBelow (tree : FileTree) (path : Path) (directory : Location) (way : Way) : Prop where
  inside : ∀ above, above <+: way.steps → tree.isDirectoryAt (directory ++ above) = true
  searched : ∀ step ∈ way.steps, step ∉ skippedDirectories
  listed : IsListedFile tree (path.below way.names) (directory ++ way.names)

/-- Whether the paths of all directories on a way are short enough for the directories to be
listed. -/
def IsListable (path : Path) (way : Way) : Prop :=
  ∀ above, above <+: way.steps → FileTree.writtenFault? (path.below above).text = none

/-- Whether a search of a directory gets to the end of a way. -/
def GetsTo (tree : FileTree) (path : Path) (directory : Location) (way : Way) : Prop :=
  LiesBelow tree path directory way ∧ IsListable path way

theorem mem_fileNames_iff :
    name ∈ tree.fileNames path directory ↔
      IsListedFile tree (path.child name) (directory ++ [name]) := by
  rw [FileTree.fileNames, List.mem_filter, FileTree.mem_namesIn, FileTree.listsDirectory,
    IsListedFile, Bool.not_eq_true', ← Bool.not_eq_true]
  cases tree.node? (directory ++ [name]) with
  | none => simp
  | some node =>
      cases node with
      | file mode content => simp [Node.isDirectory]
      | directory mode => simp [Node.isDirectory]
      | link written => simp [FileTree.leadsToDirectory_eq_true_iff]

/-- A search goes on to all directories that are not passed over. -/
theorem mem_subdirectoryNames_iff (inside : tree.isDirectoryAt (directory ++ [name]) = true) :
    name ∈ subdirectoryNames tree path directory ↔ name ∉ skippedDirectories := by
  obtain ⟨mode, held⟩ := FileTree.isDirectoryAt_eq_true_iff.mp inside
  simp [subdirectoryNames, FileTree.mem_namesIn, FileTree.listsDirectory, held, Node.isDirectory]

/-- A search gets to the files of the directory itself. -/
theorem getsTo_file_iff (inside : tree.isDirectoryAt directory = true)
    (short : FileTree.writtenFault? path.text = none) :
    GetsTo tree path directory ⟨[], name⟩ ↔ name ∈ tree.fileNames path directory := by
  rw [mem_fileNames_iff]
  constructor
  · rintro ⟨lies, -⟩
    exact lies.listed
  · intro listed
    refine ⟨⟨?_, by simp, listed⟩, ?_⟩
    · intro above higher
      rwa [List.prefix_nil.mp higher, List.append_nil]
    · intro above higher
      rwa [List.prefix_nil.mp higher, Path.below_nil]

/-- And it gets to what it gets to in the subdirectories that it goes on to. -/
theorem getsTo_within_iff (inside : tree.isDirectoryAt directory = true)
    (short : FileTree.writtenFault? path.text = none) (name : Text) (way : Way) :
    GetsTo tree path directory (way.within name) ↔
      name ∈ subdirectoryNames tree path directory ∧
        GetsTo tree (path.child name) (directory ++ [name]) way := by
  have along (above : List Text) : directory ++ [name] ++ above = directory ++ name :: above := by
    rw [List.append_assoc, List.singleton_append]
  constructor
  · rintro ⟨lies, listable⟩
    have first : [name] <+: (way.within name).steps := List.prefix_append [name] way.steps
    have behind {above : List Text} (higher : above <+: way.steps) :
        name :: above <+: (way.within name).steps := List.cons_prefix_cons.mpr ⟨rfl, higher⟩
    refine ⟨(mem_subdirectoryNames_iff (lies.inside _ first)).mpr
      (lies.searched name List.mem_cons_self), ⟨?_, ?_, ?_⟩, ?_⟩
    · intro above higher
      rw [along]
      exact lies.inside _ (behind higher)
    · exact fun step listed => lies.searched step (List.mem_cons_of_mem name listed)
    · rw [along, Path.child_below]
      exact lies.listed
    · intro above higher
      rw [Path.child_below]
      exact listable _ (behind higher)
  · rintro ⟨entered, lies, listable⟩
    have searched : name ∉ skippedDirectories :=
      (mem_subdirectoryNames_iff (by simpa using lies.inside [] List.nil_prefix)).mp entered
    refine ⟨⟨?_, ?_, ?_⟩, ?_⟩
    · intro above higher
      rcases List.prefix_cons_iff.mp higher with rfl | ⟨behind, rfl, shorter⟩
      · rwa [List.append_nil]
      · rw [← along]
        exact lies.inside behind shorter
    · intro step listed
      rcases List.mem_cons.mp listed with rfl | later
      · exact searched
      · exact lies.searched step later
    · have listed := lies.listed
      rwa [along, Path.child_below] at listed
    · intro above higher
      rcases List.prefix_cons_iff.mp higher with rfl | ⟨behind, rfl, shorter⟩
      · rwa [Path.below_nil]
      · rw [← Path.child_below]
        exact listable behind shorter

/-! ## The search of a directory -/

/-- Whether a search finds its way to directories of which so many lie within one another, from
what `path` leads to on. It is a way to linked directories too, and to such as are too far to be
listed, but not through them. -/
inductive NestsTo (tree : FileTree) : Nat → Path → Location → Prop
  | itself (path : Path) (place : Location) : NestsTo tree 1 path place
  | deeper {depth : Nat} {path : Path} {place : Location} {name : Text}
      (inside : tree.isDirectoryAt place = true)
      (short : FileTree.writtenFault? path.text = none)
      (listed : name ∈ subdirectoryNames tree path place)
      (below : NestsTo tree depth (path.child name) (place ++ [name])) :
      NestsTo tree (depth + 1) path place

/-- A place is searched for more if it is a directory that can be listed. -/
theorem searched_iff :
    (tree.isDirectoryAt place && (FileTree.writtenFault? path.text).isNone) = true ↔
      tree.isDirectoryAt place = true ∧ FileTree.writtenFault? path.text = none := by
  rw [Bool.and_eq_true, Option.isNone_iff_eq_none]

/-- What is not searched for more has no files. -/
theorem filesBelow_of_not_searched
    (closed : ¬(tree.isDirectoryAt place = true ∧ FileTree.writtenFault? path.text = none)) :
    filesBelow tree (room + 1) path place = ⟨[], none⟩ := by
  rw [filesBelow, if_neg (mt searched_iff.mp closed)]

theorem filesBelow_of_searched (inside : tree.isDirectoryAt place = true)
    (short : FileTree.writtenFault? path.text = none) :
    filesBelow tree (room + 1) path place =
      Search.followedBy ⟨(tree.fileNames path place).map path.child, none⟩
        (Search.inTurn ((subdirectoryNames tree path place).map fun name =>
          filesBelow tree room (path.child name) (place ++ [name]))) := by
  rw [filesBelow, if_pos (searched_iff.mpr ⟨inside, short⟩)]

/-- A search is not ended early exactly if there is room for the directories within one another
that it finds its way to. -/
theorem fault_filesBelow_eq_none_iff (room : Nat) (path : Path) (place : Location) :
    (filesBelow tree room path place).fault = none ↔
      ∀ depth, NestsTo tree depth path place → depth ≤ room := by
  induction room generalizing path place with
  | zero => exact iff_of_false (by simp [filesBelow]) fun shallow =>
      absurd (shallow 1 (.itself path place)) (by decide)
  | succ room ih =>
      by_cases searched : tree.isDirectoryAt place = true ∧
        FileTree.writtenFault? path.text = none
      case neg =>
        rw [filesBelow_of_not_searched searched]
        refine iff_of_true rfl fun depth nests => ?_
        cases nests with
        | itself => exact Nat.le_add_left 1 room
        | deeper inside short => exact absurd ⟨inside, short⟩ searched
      case pos =>
        obtain ⟨inside, short⟩ := searched
        rw [filesBelow_of_searched inside short, Search.fault_followedBy_eq_none_iff,
          Search.fault_inTurn_eq_none_iff, List.forall_mem_map, and_iff_right rfl]
        simp only [ih]
        constructor
        · intro shallow depth nests
          cases nests with
          | itself => exact Nat.le_add_left 1 room
          | deeper _ _ listed below => exact Nat.succ_le_succ (shallow _ listed _ below)
        · intro shallow name listed depth below
          exact Nat.le_of_succ_le_succ (shallow _ (.deeper inside short listed below))

/-- Whatever a search finds, even one that is ended early, lies at the end of a way that it gets
to, and within no more directories than there was room for. -/
theorem exists_way_of_mem_filesBelow {found : Path}
    (listed : found ∈ (filesBelow tree room path place).files) :
    ∃ way : Way, GetsTo tree path place way ∧ way.steps.length < room ∧
      found = path.below way.names := by
  induction room generalizing path place with
  | zero => cases listed
  | succ room ih =>
      by_cases searched : tree.isDirectoryAt place = true ∧
        FileTree.writtenFault? path.text = none
      case neg =>
        rw [filesBelow_of_not_searched searched] at listed
        cases listed
      case pos =>
        obtain ⟨inside, short⟩ := searched
        rw [filesBelow_of_searched inside short, Search.files_followedBy rfl,
          List.mem_append] at listed
        rcases listed with own | below
        · obtain ⟨name, listed, rfl⟩ := List.mem_map.mp own
          exact ⟨⟨[], name⟩, (getsTo_file_iff inside short).mpr listed, Nat.succ_pos room, rfl⟩
        · have inOne := Search.files_inTurn_subset below
          rw [List.flatMap_map, List.mem_flatMap] at inOne
          obtain ⟨name, entered, inOne⟩ := inOne
          obtain ⟨way, reached, near, rfl⟩ := ih inOne
          exact ⟨way.within name, (getsTo_within_iff inside short name way).mpr ⟨entered, reached⟩,
            Nat.succ_lt_succ near, Path.child_below path name way.names⟩

/-- No way to directories leads on where no entries are. -/
theorem NestsTo.cases_of_length_lt (nests : NestsTo tree depth path place)
    (places : ∀ entry ∈ tree.entries, entry.1.length < room) :
    depth = 1 ∨ place.length + depth ≤ room := by
  induction nests with
  | itself => exact .inl rfl
  | @deeper depth path place name _ _ listed _ ih =>
      have held := FileTree.mem_namesIn.mp (List.mem_filter.mp listed).1
      rw [FileTree.node?, if_neg (by simp)] at held
      obtain ⟨node, found⟩ := Option.ne_none_iff_exists'.mp held
      obtain ⟨before, after, split, -⟩ := List.lookup_eq_some_iff.mp found
      have bounded := places (place ++ [name], node) (by simp [split])
      rw [List.length_append, List.length_singleton] at bounded ih
      omega

/-- Whether paths are those at the end of the ways that a search of a directory gets to, in the
order of these ways. -/
def ListsInOrder (files : List Path) (path : Path) (reached : Way → Prop) : Prop :=
  ∃ ways : List Way, ways.Pairwise Way.Before ∧ (∀ way, way ∈ ways ↔ reached way) ∧
    files = ways.map fun way => path.below way.names

/-- A search that is not ended early finds what it gets to, the files of a directory first and
then those of its subdirectories, both in ascending order. -/
theorem listsInOrder_filesBelow (completed : (filesBelow tree room path place).fault = none) :
    ListsInOrder (filesBelow tree room path place).files path (GetsTo tree path place) := by
  induction room generalizing path place with
  | zero => cases completed
  | succ room ih =>
      by_cases searched : tree.isDirectoryAt place = true ∧
        FileTree.writtenFault? path.text = none
      case neg =>
        rw [filesBelow_of_not_searched searched]
        refine ⟨[], .nil, fun way => iff_of_false List.not_mem_nil ?_, rfl⟩
        rintro ⟨lies, listable⟩
        exact searched ⟨by simpa using lies.inside [] List.nil_prefix,
          by simpa using listable [] List.nil_prefix⟩
      obtain ⟨inside, short⟩ := searched
      rw [filesBelow_of_searched inside short, Search.fault_followedBy_eq_none_iff] at completed
      rw [filesBelow_of_searched inside short, Search.files_followedBy rfl,
        Search.files_inTurn completed.2, List.flatMap_map]
      have deeper (name : Text) (entered : name ∈ subdirectoryNames tree path place) :
          ListsInOrder (filesBelow tree room (path.child name) (place ++ [name])).files
            (path.child name) (GetsTo tree (path.child name) (place ++ [name])) :=
        ih (Search.fault_inTurn_eq_none_iff.mp completed.2 _ (List.mem_map_of_mem entered))
      choose! ways ordered listed found using deeper
      refine ⟨(tree.fileNames path place).map (⟨[], ·⟩) ++
        (subdirectoryNames tree path place).flatMap fun name => (ways name).map (·.within name),
        ?_, ?_, ?_⟩
      · refine List.pairwise_append.mpr ⟨?_, List.pairwise_flatMap.mpr ⟨?_, ?_⟩, ?_⟩
        · exact ((pairwise_canonical _).filter _).map _ fun _ _ => Way.Before.file
        · intro name entered
          exact (ordered name entered).map _ fun _ _ => Way.Before.within name
        · refine ((pairwise_canonical _).filter _).imp fun ascending => ?_
          intro front atFirst back atSecond
          obtain ⟨way, -, rfl⟩ := List.mem_map.mp atFirst
          obtain ⟨other, -, rfl⟩ := List.mem_map.mp atSecond
          exact .directory ascending way other
        · intro front own back below
          obtain ⟨name, -, rfl⟩ := List.mem_map.mp own
          obtain ⟨step, -, inStep⟩ := List.mem_flatMap.mp below
          obtain ⟨way, -, rfl⟩ := List.mem_map.mp inStep
          exact .fileFirst name step way
      · rintro ⟨steps, name⟩
        rw [List.mem_append, List.mem_map, List.mem_flatMap]
        cases steps with
        | nil =>
            rw [getsTo_file_iff inside short]
            simp [Way.within]
        | cons step steps =>
            change _ ↔ GetsTo tree path place (Way.within step ⟨steps, name⟩)
            rw [getsTo_within_iff inside short]
            constructor
            · rintro (⟨_, -, equal⟩ | ⟨other, entered, inStep⟩)
              · simp at equal
              · obtain ⟨⟨steps, name⟩, present, equal⟩ := List.mem_map.mp inStep
                simp only [Way.within, Way.mk.injEq, List.cons.injEq] at equal
                obtain ⟨⟨rfl, rfl⟩, rfl⟩ := equal
                exact ⟨entered, (listed _ entered _).mp present⟩
            · rintro ⟨entered, reached⟩
              exact .inr ⟨step, entered,
                List.mem_map_of_mem ((listed step entered _).mpr reached)⟩
      · rw [List.map_append, List.map_map, List.map_flatMap]
        congr 1
        apply List.flatMap_congr
        intro name entered
        rw [found name entered, List.map_map]
        apply List.map_congr_left
        intro way _
        exact Path.child_below path name way.names

/-! ## The search of a root -/

/-- Whether a way leads from a root to an entry below it. A root that is no directory, or that is
not there, has no such way. -/
def LiesUnder (tree : FileTree) (root : Path) (way : Way) : Prop :=
  ∃ directory, tree.resolve root = .ok directory ∧ LiesBelow tree root directory way

/-- Whether a root can be examined, so that it is known whether it is a directory. -/
def CanBeExamined (tree : FileTree) (root : Path) : Prop :=
  ∃ answer, tree.isDirectory root = .ok answer

/-- Whether there is room for the directories that lie within one another under a root, the root
included. -/
def NestsWithin (tree : FileTree) (room : Nat) (root : Path) : Prop :=
  ∀ directory, tree.resolve root = .ok directory → tree.isDirectoryAt directory = true →
    ∀ depth, NestsTo tree depth root directory → depth ≤ room

/-- There is room if there is for the longest places of entries. -/
theorem nestsWithin_of_length_lt (some : 0 < room)
    (places : ∀ entry ∈ tree.entries, entry.1.length < room) : NestsWithin tree room root := by
  intro directory _ _ depth nests
  have cases := nests.cases_of_length_lt places
  omega

theorem isDirectory_of_resolve (resolved : tree.resolve root = .ok directory)
    (inside : tree.isDirectoryAt directory = true) : tree.isDirectory root = .ok true := by
  obtain ⟨mode, held⟩ := FileTree.isDirectoryAt_eq_true_iff.mp inside
  rw [FileTree.isDirectory, FileTree.test, FileTree.nodeAt, resolved]
  simp only [held, Node.isDirectory]

theorem exists_resolve_of_isDirectory (asked : tree.isDirectory root = .ok true) :
    ∃ directory, tree.resolve root = .ok directory ∧ tree.isDirectoryAt directory = true := by
  have leads := FileTree.leadsToDirectory_eq_true_iff.mpr asked
  rw [FileTree.leadsToDirectory] at leads
  split at leads
  case h_2 => cases leads
  case h_1 node found =>
    obtain ⟨directory, resolved, held⟩ := FileTree.nodeAt_eq_ok_iff.mp found
    exact ⟨directory, resolved, by rw [FileTree.isDirectoryAt, held]; exact leads⟩

theorem isDirectory_of_liesUnder {way : Way} (lies : LiesUnder tree root way) :
    tree.isDirectory root = .ok true := by
  obtain ⟨directory, resolved, below⟩ := lies
  exact isDirectory_of_resolve resolved (by simpa using below.inside [] List.nil_prefix)

theorem filesUnder_of_resolve (resolved : tree.resolve root = .ok directory)
    (inside : tree.isDirectoryAt directory = true) :
    filesUnder tree room root = filesBelow tree room root directory := by
  rw [filesUnder, isDirectory_of_resolve resolved inside, resolved]

/-- The search of a root is not ended early exactly if the root can be examined and there is room
for what lies under it. -/
theorem fault_filesUnder_eq_none_iff :
    (filesUnder tree room root).fault = none ↔
      CanBeExamined tree root ∧ NestsWithin tree room root := by
  cases asked : tree.isDirectory root with
  | error error =>
      refine iff_of_false (by simp [filesUnder, asked]) ?_
      rintro ⟨⟨answer, examined⟩, -⟩
      cases asked.symm.trans examined
  | ok answer =>
      have examined : CanBeExamined tree root := ⟨answer, asked⟩
      cases answer with
      | false =>
          refine iff_of_true (by simp [filesUnder, asked]) ⟨examined, ?_⟩
          intro directory resolved inside
          cases asked.symm.trans (isDirectory_of_resolve resolved inside)
      | true =>
          obtain ⟨directory, resolved, inside⟩ := exists_resolve_of_isDirectory asked
          rw [filesUnder_of_resolve resolved inside, fault_filesBelow_eq_none_iff]
          refine ⟨fun shallow => ⟨examined, ?_⟩, fun both => both.2 _ resolved inside⟩
          intro other resolvedToo _
          rwa [← Except.ok.inj (resolved.symm.trans resolvedToo)]

theorem exists_way_of_mem_filesUnder (listed : path ∈ (filesUnder tree room root).files) :
    ∃ way, LiesUnder tree root way ∧ IsListable root way ∧ way.steps.length < room ∧
      path = root.below way.names := by
  rw [filesUnder] at listed
  split at listed
  case h_1 | h_2 => cases listed
  case h_3 =>
    split at listed
    case h_1 => cases listed
    case h_2 directory resolved =>
      obtain ⟨way, ⟨lies, listable⟩, near, same⟩ := exists_way_of_mem_filesBelow listed
      exact ⟨way, ⟨directory, resolved, lies⟩, listable, near, same⟩

/-- A search of a root that is not ended early finds all entries under it. -/
theorem listsInOrder_filesUnder (completed : (filesUnder tree room root).fault = none) :
    ListsInOrder (filesUnder tree room root).files root
      fun way => LiesUnder tree root way ∧ IsListable root way := by
  obtain ⟨⟨answer, asked⟩, -⟩ := fault_filesUnder_eq_none_iff.mp completed
  cases answer with
  | false =>
      rw [filesUnder, asked]
      refine ⟨[], .nil, fun way => iff_of_false List.not_mem_nil ?_, rfl⟩
      rintro ⟨lies, -⟩
      cases asked.symm.trans (isDirectory_of_liesUnder lies)
  | true =>
      obtain ⟨directory, resolved, inside⟩ := exists_resolve_of_isDirectory asked
      rw [filesUnder_of_resolve resolved inside] at completed ⊢
      obtain ⟨ways, ordered, listed, found⟩ := listsInOrder_filesBelow completed
      refine ⟨ways, ordered, fun way => (listed way).trans ?_, found⟩
      simp [GetsTo, LiesUnder, resolved]

/-! ## The search of several roots -/

section Repetitions

variable {α : Type} [BEq α]

theorem eraseDups_sublist (items : List α) : items.eraseDups.Sublist items := by
  match items with
  | [] => simp
  | item :: items =>
      rw [List.eraseDups_cons]
      exact ((eraseDups_sublist _).trans List.filter_sublist).cons_cons item
termination_by items.length
decreasing_by exact Nat.lt_succ_of_le (List.length_filter_le ..)

variable [LawfulBEq α]

theorem nodup_eraseDups (items : List α) : items.eraseDups.Nodup := by
  match items with
  | [] => simp
  | item :: items =>
      rw [List.eraseDups_cons, List.nodup_cons]
      refine ⟨?_, nodup_eraseDups _⟩
      simp [List.mem_eraseDups]
termination_by items.length
decreasing_by exact Nat.lt_succ_of_le (List.length_filter_le ..)

theorem eraseDups_filter (keep : α → Bool) (items : List α) :
    (items.filter keep).eraseDups = items.eraseDups.filter keep := by
  match items with
  | [] => simp
  | item :: items =>
      rw [List.eraseDups_cons, List.filter_cons, List.filter_cons, ← eraseDups_filter keep,
        List.filter_filter]
      split
      case isTrue =>
        rw [List.eraseDups_cons, List.filter_filter]
        simp only [Bool.and_comm]
      case isFalse dropped =>
        congr 1
        apply List.filter_congr
        intro other _
        by_cases same : other = item
        · simp [same, dropped]
        · simp [same]
termination_by items.length
decreasing_by exact Nat.lt_succ_of_le (List.length_filter_le ..)

end Repetitions

/-- The kind of a file is told by its suffix, in upper or lower case. -/
theorem ofPath?_eq_some_iff :
    Kind.ofPath? path = some kind ↔ Text.lower path.suffix = kind.suffix := by
  rw [Kind.ofPath?]
  constructor
  · intro found
    have same := List.find?_some found
    exact (of_decide_eq_true same).symm
  · intro same
    rw [same]
    cases kind <;> decide

theorem recognised?_eq_some_iff {found : Path} :
    recognised? kinds path = some (found, kind) ↔
      found = path ∧ kind ∈ kinds ∧ Text.lower path.suffix = kind.suffix := by
  rw [recognised?, ← ofPath?_eq_some_iff]
  cases Kind.ofPath? path with
  | none => simp
  | some other =>
      rw [Option.ite_none_right_eq_some, Option.some.injEq, Prod.mk.injEq, Option.some.injEq]
      constructor
      · rintro ⟨wanted, rfl, rfl⟩
        exact ⟨rfl, wanted, rfl⟩
      · rintro ⟨rfl, wanted, rfl⟩
        exact ⟨wanted, rfl, rfl⟩

/-- What is taken for source files keeps its order. -/
theorem map_fst_recognised_sublist (files : List Path) :
    ((files.filterMap (recognised? kinds)).map Prod.fst).Sublist files := by
  induction files with
  | nil => simp
  | cons path files ih =>
      rw [List.filterMap_cons]
      split
      case h_1 => exact ih.cons path
      case h_2 found recognised =>
        rw [List.map_cons, eq_of_recognised? recognised]
        exact ih.cons_cons path

theorem found_discover (tree : FileTree) (room : Nat) (project : Path) (roots : List Text)
    (kinds : List Kind) :
    (discover tree room project roots kinds).found =
      ((filesUnderRoots tree room project roots).files.filterMap
        (recognised? kinds)).eraseDups := rfl

/-- A search of scan roots is not ended early exactly if each of them can be examined and there is
room for what lies under them. -/
theorem failure_discover_eq_none_iff :
    (discover tree room project roots kinds).failure = none ↔
      ∀ root ∈ roots, CanBeExamined tree (project.join root) ∧
        NestsWithin tree room (project.join root) := by
  rw [← forall₂_congr fun root _ => fault_filesUnder_eq_none_iff]
  exact failure_filesUnderRoots_eq_none_iff

/-- Whatever a search finds, even one that is ended early, are entries of one of the kinds under
one of the roots. -/
theorem exists_way_of_mem_found
    (listed : (path, kind) ∈ (discover tree room project roots kinds).found) :
    kind ∈ kinds ∧ Text.lower path.suffix = kind.suffix ∧
      ∃ root ∈ roots, ∃ way, LiesUnder tree (project.join root) way ∧
        IsListable (project.join root) way ∧ way.steps.length < room ∧
        path = (project.join root).below way.names := by
  rw [found_discover, List.mem_eraseDups, List.mem_filterMap] at listed
  obtain ⟨other, present, recognised⟩ := listed
  obtain ⟨rfl, wanted, suffix⟩ := recognised?_eq_some_iff.mp recognised
  have underOne := Search.files_inTurn_subset present
  rw [List.flatMap_map, List.mem_flatMap] at underOne
  obtain ⟨root, given, under⟩ := underOne
  obtain ⟨way, lies, listable, near, same⟩ := exists_way_of_mem_filesUnder under
  exact ⟨wanted, suffix, root, given, way, lies, listable, near, same⟩

/-- The entries of one of the kinds under one of the roots are found. -/
theorem mem_found_iff (searched : (discover tree room project roots kinds).failure = none) :
    (path, kind) ∈ (discover tree room project roots kinds).found ↔
      kind ∈ kinds ∧ Text.lower path.suffix = kind.suffix ∧
        ∃ root ∈ roots, ∃ way, LiesUnder tree (project.join root) way ∧
          IsListable (project.join root) way ∧ path = (project.join root).below way.names := by
  have under : path ∈ (filesUnderRoots tree room project roots).files ↔
      ∃ root ∈ roots, ∃ way, LiesUnder tree (project.join root) way ∧
        IsListable (project.join root) way ∧ path = (project.join root).below way.names := by
    rw [mem_filesUnderRoots_iff searched]
    refine exists_congr fun root => and_congr_right fun given => ?_
    obtain ⟨ways, -, listed, found⟩ :=
      listsInOrder_filesUnder (failure_filesUnderRoots_eq_none_iff.mp searched root given)
    simp [found, listed, and_assoc, eq_comm (a := path)]
  rw [found_discover, List.mem_eraseDups, List.mem_filterMap, ← under]
  simp only [recognised?_eq_some_iff]
  constructor
  · rintro ⟨_, present, rfl, recognised⟩
    exact ⟨recognised.1, recognised.2, present⟩
  · rintro ⟨wanted, suffix, present⟩
    exact ⟨path, present, rfl, wanted, suffix⟩

/-- No path is found twice. -/
theorem nodup_found : ((discover tree room project roots kinds).found.map Prod.fst).Nodup := by
  rw [found_discover]
  refine (nodup_eraseDups _).map_on fun first atFirst second atSecond same => ?_
  simp only [List.mem_eraseDups, List.mem_filterMap] at atFirst atSecond
  obtain ⟨path, -, recognised⟩ := atFirst
  obtain ⟨other, -, recognisedToo⟩ := atSecond
  rw [eq_of_recognised? recognised, eq_of_recognised? recognisedToo] at same
  rw [same, recognisedToo] at recognised
  exact (Option.some.inj recognised).symm

/-- Under a single root, what is found comes in the order of the ways. -/
theorem exists_ways_of_single {root : Text}
    (searched : (discover tree room project [root] kinds).failure = none) :
    ∃ ways : List Way, ways.Pairwise Way.Before ∧
      (discover tree room project [root] kinds).found.map Prod.fst =
        ways.map fun way => (project.join root).below way.names := by
  obtain ⟨ways, ordered, -, under⟩ := listsInOrder_filesUnder
    (failure_filesUnderRoots_eq_none_iff.mp searched root (List.mem_singleton_self root))
  have single : (filesUnderRoots tree room project [root]).files =
      ways.map fun way => (project.join root).below way.names := by
    rw [filesUnderRoots, Search.files_inTurn searched, List.map_singleton, List.flatMap_singleton,
      under]
  have fewer : ((discover tree room project [root] kinds).found.map Prod.fst).Sublist
      (ways.map fun way => (project.join root).below way.names) := by
    rw [found_discover, single]
    exact ((eraseDups_sublist _).map _).trans (map_fst_recognised_sublist _)
  obtain ⟨kept, sublist, found⟩ := List.sublist_map_iff.mp fewer
  exact ⟨kept, ordered.sublist sublist, found⟩

/-- Further roots add what the roots before them have not led to. -/
theorem found_append
    (searched : (discover tree room project (roots ++ others) kinds).failure = none) :
    (discover tree room project (roots ++ others) kinds).found =
      (discover tree room project roots kinds).found ++
        without (discover tree room project others kinds).found
          (discover tree room project roots kinds).found := by
  have files : (filesUnderRoots tree room project (roots ++ others)).files =
      (filesUnderRoots tree room project roots).files ++
        (filesUnderRoots tree room project others).files := by
    have completed {part : List Text} (fewer : part ⊆ roots ++ others) :
        (filesUnderRoots tree room project part).fault = none :=
      failure_discover_eq_none_of_subset fewer searched
    rw [filesUnderRoots, Search.files_inTurn searched, List.map_append, List.flatMap_append,
      ← Search.files_inTurn (completed (List.subset_append_left _ _)),
      ← Search.files_inTurn (completed (List.subset_append_right _ _))]
    rfl
  rw [found_discover, found_discover, found_discover, files, List.filterMap_append,
    List.eraseDups_append, without, List.removeAll, eraseDups_filter]
  generalize (filesUnderRoots tree room project roots).files.filterMap (recognised? kinds) = earlier
  congr 1
  apply List.filter_congr
  intro found _
  simp [List.mem_eraseDups]

/-! ## Exactness -/

/-- What a search of scan roots comes to: it completes; it finds no path twice, and it finds the
entries of the kinds asked for that lie under one of the roots and can be listed; what it finds
under one root comes in the order of the ways; each root adds what those before it have not led
to; and only which roots there are matters for what is found, not their order or repetition. -/
structure SearchesExactly (tree : FileTree) (room : Nat) (project : Path) (kinds : List Kind)
    (roots : List Text) : Prop where
  completes : (discover tree room project roots kinds).failure = none
  once : ((discover tree room project roots kinds).found.map Prod.fst).Nodup
  found_iff : ∀ path kind, (path, kind) ∈ (discover tree room project roots kinds).found ↔
    kind ∈ kinds ∧ Text.lower path.suffix = kind.suffix ∧
      ∃ root ∈ roots, ∃ way, LiesUnder tree (project.join root) way ∧
        IsListable (project.join root) way ∧ path = (project.join root).below way.names
  ordered : ∀ root ∈ roots, ∃ ways : List Way, ways.Pairwise Way.Before ∧
    (discover tree room project [root] kinds).found.map Prod.fst =
      ways.map fun way => (project.join root).below way.names
  in_turn : ∀ earlier later, roots = earlier ++ later →
    (discover tree room project roots kinds).found =
      (discover tree room project earlier kinds).found ++
        without (discover tree room project later kinds).found
          (discover tree room project earlier kinds).found
  same_set : ∀ others, (∀ root, root ∈ others ↔ root ∈ roots) →
    ∀ found, found ∈ (discover tree room project others kinds).found ↔
      found ∈ (discover tree room project roots kinds).found

/-- A search finds exactly what it can reach, in its order and without repetitions, in every tree
and whatever the roots, as long as each of them can be examined and there is room for the
directories that lie within one another under it. -/
theorem discover_searchesExactly
    (examined : ∀ root ∈ roots, CanBeExamined tree (project.join root))
    (shallow : ∀ root ∈ roots, NestsWithin tree room (project.join root)) :
    SearchesExactly tree room project kinds roots := by
  have searched {others : List Text} (given : others ⊆ roots) :
      (discover tree room project others kinds).failure = none :=
    failure_discover_eq_none_iff.mpr fun root listed =>
      ⟨examined root (given listed), shallow root (given listed)⟩
  have completes := searched (List.Subset.refl roots)
  refine ⟨completes, nodup_found, fun _ _ => mem_found_iff completes, ?_, ?_, ?_⟩
  · intro root listed
    exact exists_ways_of_single (searched (List.cons_subset.mpr ⟨listed, List.nil_subset _⟩))
  · rintro earlier later rfl
    exact found_append completes
  · rintro others same ⟨path, kind⟩
    rw [mem_found_iff completes, mem_found_iff (searched fun root => (same root).mp)]
    simp only [same]

/-- A project with a dangling link, a link to a directory, a directory that is passed over and
one that is a root of its own. -/
def tangledProject : FileTree :=
  ⟨[(["R"], .directory 0o755), (["R", "b.R"], .file 0o644 []), (["R", "a.Rmd"], .link "gone"),
    (["R", "me.R"], .link "."), (["R", "renv"], .directory 0o755),
    (["R", "renv", "c.R"], .file 0o644 []), (["R", "sub"], .directory 0o755),
    (["R", "sub", "d.QMD"], .file 0o644 [])]⟩

/-- All four roots can be examined, also the one that is not there. -/
theorem tangledProject_searchesExactly :
    (∀ root ∈ ([("R/sub" : Text), "R", "missing", "R"] : List Text),
        CanBeExamined tangledProject ((Path.anchored []).join root) ∧
          NestsWithin tangledProject Headroom.usual.directories ((Path.anchored []).join root)) ∧
      SearchesExactly tangledProject Headroom.usual.directories (.anchored []) Kind.all
        ["R/sub", "R", "missing", "R"] ∧
      (discover tangledProject Headroom.usual.directories (.anchored [])
          ["R/sub", "R", "missing", "R"] Kind.all).found =
        [(.anchored ["R", "sub", "d.QMD"], .quarto), (.anchored ["R", "a.Rmd"], .markdown),
          (.anchored ["R", "b.R"], .script)] := by
  have examined : ∀ root ∈ ([("R/sub" : Text), "R", "missing", "R"] : List Text),
      CanBeExamined tangledProject ((Path.anchored []).join root) := by
    simp only [List.forall_mem_cons]
    exact ⟨⟨true, rfl⟩, ⟨true, rfl⟩, ⟨false, rfl⟩, ⟨true, rfl⟩, by simp⟩
  have shallow (root : Text) :
      NestsWithin tangledProject Headroom.usual.directories ((Path.anchored []).join root) :=
    nestsWithin_of_length_lt (by decide) (by decide)
  exact ⟨fun root listed => ⟨examined root listed, shallow root⟩,
    discover_searchesExactly examined fun root _ => shallow root, rfl⟩

/-! ## Limits of a search -/

/-- A name that is long, but not too long for a directory. -/
def deepName : Text := List.replicate 200 's'

/-- A project with a link to the directory that it lies in, and a file in a directory. -/
def knottedProject : FileTree :=
  ⟨[(["R"], .directory 0o755), (["R", "me.R"], .link "."), (["R", deepName], .directory 0o755),
    (["R", deepName, "a.R"], .file 0o644 [])]⟩

/-- Names that go in and out of a directory many times. -/
def windingNames : List Text :=
  "R" :: (List.replicate 780 [['.', '.'], ("R" : Text)]).flatten

/-- Names that lead over as many links as are followed. -/
def knottedNames : List Text := "R" :: List.replicate FileTree.linkLimit "me.R"

/-- A root that is written as the given names. -/
def rootOf (names : List Text) : Text := List.intercalate ['/'] names

section Knotted

open FileTree (Leads IsEntryName)

variable {links left : Nat} {target : Location}

theorem isEntryName_knotted : IsEntryName "R" ∧ IsEntryName "me.R" :=
  ⟨⟨by decide, by decide, by decide⟩, ⟨by decide, by decide, by decide⟩⟩

theorem leads_winding (count : Nat) :
    knottedProject.Leads links ["R"] (List.replicate count [['.', '.'], ("R" : Text)]).flatten
      links ["R"] := by
  induction count with
  | zero => exact .stay _ _
  | succ count ih =>
      rw [List.replicate_succ, List.flatten_cons]
      exact .up rfl (.enter rfl isEntryName_knotted.1 rfl rfl ih)

theorem leads_knotted (count : Nat) :
    knottedProject.Leads count ["R"] (List.replicate count "me.R") 0 ["R"] := by
  induction count with
  | zero => exact .stay _ _
  | succ count ih => exact .jump rfl isEntryName_knotted.2 rfl (.here rfl ih)

/-- One link more than may be followed leads nowhere. -/
theorem not_leads_knotted (count : Nat) :
    ¬knottedProject.Leads count ["R"] (List.replicate (count + 1) "me.R") left target := by
  have held : knottedProject.node? ([("R" : Text)] ++ [("me.R" : Text)]) = some (.link ".") := rfl
  intro leads
  induction count with
  | zero =>
      cases leads with
      | enter _ _ present direct =>
          rw [held] at present
          cases present
          cases direct
  | succ count ih =>
      rw [List.replicate_succ] at leads
      cases leads with
      | enter _ _ present direct =>
          rw [held] at present
          cases present
          cases direct
      | jump _ _ present onward =>
          rw [held] at present
          cases present
          cases onward with
          | here _ onward => exact ih onward
          | enter _ entry => exact entry.not_here rfl
          | jump _ entry => exact entry.not_here rfl

end Knotted

/-- A name that no entry can have. -/
def longName : Text := List.replicate 256 'n'

/-- How the roots with many and with long names are read, and which paths are too long. -/
theorem facts_roots :
    ((Path.anchored []).join (rootOf windingNames) = .anchored windingNames ∧
      FileTree.writtenFault? (Path.anchored windingNames).text = none ∧
      FileTree.writtenFault? ((Path.anchored windingNames).below [deepName]).text =
        some .nameTooLong ∧
      FileTree.writtenFault? ((Path.anchored ["R"]).below [deepName]).text = none) ∧
    ((Path.anchored []).join (rootOf knottedNames) = .anchored knottedNames ∧
      FileTree.writtenFault? (Path.anchored knottedNames).text = none) ∧
    (Path.anchored []).join longName = .anchored [longName] ∧
      FileTree.writtenFault? (Path.anchored [longName]).text = none ∧
      FileTree.nameLimit < (Utf8.encode longName).length := by
  decide +kernel

theorem resolve_winding : knottedProject.resolve (.anchored windingNames) = .ok ["R"] := by
  obtain ⟨⟨-, written, -⟩, -⟩ := facts_roots
  refine FileTree.resolve_eq_ok_iff.mpr ⟨written, FileTree.linkLimit, ?_⟩
  exact .enter rfl isEntryName_knotted.1 rfl rfl (leads_winding 780)

theorem resolve_knotted : knottedProject.resolve (.anchored knottedNames) = .ok ["R"] := by
  obtain ⟨-, ⟨-, written⟩, -⟩ := facts_roots
  refine FileTree.resolve_eq_ok_iff.mpr ⟨written, 0, ?_⟩
  exact .enter rfl isEntryName_knotted.1 rfl rfl (leads_knotted FileTree.linkLimit)

/-- The file in the deep directory lies under every root that leads to the directory above. -/
theorem liesUnder_deep {root : Path} (resolved : knottedProject.resolve root = .ok ["R"]) :
    LiesUnder knottedProject root ⟨[deepName], "a.R"⟩ := by
  refine ⟨["R"], resolved, ?_, by decide, .inl ⟨0o644, [], rfl⟩⟩
  intro above higher
  rcases List.prefix_cons_iff.mp higher with rfl | ⟨behind, rfl, shorter⟩
  · rfl
  · rw [List.prefix_nil.mp shorter]
    rfl

/-- The link can be followed to its directory, but not behind all the others. -/
theorem liesUnder_knotted : LiesUnder knottedProject (.anchored knottedNames) ⟨[], "me.R"⟩ := by
  refine ⟨["R"], resolve_knotted, ?_, by simp, .inr ⟨⟨".", rfl⟩, ?_⟩⟩
  · intro above higher
    rw [List.prefix_nil.mp higher]
    rfl
  · rw [Ne, ← FileTree.leadsToDirectory_eq_true_iff, FileTree.leadsToDirectory]
    split
    case h_2 => simp
    case h_1 node found =>
      obtain ⟨place, resolved, -⟩ := FileTree.nodeAt_eq_ok_iff.mp found
      obtain ⟨-, left, leads⟩ := FileTree.resolve_eq_ok_iff.mp resolved
      have names : ((Path.anchored knottedNames).below (Way.mk [] "me.R").names).names =
          "R" :: List.replicate (FileTree.linkLimit + 1) "me.R" := by
        rw [List.replicate_succ']
        rfl
      rw [names] at leads
      cases leads with
      | enter _ _ _ _ onward => exact absurd onward (not_leads_knotted FileTree.linkLimit)
      | jump _ _ present => cases present

theorem filesUnder_longName (room : Nat) :
    ∃ error, filesUnder knottedProject room ((Path.anchored []).join longName) =
      ⟨[], some (.unexaminable error)⟩ := by
  obtain ⟨-, -, joined, written, long⟩ := facts_roots
  have followed : knottedProject.follow FileTree.linkLimit [] [longName] = .error .nameTooLong :=
    FileTree.follow_of_long rfl (by decide) (by decide) long
  have names : (Path.anchored [longName]).names = [longName] := rfl
  rw [joined, filesUnder, FileTree.isDirectory, FileTree.test, FileTree.nodeAt, FileTree.resolve,
    written]
  simp only [names, followed]
  exact ⟨_, rfl⟩

section Nested

variable {count : Nat}

/-- So many names of directories, each the same. -/
def nestedNames (count : Nat) : List Text := List.replicate count "R"

/-- So many directories within one another. -/
def nestedDirectories : Nat → List (Location × Node)
  | 0 => []
  | count + 1 => (nestedNames (count + 1), .directory 0o755) :: nestedDirectories count

/-- A project with a file in the innermost of so many directories within one another. -/
def nestedProject (count : Nat) : FileTree :=
  ⟨(nestedNames count ++ [("a.R" : Text)], .file 0o644 []) :: nestedDirectories count⟩

theorem length_nestedNames (count : Nat) : (nestedNames count).length = count :=
  List.length_replicate

theorem isDirectoryAt_nested {number : Nat} (within : number ≤ count) :
    (nestedProject count).isDirectoryAt (nestedNames number) = true := by
  rw [FileTree.isDirectoryAt_eq_true_iff]
  cases number with
  | zero => exact ⟨_, rfl⟩
  | succ number =>
      have apart {first second : List Text} (different : first.length ≠ second.length) :
          (first == second) = false := beq_false_of_ne fun same => different (same ▸ rfl)
      refine ⟨0o755, ?_⟩
      rw [FileTree.node?, if_neg (by simp [nestedNames]), nestedProject, List.lookup_cons,
        apart (by simp [length_nestedNames]; omega)]
      induction count with
      | zero => cases within
      | succ count ih =>
          rw [nestedDirectories, List.lookup_cons]
          rcases Nat.eq_or_lt_of_le within with same | fewer
          · rw [same, beq_self_eq_true]
          · rw [apart (by simp only [length_nestedNames]; omega)]
            exact ih (Nat.le_of_lt_succ fewer)

theorem text_nested (count : Nat) :
    (Path.anchored (nestedNames (count + 1))).text =
      (List.replicate (count + 1) ("/R" : Text)).flatten := by
  change '/' :: List.intercalate ['/'] (nestedNames (count + 1)) = _
  induction count with
  | zero => rfl
  | succ count ih =>
      rw [List.replicate_succ, List.flatten_cons, ← ih]
      rfl

theorem length_encode_nested (count : Nat) :
    (Utf8.encode (List.replicate count ("/R" : Text)).flatten).length = 2 * count := by
  induction count with
  | zero => rfl
  | succ count ih =>
      rw [List.replicate_succ, List.flatten_cons, Utf8.encode, List.flatMap_append,
        List.length_append, ← Utf8.encode, ← Utf8.encode, ih, Nat.mul_succ, Nat.add_comm]
      rfl

/-- The paths of that many directories are short enough. -/
theorem writtenFault?_nested (few : count < 2000) :
    FileTree.writtenFault? (Path.anchored (nestedNames (count + 1))).text = none := by
  have sound : '\x00' ∉ (List.replicate (count + 1) ("/R" : Text)).flatten := by
    intro held
    obtain ⟨name, listed, held⟩ := List.mem_flatten.mp held
    rw [List.eq_of_mem_replicate listed] at held
    exact absurd held (by decide)
  rw [text_nested, FileTree.writtenFault?, if_neg (mt List.elem_iff.mp sound),
    if_neg (by rw [length_encode_nested]; omega)]

theorem nestsTo_nested (few : count ≤ 2000) (number depth : Nat)
    (within : number + 1 + depth ≤ count) :
    NestsTo (nestedProject count) (depth + 1) (.anchored (nestedNames (number + 1)))
      (nestedNames (number + 1)) := by
  induction depth generalizing number with
  | zero => exact .itself _ _
  | succ depth ih =>
      have next : nestedNames (number + 1) ++ [("R" : Text)] = nestedNames (number + 1 + 1) :=
        List.replicate_succ'.symm
      have inside : (nestedProject count).isDirectoryAt
          (nestedNames (number + 1) ++ [("R" : Text)]) = true := by
        rw [next]
        exact isDirectoryAt_nested (by omega)
      have below : NestsTo (nestedProject count) (depth + 1)
          ((Path.anchored (nestedNames (number + 1))).child "R")
          (nestedNames (number + 1) ++ [("R" : Text)]) := by
        have child : (Path.anchored (nestedNames (number + 1))).child "R" =
            .anchored (nestedNames (number + 1 + 1)) := congrArg Path.anchored next
        rw [child, next]
        exact ih (number + 1) (by omega)
      exact .deeper (isDirectoryAt_nested (by omega)) (writtenFault?_nested (by omega))
        ((mem_subdirectoryNames_iff inside).mpr (by decide)) below

theorem resolve_nested : (nestedProject (count + 1)).resolve (.anchored ["R"]) = .ok ["R"] := by
  have inside : (nestedProject (count + 1)).isDirectoryAt ["R"] = true :=
    isDirectoryAt_nested (Nat.le_add_left 1 count)
  obtain ⟨mode, held⟩ := FileTree.isDirectoryAt_eq_true_iff.mp inside
  refine FileTree.resolve_eq_ok_iff.mpr ⟨rfl, FileTree.linkLimit, ?_⟩
  exact .enter rfl isEntryName_knotted.1 held rfl (.stay _ _)

/-- The file lies under the outermost directory. -/
theorem liesUnder_nested (count : Nat) :
    LiesUnder (nestedProject (count + 1)) (.anchored ["R"]) ⟨nestedNames count, "a.R"⟩ := by
  have along (number : Nat) : [("R" : Text)] ++ nestedNames number = nestedNames (number + 1) := rfl
  refine ⟨["R"], resolve_nested, ?_, ?_, .inl ⟨0o644, [], ?_⟩⟩
  · intro above higher
    obtain ⟨fewer, same⟩ := List.prefix_replicate_iff.mp higher
    rw [same, ← nestedNames, along]
    exact isDirectoryAt_nested (Nat.succ_le_succ fewer)
  · intro step listed
    rw [List.eq_of_mem_replicate listed]
    decide
  · rw [Way.names, ← List.append_assoc, along, FileTree.node?, if_neg (by simp), nestedProject]
    exact List.lookup_cons_self

/-- A file within more directories than there is room for is missed, and the search is ended
early. -/
theorem search_misses_nested (few : count < 2000) (narrow : room ≤ count) (kinds : List Kind) :
    (discover (nestedProject (count + 1)) room (.anchored []) ["R"] kinds).failure =
        some .tooDeep ∧
      ∀ kind, ((Path.anchored ["R"]).below (nestedNames count ++ [("a.R" : Text)]), kind) ∉
        (discover (nestedProject (count + 1)) room (.anchored []) ["R"] kinds).found := by
  have joined : (Path.anchored []).join "R" = .anchored ["R"] := by decide
  have under : filesUnder (nestedProject (count + 1)) room ((Path.anchored []).join "R") =
      filesBelow (nestedProject (count + 1)) room (.anchored ["R"]) ["R"] := by
    rw [joined]
    exact filesUnder_of_resolve resolve_nested (isDirectoryAt_nested (Nat.le_add_left 1 count))
  constructor
  · have nests : NestsTo (nestedProject (count + 1)) (count + 1) (.anchored ["R"]) ["R"] :=
      nestsTo_nested few 0 count (by omega)
    have ended : (filesBelow (nestedProject (count + 1)) room (.anchored ["R"]) ["R"]).fault =
        some .tooDeep := by
      refine (fault_filesBelow_cases _ _ _ _).resolve_left fun completed => ?_
      have bounded := (fault_filesBelow_eq_none_iff _ _ _).mp completed _ nests
      omega
    change (filesUnderRoots _ _ _ _).fault = _
    rw [filesUnderRoots, List.map_singleton, under, Search.inTurn_cons,
      Search.followedBy_eq_self ended, ended]
  · intro kind found
    obtain ⟨-, -, root, given, way, -, -, near, same⟩ := exists_way_of_mem_found found
    rw [List.mem_singleton.mp given, joined] at same
    have steps : nestedNames count = way.steps :=
      (List.append_inj' (Path.below_injective _ same) rfl).1
    rw [← steps, length_nestedNames] at near
    omega

end Nested

/-- The limits of a search show in what it finds. A file is missed if the path of its directory is
too long, which takes no more than a root that is written in a roundabout way. A link to a
directory is taken for a file if its path leads over more links than are followed. A root that
cannot be examined hides what lies under those behind it. And a file within more than a thousand
directories is missed whatever the room that a thousand nested calls leave. -/
theorem search_misses_and_mistakes_files :
    (LiesUnder knottedProject (.anchored windingNames) ⟨[deepName], "a.R"⟩ ∧
      (discover knottedProject Headroom.usual.directories (.anchored []) [rootOf windingNames]
        Kind.all).failure = none ∧
      ∀ kind, ((Path.anchored windingNames).below [deepName, "a.R"], kind) ∉
        (discover knottedProject Headroom.usual.directories (.anchored []) [rootOf windingNames]
          Kind.all).found) ∧
    (knottedProject.isDirectory (.anchored ["R", "me.R"]) = .ok true ∧
      ((Path.anchored knottedNames).below ["me.R"], .script) ∈
        (discover knottedProject Headroom.usual.directories (.anchored []) [rootOf knottedNames]
          Kind.all).found) ∧
    ((.anchored ["R", deepName, "a.R"], .script) ∈
        (discover knottedProject Headroom.usual.directories (.anchored []) ["R"] Kind.all).found ∧
      (discover knottedProject Headroom.usual.directories (.anchored []) [longName, "R"]
        Kind.all).found = []) ∧
    (LiesUnder (nestedProject 1001) (.anchored ["R"]) ⟨nestedNames 1000, "a.R"⟩ ∧
      ∀ room ≤ 1000,
        (discover (nestedProject 1001) room (.anchored []) ["R"] Kind.all).failure =
            some .tooDeep ∧
          ∀ kind, ((Path.anchored ["R"]).below (nestedNames 1000 ++ [("a.R" : Text)]), kind) ∉
            (discover (nestedProject 1001) room (.anchored []) ["R"] Kind.all).found) := by
  have searched {root : Text} {path : Path} (joined : (Path.anchored []).join root = path)
      (resolved : knottedProject.resolve path = .ok ["R"]) :
      (discover knottedProject Headroom.usual.directories (.anchored []) [root]
        Kind.all).failure = none := by
    refine failure_discover_eq_none_iff.mpr fun other listed => ⟨?_, ?_⟩
    · rw [List.mem_singleton.mp listed, joined]
      exact ⟨true, isDirectory_of_resolve resolved rfl⟩
    · exact nestsWithin_of_length_lt (by decide) (by decide)
  obtain ⟨⟨joinedWinding, -, tooLong, short⟩, ⟨joinedKnotted, -⟩, -⟩ := facts_roots
  have searchedWinding := searched joinedWinding resolve_winding
  have searchedKnotted := searched joinedKnotted resolve_knotted
  have resolved : knottedProject.resolve (.anchored ["R"]) = .ok ["R"] := rfl
  have joined : (Path.anchored []).join "R" = .anchored ["R"] := by decide
  refine ⟨⟨liesUnder_deep resolve_winding, searchedWinding, ?_⟩, ⟨rfl, ?_⟩, ⟨?_, ?_⟩,
    liesUnder_nested 1000, fun room narrow => search_misses_nested (by decide) narrow Kind.all⟩
  · intro kind found
    obtain ⟨-, -, root, listed, way, -, listable, same⟩ := (mem_found_iff searchedWinding).mp found
    rw [List.mem_singleton.mp listed, joinedWinding] at listable same
    have names : [deepName] ++ [("a.R" : Text)] = way.names := Path.below_injective _ same
    have steps : [deepName] = way.steps := (List.append_inj' names rfl).1
    rw [listable [deepName] (steps ▸ List.prefix_rfl)] at tooLong
    cases tooLong
  · refine (mem_found_iff searchedKnotted).mpr ⟨by decide, rfl, _, List.mem_singleton_self _,
      ⟨[], "me.R"⟩, ?_⟩
    rw [joinedKnotted]
    refine ⟨liesUnder_knotted, ?_, rfl⟩
    intro above higher
    rw [List.prefix_nil.mp higher]
    exact (FileTree.resolve_eq_ok_iff.mp resolve_knotted).1
  · refine (mem_found_iff (searched joined resolved)).mpr ⟨by decide, rfl, _,
      List.mem_singleton_self _, ⟨[deepName], "a.R"⟩, ?_⟩
    rw [joined]
    refine ⟨liesUnder_deep resolved, ?_, rfl⟩
    intro above higher
    rcases List.prefix_cons_iff.mp higher with rfl | ⟨behind, rfl, shorter⟩
    · rfl
    · rw [List.prefix_nil.mp shorter]
      exact short
  · obtain ⟨error, failed⟩ := filesUnder_longName Headroom.usual.directories
    rw [found_discover, filesUnderRoots, List.map_cons, failed]
    rfl

end Source
end DependencyGate

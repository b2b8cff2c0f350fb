/-
# What searches find

A search of more roots fails where a search of fewer fails (`failure_discover_eq_none_of_subset`),
and otherwise finds what that finds (`found_discover_subset`).
Two trees that differ by one file have the same source files if the file is there in both, or if
no path to a source file leads to it (`discover_eq`); paths that do not lead to it are read alike
(`readableFiles_eq`). A file that is put where a path led to another one is a case of this.
-/

import DependencyGate.Proofs.Canonical
import DependencyGate.Proofs.FileTree.Locality
import DependencyGate.Source.Scan

namespace DependencyGate

variable {tree : FileTree} {room : Nat} {project : Path} {roots others : List Text}
  {kinds : List Source.Kind}

namespace Source

theorem references_scan (tree : FileTree) (room : Nat) (project : Path) (roots : List Text)
    (kinds : List Kind) :
    (scan tree room project roots kinds).references =
      (readableFiles tree (discover tree room project roots kinds).found).flatMap
        File.references := by
  rw [scan]
  cases (discover tree room project roots kinds).failure <;> rfl

/-- What ends a scan early is what ends its search early. -/
theorem failure_scan (tree : FileTree) (room : Nat) (project : Path) (roots : List Text)
    (kinds : List Kind) :
    (scan tree room project roots kinds).failure =
      (discover tree room project roots kinds).failure := by
  rw [scan]
  cases searched : (discover tree room project roots kinds).failure <;> rfl

/-! ## One search after another -/

namespace Search

variable {first second : Search} {searches : List Search}

theorem fault_followedBy_eq_none_iff :
    (first.followedBy second).fault = none ↔ first.fault = none ∧ second.fault = none := by
  rw [followedBy]
  cases completed : first.fault <;> simp [completed]

theorem files_followedBy (completed : first.fault = none) :
    (first.followedBy second).files = first.files ++ second.files := by
  rw [followedBy, completed]

theorem fault_followedBy (completed : first.fault = none) :
    (first.followedBy second).fault = second.fault := by
  rw [followedBy, completed]

theorem followedBy_eq_self {fault : SearchFault} (ended : first.fault = some fault) :
    first.followedBy second = first := by
  rw [followedBy, ended]

theorem files_subset_followedBy : first.files ⊆ (first.followedBy second).files := by
  cases ended : first.fault with
  | some fault => rw [followedBy_eq_self ended]; exact List.Subset.refl _
  | none => rw [files_followedBy ended]; exact List.subset_append_left _ _

theorem inTurn_cons (search : Search) (searches : List Search) :
    inTurn (search :: searches) = search.followedBy (inTurn searches) := rfl

theorem fault_inTurn_eq_none_iff :
    (inTurn searches).fault = none ↔ ∀ search ∈ searches, search.fault = none := by
  induction searches with
  | nil => simp [inTurn]
  | cons search searches ih =>
      rw [inTurn_cons, fault_followedBy_eq_none_iff, ih, List.forall_mem_cons]

theorem files_inTurn (completed : (inTurn searches).fault = none) :
    (inTurn searches).files = searches.flatMap files := by
  induction searches with
  | nil => rfl
  | cons search searches ih =>
      rw [inTurn_cons, fault_followedBy_eq_none_iff] at completed
      rw [inTurn_cons, files_followedBy completed.1, ih completed.2, List.flatMap_cons]

theorem files_inTurn_subset : (inTurn searches).files ⊆ searches.flatMap files := by
  induction searches with
  | nil => exact List.Subset.refl _
  | cons search searches ih =>
      rw [inTurn_cons, List.flatMap_cons]
      cases first : search.fault with
      | some fault =>
          rw [followedBy_eq_self first]
          exact List.subset_append_left _ _
      | none =>
          rw [files_followedBy first]
          exact List.append_subset.mpr ⟨List.subset_append_left _ _,
            fun path listed => List.mem_append_right _ (ih listed)⟩

/-- What ends searches early has ended one of them. -/
theorem exists_of_fault_inTurn {fault : SearchFault}
    (ended : (inTurn searches).fault = some fault) :
    ∃ search ∈ searches, search.fault = some fault := by
  induction searches with
  | nil => cases ended
  | cons search searches ih =>
      rw [inTurn_cons] at ended
      cases first : search.fault with
      | some other =>
          rw [followedBy_eq_self first, first] at ended
          exact ⟨search, List.mem_cons_self, first.trans ended⟩
      | none =>
          rw [fault_followedBy first] at ended
          obtain ⟨later, listed, found⟩ := ih ended
          exact ⟨later, List.mem_cons_of_mem search listed, found⟩

end Search

/-! ## Roots -/

theorem fault_filesBelow_cases (tree : FileTree) (room : Nat) (path : Path) (place : Location) :
    (filesBelow tree room path place).fault = none ∨
      (filesBelow tree room path place).fault = some .tooDeep := by
  induction room generalizing path place with
  | zero => exact .inr rfl
  | succ room ih =>
      rw [filesBelow]
      split
      case isFalse => exact .inl rfl
      case isTrue =>
        rw [Search.fault_followedBy rfl]
        cases ended : (Search.inTurn _).fault with
        | none => exact .inl rfl
        | some fault =>
            obtain ⟨search, entered, found⟩ := Search.exists_of_fault_inTurn ended
            obtain ⟨name, -, rfl⟩ := List.mem_map.mp entered
            simpa [found] using ih (path.child name) (place ++ [name])

theorem failure_filesUnderRoots_eq_none_iff :
    (filesUnderRoots tree room project roots).fault = none ↔
      ∀ root ∈ roots, (filesUnder tree room (project.join root)).fault = none := by
  rw [filesUnderRoots, Search.fault_inTurn_eq_none_iff, List.forall_mem_map]

/-- A search of some of the roots is not ended early if the search of all of them is not. -/
theorem failure_discover_eq_none_of_subset (fewer : others ⊆ roots)
    (searched : (discover tree room project roots kinds).failure = none) :
    (discover tree room project others kinds).failure = none :=
  failure_filesUnderRoots_eq_none_iff.mpr fun root listed =>
    failure_filesUnderRoots_eq_none_iff.mp searched root (fewer listed)

/-- A search that is not ended early finds what lies under one of its roots. -/
theorem mem_filesUnderRoots_iff {path : Path}
    (searched : (filesUnderRoots tree room project roots).fault = none) :
    path ∈ (filesUnderRoots tree room project roots).files ↔
      ∃ root ∈ roots, path ∈ (filesUnder tree room (project.join root)).files := by
  rw [filesUnderRoots, Search.files_inTurn searched, List.flatMap_map, List.mem_flatMap]

/-- A search of some of the roots finds nothing that the search of all of them does not find. -/
theorem found_discover_subset (fewer : others ⊆ roots)
    (searched : (discover tree room project roots kinds).failure = none) :
    (discover tree room project others kinds).found ⊆
      (discover tree room project roots kinds).found := by
  have searchedFewer : (discover tree room project others kinds).failure = none :=
    failure_discover_eq_none_of_subset fewer searched
  intro found listed
  rw [discover, List.mem_eraseDups, List.mem_filterMap] at listed ⊢
  obtain ⟨path, under, recognised⟩ := listed
  obtain ⟨root, member, inside⟩ := (mem_filesUnderRoots_iff searchedFewer).mp under
  exact ⟨path, (mem_filesUnderRoots_iff searched).mpr ⟨root, fewer member, inside⟩, recognised⟩

end Source

/-! ## Names in a directory -/

namespace FileTree

variable {other : FileTree} {directory target start : Location} {name next : Text} {path : Path}
  {node : Node}

theorem isDirectoryAt_eq_true_iff {place : Location} :
    tree.isDirectoryAt place = true ↔ ∃ mode, tree.node? place = some (.directory mode) := by
  rw [isDirectoryAt]
  cases tree.node? place with
  | none => simp
  | some node => cases node <;> simp [Node.isDirectory]

theorem leadsToDirectory_eq_true_iff :
    tree.leadsToDirectory path = true ↔ tree.isDirectory path = .ok true := by
  rw [leadsToDirectory, isDirectory, test]
  cases tree.nodeAt path with
  | ok node => simp
  | error fault => by_cases absent : fault.meansAbsent = true <;> simp [absent]

/-- The names within a directory are those with something under them. -/
theorem mem_namesIn : name ∈ tree.namesIn start ↔ tree.node? (start ++ [name]) ≠ none := by
  rw [namesIn, mem_canonical, List.mem_filterMap, node?, if_neg (by simp),
    Option.ne_none_iff_exists']
  constructor
  · rintro ⟨⟨place, node⟩, listed, named⟩
    simp only [nameWithin?, Option.ite_none_right_eq_some] at named
    obtain ⟨rfl, last⟩ := named
    rw [List.dropLast_append_getLast? name last]
    cases found : tree.entries.lookup place with
    | none => exact absurd (List.lookup_eq_none_iff.mp found _ listed) (by simp)
    | some node => exact ⟨node, rfl⟩
  · rintro ⟨node, found⟩
    obtain ⟨before, after, split, -⟩ := List.lookup_eq_some_iff.mp found
    exact ⟨(start ++ [name], node), by simp [split], by simp [nameWithin?]⟩

/-- All names on the way to a place that can be reached are names of entries. -/
theorem Leads.isEntryName {links left : Nat} {names : List Text}
    (leads : tree.Leads links start names left target)
    (entries : ∀ name ∈ start, IsEntryName name) : ∀ name ∈ target, IsEntryName name := by
  induction leads with
  | stay => exact entries
  | here _ _ ih => exact ih entries
  | up _ _ ih => exact ih fun name listed => entries name (List.dropLast_subset _ listed)
  | enter _ entry _ _ _ ih =>
      apply ih
      intro name listed
      rcases List.mem_append.mp listed with above | last
      · exact entries name above
      · exact List.mem_singleton.mp last ▸ entry
  | @jump _ _ place _ _ written _ _ _ _ _ ih =>
      apply ih
      rw [linkStart]
      split
      case isTrue => simp
      case isFalse => exact entries

/-- What leads to a file is not listed as a directory. -/
theorem LeadsToFile.listsDirectory_eq_false (site : tree.LeadsToFile directory name target)
    {left : Nat} (leads : tree.Leads linkLimit [] path.names left directory) :
    tree.listsDirectory path directory name = false := by
  obtain ⟨node, present⟩ := site.present
  have other := site.deadEnd.no_directory
  rw [listsDirectory, present]
  cases node with
  | file => rfl
  | directory => simp [isDirectoryAt, present, Node.isDirectory] at other
  | link written =>
      rw [← Bool.not_eq_true, leadsToDirectory_eq_true_iff]
      intro inside
      rw [isDirectory, test] at inside
      cases found : tree.nodeAt (path.child name) with
      | error fault => by_cases absent : fault.meansAbsent = true <;> simp [found, absent] at inside
      | ok node =>
          obtain ⟨place, resolved, held⟩ := nodeAt_eq_ok_iff.mp found
          obtain ⟨-, _, onward⟩ := resolve_eq_ok_iff.mp resolved
          obtain ⟨_, middle, first, second⟩ := onward.exists_of_append
          obtain rfl := first.unique leads
          obtain ⟨_, _, toFile⟩ := site.leads
          obtain rfl := second.unique toFile
          obtain ⟨_, _, file⟩ := site.held
          rw [found] at inside
          rw [file] at held
          simp [← Option.some.inj held, Node.isDirectory] at inside

/-- Nor is what is not there at all. -/
theorem HoldsAtMostFile.listsDirectory_eq_false (holds : tree.HoldsAtMostFile directory name)
    {left : Nat} (leads : tree.Leads linkLimit [] path.names left directory) :
    tree.listsDirectory path directory name = false := by
  rcases holds with free | ⟨target, leadsToFile⟩
  · rw [listsDirectory, free]
  · exact leadsToFile.listsDirectory_eq_false leads

/-- The file is listed in its directory if it is there. -/
theorem HoldsAtMostFile.mem_fileNames_iff (holds : tree.HoldsAtMostFile directory name) {left : Nat}
    (leads : tree.Leads linkLimit [] path.names left directory) :
    name ∈ tree.fileNames path directory ↔ tree.node? (directory ++ [name]) ≠ none := by
  rw [fileNames, List.mem_filter, mem_namesIn, holds.listsDirectory_eq_false leads]
  exact and_iff_left rfl

namespace DifferBy

variable (differ : DifferBy directory name tree other)

include differ

theorem leadsToDirectory_eq (path : Path) :
    other.leadsToDirectory path = tree.leadsToDirectory path := by
  rw [Bool.eq_iff_iff, leadsToDirectory_eq_true_iff, leadsToDirectory_eq_true_iff,
    differ.isDirectory_eq]

/-- Apart from the file, the same names are listed as directories. -/
theorem listsDirectory_eq (apart : start ++ [next] ≠ directory ++ [name]) :
    other.listsDirectory path start next = tree.listsDirectory path start next := by
  simp only [listsDirectory, differ.agree _ apart, differ.leadsToDirectory_eq]

/-- And as files. -/
theorem mem_fileNames_iff (apart : start ++ [next] ≠ directory ++ [name]) :
    next ∈ other.fileNames path start ↔ next ∈ tree.fileNames path start := by
  rw [fileNames, fileNames, List.mem_filter, List.mem_filter, mem_namesIn, mem_namesIn,
    differ.listsDirectory_eq apart, differ.agree _ apart]

/-- The search goes on to the same directories. -/
theorem subdirectoryNames_eq (inside : tree.isDirectoryAt start = true)
    (leads : start <+: directory → ∃ left, tree.Leads linkLimit [] path.names left start) :
    Source.subdirectoryNames other path start = Source.subdirectoryNames tree path start := by
  apply ((pairwise_canonical _).filter _).eq_of_mem_iff ((pairwise_canonical _).filter _)
  intro next
  rw [List.mem_filter, List.mem_filter]
  change next ∈ other.namesIn start ∧ _ ↔ next ∈ tree.namesIn start ∧ _
  by_cases here : start ++ [next] = directory ++ [name]
  case neg =>
    rw [mem_namesIn, mem_namesIn, differ.listsDirectory_eq here, differ.agree _ here]
  obtain ⟨rfl, equal⟩ := List.append_inj' here rfl
  obtain rfl := List.singleton_inj.mp equal
  obtain ⟨_, leads⟩ := leads List.prefix_rfl
  obtain ⟨_, leadsThere⟩ := differ.exists_leads leads inside
  simp [differ.here.listsDirectory_eq_false leads, differ.there.listsDirectory_eq_false leadsThere]

end DifferBy

end FileTree

/-! ## Searches -/

namespace Source

variable {other : FileTree} {directory target start : Location} {name : Text} {path : Path}
  {files filesThere : List Path}

/-- What a search takes a path for: a source file of one of the kinds, or nothing. -/
def recognised? (kinds : List Kind) (path : Path) : Option (Path × Kind) :=
  match Kind.ofPath? path with
  | some kind => if kind ∈ kinds then some (path, kind) else none
  | none => none

theorem eq_of_recognised? {found : Path × Kind} (recognised : recognised? kinds path = some found) :
    found.1 = path := by
  rw [recognised?] at recognised
  split at recognised
  case h_1 =>
    rw [Option.ite_none_right_eq_some] at recognised
    rw [← Option.some.inj recognised.2]
  case h_2 => cases recognised

theorem discover_eq_recognised (tree : FileTree) (room : Nat) (project : Path)
    (roots : List Text) (kinds : List Kind) :
    discover tree room project roots kinds =
      ⟨((filesUnderRoots tree room project roots).files.filterMap (recognised? kinds)).eraseDups,
        (filesUnderRoots tree room project roots).fault⟩ := rfl

/-- Whether nothing that is taken for a source file leads to the file under a name. -/
def PassesOver (tree : FileTree) (directory : Location) (name : Text) (kinds : List Kind)
    (files : List Path) : Prop :=
  ∀ path ∈ files, (recognised? kinds path).isSome → tree.Avoids directory name path

/-- Whether searches give the file away that two trees differ by: it is there in both or in
neither, or both searches pass over it. -/
def Unnoticed (tree other : FileTree) (directory : Location) (name : Text) (kinds : List Kind)
    (files filesThere : List Path) : Prop :=
  (tree.node? (directory ++ [name]) = none ↔ other.node? (directory ++ [name]) = none) ∨
    PassesOver tree directory name kinds files ∧ PassesOver other directory name kinds filesThere

theorem Unnoticed.mono {fewer fewerThere : List Path}
    (unnoticed : Unnoticed tree other directory name kinds files filesThere)
    (here : fewer ⊆ files) (there : fewerThere ⊆ filesThere) :
    Unnoticed tree other directory name kinds fewer fewerThere :=
  unnoticed.imp id fun passes =>
    ⟨fun path listed => passes.1 path (here listed),
      fun path listed => passes.2 path (there listed)⟩

/-- A file that is passed over is not listed as a source file. -/
theorem PassesOver.not_mem_fileNames {left : Nat}
    (passes : PassesOver tree directory name kinds
      ((tree.fileNames path directory).map path.child))
    (holds : tree.HoldsAtMostFile directory name)
    (leads : tree.Leads FileTree.linkLimit [] path.names left directory)
    (recognised : (recognised? kinds (path.child name)).isSome) :
    name ∉ tree.fileNames path directory := by
  intro listed
  have present := (holds.mem_fileNames_iff leads).mp listed
  obtain ⟨target, leadsToFile⟩ := holds.resolve_left present
  exact passes _ (List.mem_map_of_mem listed) recognised target leadsToFile
    (leadsToFile.reaches leads)

/-- Whether two searches find the same source files and end alike. -/
structure Search.Agrees (kinds : List Kind) (search searchThere : Search) : Prop where
  recognised : searchThere.files.filterMap (recognised? kinds) =
    search.files.filterMap (recognised? kinds)
  fault : searchThere.fault = search.fault

namespace Search

variable {first second firstThere secondThere : Search}

/-- Searches agree that go on from searches that agree, if those agree that they go on with. -/
theorem agrees_followedBy
    (unnoticed : Unnoticed tree other directory name kinds (first.followedBy second).files
      (firstThere.followedBy secondThere).files)
    (agree : Unnoticed tree other directory name kinds first.files firstThere.files →
      first.Agrees kinds firstThere)
    (agreeNext : Unnoticed tree other directory name kinds second.files secondThere.files →
      second.Agrees kinds secondThere) :
    (first.followedBy second).Agrees kinds (firstThere.followedBy secondThere) := by
  have agreed := agree (unnoticed.mono files_subset_followedBy files_subset_followedBy)
  cases ended : first.fault with
  | some fault =>
      rwa [followedBy_eq_self ended, followedBy_eq_self (agreed.fault.trans ended)]
  | none =>
      have endedThere := agreed.fault.trans ended
      rw [files_followedBy ended, files_followedBy endedThere] at unnoticed
      have agreedNext := agreeNext
        (unnoticed.mono (List.subset_append_right _ _) (List.subset_append_right _ _))
      refine ⟨?_, ?_⟩
      · rw [files_followedBy ended, files_followedBy endedThere, List.filterMap_append,
          List.filterMap_append, agreed.recognised, agreedNext.recognised]
      · rw [fault_followedBy ended, fault_followedBy endedThere, agreedNext.fault]

theorem agrees_inTurn {α : Type} {items : List α} {search searchThere : α → Search}
    (unnoticed : Unnoticed tree other directory name kinds (inTurn (items.map search)).files
      (inTurn (items.map searchThere)).files)
    (agree : ∀ item ∈ items,
      Unnoticed tree other directory name kinds (search item).files (searchThere item).files →
        (search item).Agrees kinds (searchThere item)) :
    (inTurn (items.map search)).Agrees kinds (inTurn (items.map searchThere)) := by
  induction items with
  | nil => exact ⟨rfl, rfl⟩
  | cons item items ih =>
      obtain ⟨agreeFirst, agreeOthers⟩ := List.forall_mem_cons.mp agree
      rw [List.map_cons, List.map_cons, inTurn_cons, inTurn_cons] at unnoticed ⊢
      exact agrees_followedBy unnoticed agreeFirst fun others => ih others agreeOthers

end Search

section Alike

variable (differ : FileTree.DifferBy directory name tree other)

include differ

/-- The source files that a directory lists itself. -/
theorem filterMap_fileNames_eq (inside : tree.isDirectoryAt start = true)
    (leads : start <+: directory → ∃ left, tree.Leads FileTree.linkLimit [] path.names left start)
    (unnoticed : Unnoticed tree other directory name kinds
      ((tree.fileNames path start).map path.child) ((other.fileNames path start).map path.child)) :
    ((other.fileNames path start).map path.child).filterMap (recognised? kinds) =
      ((tree.fileNames path start).map path.child).filterMap (recognised? kinds) := by
  have ascending (tree : FileTree) : ((tree.fileNames path start).filter
      fun next => (recognised? kinds (path.child next)).isSome).Pairwise (· < ·) :=
    ((pairwise_canonical _).filter _).filter _
  have same : (other.fileNames path start).filter
        (fun next => (recognised? kinds (path.child next)).isSome) =
      (tree.fileNames path start).filter
        fun next => (recognised? kinds (path.child next)).isSome := by
    apply (ascending other).eq_of_mem_iff (ascending tree)
    intro next
    rw [List.mem_filter, List.mem_filter, and_congr_left_iff]
    intro recognised
    by_cases here : start ++ [next] = directory ++ [name]
    case neg => exact differ.mem_fileNames_iff here
    obtain ⟨rfl, equal⟩ := List.append_inj' here rfl
    obtain rfl := List.singleton_inj.mp equal
    obtain ⟨_, leads⟩ := leads List.prefix_rfl
    obtain ⟨_, leadsThere⟩ := differ.exists_leads leads inside
    rcases unnoticed with present | ⟨passes, passesThere⟩
    · rw [differ.here.mem_fileNames_iff leads, differ.there.mem_fileNames_iff leadsThere,
        Ne, Ne, present]
    · exact iff_of_false (passesThere.not_mem_fileNames differ.there leadsThere recognised)
        (passes.not_mem_fileNames differ.here leads recognised)
  have recognisedOnly (names : List Text) :
      (names.map path.child).filterMap (recognised? kinds) =
        ((names.filter fun next => (recognised? kinds (path.child next)).isSome).map
          path.child).filterMap (recognised? kinds) := by
    rw [List.filterMap_map, List.filterMap_map, List.filterMap_filter]
    apply List.filterMap_congr
    intro next _
    cases taken : recognised? kinds (path.child next) <;> simp [taken]
  rw [recognisedOnly, same, ← recognisedOnly]

/-- The searches of a place agree. -/
theorem filesBelow_agrees (entries : ∀ part ∈ directory, FileTree.IsEntryName part)
    (room : Nat) (path : Path) (start : Location)
    (leads : tree.isDirectoryAt start = true → start <+: directory →
      ∃ left, tree.Leads FileTree.linkLimit [] path.names left start)
    (unnoticed : Unnoticed tree other directory name kinds (filesBelow tree room path start).files
      (filesBelow other room path start).files) :
    (filesBelow tree room path start).Agrees kinds (filesBelow other room path start) := by
  induction room generalizing path start with
  | zero => exact ⟨rfl, rfl⟩
  | succ room ih =>
      rw [filesBelow, filesBelow, differ.isDirectoryAt_eq] at unnoticed ⊢
      by_cases searched :
        (tree.isDirectoryAt start && (FileTree.writtenFault? path.text).isNone) = true
      case neg =>
        rw [if_neg searched, if_neg searched]
        exact ⟨rfl, rfl⟩
      have inside : tree.isDirectoryAt start = true := (Bool.and_eq_true _ _ ▸ searched).1
      rw [if_pos searched, if_pos searched, differ.subdirectoryNames_eq inside (leads inside)]
        at unnoticed
      rw [if_pos searched, if_pos searched, differ.subdirectoryNames_eq inside (leads inside)]
      refine Search.agrees_followedBy unnoticed
        (fun own => ⟨filterMap_fileNames_eq differ inside (leads inside) own, rfl⟩)
        fun below => Search.agrees_inTurn below fun next _ found => ih _ _ ?_ found
      intro within above
      obtain ⟨left, reached⟩ := leads inside ((List.prefix_append _ _).trans above)
      have entry := entries next (above.mem (by simp))
      obtain ⟨mode, present⟩ := FileTree.isDirectoryAt_eq_true_iff.mp within
      exact ⟨left, reached.append (.enter inside entry present rfl (.stay _ _))⟩

variable (entries : ∀ part ∈ directory, FileTree.IsEntryName part)

include entries

/-- The searches of a root agree. -/
theorem filesUnder_agrees (room : Nat) (root : Path)
    (unnoticed : Unnoticed tree other directory name kinds (filesUnder tree room root).files
      (filesUnder other room root).files) :
    (filesUnder tree room root).Agrees kinds (filesUnder other room root) := by
  rw [filesUnder, filesUnder, differ.isDirectory_eq] at unnoticed ⊢
  cases asked : tree.isDirectory root with
  | error error => exact ⟨rfl, rfl⟩
  | ok inside =>
      cases inside with
      | false => exact ⟨rfl, rfl⟩
      | true =>
          simp only [asked, differ.resolve_eq_of_isDirectory asked] at unnoticed ⊢
          cases resolved : tree.resolve root with
          | error fault => exact ⟨rfl, rfl⟩
          | ok start =>
              obtain ⟨-, leads⟩ := FileTree.resolve_eq_ok_iff.mp resolved
              rw [resolved] at unnoticed
              exact filesBelow_agrees differ entries room root start (fun _ _ => leads) unnoticed

/-- Searches find the same source files in two trees that differ by a file which is there in
both, or to which no source file leads in either. -/
theorem discover_eq (room : Nat) (project : Path) (roots : List Text) (kinds : List Kind)
    (unnoticed : (tree.node? (directory ++ [name]) = none ↔
        other.node? (directory ++ [name]) = none) ∨
      (∀ found ∈ (discover tree room project roots kinds).found,
          tree.Avoids directory name found.1) ∧
        ∀ found ∈ (discover other room project roots kinds).found,
          other.Avoids directory name found.1) :
    discover other room project roots kinds = discover tree room project roots kinds := by
  have passes {searched : FileTree}
      (avoids : ∀ found ∈ (discover searched room project roots kinds).found,
        searched.Avoids directory name found.1) :
      PassesOver searched directory name kinds
        (filesUnderRoots searched room project roots).files := by
    intro path listed recognised
    obtain ⟨found, recognised⟩ := Option.isSome_iff_exists.mp recognised
    rw [← eq_of_recognised? recognised]
    apply avoids found
    rw [discover_eq_recognised, List.mem_eraseDups, List.mem_filterMap]
    exact ⟨path, listed, recognised⟩
  have agreed : (filesUnderRoots tree room project roots).Agrees kinds
      (filesUnderRoots other room project roots) :=
    Search.agrees_inTurn (unnoticed.imp id fun avoids => ⟨passes avoids.1, passes avoids.2⟩)
      fun root _ => filesUnder_agrees differ entries room (project.join root)
  rw [discover_eq_recognised, discover_eq_recognised, agreed.recognised, agreed.fault]

end Alike

/-- Files are read alike that paths find alike. -/
theorem readableFiles_eq {found : List (Path × Kind)}
    (alike : ∀ file ∈ found, FileTree.FindsAlike tree other file.1) :
    readableFiles other found = readableFiles tree found := by
  apply List.filterMap_congr
  intro file listed
  have same := (alike file listed).toOption_read_eq
  rw [readFile, readFile]
  cases here : tree.read file.1 with
  | error error =>
      cases there : other.read file.1 with
      | error other => rfl
      | ok bytes => simp [here, there, Except.toOption] at same
  | ok bytes =>
      cases there : other.read file.1 with
      | error other => simp [here, there, Except.toOption] at same
      | ok other =>
          rw [here, there] at same
          rw [Option.some.inj same]

section Put

variable (site : tree.LeadsToFile directory name target) (mode : Nat) (content : List UInt8)

include site

/-- A search does not notice a new file that has been put where a path led to another one. -/
theorem discover_put (entries : ∀ part ∈ directory, FileTree.IsEntryName part) (room : Nat)
    (project : Path) (roots : List Text) (kinds : List Kind) :
    discover (tree.put (directory ++ [name]) (.file mode content)) room project roots kinds =
      discover tree room project roots kinds := by
  obtain ⟨node, present⟩ := site.present
  refine discover_eq (FileTree.differBy_put site mode content) entries room project roots kinds
    (.inl ?_)
  rw [present, FileTree.node?_put_self (by simp)]
  simp

/-- What was not the old file is read as before. -/
theorem readableFiles_put {found : List (Path × Kind)}
    (apart : ∀ file ∈ found, ¬tree.Reaches file.1 target) :
    readableFiles (tree.put (directory ++ [name]) (.file mode content)) found =
      readableFiles tree found :=
  readableFiles_eq fun file listed =>
    FileTree.findsAlike_put_of_apart site mode content (apart file listed)

end Put

end Source
end DependencyGate

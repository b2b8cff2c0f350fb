/-
# What a replacement leaves behind

A replacement either fails and leaves the very same tree, or it has put a regular file
with the text's bytes on the site of the path and changed nothing else. Up to the
renaming the tree differs from the old one by the temporary file alone, which lay on a
free place; there is always one to be found (`node?_freeTag`). What a path leads to is
found again after its file has been replaced.
-/

import DependencyGate.FileTree.Replace
import DependencyGate.Proofs.FileTree.Following
import DependencyGate.Proofs.Utf8
import Mathlib.Data.List.Nodup
import Mathlib.Data.List.Perm.Subperm

namespace DependencyGate.FileTree

variable {tree after : FileTree} {path : Path} {temporary : Temporary} {text : WideText}
  {directory place : Location} {name tag : Text} {mode : Nat} {content : List UInt8}

/-! ## Names that are free -/

theorem ofDigitChars_replicate_zero (count : Nat) (digits : Text) :
    Nat.ofDigitChars 10 (List.replicate count '0' ++ digits) 0 = Nat.ofDigitChars 10 digits 0 := by
  induction count with
  | zero => rfl
  | succ count ih =>
      rw [List.replicate_succ, List.cons_append, Nat.ofDigitChars_cons]
      exact ih

/-- The digits at the end of a tag tell its number. -/
theorem temporaryTag_injective : Function.Injective temporaryTag := by
  have number (n : Nat) : Nat.ofDigitChars 10 ((temporaryTag n).drop 4) 0 = n := by
    rw [temporaryTag, List.append_assoc]
    exact (ofDigitChars_replicate_zero _ _).trans
      (Nat.ofDigitChars_toDigits (by decide) (by decide))
  intro first second same
  rw [← number first, same, number]

theorem temporaryName_injective (path : Path) : Function.Injective (temporaryName path) := by
  intro first second same
  rw [temporaryName, temporaryName] at same
  exact List.append_cancel_left (List.append_cancel_right same)

/-- Places that hold something are no more than the entries of a tree. -/
theorem length_le_of_nodup {places : List Location} (apart : places.Nodup)
    (held : ∀ place ∈ places, place ≠ [] ∧ tree.node? place ≠ none) :
    places.length ≤ tree.entries.length := by
  have listed : places ⊆ tree.entries.map (·.1) := by
    intro place member
    obtain ⟨below, present⟩ := held place member
    rw [node?, if_neg below] at present
    by_contra absent
    refine present (List.lookup_eq_none_iff.mpr fun entry inside => ?_)
    rw [bne_iff_ne]
    rintro rfl
    exact absent (List.mem_map_of_mem inside)
  have shorter := (List.subperm_of_subset apart listed).length_le
  rwa [List.length_map] at shorter

/-- There is a free place for a temporary file in every directory. -/
theorem node?_freeTag (tree : FileTree) (path : Path) (directory : Location) :
    tree.node? (directory ++ [temporaryName path (tree.freeTag path directory)]) = none := by
  have found : (((List.range (tree.entries.length + 1)).map temporaryTag).find? fun tag =>
      (tree.node? (directory ++ [temporaryName path tag])).isNone).isSome := by
    by_contra taken
    rw [Bool.not_eq_true, Option.isSome_eq_false_iff, Option.isNone_iff_eq_none,
      List.find?_eq_none] at taken
    -- all these names are taken, but they are more than the entries
    have apart :
        Function.Injective fun n => directory ++ [temporaryName path (temporaryTag n)] := by
      intro first second same
      exact temporaryTag_injective (temporaryName_injective path
        (List.singleton_inj.mp (List.append_cancel_left same)))
    have fewer := length_le_of_nodup
      (List.nodup_range.map apart : ((List.range (tree.entries.length + 1)).map _).Nodup) <| by
        intro place listed
        obtain ⟨n, inside, rfl⟩ := List.mem_map.mp listed
        have held := taken _ (List.mem_map_of_mem inside)
        exact ⟨by simp, by simpa using held⟩
    rw [List.length_map, List.length_range] at fewer
    omega
  obtain ⟨tag, first⟩ := Option.isSome_iff_exists.mp found
  rw [freeTag, first, Option.getD_some]
  simpa using List.find?_some first

/-! ## The temporary file -/

theorem temporaryTag_zero : temporaryTag 0 = ("gate0000" : Text) := rfl

theorem length_lt_temporaryName (path : Path) (tag : Text) :
    path.name.length + 2 < (temporaryName path tag).length := by
  simp only [temporaryName, List.length_append, List.length_singleton]
  show path.name.length + 2 < 1 + path.name.length + 1 + tag.length + 4
  omega

/-- The name of a temporary file is no step in place or up. -/
theorem temporaryName_ne (path : Path) (tag : Text) :
    temporaryName path tag ≠ ['.'] ∧ temporaryName path tag ≠ ['.', '.'] := by
  have longer := length_lt_temporaryName path tag
  constructor
  · intro here
    simp [here] at longer
  · intro up
    rw [up, List.length_cons, List.length_singleton] at longer
    omega

/-- A temporary file lies on a free place in a directory and is all that its creation adds. -/
theorem createTemporary_eq_ok (created : tree.createTemporary path = .ok (temporary, after)) :
    ∃ directory tag, temporary.location = directory ++ [temporaryName path tag] ∧
      tree.isDirectoryAt directory = true ∧ tree.node? temporary.location = none ∧
      after = tree.put temporary.location (.file privateMode []) := by
  rw [createTemporary] at created
  split at created
  case h_1 => cases created
  case h_2 place site =>
    obtain ⟨-, -, directory, -, inside, -, -, -, rfl⟩ := site_eq_ok_iff.mp site
    obtain ⟨rfl, rfl⟩ := Prod.mk.inj (Except.ok.inj created)
    rw [List.dropLast_concat]
    exact ⟨directory, _, rfl, inside, node?_freeTag tree path directory, rfl⟩

/-- Whether there is a directory for the temporary file of a path. -/
def HousesTemporary (tree : FileTree) (path : Path) : Prop :=
  ∃ place, tree.site (temporaryPath path ("gate0000" : Text)) = .ok place

/-- That is all it takes to create one. -/
theorem exists_createTemporary_iff :
    (∃ temporary created, tree.createTemporary path = .ok (temporary, created)) ↔
      tree.HousesTemporary path := by
  rw [createTemporary, HousesTemporary, temporaryTag_zero]
  cases tree.site (temporaryPath path ("gate0000" : Text)) <;> simp

theorem createTemporary_of_site_eq_error {fault : PathFault}
    (site : tree.site (temporaryPath path ("gate0000" : Text)) = .error fault) :
    tree.createTemporary path =
      .error ⟨fault, (temporaryPath path ("gate0000" : Text)).text, none⟩ := by
  rw [createTemporary, temporaryTag_zero, site]

theorem fillTemporary_eq_ok (filled : tree.fillTemporary temporary text = .ok after) :
    ∃ bytes, Utf8.encodeWide text = .ok bytes ∧
      after = tree.put temporary.location (.file privateMode bytes) := by
  rw [fillTemporary] at filled
  split at filled
  case h_1 => simp at filled
  case h_2 bytes encoded => exact ⟨bytes, encoded, (Except.ok.inj filled).symm⟩

/-! ## From the temporary file to the path -/

/-- Permission bits are adopted from what the path leads to, if that can be examined. -/
theorem adoptMode_eq (tree : FileTree) (temporary : Temporary) (path : Path) :
    tree.adoptMode temporary path =
      match tree.nodeAt path with
      | .ok node => .ok (tree.setMode temporary.location (node.mode % 0o1000))
      | .error fault =>
          if fault.meansAbsent then .ok tree else .error ⟨fault, path.text, none⟩ := by
  rw [adoptMode, pathExists, test]
  cases tree.nodeAt path with
  | ok node => rfl
  | error fault => by_cases absent : fault.meansAbsent = true <;> simp [absent]

theorem adoptMode_put_eq_ok (below : temporary.location ≠ [])
    (adopted : (tree.put temporary.location (.file mode content)).adoptMode temporary path =
      .ok after) :
    ∃ mode', after = tree.put temporary.location (.file mode' content) := by
  rw [adoptMode_eq] at adopted
  split at adopted
  case h_1 node leads =>
    rw [setMode, node?_put_self below] at adopted
    simp only [put_put] at adopted
    exact ⟨_, (Except.ok.inj adopted).symm⟩
  case h_2 =>
    split at adopted
    case isTrue => exact ⟨mode, (Except.ok.inj adopted).symm⟩
    case isFalse => simp at adopted

/-- Sites are found past a file that has been put somewhere as they were before. -/
theorem site_of_site_put (notHere : name ≠ ['.']) (notUp : name ≠ ['.', '.'])
    (found : (tree.put (directory ++ [name]) (.file mode content)).site path = .ok place) :
    tree.site path = .ok place := by
  obtain ⟨written, left, parent, leads, inside, nonempty, notUpward, short, rfl⟩ :=
    site_eq_ok_iff.mp found
  have agree := agreeOff_put tree (directory ++ [name]) (.file mode content)
  have deadEnd : (tree.put (directory ++ [name]) (.file mode content)).IsDeadEnd directory name :=
    isDeadEnd_of_file (node?_put_self (by simp)) notHere notUp
  have back := leads.of_agree agree.symm deadEnd inside
  refine site_eq_ok_iff.mpr
    ⟨written, left, parent, back, ?_, nonempty, notUpward, short, rfl⟩
  rw [← agree.isDirectoryAt_eq, inside]
  intro equal
  rw [equal, deadEnd.no_directory] at inside
  contradiction

/-- The renaming moves the temporary file to the site of the path. -/
theorem renameTemporary_put_eq_ok
    (location : temporary.location = directory ++ [temporaryName path tag])
    (free : tree.node? temporary.location = none)
    (renamed : (tree.put temporary.location (.file mode content)).renameTemporary temporary path =
      .ok after) :
    ∃ place, tree.site path = .ok place ∧ tree.isDirectoryAt place = false ∧
      after = tree.put place (.file mode content) := by
  have longer := length_lt_temporaryName path tag
  obtain ⟨notHere, notUp⟩ := temporaryName_ne path tag
  rw [renameTemporary] at renamed
  split at renamed
  case h_1 => simp at renamed
  case h_2 place found =>
    rw [location] at found free
    have site := site_of_site_put notHere notUp found
    obtain ⟨-, -, parent, -, -, -, -, -, rfl⟩ := site_eq_ok_iff.mp site
    have apart : parent ++ [path.name] ≠ temporary.location := by
      rw [location]
      intro equal
      obtain ⟨-, same⟩ := List.append_inj' equal rfl
      rw [List.singleton_inj.mp same] at longer
      omega
    split at renamed
    case isTrue => simp at renamed
    case isFalse other =>
      rw [Bool.not_eq_true, (agreeOff_put tree _ _).isDirectoryAt_eq apart] at other
      rw [location, node?_put_self (by simp), erase_put_of_free free] at renamed
      exact ⟨_, site, other, (Except.ok.inj renamed).symm⟩

/-! ## The replacement -/

/-- A replacement is done or leaves the tree as it was. -/
theorem replaceFile_cases (tree : FileTree) (path : Path) (text : WideText) :
    (∃ error, tree.replaceFile path text = (.error error, tree)) ∨
      ∃ place mode bytes, Utf8.encodeWide text = .ok bytes ∧ tree.site path = .ok place ∧
        tree.isDirectoryAt place = false ∧
        tree.replaceFile path text = (.ok (), tree.put place (.file mode bytes)) := by
  unfold replaceFile
  cases creation : tree.createTemporary path with
  | error error => exact .inl ⟨_, rfl⟩
  | ok made =>
      rcases made with ⟨temporary, created⟩
      obtain ⟨directory, tag, location, -, free, rfl⟩ := createTemporary_eq_ok creation
      have discarded (node : Node) : (tree.put temporary.location node).erase temporary.location =
        tree := erase_put_of_free free node
      have below : temporary.location ≠ [] := by
        intro equal
        simp [equal, node?] at free
      simp only
      split
      case h_1 => exact .inl ⟨_, by rw [discarded]⟩
      case h_2 filled filling =>
        obtain ⟨bytes, encoded, rfl⟩ := fillTemporary_eq_ok filling
        rw [put_put]
        split
        case h_1 => exact .inl ⟨_, by rw [discarded]⟩
        case h_2 adopted adoption =>
          obtain ⟨mode, rfl⟩ := adoptMode_put_eq_ok below adoption
          split
          case h_1 => exact .inl ⟨_, by rw [discarded]⟩
          case h_2 renamed moved =>
            obtain ⟨place, site, other, rfl⟩ := renameTemporary_put_eq_ok location free moved
            exact .inr ⟨place, mode, bytes, encoded, site, other, rfl⟩

/-! ## Reading what was written -/

theorem nodeAt_eq_ok_iff {node : Node} :
    tree.nodeAt path = .ok node ↔ ∃ place, tree.resolve path = .ok place ∧
      tree.node? place = some node := by
  rw [nodeAt]
  cases tree.resolve path with
  | error fault => simp
  | ok place => cases held : tree.node? place <;> simp [held]

theorem isFile_eq_true_iff :
    tree.isFile path = .ok true ↔ ∃ mode content, tree.nodeAt path = .ok (.file mode content) := by
  rw [isFile, test]
  cases tree.nodeAt path with
  | error fault => by_cases absent : fault.meansAbsent = true <;> simp [absent]
  | ok node => cases node <;> simp

theorem read_of_nodeAt (held : tree.nodeAt path = .ok (.file mode content)) :
    tree.read path = .ok content := by
  rw [read, held]

theorem isFile_of_read {bytes : List UInt8} (read : tree.read path = .ok bytes) :
    tree.isFile path = .ok true := by
  rw [FileTree.read] at read
  split at read
  case h_1 mode content held => exact isFile_eq_true_iff.mpr ⟨mode, content, held⟩
  case h_2 => cases read
  case h_3 => cases read

section Anchored

variable (entry : IsEntryName name)
  (sound : writtenFault? (Path.anchored [name]).text = none)

include entry sound

/-- A path with one name leads to the file that has this name in the root. -/
theorem resolve_anchored (held : tree.node? [name] = some (.file mode content)) :
    tree.resolve (Path.anchored [name]) = .ok [name] :=
  resolve_eq_ok_iff.mpr ⟨sound, linkLimit, .enter rfl entry held rfl (.stay _ _)⟩

theorem nodeAt_anchored (held : tree.node? [name] = some (.file mode content)) :
    tree.nodeAt (Path.anchored [name]) = .ok (.file mode content) :=
  nodeAt_eq_ok_iff.mpr ⟨[name], resolve_anchored entry sound held, held⟩

end Anchored

/-- A tree whose only entry is a file in the root. -/
def single (name : Text) (content : List UInt8) : FileTree := ⟨[([name], .file 0o644 content)]⟩

theorem node?_single_self (name : Text) (content : List UInt8) :
    (single name content).node? [name] = some (.file 0o644 content) := by
  rw [node?, if_neg (by simp), single, List.lookup_cons_self]

theorem nodeAt_single {name : Text} (entry : IsEntryName name)
    (sound : writtenFault? (Path.anchored [name]).text = none) (content : List UInt8) :
    (single name content).nodeAt (Path.anchored [name]) = .ok (.file 0o644 content) :=
  nodeAt_anchored entry sound (node?_single_self name content)

theorem names_eq_dropLast_append_name (nonempty : path.name ≠ []) :
    path.names = path.names.dropLast ++ [path.name] := by
  have present : path.names ≠ [] := by
    intro empty
    simp [Path.name, empty] at nonempty
  rw [Path.name, List.getLast?_eq_some_getLast present, Option.getD_some,
    List.dropLast_concat_getLast present]

/-- The site of a path that leads to a file leads to that file, as the path does. -/
theorem exists_leadsToFile_of_site (file : tree.isFile path = .ok true)
    (site : tree.site path = .ok place) :
    ∃ between directory target, tree.Leads linkLimit [] path.names.dropLast between directory ∧
      tree.LeadsToFile directory path.name target ∧ tree.resolve path = .ok target ∧
      place = directory ++ [path.name] := by
  obtain ⟨mode, content, leadsToFile⟩ := isFile_eq_true_iff.mp file
  obtain ⟨target, resolved, held⟩ := nodeAt_eq_ok_iff.mp leadsToFile
  obtain ⟨-, left, leads⟩ := resolve_eq_ok_iff.mp resolved
  obtain ⟨-, spare, directory, onTheWay, inside, nonempty, notUp, short, rfl⟩ :=
    site_eq_ok_iff.mp site
  have noDirectory : tree.isDirectoryAt target = false := by
    simp [isDirectoryAt, held, Node.isDirectory]
  rw [names_eq_dropLast_append_name nonempty] at leads
  obtain ⟨between, middle, first, last⟩ := leads.exists_of_append
  obtain rfl := first.unique onTheWay
  have notHere : path.name ≠ ['.'] := by
    intro equal
    rw [equal] at last
    cases last with
    | here _ onward =>
        cases onward
        simp [noDirectory] at inside
    | enter _ entry => exact entry.not_here rfl
    | jump _ entry => exact entry.not_here rfl
  exact ⟨between, middle, target, first,
    ⟨inside, ⟨notHere, notUp, short⟩, ⟨_, _, last⟩, ⟨_, _, held⟩⟩, resolved, rfl⟩

theorem name_ne_nil_of_isFile (file : tree.isFile path = .ok true) (steps : [] ∉ path.names) :
    path.name ≠ [] := by
  intro unnamed
  rw [Path.name] at unnamed
  cases last : path.names.getLast? with
  | some name =>
      rw [last, Option.getD_some] at unnamed
      exact steps (unnamed ▸ List.mem_of_getLast? last)
  | none =>
      -- without names the path leads to the root
      obtain ⟨mode, content, held⟩ := isFile_eq_true_iff.mp file
      obtain ⟨place, resolved, found⟩ := nodeAt_eq_ok_iff.mp held
      obtain ⟨-, _, leads⟩ := resolve_eq_ok_iff.mp resolved
      rw [List.getLast?_eq_none_iff.mp last] at leads
      cases leads
      simp [node?] at found

/-- A path that leads to a file and has a last name has a site. -/
theorem exists_site_of_isFile (file : tree.isFile path = .ok true) (named : path.name ≠ []) :
    ∃ place, tree.site path = .ok place := by
  obtain ⟨mode, content, leadsToFile⟩ := isFile_eq_true_iff.mp file
  obtain ⟨target, resolved, held⟩ := nodeAt_eq_ok_iff.mp leadsToFile
  obtain ⟨written, left, leads⟩ := resolve_eq_ok_iff.mp resolved
  have noDirectory : tree.isDirectoryAt target = false := by
    simp [isDirectoryAt, held, Node.isDirectory]
  rw [names_eq_dropLast_append_name named] at leads
  obtain ⟨between, directory, first, last⟩ := leads.exists_of_append
  have site (inside : tree.isDirectoryAt directory = true) (entry : IsEntryName path.name) :
      tree.site path = .ok (directory ++ [path.name]) :=
    site_eq_ok_iff.mpr ⟨written, between, directory, first, inside, named, entry.not_up,
      entry.length_le, rfl⟩
  generalize path.name = name at last site
  cases last with
  | here inside onward =>
      cases onward
      simp [noDirectory] at inside
  | up inside onward =>
      -- above a directory that can be reached there is no file
      cases onward
      by_cases root : directory = []
      · simp [root, isDirectoryAt, node?, Node.isDirectory] at noDirectory
      · have above := first.isDirectoryAt_of_prefix (by simp) _ (List.dropLast_prefix directory)
          fun same => by
            have shorter := congrArg List.length same
            have present := List.length_pos_iff.mpr root
            rw [List.length_dropLast] at shorter
            omega
        simp [noDirectory] at above
  | enter inside entry => exact ⟨_, site inside entry⟩
  | jump inside entry => exact ⟨_, site inside entry⟩

/-- A path that led to a file leads to the file that has been put on its site, even if
links had to be followed before. -/
theorem nodeAt_put_site (file : tree.isFile path = .ok true) (site : tree.site path = .ok place)
    (mode : Nat) (content : List UInt8) :
    (tree.put place (.file mode content)).nodeAt path = .ok (.file mode content) := by
  obtain ⟨between, directory, target, first, leadsToFile, -, rfl⟩ :=
    exists_leadsToFile_of_site file site
  obtain ⟨written, -, -, -, -, present, -⟩ := site_eq_ok_iff.mp site
  have agree := agreeOff_put tree (directory ++ [path.name]) (.file mode content)
  have again := first.of_agree agree leadsToFile.deadEnd leadsToFile.inside
  have insideAgain : (tree.put (directory ++ [path.name]) (.file mode content)).isDirectoryAt
      directory = true := by
    rw [agree.isDirectoryAt_eq (by simp), leadsToFile.inside]
  have found : (tree.put (directory ++ [path.name]) (.file mode content)).node?
      (directory ++ [path.name]) = some (.file mode content) := node?_put_self (by simp)
  refine nodeAt_eq_ok_iff.mpr ⟨directory ++ [path.name], resolve_eq_ok_iff.mpr
    ⟨written, between, ?_⟩, found⟩
  rw [names_eq_dropLast_append_name present]
  exact again.append (.enter insideAgain leadsToFile.entry found rfl (.stay _ _))

/-- A path that led to a file has the same site when a file has been put there. -/
theorem site_put_site (file : tree.isFile path = .ok true) (site : tree.site path = .ok place)
    (mode : Nat) (content : List UInt8) :
    (tree.put place (.file mode content)).site path = .ok place := by
  obtain ⟨between, directory, target, first, leadsToFile, -, rfl⟩ :=
    exists_leadsToFile_of_site file site
  obtain ⟨written, -, -, -, -, present, notUp, short, -⟩ := site_eq_ok_iff.mp site
  have agree := agreeOff_put tree (directory ++ [path.name]) (.file mode content)
  have again := first.of_agree agree leadsToFile.deadEnd leadsToFile.inside
  refine site_eq_ok_iff.mpr ⟨written, between, directory, again, ?_, present, notUp, short, rfl⟩
  rw [agree.isDirectoryAt_eq (by simp), leadsToFile.inside]

/-- If the site of a path that leads to a file holds a file, the path leads to that one. -/
theorem nodeAt_of_node?_site (file : tree.isFile path = .ok true)
    (site : tree.site path = .ok place) (held : tree.node? place = some (.file mode content)) :
    tree.nodeAt path = .ok (.file mode content) := by
  obtain ⟨between, directory, target, -, leadsToFile, resolved, rfl⟩ :=
    exists_leadsToFile_of_site file site
  exact nodeAt_eq_ok_iff.mpr ⟨target, resolved, leadsToFile.target_eq_of_file held ▸ held⟩

end DependencyGate.FileTree

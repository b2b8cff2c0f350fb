/-
# Beside a temporary file

A temporary file lies on a free place under a name of its own. Beside it, paths find what they
found before; a path that meets it led nowhere before (`nodeAt_put_of_free`). So the steps of a
replacement behind its creation do what they would do without it: the new file takes over the
permission bits of what the path led to, and it is moved to the entry that the path names
(`replaceFile_of_housed`).
-/

import DependencyGate.Proofs.FileTree.Alike

namespace DependencyGate.FileTree

variable {tree created : FileTree} {path : Path} {temporary : Temporary} {text : WideText}
  {directory place : Location} {name : Text} {mode : Nat} {content : List UInt8}
  {fault : PathFault}

/-! ## A new file on a free place -/

section Free

variable (inside : tree.isDirectoryAt directory = true)
  (free : tree.node? (directory ++ [name]) = none) (mode : Nat) (content : List UInt8)

include free

theorem isDirectoryAt_put_of_free (place : Location) :
    (tree.put (directory ++ [name]) (.file mode content)).isDirectoryAt place =
      tree.isDirectoryAt place := by
  by_cases here : place = directory ++ [name]
  · rw [here, isDirectoryAt, isDirectoryAt, free, node?_put_self (by simp)]
    rfl
  · exact (agreeOff_put tree _ _).isDirectoryAt_eq here

/-- Under a name that no path can lead over, a new file is not noticed. -/
theorem follow_put_of_not_isEntryName (long : ¬IsEntryName name) (links : Nat)
    (names : List Text) :
    (tree.put (directory ++ [name]) (.file mode content)).follow links [] names =
        tree.follow links [] names ∧
      ∀ place, tree.follow links [] names = .ok place → place ≠ directory ++ [name] := by
  have alike := follow_alike (agreeOff_put tree (directory ++ [name]) (.file mode content))
    (isDirectoryAt_put_of_free free mode content) links [] names (by simp)
  generalize tree.follow links [] names = here at alike ⊢
  generalize (tree.put (directory ++ [name]) (.file mode content)).follow links [] names =
    there at alike ⊢
  cases alike with
  | same apart => exact ⟨rfl, apart⟩
  | meets _ entry => exact absurd entry long

include inside

/-- A file that is put on a free place is all that a tree differs by. -/
theorem differBy_put_of_free (entry : IsEntryName name) :
    DifferBy directory name tree (tree.put (directory ++ [name]) (.file mode content)) where
  agree := agreeOff_put tree _ _
  here := .inl free
  there := .inr ⟨_, leadsToFile_of_file
    ((isDirectoryAt_put_of_free free mode content directory).trans inside) entry
    (node?_put_self (by simp))⟩

/-- A path finds the same beside such a file, or it led nowhere before and meets the file. -/
theorem nodeAt_put_of_free (path : Path) :
    (tree.put (directory ++ [name]) (.file mode content)).nodeAt path = tree.nodeAt path ∨
      (∃ fault, tree.nodeAt path = .error fault ∧ fault.meansAbsent = true) ∧
        ((tree.put (directory ++ [name]) (.file mode content)).nodeAt path =
            .ok (.file mode content) ∨
          ∃ fault, (tree.put (directory ++ [name]) (.file mode content)).nodeAt path =
            .error fault ∧ fault.meansAbsent = true) := by
  by_cases entry : IsEntryName name
  case neg =>
    left
    rw [nodeAt, nodeAt, resolve, resolve]
    cases writtenFault? path.text with
    | some fault => rfl
    | none =>
        obtain ⟨same, apart⟩ :=
          follow_put_of_not_isEntryName free mode content entry linkLimit path.names
        simp only [same]
        cases followed : tree.follow linkLimit [] path.names with
        | error fault => rfl
        | ok place => simp only [node?_put_of_ne (apart place followed)]
  case pos =>
    have differ := differBy_put_of_free inside free mode content entry
    rcases differ.resolve_cases path with ⟨same, apart⟩ | ⟨endsHere, endsThere⟩
    · exact .inl (differ.nodeAt_eq same apart)
    · refine .inr ⟨endsHere.nodeAt_of_avoids (avoids_of_free free path), ?_⟩
      have held : (tree.put (directory ++ [name]) (.file mode content)).node?
          (directory ++ [name]) = some (.file mode content) := node?_put_self (by simp)
      rcases endsThere with ⟨target, leadsToFile, resolved⟩ | ⟨fault, failed, absent⟩
      · rw [leadsToFile.target_eq_of_file held] at resolved
        exact .inl (nodeAt_eq_ok_iff.mpr ⟨_, resolved, held⟩)
      · exact .inr ⟨fault, by rw [nodeAt, failed], absent⟩

/-- A path that has a site keeps it. -/
theorem site_put_of_free (site : tree.site path = .ok place) :
    (tree.put (directory ++ [name]) (.file mode content)).site path = .ok place := by
  by_cases entry : IsEntryName name
  case neg =>
    rw [FileTree.site] at site ⊢
    simpa only [(follow_put_of_not_isEntryName free mode content entry _ _).1,
      isDirectoryAt_put_of_free free] using site
  case pos => exact (differBy_put_of_free inside free mode content entry).site_eq_ok site

end Free

/-! ## Behind the creation of a temporary file -/

/-- The permission bits of a new file at a path: those of what the path leads to, or those of a
temporary file if it leads nowhere. -/
def adoptedMode (tree : FileTree) (path : Path) : Nat :=
  match tree.nodeAt path with
  | .ok node => node.mode % 0o1000
  | .error _ => privateMode

theorem adoptedMode_of_nodeAt {node : Node} (found : tree.nodeAt path = .ok node) :
    tree.adoptedMode path = node.mode % 0o1000 := by
  rw [adoptedMode, found]

section Created

variable (creation : tree.createTemporary path = .ok (temporary, created))

include creation

/-- The temporary file takes over the permission bits of what the path led to before. -/
theorem adoptMode_temporary
    (examined : ∀ fault, tree.nodeAt path = .error fault → fault.meansAbsent = true) :
    (tree.put temporary.location (.file privateMode content)).adoptMode temporary path =
      .ok (tree.put temporary.location (.file (tree.adoptedMode path) content)) := by
  obtain ⟨directory, tag, location, inside, free, -⟩ := createTemporary_eq_ok creation
  rw [location] at free
  have held (mode : Nat) : (tree.put temporary.location (.file mode content)).node?
      temporary.location = some (.file mode content) := node?_put_self (by simp [location])
  have cases := nodeAt_put_of_free inside free privateMode content path
  rw [← location] at cases
  rw [adoptMode_eq, adoptedMode]
  rcases cases with same | ⟨⟨fault, nowhere, -⟩, met | ⟨other, failed, absent⟩⟩
  · rw [same]
    cases found : tree.nodeAt path with
    | ok node => simp only [setMode, held, put_put]
    | error fault => simp only [examined fault found, if_true]
  · -- the path meets the temporary file itself, whose permission bits are its own
    simp only [nowhere, met, setMode, held, put_put]
    rfl
  · simp only [nowhere, failed, absent, if_true]

theorem adoptMode_temporary_of_fault (failed : tree.nodeAt path = .error fault)
    (present : fault.meansAbsent = false) :
    (tree.put temporary.location (.file privateMode content)).adoptMode temporary path =
      .error ⟨fault, path.text, none⟩ := by
  obtain ⟨directory, tag, location, inside, free, -⟩ := createTemporary_eq_ok creation
  rw [location] at free
  have cases := nodeAt_put_of_free inside free privateMode content path
  rw [← location] at cases
  rcases cases with same | ⟨⟨other, nowhere, absent⟩, -⟩
  · simp [adoptMode_eq, same, failed, present]
  · obtain rfl := Except.error.inj (failed.symm.trans nowhere)
    simp [present] at absent

/-- The temporary file is moved to an entry that is no directory. -/
theorem renameTemporary_of_site (site : tree.site path = .ok place)
    (other : tree.isDirectoryAt place = false) :
    (tree.put temporary.location (.file mode content)).renameTemporary temporary path =
      .ok (tree.put place (.file mode content)) := by
  obtain ⟨directory, tag, location, inside, free, -⟩ := createTemporary_eq_ok creation
  rw [location] at free
  simp [renameTemporary, location, site_put_of_free inside free mode content site,
    isDirectoryAt_put_of_free free, other, node?_put_self, erase_put_of_free free]

end Created

/-! ## Replacements that are done -/

section Done

variable {bytes : List UInt8} (site : tree.site path = .ok place)
  (encoded : Utf8.encodeWide text = .ok bytes)

include site encoded

/-- A file is replaced if there is a directory for its temporary file, what the path leads to can
be examined, and the entry that it names is no directory: the new file is put there. -/
theorem replaceFile_of_housed (housed : tree.HousesTemporary path)
    (examined : ∀ fault, tree.nodeAt path = .error fault → fault.meansAbsent = true)
    (other : tree.isDirectoryAt place = false) :
    tree.replaceFile path text =
      (.ok (), tree.put place (.file (tree.adoptedMode path) bytes)) := by
  obtain ⟨temporary, created, creation⟩ := exists_createTemporary_iff.mpr housed
  obtain ⟨_, _, _, _, _, rfl⟩ := createTemporary_eq_ok creation
  unfold replaceFile
  simp only [creation, fillTemporary, encoded, put_put, adoptMode_temporary creation examined,
    renameTemporary_of_site creation site other]

/-- A file that is there is replaced if there is a directory for its temporary file, and keeps its
permission bits. -/
theorem replaceFile_of_nodeAt (held : tree.nodeAt path = .ok (.file mode content))
    (housed : tree.HousesTemporary path) :
    tree.replaceFile path text = (.ok (), tree.put place (.file (mode % 0o1000) bytes)) := by
  obtain ⟨_, _, _, -, onward, -, rfl⟩ :=
    exists_leadsToFile_of_site (isFile_eq_true_iff.mpr ⟨mode, content, held⟩) site
  have done := replaceFile_of_housed site encoded housed (by simp [held])
    onward.deadEnd.no_directory
  rwa [adoptedMode_of_nodeAt held] at done

end Done

end DependencyGate.FileTree

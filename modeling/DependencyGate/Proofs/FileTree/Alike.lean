/-
# Trees that differ by one file

Two trees that hold the same everywhere but in one place are followed alike until that place is
met (`follow_alike`). If it holds nothing in either of them, or leads to a file, then names that
meet it end there or lead nowhere. So the trees have the same directories, and a path finds the
same in both unless it leads to that very file (`DifferBy.findsAlike`). How a path fails may
differ: under a file there is nothing, and where there is none, something is missing.
-/

import DependencyGate.Proofs.FileTree.Replace

namespace DependencyGate.FileTree

variable {tree other : FileTree} {directory target start : Location} {name : Text}
  {names rest : List Text} {links left : Nat} {path : Path}

/-! ## Following names -/

/-- Names that lead to a place lead on from there, unless there are too many links. -/
theorem follow_append_of_leads {front : List Text}
    (leads : tree.Leads links start front left target) (allowed : Nat) (rest : List Text) :
    (∃ spare, tree.follow allowed start (front ++ rest) =
        tree.follow spare target rest) ∨
      tree.follow allowed start (front ++ rest) = .error .tooManyLinks := by
  induction leads generalizing allowed with
  | stay links place => exact .inl ⟨allowed, rfl⟩
  | here inside _ ih =>
      rw [List.cons_append, follow_here inside]
      exact ih allowed
  | up inside _ ih =>
      rw [List.cons_append, follow_up inside]
      exact ih allowed
  | enter inside entry present direct _ ih =>
      rw [List.cons_append, follow_enter inside entry present direct]
      exact ih allowed
  | jump inside entry present _ ih =>
      rw [List.cons_append]
      cases allowed with
      | zero => exact .inr (follow_last_link inside entry present)
      | succ allowed =>
          rw [follow_jump inside entry present, ← List.append_assoc]
          exact ih allowed

/-- Names that lead to a file lead nowhere if more names follow, and neither if there are too
many links. -/
theorem follow_append_of_leads_of_no_directory {front : List Text}
    (leads : tree.Leads links start front left target) (other : tree.isDirectoryAt target = false)
    (allowed : Nat) (rest : List Text) :
    (rest = [] ∧ tree.follow allowed start (front ++ rest) = .ok target) ∨
      ∃ fault, tree.follow allowed start (front ++ rest) = .error fault ∧
        fault.meansAbsent = true := by
  rcases follow_append_of_leads leads allowed rest with ⟨spare, onward⟩ | tooMany
  · rw [onward]
    cases rest with
    | nil => exact .inl ⟨rfl, follow_nil⟩
    | cons next rest => exact .inr ⟨.notDirectory, follow_of_no_directory other, rfl⟩
  · exact .inr ⟨_, tooMany, rfl⟩

/-! ## Two trees that agree off one place -/

section Alike

variable {before after : Except PathFault Location} {next : Location} {onward : List Text}

/-- How following the same names ends in two trees that agree off the place under one name of a
directory: alike and elsewhere, or as it does from that name on. -/
inductive FollowsAlike (tree other : FileTree) (directory : Location) (name : Text)
    (start : Location) (names : List Text) :
    Except PathFault Location → Except PathFault Location → Prop
  | same {outcome : Except PathFault Location}
      (apart : ∀ location, outcome = .ok location → location ≠ directory ++ [name]) :
      FollowsAlike tree other directory name start names outcome outcome
  | meets {spare : Nat} {rest : List Text} (inside : tree.isDirectoryAt directory = true)
      (entry : IsEntryName name)
      (leads : ∀ {links left target}, tree.Leads links directory (name :: rest) left target →
        ∃ links left, tree.Leads links start names left target) :
      FollowsAlike tree other directory name start names
        (tree.follow spare directory (name :: rest))
        (other.follow spare directory (name :: rest))

theorem FollowsAlike.of_onward (alike : FollowsAlike tree other directory name next onward before
    after) (leads : ∀ {links left target}, tree.Leads links next onward left target →
      ∃ links left, tree.Leads links start names left target) :
    FollowsAlike tree other directory name start names before after := by
  cases alike with
  | same apart => exact .same apart
  | meets inside entry reached =>
      refine .meets inside entry fun onward => ?_
      obtain ⟨links, left, onward⟩ := reached onward
      exact leads onward

/-- Two trees that agree off one place are followed alike until names meet it, as long as they
do not start below it. -/
theorem follow_alike (agree : AgreeOff (directory ++ [name]) tree other)
    (kept : ∀ place, other.isDirectoryAt place = tree.isDirectoryAt place) (links : Nat)
    (start : Location) (names : List Text) (outside : ¬directory ++ [name] <+: start) :
    FollowsAlike tree other directory name start names (tree.follow links start names)
      (other.follow links start names) := by
  have below {place : Location} {next : Text} (outside : ¬directory ++ [name] <+: place)
      (apart : place ++ [next] ≠ directory ++ [name]) :
      ¬directory ++ [name] <+: place ++ [next] := by
    rw [List.prefix_concat_iff, not_or]
    exact ⟨Ne.symm apart, outside⟩
  -- once names meet the place, nothing is left to show
  have atPlace {links : Nat} {place : Location} {next : Text} (rest : List Text)
      (inside : tree.isDirectoryAt place = true) (entry : IsEntryName next)
      (equal : place ++ [next] = directory ++ [name]) :
      FollowsAlike tree other directory name place (next :: rest)
        (tree.follow links place (next :: rest))
        (other.follow links place (next :: rest)) := by
    obtain ⟨rfl, same⟩ := List.append_inj' equal rfl
    obtain rfl := List.singleton_inj.mp same
    exact .meets inside entry fun leads => ⟨_, _, leads⟩
  induction links, start, names using follow_induction tree with
  | done links place =>
      rw [follow_nil, follow_nil]
      refine .same fun location ended equal => outside ?_
      obtain rfl := Except.ok.inj ended
      exact equal ▸ List.prefix_rfl
  | outside _ place _ _ elsewhere =>
      rw [follow_of_no_directory elsewhere, follow_of_no_directory ((kept place).trans elsewhere)]
      exact .same (by simp)
  | here _ place _ inside ih =>
      rw [follow_here inside, follow_here ((kept place).trans inside)]
      exact (ih outside).of_onward fun leads => ⟨_, _, .here inside leads⟩
  | up _ place _ inside ih =>
      rw [follow_up inside, follow_up ((kept place).trans inside)]
      have above : ¬directory ++ [name] <+: place.dropLast := fun inside =>
        outside (inside.trans (List.dropLast_prefix place))
      exact (ih above).of_onward fun leads => ⟨_, _, .up inside leads⟩
  | long _ place _ _ inside notHere notUp tooLong =>
      rw [follow_of_long inside notHere notUp tooLong,
        follow_of_long ((kept place).trans inside) notHere notUp tooLong]
      exact .same (by simp)
  | missing _ place next rest inside entry missing =>
      by_cases equal : place ++ [next] = directory ++ [name]
      · exact atPlace rest inside entry equal
      · rw [follow_of_missing inside entry missing, follow_of_missing ((kept place).trans inside)
          entry ((agree _ equal).trans missing)]
        exact .same (by simp)
  | lastLink place next rest _ inside entry present =>
      by_cases equal : place ++ [next] = directory ++ [name]
      · exact atPlace rest inside entry equal
      · rw [follow_last_link inside entry present, follow_last_link ((kept place).trans inside)
          entry ((agree _ equal).trans present)]
        exact .same (by simp)
  | jump _ place next rest written inside entry present ih =>
      by_cases equal : place ++ [next] = directory ++ [name]
      · exact atPlace rest inside entry equal
      · rw [follow_jump inside entry present, follow_jump ((kept place).trans inside) entry
          ((agree _ equal).trans present)]
        have above : ¬directory ++ [name] <+: linkStart place written := by
          rw [linkStart]
          split
          · simp
          · exact outside
        exact (ih above).of_onward fun leads => ⟨_, _, .jump inside entry present leads⟩
  | enter _ place next rest _ inside entry present direct ih =>
      by_cases equal : place ++ [next] = directory ++ [name]
      · exact atPlace rest inside entry equal
      · rw [follow_enter inside entry present direct, follow_enter ((kept place).trans inside) entry
          ((agree _ equal).trans present) direct]
        exact (ih (below outside equal)).of_onward fun leads =>
          ⟨_, _, .enter inside entry present direct leads⟩

end Alike

/-! ## Paths -/

/-- Whether a path leads to a place, however many links that takes. -/
def Reaches (tree : FileTree) (path : Path) (place : Location) : Prop :=
  ∃ links left, tree.Leads links [] path.names left place

theorem not_reaches_of_resolve {place : Location} (resolved : tree.resolve path = .ok target)
    (apart : target ≠ place) : ¬tree.Reaches path place := by
  obtain ⟨-, left, leads⟩ := resolve_eq_ok_iff.mp resolved
  rintro ⟨links, left', again⟩
  exact apart (leads.unique again)

/-- A path on which something is missing leads nowhere, however many links may be followed. -/
theorem not_reaches_of_missing {place : Location} (missing : tree.resolve path = .error .missing) :
    ¬tree.Reaches path place := by
  rintro ⟨links, left, leads⟩
  rw [resolve] at missing
  cases written : writtenFault? path.text with
  | some fault =>
      simp only [written, Except.error.injEq] at missing
      rw [missing, writtenFault?] at written
      split at written
      case isTrue => cases written
      case isFalse => split at written <;> cases written
  | none =>
      simp only [written] at missing
      rcases follow_append_of_leads leads linkLimit [] with ⟨spare, onward⟩ | tooMany
      · rw [List.append_nil, missing, follow_nil] at onward
        cases onward
      · rw [List.append_nil, missing] at tooMany
        cases tooMany

/-- Whether a path finds the same in two trees, or nothing in either. -/
def FindsAlike (tree other : FileTree) (path : Path) : Prop :=
  other.nodeAt path = tree.nodeAt path ∨
    (∃ fault, tree.nodeAt path = .error fault ∧ fault.meansAbsent = true) ∧
      ∃ fault, other.nodeAt path = .error fault ∧ fault.meansAbsent = true

namespace FindsAlike

variable (alike : FindsAlike tree other path)

include alike

/-- What a path leads to is told alike. -/
theorem test_eq (property : Node → Bool) : other.test path property = tree.test path property := by
  rw [test, test]
  rcases alike with same | ⟨⟨fault, here, absent⟩, other, there, none⟩
  · rw [same]
  · simp [here, there, absent, none]

theorem isFile_eq : other.isFile path = tree.isFile path := alike.test_eq _

theorem toOption_read_eq : (other.read path).toOption = (tree.read path).toOption := by
  rw [read, read]
  rcases alike with same | ⟨⟨fault, here, -⟩, other, there, -⟩
  · rw [same]
  · simp [here, there, Except.toOption]

theorem nodeAt_eq_of_isFile (file : tree.isFile path = .ok true) :
    other.nodeAt path = tree.nodeAt path := by
  obtain ⟨mode, content, held⟩ := isFile_eq_true_iff.mp file
  rcases alike with same | ⟨⟨fault, absent, -⟩, -⟩
  · exact same
  · simp [held] at absent

end FindsAlike

/-- A path that ends with a name leads to the file that the name leads to. -/
theorem LeadsToFile.reaches {spent : Nat} (leadsToFile : tree.LeadsToFile directory name target)
    (leads : tree.Leads links [] path.names spent directory) :
    tree.Reaches (path.child name) target := by
  obtain ⟨allowed, left, last⟩ := leadsToFile.leads
  have last := last.add spent
  rw [Nat.add_comm allowed] at last
  exact ⟨_, _, (leads.add allowed).append last⟩

/-! ## One file -/

/-- Whether a name in a directory has nothing under it, or leads to a regular file. -/
def HoldsAtMostFile (tree : FileTree) (directory : Location) (name : Text) : Prop :=
  tree.node? (directory ++ [name]) = none ∨ ∃ target, tree.LeadsToFile directory name target

/-- Whether two trees hold the same but for one file, which may be missing in either. -/
structure DifferBy (directory : Location) (name : Text) (tree other : FileTree) : Prop where
  agree : AgreeOff (directory ++ [name]) tree other
  here : tree.HoldsAtMostFile directory name
  there : other.HoldsAtMostFile directory name

/-- Whether a path does not lead to the file under a name of a directory. -/
def Avoids (tree : FileTree) (directory : Location) (name : Text) (path : Path) : Prop :=
  ∀ target, tree.LeadsToFile directory name target → ¬tree.Reaches path target

theorem avoids_of_free (free : tree.node? (directory ++ [name]) = none) (path : Path) :
    tree.Avoids directory name path := by
  intro target leadsToFile
  obtain ⟨node, present⟩ := leadsToFile.present
  cases free.symm.trans present

/-- A path that leads elsewhere does not lead to the file. -/
theorem avoids_of_resolve {mode : Nat} {content : List UInt8} {elsewhere : Location}
    (held : tree.node? (directory ++ [name]) = some (.file mode content))
    (resolved : tree.resolve path = .ok elsewhere) (apart : elsewhere ≠ directory ++ [name]) :
    tree.Avoids directory name path := by
  intro target leadsToFile
  rw [leadsToFile.target_eq_of_file held]
  exact not_reaches_of_resolve resolved apart

/-- Whether names that meet a file have ended there, or have led nowhere. -/
def EndsAtFile (tree : FileTree) (directory : Location) (name : Text)
    (outcome : Except PathFault Location) : Prop :=
  (∃ target, tree.LeadsToFile directory name target ∧ outcome = .ok target) ∨
    ∃ fault, outcome = .error fault ∧ fault.meansAbsent = true

namespace HoldsAtMostFile

variable (holds : tree.HoldsAtMostFile directory name)

include holds

theorem isDirectoryAt_eq_false : tree.isDirectoryAt (directory ++ [name]) = false := by
  rcases holds with free | ⟨target, leadsToFile⟩
  · simp [isDirectoryAt, free]
  · exact leadsToFile.deadEnd.no_directory

/-- Whatever follows the name, the file is where it ends. -/
theorem endsAtFile (inside : tree.isDirectoryAt directory = true) (entry : IsEntryName name)
    (links : Nat) (rest : List Text) :
    tree.EndsAtFile directory name (tree.follow links directory (name :: rest)) := by
  rcases holds with free | ⟨target, leadsToFile⟩
  · exact .inr ⟨.missing, follow_of_missing inside entry free, rfl⟩
  · obtain ⟨_, _, leads⟩ := leadsToFile.leads
    rcases follow_append_of_leads_of_no_directory leads leadsToFile.no_directory links rest with
      ⟨-, ended⟩ | nowhere
    · exact .inl ⟨target, leadsToFile, ended⟩
    · exact .inr nowhere

end HoldsAtMostFile

namespace EndsAtFile

variable {outcome : Except PathFault Location}

/-- A path that ends at a file and does not lead to it leads nowhere. -/
theorem nodeAt_of_avoids (ends : tree.EndsAtFile directory name (tree.resolve path))
    (avoids : tree.Avoids directory name path) :
    ∃ fault, tree.nodeAt path = .error fault ∧ fault.meansAbsent = true := by
  rcases ends with ⟨target, leadsToFile, resolved⟩ | ⟨fault, failed, absent⟩
  · obtain ⟨-, left, leads⟩ := resolve_eq_ok_iff.mp resolved
    exact absurd ⟨_, left, leads⟩ (avoids target leadsToFile)
  · exact ⟨fault, by rw [nodeAt, failed], absent⟩

theorem isDirectory_eq (ends : tree.EndsAtFile directory name (tree.resolve path)) :
    tree.isDirectory path = .ok false := by
  rw [isDirectory, test, nodeAt]
  rcases ends with ⟨target, leadsToFile, resolved⟩ | ⟨fault, failed, absent⟩
  · obtain ⟨mode, content, held⟩ := leadsToFile.held
    simp [resolved, held, Node.isDirectory]
  · simp [failed, absent]

end EndsAtFile

namespace DifferBy

variable (differ : DifferBy directory name tree other)

include differ

theorem symm : DifferBy directory name other tree :=
  ⟨differ.agree.symm, differ.there, differ.here⟩

theorem isDirectoryAt_eq (place : Location) :
    other.isDirectoryAt place = tree.isDirectoryAt place := by
  by_cases here : place = directory ++ [name]
  · rw [here, differ.here.isDirectoryAt_eq_false, differ.there.isDirectoryAt_eq_false]
  · exact differ.agree.isDirectoryAt_eq here

/-- Names end alike and elsewhere, or they meet the file in both trees. -/
theorem follow_cases (links : Nat) (names : List Text) :
    (other.follow links [] names = tree.follow links [] names ∧
        ∀ place, tree.follow links [] names = .ok place → place ≠ directory ++ [name]) ∨
      tree.EndsAtFile directory name (tree.follow links [] names) ∧
        other.EndsAtFile directory name (other.follow links [] names) := by
  have alike := follow_alike differ.agree differ.isDirectoryAt_eq links [] names (by simp)
  generalize tree.follow links [] names = here at alike ⊢
  generalize other.follow links [] names = there at alike ⊢
  cases alike with
  | same apart => exact .inl ⟨rfl, apart⟩
  | @meets spare rest inside entry =>
      have insideThere := (differ.isDirectoryAt_eq directory).trans inside
      exact .inr ⟨differ.here.endsAtFile inside entry spare rest,
        differ.there.endsAtFile insideThere entry spare rest⟩

/-- Names lead to a directory in both trees. -/
theorem exists_leads {place : Location} (leads : tree.Leads links [] names left place)
    (inside : tree.isDirectoryAt place = true) : ∃ left, other.Leads links [] names left place := by
  have followed := follow_of_leads leads
  rw [← follow_eq_ok_iff]
  rcases differ.follow_cases links names with ⟨same, -⟩ | ⟨ends, -⟩
  · rw [same, followed]
  · rcases ends with ⟨target, leadsToFile, ended⟩ | ⟨fault, failed, -⟩
    · obtain rfl := Except.ok.inj (followed.symm.trans ended)
      simp [leadsToFile.no_directory] at inside
    · simp [followed] at failed

theorem resolve_cases (path : Path) :
    (other.resolve path = tree.resolve path ∧
        ∀ place, tree.resolve path = .ok place → place ≠ directory ++ [name]) ∨
      tree.EndsAtFile directory name (tree.resolve path) ∧
        other.EndsAtFile directory name (other.resolve path) := by
  rw [resolve, resolve]
  cases writtenFault? path.text with
  | some fault => exact .inl ⟨rfl, by simp⟩
  | none => exact differ.follow_cases linkLimit path.names

/-- What a path leads to that does not meet the file. -/
theorem nodeAt_eq (same : other.resolve path = tree.resolve path)
    (apart : ∀ place, tree.resolve path = .ok place → place ≠ directory ++ [name]) :
    other.nodeAt path = tree.nodeAt path := by
  rw [nodeAt, nodeAt, same]
  cases resolved : tree.resolve path with
  | error fault => rfl
  | ok place => simp only [differ.agree place (apart place resolved)]

/-- A path that does not lead to the file finds the same in both trees, or it finds nothing
in either. -/
theorem findsAlike (here : tree.Avoids directory name path)
    (there : other.Avoids directory name path) : FindsAlike tree other path := by
  rcases differ.resolve_cases path with ⟨same, apart⟩ | ⟨endsHere, endsThere⟩
  · exact .inl (differ.nodeAt_eq same apart)
  · exact .inr ⟨endsHere.nodeAt_of_avoids here, endsThere.nodeAt_of_avoids there⟩

/-- The same paths lead to directories. -/
theorem isDirectory_eq (path : Path) : other.isDirectory path = tree.isDirectory path := by
  rcases differ.resolve_cases path with ⟨same, apart⟩ | ⟨endsHere, endsThere⟩
  · rw [isDirectory, isDirectory, test, test, differ.nodeAt_eq same apart]
  · rw [endsHere.isDirectory_eq, endsThere.isDirectory_eq]

/-- A path to a directory leads to the same one. -/
theorem resolve_eq_of_isDirectory (inside : tree.isDirectory path = .ok true) :
    other.resolve path = tree.resolve path := by
  rcases differ.resolve_cases path with ⟨same, -⟩ | ⟨endsHere, -⟩
  · exact same
  · simp [endsHere.isDirectory_eq] at inside

/-- A path has the same site in both trees, or it has none in either, since nothing is there. -/
theorem site_cases (path : Path) :
    other.site path = tree.site path ∨
      (∃ fault, tree.site path = .error fault ∧ fault.meansAbsent = true) ∧
        ∃ fault, other.site path = .error fault ∧ fault.meansAbsent = true := by
  have failing {tree : FileTree} (written : writtenFault? path.text = none)
      (ends : tree.EndsAtFile directory name (tree.follow linkLimit [] path.names.dropLast)) :
      ∃ fault, tree.site path = .error fault ∧ fault.meansAbsent = true := by
    rw [site, written]
    rcases ends with ⟨target, leadsToFile, ended⟩ | ⟨fault, failed, absent⟩
    · exact ⟨.notDirectory, by simp [ended, leadsToFile.no_directory], rfl⟩
    · exact ⟨fault, by simp [failed], absent⟩
  cases written : writtenFault? path.text with
  | some fault => exact .inl (by rw [site, site, written])
  | none =>
      rcases differ.follow_cases linkLimit path.names.dropLast with ⟨same, -⟩ | ⟨here, there⟩
      · left
        simp only [site, written, same, differ.isDirectoryAt_eq]
      · exact .inr ⟨failing written here, failing written there⟩

/-- A path that has a site has the same one in the other tree. -/
theorem site_eq_ok {place : Location} (sited : tree.site path = .ok place) :
    other.site path = .ok place := by
  rcases differ.site_cases path with same | ⟨⟨fault, failed, -⟩, -⟩
  · rw [same, sited]
  · simp [sited] at failed

end DifferBy

/-- A file that is removed is all that a tree differs by. -/
theorem differBy_erase (leadsToFile : tree.LeadsToFile directory name target) :
    DifferBy directory name tree (tree.erase (directory ++ [name])) where
  agree := agreeOff_erase tree _
  here := .inr ⟨target, leadsToFile⟩
  there := .inl (node?_erase_self (by simp))

/-- A file that is put where a name led to one is all that a tree differs by. -/
theorem differBy_put (leadsToFile : tree.LeadsToFile directory name target) (mode : Nat)
    (content : List UInt8) :
    DifferBy directory name tree (tree.put (directory ++ [name]) (.file mode content)) where
  agree := agreeOff_put tree _ _
  here := .inr ⟨target, leadsToFile⟩
  there := by
    have held : (tree.put (directory ++ [name]) (.file mode content)).node? (directory ++ [name]) =
        some (.file mode content) := node?_put_self (by simp)
    have inside : (tree.put (directory ++ [name]) (.file mode content)).isDirectoryAt directory =
        true := by
      rw [(agreeOff_put tree _ _).isDirectoryAt_eq (by simp), leadsToFile.inside]
    exact .inr ⟨_, leadsToFile_of_file inside leadsToFile.entry held⟩

end DependencyGate.FileTree

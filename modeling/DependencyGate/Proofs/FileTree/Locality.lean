/-
# What a new file changes

A file that is put where one was led to is found by those paths alone that led to the old
file. A path that leads elsewhere, or nowhere, does so afterwards (`shifts_follow`). What
changes is how a path fails: where there was a link that had been followed too often, there
is a file now that has nothing below it.
-/

import DependencyGate.Proofs.FileTree.Alike

namespace DependencyGate.FileTree

variable {tree : FileTree} {directory target start : Location} {name : Text}
  {names rest : List Text} {links left : Nat} {path : Path} {mode : Nat} {content : List UInt8}

/-! ## Following names -/

/-- How following names ends after a file has been put on a place that led to another one, and
how it ended before. -/
inductive Shifts (tree : FileTree) (place target start : Location) (names : List Text) :
    Except PathFault Location → Except PathFault Location → Prop
  | same {outcome : Except PathFault Location}
      (apart : ∀ location, outcome = .ok location → location ≠ place) :
      Shifts tree place target start names outcome outcome
  | moved {outcome : Except PathFault Location}
      (reaches : ∃ links left, tree.Leads links start names left target)
      (ended : outcome = .ok target ∨
        ∃ fault, outcome = .error fault ∧ fault.meansAbsent = true) :
      Shifts tree place target start names outcome (.ok place)
  | absent {before after : PathFault} (absentBefore : before.meansAbsent = true)
      (absentAfter : after.meansAbsent = true) :
      Shifts tree place target start names (.error before) (.error after)

section Following

variable {place : Location} {before after : Except PathFault Location} {next : Location}
  {onward : List Text}

theorem Shifts.of_onward (shifts : Shifts tree place target next onward before after)
    (leads : ∀ {links left}, tree.Leads links next onward left target →
      ∃ links left, tree.Leads links start names left target) :
    Shifts tree place target start names before after := by
  cases shifts with
  | same apart => exact .same apart
  | moved reaches ended =>
      obtain ⟨links, left, reached⟩ := reaches
      exact .moved (leads reached) ended
  | absent absentBefore absentAfter => exact .absent absentBefore absentAfter

variable (site : tree.LeadsToFile directory name target) (mode : Nat) (content : List UInt8)

include site

theorem isDirectoryAt_put_file (place : Location) :
    (tree.put (directory ++ [name]) (.file mode content)).isDirectoryAt place =
      tree.isDirectoryAt place := (differBy_put site mode content).isDirectoryAt_eq place

/-- At the place itself, the new file is where the names end. -/
theorem shifts_follow_here (links : Nat) (rest : List Text) :
    Shifts tree (directory ++ [name]) target directory (name :: rest)
      (tree.follow links directory (name :: rest))
      ((tree.put (directory ++ [name]) (.file mode content)).follow links directory
        (name :: rest)) := by
  obtain ⟨spent, left, leads⟩ := site.leads
  have old := follow_append_of_leads_of_no_directory leads site.no_directory links rest
  have new : (tree.put (directory ++ [name]) (.file mode content)).follow links directory
      (name :: rest) = (tree.put (directory ++ [name]) (.file mode content)).follow links
        (directory ++ [name]) rest := by
    have inside := (isDirectoryAt_put_file site mode content directory).trans site.inside
    exact follow_enter inside site.entry (node?_put_self (by simp)) rfl
  rw [new]
  rw [List.singleton_append] at old
  cases rest with
  | nil =>
      rw [follow_nil]
      refine .moved ⟨spent, left, leads⟩ ?_
      rcases old with ⟨-, ended⟩ | failed
      · exact .inl ended
      · exact .inr failed
  | cons next rest =>
      obtain ⟨fault, failed, absent⟩ := old.resolve_left (by simp)
      rw [failed, follow_of_no_directory
        ((isDirectoryAt_put_file site mode content _).trans site.deadEnd.no_directory)]
      exact .absent absent rfl

/-- What a new file changes for those who follow names, as long as they do not start
below it. -/
theorem shifts_follow (links : Nat) (start : Location) (names : List Text)
    (outside : ¬directory ++ [name] <+: start) :
    Shifts tree (directory ++ [name]) target start names (tree.follow links start names)
      ((tree.put (directory ++ [name]) (.file mode content)).follow links start names) := by
  have alike := follow_alike (agreeOff_put tree (directory ++ [name]) (.file mode content))
    (isDirectoryAt_put_file site mode content) links start names outside
  generalize tree.follow links start names = old at alike ⊢
  generalize (tree.put (directory ++ [name]) (.file mode content)).follow links start names =
    new at alike ⊢
  cases alike with
  | same apart => exact .same apart
  | meets _ _ leads => exact (shifts_follow_here site mode content _ _).of_onward leads

end Following

/-! ## Paths -/

section Site

variable (site : tree.LeadsToFile directory name target) (mode : Nat) (content : List UInt8)

include site

theorem shifts_resolve (path : Path) :
    Shifts tree (directory ++ [name]) target [] path.names (tree.resolve path)
      ((tree.put (directory ++ [name]) (.file mode content)).resolve path) := by
  rw [resolve, resolve]
  cases writtenFault? path.text with
  | some fault => exact .same (by simp)
  | none => exact shifts_follow site mode content linkLimit [] path.names (by simp)

/-- A path finds the same as before, or it finds the new file and led to the old one before, or
it finds nothing as before. -/
theorem nodeAt_put_cases (path : Path) :
    (tree.put (directory ++ [name]) (.file mode content)).nodeAt path = tree.nodeAt path ∨
      (tree.Reaches path target ∧
        (tree.put (directory ++ [name]) (.file mode content)).nodeAt path =
          .ok (.file mode content) ∧
        ((∃ mode content, tree.nodeAt path = .ok (.file mode content)) ∨
          ∃ fault, tree.nodeAt path = .error fault ∧ fault.meansAbsent = true)) ∨
      ((∃ fault, tree.nodeAt path = .error fault ∧ fault.meansAbsent = true) ∧
        ∃ fault, (tree.put (directory ++ [name]) (.file mode content)).nodeAt path =
          .error fault ∧ fault.meansAbsent = true) := by
  have shifts := shifts_resolve site mode content path
  rw [nodeAt, nodeAt]
  generalize tree.resolve path = old at shifts
  generalize (tree.put (directory ++ [name]) (.file mode content)).resolve path = new at shifts
  cases shifts with
  | same apart =>
      left
      cases old with
      | error fault => rfl
      | ok location => simp only [node?_put_of_ne (apart location rfl)]
  | moved reaches ended =>
      obtain ⟨oldMode, oldContent, held⟩ := site.held
      refine .inr (.inl ⟨reaches, by simp only [node?_put_self (List.append_ne_nil_of_right_ne_nil _
        (List.cons_ne_nil _ _))], ?_⟩)
      rcases ended with rfl | ⟨fault, rfl, absent⟩
      · exact .inl ⟨oldMode, oldContent, by simp only [held]⟩
      · exact .inr ⟨fault, rfl, absent⟩
  | absent absentBefore absentAfter =>
      exact .inr (.inr ⟨⟨_, rfl, absentBefore⟩, _, rfl, absentAfter⟩)

section Apart

variable (apart : ¬tree.Reaches path target)

include apart

/-- A path that does not lead to the old file finds the same as before, or nothing as before. -/
theorem findsAlike_put_of_apart :
    FindsAlike tree (tree.put (directory ++ [name]) (.file mode content)) path := by
  rcases nodeAt_put_cases site mode content path with same | ⟨reaches, -⟩ | nothing
  · exact .inl same
  · exact absurd reaches apart
  · exact .inr nothing

theorem isFile_put_of_apart :
    (tree.put (directory ++ [name]) (.file mode content)).isFile path = tree.isFile path :=
  (findsAlike_put_of_apart site mode content apart).isFile_eq

theorem read_put_of_isFile (file : tree.isFile path = .ok true) :
    (tree.put (directory ++ [name]) (.file mode content)).read path = tree.read path := by
  rw [read, (findsAlike_put_of_apart site mode content apart).nodeAt_eq_of_isFile file, read]

end Apart

end Site

end DependencyGate.FileTree

/-
# Following names, step by step

One name is followed in one of a few ways (`follow_induction`), and the relation `Leads`
records those that do not fail and how many links they take.
Following parts of a list one after another is following the whole of it, and the links
that may still be followed do not change where the names lead. A change at a place that
no name behind it can be followed from is therefore not noticed on the way to a directory
(`Leads.of_agree`).
-/

import DependencyGate.Proofs.FileTree.Basic
import DependencyGate.FileTree.Resolve

namespace DependencyGate.FileTree

variable {tree after : FileTree} {links left between : Nat} {place middle target : Location}
  {name written : Text} {names front back rest : List Text} {node : Node}

/-! ## Single steps -/

/-- Whether a name is that of an entry: no step in place or up, and not too long. -/
structure IsEntryName (name : Text) : Prop where
  not_here : name ≠ ['.']
  not_up : name ≠ ['.', '.']
  length_le : (Utf8.encode name).length ≤ nameLimit

theorem follow_nil : tree.follow links place [] = .ok place := by
  cases links <;> rfl

/-- Following a name: from a link it goes on with one link less. -/
theorem follow_cons (tree : FileTree) (links : Nat) (place : Location) (name : Text)
    (rest : List Text) :
    tree.follow links place (name :: rest) =
      if !tree.isDirectoryAt place then .error .notDirectory
      else if name = ['.'] then tree.follow links place rest
      else if name = ['.', '.'] then tree.follow links place.dropLast rest
      else if nameLimit < (Utf8.encode name).length then .error .nameTooLong
      else
        match tree.node? (place ++ [name]), links with
        | none, _ => .error .missing
        | some (.link _), 0 => .error .tooManyLinks
        | some (.link written), links + 1 =>
            tree.follow links (linkStart place written) (targetNames written ++ rest)
        | some _, links => tree.follow links (place ++ [name]) rest := by
  cases links <;> cases held : tree.node? (place ++ [name]) with
  | none => simp only [follow, followNames, held]
  | some node => cases node <;> simp only [follow, followNames, held]

section Steps

variable (inside : tree.isDirectoryAt place = true) (entry : IsEntryName name)

theorem follow_of_no_directory (other : tree.isDirectoryAt place = false) :
    tree.follow links place (name :: rest) = .error .notDirectory := by
  rw [follow_cons, other]
  rfl

include inside

theorem follow_here :
    tree.follow links place (['.'] :: rest) = tree.follow links place rest := by
  rw [follow_cons, inside]
  rfl

theorem follow_up :
    tree.follow links place (['.', '.'] :: rest) = tree.follow links place.dropLast rest := by
  rw [follow_cons, inside]
  rfl

theorem follow_of_long (notHere : name ≠ ['.']) (notUp : name ≠ ['.', '.'])
    (long : nameLimit < (Utf8.encode name).length) :
    tree.follow links place (name :: rest) = .error .nameTooLong := by
  rw [follow_cons, inside, if_neg (by simp), if_neg notHere, if_neg notUp, if_pos long]

include entry

theorem follow_of_missing (missing : tree.node? (place ++ [name]) = none) :
    tree.follow links place (name :: rest) = .error .missing := by
  rw [follow_cons, inside, if_neg (by simp), if_neg entry.not_here, if_neg entry.not_up,
    if_neg (Nat.not_lt.mpr entry.length_le), missing]

theorem follow_enter (present : tree.node? (place ++ [name]) = some node)
    (direct : node.isLink = false) :
    tree.follow links place (name :: rest) = tree.follow links (place ++ [name]) rest := by
  rw [follow_cons, inside, if_neg (by simp), if_neg entry.not_here, if_neg entry.not_up,
    if_neg (Nat.not_lt.mpr entry.length_le), present]
  cases node with
  | link written => simp [Node.isLink] at direct
  | file | directory => rfl

variable (present : tree.node? (place ++ [name]) = some (.link written))

include present

theorem follow_last_link : tree.follow 0 place (name :: rest) = .error .tooManyLinks := by
  rw [follow_cons, inside, if_neg (by simp), if_neg entry.not_here, if_neg entry.not_up,
    if_neg (Nat.not_lt.mpr entry.length_le), present]

theorem follow_jump :
    tree.follow (links + 1) place (name :: rest) =
      tree.follow links (linkStart place written) (targetNames written ++ rest) := by
  rw [follow_cons, inside, if_neg (by simp), if_neg entry.not_here, if_neg entry.not_up,
    if_neg (Nat.not_lt.mpr entry.length_le), present]

end Steps

/-- What holds wherever following names ends, and before each step if it does behind it, holds of
all names. The induction is on the links first, since the names become more at one. -/
@[elab_as_elim]
theorem follow_induction (tree : FileTree) {motive : Nat → Location → List Text → Prop}
    (done : ∀ links place, motive links place [])
    (outside : ∀ links place name rest, tree.isDirectoryAt place = false →
      motive links place (name :: rest))
    (here : ∀ links place rest, tree.isDirectoryAt place = true → motive links place rest →
      motive links place (['.'] :: rest))
    (up : ∀ links place rest, tree.isDirectoryAt place = true →
      motive links place.dropLast rest → motive links place (['.', '.'] :: rest))
    (long : ∀ links place name rest, tree.isDirectoryAt place = true → name ≠ ['.'] →
      name ≠ ['.', '.'] → nameLimit < (Utf8.encode name).length →
      motive links place (name :: rest))
    (missing : ∀ links place name rest, tree.isDirectoryAt place = true → IsEntryName name →
      tree.node? (place ++ [name]) = none → motive links place (name :: rest))
    (lastLink : ∀ place name rest written, tree.isDirectoryAt place = true → IsEntryName name →
      tree.node? (place ++ [name]) = some (.link written) → motive 0 place (name :: rest))
    (jump : ∀ links place name rest written, tree.isDirectoryAt place = true →
      IsEntryName name → tree.node? (place ++ [name]) = some (.link written) →
      motive links (linkStart place written) (targetNames written ++ rest) →
      motive (links + 1) place (name :: rest))
    (enter : ∀ links place name rest node, tree.isDirectoryAt place = true →
      IsEntryName name → tree.node? (place ++ [name]) = some node → node.isLink = false →
      motive links (place ++ [name]) rest → motive links place (name :: rest))
    (links : Nat) (place : Location) (names : List Text) : motive links place names := by
  induction links using Nat.strongRecOn generalizing place names with
  | ind links further =>
      induction names generalizing place with
      | nil => exact done links place
      | cons name rest ih =>
          cases inside : tree.isDirectoryAt place with
          | false => exact outside links place name rest inside
          | true =>
              by_cases isHere : name = ['.']
              · exact isHere ▸ here links place rest inside (ih place)
              by_cases isUp : name = ['.', '.']
              · exact isUp ▸ up links place rest inside (ih place.dropLast)
              by_cases tooLong : nameLimit < (Utf8.encode name).length
              · exact long links place name rest inside isHere isUp tooLong
              have entry : IsEntryName name := ⟨isHere, isUp, Nat.le_of_not_lt tooLong⟩
              cases held : tree.node? (place ++ [name]) with
              | none => exact missing links place name rest inside entry held
              | some node =>
                  cases node with
                  | file | directory =>
                      exact enter links place name rest _ inside entry held rfl (ih _)
                  | link written =>
                      cases links with
                      | zero => exact lastLink place name rest written inside entry held
                      | succ links =>
                          exact jump links place name rest written inside entry held
                            (further links (Nat.lt_succ_self links) _ _)

/-- What ends the following of names early. -/
theorem fault_of_follow {fault : PathFault}
    (failed : tree.follow links place names = .error fault) :
    fault = .notDirectory ∨ fault = .nameTooLong ∨ fault = .missing ∨ fault = .tooManyLinks := by
  induction links, place, names using follow_induction tree with
  | done => cases follow_nil.symm.trans failed
  | outside _ _ _ _ elsewhere =>
      rw [follow_of_no_directory elsewhere, Except.error.injEq] at failed
      exact .inl failed.symm
  | here _ _ _ inside ih => exact ih (follow_here inside ▸ failed)
  | up _ _ _ inside ih => exact ih (follow_up inside ▸ failed)
  | long _ _ _ _ inside notHere notUp tooLong =>
      rw [follow_of_long inside notHere notUp tooLong, Except.error.injEq] at failed
      exact .inr (.inl failed.symm)
  | missing _ _ _ _ inside entry missing =>
      rw [follow_of_missing inside entry missing, Except.error.injEq] at failed
      exact .inr (.inr (.inl failed.symm))
  | lastLink _ _ _ _ inside entry present =>
      rw [follow_last_link inside entry present, Except.error.injEq] at failed
      exact .inr (.inr (.inr failed.symm))
  | jump _ _ _ _ _ inside entry present ih =>
      rw [follow_jump inside entry present] at failed
      exact ih failed
  | enter _ _ _ _ _ inside entry present direct ih =>
      rw [follow_enter inside entry present direct] at failed
      exact ih failed

/-! ## The relation -/

/-- `tree.Leads links place names left target`: from a place with so many links allowed,
names lead to a target with so many links left. -/
inductive Leads (tree : FileTree) : Nat → Location → List Text → Nat → Location → Prop
  | stay (links : Nat) (place : Location) : Leads tree links place [] links place
  | here {links left : Nat} {place target : Location} {rest : List Text}
      (inside : tree.isDirectoryAt place = true)
      (onward : Leads tree links place rest left target) :
      Leads tree links place (['.'] :: rest) left target
  | up {links left : Nat} {place target : Location} {rest : List Text}
      (inside : tree.isDirectoryAt place = true)
      (onward : Leads tree links place.dropLast rest left target) :
      Leads tree links place (['.', '.'] :: rest) left target
  | enter {links left : Nat} {place target : Location} {name : Text} {rest : List Text}
      {node : Node} (inside : tree.isDirectoryAt place = true) (entry : IsEntryName name)
      (present : tree.node? (place ++ [name]) = some node) (direct : node.isLink = false)
      (onward : Leads tree links (place ++ [name]) rest left target) :
      Leads tree links place (name :: rest) left target
  | jump {links left : Nat} {place target : Location} {name written : Text} {rest : List Text}
      (inside : tree.isDirectoryAt place = true) (entry : IsEntryName name)
      (present : tree.node? (place ++ [name]) = some (.link written))
      (onward : Leads tree links (linkStart place written) (targetNames written ++ rest) left
        target) :
      Leads tree (links + 1) place (name :: rest) left target

theorem follow_of_leads (leads : tree.Leads links place names left target) :
    tree.follow links place names = .ok target := by
  induction leads with
  | stay links place => exact follow_nil
  | here inside _ ih => rw [follow_here inside, ih]
  | up inside _ ih => rw [follow_up inside, ih]
  | enter inside entry present direct _ ih => rw [follow_enter inside entry present direct, ih]
  | jump inside entry present _ ih => rw [follow_jump inside entry present, ih]

theorem exists_leads_of_follow (followed : tree.follow links place names = .ok target) :
    ∃ left, tree.Leads links place names left target := by
  induction links, place, names using follow_induction tree with
  | done links place =>
      obtain rfl := Except.ok.inj (follow_nil.symm.trans followed)
      exact ⟨links, .stay links place⟩
  | outside _ _ _ _ elsewhere =>
      rw [follow_of_no_directory elsewhere] at followed
      cases followed
  | here _ _ _ inside ih =>
      obtain ⟨left, onward⟩ := ih (follow_here inside ▸ followed)
      exact ⟨left, .here inside onward⟩
  | up _ _ _ inside ih =>
      obtain ⟨left, onward⟩ := ih (follow_up inside ▸ followed)
      exact ⟨left, .up inside onward⟩
  | long _ _ _ _ inside notHere notUp tooLong =>
      rw [follow_of_long inside notHere notUp tooLong] at followed
      cases followed
  | missing _ _ _ _ inside entry missing =>
      rw [follow_of_missing inside entry missing] at followed
      cases followed
  | lastLink _ _ _ _ inside entry present =>
      rw [follow_last_link inside entry present] at followed
      cases followed
  | jump _ _ _ _ _ inside entry present ih =>
      rw [follow_jump inside entry present] at followed
      obtain ⟨left, onward⟩ := ih followed
      exact ⟨left, .jump inside entry present onward⟩
  | enter _ _ _ _ _ inside entry present direct ih =>
      rw [follow_enter inside entry present direct] at followed
      obtain ⟨left, onward⟩ := ih followed
      exact ⟨left, .enter inside entry present direct onward⟩

/-- Following succeeds exactly if the names lead somewhere. -/
theorem follow_eq_ok_iff :
    tree.follow links place names = .ok target ↔
      ∃ left, tree.Leads links place names left target :=
  ⟨exists_leads_of_follow, fun ⟨_, leads⟩ => follow_of_leads leads⟩

namespace Leads

/-! ## Parts and wholes -/

theorem append (first : tree.Leads links place front between middle)
    (second : tree.Leads between middle back left target) :
    tree.Leads links place (front ++ back) left target := by
  induction first with
  | stay => exact second
  | here inside _ ih => exact .here inside (ih second)
  | up inside _ ih => exact .up inside (ih second)
  | enter inside entry present direct _ ih => exact .enter inside entry present direct (ih second)
  | jump inside entry present _ ih =>
      rw [List.cons_append]
      apply Leads.jump inside entry present
      rw [← List.append_assoc]
      exact ih second

/-- Names are followed part by part. -/
theorem exists_of_append (leads : tree.Leads links place (front ++ back) left target) :
    ∃ between middle, tree.Leads links place front between middle ∧
      tree.Leads between middle back left target := by
  generalize whole : front ++ back = names at leads
  induction leads generalizing front with
  | stay links place =>
      obtain ⟨rfl, rfl⟩ := List.append_eq_nil_iff.mp whole
      exact ⟨links, place, .stay links place, .stay links place⟩
  | @here links left place target rest inside onward ih =>
      rcases List.append_eq_cons_iff.mp whole with ⟨rfl, rfl⟩ | ⟨front, rfl, split⟩
      · exact ⟨links, place, .stay links place, .here inside onward⟩
      · obtain ⟨between, middle, first, second⟩ := ih split.symm
        exact ⟨between, middle, .here inside first, second⟩
  | @up links left place target rest inside onward ih =>
      rcases List.append_eq_cons_iff.mp whole with ⟨rfl, rfl⟩ | ⟨front, rfl, split⟩
      · exact ⟨links, place, .stay links place, .up inside onward⟩
      · obtain ⟨between, middle, first, second⟩ := ih split.symm
        exact ⟨between, middle, .up inside first, second⟩
  | @enter links left place target name rest node inside entry present direct onward ih =>
      rcases List.append_eq_cons_iff.mp whole with ⟨rfl, rfl⟩ | ⟨front, rfl, split⟩
      · exact ⟨links, place, .stay links place, .enter inside entry present direct onward⟩
      · obtain ⟨between, middle, first, second⟩ := ih split.symm
        exact ⟨between, middle, .enter inside entry present direct first, second⟩
  | @jump links left place target name written rest inside entry present onward ih =>
      rcases List.append_eq_cons_iff.mp whole with ⟨rfl, rfl⟩ | ⟨front, rfl, split⟩
      · exact ⟨links + 1, place, .stay (links + 1) place, .jump inside entry present onward⟩
      · have spelled : (targetNames written ++ front) ++ back = targetNames written ++ rest := by
          rw [List.append_assoc, split]
        obtain ⟨between, middle, first, second⟩ := ih spelled
        exact ⟨between, middle, .jump inside entry present first, second⟩

/-- Links that may be followed besides are left in the end. -/
theorem add (leads : tree.Leads links place names left target) (extra : Nat) :
    tree.Leads (links + extra) place names (left + extra) target := by
  induction leads with
  | stay => exact .stay _ _
  | here inside _ ih => exact .here inside ih
  | up inside _ ih => exact .up inside ih
  | enter inside entry present direct _ ih => exact .enter inside entry present direct ih
  | jump inside entry present _ ih =>
      rw [Nat.add_right_comm]
      exact .jump inside entry present ih

/-- Names lead to one place, however many links may be followed. -/
theorem unique {links' left' : Nat} {target' : Location}
    (first : tree.Leads links place names left target)
    (second : tree.Leads links' place names left' target') : target = target' := by
  induction first generalizing links' with
  | stay links place =>
      cases second with
      | stay => rfl
  | here _ _ ih =>
      cases second with
      | here _ onward => exact ih onward
      | enter _ entry => exact absurd rfl entry.not_here
      | jump _ entry => exact absurd rfl entry.not_here
  | up _ _ ih =>
      cases second with
      | up _ onward => exact ih onward
      | enter _ entry => exact absurd rfl entry.not_up
      | jump _ entry => exact absurd rfl entry.not_up
  | enter _ entry present direct _ ih =>
      cases second with
      | here => exact absurd rfl entry.not_here
      | up => exact absurd rfl entry.not_up
      | enter _ _ _ _ onward => exact ih onward
      | jump _ _ present' =>
          rw [present, Option.some.injEq] at present'
          simp [present', Node.isLink] at direct
  | jump _ entry present _ ih =>
      cases second with
      | here => exact absurd rfl entry.not_here
      | up => exact absurd rfl entry.not_up
      | enter _ _ present' direct =>
          rw [present, Option.some.injEq] at present'
          simp [← present', Node.isLink] at direct
      | jump _ _ present' onward =>
          rw [present, Option.some.injEq, Node.link.injEq] at present'
          subst present'
          exact ih onward

theorem isDirectoryAt_start (leads : tree.Leads links place names left target)
    (ends : tree.isDirectoryAt target = true) : tree.isDirectoryAt place = true := by
  cases leads with
  | stay => exact ends
  | here inside | up inside | enter inside | jump inside => exact inside

/-- What lies above a place that can be reached are directories. -/
theorem isDirectoryAt_of_prefix (leads : tree.Leads links place names left target)
    (above : ∀ upper, upper <+: place → upper ≠ place → tree.isDirectoryAt upper = true) :
    ∀ upper, upper <+: target → upper ≠ target → tree.isDirectoryAt upper = true := by
  induction leads with
  | stay => exact above
  | here _ _ ih => exact ih above
  | @up _ _ place _ _ _ _ ih =>
      refine ih fun upper higher other => above upper (higher.trans (List.dropLast_prefix place)) ?_
      rintro rfl
      exact other (List.IsPrefix.eq_of_length_le higher (by simp))
  | @enter _ _ place _ _ _ _ inside _ _ _ _ ih =>
      refine ih fun upper higher other => ?_
      rcases List.prefix_concat_iff.mp higher with rfl | higher
      · exact absurd rfl other
      · by_cases here : upper = place
        · exact here ▸ inside
        · exact above upper higher here
  | @jump _ _ place _ _ written _ _ _ _ _ ih =>
      refine ih fun upper higher other => ?_
      rw [linkStart] at higher other
      split at higher
      case isTrue root =>
        rw [if_pos root] at other
        exact absurd (List.prefix_nil.mp higher) other
      case isFalse relative =>
        rw [if_neg relative] at other
        exact above upper higher other

end Leads

/-! ## Places off every way to a directory -/

/-- A name in a directory is a dead end if it lies under no directory and can only be
followed to places that are none. -/
structure IsDeadEnd (tree : FileTree) (place : Location) (name : Text) : Prop where
  no_directory : tree.isDirectoryAt (place ++ [name]) = false
  no_way : ∀ {links left target}, tree.Leads links place [name] left target →
    tree.isDirectoryAt target = false

theorem isDeadEnd_of_leads (leads : tree.Leads links place [name] left target)
    (other : tree.isDirectoryAt target = false) (notUp : name ≠ ['.', '.']) :
    tree.IsDeadEnd place name := by
  constructor
  · cases leads with
    | here inside onward =>
        cases onward
        exact absurd inside (by simp [other])
    | up => exact absurd rfl notUp
    | enter _ _ _ _ onward =>
        cases onward
        exact other
    | jump _ _ present => simp [isDirectoryAt, present, Node.isDirectory]
  · intro _ _ _ again
    rw [← leads.unique again, other]

theorem isDeadEnd_of_file {mode : Nat} {content : List UInt8}
    (file : tree.node? (place ++ [name]) = some (.file mode content)) (notHere : name ≠ ['.'])
    (notUp : name ≠ ['.', '.']) : tree.IsDeadEnd place name := by
  have other : tree.isDirectoryAt (place ++ [name]) = false := by
    simp [isDirectoryAt, file, Node.isDirectory]
  constructor
  · exact other
  · intro _ _ _ leads
    cases leads with
    | here => exact absurd rfl notHere
    | up => exact absurd rfl notUp
    | enter _ _ _ _ onward =>
        cases onward
        exact other
    | jump _ _ present => simp [file] at present

/-- A change at a dead end is not noticed on the way to a directory. -/
theorem Leads.of_agree {dead : Location} (agree : AgreeOff (dead ++ [name]) tree after)
    (deadEnd : tree.IsDeadEnd dead name) (leads : tree.Leads links place names left target)
    (ends : tree.isDirectoryAt target = true) : after.Leads links place names left target := by
  have kept {place : Location} (inside : tree.isDirectoryAt place = true) :
      after.isDirectoryAt place = true := by
    refine (agree.isDirectoryAt_eq fun equal => ?_).trans inside
    rw [equal, deadEnd.no_directory] at inside
    contradiction
  -- whichever way the first name is followed, what lies under it is not the dead end
  have apart {links left : Nat} {place target : Location} {next : Text} {rest : List Text}
      (leads : tree.Leads links place (next :: rest) left target)
      (ends : tree.isDirectoryAt target = true) : place ++ [next] ≠ dead ++ [name] := by
    intro equal
    obtain ⟨rfl, same⟩ := List.append_inj' equal rfl
    obtain rfl := List.singleton_inj.mp same
    rw [← List.singleton_append] at leads
    obtain ⟨_, _, first, second⟩ := exists_of_append leads
    have inside := second.isDirectoryAt_start ends
    rw [deadEnd.no_way first] at inside
    contradiction
  induction leads with
  | stay links place => exact .stay links place
  | here inside _ ih => exact .here (kept inside) (ih ends)
  | up inside _ ih => exact .up (kept inside) (ih ends)
  | enter inside entry present direct onward ih =>
      refine .enter (kept inside) entry ?_ direct (ih ends)
      rw [agree _ (apart (.enter inside entry present direct onward) ends), present]
  | jump inside entry present onward ih =>
      refine .jump (kept inside) entry ?_ (ih ends)
      rw [agree _ (apart (.jump inside entry present onward) ends), present]

/-! ## Places that lead to files -/

/-- Whether a name in a directory leads to a regular file, at once or over links. -/
structure LeadsToFile (tree : FileTree) (directory : Location) (name : Text) (target : Location) :
    Prop where
  inside : tree.isDirectoryAt directory = true
  entry : IsEntryName name
  leads : ∃ links left, tree.Leads links directory [name] left target
  held : ∃ mode content, tree.node? target = some (.file mode content)

/-- The name of a regular file leads to it. -/
theorem leadsToFile_of_file {directory : Location} {mode : Nat} {content : List UInt8}
    (inside : tree.isDirectoryAt directory = true) (entry : IsEntryName name)
    (file : tree.node? (directory ++ [name]) = some (.file mode content)) :
    tree.LeadsToFile directory name (directory ++ [name]) :=
  ⟨inside, entry, ⟨0, 0, .enter inside entry file rfl (.stay _ _)⟩, mode, content, file⟩

namespace LeadsToFile

variable {directory : Location} (site : tree.LeadsToFile directory name target)

include site

theorem no_directory : tree.isDirectoryAt target = false := by
  obtain ⟨mode, content, held⟩ := site.held
  simp [isDirectoryAt, held, Node.isDirectory]

theorem deadEnd : tree.IsDeadEnd directory name := by
  obtain ⟨links, left, leads⟩ := site.leads
  exact isDeadEnd_of_leads leads site.no_directory site.entry.not_up

theorem present : ∃ node, tree.node? (directory ++ [name]) = some node := by
  obtain ⟨links, left, leads⟩ := site.leads
  cases leads with
  | here => exact absurd rfl site.entry.not_here
  | up => exact absurd rfl site.entry.not_up
  | enter _ _ present => exact ⟨_, present⟩
  | jump _ _ present => exact ⟨_, present⟩

/-- A place that holds a file leads to itself. -/
theorem target_eq_of_file {mode : Nat} {content : List UInt8}
    (file : tree.node? (directory ++ [name]) = some (.file mode content)) :
    target = directory ++ [name] := by
  obtain ⟨links, left, leads⟩ := site.leads
  cases leads with
  | here => exact absurd rfl site.entry.not_here
  | up => exact absurd rfl site.entry.not_up
  | enter _ _ _ _ onward =>
      cases onward
      rfl
  | jump _ _ present => simp [file] at present

end LeadsToFile

/-! ## Paths -/

variable {path : Path}

theorem resolve_eq_ok_iff :
    tree.resolve path = .ok target ↔ writtenFault? path.text = none ∧
      ∃ left, tree.Leads linkLimit [] path.names left target := by
  rw [resolve]
  cases writtenFault? path.text with
  | some fault => simp
  | none => simp [follow_eq_ok_iff]

/-- A site lies in the directory that all names but the last lead to. -/
theorem site_eq_ok_iff :
    tree.site path = .ok target ↔ writtenFault? path.text = none ∧
      ∃ left place, tree.Leads linkLimit [] path.names.dropLast left place ∧
        tree.isDirectoryAt place = true ∧ path.name ≠ [] ∧ path.name ≠ ['.', '.'] ∧
        (Utf8.encode path.name).length ≤ nameLimit ∧ target = place ++ [path.name] := by
  rw [site]
  cases writtenFault? path.text with
  | some fault => simp
  | none =>
      simp only [true_and]
      constructor
      · intro found
        split at found
        case h_1 => simp at found
        case h_2 directory followed =>
          obtain ⟨left, leads⟩ := exists_leads_of_follow followed
          split at found
          case isTrue => simp at found
          case isFalse inside =>
            split at found
            case isTrue => simp at found
            case isFalse busy =>
              split at found
              case isTrue => simp at found
              case isFalse short =>
                rw [Bool.or_eq_true, decide_eq_true_eq, decide_eq_true_eq, not_or] at busy
                exact ⟨left, directory, leads, by simpa using inside, busy.1, busy.2,
                  Nat.le_of_not_lt short, (Except.ok.inj found).symm⟩
      · rintro ⟨left, directory, leads, inside, nonempty, notUp, short, rfl⟩
        rw [follow_of_leads leads]
        simp [inside, nonempty, notUp, Nat.not_lt.mpr short]

end DependencyGate.FileTree

/-
# Filling and emptying places

What a tree holds after one place has been filled or emptied, at that place and at all
others. A file that is put on a free place and discarded leaves the very same tree.
-/

import DependencyGate.FileTree.Basic

namespace DependencyGate.FileTree

variable {tree after : FileTree} {place other : Location} {node : Node}

/-! ## What is found where -/

theorem lookup_filter_ne (entries : List (Location × Node)) (place other : Location) :
    (entries.filter (·.1 ≠ place)).lookup other =
      if other = place then none else entries.lookup other := by
  induction entries with
  | nil => simp
  | cons entry entries ih =>
      rcases entry with ⟨key, held⟩
      by_cases stays : key = place
      · rw [List.filter_cons_of_neg (by simp [stays]), ih]
        split
        case isTrue => rfl
        case isFalse apart => rw [List.lookup_cons, beq_false_of_ne (stays ▸ apart)]
      · rw [List.filter_cons_of_pos (by simp [stays]), List.lookup_cons, List.lookup_cons, ih]
        cases same : other == key with
        | false => rfl
        | true =>
            obtain rfl : other = key := eq_of_beq same
            exact (if_neg stays).symm

theorem node?_erase_of_ne (apart : other ≠ place) :
    (tree.erase place).node? other = tree.node? other := by
  rw [node?, node?, erase, lookup_filter_ne, if_neg apart]

theorem node?_erase_self (below : place ≠ []) : (tree.erase place).node? place = none := by
  rw [node?, if_neg below, erase, lookup_filter_ne, if_pos rfl]

theorem node?_put_self (below : place ≠ []) : (tree.put place node).node? place = some node := by
  rw [node?, if_neg below, put, List.lookup_cons_self]

theorem node?_put_of_ne (apart : other ≠ place) :
    (tree.put place node).node? other = tree.node? other := by
  have erased : (tree.erase place).node? other = tree.node? other := node?_erase_of_ne apart
  rw [← erased, node?, node?, put, List.lookup_cons, beq_false_of_ne apart]

/-! ## One change after another -/

theorem erase_put (tree : FileTree) (place : Location) (node : Node) :
    (tree.put place node).erase place = tree.erase place := by
  rw [put, erase, List.filter_cons_of_neg (by simp), erase]
  simp [List.filter_filter]

theorem put_put (tree : FileTree) (place : Location) (first second : Node) :
    (tree.put place first).put place second = tree.put place second := by
  rw [put, erase_put]
  rfl

/-- Emptying a free place changes nothing. -/
theorem erase_of_free (free : tree.node? place = none) : tree.erase place = tree := by
  have below : place ≠ [] := by
    rintro rfl
    simp [node?] at free
  rw [node?, if_neg below, List.lookup_eq_none_iff] at free
  have stays : tree.entries.filter (·.1 ≠ place) = tree.entries := by
    rw [List.filter_eq_self]
    intro entry listed
    have apart := free entry listed
    rw [bne_iff_ne] at apart
    simpa using Ne.symm apart
  rw [erase, stays]

theorem erase_put_of_free (free : tree.node? place = none) (node : Node) :
    (tree.put place node).erase place = tree := by
  rw [erase_put, erase_of_free free]

/-! ## Trees that agree off one place -/

/-- Whether two trees hold the same everywhere but in one place. -/
def AgreeOff (place : Location) (tree after : FileTree) : Prop :=
  ∀ other, other ≠ place → after.node? other = tree.node? other

theorem agreeOff_put (tree : FileTree) (place : Location) (node : Node) :
    AgreeOff place tree (tree.put place node) := fun _ apart => node?_put_of_ne apart

theorem agreeOff_erase (tree : FileTree) (place : Location) :
    AgreeOff place tree (tree.erase place) := fun _ apart => node?_erase_of_ne apart

theorem AgreeOff.symm (agree : AgreeOff place tree after) : AgreeOff place after tree :=
  fun other apart => (agree other apart).symm

theorem AgreeOff.put {written : Location} (agree : AgreeOff place tree after)
    (below : written ≠ []) (node : Node) :
    AgreeOff place (tree.put written node) (after.put written node) := by
  intro other apart
  by_cases here : other = written
  · rw [here, node?_put_self below, node?_put_self below]
  · rw [node?_put_of_ne here, node?_put_of_ne here, agree other apart]

theorem AgreeOff.isDirectoryAt_eq (agree : AgreeOff place tree after) (apart : other ≠ place) :
    after.isDirectoryAt other = tree.isDirectoryAt other := by
  rw [isDirectoryAt, isDirectoryAt, agree other apart]

end DependencyGate.FileTree

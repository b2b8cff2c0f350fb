/-
# Canonical lists

Sets of names are shown, compared and stored as lists in strictly ascending
order. Such a list is determined by its members, so equal sets are equal lists.
-/

namespace DependencyGate

variable {α : Type} [LT α] [DecidableLT α] [DecidableEq α]

/-- Inserts a member into an ascending list, unless it is already there. -/
def insertAscending (member : α) : List α → List α
  | [] => [member]
  | head :: rest =>
      if member < head then member :: head :: rest
      else if member = head then head :: rest
      else head :: insertAscending member rest

/-- The members of a list in ascending order, each once. -/
def canonical (members : List α) : List α := members.foldr insertAscending []

/-- The members of the first list that are not in the second. -/
def without {α : Type} [DecidableEq α] (members removed : List α) : List α :=
  members.filter (· ∉ removed)

end DependencyGate

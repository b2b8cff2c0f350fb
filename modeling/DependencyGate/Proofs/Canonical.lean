/-
# Members and order of canonical lists

What a canonical list holds needs no law of the order. If the order is strict and total,
as that of texts is, a canonical list is ascending and the only ascending list with its
members, so that equal sets are equal lists.
-/

import DependencyGate.Canonical
import Mathlib.Data.List.Sort

namespace DependencyGate

variable {α : Type} [DecidableEq α]

@[simp]
theorem mem_without {member : α} {members removed : List α} :
    member ∈ without members removed ↔ member ∈ members ∧ member ∉ removed := by
  simp [without]

theorem without_eq_self {members removed : List α} (apart : ∀ member ∈ members, member ∉ removed) :
    without members removed = members :=
  List.filter_eq_self.mpr fun member listed => decide_eq_true (apart member listed)

theorem without_nil (members : List α) : without members [] = members :=
  without_eq_self fun _ _ => List.not_mem_nil

variable [LT α] [DecidableLT α]

theorem mem_insertAscending {member inserted : α} {members : List α} :
    member ∈ insertAscending inserted members ↔ member = inserted ∨ member ∈ members := by
  induction members with
  | nil => simp [insertAscending]
  | cons head rest ih =>
      rw [insertAscending]
      split
      · simp
      · split
        case isTrue equal => simp [equal]
        · rw [List.mem_cons, ih, List.mem_cons, or_left_comm]

@[simp]
theorem canonical_nil : canonical ([] : List α) = [] := rfl

@[simp]
theorem mem_canonical {member : α} {members : List α} :
    member ∈ canonical members ↔ member ∈ members := by
  induction members with
  | nil => simp [canonical]
  | cons head rest ih =>
      rw [canonical, List.foldr_cons, mem_insertAscending, List.mem_cons]
      exact or_congr_right ih

/-! ## Ascending lists -/

section Order

variable [Trans (· < · : α → α → Prop) (· < ·) (· < ·)] [Std.Trichotomous (· < · : α → α → Prop)]
  {first second members : List α}

theorem pairwise_insertAscending (inserted : α) (ascending : members.Pairwise (· < ·)) :
    (insertAscending inserted members).Pairwise (· < ·) := by
  induction members with
  | nil => simp [insertAscending]
  | cons head rest ih =>
      obtain ⟨behind, ascendingRest⟩ := List.pairwise_cons.mp ascending
      rw [insertAscending]
      split
      case isTrue before =>
        apply List.pairwise_cons.mpr
        refine ⟨?_, ascending⟩
        intro member listed
        rcases List.mem_cons.mp listed with rfl | later
        · exact before
        · exact Trans.trans before (behind member later)
      case isFalse notBefore =>
        split
        case isTrue => exact ascending
        case isFalse other =>
          apply List.pairwise_cons.mpr
          refine ⟨?_, ih ascendingRest⟩
          intro member listed
          rcases mem_insertAscending.mp listed with rfl | later
          · by_contra notBehind
            exact other (Std.Trichotomous.trichotomous member head notBefore notBehind)
          · exact behind member later

theorem pairwise_canonical (members : List α) : (canonical members).Pairwise (· < ·) := by
  induction members with
  | nil => exact .nil
  | cons head rest ih => exact pairwise_insertAscending head ih

variable [Std.Asymm (· < · : α → α → Prop)]

/-- Lists with the same members have the same canonical list. -/
theorem canonical_congr (same : ∀ member, member ∈ first ↔ member ∈ second) :
    canonical first = canonical second := by
  apply (pairwise_canonical first).eq_of_mem_iff (pairwise_canonical second)
  intro member
  rw [mem_canonical, mem_canonical, same]

/-- The canonical lists are the ascending ones. -/
theorem canonical_eq_self_iff : canonical members = members ↔ members.Pairwise (· < ·) := by
  constructor
  · intro equal
    rw [← equal]
    exact pairwise_canonical members
  · intro ascending
    apply (pairwise_canonical members).eq_of_mem_iff ascending
    intro member
    exact mem_canonical

theorem canonical_without (ascending : canonical members = members) (removed : List α) :
    canonical (without members removed) = without members removed := by
  rw [canonical_eq_self_iff] at ascending ⊢
  exact ascending.filter _

end Order

end DependencyGate

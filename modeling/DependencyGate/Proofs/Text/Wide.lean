/-
# The order of wide texts

Code points are ordered by their numbers and wide texts code point by code point, a strict
and total order. The names read from a lockfile therefore have canonical lists as all others
do. Widening a text loses nothing.
-/

import DependencyGate.Proofs.Canonical
import DependencyGate.Text.Wide

namespace DependencyGate

namespace CodePoint

theorem eq_of_value_eq {first second : CodePoint} (same : first.value = second.value) :
    first = second := by
  cases first
  cases second
  simpa using same

theorem lt_iff {first second : CodePoint} : first < second ↔ first.value < second.value := Iff.rfl

instance : Trans (· < · : CodePoint → CodePoint → Prop) (· < ·) (· < ·) where
  trans before behind := Nat.lt_trans (lt_iff.mp before) (lt_iff.mp behind)

instance : Std.Asymm (· < · : CodePoint → CodePoint → Prop) where
  asymm _ _ before behind := Nat.lt_asymm (lt_iff.mp before) (lt_iff.mp behind)

instance : Std.Irrefl (· < · : CodePoint → CodePoint → Prop) where
  irrefl _ before := Nat.lt_irrefl _ (lt_iff.mp before)

instance : Std.Trichotomous (· < · : CodePoint → CodePoint → Prop) where
  trichotomous _ _ notBefore notBehind :=
    eq_of_value_eq (Nat.le_antisymm (Nat.le_of_not_lt notBehind) (Nat.le_of_not_lt notBefore))

theorem ofChar_injective : Function.Injective ofChar := by
  intro first second same
  exact Char.toNat_inj.mp (congrArg value same)

end CodePoint

theorem Text.widen_injective : Function.Injective Text.widen :=
  List.map_injective_iff.mpr CodePoint.ofChar_injective

theorem Text.widen_eq_nil_iff {text : Text} : text.widen = [] ↔ text = [] :=
  List.map_eq_nil_iff

end DependencyGate

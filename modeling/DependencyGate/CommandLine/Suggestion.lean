/-
# Suggestions

For a name that does not exist, the names that resemble it. Two texts are compared
by the parts that they share: their longest common part, the earliest of several,
and then in the same way what lies before it and what lies behind it in both.
Their likeness is twice the number of shared characters in proportion to all.
-/

import DependencyGate.Text.Basic

namespace DependencyGate.CommandLine

/-- The number of characters at the beginning of two texts that agree. -/
def commonStart : Text → Text → Nat
  | c :: first, d :: second => if c = d then commonStart first second + 1 else 0
  | _, _ => 0

/-- A part that two texts share: where it begins in each, and its length. -/
structure SharedPart where
  first : Nat
  second : Nat
  length : Nat

/-- The longest part that two texts share. -/
def longestShared (first second : Text) : SharedPart :=
  let places := (List.range first.length).flatMap fun i =>
    (List.range second.length).map fun j => (i, j)
  places.foldl
    (fun best place =>
      let length := commonStart (first.drop place.1) (second.drop place.2)
      if best.length < length then ⟨place.1, place.2, length⟩ else best)
    ⟨0, 0, 0⟩

/-- The number of characters that two texts share. Each step shortens both texts,
so the length of one of them bounds the number of steps. -/
def sharedCount : Nat → Text → Text → Nat
  | 0, _, _ => 0
  | steps + 1, first, second =>
      let shared := longestShared first second
      if shared.length = 0 then 0
      else
        sharedCount steps (first.take shared.first) (second.take shared.second)
          + shared.length
          + sharedCount steps (first.drop (shared.first + shared.length))
              (second.drop (shared.second + shared.length))

/-- A name and its likeness to another, as a proportion of two numbers. -/
structure Likeness where
  name : Text
  shared : Nat
  total : Nat

/-- The likeness of a name to what was written. -/
def Likeness.ofNames (written name : Text) : Likeness :=
  ⟨name, 2 * sharedCount (name.length + 1) name written, name.length + written.length⟩

/-- Whether three fifths or more are shared. -/
def Likeness.isClose (likeness : Likeness) : Bool := 3 * likeness.total ≤ 5 * likeness.shared

/-- Whether one likeness is at least as good as another; of equally good ones the
later name comes first. -/
def Likeness.precedes (first second : Likeness) : Bool :=
  let better := first.shared * second.total
  let other := second.shared * first.total
  if better = other then ¬first.name < second.name else other < better

/-- The names, at most three, that come closest to what was written, in ascending
order. -/
def suggestions (written : Text) (names : List Text) : List Text :=
  let close := (names.map (Likeness.ofNames written)).filter Likeness.isClose
  let best := (close.mergeSort Likeness.precedes).take 3
  (best.map (·.name)).mergeSort fun first second => ¬second < first

end DependencyGate.CommandLine

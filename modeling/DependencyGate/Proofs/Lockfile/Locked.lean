/-
# The names that are locked

Reading a lockfile gives a function of the file tree and of the query tool: what the chosen
reader finds in a lockfile that is there and that it can interpret, and nothing otherwise
(`Reader.given`). Whichever reader it is, the names come in ascending order.
-/

import DependencyGate.Proofs.Lockfile.Advisory
import DependencyGate.Proofs.Text.Wide

namespace DependencyGate.Lockfile

open DependencyGate.Action (runFrom)

variable {tree : FileTree} {tool : Option Tool} {path : Path} {session after : Session}
  {reader : Reader} {packages : List WideText}

/-! ## The order of the names -/

theorem pairwise_of_recordedPackages {json : Json}
    (recorded : recordedPackages json = .ok packages) :
    packages.Pairwise (· < ·) := by
  unfold recordedPackages at recorded
  split at recorded
  case h_1 =>
    split at recorded
    case h_1 =>
      obtain rfl := Except.ok.inj recorded
      exact .nil
    case h_2 =>
      obtain rfl := Except.ok.inj recorded
      exact pairwise_canonical _
    case h_3 => cases recorded
  case h_2 => cases recorded

theorem pairwise_of_readJson {depth : Nat} (read : readJson depth tree path = .ok packages) :
    packages.Pairwise (· < ·) := by
  rw [readJson] at read
  split at read
  case h_1 => cases read
  case h_2 =>
    split at read
    case h_1 => cases read
    case h_2 =>
      rw [packagesOfText] at read
      split at read
      case h_4 =>
        split at read
        case h_1 => cases read
        case h_2 recorded =>
          obtain rfl := Except.ok.inj read
          exact pairwise_of_recordedPackages recorded
      all_goals cases read

theorem pairwise_of_interpretAnswer {executable : Text} {answer : ToolOutput}
    (interpreted : interpretAnswer executable path answer = .ok packages) :
    packages.Pairwise (· < ·) := by
  rw [interpretAnswer] at interpreted
  split at interpreted
  case h_1 => cases interpreted
  case h_2 =>
    split at interpreted
    case h_1 => cases interpreted
    case h_2 =>
      split at interpreted
      case isTrue =>
        obtain rfl := Except.ok.inj interpreted
        exact pairwise_canonical _
      case isFalse => cases interpreted

/-- Every reader gives the names in ascending order. -/
theorem pairwise_packages (found : reader.packages tree tool path = .ok packages) :
    packages.Pairwise (· < ·) := by
  cases reader with
  | json => exact pairwise_of_readJson found
  | query executable =>
      rw [Reader.packages, readQuery] at found
      split at found
      case h_1 => cases found
      case h_2 => exact pairwise_of_interpretAnswer found
  | unavailable =>
      obtain rfl := Except.ok.inj found
      exact .nil

/-! ## What is given -/

/-- What a reader gives: the packages that it finds in a lockfile that is there and that it can
interpret, and none otherwise. -/
def Reader.given (tree : FileTree) (tool : Option Tool) (path : Path) (reader : Reader) :
    List WideText :=
  match tree.isFile path with
  | .ok true =>
      match reader.packages tree tool path with
      | .ok packages => packages
      | .error _ => []
  | _ => []

theorem pairwise_given : (reader.given tree tool path).Pairwise (· < ·) := by
  rw [Reader.given]
  split
  · split
    case h_1 found => exact pairwise_packages found
    case h_2 => exact .nil
  · exact .nil

/-- Reading a lockfile gives what its reader gives. -/
theorem locked_eq_ok (finished : runFrom session (locked reader path) = (.ok packages, after)) :
    packages = reader.given session.tree session.tool path := by
  rw [Reader.given]
  cases asked : session.tree.isFile path with
  | error error =>
      simp only [locked, Action.runFrom_bind, Action.runFrom_get, asked, Action.ofExcept,
        Action.runFrom_throw, Prod.mk.injEq, reduceCtorEq, false_and] at finished
  | ok present =>
      rw [locked] at finished
      simp only [Action.runFrom_bind, Action.runFrom_get, asked, Action.ofExcept,
        Action.runFrom_pure] at finished
      cases present with
      | false =>
          simp only [Bool.not_false, if_true, Action.runFrom_bind, Action.runFrom_log,
            Action.runFrom_pure, Prod.mk.injEq, Except.ok.injEq] at finished
          exact finished.1.symm
      | true =>
          simp only [Bool.not_true, Bool.false_eq_true, if_false, Action.runFrom_bind,
            Action.runFrom_note, Action.runFrom_get] at finished
          cases found : reader.packages session.tree session.tool path with
          | ok names =>
              simp only [found, Action.runFrom_bind, Action.runFrom_log, Action.runFrom_pure,
                Prod.mk.injEq, Except.ok.injEq] at finished
              exact finished.1.symm
          | error error =>
              cases error with
              | fault =>
                  simp only [found, Action.runFrom_bind, Action.runFrom_log, Action.runFrom_pure,
                    Prod.mk.injEq, Except.ok.injEq] at finished
                  exact finished.1.symm
              | longInteger | tooDeep | undecodableAnswer =>
                  simp [found] at finished

end DependencyGate.Lockfile

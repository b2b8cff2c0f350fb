/-
# Paths without null characters

A null character is refused before a path is followed, and never found while following
one, whatever links say. A path without it is therefore never refused for it, and neither
is the path of the temporary file that a replacement makes beside it
(`fault_ne_holdsNul_of_replaceFile`).
-/

import DependencyGate.Proofs.FileTree.Replace
import DependencyGate.Proofs.Text.Cut

namespace DependencyGate.FileTree

variable {tree : FileTree} {path : Path} {fault : PathFault} {error : PathError}

/-! ## Following a path -/

/-- Following names meets no null character. -/
theorem follow_ne_holdsNul (tree : FileTree) (links : Nat) (place : Location)
    (names : List Text) : tree.follow links place names ≠ .error .holdsNul := by
  intro failed
  simpa using fault_of_follow failed

theorem writtenFault?_eq_holdsNul_iff {written : Text} :
    writtenFault? written = some .holdsNul ↔ '\x00' ∈ written := by
  rw [writtenFault?]
  split
  case isTrue held => simpa using held
  case isFalse plain =>
    rw [List.elem_iff] at plain
    split <;> simp [plain]

theorem site_ne_holdsNul (plain : '\x00' ∉ path.text) : tree.site path ≠ .error .holdsNul := by
  rw [site]
  cases written : writtenFault? path.text with
  | some fault =>
      rw [← writtenFault?_eq_holdsNul_iff, written] at plain
      simpa using plain
  | none =>
      simp only
      split
      case h_1 refused followed =>
        rintro equal
        obtain rfl : refused = .holdsNul := Except.error.inj equal
        exact follow_ne_holdsNul _ _ _ _ followed
      case h_2 =>
        split
        · simp
        · split
          · simp
          · split <;> simp

/-- What a path leads to shows that the path can be followed. -/
theorem nul_not_mem_of_isFile (file : tree.isFile path = .ok true) : '\x00' ∉ path.text := by
  obtain ⟨mode, content, leads⟩ := isFile_eq_true_iff.mp file
  obtain ⟨place, resolved, -⟩ := nodeAt_eq_ok_iff.mp leads
  rw [← writtenFault?_eq_holdsNul_iff, (resolve_eq_ok_iff.mp resolved).1]
  simp

/-! ## The temporary file -/

theorem mem_text_iff {c : Char} (other : c ≠ '.') (step : c ≠ '/') :
    c ∈ path.text ↔ c ∈ path.anchor ∨ ∃ name ∈ path.names, c ∈ name := by
  have written : c ∈ path.anchor ++ List.intercalate ['/'] path.names ↔
      c ∈ path.anchor ∨ ∃ name ∈ path.names, c ∈ name := by
    rw [List.mem_append]
    refine or_congr_right ⟨fun inside => ?_, fun ⟨_, listed, inside⟩ =>
      Text.mem_intercalate_of_mem listed inside⟩
    rcases Text.mem_of_mem_intercalate inside with between | named
    · exact absurd (List.mem_singleton.mp between) step
    · exact named
  rw [← written, Path.text]
  split
  case h_1 empty => simp [empty, other]
  case h_2 => rfl

theorem mem_names_withoutParentSteps {name : Text} (listed : name ∈ path.withoutParentSteps.names) :
    name ∈ path.names := by
  rw [Path.withoutParentSteps] at listed
  have kept (names kept : List Text)
      (listed : name ∈ names.foldl
        (fun kept name => if name = ['.', '.'] then kept.dropLast else kept ++ [name]) kept) :
      name ∈ kept ∨ name ∈ names := by
    induction names generalizing kept with
    | nil => exact .inl listed
    | cons first names ih =>
        rw [List.foldl_cons] at listed
        rcases ih _ listed with before | later
        · split at before
          case isTrue => exact .inl (List.dropLast_subset _ before)
          case isFalse =>
            rcases List.mem_append.mp before with old | new
            · exact .inl old
            · exact .inr (by simp [List.mem_singleton.mp new])
        · exact .inr (List.mem_cons_of_mem _ later)
  simpa using kept path.names [] listed

theorem nul_not_mem_temporaryTag (n : Nat) : '\x00' ∉ temporaryTag n := by
  rw [temporaryTag]
  simp only [List.mem_append, not_or]
  refine ⟨⟨by decide, by simp [List.mem_replicate]⟩, fun digit => ?_⟩
  exact absurd (Nat.isDigit_of_mem_toDigits (by decide) (by decide) digit) (by decide)

/-- A temporary file lies on a path without null characters if the path it stands in for
has none. -/
theorem nul_not_mem_temporaryPath (plain : '\x00' ∉ path.text) (n : Nat) :
    '\x00' ∉ (temporaryPath path (temporaryTag n)).text := by
  rw [mem_text_iff (by decide) (by decide), not_or] at plain ⊢
  refine ⟨plain.1, ?_⟩
  rintro ⟨name, member, inside⟩
  rw [temporaryPath, Path.child, List.mem_append, List.mem_singleton] at member
  rcases member with above | rfl
  · exact plain.2 ⟨name, List.dropLast_subset _ (mem_names_withoutParentSteps above), inside⟩
  · simp only [temporaryName, List.mem_append, List.mem_singleton] at inside
    rcases inside with ((((first | named) | dot) | tag) | last)
    · exact absurd first (by decide)
    · rw [Path.name] at named
      cases found : path.names.getLast? with
      | none => simp [found] at named
      | some final =>
          rw [found, Option.getD_some] at named
          exact plain.2 ⟨final, List.mem_of_getLast? found, named⟩
    · exact absurd dot (by decide)
    · exact nul_not_mem_temporaryTag n tag
    · exact absurd last (by decide)

theorem fault_ne_holdsNul_of_createTemporary (plain : '\x00' ∉ path.text)
    (failed : tree.createTemporary path = .error error) : error.fault ≠ .holdsNul := by
  rw [createTemporary] at failed
  split at failed
  case h_1 fault refused =>
    obtain rfl := Except.error.inj failed
    rintro rfl
    exact site_ne_holdsNul (nul_not_mem_temporaryPath plain 0) refused
  case h_2 => cases failed

/-! ## The replacement -/

variable {after : FileTree} {temporary : Temporary}

theorem fault_ne_holdsNul_of_adoptMode (failed : tree.adoptMode temporary path = .error error) :
    error.fault ≠ .holdsNul := by
  rw [adoptMode_eq] at failed
  split at failed
  case h_1 => simp at failed
  case h_2 =>
    split at failed
    case isTrue => simp at failed
    case isFalse present =>
      obtain rfl := Except.error.inj failed
      rintro rfl
      exact present rfl

theorem fault_ne_holdsNul_of_renameTemporary (plain : '\x00' ∉ path.text)
    (failed : tree.renameTemporary temporary path = .error error) : error.fault ≠ .holdsNul := by
  rw [renameTemporary] at failed
  split at failed
  case h_1 fault unreachable =>
    obtain rfl := Except.error.inj failed
    rintro rfl
    exact site_ne_holdsNul plain unreachable
  case h_2 =>
    split at failed
    case isTrue =>
      obtain rfl := Except.error.inj failed
      simp
    case isFalse =>
      split at failed
      case h_1 =>
        obtain rfl := Except.error.inj failed
        simp
      case h_2 => simp at failed

/-- A replacement that fails on a path without null characters fails for another reason
than such a character. -/
theorem fault_ne_holdsNul_of_replaceFile {text : WideText} (plain : '\x00' ∉ path.text)
    (failed : (tree.replaceFile path text).1 = .error (.path error)) :
    error.fault ≠ .holdsNul := by
  unfold replaceFile at failed
  split at failed
  case h_1 refused creation =>
    obtain rfl : refused = error := ReplaceError.path.inj (Except.error.inj failed)
    exact fault_ne_holdsNul_of_createTemporary plain creation
  case h_2 =>
    split at failed
    case h_1 => simp at failed
    case h_2 =>
      split at failed
      case h_1 refused adoption =>
        obtain rfl : refused = error := ReplaceError.path.inj (Except.error.inj failed)
        exact fault_ne_holdsNul_of_adoptMode adoption
      case h_2 =>
        split at failed
        case h_1 refused moving =>
          obtain rfl : refused = error := ReplaceError.path.inj (Except.error.inj failed)
          exact fault_ne_holdsNul_of_renameTemporary plain moving
        case h_2 => simp at failed

/-- Only a text that has no encoding is refused for it. -/
theorem encodeWide_of_replaceFile {text : WideText} {refusal : Utf8.EncodeError}
    (failed : (tree.replaceFile path text).1 = .error (.encoding refusal)) :
    Utf8.encodeWide text = .error refusal := by
  unfold replaceFile at failed
  split at failed
  case h_1 => simp at failed
  case h_2 =>
    split at failed
    case h_1 found filling =>
      obtain rfl : found = refusal := ReplaceError.encoding.inj (Except.error.inj failed)
      rw [fillTemporary] at filling
      split at filling
      case h_1 other encoding => rw [encoding, Except.error.inj filling]
      case h_2 => simp at filling
    case h_2 =>
      split at failed
      case h_1 => simp at failed
      case h_2 => split at failed <;> simp at failed

end DependencyGate.FileTree

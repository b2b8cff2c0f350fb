/-
# Lossy decoding finds its way back

An ill-formed part ends where no further byte can belong to it. A byte below 0x80 belongs to no
character but its own, so whatever stands in front of it, such a byte begins a new chunk
(`decodeLossy_append`), and behind it bytes are decoded as if nothing had been in front of them.
-/

import DependencyGate.Proofs.Utf8

namespace DependencyGate.Utf8

variable {byte next : UInt8} {needed low high bits taken : Nat} {front back : List UInt8}

/-! ## Chunks -/

namespace Chunk

/-- The character that a lossy decoding gives for a chunk. -/
def shown : Chunk → Char
  | .scalar c _ => c
  | .broken _ _ => '\uFFFD'

/-- The number of bytes of a chunk after the first one. -/
def following : Chunk → Nat
  | .scalar _ following => following
  | .broken _ following => following

/-- Whether a lossy decoding cannot tell two chunks apart. -/
def ShownAlike (chunk other : Chunk) : Prop :=
  chunk.shown = other.shown ∧ chunk.following = other.following

end Chunk

theorem decodeLossy_cons (byte : UInt8) (rest : List UInt8) :
    decodeLossy (byte :: rest) =
      (chunk byte rest).shown :: decodeLossy (rest.drop (chunk byte rest).following) := by
  rw [decodeLossy]
  cases chunk byte rest <;> rfl

/-- Continuation bytes are collected up to a byte that is none, or up to the end. -/
theorem collect_append (bounded : 0x80 ≤ low) (starts : next.toNat < 0x80) :
    (collect needed low high bits taken (front ++ next :: back)).ShownAlike
        (collect needed low high bits taken front) ∧
      (collect needed low high bits taken front).following ≤ taken + front.length := by
  induction front generalizing needed low high bits taken with
  | nil =>
      cases needed with
      | zero =>
          rw [collect_zero, collect_zero]
          exact ⟨⟨rfl, rfl⟩, Nat.le_refl taken⟩
      | succ needed =>
          have outside : ¬(low ≤ next.toNat ∧ next.toNat ≤ high) := by omega
          rw [List.nil_append, collect, collect, if_neg outside]
          exact ⟨⟨rfl, rfl⟩, Nat.le_refl taken⟩
  | cons byte front ih =>
      rw [List.length_cons]
      cases needed with
      | zero =>
          rw [collect_zero, collect_zero]
          exact ⟨⟨rfl, rfl⟩, Nat.le_add_right taken _⟩
      | succ needed =>
          rw [List.cons_append, collect, collect]
          split
          case isTrue =>
            obtain ⟨alike, within⟩ := ih (Nat.le_refl 0x80)
            exact ⟨alike, by omega⟩
          case isFalse => exact ⟨⟨rfl, rfl⟩, Nat.le_add_right taken _⟩

theorem low_of_ofByte? {lead : Lead} (announced : Lead.ofByte? byte = some lead) :
    0x80 ≤ lead.low := by
  rcases ofByte?_cases announced with ⟨-, rfl⟩ | ⟨-, -, rfl⟩ | ⟨-, -, -, -, least, -⟩ |
    ⟨-, -, -, -, least, -⟩
  · exact Nat.le_refl 0x80
  · exact Nat.le_refl 0x80
  · exact least
  · exact least

/-- A chunk does not reach over a byte below 0x80. -/
theorem chunk_append (starts : next.toNat < 0x80) (byte : UInt8) (front back : List UInt8) :
    (chunk byte (front ++ next :: back)).ShownAlike (chunk byte front) ∧
      (chunk byte front).following ≤ front.length := by
  rw [chunk, chunk]
  cases announced : Lead.ofByte? byte with
  | none => exact ⟨⟨rfl, rfl⟩, Nat.zero_le _⟩
  | some lead =>
      obtain ⟨alike, within⟩ := collect_append (low_of_ofByte? announced) starts
      exact ⟨alike, Nat.zero_add front.length ▸ within⟩

/-! ## Texts -/

/-- Lossy decoding starts anew at each byte below 0x80, whatever stands in front of it. -/
theorem decodeLossy_append (starts : next.toNat < 0x80) (front back : List UInt8) :
    decodeLossy (front ++ next :: back) = decodeLossy front ++ decodeLossy (next :: back) := by
  match front with
  | [] => rw [decodeLossy, List.nil_append, List.nil_append]
  | byte :: front =>
      obtain ⟨⟨shown, following⟩, within⟩ := chunk_append starts byte front back
      rw [List.cons_append, decodeLossy_cons, decodeLossy_cons, shown, following,
        List.drop_append_of_le_length within, decodeLossy_append starts, List.cons_append]
termination_by front.length
decreasing_by
  rw [List.length_drop, List.length_cons]
  omega

/-- A text in front of any bytes is decoded to itself. -/
theorem decodeLossy_encode_append (text : Text) (rest : List UInt8) :
    decodeLossy (encode text ++ rest) = text ++ decodeLossy rest := by
  induction text with
  | nil => rfl
  | cons c text ih =>
      obtain ⟨byte, following, bytes, front⟩ := exists_chunk_encodeChar c (encode text ++ rest)
      have split : encode (c :: text) ++ rest = byte :: (following ++ (encode text ++ rest)) := by
        rw [encode, List.flatMap_cons, bytes, List.cons_append, List.cons_append, List.append_assoc]
        rfl
      rw [split, decodeLossy_cons, front]
      simp only [Chunk.shown, Chunk.following, List.drop_left, ih, List.cons_append]

end DependencyGate.Utf8

/-
# UTF-8 there and back

The bytes of a text are decoded to that text, so what an editor writes into a file is
what a reader finds there. A character of each length is read back by one pass over its
bytes: the lead byte announces the bounds that its first continuation byte keeps.
The same bounds make decoding strict: no other bytes are decoded to a text than its own
(`encode_of_decode`).
-/

import DependencyGate.Utf8
import Mathlib.Data.List.TakeWhile

namespace DependencyGate

/-! ## Texts as wide texts -/

namespace CodePoint

theorem isSurrogate_ofChar (c : Char) : (ofChar c).isSurrogate = false := by
  have valid := c.valid
  simp only [UInt32.isValidChar, Nat.isValidChar] at valid
  rw [← Bool.not_eq_true, isSurrogate, Bool.and_eq_true, decide_eq_true_eq, decide_eq_true_eq]
  show ¬(0xD800 ≤ c.val.toNat ∧ c.val.toNat ≤ 0xDFFF)
  omega

theorem toChar_ofChar (c : Char) : (ofChar c).toChar = c := Char.ofNat_toNat c

theorem ofChar_toChar {point : CodePoint} (sound : point.isSurrogate = false) :
    ofChar point.toChar = point := by
  obtain ⟨value, bounded⟩ := point
  have valid : value.isValidChar := by
    simp only [isSurrogate, Bool.and_eq_false_iff, decide_eq_false_iff_not] at sound
    simp only [Nat.isValidChar]
    omega
  rw [ofChar, mk.injEq, toChar, Char.ofNat, dif_pos valid]
  rfl

end CodePoint

namespace Utf8

theorem encodeWide_widen (text : Text) : encodeWide text.widen = .ok (encode text) := by
  have sound : ∀ point ∈ text.widen, (!point.isSurrogate) = true := by
    intro point listed
    obtain ⟨c, _, rfl⟩ := List.mem_map.mp listed
    rw [CodePoint.isSurrogate_ofChar, Bool.not_false]
  have back : text.widen.map CodePoint.toChar = text := by
    rw [Text.widen, List.map_map]
    exact List.map_id'' CodePoint.toChar_ofChar text
  simp only [encodeWide]
  rw [List.takeWhile_eq_self_iff.mpr sound, List.dropWhile_eq_nil_iff.mpr sound, back]
  rfl

/-- A wide text without surrogates is a text, which is what its bytes encode; any other has no
bytes. -/
theorem encodeWide_cases (text : WideText) :
    (∃ written : Text, text = written.widen ∧ encodeWide text = .ok (encode written)) ∨
      (∃ point ∈ text, point.isSurrogate = true) ∧ ∃ error, encodeWide text = .error error := by
  by_cases broken : ∃ point ∈ text, point.isSurrogate = true
  case pos =>
    obtain ⟨point, listed, surrogate⟩ := broken
    have refused : text.dropWhile (!·.isSurrogate) ≠ [] := by
      intro empty
      simpa [surrogate] using List.dropWhile_eq_nil_iff.mp empty point listed
    exact .inr ⟨⟨point, listed, surrogate⟩, by simp [encodeWide, refused]⟩
  case neg =>
    have back : Text.widen (text.map CodePoint.toChar) = text := by
      rw [Text.widen, List.map_map, List.map_congr_left (g := id), List.map_id]
      intro point listed
      exact CodePoint.ofChar_toChar
        (Bool.eq_false_iff.mpr fun surrogate => broken ⟨point, listed, surrogate⟩)
    have encoded := encodeWide_widen (text.map CodePoint.toChar)
    rw [back] at encoded
    exact .inl ⟨_, back.symm, encoded⟩

theorem encode_append (front back : Text) : encode (front ++ back) = encode front ++ encode back :=
  List.flatMap_append

/-! ## Reading one character -/

theorem collect_zero (low high bits taken : Nat) (rest : List UInt8) :
    collect 0 low high bits taken rest = .scalar (Char.ofNat bits) taken := by
  cases rest <;> rfl

/-- A continuation byte between the bounds contributes its six bits. -/
theorem collect_continuation {needed low high bits taken part : Nat} {rest : List UInt8}
    (above : low ≤ part + 0x80) (below : part + 0x80 ≤ high) (small : part < 0x40) :
    collect (needed + 1) low high bits taken (UInt8.ofNat (part + 0x80) :: rest) =
      collect needed 0x80 0xBF (bits * 64 + part) (taken + 1) rest := by
  have value : (UInt8.ofNat (part + 0x80)).toNat = part + 0x80 := by
    rw [UInt8.toNat_ofNat']
    omega
  rw [collect, value, if_pos ⟨above, below⟩, Nat.add_sub_cancel]

theorem ofByte?_one {value : Nat} (small : value ≤ 0x7F) :
    Lead.ofByte? (UInt8.ofNat value) = some ⟨0, 0x80, 0xBF, value⟩ := by
  have byte : (UInt8.ofNat value).toNat = value := by
    rw [UInt8.toNat_ofNat']
    omega
  simp only [Lead.ofByte?, byte]
  rw [if_pos (by omega)]

theorem ofByte?_two {part : Nat} (least : 2 ≤ part) (small : part < 0x20) :
    Lead.ofByte? (UInt8.ofNat (part + 0xC0)) = some ⟨1, 0x80, 0xBF, part⟩ := by
  have byte : (UInt8.ofNat (part + 0xC0)).toNat = part + 0xC0 := by
    rw [UInt8.toNat_ofNat']
    omega
  simp only [Lead.ofByte?, byte]
  rw [if_neg (by omega), if_neg (by omega), if_pos (by omega), Nat.add_sub_cancel]

/-- The lead byte of three: its bounds hold for the next six bits unless the number is
short or a surrogate. -/
theorem ofByte?_three (part next : Nat) (small : part < 0x10) (six : next < 0x40)
    (long : 0x800 ≤ part * 0x1000 + next * 0x40 + 0x3F)
    (scalar : part * 0x1000 + next * 0x40 < 0xD800 ∨ 0xE000 ≤ part * 0x1000 + next * 0x40 + 0x3F) :
    ∃ low high, Lead.ofByte? (UInt8.ofNat (part + 0xE0)) = some ⟨2, low, high, part⟩ ∧
      low ≤ next + 0x80 ∧ next + 0x80 ≤ high := by
  have byte : (UInt8.ofNat (part + 0xE0)).toNat = part + 0xE0 := by
    rw [UInt8.toNat_ofNat']
    omega
  simp only [Lead.ofByte?, byte]
  rw [if_neg (by omega), if_neg (by omega), if_neg (by omega)]
  rcases Nat.eq_zero_or_pos part with rfl | positive
  · exact ⟨0xA0, 0xBF, rfl, by omega, by omega⟩
  · rw [if_neg (by omega)]
    by_cases surrogates : part = 0xD
    · subst surrogates
      exact ⟨0x80, 0x9F, rfl, by omega, by omega⟩
    · rw [if_neg (by omega), if_pos (by omega), Nat.add_sub_cancel]
      exact ⟨0x80, 0xBF, rfl, by omega, by omega⟩

/-- The lead byte of four: its bounds hold for the next six bits unless the number is
short or beyond the code space. -/
theorem ofByte?_four (part next : Nat) (six : next < 0x40)
    (long : 0x10000 ≤ part * 0x40000 + next * 0x1000 + 0xFFF)
    (bounded : part * 0x40000 + next * 0x1000 < 0x110000) :
    ∃ low high, Lead.ofByte? (UInt8.ofNat (part + 0xF0)) = some ⟨3, low, high, part⟩ ∧
      low ≤ next + 0x80 ∧ next + 0x80 ≤ high := by
  have byte : (UInt8.ofNat (part + 0xF0)).toNat = part + 0xF0 := by
    rw [UInt8.toNat_ofNat']
    omega
  simp only [Lead.ofByte?, byte]
  rw [if_neg (by omega), if_neg (by omega), if_neg (by omega), if_neg (by omega),
    if_neg (by omega), if_neg (by omega)]
  rcases Nat.eq_zero_or_pos part with rfl | positive
  · exact ⟨0x90, 0xBF, rfl, by omega, by omega⟩
  · rw [if_neg (by omega)]
    by_cases last : part = 4
    · subst last
      exact ⟨0x80, 0x8F, rfl, by omega, by omega⟩
    · rw [if_pos (by omega), Nat.add_sub_cancel]
      exact ⟨0x80, 0xBF, rfl, by omega, by omega⟩

theorem chunk_eq_collect {byte : UInt8} {following low high bits : Nat}
    (announced : Lead.ofByte? byte = some ⟨following, low, high, bits⟩) (rest : List UInt8) :
    chunk byte rest = collect following low high bits 0 rest := by
  rw [chunk, announced]

/-- The bytes of a character are one chunk, whatever follows them. -/
theorem exists_chunk_encodeChar (c : Char) (rest : List UInt8) :
    ∃ byte following, String.utf8EncodeChar c = byte :: following ∧
      chunk byte (following ++ rest) = .scalar c following.length := by
  have valid := c.valid
  simp only [UInt32.isValidChar, Nat.isValidChar] at valid
  have whole : Char.ofNat c.val.toNat = c := Char.ofNat_toNat c
  generalize equal : c.val.toNat = value at valid whole
  simp only [String.utf8EncodeChar, equal]
  by_cases one : value ≤ 0x7F
  · rw [if_pos one]
    refine ⟨_, [], rfl, ?_⟩
    rw [chunk_eq_collect (ofByte?_one one), collect_zero, whole]
    rfl
  rw [if_neg one]
  by_cases two : value ≤ 0x7FF
  · rw [if_pos two]
    refine ⟨_, [_], rfl, ?_⟩
    rw [chunk_eq_collect (ofByte?_two (by omega) (by omega)), List.cons_append,
      collect_continuation (by omega) (by omega) (by omega), collect_zero,
      show value / 64 % 0x20 * 64 + value % 0x40 = value by omega, whole]
    rfl
  rw [if_neg two]
  by_cases three : value ≤ 0xFFFF
  · rw [if_pos three]
    refine ⟨_, [_, _], rfl, ?_⟩
    obtain ⟨low, high, lead, above, below⟩ :=
      ofByte?_three (value / 4096 % 0x10) (value / 64 % 0x40) (by omega) (by omega) (by omega)
        (by omega)
    rw [chunk_eq_collect lead, List.cons_append, collect_continuation above below (by omega),
      List.cons_append, collect_continuation (by omega) (by omega) (by omega), collect_zero,
      show (value / 4096 % 0x10 * 64 + value / 64 % 0x40) * 64 + value % 0x40 = value by omega,
      whole]
    rfl
  · rw [if_neg three]
    refine ⟨_, [_, _, _], rfl, ?_⟩
    obtain ⟨low, high, lead, above, below⟩ :=
      ofByte?_four (value / 262144 % 0x08) (value / 4096 % 0x40) (by omega) (by omega)
        (by omega)
    rw [chunk_eq_collect lead, List.cons_append, collect_continuation above below (by omega),
      List.cons_append, collect_continuation (by omega) (by omega) (by omega),
      List.cons_append, collect_continuation (by omega) (by omega) (by omega), collect_zero,
      show ((value / 262144 % 0x08 * 64 + value / 4096 % 0x40) * 64 + value / 64 % 0x40) * 64 +
        value % 0x40 = value by omega, whole]
    rfl

/-! ## Reading a text -/

theorem decodeFrom_encode (position : Nat) (text : Text) :
    decodeFrom position (encode text) = .ok text := by
  induction text generalizing position with
  | nil => rw [encode, List.flatMap_nil, decodeFrom]
  | cons c text ih =>
      obtain ⟨byte, following, bytes, front⟩ := exists_chunk_encodeChar c (encode text)
      have split : encode (c :: text) = byte :: (following ++ encode text) := by
        rw [encode, List.flatMap_cons, bytes, List.cons_append]
        rfl
      rw [split, decodeFrom, front]
      simp only [List.drop_left, ih]

theorem decode_encode (text : Text) : decode (encode text) = .ok text := decodeFrom_encode 0 text

/-! ## Only encoded texts are read -/

section Canonical

variable {byte first second third : UInt8} {bytes rest : List UInt8} {lead : Lead} {c : Char}
  {text : Text} {needed low high bits taken following : Nat}

/-- A complete character that needs no more bytes is the one its bits name. -/
theorem eq_of_collect_zero (complete : collect 0 low high bits taken rest = .scalar c following) :
    c = Char.ofNat bits ∧ following = taken := by
  rw [collect_zero, Chunk.scalar.injEq] at complete
  exact ⟨complete.1.symm, complete.2.symm⟩

/-- A complete character that needs another byte has one between the bounds. -/
theorem exists_of_collect_succ
    (complete : collect (needed + 1) low high bits taken rest = .scalar c following) :
    ∃ next others, rest = next :: others ∧ low ≤ next.toNat ∧ next.toNat ≤ high ∧
      collect needed 0x80 0xBF (bits * 64 + (next.toNat - 0x80)) (taken + 1) others =
        .scalar c following := by
  cases rest with
  | nil => simp [collect] at complete
  | cons next others =>
      rw [collect] at complete
      split at complete
      case isTrue bounds => exact ⟨next, others, rfl, bounds.1, bounds.2, complete⟩
      case isFalse => cases complete

/-- What a lead byte announces, by the number of bytes that follow it. -/
theorem ofByte?_cases (announced : Lead.ofByte? byte = some lead) :
    (byte.toNat < 0x80 ∧ lead = ⟨0, 0x80, 0xBF, byte.toNat⟩) ∨
    (0xC2 ≤ byte.toNat ∧ byte.toNat < 0xE0 ∧ lead = ⟨1, 0x80, 0xBF, byte.toNat - 0xC0⟩) ∨
    (0xE0 ≤ byte.toNat ∧ byte.toNat < 0xF0 ∧ lead.following = 2 ∧
      lead.bits = byte.toNat - 0xE0 ∧ 0x80 ≤ lead.low ∧ lead.high ≤ 0xBF ∧
      (byte.toNat = 0xE0 → 0xA0 ≤ lead.low) ∧ (byte.toNat = 0xED → lead.high ≤ 0x9F)) ∨
    (0xF0 ≤ byte.toNat ∧ byte.toNat ≤ 0xF4 ∧ lead.following = 3 ∧
      lead.bits = byte.toNat - 0xF0 ∧ 0x80 ≤ lead.low ∧ lead.high ≤ 0xBF ∧
      (byte.toNat = 0xF0 → 0x90 ≤ lead.low) ∧ (byte.toNat = 0xF4 → lead.high ≤ 0x8F)) := by
  simp only [Lead.ofByte?] at announced
  repeat' split at announced
  all_goals cases announced
  all_goals simp
  all_goals omega

/-- A byte is that of its number. -/
theorem ofNat_eq_of_toNat (byte : UInt8) {value : Nat} (equal : byte.toNat = value) :
    UInt8.ofNat value = byte := by
  rw [← equal, UInt8.ofNat_toNat]

theorem val_toNat_ofNat {value : Nat} (valid : value.isValidChar) :
    (Char.ofNat value).val.toNat = value := by
  rw [Char.ofNat, dif_pos valid]
  rfl

/-! The character that the bits of one to four bytes name is encoded by these bytes. -/

theorem encodeChar_of_one (small : byte.toNat < 0x80) :
    String.utf8EncodeChar (Char.ofNat byte.toNat) = [byte] := by
  rw [String.utf8EncodeChar, val_toNat_ofNat (.inl (by omega)), if_pos (by omega),
    UInt8.ofNat_toNat]

theorem encodeChar_of_two (least : 0xC2 ≤ byte.toNat) (most : byte.toNat < 0xE0)
    (above : 0x80 ≤ first.toNat) (below : first.toNat ≤ 0xBF) :
    String.utf8EncodeChar (Char.ofNat ((byte.toNat - 0xC0) * 64 + (first.toNat - 0x80))) =
      [byte, first] := by
  rw [String.utf8EncodeChar, val_toNat_ofNat (.inl (by omega)), if_neg (by omega),
    if_pos (by omega), ofNat_eq_of_toNat byte (by omega), ofNat_eq_of_toNat first (by omega)]

/-- The bounds on the second byte rule out short numbers and surrogates. -/
theorem encodeChar_of_three (least : 0xE0 ≤ byte.toNat) (most : byte.toNat < 0xF0)
    (above : 0x80 ≤ first.toNat) (below : first.toNat ≤ 0xBF)
    (long : byte.toNat = 0xE0 → 0xA0 ≤ first.toNat)
    (scalar : byte.toNat = 0xED → first.toNat ≤ 0x9F)
    (aboveSecond : 0x80 ≤ second.toNat) (belowSecond : second.toNat ≤ 0xBF) :
    String.utf8EncodeChar (Char.ofNat (((byte.toNat - 0xE0) * 64 + (first.toNat - 0x80)) * 64
      + (second.toNat - 0x80))) = [byte, first, second] := by
  rw [String.utf8EncodeChar, val_toNat_ofNat (by simp only [Nat.isValidChar]; omega),
    if_neg (by omega), if_neg (by omega), if_pos (by omega), ofNat_eq_of_toNat byte (by omega),
    ofNat_eq_of_toNat first (by omega), ofNat_eq_of_toNat second (by omega)]

/-- The bounds on the second byte rule out short numbers and those beyond the code space. -/
theorem encodeChar_of_four (least : 0xF0 ≤ byte.toNat) (most : byte.toNat ≤ 0xF4)
    (above : 0x80 ≤ first.toNat) (below : first.toNat ≤ 0xBF)
    (long : byte.toNat = 0xF0 → 0x90 ≤ first.toNat)
    (bounded : byte.toNat = 0xF4 → first.toNat ≤ 0x8F)
    (aboveSecond : 0x80 ≤ second.toNat) (belowSecond : second.toNat ≤ 0xBF)
    (aboveThird : 0x80 ≤ third.toNat) (belowThird : third.toNat ≤ 0xBF) :
    String.utf8EncodeChar (Char.ofNat ((((byte.toNat - 0xF0) * 64 + (first.toNat - 0x80)) * 64
      + (second.toNat - 0x80)) * 64 + (third.toNat - 0x80))) = [byte, first, second, third] := by
  rw [String.utf8EncodeChar, val_toNat_ofNat (by simp only [Nat.isValidChar]; omega),
    if_neg (by omega), if_neg (by omega), if_neg (by omega), ofNat_eq_of_toNat byte (by omega),
    ofNat_eq_of_toNat first (by omega), ofNat_eq_of_toNat second (by omega),
    ofNat_eq_of_toNat third (by omega)]

/-- A complete character at the front of some bytes is encoded by these bytes. -/
theorem encodeChar_append_drop_of_chunk (front : chunk byte rest = .scalar c following) :
    String.utf8EncodeChar c ++ rest.drop following = byte :: rest := by
  rw [chunk] at front
  cases announced : Lead.ofByte? byte with
  | none => simp [announced] at front
  | some lead =>
      simp only [announced] at front
      rcases ofByte?_cases announced with ⟨small, rfl⟩ | ⟨least, most, rfl⟩ |
        ⟨least, most, two, bits, low, high, long, scalar⟩ |
        ⟨least, most, three, bits, low, high, long, bounded⟩
      · obtain ⟨named, counted⟩ := eq_of_collect_zero front
        rw [named, counted, encodeChar_of_one small]
        rfl
      · dsimp only at front
        obtain ⟨first, others, rfl, above, below, front⟩ := exists_of_collect_succ front
        obtain ⟨named, counted⟩ := eq_of_collect_zero front
        rw [named, counted, encodeChar_of_two least most above below]
        rfl
      · rw [two, bits] at front
        obtain ⟨first, others, rfl, above, below, front⟩ := exists_of_collect_succ front
        obtain ⟨second, others, rfl, next, nextToo, front⟩ := exists_of_collect_succ front
        obtain ⟨named, counted⟩ := eq_of_collect_zero front
        rw [named, counted, encodeChar_of_three least most (low.trans above) (below.trans high)
          (fun same => (long same).trans above) (fun same => below.trans (scalar same)) next
          nextToo]
        rfl
      · rw [three, bits] at front
        obtain ⟨first, others, rfl, above, below, front⟩ := exists_of_collect_succ front
        obtain ⟨second, others, rfl, next, nextToo, front⟩ := exists_of_collect_succ front
        obtain ⟨third, others, rfl, last, lastToo, front⟩ := exists_of_collect_succ front
        obtain ⟨named, counted⟩ := eq_of_collect_zero front
        rw [named, counted, encodeChar_of_four least most (low.trans above) (below.trans high)
          (fun same => (long same).trans above) (fun same => below.trans (bounded same)) next
          nextToo last lastToo]
        rfl

theorem encode_of_decodeFrom {position : Nat}
    (decoded : decodeFrom position bytes = .ok text) : encode text = bytes := by
  fun_induction decodeFrom position bytes generalizing text with
  | case1 =>
      rw [← Except.ok.inj decoded]
      rfl
  | case2 position byte rest c following front read behind ih =>
      rw [← Except.ok.inj decoded, encode, List.flatMap_cons]
      change String.utf8EncodeChar c ++ encode read = _
      rw [ih behind, encodeChar_append_drop_of_chunk front]
  | case3 => cases decoded
  | case4 => cases decoded

/-- Decoding is strict: bytes that can be decoded are the encoded text. -/
theorem encode_of_decode (decoded : decode bytes = .ok text) : encode text = bytes :=
  encode_of_decodeFrom decoded

/-! ## Single bytes -/

/-- A byte below 0x80 is all there is of its character. -/
theorem val_toNat_of_mem_encodeChar (ascii : byte.toNat < 0x80)
    (written : byte ∈ String.utf8EncodeChar c) : c.val.toNat = byte.toNat := by
  simp only [String.utf8EncodeChar] at written
  by_cases single : c.val.toNat ≤ 0x7F
  · rw [if_pos single, List.mem_singleton] at written
    rw [written, UInt8.toNat_ofNat']
    omega
  · rw [if_neg single] at written
    have large {value : Nat} (least : 0x80 ≤ value) (most : value < 0x100) :
        byte ≠ UInt8.ofNat value := by
      rintro rfl
      rw [UInt8.toNat_ofNat'] at ascii
      omega
    exfalso
    split at written
    case isTrue =>
      simp only [List.mem_cons, List.not_mem_nil, or_false] at written
      rcases written with equal | equal <;> exact large (by omega) (by omega) equal
    case isFalse =>
      split at written
      case isTrue =>
        simp only [List.mem_cons, List.not_mem_nil, or_false] at written
        rcases written with equal | equal | equal <;> exact large (by omega) (by omega) equal
      case isFalse =>
        simp only [List.mem_cons, List.not_mem_nil, or_false] at written
        rcases written with equal | equal | equal | equal <;>
          exact large (by omega) (by omega) equal

theorem mem_encode_return_iff : UInt8.ofNat 0x0D ∈ encode text ↔ '\r' ∈ text := by
  rw [encode, List.mem_flatMap]
  constructor
  · rintro ⟨c, inside, written⟩
    have value := val_toNat_of_mem_encodeChar (by decide) written
    obtain rfl : c = '\r' := Char.ext (UInt32.toNat_inj.mp value)
    exact inside
  · intro inside
    exact ⟨'\r', inside, by decide⟩

end Canonical

end Utf8
end DependencyGate

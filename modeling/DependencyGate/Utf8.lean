/-
# UTF-8

Files hold bytes. This module encodes texts, and decodes bytes in two ways that
share one step: a strict decoding, used for manifests and lockfiles, that refuses
the first ill-formed part and says where it lies, and a lossy one, used for
sources, that puts a replacement character for each ill-formed part.

An ill-formed part is as long as it can be while still being the beginning of
some encoded character, and at least one byte.
-/

import DependencyGate.Text.Quoted
import DependencyGate.Text.Wide

namespace DependencyGate.Utf8

/-- Why the bytes at some place encode no character. -/
inductive Fault
  | invalidStart
  | invalidContinuation
  | unexpectedEnd
deriving DecidableEq

/-- What a lead byte announces: how many bytes follow, the bounds on the first of
them, and the bits it contributes. -/
structure Lead where
  following : Nat
  low : Nat
  high : Nat
  bits : Nat

/-- Reads a lead byte. The bounds rule out long forms, surrogates and numbers
beyond the code space. -/
def Lead.ofByte? (byte : UInt8) : Option Lead :=
  let b := byte.toNat
  if b < 0x80 then some ⟨0, 0x80, 0xBF, b⟩
  else if b < 0xC2 then none
  else if b < 0xE0 then some ⟨1, 0x80, 0xBF, b - 0xC0⟩
  else if b = 0xE0 then some ⟨2, 0xA0, 0xBF, 0⟩
  else if b = 0xED then some ⟨2, 0x80, 0x9F, 0xD⟩
  else if b < 0xF0 then some ⟨2, 0x80, 0xBF, b - 0xE0⟩
  else if b = 0xF0 then some ⟨3, 0x90, 0xBF, 0⟩
  else if b < 0xF4 then some ⟨3, 0x80, 0xBF, b - 0xF0⟩
  else if b = 0xF4 then some ⟨3, 0x80, 0x8F, 4⟩
  else none

/-- What stands at the front of some bytes, and how many bytes it takes after the
first one. -/
inductive Chunk
  | scalar (c : Char) (following : Nat)
  | broken (fault : Fault) (following : Nat)
deriving DecidableEq

/-- Collects the bytes after a lead byte: `needed` more, the first of them between
the bounds, `taken` so far. -/
def collect (needed low high bits taken : Nat) : List UInt8 → Chunk
  | [] =>
      match needed with
      | 0 => .scalar (Char.ofNat bits) taken
      | _ + 1 => .broken .unexpectedEnd taken
  | byte :: rest =>
      match needed with
      | 0 => .scalar (Char.ofNat bits) taken
      | needed + 1 =>
          if low ≤ byte.toNat ∧ byte.toNat ≤ high then
            collect needed 0x80 0xBF (bits * 64 + (byte.toNat - 0x80)) (taken + 1) rest
          else .broken .invalidContinuation taken

/-- The chunk at the front of `byte :: rest`. -/
def chunk (byte : UInt8) (rest : List UInt8) : Chunk :=
  match Lead.ofByte? byte with
  | none => .broken .invalidStart 0
  | some lead => collect lead.following lead.low lead.high lead.bits 0 rest

/-- An ill-formed part: its first byte, the offset of that byte, the number of
bytes after it that belong to the part, and what is wrong. -/
structure DecodeError where
  byte : UInt8
  position : Nat
  following : Nat
  fault : Fault
deriving DecidableEq

/-- Decodes bytes that start at the given offset, refusing ill-formed parts. -/
def decodeFrom (position : Nat) : List UInt8 → Except DecodeError Text
  | [] => .ok []
  | byte :: rest =>
      match chunk byte rest with
      | .scalar c following =>
          match decodeFrom (position + following + 1) (rest.drop following) with
          | .ok text => .ok (c :: text)
          | .error error => .error error
      | .broken fault following => .error ⟨byte, position, following, fault⟩
termination_by bytes => bytes.length
decreasing_by
  rw [List.length_drop, List.length_cons]
  omega

/-- Decodes bytes, refusing the first ill-formed part. -/
def decode (bytes : List UInt8) : Except DecodeError Text := decodeFrom 0 bytes

/-- Decodes bytes, with one replacement character for each ill-formed part. -/
def decodeLossy : List UInt8 → Text
  | [] => []
  | byte :: rest =>
      match chunk byte rest with
      | .scalar c following => c :: decodeLossy (rest.drop following)
      | .broken _ following => '\uFFFD' :: decodeLossy (rest.drop following)
termination_by bytes => bytes.length
decreasing_by
  all_goals
    rw [List.length_drop, List.length_cons]
    omega

/-- The bytes of a text. -/
def encode (text : Text) : List UInt8 := text.flatMap String.utf8EncodeChar

/-- A run of surrogates: its offset in code points and its members. -/
structure EncodeError where
  position : Nat
  surrogates : WideText
deriving DecidableEq

/-- The bytes of a wide text, unless it holds a surrogate; the error names the
first run of them. -/
def encodeWide (text : WideText) : Except EncodeError (List UInt8) :=
  let sound := text.takeWhile (!·.isSurrogate)
  let rest := text.dropWhile (!·.isSurrogate)
  if rest.isEmpty then .ok (encode (sound.map CodePoint.toChar))
  else .error ⟨sound.length, rest.takeWhile (·.isSurrogate)⟩

/-- The words for a fault. -/
def Fault.message : Fault → Text
  | .invalidStart => "invalid start byte"
  | .invalidContinuation => "invalid continuation byte"
  | .unexpectedEnd => "unexpected end of data"

/-- The message for an ill-formed part; a single byte is shown. -/
def DecodeError.message (error : DecodeError) : Text :=
  let place : Text :=
    if error.following = 0 then
      "byte 0x" ++ Text.hexadecimal 2 error.byte.toNat ++ " in position "
        ++ Text.ofNat error.position
    else
      "bytes in position " ++ Text.ofNat error.position ++ "-"
        ++ Text.ofNat (error.position + error.following)
  "'utf-8' codec can't decode " ++ place ++ ": " ++ error.fault.message

/-- The message for a run of surrogates; a single one is shown. -/
def EncodeError.message (error : EncodeError) : Text :=
  let place : Text :=
    match error.surrogates with
    | [point] =>
        "character '\\u" ++ Text.hexadecimal 4 point.value ++ "' in position "
          ++ Text.ofNat error.position
    | surrogates =>
        "characters in position " ++ Text.ofNat error.position ++ "-"
          ++ Text.ofNat (error.position + surrogates.length - 1)
  "'utf-8' codec can't encode " ++ place ++ ": surrogates not allowed"

end DependencyGate.Utf8

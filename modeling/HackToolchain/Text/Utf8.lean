/-!
Reading UTF-8. The decoder takes one byte at a time and knows, inside a sequence, how many bytes
are still due and in which interval the next one must lie; those intervals are what rules out
overlong forms, surrogates and code points past the last one. A fault names the sequence by the
offset of its first byte, and tells a sequence that is wrong from one that the end of the bytes
cut off.
-/

namespace HackToolchain.Text

/-- Why bytes are not text, with the offset at which the faulty sequence begins. -/
inductive Utf8Fault where
  | invalid (offset : Nat)
  | cutOff (offset : Nat)
deriving DecidableEq, Repr

/-- A sequence under way: where it began, how many bytes are due, the interval of the next one,
and the bits read so far. -/
structure Utf8Sequence where
  start : Nat
  due : Nat
  least : Nat
  most : Nat
  bits : Nat

/-- What a first byte announces. -/
def Utf8Sequence.begin? (start b : Nat) : Option Utf8Sequence :=
  if 0xC2 ≤ b && b ≤ 0xDF then some ⟨start, 1, 0x80, 0xBF, b - 0xC0⟩
  else if b == 0xE0 then some ⟨start, 2, 0xA0, 0xBF, 0⟩
  else if b == 0xED then some ⟨start, 2, 0x80, 0x9F, 0xD⟩
  else if 0xE1 ≤ b && b ≤ 0xEF then some ⟨start, 2, 0x80, 0xBF, b - 0xE0⟩
  else if b == 0xF0 then some ⟨start, 3, 0x90, 0xBF, 0⟩
  else if 0xF1 ≤ b && b ≤ 0xF3 then some ⟨start, 3, 0x80, 0xBF, b - 0xF0⟩
  else if b == 0xF4 then some ⟨start, 3, 0x80, 0x8F, 4⟩
  else none

/-- Decodes the bytes that stand at `offset`, after the characters `read`, last first. -/
def decodeFrom (offset : Nat) (under : Option Utf8Sequence) (read : List Char) :
    List UInt8 → Except Utf8Fault (List Char)
  | [] =>
    match under with
    | none => .ok read.reverse
    | some s => .error (.cutOff s.start)
  | byte :: rest =>
    let b := byte.toNat
    match under with
    | none =>
      if b < 0x80 then decodeFrom (offset + 1) none (Char.ofNat b :: read) rest
      else
        match Utf8Sequence.begin? offset b with
        | some s => decodeFrom (offset + 1) (some s) read rest
        | none => .error (.invalid offset)
    | some s =>
      if s.least ≤ b && b ≤ s.most then
        let bits := 64 * s.bits + (b - 0x80)
        if s.due == 1 then decodeFrom (offset + 1) none (Char.ofNat bits :: read) rest
        else decodeFrom (offset + 1) (some ⟨s.start, s.due - 1, 0x80, 0xBF, bits⟩) read rest
      else .error (.invalid s.start)

/-- The characters that the bytes encode. -/
def decodeUtf8 (bytes : ByteArray) : Except Utf8Fault (List Char) :=
  decodeFrom 0 none [] bytes.data.toList

end HackToolchain.Text

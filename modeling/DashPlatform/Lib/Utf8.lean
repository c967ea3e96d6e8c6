import Mathlib.Data.String.Basic

/-! # Decoding UTF-8

Bytes as text, with a replacement character for what is no UTF-8. A sequence ends at the first byte that cannot continue
it, and that byte is read again as the first of its own. -/

namespace Utf8

/-- A sequence that is not complete: the bytes still needed, the range of the next one, and the bits so far. -/
structure Pending where
  needed : Nat
  lower : Nat
  upper : Nat
  codePoint : Nat

inductive Start where
  | char (c : Char)
  | pending (p : Pending)
  | invalid

def replacement : Char := Char.ofNat 0xFFFD

/-- The first byte of a sequence. -/
def start (byte : Nat) : Start :=
  if byte < 0x80 then .char (Char.ofNat byte)
  else if byte < 0xC2 then .invalid
  else if byte < 0xE0 then .pending ⟨1, 0x80, 0xBF, byte - 0xC0⟩
  else if byte < 0xF0 then
    .pending ⟨2, if byte = 0xE0 then 0xA0 else 0x80, if byte = 0xED then 0x9F else 0xBF, byte - 0xE0⟩
  else if byte < 0xF5 then
    .pending ⟨3, if byte = 0xF0 then 0x90 else 0x80, if byte = 0xF4 then 0x8F else 0xBF, byte - 0xF0⟩
  else .invalid

def decodeFrom : Option Pending → List UInt8 → List Char
  | none, [] => []
  | some _, [] => [replacement]
  | none, byte :: bytes =>
    match start byte.toNat with
    | .char c => c :: decodeFrom none bytes
    | .pending p => decodeFrom (some p) bytes
    | .invalid => replacement :: decodeFrom none bytes
  | some p, byte :: bytes =>
    if p.lower ≤ byte.toNat ∧ byte.toNat ≤ p.upper then
      let codePoint := p.codePoint * 64 + (byte.toNat - 0x80)
      if p.needed = 1 then Char.ofNat codePoint :: decodeFrom none bytes
      else decodeFrom (some ⟨p.needed - 1, 0x80, 0xBF, codePoint⟩) bytes
    else
      replacement :: match start byte.toNat with
        | .char c => c :: decodeFrom none bytes
        | .pending p => decodeFrom (some p) bytes
        | .invalid => replacement :: decodeFrom none bytes

/-- `buffer.toString()` -/
def decode (bytes : List UInt8) : String := String.ofList (decodeFrom none bytes)

-- the euro sign, an overlong slash, and a euro sign that is cut off
example : decode [0xE2, 0x82, 0xAC, 0xC0, 0xAF, 0xE2, 0x82, 0x61] =
    String.ofList [Char.ofNat 0x20AC, replacement, replacement, replacement, 'a'] := by decide

end Utf8

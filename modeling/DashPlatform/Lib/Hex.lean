import Mathlib.Data.List.Basic

/-! # Hexadecimal text

Bytes written as lower case hexadecimal digits, and read back two digits at a time. A `HexString` is a
text that some byte string is written as, so that texts and byte strings correspond one to one. -/

namespace Hex

def digits : List Char :=
  ['0', '1', '2', '3', '4', '5', '6', '7', '8', '9', 'a', 'b', 'c', 'd', 'e', 'f']

def digit (n : Nat) : Char := digits.getD n '0'

/-- The value of a digit; the digits above nine are read in both cases. -/
def value? (c : Char) : Option Nat :=
  if '0' ≤ c ∧ c ≤ '9' then some (c.toNat - 48)
  else if 'a' ≤ c ∧ c ≤ 'f' then some (c.toNat - 87)
  else if 'A' ≤ c ∧ c ≤ 'F' then some (c.toNat - 55)
  else none

def encode (bytes : List UInt8) : List Char :=
  bytes.flatMap fun b => [digit (b.toNat / 16), digit (b.toNat % 16)]

/-- Reads pairs of digits, and stops at the first pair that is not one. -/
def decode : List Char → List UInt8
  | hi :: lo :: rest =>
    match value? hi, value? lo with
    | some h, some l => UInt8.ofNat (16 * h + l) :: decode rest
    | _, _ => []
  | _ => []

theorem value?_digit : ∀ n : Nat, n < 16 → value? (digit n) = some n
  | 0, _ | 1, _ | 2, _ | 3, _ | 4, _ | 5, _ | 6, _ | 7, _ | 8, _ | 9, _ | 10, _ | 11, _ | 12, _ | 13, _
  | 14, _ | 15, _ => by decide
  | n + 16, h => absurd h (by omega)

@[simp] theorem encode_nil : encode [] = [] := rfl

theorem encode_cons (b : UInt8) (bytes : List UInt8) :
    encode (b :: bytes) = digit (b.toNat / 16) :: digit (b.toNat % 16) :: encode bytes := rfl

@[simp] theorem decode_encode (bytes : List UInt8) : decode (encode bytes) = bytes := by
  induction bytes with
  | nil => rfl
  | cons b bytes ih =>
    have hb : b.toNat < 256 := b.toNat_lt
    have hi := value?_digit (b.toNat / 16) (by omega)
    have lo := value?_digit (b.toNat % 16) (by omega)
    have hsum : 16 * (b.toNat / 16) + b.toNat % 16 = b.toNat := by omega
    simp only [encode_cons, decode, hi, lo, hsum, ih, UInt8.ofNat_toNat]

end Hex

/-- A text that a byte string is written as. -/
structure HexString where
  chars : List Char
  encoded : Hex.encode (Hex.decode chars) = chars
deriving DecidableEq

namespace HexString

def ofBytes (bytes : List UInt8) : HexString := ⟨Hex.encode bytes, by rw [Hex.decode_encode]⟩

def toBytes (s : HexString) : List UInt8 := Hex.decode s.chars

@[simp] theorem toBytes_ofBytes (bytes : List UInt8) : (ofBytes bytes).toBytes = bytes :=
  Hex.decode_encode bytes

@[simp] theorem ofBytes_toBytes (s : HexString) : ofBytes s.toBytes = s := by
  cases s with
  | mk chars encoded =>
    unfold ofBytes toBytes
    congr 1

theorem ofBytes_injective : Function.Injective ofBytes := Function.LeftInverse.injective toBytes_ofBytes

theorem toBytes_injective : Function.Injective toBytes := Function.LeftInverse.injective ofBytes_toBytes

@[simp] theorem ofBytes_inj {a b : List UInt8} : ofBytes a = ofBytes b ↔ a = b := ofBytes_injective.eq_iff

end HexString

/-
CBOR data items as a program holds them after reading and before writing, in
the shape ciborium gives them (`ciborium::Value`), with the reader and the
writer of their bytes left open. Maps keep their entries in order, repeated
keys included.
-/
import Mathlib

namespace Cbor

/-- An integer CBOR can write: major type 0 holds an unsigned 64-bit number
`n`, major type 1 stands for `-1 - n`. -/
structure Integer where
  val : Int
  lower : -(2 ^ 64) ≤ val
  upper : val < 2 ^ 64
  deriving DecidableEq

/-- `Integer::from` of a 64-bit number. -/
def Integer.ofNat (n : Nat) : Integer where
  val := (n % 2 ^ 64 : Nat)
  lower := by omega
  upper := by omega

theorem Integer.ofNat_val {n : Nat} (hn : n < 2 ^ 64) : (Integer.ofNat n).val = n := by
  simp only [ofNat, Nat.mod_eq_of_lt hn]

inductive Value where
  | integer (i : Integer)
  | bytes (b : List UInt8)
  | float (bits : UInt64)
  | text (s : String)
  | bool (b : Bool)
  | null
  | tag (number : UInt64) (inner : Value)
  | array (items : List Value)
  | map (entries : List (Value × Value))

/-- A reader of one item off the front of some bytes, which leaves the bytes
behind it, and a writer. -/
structure Format where
  fromReader : List UInt8 → Except String (Value × List UInt8)
  intoWriter : Value → Except String (List UInt8)

/-- The bytes an item was read from are read as that item whatever follows them. -/
def Format.ReadsOne (c : Format) : Prop :=
  ∀ {bytes v rest}, c.fromReader bytes = .ok (v, rest) →
    ∃ item, bytes = item ++ rest ∧ ∀ rest', c.fromReader (item ++ rest') = .ok (v, rest')

/-- What was written is read back, whatever follows it. -/
def Format.Inverts (c : Format) : Prop :=
  ∀ {v b}, c.intoWriter v = .ok b → ∀ rest, c.fromReader (b ++ rest) = .ok (v, rest)

end Cbor

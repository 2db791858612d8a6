/-
SHA-256, on bytes. A message is padded to blocks of 64 bytes, each block is
spread to sixty-four words, and as many rounds mix them into eight words, whose
bytes are the hash. Words are natural numbers below 2³².
-/
import Nxfr.BigEndian

namespace Sha256

/-! ## Words -/

def add (x y : Nat) : Nat := (x + y) % 0x100000000

def rotr (n x : Nat) : Nat := x >>> n ||| (x <<< (32 - n)) % 0x100000000

def sigma0 (x : Nat) : Nat := rotr 7 x ^^^ rotr 18 x ^^^ x >>> 3

def sigma1 (x : Nat) : Nat := rotr 17 x ^^^ rotr 19 x ^^^ x >>> 10

def sum0 (x : Nat) : Nat := rotr 2 x ^^^ rotr 13 x ^^^ rotr 22 x

def sum1 (x : Nat) : Nat := rotr 6 x ^^^ rotr 11 x ^^^ rotr 25 x

def choose (x y z : Nat) : Nat := x &&& y ^^^ (0xffffffff ^^^ x) &&& z

def majority (x y z : Nat) : Nat := x &&& y ^^^ x &&& z ^^^ y &&& z

/-- The first bits of the cube roots of the first sixty-four primes. -/
def roundConstants : List Nat :=
  [
    0x428a2f98, 0x71374491, 0xb5c0fbcf, 0xe9b5dba5, 0x3956c25b, 0x59f111f1, 0x923f82a4, 0xab1c5ed5,
    0xd807aa98, 0x12835b01, 0x243185be, 0x550c7dc3, 0x72be5d74, 0x80deb1fe, 0x9bdc06a7, 0xc19bf174,
    0xe49b69c1, 0xefbe4786, 0x0fc19dc6, 0x240ca1cc, 0x2de92c6f, 0x4a7484aa, 0x5cb0a9dc, 0x76f988da,
    0x983e5152, 0xa831c66d, 0xb00327c8, 0xbf597fc7, 0xc6e00bf3, 0xd5a79147, 0x06ca6351, 0x14292967,
    0x27b70a85, 0x2e1b2138, 0x4d2c6dfc, 0x53380d13, 0x650a7354, 0x766a0abb, 0x81c2c92e, 0x92722c85,
    0xa2bfe8a1, 0xa81a664b, 0xc24b8b70, 0xc76c51a3, 0xd192e819, 0xd6990624, 0xf40e3585, 0x106aa070,
    0x19a4c116, 0x1e376c08, 0x2748774c, 0x34b0bcb5, 0x391c0cb3, 0x4ed8aa4a, 0x5b9cca4f, 0x682e6ff3,
    0x748f82ee, 0x78a5636f, 0x84c87814, 0x8cc70208, 0x90befffa, 0xa4506ceb, 0xbef9a3f7, 0xc67178f2
  ]

/-! ## Blocks -/

structure Words where
  a : Nat
  b : Nat
  c : Nat
  d : Nat
  e : Nat
  f : Nat
  g : Nat
  h : Nat

/-- The first bits of the square roots of the first eight primes. -/
def initial : Words :=
  { a := 0x6a09e667, b := 0xbb67ae85, c := 0x3c6ef372, d := 0xa54ff53a
    e := 0x510e527f, f := 0x9b05688c, g := 0x1f83d9ab, h := 0x5be0cd19 }

def Words.plus (s t : Words) : Words :=
  { a := add s.a t.a, b := add s.b t.b, c := add s.c t.c, d := add s.d t.d
    e := add s.e t.e, f := add s.f t.f, g := add s.g t.g, h := add s.h t.h }

/-- One round, with its constant and its word of the schedule. -/
def round (s : Words) (kw : Nat × Nat) : Words :=
  let t₁ := add (add (add s.h (sum1 s.e)) (add (choose s.e s.f s.g) kw.1)) kw.2
  let t₂ := add (sum0 s.a) (majority s.a s.b s.c)
  { a := add t₁ t₂, b := s.a, c := s.b, d := s.c, e := add s.d t₁, f := s.e, g := s.f, h := s.g }

/-- The words of a block, the last first, and `n` more. -/
def spread (ws : List Nat) : Nat → List Nat
  | 0 => ws
  | n + 1 =>
    let w := add (add (sigma1 (ws.getD 1 0)) (ws.getD 6 0)) (add (sigma0 (ws.getD 14 0)) (ws.getD 15 0))
    spread (w :: ws) n

/-- Four bytes make a word, the first byte the highest. -/
def words : List UInt8 → List Nat
  | w :: x :: y :: z :: rest => (((w.toNat * 256 + x.toNat) * 256 + y.toNat) * 256 + z.toNat) :: words rest
  | _ => []

def compress (s : Words) (block : List UInt8) : Words :=
  s.plus ((roundConstants.zip (spread (words block).reverse 48).reverse).foldl round s)

/-! ## Messages -/

def pad (message : List UInt8) : List UInt8 :=
  message ++ 0x80 :: List.replicate ((119 - message.length % 64) % 64) 0 ++ BigEndian.bytes 8 (8 * message.length)

/-- The blocks of a message, one after another. -/
def compressAll : Nat → List UInt8 → Words → Words
  | 0, _, s => s
  | n + 1, message, s => compressAll n (message.drop 64) (compress s (message.take 64))

def hash (message : List UInt8) : List UInt8 :=
  let s := compressAll ((pad message).length / 64) (pad message) initial
  [s.a, s.b, s.c, s.d, s.e, s.f, s.g, s.h].flatMap fun w => BigEndian.bytes 4 w

theorem hash_length (message : List UInt8) : (hash message).length = 32 := by
  simp [hash]

-- `abc`
example : (hash [0x61, 0x62, 0x63]).take 8 = [0xba, 0x78, 0x16, 0xbf, 0x8f, 0x01, 0xcf, 0xea] := by decide +kernel

end Sha256

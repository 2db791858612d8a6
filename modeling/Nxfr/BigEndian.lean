/-
Numbers as bytes in network order, both ways.
-/
import Mathlib

namespace BigEndian

/-- The `width` bytes of a number, most significant first. -/
def bytes (width n : Nat) : List UInt8 := (List.range width).map fun i => UInt8.ofNat (n / 256 ^ (width - 1 - i))

@[simp] theorem bytes_length {width n : Nat} : (bytes width n).length = width := by simp [bytes]

theorem bytes_succ {width n : Nat} : bytes (width + 1) n = bytes width (n / 256) ++ [UInt8.ofNat n] := by
  simp only [bytes, List.range_succ, List.map_append, List.map_singleton, Nat.add_sub_cancel, Nat.sub_self, pow_zero,
    Nat.div_one]
  congr 1
  refine List.map_congr_left fun i hi => ?_
  have hi := List.mem_range.mp hi
  rw [Nat.div_div_eq_div_mul, ← Nat.pow_succ', show (width - 1 - i).succ = width - i by omega]

/-- The number some bytes spell. -/
def value (bs : List UInt8) : Nat := bs.foldl (fun n b => n * 256 + b.toNat) 0

theorem value_append {bs : List UInt8} {b : UInt8} :
    value (bs ++ [b]) = value bs * 256 + b.toNat := by
  simp [value]

/-- A number that does not fit loses what is above its width. -/
theorem value_bytes_mod {width n : Nat} : value (bytes width n) = n % 256 ^ width := by
  induction width generalizing n with
  | zero =>
    rw [pow_zero, Nat.mod_one]
    rfl
  | succ width ih =>
    have hsplit : n % 256 ^ (width + 1) = n % 256 + 256 * (n / 256 % 256 ^ width) := by
      rw [Nat.pow_succ', Nat.mod_mul]
    rw [bytes_succ, value_append, ih, UInt8.toNat_ofNat', hsplit]
    omega

/-- A number that fits its width is read back. -/
theorem value_bytes {width n : Nat} (hn : n < 256 ^ width) : value (bytes width n) = n := by
  rw [value_bytes_mod, Nat.mod_eq_of_lt hn]

/-- Bytes are those of the number they spell. -/
theorem bytes_value {bs : List UInt8} {width : Nat} (hlen : bs.length = width) : bytes width (value bs) = bs := by
  induction bs using List.reverseRecOn generalizing width with
  | nil =>
    subst hlen
    rfl
  | append_singleton bs b ih =>
    rw [List.length_append, List.length_singleton] at hlen
    subst hlen
    have hb := b.toNat_lt
    rw [bytes_succ, value_append, show (value bs * 256 + b.toNat) / 256 = value bs by omega, ih rfl]
    congr 2
    refine UInt8.toNat_inj.mp ?_
    rw [UInt8.toNat_ofNat']
    omega

theorem value_lt {bs : List UInt8} : value bs < 256 ^ bs.length := by
  induction bs using List.reverseRecOn with
  | nil => simp [value]
  | append_singleton bs b ih =>
    have hb := b.toNat_lt
    rw [value_append, List.length_append, List.length_singleton, Nat.pow_succ]
    omega

end BigEndian

/-
Numbers as bytes with the least significant first, and readers that take such
numbers and blocks of bytes off the front of a list, one after another.
-/
import Nxfr.BigEndian

namespace LittleEndian

/-- The `width` bytes of a number, least significant first; what does not fit is
dropped. -/
def bytes (width n : Nat) : List UInt8 := (BigEndian.bytes width n).reverse

/-- The number some bytes spell. -/
def value (bs : List UInt8) : Nat := BigEndian.value bs.reverse

@[simp] theorem bytes_length {width n : Nat} : (bytes width n).length = width := by simp [bytes]

theorem value_bytes_mod {width n : Nat} : value (bytes width n) = n % 256 ^ width := by
  rw [value, bytes, List.reverse_reverse, BigEndian.value_bytes_mod]

/-- Numbers one after another, each with its width. -/
def fields (fs : List (Nat × Nat)) : List UInt8 := fs.flatMap fun f => bytes f.1 f.2

theorem fields_length (fs : List (Nat × Nat)) : (fields fs).length = (fs.map (·.1)).sum := by
  induction fs with
  | nil => rfl
  | cons f fs ih =>
    rw [fields, List.flatMap_cons, List.length_append, bytes_length, List.map_cons, List.sum_cons, ← ih, fields]

/-- A block of `n` bytes off the front. -/
def block (n : Nat) (bs : List UInt8) : Option (List UInt8 × List UInt8) :=
  if n ≤ bs.length then some (bs.take n, bs.drop n) else none

theorem block_append {xs rest : List UInt8} : block xs.length (xs ++ rest) = some (xs, rest) := by simp [block]

theorem block_zero {bs : List UInt8} : block 0 bs = some ([], bs) := by simp [block]

/-- Numbers of given widths off the front. -/
def numbers : List Nat → List UInt8 → Option (List Nat × List UInt8)
  | [], bs => some ([], bs)
  | width :: widths, bs => match block width bs with
    | some (front, bs) => (numbers widths bs).map fun (ns, rest) => (value front :: ns, rest)
    | none => none

/-- Numbers are read back without what is above their widths. -/
theorem numbers_fields_mod {fs : List (Nat × Nat)} {widths : List Nat} {rest : List UInt8}
    (hwidths : widths = fs.map (·.1)) :
    numbers widths (fields fs ++ rest) = some (fs.map fun f => f.2 % 256 ^ f.1, rest) := by
  subst hwidths
  induction fs with
  | nil => rfl
  | cons f fs ih =>
    have hblock : block f.1 (bytes f.1 f.2 ++ (fields fs ++ rest)) = some (bytes f.1 f.2, fields fs ++ rest) := by
      have happend : block (bytes f.1 f.2).length _ = some (bytes f.1 f.2, fields fs ++ rest) := block_append
      rwa [bytes_length] at happend
    have hcons : fields (f :: fs) ++ rest = bytes f.1 f.2 ++ (fields fs ++ rest) := by simp [fields]
    rw [hcons, List.map_cons, numbers, hblock]
    simp only [ih, value_bytes_mod, Option.map_some, List.map_cons]

/-- Numbers that fit are read back. -/
theorem numbers_fields {fs : List (Nat × Nat)} {widths : List Nat} {rest : List UInt8}
    (hwidths : widths = fs.map (·.1)) (hfs : ∀ f ∈ fs, f.2 < 256 ^ f.1) :
    numbers widths (fields fs ++ rest) = some (fs.map (·.2), rest) := by
  rw [numbers_fields_mod hwidths, List.map_congr_left fun f hf => Nat.mod_eq_of_lt (hfs f hf)]

/-- A number that is read is below what its width can say. -/
theorem numbers_lt {widths : List Nat} {bs rest : List UInt8} {ns : List Nat} (h : numbers widths bs = some (ns, rest)) :
    List.Forall₂ (fun width n => n < 256 ^ width) widths ns := by
  induction widths generalizing bs ns with
  | nil =>
    cases h
    exact .nil
  | cons width widths ih =>
    rw [numbers, block] at h
    split at h
    · rename_i front bs' hblock
      split at hblock
      · cases hblock
        obtain ⟨⟨ns', rest'⟩, hrest, heq⟩ := Option.map_eq_some_iff.mp h
        cases heq
        refine .cons ?_ (ih hrest)
        have hlt : value (bs.take width) < _ := BigEndian.value_lt
        rwa [List.length_reverse, List.length_take, Nat.min_eq_left ‹_›] at hlt
      · cases hblock
    · cases h

end LittleEndian

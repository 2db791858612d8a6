/-
The chunked transfer coding of HTTP/1.1: a body is chunks, each with its size in
hexadecimal on a line, then a last chunk of size zero and trailer lines up to an
empty one. A size may be followed by extensions, and lines end with CRLF.

`decode` reads a body off the front of a list of bytes. What it finds does not
change with what follows (`decode_append`), so no body is the start of another.
-/
import Mathlib.Data.Nat.Digits.Defs
import Nxfr.LittleEndian

namespace Chunked

open LittleEndian

abbrev Bytes := List UInt8

/-! ## Sizes -/

def hexDigit (d : Nat) : UInt8 := if d < 10 then UInt8.ofNat (48 + d) else UInt8.ofNat (55 + d)

/-- A number in hexadecimal, in capitals. -/
def hexUpper (n : Nat) : Bytes := if n = 0 then [48] else (Nat.digits 16 n).reverse.map hexDigit

def hexValue (b : UInt8) : Option Nat :=
  if 48 ≤ b.toNat ∧ b.toNat ≤ 57 then some (b.toNat - 48)
  else if 65 ≤ b.toNat ∧ b.toNat ≤ 70 then some (b.toNat - 55)
  else if 97 ≤ b.toNat ∧ b.toNat ≤ 102 then some (b.toNat - 87)
  else none

/-- The number of some hexadecimal digits. -/
def hexNumber (ds : Bytes) : Nat := ds.foldl (fun n d => 16 * n + (hexValue d).getD 0) 0

/-- The size on the line of a chunk, before extensions. -/
def chunkSize (line : Bytes) : Option Nat :=
  let digits := line.takeWhile fun b => (hexValue b).isSome
  let more := line.dropWhile fun b => (hexValue b).isSome
  if digits ≠ [] ∧ (more.head?.all fun b => b == 0x3b || b == 0x20 || b == 0x09) then some (hexNumber digits) else none

/-! ## Bodies -/

/-- A line off the front, without its CRLF. -/
def readLine : Bytes → Option (Bytes × Bytes)
  | [] => none
  | b :: bs => match bs with
    | [] => none
    | c :: rest =>
      if b = 0x0d ∧ c = 0x0a then some ([], rest)
      else (readLine (c :: rest)).map fun (line, rest) => (b :: line, rest)

/-- The trailer lines, and the empty one after them. -/
def skipTrailer : Nat → Bytes → Option Bytes
  | 0, _ => none
  | fuel + 1, bs => match readLine bs with
    | some ([], rest) => some rest
    | some (_, rest) => skipTrailer fuel rest
    | none => none

/-- The chunks of a body, joined, and what follows the body. -/
def decodeWith : Nat → Bytes → Option (Bytes × Bytes)
  | 0, _ => none
  | fuel + 1, bs => do
    let (line, bs) ← readLine bs
    let size ← chunkSize line
    if size = 0 then
      let rest ← skipTrailer (fuel + 1) bs
      pure ([], rest)
    else
      let (data, bs) ← block size bs
      let (crlf, bs) ← readLine bs
      guard (crlf = [])
      let (more, rest) ← decodeWith fuel bs
      pure (data ++ more, rest)

def decode (bs : Bytes) : Option (Bytes × Bytes) := decodeWith bs.length bs

variable {bs rest line : Bytes} {n fuel : Nat}

/-! ## What follows a body -/

theorem readLine_append (h : readLine bs = some (line, rest)) (more : Bytes) :
    readLine (bs ++ more) = some (line, rest ++ more) := by
  induction bs generalizing line with
  | nil => cases h
  | cons b bs ih =>
    cases bs with
    | nil => cases h
    | cons c bs =>
      rw [readLine] at h
      simp only [List.cons_append, readLine]
      split at h
      · rename_i hcrlf
        cases h
        rw [if_pos hcrlf]
      · rename_i hcrlf
        rw [Option.map_eq_some_iff] at h
        obtain ⟨⟨line', rest'⟩, hread, heq⟩ := h
        cases heq
        have hmore := ih hread
        rw [List.cons_append] at hmore
        rw [if_neg hcrlf, hmore]
        rfl

theorem skipTrailer_append (h : skipTrailer fuel bs = some rest) (more : Bytes) {fuel' : Nat} (hle : fuel ≤ fuel') :
    skipTrailer fuel' (bs ++ more) = some (rest ++ more) := by
  induction fuel generalizing bs fuel' with
  | zero => cases h
  | succ fuel ih =>
    obtain ⟨k, rfl⟩ : ∃ k, fuel' = k + 1 := ⟨fuel' - 1, by omega⟩
    rw [skipTrailer] at h ⊢
    split at h
    · rename_i hread
      cases h
      rw [readLine_append hread]
    · rename_i line rest' hne hread
      rw [readLine_append hread]
      cases line with
      | nil => exact absurd rfl hne
      | cons b line => exact ih h (by omega)
    · cases h

theorem block_more {data : Bytes} (h : block n bs = some (data, rest)) (more : Bytes) :
    block n (bs ++ more) = some (data, rest ++ more) := by
  unfold block at h ⊢
  split at h
  · rename_i hle
    cases h
    rw [if_pos (by rw [List.length_append]; omega), List.take_append_of_le_length hle, List.drop_append_of_le_length hle]
  · cases h

theorem decodeWith_append {data : Bytes} (h : decodeWith fuel bs = some (data, rest)) (more : Bytes) {fuel' : Nat}
    (hle : fuel ≤ fuel') : decodeWith fuel' (bs ++ more) = some (data, rest ++ more) := by
  induction fuel generalizing bs data fuel' with
  | zero => cases h
  | succ fuel ih =>
    obtain ⟨k, rfl⟩ : ∃ k, fuel' = k + 1 := ⟨fuel' - 1, by omega⟩
    rw [decodeWith] at h ⊢
    simp only [Option.bind_eq_bind, Option.bind_eq_some_iff, Option.pure_def] at h
    obtain ⟨⟨line, bs₁⟩, hline, size, hsize, h⟩ := h
    simp only [readLine_append hline, hsize, Option.bind_eq_bind, Option.bind_some, Option.pure_def]
    split at h
    · rename_i hzero
      simp only [Option.bind_eq_some_iff] at h
      obtain ⟨after, htrailer, hdone⟩ := h
      cases hdone
      rw [if_pos hzero, skipTrailer_append htrailer more hle]
      rfl
    · rename_i hzero
      simp only [Option.bind_eq_some_iff] at h
      obtain ⟨⟨chunk, bs₂⟩, hblock, ⟨crlf, bs₃⟩, hcrlf, _, hguard, ⟨data', rest'⟩, hrest, hdone⟩ := h
      cases hdone
      rw [if_neg hzero, block_more hblock]
      simp only [Option.bind_some, readLine_append hcrlf, hguard, ih hrest (show fuel ≤ k by omega)]

/-- A body is read in the same way whatever follows it. -/
theorem decode_append {data : Bytes} (h : decode bs = some (data, rest)) (more : Bytes) :
    decode (bs ++ more) = some (data, rest ++ more) :=
  decodeWith_append h more (by rw [List.length_append]; omega)

/-- What starts a body that is all of some bytes is no body itself. -/
theorem decode_proper_prefix {data more : Bytes} (h : decode (bs ++ more) = some (data, [])) (hne : more ≠ []) :
    decode bs = none := by
  cases hbs : decode bs with
  | none => rfl
  | some found =>
    obtain ⟨data', rest'⟩ := found
    have := decode_append hbs more
    rw [h, Option.some.injEq, Prod.mk.injEq] at this
    exact absurd (List.append_eq_nil_iff.mp this.2.symm).2 hne

/-! ## What a writer writes -/

theorem hexValue_hexDigit {d : Nat} (h : d < 16) : hexValue (hexDigit d) = some d := by
  interval_cases d <;> rfl

theorem hexUpper_digits (n : Nat) : ∀ b ∈ hexUpper n, (hexValue b).isSome := by
  intro b hb
  unfold hexUpper at hb
  split at hb
  · rw [List.mem_singleton] at hb
    subst hb
    rfl
  · rw [List.mem_map] at hb
    obtain ⟨d, hd, rfl⟩ := hb
    rw [hexValue_hexDigit (Nat.digits_lt_base (by decide) (List.mem_reverse.mp hd))]
    rfl

theorem hexNumber_map {ds : List Nat} (h : ∀ d ∈ ds, d < 16) : hexNumber (ds.reverse.map hexDigit) = Nat.ofDigits 16 ds := by
  induction ds with
  | nil => rfl
  | cons d ds ih =>
    have hdigit := hexValue_hexDigit (h d (by simp))
    rw [List.reverse_cons, List.map_append, hexNumber, List.foldl_append, ← hexNumber,
      ih fun e he => h e (by simp [he]), Nat.ofDigits_cons]
    simp only [List.map_cons, List.map_nil, List.foldl_cons, List.foldl_nil, hdigit, Option.getD_some]
    omega

theorem hexNumber_hexUpper (n : Nat) : hexNumber (hexUpper n) = n := by
  unfold hexUpper
  split
  · rename_i hzero
    subst hzero
    rfl
  · rw [hexNumber_map fun d hd => Nat.digits_lt_base (by decide) hd, Nat.ofDigits_digits]

theorem hexUpper_ne_nil (n : Nat) : hexUpper n ≠ [] := by
  unfold hexUpper
  split
  · simp
  · rename_i hzero
    simpa [Nat.digits_ne_nil_iff_ne_zero] using hzero

theorem chunkSize_hexUpper (n : Nat) : chunkSize (hexUpper n) = some n := by
  have htake : (hexUpper n).takeWhile (fun b => (hexValue b).isSome) = hexUpper n :=
    List.takeWhile_eq_self_iff.mpr (hexUpper_digits n)
  have hdrop : (hexUpper n).dropWhile (fun b => (hexValue b).isSome) = [] :=
    List.dropWhile_eq_nil_iff.mpr (hexUpper_digits n)
  rw [chunkSize]
  simp only [htake, hdrop]
  rw [if_pos ⟨hexUpper_ne_nil n, rfl⟩, hexNumber_hexUpper]

theorem readLine_crlf {line : Bytes} (h : 0x0d ∉ line) : readLine (line ++ 0x0d :: 0x0a :: rest) = some (line, rest) := by
  induction line with
  | nil => rfl
  | cons b line ih =>
    rw [List.mem_cons, not_or] at h
    obtain ⟨c, cs, hcs⟩ : ∃ c cs, line ++ 0x0d :: 0x0a :: rest = c :: cs := by
      cases line with
      | nil => exact ⟨_, _, rfl⟩
      | cons c line => exact ⟨_, _, rfl⟩
    have hrest := ih h.2
    rw [hcs] at hrest
    rw [List.cons_append, hcs, readLine]
    simp only [hrest, Option.map_some]
    rw [if_neg fun hcr => h.1 hcr.1.symm]

theorem readLine_size (n : Nat) (rest : Bytes) :
    readLine (hexUpper n ++ 0x0d :: 0x0a :: rest) = some (hexUpper n, rest) := by
  refine readLine_crlf ?_
  intro hmem
  exact absurd (hexUpper_digits n _ hmem) (by decide)

/-- A chunk off the front of a body. -/
theorem decodeWith_chunk {data rest : Bytes} (h : data ≠ []) :
    decodeWith (fuel + 1) (hexUpper data.length ++ 0x0d :: 0x0a :: (data ++ 0x0d :: 0x0a :: rest)) =
      (decodeWith fuel rest).map fun (more, rest) => (data ++ more, rest) := by
  have hlen : data.length ≠ 0 := fun hzero => h (List.eq_nil_of_length_eq_zero hzero)
  rw [decodeWith]
  simp only [readLine_size, chunkSize_hexUpper, Option.bind_eq_bind, Option.bind_some, if_neg hlen, block_append,
    Option.pure_def]
  have hcrlf : readLine (0x0d :: 0x0a :: rest) = some ([], rest) := rfl
  simp only [hcrlf, Option.bind_some, guard, if_true, Option.pure_def]
  cases decodeWith fuel rest <;> rfl

/-- The last chunk, without a trailer. -/
theorem decodeWith_last {rest : Bytes} :
    decodeWith (fuel + 1) ([0x30, 0x0d, 0x0a, 0x0d, 0x0a] ++ rest) = some ([], rest) := by
  rfl

end Chunked

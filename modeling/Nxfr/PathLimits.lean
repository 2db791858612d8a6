/-
How long the names and the paths are that the receivers open. A `.part` file and a
temporary file have longer names than the file they stand for, so a path that the
file system takes may have none beside it.
-/
import Mathlib.Data.String.Basic
import Nxfr.HexFacts
import Nxfr.MobileReceiver
import Nxfr.WireFacts

namespace Nxfr

open Disk

variable {p q : Path}

/-! ## Paths -/

theorem pathSize_append : pathSize (p ++ q) = pathSize p + pathSize q := by
  induction p with
  | nil => simp [pathSize]
  | cons name p ih =>
    rw [List.cons_append, pathSize, ih, pathSize]
    omega

theorem fits_iff : Limits.fits p = true ↔ (∀ name ∈ p, name.utf8ByteSize ≤ 255) ∧ pathSize p < 4096 := by
  simp [Limits.fits]

/-- What is above a path that the file system takes is taken. -/
theorem fits_above (h : Limits.fits q = true) (hp : p <+: q) : Limits.fits p = true := by
  obtain ⟨rest, rfl⟩ := hp
  rw [fits_iff, pathSize_append] at h
  obtain ⟨hnames, hsize⟩ := h
  refine fits_iff.mpr ⟨fun name hname => hnames name (List.mem_append_left _ hname), ?_⟩
  omega

theorem fits_concat {name : String} : Limits.fits (p ++ [name]) = true ↔
    (∀ n ∈ p, n.utf8ByteSize ≤ 255) ∧ name.utf8ByteSize ≤ 255 ∧ pathSize p + name.utf8ByteSize + 1 < 4096 := by
  rw [fits_iff, pathSize_append, pathSize, pathSize]
  simp only [List.mem_append, List.mem_singleton]
  constructor
  · intro h
    obtain ⟨hnames, hsize⟩ := h
    refine ⟨fun n hn => hnames n (.inl hn), hnames name (.inr rfl), ?_⟩
    omega
  · intro h
    obtain ⟨hnames, hname, hsize⟩ := h
    refine ⟨?_, by omega⟩
    intro n hn
    rcases hn with hn | rfl
    · exact hnames n hn
    · exact hname

/-- Beside a path there is room for a name that is no longer. -/
theorem fits_renameLast {f g : String → String} (hsize : ∀ name, (f name).utf8ByteSize ≤ (g name).utf8ByteSize)
    (h : Limits.fits (renameLast g p) = true) : Limits.fits (renameLast f p) = true := by
  unfold renameLast at h ⊢
  split
  · rfl
  · rename_i name hlast
    rw [hlast] at h
    obtain ⟨hnames, hname, htotal⟩ := fits_concat.mp h
    have hle := hsize name
    exact fits_concat.mpr ⟨hnames, by omega, by omega⟩

theorem renameLast_id : renameLast id p = p := by
  unfold renameLast
  split
  · rename_i hlast
    exact (List.getLast?_eq_none_iff.mp hlast).symm
  · rename_i name hlast
    exact List.dropLast_append_getLast? _ hlast

/-! ## Names -/

theorem utf8ByteSize_ascii {cs : List Char} (h : ∀ c ∈ cs, c.utf8Size = 1) :
    (String.ofList cs).utf8ByteSize = cs.length := by
  rw [String.utf8ByteSize_ofList]
  induction cs with
  | nil => rfl
  | cons c cs ih =>
    rw [String.utf8Len_cons, ih fun d hd => h d (by simp [hd]), h c (by simp), List.length_cons]

theorem digitChar_size {v : Nat} (h : v < 16) : (Nat.digitChar v).utf8Size = 1 := by
  interval_cases v <;> rfl

theorem hexEncode_size (bs : Bytes) : (hexEncode bs).utf8ByteSize = 2 * bs.length := by
  rw [← length_hexEncode, hexEncode, String.toList_ofList]
  refine utf8ByteSize_ascii fun c hc => ?_
  obtain ⟨b, -, hc⟩ := List.mem_flatMap.mp hc
  have hb := b.toNat_lt
  simp only [List.mem_cons, List.not_mem_nil, or_false] at hc
  rcases hc with rfl | rfl
  · exact digitChar_size (by omega)
  · exact digitChar_size (by omega)

/-- The `.part` name of a file is its name and the suffix. -/
theorem partName_eq (name : String) : partName name = name ++ ".part" := by
  have hname := stem_extension name
  unfold partName
  cases hext : extension name with
  | none =>
    rw [hext] at hname
    simp only [Option.map_none, Option.getD_none, String.append_empty] at hname ⊢
    rw [hname, String.append_assoc]
    rfl
  | some ext =>
    rw [hext] at hname
    simp only [Option.map_some, Option.getD_some] at hname ⊢
    conv_rhs => rw [← hname]
    simp only [String.append_assoc]

theorem partName_size (name : String) : (partName name).utf8ByteSize = name.utf8ByteSize + 5 := by
  rw [partName_eq, String.utf8ByteSize_append]
  rfl

/-- A temporary name is sixty bytes longer than the name it is for. -/
theorem tmpName_size (transferId : TransferId) (randBytes : RandBytes) (name : String) :
    (tmpName transferId randBytes name).utf8ByteSize = name.utf8ByteSize + 60 := by
  simp only [tmpName, String.utf8ByteSize_append, hexEncode_size, transferId.size, randBytes.size]
  have hparts : ".".utf8ByteSize = 1 ∧ "_".utf8ByteSize = 1 ∧ ".nxfr_tmp".utf8ByteSize = 9 := ⟨rfl, rfl, rfl⟩
  omega

/-- Where there is room for a `.part` file there is for the file. -/
theorem fits_of_partPath (h : Limits.fits (partPath p) = true) : Limits.fits p = true := by
  rw [← renameLast_id (p := p)]
  exact fits_renameLast (fun name => by rw [id, partName_size]; omega) h

theorem fits_of_tmpName {transferId : TransferId} {randBytes : RandBytes}
    (h : Limits.fits (renameLast (tmpName transferId randBytes) p) = true) : Limits.fits p = true := by
  rw [← renameLast_id (p := p)]
  exact fits_renameLast (fun name => by rw [id, tmpName_size]; omega) h

/-- Every draw gives a name of the same length. -/
theorem fits_tmpName_congr {transferId : TransferId} {randBytes : RandBytes}
    (h : Limits.fits (renameLast (tmpName transferId randBytes) p) = true) (other : RandBytes) :
    Limits.fits (renameLast (tmpName transferId other) p) = true :=
  fits_renameLast (fun name => by rw [tmpName_size, tmpName_size]) h

end Nxfr

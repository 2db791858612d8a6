/-
Hex texts: what `hex::encode` gives is decoded again, so it tells its bytes.
-/
import Nxfr.Journal
import Mathlib.Tactic.IntervalCases

namespace Nxfr

theorem hexValue_digitChar {v : Nat} (h : v < 16) : hexValue (Nat.digitChar v) = some v := by
  interval_cases v <;> simp [hexValue, Nat.digitChar]

theorem hexPairs_encode (bs : Bytes) :
    hexPairs (bs.flatMap fun b => [Nat.digitChar (b.toNat / 16), Nat.digitChar (b.toNat % 16)]) = some bs := by
  induction bs with
  | nil => rfl
  | cons b bs ih =>
    have hb := b.toNat_lt
    have hbyte : UInt8.ofNat (16 * (b.toNat / 16) + b.toNat % 16) = b := by
      rw [Nat.div_add_mod, UInt8.ofNat_toNat]
    simp only [List.flatMap_cons, List.cons_append, List.nil_append, hexPairs, ih,
      hexValue_digitChar (v := b.toNat / 16) (by omega), hexValue_digitChar (v := b.toNat % 16) (by omega)]
    exact congrArg (fun b => some (b :: bs)) hbyte

theorem hexEncode_injective {bs bs' : Bytes} (h : hexEncode bs = hexEncode bs') : bs = bs' := by
  have hpairs := congrArg (fun s : String => hexPairs s.toList) h
  simpa only [hexEncode, String.toList_ofList, hexPairs_encode, Option.some.injEq] using hpairs

theorem toList_hexEncode_append (bs bs' : Bytes) :
    (hexEncode (bs ++ bs')).toList = (hexEncode bs).toList ++ (hexEncode bs').toList := by
  simp [hexEncode]

theorem length_hexEncode (bs : Bytes) : (hexEncode bs).toList.length = 2 * bs.length := by
  induction bs with
  | nil => rfl
  | cons b bs ih =>
    simp only [hexEncode, String.toList_ofList, List.flatMap_cons, List.cons_append, List.nil_append,
      List.length_cons] at ih ⊢
    omega

theorem hexDecode_encode (bs : Bytes) : hexDecode (hexEncode bs) = some bs := by
  rw [hexDecode, hexEncode, String.toList_ofList, hexPairs_encode]

end Nxfr

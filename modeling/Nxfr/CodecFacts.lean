/-
The helpers of the control codec. Each getter of the decoder has one lemma that
says what it makes of a field the encoder wrote, and one that says where a
value it returned came from.
-/
import Nxfr.Codec

namespace Nxfr.Codec
open Cbor (Value Integer Format)

/-! ## Steps that may fail -/

section

variable {ε α β : Type}

@[simp] theorem ok_bind {a : α} {f : α → Except ε β} : ((.ok a : Except ε α) >>= f) = f a := rfl

@[simp] theorem error_bind {e : ε} {f : α → Except ε β} : ((.error e : Except ε α) >>= f) = .error e := rfl

@[simp] theorem pure_eq_ok {a : α} : (pure a : Except ε α) = .ok a := rfl

@[simp] theorem map_ok {a : α} {f : α → β} : f <$> (.ok a : Except ε α) = .ok (f a) := rfl

theorem bind_eq_ok {x : Except ε α} {f : α → Except ε β} {r : β} :
    (x >>= f) = .ok r ↔ ∃ a, x = .ok a ∧ f a = .ok r := by
  cases x with
  | error e => simp
  | ok a => simp

theorem map_eq_ok {x : Except ε α} {f : α → β} {r : β} : f <$> x = .ok r ↔ ∃ a, x = .ok a ∧ f a = r := by
  cases x with
  | error e => simp [Functor.map, Except.map]
  | ok a => simp

/-- A loop that undoes each step undoes the list. -/
theorem mapM_map {f : β → Except ε α} {g : α → β} {l : List α} (h : ∀ a ∈ l, f (g a) = .ok a) :
    (l.map g).mapM f = .ok l := by
  induction l with
  | nil => rfl
  | cons a l ih =>
    rw [List.map_cons, List.mapM_cons, h a List.mem_cons_self, ih fun b hb => h b (List.mem_cons_of_mem _ hb)]
    rfl

/-- A loop that ends well did so at each item. -/
theorem mapM_eq_ok {f : α → Except ε β} {l : List α} {r : List β} (h : l.mapM f = .ok r) :
    List.Forall₂ (fun a b => f a = .ok b) l r := by
  induction l generalizing r with
  | nil =>
    cases h
    exact .nil
  | cons a l ih =>
    rw [List.mapM_cons, bind_eq_ok] at h
    obtain ⟨b, hb, h⟩ := h
    rw [bind_eq_ok] at h
    obtain ⟨bs, hbs, h⟩ := h
    cases h
    exact .cons hb (ih hbs)

theorem exists_of_forall₂ {R : α → β → Prop} {l : List α} {r : List β} (h : List.Forall₂ R l r) {b : β} (hb : b ∈ r) :
    ∃ a ∈ l, R a b := by
  induction h with
  | nil => cases hb
  | cons hab _ ih =>
    rcases List.mem_cons.mp hb with rfl | hb
    · exact ⟨_, List.mem_cons_self, hab⟩
    · obtain ⟨a, ha, hR⟩ := ih hb
      exact ⟨a, List.mem_cons_of_mem _ ha, hR⟩

end

/-! ## Maps -/

theorem CborMap.get_insertOpt {m : CborMap} {key k : String} {o : Option Value} :
    (m.insertOpt key o).get k = if key = k then o.or (m.get k) else m.get k := by
  cases o with
  | none => simp [insertOpt]
  | some v => simp [insertOpt, get_insert]

theorem collect_texts {m : CborMap} {l : List (String × Value)} :
    collect m (l.map fun (k, v) => (.text k, v)) = .ok (l.foldl (fun m e => m.insert e.1 e.2) m) := by
  induction l generalizing m with
  | nil => rfl
  | cons e l ih => rw [List.map_cons, collect, ih, List.foldl_cons]

theorem get_insertAll_other {m : CborMap} {k : String} {l : List (String × Value)} (h : k ∉ l.map Prod.fst) :
    (l.foldl (fun m e => m.insert e.1 e.2) m).get k = m.get k := by
  induction l generalizing m with
  | nil => rfl
  | cons e l ih =>
    rw [List.map_cons, List.mem_cons, not_or] at h
    rw [List.foldl_cons, ih h.2, CborMap.get_insert, if_neg (Ne.symm h.1)]

theorem get_insertAll_mem {m : CborMap} {k : String} {v : Value} {l : List (String × Value)}
    (hkeys : (l.map Prod.fst).Nodup) (h : (k, v) ∈ l) :
    (l.foldl (fun m e => m.insert e.1 e.2) m).get k = some v := by
  induction l generalizing m with
  | nil => cases h
  | cons e l ih =>
    rw [List.map_cons, List.nodup_cons] at hkeys
    rw [List.foldl_cons]
    rcases List.mem_cons.mp h with rfl | h
    · rw [get_insertAll_other hkeys.1, CborMap.get_insert, if_pos rfl]
    · exact ih hkeys.2 h

/-- The entries of a map are collected to the map. -/
theorem collect_toList {m : CborMap} : collect .empty (m.toList.map fun (k, v) => (.text k, v)) = .ok m := by
  rw [collect_texts]
  congr 1
  refine CborMap.ext_get fun k => ?_
  cases hget : m.get k with
  | some v => exact get_insertAll_mem CborMap.keys_nodup (CborMap.mem_toList.mpr hget)
  | none =>
    rw [get_insertAll_other, CborMap.get_empty]
    intro hk
    obtain ⟨⟨k', v⟩, he, rfl⟩ := List.mem_map.mp hk
    rw [CborMap.mem_toList.mp he] at hget
    cases hget

theorem toCborMap_mapToValue {m : CborMap} : toCborMap (mapToValue m) = .ok m := collect_toList

/-- Every value of a map. -/
def CborMap.All (p : Value → Prop) (m : CborMap) : Prop := ∀ k v, m.get k = some v → p v

section

variable {p : Value → Prop} {m : CborMap} {key : String}

theorem CborMap.All.empty : CborMap.empty.All p := by
  intro k v h
  rw [get_empty] at h
  cases h

theorem CborMap.All.insert {v : Value} (hm : m.All p) (hv : p v) : (m.insert key v).All p := by
  intro k w h
  rw [get_insert] at h
  split at h
  · cases h
    exact hv
  · exact hm k w h

theorem CborMap.All.insertOpt {α : Type} {o : Option α} {f : α → Value} (hm : m.All p) (hf : ∀ a ∈ o, p (f a)) :
    (m.insertOpt key (o.map f)).All p := by
  cases o with
  | none => exact hm
  | some a => exact hm.insert (hf a rfl)

end

/-! ## Nesting -/

/-- A value the depth check passes at a depth. -/
def Shallow (depth : Nat) (v : Value) : Prop := checkNestingDepth v depth = .ok ()

section

variable {depth : Nat}

theorem checkItems_ok {items : List Value} (h : ∀ v ∈ items, Shallow depth v) : checkItems items depth = .ok () := by
  induction items with
  | nil => rw [checkItems]
  | cons v items ih =>
    rw [checkItems, h v List.mem_cons_self, ok_bind]
    exact ih fun w hw => h w (List.mem_cons_of_mem _ hw)

theorem checkEntries_ok {entries : List (Value × Value)} (h : ∀ e ∈ entries, Shallow depth e.1 ∧ Shallow depth e.2) :
    checkEntries entries depth = .ok () := by
  induction entries with
  | nil => rw [checkEntries]
  | cons e entries ih =>
    obtain ⟨hk, hv⟩ := h e List.mem_cons_self
    rw [checkEntries, hk, ok_bind, hv, ok_bind]
    exact ih fun w hw => h w (List.mem_cons_of_mem _ hw)

variable (hd : depth ≤ maxCborNesting)

include hd

theorem shallow_text {s : String} : Shallow depth (.text s) := by
  simp [Shallow, checkNestingDepth, Nat.not_lt.mpr hd]

theorem shallow_bytes {b : Bytes} : Shallow depth (.bytes b) := by
  simp [Shallow, checkNestingDepth, Nat.not_lt.mpr hd]

theorem shallow_bool {b : Bool} : Shallow depth (.bool b) := by
  simp [Shallow, checkNestingDepth, Nat.not_lt.mpr hd]

theorem shallow_uintToValue {n : Nat} : Shallow depth (uintToValue n) := by
  simp [Shallow, uintToValue, checkNestingDepth, Nat.not_lt.mpr hd]

theorem shallow_array {items : List Value} (h : ∀ v ∈ items, Shallow (depth + 1) v) : Shallow depth (.array items) := by
  rw [Shallow, checkNestingDepth, if_neg (by omega)]
  exact checkItems_ok h

omit hd

theorem shallow_mapToValue {m : CborMap} (hd : depth + 1 ≤ maxCborNesting) (h : m.All (Shallow (depth + 1))) :
    Shallow depth (mapToValue m) := by
  rw [Shallow, mapToValue, checkNestingDepth, if_neg (by omega)]
  refine checkEntries_ok fun e he => ?_
  obtain ⟨⟨k, v⟩, hmem, rfl⟩ := List.mem_map.mp he
  exact ⟨shallow_text hd, h k v (CborMap.mem_toList.mp hmem)⟩

end

/-! ## Fields, read back -/

section

variable {map : CborMap} {key : String}

theorem asU64_ofNat {n : Nat} (hn : n < 2 ^ 64) : asU64 (Integer.ofNat n).val = n := by
  rw [asU64, Integer.ofNat_val hn]
  omega

theorem asU32_ofNat {n : Nat} (hn : n < 2 ^ 32) : asU32 (Integer.ofNat n).val = n := by
  rw [asU32, Integer.ofNat_val (by omega)]
  omega

theorem getRequired_some {v : Value} (h : map.get key = some v) : getRequired map key = .ok v := by
  rw [getRequired, h]

theorem getUint_uint {n : Nat} (h : map.get key = some (uintToValue n)) (hn : n < 2 ^ 64) : getUint map key = .ok n := by
  have hsign : ¬ (Integer.ofNat n).val < 0 := by
    rw [Integer.ofNat_val hn]
    omega
  rw [getUint, getRequired_some h, ok_bind]
  simp only [uintToValue, if_neg hsign, asU64_ofNat hn]

theorem getU32_uint {n : Nat} (h : map.get key = some (uintToValue n)) (hn : n < 2 ^ 32) : getU32 map key = .ok n := by
  rw [getU32, getUint_uint h (by omega), ok_bind, pure_eq_ok, asU32]
  congr 1
  omega

theorem getUintOpt_uint {o : Option Nat} (h : map.get key = o.map uintToValue) (ho : ∀ n ∈ o, n < 2 ^ 64) :
    getUintOpt map key = .ok o := by
  rw [getUintOpt, h]
  cases o with
  | none => rfl
  | some n =>
    have hn := ho n rfl
    have hsign : ¬ (Integer.ofNat n).val < 0 := by
      rw [Integer.ofNat_val hn]
      omega
    simp only [Option.map_some, uintToValue, if_neg hsign, asU64_ofNat hn]

theorem getText_text {s : String} (h : map.get key = some (.text s)) : getText map key = .ok s := by
  rw [getText, getRequired_some h, ok_bind]

theorem getTextOpt_text {o : Option String} (h : map.get key = o.map .text) : getTextOpt map key = .ok o := by
  rw [getTextOpt, h]
  cases o with
  | none => rfl
  | some s => rfl

theorem getBool_bool {b : Bool} (h : map.get key = some (.bool b)) : getBool map key = .ok b := by
  rw [getBool, getRequired_some h, ok_bind]

theorem getBytes_bytes {n : Nat} {b : Bytes} (h : map.get key = some (.bytes b)) (hb : b.length = n) :
    getBytes map key n = .ok ⟨b, hb⟩ := by
  rw [getBytes, getRequired_some h, ok_bind]
  simp only [sizedBytes, hb, dite_true]

theorem getHash_bytes {d : Digest} (h : map.get key = some (.bytes d.bytes)) : getHash map key = .ok d := by
  rw [getHash, getBytes_bytes h d.size]
  rfl

theorem getHashOpt_bytes {o : Option Digest} (h : map.get key = o.map fun d => .bytes d.bytes) :
    getHashOpt map key = .ok o := by
  rw [getHashOpt, getBytesOpt, h]
  cases o with
  | none => rfl
  | some d =>
    simp only [Option.map_some, sizedBytes, d.size, dite_true, map_ok, ok_bind]
    rfl

theorem getTransferId_bytes {t : TransferId} (h : map.get "transfer_id" = some (.bytes t.bytes)) :
    getTransferId map = .ok t := by
  rw [getTransferId, getBytes_bytes h t.size]
  rfl

theorem getStrArray_texts {l : List String} (h : map.get key = some (.array (l.map .text))) : getStrArray map key = .ok l := by
  rw [getStrArray, h]
  exact mapM_map fun _ _ => rfl

theorem getUintArrayOpt_uints {o : Option (List Nat)} (h : map.get key = o.map fun l => .array (l.map uintToValue))
    (ho : ∀ l ∈ o, ∀ n ∈ l, n < 2 ^ 32) : getUintArrayOpt map key = .ok o := by
  rw [getUintArrayOpt, h]
  cases o with
  | none => rfl
  | some l =>
    simp only [Option.map_some]
    rw [mapM_map, map_ok]
    intro n hn
    simp only [uintToValue, asU32_ofNat (ho l rfl n hn)]

theorem parseVersionArray_version {v : ProtocolVersion} (h : map.get "protocol_version" = some (makeVersionArray v))
    (hmajor : v.major < 2 ^ 32) (hminor : v.minor < 2 ^ 32) : parseVersionArray map = .ok v := by
  rw [parseVersionArray, getRequired_some h, ok_bind]
  simp only [makeVersionArray, uintToValue, versionNumber, ok_bind, asU32_ofNat hmajor, asU32_ofNat hminor, pure_eq_ok]

end

/-! ## What is read -/

section

variable {map : CborMap} {key : String}

theorem asU32_lt {v : Int} : asU32 v < 2 ^ 32 := by
  unfold asU32
  omega

theorem asU64_lt {v : Int} : asU64 v < 2 ^ 64 := by
  unfold asU64
  omega

theorem getUint_ok {n : Nat} (h : getUint map key = .ok n) :
    ∃ i : Integer, map.get key = some (.integer i) ∧ 0 ≤ i.val ∧ n = asU64 i.val := by
  simp only [getUint, bind_eq_ok] at h
  obtain ⟨v, hv, h⟩ := h
  rw [getRequired] at hv
  split at hv <;> cases hv
  rename_i hget
  split at h
  · rename_i i
    split at h <;> cases h
    rename_i hsign
    exact ⟨i, hget, by omega, rfl⟩
  · cases h

theorem getU32_ok {n : Nat} (h : getU32 map key = .ok n) :
    ∃ i : Integer, map.get key = some (.integer i) ∧ 0 ≤ i.val ∧ n = asU32 i.val := by
  simp only [getU32, bind_eq_ok, pure_eq_ok, Except.ok.injEq] at h
  obtain ⟨k, hk, rfl⟩ := h
  obtain ⟨i, hget, hsign, rfl⟩ := getUint_ok hk
  have hi := i.upper
  refine ⟨i, hget, hsign, ?_⟩
  rw [asU32, asU32, asU64]
  omega

theorem getUintOpt_ok {o : Option Nat} (h : getUintOpt map key = .ok o) :
    (map.get key = none ∧ o = none) ∨
      ∃ i : Integer, map.get key = some (.integer i) ∧ 0 ≤ i.val ∧ o = some (asU64 i.val) := by
  rw [getUintOpt] at h
  split at h
  · rename_i hget
    cases h
    exact .inl ⟨hget, rfl⟩
  · rename_i i hget
    split at h <;> cases h
    exact .inr ⟨i, hget, by omega, rfl⟩
  · cases h

theorem getUintArrayOpt_ok {o : Option (List Nat)} (h : getUintArrayOpt map key = .ok o) :
    (map.get key = none ∧ o = none) ∨
      ∃ is : List Integer, map.get key = some (.array (is.map .integer)) ∧ o = some (is.map fun i => asU32 i.val) := by
  rw [getUintArrayOpt] at h
  split at h
  · rename_i hget
    cases h
    exact .inl ⟨hget, rfl⟩
  · rename_i items hget
    rw [map_eq_ok] at h
    obtain ⟨ns, hns, rfl⟩ := h
    refine .inr ?_
    rw [hget]
    have hall := mapM_eq_ok hns
    clear hget hns
    induction hall with
    | nil => exact ⟨[], rfl, rfl⟩
    | cons hv _ ih =>
      obtain ⟨is, his, hns⟩ := ih
      split at hv <;> cases hv
      rename_i i
      simp only [Option.some.injEq, Value.array.injEq] at his hns
      exact ⟨i :: is, by rw [his, List.map_cons], by rw [hns, List.map_cons]⟩
  · cases h

theorem parseVersionArray_ok {v : ProtocolVersion} (h : parseVersionArray map = .ok v) :
    ∃ a b : Integer, map.get "protocol_version" = some (.array [.integer a, .integer b]) ∧
      v = ⟨asU32 a.val, asU32 b.val⟩ := by
  simp only [parseVersionArray, bind_eq_ok] at h
  obtain ⟨w, hw, h⟩ := h
  rw [getRequired] at hw
  split at hw <;> cases hw
  rename_i hget
  split at h
  · rename_i a b
    simp only [bind_eq_ok, pure_eq_ok, Except.ok.injEq] at h
    obtain ⟨major, ha, minor, hb, rfl⟩ := h
    unfold versionNumber at ha hb
    split at ha <;> cases ha
    split at hb <;> cases hb
    exact ⟨_, _, hget, rfl⟩
  · cases h

theorem getUint_lt {n : Nat} (h : getUint map key = .ok n) : n < 2 ^ 64 := by
  obtain ⟨i, -, -, rfl⟩ := getUint_ok h
  exact asU64_lt

theorem getU32_lt {n : Nat} (h : getU32 map key = .ok n) : n < 2 ^ 32 := by
  obtain ⟨i, -, -, rfl⟩ := getU32_ok h
  exact asU32_lt

theorem getUintOpt_lt {o : Option Nat} (h : getUintOpt map key = .ok o) : ∀ n ∈ o, n < 2 ^ 64 := by
  intro n hn
  rcases getUintOpt_ok h with ⟨-, rfl⟩ | ⟨i, -, -, rfl⟩
  · cases hn
  · cases hn
    exact asU64_lt

theorem getUintArrayOpt_lt {o : Option (List Nat)} (h : getUintArrayOpt map key = .ok o) : ∀ l ∈ o, ∀ n ∈ l, n < 2 ^ 32 := by
  intro l hl n hn
  rcases getUintArrayOpt_ok h with ⟨-, rfl⟩ | ⟨is, -, rfl⟩
  · cases hl
  · cases hl
    obtain ⟨i, -, rfl⟩ := List.mem_map.mp hn
    exact asU32_lt

end

end Nxfr.Codec

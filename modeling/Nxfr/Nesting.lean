/-
What `check_nesting_depth` (`nxfr-core/src/codec.rs`) lets pass: the values
without a tag and without a node below the greatest depth, where the keys of a
map are nodes as its values are. The encoder builds no others.
-/
import Nxfr.RoundTrip

namespace Nxfr.Codec

open Cbor

/-- A node of a value, with its depth: the value itself, or a node of one of its
parts. -/
inductive NodeAt : Value → Nat → Value → Prop
  | self : NodeAt v 0 v
  | item : item ∈ items → NodeAt item d n → NodeAt (.array items) (d + 1) n
  | key : (k, w) ∈ entries → NodeAt k d n → NodeAt (.map entries) (d + 1) n
  | value : (k, w) ∈ entries → NodeAt w d n → NodeAt (.map entries) (d + 1) n
  | inner : NodeAt w d n → NodeAt (.tag number w) (d + 1) n

def isTag : Value → Bool
  | .tag _ _ => true
  | _ => false

/-- No tag, and no node deeper than `bound`. -/
def Within (bound : Nat) (v : Value) : Prop := ∀ d n, NodeAt v d n → d ≤ bound ∧ isTag n = false

theorem checkItems_iff {items : List Value} {depth : Nat} :
    checkItems items depth = .ok () ↔ ∀ v ∈ items, Shallow depth v := by
  refine ⟨fun h => ?_, checkItems_ok⟩
  induction items with
  | nil => simp
  | cons item items ih =>
    rw [checkItems, bind_eq_ok] at h
    obtain ⟨_, hitem, hrest⟩ := h
    intro v hv
    rcases List.mem_cons.mp hv with heq | hv
    · exact heq ▸ hitem
    · exact ih hrest v hv

theorem checkEntries_iff {entries : List (Value × Value)} {depth : Nat} :
    checkEntries entries depth = .ok () ↔ ∀ e ∈ entries, Shallow depth e.1 ∧ Shallow depth e.2 := by
  refine ⟨fun h => ?_, checkEntries_ok⟩
  induction entries with
  | nil => simp
  | cons entry entries ih =>
    obtain ⟨k, v⟩ := entry
    rw [checkEntries, bind_eq_ok] at h
    obtain ⟨_, hk, h⟩ := h
    rw [bind_eq_ok] at h
    obtain ⟨_, hv, hrest⟩ := h
    intro e he
    rcases List.mem_cons.mp he with heq | he
    · rw [heq]
      exact ⟨hk, hv⟩
    · exact ih hrest e he

/-- What a node of the parts says of a node of the whole. -/
theorem within_array_iff {items : List Value} {depth : Nat} :
    (∀ d n, NodeAt (.array items) d n → depth + d ≤ maxCborNesting ∧ isTag n = false) ↔
      depth ≤ maxCborNesting ∧
        ∀ item ∈ items, ∀ d n, NodeAt item d n → depth + 1 + d ≤ maxCborNesting ∧ isTag n = false := by
  constructor
  · intro h
    refine ⟨(h 0 _ .self).1, fun item hitem d n hn => ?_⟩
    obtain ⟨hle, htag⟩ := h (d + 1) n (.item hitem hn)
    exact ⟨by omega, htag⟩
  · intro ⟨hle, h⟩ d n hn
    cases hn with
    | self => exact ⟨hle, rfl⟩
    | item hitem hn =>
      obtain ⟨hle', htag⟩ := h _ hitem _ _ hn
      exact ⟨by omega, htag⟩

theorem within_map_iff {entries : List (Value × Value)} {depth : Nat} :
    (∀ d n, NodeAt (.map entries) d n → depth + d ≤ maxCborNesting ∧ isTag n = false) ↔
      depth ≤ maxCborNesting ∧ ∀ e ∈ entries,
        (∀ d n, NodeAt e.1 d n → depth + 1 + d ≤ maxCborNesting ∧ isTag n = false) ∧
        ∀ d n, NodeAt e.2 d n → depth + 1 + d ≤ maxCborNesting ∧ isTag n = false := by
  constructor
  · intro h
    refine ⟨(h 0 _ .self).1, fun e he => ⟨fun d n hn => ?_, fun d n hn => ?_⟩⟩
    · obtain ⟨hle, htag⟩ := h (d + 1) n (.key he hn)
      exact ⟨by omega, htag⟩
    · obtain ⟨hle, htag⟩ := h (d + 1) n (.value he hn)
      exact ⟨by omega, htag⟩
  · intro ⟨hle, h⟩ d n hn
    cases hn with
    | self => exact ⟨hle, rfl⟩
    | key he hn =>
      obtain ⟨hle', htag⟩ := (h _ he).1 _ _ hn
      exact ⟨by omega, htag⟩
    | value he hn =>
      obtain ⟨hle', htag⟩ := (h _ he).2 _ _ hn
      exact ⟨by omega, htag⟩

/-- A value without parts is its only node. -/
theorem shallow_leaf_iff {v : Value} {depth : Nat} (htag : isTag v = false) (hself : ∀ d n, NodeAt v d n → d = 0 ∧ n = v)
    (hcheck : checkNestingDepth v depth = if depth > maxCborNesting then .error (.nestingTooDeep depth) else .ok ()) :
    Shallow depth v ↔ ∀ d n, NodeAt v d n → depth + d ≤ maxCborNesting ∧ isTag n = false := by
  rw [Shallow, hcheck]
  constructor
  · intro h d n hn
    obtain ⟨hd, heq⟩ := hself d n hn
    split at h
    · cases h
    · rename_i hle
      rw [hd, heq]
      exact ⟨by omega, htag⟩
  · intro h
    have := (h 0 v .self).1
    exact if_neg (by omega)

/-- The check at a depth, over the structure of the value. -/
theorem shallow_iff (v : Value) (depth : Nat) :
    Shallow depth v ↔ ∀ d n, NodeAt v d n → depth + d ≤ maxCborNesting ∧ isTag n = false := by
  match v with
  | .array items =>
    rw [within_array_iff, Shallow, checkNestingDepth]
    split
    · rename_i h
      simp only [reduceCtorEq, false_iff, not_and]
      omega
    · rename_i h
      rw [checkItems_iff]
      have hparts : (∀ item ∈ items, Shallow (depth + 1) item) ↔ ∀ item ∈ items, ∀ d n, NodeAt item d n →
          depth + 1 + d ≤ maxCborNesting ∧ isTag n = false :=
        forall₂_congr fun item hitem =>
          have := List.sizeOf_lt_of_mem hitem
          shallow_iff item (depth + 1)
      rw [hparts, and_iff_right (by omega)]
  | .map entries =>
    rw [within_map_iff, Shallow, checkNestingDepth]
    split
    · rename_i h
      simp only [reduceCtorEq, false_iff, not_and]
      omega
    · rename_i h
      rw [checkEntries_iff]
      have hparts : (∀ e ∈ entries, Shallow (depth + 1) e.1 ∧ Shallow (depth + 1) e.2) ↔ ∀ e ∈ entries,
          (∀ d n, NodeAt e.1 d n → depth + 1 + d ≤ maxCborNesting ∧ isTag n = false) ∧
          ∀ d n, NodeAt e.2 d n → depth + 1 + d ≤ maxCborNesting ∧ isTag n = false :=
        forall₂_congr fun e he => by
          have hlt := List.sizeOf_lt_of_mem he
          have hsize : sizeOf e = 1 + sizeOf e.1 + sizeOf e.2 := rfl
          exact and_congr (shallow_iff e.1 (depth + 1)) (shallow_iff e.2 (depth + 1))
      rw [hparts, and_iff_right (by omega)]
  | .tag number w =>
    refine iff_of_false ?_ fun h => ?_
    · rw [Shallow, checkNestingDepth]
      split <;> simp
    · have := (h 0 _ .self).2
      simp [isTag] at this
  | .integer _ | .bytes _ | .float _ | .text _ | .bool _ | .null =>
    refine shallow_leaf_iff rfl (fun d n hn => ?_) (by simp [checkNestingDepth])
    cases hn
    exact ⟨rfl, rfl⟩
termination_by sizeOf v

/-- **What the depth check lets pass.** A value passes exactly where it has no tag
and no node deeper than the greatest depth, and the value of every message does. -/
theorem nesting_checked :
    (∀ v, checkNestingDepth v 0 = .ok () ↔ Within maxCborNesting v) ∧
      ∀ m map, encodeToMap m = .ok map →
        Within maxCborNesting (mapToValue map) ∧ checkNestingDepth (mapToValue map) 0 = .ok () := by
  have hcheck : ∀ v, checkNestingDepth v 0 = .ok () ↔ Within maxCborNesting v := by
    intro v
    simpa only [Shallow, Nat.zero_add, Within] using shallow_iff v 0
  refine ⟨hcheck, fun m map h => ?_⟩
  have hshallow : checkNestingDepth (mapToValue map) 0 = .ok () := shallow_mapToValue (by decide) (encodeToMap_shallow h)
  exact ⟨(hcheck _).mp hshallow, hshallow⟩

end Nxfr.Codec

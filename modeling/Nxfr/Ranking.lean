/-
The first of a list by a key, the greatest first. `ranked` orders a list;
keeping the first `k` each time an element is added keeps the first `k` of all
that were added (`take_ranked_cons`).
-/
import Mathlib.Data.List.Sort

namespace Ranking

variable {α β κ : Type} [LinearOrder κ]

/-- Of two elements the first does not come after the second. -/
def Above (key : α → κ) (a b : α) : Prop := key b ≤ key a

instance (key : α → κ) : DecidableRel (Above key) := fun a b => inferInstanceAs (Decidable (key b ≤ key a))

instance (key : α → κ) : Std.Total (Above key) := ⟨fun a b => le_total (key b) (key a)⟩

instance (key : α → κ) : IsTrans α (Above key) := ⟨fun _ _ _ hab hbc => le_trans hbc hab⟩

/-- The list in the order of the keys, the greatest first. -/
def ranked (key : α → κ) (xs : List α) : List α := xs.insertionSort (Above key)

variable {key : α → κ}

theorem ranked_perm (key : α → κ) (xs : List α) : (ranked key xs).Perm xs := List.perm_insertionSort _ _

theorem ranked_pairwise (key : α → κ) (xs : List α) : (ranked key xs).Pairwise (Above key) :=
  List.pairwise_insertionSort _ _

theorem ranked_map {key' : β → κ} {f : α → β} (hf : ∀ a, key' (f a) = key a) (xs : List α) :
    ranked key' (xs.map f) = (ranked key xs).map f := by
  refine (List.map_insertionSort (Above key) (Above key') f xs ?_).symm
  intro a _ b _
  rw [Above, Above, hf, hf]

/-- A list is in order in one way only, when its keys are distinct. -/
theorem ranked_eq {xs ys : List α} (hperm : ys.Perm xs) (horder : ys.Pairwise (Above key))
    (hkeys : ∀ a ∈ xs, ∀ b ∈ xs, key a = key b → a = b) : ranked key xs = ys := by
  have hsame : (ranked key xs).Perm ys := (ranked_perm key xs).trans hperm.symm
  refine List.Perm.eq_of_pairwise ?_ (ranked_pairwise key xs) horder hsame
  intro a b ha hb hab hba
  exact hkeys a ((ranked_perm key xs).subset ha) b (hperm.subset hb) (le_antisymm hba hab)

theorem take_orderedInsert {x : α} (k : Nat) (xs : List α) :
    ((xs.take k).orderedInsert (Above key) x).take k = (xs.orderedInsert (Above key) x).take k := by
  induction xs generalizing k with
  | nil => simp
  | cons y ys ih =>
    cases k with
    | zero => simp
    | succ k =>
      rw [List.take_succ_cons, List.orderedInsert_cons, List.orderedInsert_cons]
      split
      · simp only [List.take_succ_cons]
        cases k with
        | zero => simp
        | succ k => simp [List.take_take]
      · simp only [List.take_succ_cons, ih]

/-- The first `k` of what is kept and a new element are the first `k` of all. -/
theorem take_ranked_cons {k : Nat} {xs ys : List α} (h : ranked key ys = (ranked key xs).take k) (x : α) :
    (ranked key (x :: ys)).take k = (ranked key (x :: xs)).take k := by
  have hys : ranked key (x :: ys) = (ranked key ys).orderedInsert (Above key) x := rfl
  have hxs : ranked key (x :: xs) = (ranked key xs).orderedInsert (Above key) x := rfl
  rw [hys, hxs, h, take_orderedInsert]

/-- In the order, strictly. -/
theorem ranked_strict {xs : List α} (hkeys : (xs.map key).Nodup) :
    (ranked key xs).Pairwise fun a b => key b < key a := by
  have hnodup : ((ranked key xs).map key).Nodup := ((ranked_perm key xs).map key).nodup_iff.mpr hkeys
  have hne : (ranked key xs).Pairwise fun a b => key a ≠ key b := List.pairwise_map.mp hnodup
  refine ((ranked_pairwise key xs).and hne).imp ?_
  intro a b hab
  exact lt_of_le_of_ne hab.1 hab.2.symm

/-- What shares the mark of one of the first `k`, when the marks are distinct,
is one of them. -/
theorem filter_mem_take {μ : Type} [DecidableEq μ] {mark : α → μ} {xs : List α} (hmarks : (xs.map mark).Nodup) (k : Nat) :
    (xs.filter fun a => decide (mark a ∈ (xs.take k).map mark)) = xs.take k := by
  induction xs generalizing k with
  | nil => simp
  | cons x xs ih =>
    rw [List.map_cons, List.nodup_cons] at hmarks
    cases k with
    | zero => simp
    | succ k =>
      have hother : ∀ a ∈ xs, (mark a ∈ mark x :: (xs.take k).map mark) ↔ mark a ∈ (xs.take k).map mark := by
        intro a ha
        have hne : mark a ≠ mark x := fun heq => hmarks.1 (heq ▸ List.mem_map_of_mem ha)
        simp [hne]
      have hrest : (xs.filter fun a => decide (mark a ∈ mark x :: (xs.take k).map mark)) = xs.take k := by
        rw [← ih hmarks.2 k]
        exact List.filter_congr fun a ha => by simp only [hother a ha, ih hmarks.2 k]
      rw [List.take_succ_cons, List.map_cons, List.filter_cons_of_pos (by simp), hrest]

end Ranking

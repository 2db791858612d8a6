/-
Looking for a needle in a list that comes piece by piece. `find` gives the
first place where the needle stands; what has come so far may end within it,
so a place is ruled out only when the needle would have ended before the end
of what has come (`FirstAt.of_front`, `At.front`).
-/
import Mathlib.Data.List.Basic

namespace Delimited

variable {α : Type}

/-- The needle stands at a position. -/
def At (needle xs : List α) (p : Nat) : Prop := needle <+: xs.drop p

/-- The first position where the needle stands. -/
def FirstAt (needle xs : List α) (p : Nat) : Prop := At needle xs p ∧ ∀ q, q < p → ¬ At needle xs q

variable {needle xs ys : List α} {p q : Nat}

theorem At.length_le (h : At needle xs p) (hne : needle ≠ []) : p + needle.length ≤ xs.length := by
  have hlen := List.IsPrefix.length_le h
  have hpos := List.length_pos_iff.mpr hne
  rw [List.length_drop] at hlen
  omega

theorem At.append (h : At needle xs p) (hne : needle ≠ []) (ys : List α) : At needle (xs ++ ys) p := by
  have hle := h.length_le hne
  have hdrop : (xs ++ ys).drop p = xs.drop p ++ ys := List.drop_append_of_le_length (by omega)
  rw [At, hdrop]
  exact h.trans (List.prefix_append _ _)

/-- A needle that ends within the front stands in the front. -/
theorem At.front (h : At needle (xs ++ ys) p) (hlen : p + needle.length ≤ xs.length) : At needle xs p := by
  have hdrop : (xs ++ ys).drop p = xs.drop p ++ ys := List.drop_append_of_le_length (by omega)
  rw [At, hdrop] at h
  exact List.prefix_of_prefix_length_le h (List.prefix_append _ _) (by rw [List.length_drop]; omega)

theorem at_append_left : At needle (xs ++ ys) (xs.length + p) ↔ At needle ys p := by
  have hdrop : (xs ++ ys).drop (xs.length + p) = ys.drop p := by
    rw [← List.drop_drop, List.drop_left]
  rw [At, At, hdrop]

theorem FirstAt.unique (h : FirstAt needle xs p) (h' : FirstAt needle xs q) : p = q := by
  rcases Nat.lt_trichotomy p q with hlt | heq | hlt
  · exact absurd h.1 (h'.2 p hlt)
  · exact heq
  · exact absurd h'.1 (h.2 q hlt)

/-- The first position in the front is the first of all. -/
theorem FirstAt.of_front (h : FirstAt needle xs p) (hne : needle ≠ []) (ys : List α) : FirstAt needle (xs ++ ys) p := by
  refine ⟨h.1.append hne ys, ?_⟩
  intro q hq hat
  have hle := h.1.length_le hne
  exact h.2 q hq (hat.front (by omega))

theorem FirstAt.front (h : FirstAt needle (xs ++ ys) p) (hne : needle ≠ []) (hlen : p + needle.length ≤ xs.length) :
    FirstAt needle xs p := by
  refine ⟨h.1.front hlen, ?_⟩
  intro q hq hat
  exact h.2 q hq (hat.append hne ys)

variable [DecidableEq α]

/-- The first position of the needle, computed. -/
def find (needle : List α) : List α → Option Nat
  | [] => if needle = [] then some 0 else none
  | x :: xs => if needle.isPrefixOf (x :: xs) then some 0 else (find needle xs).map (· + 1)

theorem find_some (h : find needle xs = some p) : FirstAt needle xs p := by
  induction xs generalizing p with
  | nil =>
    simp only [find] at h
    split at h
    · rename_i hneedle
      cases h
      exact ⟨by simp [At, hneedle], fun q hq => absurd hq (Nat.not_lt_zero q)⟩
    · cases h
  | cons x xs ih =>
    simp only [find] at h
    split at h
    · rename_i hpre
      cases h
      exact ⟨by simpa [At] using List.isPrefixOf_iff_prefix.mp hpre, fun q hq => absurd hq (Nat.not_lt_zero q)⟩
    · rename_i hpre
      obtain ⟨m, hm, rfl⟩ := Option.map_eq_some_iff.mp h
      obtain ⟨hat, hfirst⟩ := ih hm
      refine ⟨by simpa [At] using hat, ?_⟩
      intro q hq hatq
      cases q with
      | zero => exact hpre (List.isPrefixOf_iff_prefix.mpr (by simpa [At] using hatq))
      | succ q => exact hfirst q (by omega) (by simpa [At] using hatq)

theorem find_none (h : find needle xs = none) (p : Nat) : ¬ At needle xs p := by
  intro hat
  induction xs generalizing p with
  | nil =>
    simp only [find] at h
    split at h
    · cases h
    · rename_i hneedle
      exact hneedle (by simpa [At] using hat)
  | cons x xs ih =>
    simp only [find] at h
    split at h
    · cases h
    · rename_i hpre
      cases p with
      | zero => exact hpre (List.isPrefixOf_iff_prefix.mpr (by simpa [At] using hat))
      | succ p => exact ih (by simpa using h) p (by simpa [At] using hat)

theorem find_eq_some : find needle xs = some p ↔ FirstAt needle xs p := by
  constructor
  · exact find_some
  · intro h
    cases hfind : find needle xs with
    | none => exact absurd h.1 (find_none hfind p)
    | some q => rw [(find_some hfind).unique h]

theorem find_eq_none : find needle xs = none ↔ ∀ p, ¬ At needle xs p := by
  constructor
  · exact find_none
  · intro h
    cases hfind : find needle xs with
    | none => rfl
    | some q => exact absurd (find_some hfind).1 (h q)

end Delimited

/-
A list of the last few different things, the latest first.

What is pushed goes to the front, away from where it was, and the list is cut to a
length. Things may also be dropped from it, or all of them. After any run the list is
short, has no thing twice and stands in the order of the last pushes; and a thing stays
in it until it is dropped or as many others are pushed as there is room for.
-/
import Mathlib.Data.List.Dedup
import Mathlib.Data.List.Perm.Subperm
import Nxfr.History

namespace Recency

inductive Op (α : Type) where
  | push (a : α)
  | drop (a : α)
  | clear

section

variable {α : Type} [DecidableEq α]

def push (n : Nat) (a : α) (l : List α) : List α := (a :: l.erase a).take n

def step (n : Nat) (l : List α) : Op α → List α
  | .push a => push n a l
  | .drop a => l.erase a
  | .clear => []

/-- The list after the operations, from an empty one. -/
def run (n : Nat) (ops : List (Op α)) : List α := History.after (step n) [] ops

omit [DecidableEq α] in
/-- The last push of `x` came after every push of `y`. -/
def Later (ops : List (Op α)) (x y : α) : Prop := ∃ before after, ops = before ++ .push x :: after ∧ .push y ∉ after

/-- The things other than `a` that are pushed, once each. -/
def others (a : α) (ops : List (Op α)) : List α :=
  (ops.filterMap fun | .push b => if b = a then none else some b | _ => none).dedup

variable {n : Nat} {ops : List (Op α)} {op : Op α} {l front rest : List α} {a b x y : α}

/-! ## The list -/

theorem length_step (h : l.length ≤ n) : (step n l op).length ≤ n := by
  cases op with
  | push a => exact List.length_take_le n _
  | drop a => exact Nat.le_trans List.length_erase_le h
  | clear => exact Nat.zero_le n

theorem nodup_step (h : l.Nodup) : (step n l op).Nodup := by
  cases op with
  | push a =>
    refine List.Nodup.sublist (List.take_sublist n _) (List.nodup_cons.mpr ⟨?_, h.erase a⟩)
    exact h.not_mem_erase
  | drop a => exact h.erase a
  | clear => exact List.nodup_nil

theorem mem_push (h : x ∈ push n a l) : x = a ∨ x ∈ l := by
  rcases List.mem_cons.mp (List.mem_of_mem_take h) with hx | hx
  · exact .inl hx
  · exact .inr (List.mem_of_mem_erase hx)

/-! ## The order -/

omit [DecidableEq α] in
theorem Later.snoc (h : Later ops x y) (hop : op ≠ .push y) : Later (ops ++ [op]) x y := by
  obtain ⟨before, after, rfl, hy⟩ := h
  refine ⟨before, after ++ [op], by simp, ?_⟩
  rw [List.mem_append, List.mem_singleton]
  exact fun h => h.elim hy fun heq => hop heq.symm

theorem later_step (hnodup : l.Nodup) (h : l.Pairwise (Later ops)) :
    (step n l op).Pairwise (Later (ops ++ [op])) := by
  cases op with
  | push a =>
    refine List.Pairwise.sublist (List.take_sublist n _) (List.pairwise_cons.mpr ⟨fun y hy => ?_, ?_⟩)
    · exact ⟨ops, [], rfl, by simp⟩
    · have herase := h.sublist (List.erase_sublist (a := a))
      refine herase.imp_of_mem fun hx hy hlater => hlater.snoc ?_
      intro heq
      cases heq
      exact hnodup.not_mem_erase hy
  | drop a => exact (h.sublist List.erase_sublist).imp fun hlater => hlater.snoc (by simp)
  | clear => exact List.Pairwise.nil

/-! ## What stays -/

theorem mem_others : b ∈ others a ops ↔ b ≠ a ∧ .push b ∈ ops := by
  unfold others
  rw [List.mem_dedup, List.mem_filterMap]
  constructor
  · intro h
    obtain ⟨op, hop, heq⟩ := h
    cases op with
    | push c =>
      simp only at heq
      split at heq
      · cases heq
      · rename_i hne
        cases heq
        exact ⟨hne, hop⟩
    | drop c => cases heq
    | clear => cases heq
  · intro h
    exact ⟨.push b, h.2, by simp [h.1]⟩

/-- A thing, behind some of those that were pushed since. -/
def Behind (a : α) (since : List (Op α)) (l : List α) : Prop :=
  ∃ front rest, l = front ++ a :: rest ∧ front.Nodup ∧ a ∉ front ∧ ∀ b ∈ front, .push b ∈ since

theorem Behind.length_front {since : List (Op α)} (hnodup : front.Nodup) (hfront : a ∉ front)
    (hsince : ∀ b ∈ front, Op.push b ∈ since) : front.length ≤ (others a since).length := by
  refine (hnodup.subperm fun b hb => ?_).length_le
  exact mem_others.mpr ⟨fun heq => hfront (heq ▸ hb), hsince b hb⟩

omit [DecidableEq α] in
theorem Behind.mem {since : List (Op α)} (h : Behind a since l) : a ∈ l := by
  obtain ⟨front, rest, rfl, -⟩ := h
  simp

theorem behind_push (h : 0 < n) : Behind a [] (push n a l) := by
  obtain ⟨n, rfl⟩ : ∃ m, n = m + 1 := ⟨n - 1, by omega⟩
  exact ⟨[], (l.erase a).take n, rfl, List.nodup_nil, by simp, by simp⟩

theorem Behind.step {since : List (Op α)} (h : Behind a since l) (hdrop : op ≠ .drop a) (hclear : op ≠ .clear)
    (hfew : (others a (since ++ [op])).length < n) : Behind a (since ++ [op]) (step n l op) := by
  obtain ⟨front, rest, rfl, hnodup, hfront, hsince⟩ := h
  have hmem : ∀ b ∈ front, .push b ∈ since ++ [op] := fun b hb => List.mem_append_left _ (hsince b hb)
  cases op with
  | push b =>
    by_cases hba : b = a
    · subst hba
      obtain ⟨m, rfl⟩ : ∃ m, n = m + 1 := ⟨n - 1, by omega⟩
      exact ⟨[], _, rfl, List.nodup_nil, by simp, by simp⟩
    · -- What is pushed goes before the front, and is no longer in it.
      have hnew : (b :: front.erase b).Nodup := List.nodup_cons.mpr ⟨hnodup.not_mem_erase, hnodup.erase b⟩
      have hout : a ∉ b :: front.erase b := by
        rw [List.mem_cons]
        exact fun h => h.elim (fun heq => hba heq.symm) fun hmem => hfront (List.mem_of_mem_erase hmem)
      have hpushed : ∀ c ∈ b :: front.erase b, .push c ∈ since ++ [.push b] := by
        intro c hc
        rcases List.mem_cons.mp hc with rfl | hc
        · simp
        · exact hmem c (List.mem_of_mem_erase hc)
      have hlen := Behind.length_front hnew hout hpushed
      have hlist : ∃ rest', b :: (front ++ a :: rest).erase b = (b :: front.erase b) ++ a :: rest' := by
        by_cases hin : b ∈ front
        · exact ⟨rest, by rw [List.erase_append_left _ hin, List.cons_append]⟩
        · refine ⟨rest.erase b, ?_⟩
          rw [List.erase_append_right _ hin, List.erase_of_not_mem hin,
            List.erase_cons_tail (by simpa using Ne.symm hba), List.cons_append]
      obtain ⟨rest', hlist⟩ := hlist
      refine ⟨b :: front.erase b, rest'.take (n - (b :: front.erase b).length - 1), ?_, hnew, hout, hpushed⟩
      rw [Recency.step, push, hlist, List.take_append, List.take_of_length_le (by omega)]
      obtain ⟨m, hm⟩ : ∃ m, n - (b :: front.erase b).length = m + 1 := ⟨n - (b :: front.erase b).length - 1, by omega⟩
      rw [hm]
      rfl
  | drop b =>
    have hba : b ≠ a := fun heq => hdrop (by rw [heq])
    by_cases hin : b ∈ front
    · refine ⟨front.erase b, rest, ?_, hnodup.erase b, fun h => hfront (List.mem_of_mem_erase h), fun c hc => ?_⟩
      · exact List.erase_append_left _ hin
      · exact hmem c (List.mem_of_mem_erase hc)
    · refine ⟨front, rest.erase b, ?_, hnodup, hfront, hmem⟩
      rw [Recency.step, List.erase_append_right _ hin, List.erase_cons_tail (by simpa using Ne.symm hba)]
  | clear => exact absurd rfl hclear

/-! ## A run -/

/-- A list of at most `n` different things that were pushed, the latest first. -/
structure Recent (n : Nat) (ops : List (Op α)) (l : List α) : Prop where
  length : l.length ≤ n
  nodup : l.Nodup
  order : l.Pairwise (Later ops)
  pushed : ∀ a ∈ l, .push a ∈ ops

theorem run_recent (n : Nat) (ops : List (Op α)) : Recent n ops (run n ops) := by
  have hstart : Recent n ([] : List (Op α)) [] := ⟨Nat.zero_le n, List.nodup_nil, List.Pairwise.nil, by simp⟩
  refine History.after_induction (I := fun ops l => Recent n ops l) hstart ?_ ops
  intro ops op h
  refine ⟨length_step h.length, nodup_step h.nodup, later_step h.nodup h.order, fun a ha => ?_⟩
  cases op with
  | push b =>
    rcases mem_push ha with rfl | ha
    · simp
    · exact List.mem_append_left _ (h.pushed a ha)
  | drop b => exact List.mem_append_left _ (h.pushed a (List.mem_of_mem_erase ha))
  | clear => cases ha

theorem others_append {ops' : List (Op α)} : (others a ops).length ≤ (others a (ops ++ ops')).length := by
  refine ((List.nodup_dedup _).subperm fun b hb => ?_).length_le
  obtain ⟨hne, hmem⟩ := mem_others.mp hb
  exact mem_others.mpr ⟨hne, List.mem_append_left _ hmem⟩

/-- What was pushed is there as long as it is not dropped and fewer than `n` others
were pushed since. -/
theorem run_stays {before after : List (Op α)} (hdrop : .drop a ∉ after) (hclear : .clear ∉ after)
    (hfew : (others a after).length < n) : a ∈ run n (before ++ .push a :: after) := by
  have hrun : run n (before ++ .push a :: after) = History.after (step n) (push n a (run n before)) after :=
    History.after_middle
  rw [hrun]
  suffices Behind a after (History.after (step n) (push n a (run n before)) after) from this.mem
  refine History.after_induction
    (I := fun after l => .drop a ∉ after → .clear ∉ after → (others a after).length < n → Behind a after l)
    (fun _ _ hfew => behind_push (Nat.zero_lt_of_lt hfew)) ?_ after hdrop hclear hfew
  intro after op ih hdrop hclear hfew
  have hbehind := ih (fun h => hdrop (List.mem_append_left _ h)) (fun h => hclear (List.mem_append_left _ h))
    (Nat.lt_of_le_of_lt others_append hfew)
  exact hbehind.step (fun heq => hdrop (by simp [heq])) (fun heq => hclear (by simp [heq])) hfew

end

end Recency

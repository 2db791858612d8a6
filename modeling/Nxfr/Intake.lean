/-
Taking in the items of a list that was agreed on. Items come one at a time:
one is announced, then taken or given up; at some point the taker declares
that it is done.

`Step` is a step of a taker that only lets an item be announced while the
list has one more of it than was taken, and only declares itself done where
`mayFinish` allows it. What is taken is then part of the list, and all of it
once as many are taken as the list has.
-/
import Mathlib.Data.List.Count
import Mathlib.Logic.Relation

namespace Intake

variable {α : Type} [DecidableEq α]

structure State (α : Type) where
  current : Option α
  taken : List α
  done : Bool

variable (agreed : List α) (mayFinish : List α → Prop)

inductive Step : State α → State α → Prop
  | announce {s : State α} {a : α} (h : s.taken.count a < agreed.count a) : Step s { s with current := some a }
  | giveUp {s : State α} : Step s { s with current := none }
  | take {s : State α} {a : α} (h : s.current = some a) : Step s { s with current := none, taken := s.taken ++ [a] }
  | finish {s : State α} (h : mayFinish s.taken) : Step s { s with done := true }

abbrev Steps : State α → State α → Prop := Relation.ReflTransGen (Step agreed mayFinish)

/-- What holds of every state: the item under way is still wanted, what is
taken is part of the list, and nothing was declared too early. -/
structure Agrees (s : State α) : Prop where
  wanted : ∀ a, s.current = some a → s.taken.count a < agreed.count a
  within : s.taken.Subperm agreed
  timely : s.done = true → ∃ l, l <+: s.taken ∧ mayFinish l

variable {agreed mayFinish} {s s' : State α}

theorem Agrees.start (h : s.current = none) (ht : s.taken = []) (hd : s.done = false) : Agrees agreed mayFinish s where
  wanted a ha := by simp [h] at ha
  within := by simp [ht]
  timely := by simp [hd]

theorem Agrees.step (ha : Agrees agreed mayFinish s) (h : Step agreed mayFinish s s') : Agrees agreed mayFinish s' := by
  cases h with
  | announce hlt =>
    refine ⟨fun b hb => ?_, ha.within, ha.timely⟩
    simp only [Option.some.injEq] at hb
    rwa [← hb]
  | giveUp => exact ⟨fun b hb => by simp at hb, ha.within, ha.timely⟩
  | take hcur =>
    rename_i a
    have hlt := ha.wanted a hcur
    refine ⟨fun b hb => by simp at hb, ?_, fun hd => ?_⟩
    · rw [List.subperm_ext_iff]
      intro b _
      have hle := ha.within.count_le b
      rw [List.count_append, List.count_singleton]
      by_cases hab : a = b
      · subst hab
        simp only [beq_self_eq_true, if_true]
        omega
      · simpa [hab] using hle
    · obtain ⟨l, hl, hm⟩ := ha.timely hd
      exact ⟨l, hl.trans (List.prefix_append _ _), hm⟩
  | finish hm => exact ⟨ha.wanted, ha.within, fun _ => ⟨s.taken, List.prefix_rfl, hm⟩⟩

theorem Agrees.steps (ha : Agrees agreed mayFinish s) (h : Steps agreed mayFinish s s') : Agrees agreed mayFinish s' := by
  induction h with
  | refl => exact ha
  | tail _ hstep ih => exact ih.step hstep

/-- A taker that waits until as many are taken as the list has is done only
when it has them all. -/
theorem Agrees.complete (ha : Agrees agreed mayFinish s) (hm : ∀ l, mayFinish l → agreed.length ≤ l.length)
    (hd : s.done = true) {a : α} (h : a ∈ agreed) : a ∈ s.taken := by
  obtain ⟨l, hl, hfin⟩ := ha.timely hd
  have hlen := hm l hfin
  have hgrow := hl.length_le
  exact (ha.within.perm_of_length_le (by omega)).mem_iff.mpr h

end Intake

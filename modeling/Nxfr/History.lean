/-
A machine that takes one event after another, and what is remembered of its
run.

The state after a list of events says nothing of how it came about. `Once`
does: at some point of the run a condition held of the state and of the event
that came next; `Always` says the same of every point. An invariant may speak
of the state and of the events, and `after_induction` is its rule.
-/
import Mathlib.Data.List.Induction

namespace History

variable {σ ε : Type} (step : σ → ε → σ) (start : σ)

/-- The state after the events, in order. -/
def after (es : List ε) : σ := es.foldl step start

/-- At some point of the run `P` held of the state and the next event. -/
def Once (P : σ → ε → Prop) (es : List ε) : Prop :=
  ∃ es₁ e es₂, es = es₁ ++ e :: es₂ ∧ P (after step start es₁) e

/-- At every point of the run `P` held of the state and the next event. -/
def Always (P : σ → ε → Prop) (es : List ε) : Prop :=
  ∀ es₁ e es₂, es = es₁ ++ e :: es₂ → P (after step start es₁) e

variable {step start}

theorem after_snoc {es : List ε} {e : ε} : after step start (es ++ [e]) = step (after step start es) e := by
  simp [after]

theorem after_append {es es' : List ε} : after step start (es ++ es') = after step (after step start es) es' := by
  simp [after]

theorem after_middle {es es' : List ε} {e : ε} :
    after step start (es ++ e :: es') = after step (step (after step start es) e) es' := by
  simp [after]

theorem Once.snoc {P : σ → ε → Prop} {es : List ε} (h : Once step start P es) (e : ε) :
    Once step start P (es ++ [e]) := by
  obtain ⟨es₁, e₁, es₂, rfl, hP⟩ := h
  exact ⟨es₁, e₁, es₂ ++ [e], by simp, hP⟩

theorem Once.now {P : σ → ε → Prop} {es : List ε} {e : ε} (h : P (after step start es) e) :
    Once step start P (es ++ [e]) :=
  ⟨es, e, [], rfl, h⟩

theorem Once.imp {P Q : σ → ε → Prop} {es : List ε} (h : Once step start P es) (hPQ : ∀ s e, P s e → Q s e) :
    Once step start Q es := by
  obtain ⟨es₁, e, es₂, hes, hP⟩ := h
  exact ⟨es₁, e, es₂, hes, hPQ _ _ hP⟩

/-- What happened once is an event of the run. -/
theorem Once.mem {P : σ → ε → Prop} {es : List ε} (h : Once step start P es) : ∃ e ∈ es, ∃ s, P s e := by
  obtain ⟨es₁, e, es₂, rfl, hP⟩ := h
  exact ⟨e, by simp, _, hP⟩

theorem Always.of_forall {P : σ → ε → Prop} {es : List ε} (h : ∀ e ∈ es, ∀ s, P s e) : Always step start P es := by
  intro es₁ e es₂ hes
  exact h e (by simp [hes]) _

/-- A condition that can be computed, along a run. -/
def holds (step : σ → ε → σ) (p : σ → ε → Bool) : σ → List ε → Bool
  | _, [] => true
  | s, e :: es => p s e && holds step p (step s e) es

theorem Always.of_holds {P : σ → ε → Prop} {p : σ → ε → Bool} (hp : ∀ s e, p s e = true → P s e) {es : List ε}
    (h : holds step p start es = true) : Always step start P es := by
  intro es₁ e es₂ hes
  subst hes
  refine hp _ _ ?_
  induction es₁ generalizing start with
  | nil => exact (Bool.and_eq_true_iff.mp h).1
  | cons e₁ es₁ ih => exact ih (Bool.and_eq_true_iff.mp h).2

theorem Always.of_append {P : σ → ε → Prop} {es es' : List ε} (h : Always step start P (es ++ es')) :
    Always step start P es := by
  intro es₁ e es₂ hes
  exact h es₁ e (es₂ ++ es') (by simp [hes])

/-- The rest of a run, from the state it starts in. -/
theorem Always.rest {P : σ → ε → Prop} {es es' : List ε} (h : Always step start P (es ++ es')) :
    Always step (after step start es) P es' := by
  intro es₁ e es₂ hes
  rw [← after_append]
  exact h (es ++ es₁) e es₂ (by simp [hes])

theorem Always.head {P : σ → ε → Prop} {es : List ε} {e : ε} (h : Always step start P (e :: es)) : P start e :=
  h [] e es rfl

theorem Always.tail {P : σ → ε → Prop} {es : List ε} {e : ε} (h : Always step start P (e :: es)) :
    Always step (step start e) P es := by
  intro es₁ e₁ es₂ hes
  exact h (e :: es₁) e₁ es₂ (by rw [hes, List.cons_append])

theorem Always.last {P : σ → ε → Prop} {es : List ε} {e : ε} (h : Always step start P (es ++ [e])) :
    P (after step start es) e :=
  h es e [] rfl

/-- What the start has and every event keeps, the history being known, holds
after every run. -/
theorem after_induction {I : List ε → σ → Prop} (hstart : I [] start)
    (hstep : ∀ es e, I es (after step start es) → I (es ++ [e]) (step (after step start es) e)) (es : List ε) :
    I es (after step start es) := by
  induction es using List.reverseRecOn with
  | nil => exact hstart
  | append_singleton es e ih => exact after_snoc ▸ hstep es e ih

/-- What the start has and every event that may happen keeps, holds after
every run of such events. -/
theorem Always.keeps {P : σ → ε → Prop} {I : σ → Prop} (hstart : I start)
    (hstep : ∀ s e, P s e → I s → I (step s e)) {es : List ε} (h : Always step start P es) : I (after step start es) := by
  refine after_induction (I := fun es s => Always step start P es → I s) (fun _ => hstart) ?_ es h
  intro es e ih h
  exact hstep _ e h.last (ih h.of_append)

end History

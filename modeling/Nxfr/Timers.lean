/-
Machines that arm and disarm timers.

A machine takes a state and an event to the next state and a list of actions,
or refuses the event. Some actions start or cancel a timer, some events are
the firing of one. A configuration is a state with the set of armed timers;
where each state has timers that belong to it, a machine is disciplined along
a run when in every configuration exactly these are armed.
`Timed.disciplined_iff` reduces that to single transitions.
-/
import Mathlib.Data.Finset.Basic
import Nxfr.History

namespace Timers

open History

/-- What an action does to the timers. -/
inductive Op (τ : Type) where
  | start (t : τ)
  | cancel (t : τ)

variable {σ ε α κ τ : Type} [DecidableEq τ]

def Op.apply (armed : Finset τ) : Op τ → Finset τ
  | .start t => insert t armed
  | .cancel t => armed.erase t

/-- A machine, what its actions do to the timers, and which events are the
firing of one. -/
structure Timed (σ ε α κ τ : Type) where
  handle : σ → ε → Except κ (σ × List α)
  op : α → Option (Op τ)
  fires : ε → Option τ

namespace Timed

variable (m : Timed σ ε α κ τ)

/-- The armed timers after an event and the actions it leads to: a timer that
has fired is no longer armed. -/
def timers (armed : Finset τ) (e : ε) (actions : List α) : Finset τ :=
  let armed := match m.fires e with
    | some t => armed.erase t
    | none => armed
  (actions.filterMap m.op).foldl Op.apply armed

/-- One event; one that is refused changes nothing. -/
def step (c : σ × Finset τ) (e : ε) : σ × Finset τ := match m.handle c.1 e with
  | .ok (s, actions) => (s, m.timers c.2 e actions)
  | .error _ => c

/-- An event that is accepted leads from the timers of the state to those of
the next. -/
def Keeps (belongs : σ → Finset τ) (s : σ) (e : ε) : Prop :=
  ∀ s' actions, m.handle s e = .ok (s', actions) → m.timers (belongs s) e actions = belongs s'

/-- The same, computed. -/
def keeps (belongs : σ → Finset τ) (s : σ) (e : ε) : Bool := match m.handle s e with
  | .ok (s', actions) => decide (m.timers (belongs s) e actions = belongs s')
  | .error _ => true

variable {m}

theorem keeps_iff {belongs : σ → Finset τ} {s : σ} {e : ε} : m.Keeps belongs s e ↔ m.keeps belongs s e = true := by
  unfold Keeps keeps
  cases m.handle s e with
  | error _ => simp
  | ok r =>
    obtain ⟨s', actions⟩ := r
    simp

/-- **A run is disciplined when its transitions are.** From a state with its
own timers armed, over any events, all configurations have the timers of their
state armed if and only if every event keeps them. -/
theorem disciplined_iff {belongs : σ → Finset τ} {s₀ : σ} {es : List ε} :
    (∀ es₁, es₁ <+: es → (after m.step (s₀, belongs s₀) es₁).2 = belongs (after m.step (s₀, belongs s₀) es₁).1) ↔
      Always m.step (s₀, belongs s₀) (fun c e => m.Keeps belongs c.1 e) es := by
  constructor
  · intro h es₁ e es₂ hes s' actions hstep
    have hbefore := h es₁ ⟨e :: es₂, hes.symm⟩
    have hafter := h (es₁ ++ [e]) ⟨es₂, by simp [hes]⟩
    rw [after_snoc] at hafter
    generalize after m.step (s₀, belongs s₀) es₁ = c at hstep hbefore hafter
    simpa only [step, hstep, hbefore] using hafter
  · intro h es₁ hpre
    obtain ⟨es₂, rfl⟩ := hpre
    refine h.of_append.keeps (I := fun c : σ × Finset τ => c.2 = belongs c.1) rfl ?_
    intro c e hkeep hc
    unfold step
    split
    · rename_i s' actions hstep
      rw [hc]
      exact hkeep s' actions hstep
    · exact hc

end Timed

end Timers

/-
Two session machines that are both in ACTIVE, joined by what they send.

SESSION_CLOSE is accepted in CLOSING only. A side that is still in ACTIVE
refuses it, so that a session ends by messages alone exactly when both sides
have closed it on their own before the other's SESSION_CLOSE arrives.
-/
import Nxfr.Peers
import Nxfr.SessionMachine

namespace Nxfr.SessionMachine

open History Peers

/-- The machine, with SESSION_CLOSE as what one side sends the other. -/
def sessionMachine : Machine SessionState SessionEvent SessionAction StateError where
  handle := sessionHandleEvent
  sends
    | .sendSessionClose => some .sessionCloseReceived
    | _ => none

/-- What happens on one side alone. -/
inductive Local where
  | close
  | loss
  deriving DecidableEq

def Local.event : Local → SessionEvent
  | .close => .sessionCloseSent
  | .loss => .connectionLost

abbrev SessionNet := Net SessionState SessionEvent
abbrev SessionMove := Move Local Local

def pairStep : SessionNet → SessionMove → SessionNet := sessionMachine.step Local.event Local.event

/-- Both sides have reached ACTIVE and nothing is under way. -/
def bothActive : SessionNet := ⟨.active, .active, [], []⟩

/-- The move delivers nothing, or the machine accepts what it delivers. -/
def Accepted (net : SessionNet) (mv : SessionMove) : Prop :=
  ∀ s e, net.delivery mv = some (s, e) → ∃ r, sessionHandleEvent s e = .ok r

/-- The move delivers nothing, or it delivers to a side in CLOSING. -/
def MeetsClosing (net : SessionNet) (mv : SessionMove) : Prop :=
  ∀ s e, net.delivery mv = some (s, e) → s = .closing

/-- No connection is lost in these moves. -/
def Lossless (ms : List SessionMove) : Prop := Move.left .loss ∉ ms ∧ Move.right .loss ∉ ms

/-! ## What is under way -/

theorem take_sends (s : SessionState) (e : SessionEvent) :
    ∀ e' ∈ (sessionMachine.take s e).2, e' = .sessionCloseReceived := by
  cases e with
  | timerFired t => cases s <;> cases t <;> decide
  | helloReceived deviceId isPaired => cases s <;> intro e' h <;> cases h
  | helloAckReceived deviceId sessionId isPaired => cases s <;> intro e' h <;> cases h
  | _ => cases s <;> decide

/-- SESSION_CLOSE is the only message to the right. -/
def ClosesOnly (net : SessionNet) : Prop := ∀ e ∈ net.toRight, e = .sessionCloseReceived

theorem ClosesOnly.step {net : SessionNet} (h : ClosesOnly net) (mv : SessionMove) : ClosesOnly (pairStep net mv) := by
  intro e he
  cases mv with
  | left own =>
    rcases List.mem_append.mp he with he | he
    · exact h e he
    · exact take_sends _ _ e he
  | right own => exact h e he
  | toRight =>
    cases hto : net.toRight with
    | nil => exact h e (by simpa only [pairStep, Machine.step_toRight_nil hto] using he)
    | cons e₁ rest =>
      rw [pairStep, Machine.step_toRight hto] at he
      exact h e (hto ▸ List.mem_cons_of_mem _ he)
  | toLeft =>
    cases hto : net.toLeft with
    | nil => exact h e (by simpa only [pairStep, Machine.step, hto] using he)
    | cons e₁ rest =>
      simp only [pairStep, Machine.step, hto, List.mem_append] at he
      rcases he with he | he
      · exact h e he
      · exact take_sends _ _ e he

/-- A run seen from the other side. -/
theorem after_swap (ms : List SessionMove) :
    after pairStep bothActive (ms.map Move.swap) = (after pairStep bothActive ms).swap := by
  induction ms using List.reverseRecOn with
  | nil => rfl
  | append_singleton ms mv ih =>
    rw [List.map_append, List.map_singleton, after_snoc, after_snoc, ih]
    exact Machine.step_swap _ mv

theorem closesOnly_after (ms : List SessionMove) : ClosesOnly (after pairStep bothActive ms) :=
  after_induction (I := fun _ net => ClosesOnly net) (by intro e he; cases he) (fun _ mv h => h.step mv) ms

theorem delivery_close {ms : List SessionMove} {mv : SessionMove} {s : SessionState} {e : SessionEvent}
    (h : (after pairStep bothActive ms).delivery mv = some (s, e)) : e = .sessionCloseReceived := by
  cases mv with
  | left own => cases h
  | right own => cases h
  | toRight =>
    simp only [Net.delivery, Option.map_eq_some_iff, Prod.mk.injEq] at h
    obtain ⟨e', he, -, rfl⟩ := h
    exact closesOnly_after ms e' (List.mem_of_mem_head? he)
  | toLeft =>
    simp only [Net.delivery, Option.map_eq_some_iff, Prod.mk.injEq] at h
    obtain ⟨e', he, -, rfl⟩ := h
    have hswap := closesOnly_after (ms.map Move.swap) e'
    rw [after_swap] at hswap
    exact hswap (List.mem_of_mem_head? he)

theorem close_accepted_iff (s : SessionState) :
    (∃ r, sessionHandleEvent s .sessionCloseReceived = .ok r) ↔ s = .closing := by
  cases s <;> simp [sessionHandleEvent]

/-! ## Runs without a loss -/

/-- The right side has been told as much as the left side has done: nothing is
under way from a side in ACTIVE, and once it has left that state its
SESSION_CLOSE is under way or has closed the other side. -/
def Told (net : SessionNet) : Prop :=
  net.left = .active ∧ net.toRight = [] ∨
    net.left ≠ .active ∧
      (net.toRight = [.sessionCloseReceived] ∨ net.toRight = [] ∧ net.right = .closed)

theorem take_close (s : SessionState) :
    sessionMachine.take s .sessionCloseSent = if s = .active then (.closing, [.sessionCloseReceived]) else (s, []) := by
  cases s <;> rfl

theorem take_received_closing : sessionMachine.take .closing .sessionCloseReceived = (.closed, []) := rfl

theorem Told.step {net : SessionNet} {mv : SessionMove} (h : Told net) (hleft : ∀ e ∈ net.toLeft, e = .sessionCloseReceived)
    (hmeets : MeetsClosing net mv) (hl : mv ≠ .left .loss) (hr : mv ≠ .right .loss) : Told (pairStep net mv) := by
  obtain ⟨left, right, toRight, toLeft⟩ := net
  cases mv with
  | left own =>
    cases own with
    | loss => exact absurd rfl hl
    | close =>
      simp only [pairStep, Machine.step, Local.event, take_close]
      rcases h with ⟨rfl, rfl⟩ | ⟨hne, h⟩
      · exact .inr ⟨SessionState.noConfusion, .inl rfl⟩
      · simp only at hne h
        rw [if_neg hne, List.append_nil]
        exact .inr ⟨hne, h⟩
  | right own =>
    cases own with
    | loss => exact absurd rfl hr
    | close =>
      simp only [pairStep, Machine.step, Local.event, take_close]
      rcases h with h | ⟨hne, hto | ⟨hto, hclosed⟩⟩
      · exact .inl h
      · exact .inr ⟨hne, .inl hto⟩
      · refine .inr ⟨hne, .inr ⟨hto, ?_⟩⟩
        simp only at hclosed
        rw [hclosed]
        rfl
  | toRight =>
    rcases h with ⟨hact, hto⟩ | ⟨hne, hto | ⟨hto, hclosed⟩⟩
    · rw [pairStep, Machine.step_toRight_nil hto]
      exact .inl ⟨hact, hto⟩
    · obtain rfl : toRight = [.sessionCloseReceived] := hto
      obtain rfl := hmeets right .sessionCloseReceived rfl
      exact .inr ⟨hne, .inr ⟨rfl, rfl⟩⟩
    · rw [pairStep, Machine.step_toRight_nil hto]
      exact .inr ⟨hne, .inr ⟨hto, hclosed⟩⟩
  | toLeft =>
    cases toLeft with
    | nil => exact h
    | cons e rest =>
      obtain rfl := hleft e (by simp)
      obtain rfl := hmeets left .sessionCloseReceived rfl
      simp only [pairStep, Machine.step, take_received_closing, List.append_nil]
      rcases h with ⟨hact, -⟩ | ⟨-, h⟩
      · cases hact
      · exact .inr ⟨SessionState.noConfusion, h⟩

theorem MeetsClosing.swap {net : SessionNet} {mv : SessionMove} (h : MeetsClosing net mv) :
    MeetsClosing net.swap mv.swap := by
  intro s e hdel
  exact h s e (Net.delivery_swap net mv ▸ hdel)

/-- In a run without a loss whose messages all find a side in CLOSING, each
side has been told of the other. -/
theorem told_after {ms : List SessionMove} (hloss : Lossless ms) (h : Always pairStep bothActive MeetsClosing ms) :
    Told (after pairStep bothActive ms) ∧ Told (after pairStep bothActive ms).swap := by
  refine after_induction (I := fun ms net => Lossless ms → Always pairStep bothActive MeetsClosing ms →
    Told net ∧ Told net.swap) (fun _ _ => ⟨.inl ⟨rfl, rfl⟩, .inl ⟨rfl, rfl⟩⟩) ?_ ms hloss h
  intro ms mv ih hloss h
  simp only [Lossless, List.mem_append, List.mem_singleton, not_or] at hloss
  obtain ⟨⟨hl, hl'⟩, ⟨hr, hr'⟩⟩ := hloss
  obtain ⟨hleft, hright⟩ := ih ⟨hl, hr⟩ h.of_append
  have hcloses := closesOnly_after ms
  have hcloses' := closesOnly_after (ms.map Move.swap)
  rw [after_swap] at hcloses'
  refine ⟨hleft.step hcloses' h.last (Ne.symm hl') (Ne.symm hr'), ?_⟩
  rw [pairStep, ← Machine.step_swap]
  refine hright.step hcloses h.last.swap ?_ ?_
  · intro hmv
    exact hr' (by cases mv <;> cases hmv; rfl)
  · intro hmv
    exact hl' (by cases mv <;> cases hmv; rfl)

/-- **A session closes by messages exactly when both sides close it.** In any
order of closes, deliveries and losses, every SESSION_CLOSE that is delivered
is accepted and, as long as no connection is lost, both sides are in CLOSED
once one has left ACTIVE and nothing is under way, if and only if every
SESSION_CLOSE arrives at a side that is in CLOSING already. -/
theorem closes_accepted_iff (ms : List SessionMove) :
    (Always pairStep bothActive Accepted ms ∧
      ∀ ms₁, ms₁ <+: ms → Lossless ms₁ →
        (after pairStep bothActive ms₁).left ≠ .active ∨ (after pairStep bothActive ms₁).right ≠ .active →
        (after pairStep bothActive ms₁).toRight = [] → (after pairStep bothActive ms₁).toLeft = [] →
        (after pairStep bothActive ms₁).left = .closed ∧ (after pairStep bothActive ms₁).right = .closed) ↔
      Always pairStep bothActive MeetsClosing ms := by
  constructor
  · intro ⟨h, _⟩ ms₁ mv ms₂ hms s e hdel
    have haccepted := h ms₁ mv ms₂ hms s e hdel
    rw [delivery_close hdel] at haccepted
    exact (close_accepted_iff s).mp haccepted
  · intro h
    constructor
    · intro ms₁ mv ms₂ hms s e hdel
      rw [delivery_close hdel, close_accepted_iff]
      exact h ms₁ mv ms₂ hms s e hdel
    · intro ms₁ ⟨ms₂, hms⟩ hloss hleft htoRight htoLeft
      subst hms
      obtain ⟨hfirst, hsecond⟩ := told_after hloss h.of_append
      generalize after pairStep bothActive ms₁ = net at hfirst hsecond hleft htoRight htoLeft
      simp only [Told, Net.swap, htoRight, htoLeft] at hfirst hsecond
      grind

/-- One side closes; its SESSION_CLOSE reaches the other in ACTIVE and is
refused. -/
theorem close_refused :
    ¬ Accepted (after pairStep bothActive [.left .close]) .toRight ∧
      after pairStep bothActive [.left .close, .toRight] = ⟨.closing, .active, [], []⟩ := by
  constructor
  · intro h
    obtain ⟨r, hr⟩ := h .active .sessionCloseReceived rfl
    cases hr
  · decide

end Nxfr.SessionMachine

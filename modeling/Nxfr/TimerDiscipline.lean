/-
Which timers are armed along the runs of the two state machines.

Each state has at most one timer, started on the way in and cancelled on the
way out, and both machines keep to that on most of their ordinary transitions.
But the timer of `Active`, the only state that `KeepaliveTimeout` may fire in,
is never started. And the shortcuts that leave any state for a fatal error, a
lost connection, a cancelled transfer or an incompatible version cancel nothing,
so a timer stays armed in a state that is over.
-/
import Nxfr.Timers
import Nxfr.TransferMachine

namespace Nxfr

open History Timers

namespace SessionMachine

/-- The machine with its timers. -/
def sessionTimed : Timed SessionState SessionEvent SessionAction StateError SessionTimer where
  handle := sessionHandleEvent
  op
    | .startTimer t => some (.start t)
    | .cancelTimer t => some (.cancel t)
    | _ => none
  fires
    | .timerFired t => some t
    | _ => none

/-- The timer of each state. -/
def SessionState.timers : SessionState → Finset SessionTimer
  | .connecting => {.tlsHandshake}
  | .helloWait => {.helloExchange}
  | .pairing => {.pairingSas}
  | .active => {.keepaliveTimeout}
  | .closing => {.closeGrace}
  | .disconnected | .established | .closed => ∅

/-- The event leads to `Active`, whose timer is not started. -/
def SessionState.activates (state : SessionState) (event : SessionEvent) : Bool := match state, event with
  | .established, .mutuallyPaired | .established, .unpairedSessionAccepted => true
  | .pairing, .pairAcceptReceived => true
  | _, _ => false

/-- The event leaves a state that has a timer without cancelling it: an
incompatible version, the close of an active session, or a fatal error or the
loss of the connection. -/
def SessionState.abandons (state : SessionState) (event : SessionEvent) : Bool := match state, event with
  | .helloWait, .incompatibleVersion => true
  | .active, .sessionCloseSent => true
  | .connecting, .fatalErrorReceived | .helloWait, .fatalErrorReceived | .pairing, .fatalErrorReceived
  | .active, .fatalErrorReceived | .closing, .fatalErrorReceived => true
  | .connecting, .connectionLost | .helloWait, .connectionLost | .pairing, .connectionLost
  | .active, .connectionLost | .closing, .connectionLost => true
  | _, _ => false

end SessionMachine

namespace TransferMachine

def transferTimed : Timed TransferState TransferEvent TransferAction StateError TransferTimer where
  handle := transferHandleEvent
  op
    | .startTimer t => some (.start t)
    | .cancelTimer t => some (.cancel t)
    | _ => none
  fires
    | .timerFired t => some t
    | _ => none

def TransferState.timers : TransferState → Finset TransferTimer
  | .offered | .pending => {.consent}
  | .negotiating => {.negotiation}
  | .streaming => {.chunkAck}
  | .paused => {.pause}
  | .completing => {.completion}
  | .idle | .complete | .cancelled | .failed => ∅

/-- The event is one of the shortcuts out of an active state. -/
def TransferState.abandons (state : TransferState) (event : TransferEvent) : Bool :=
  state.isActive && (event == .cancelReceived || event == .fatalError || event == .connectionLost)

end TransferMachine

/-! ## Each transition -/

theorem session_keeps_iff (s : SessionMachine.SessionState) (e : SessionMachine.SessionEvent) :
    SessionMachine.sessionTimed.Keeps SessionMachine.SessionState.timers s e ↔
      s.activates e = false ∧ s.abandons e = false := by
  rw [Timed.keeps_iff]
  cases e with
  | timerFired t => cases s <;> cases t <;> decide
  | helloReceived deviceId isPaired => cases s <;> exact ⟨fun _ => ⟨rfl, rfl⟩, fun _ => rfl⟩
  | helloAckReceived deviceId sessionId isPaired => cases s <;> exact ⟨fun _ => ⟨rfl, rfl⟩, fun _ => rfl⟩
  | _ => cases s <;> decide

theorem transfer_keeps_iff (s : TransferMachine.TransferState) (e : TransferMachine.TransferEvent) :
    TransferMachine.transferTimed.Keeps TransferMachine.TransferState.timers s e ↔ s.abandons e = false := by
  rw [Timed.keeps_iff]
  cases e with
  | timerFired t => cases s <;> cases t <;> decide
  | _ => cases s <;> decide

/-! ## Runs -/

/-- Where the two machines start, no timer being armed. -/
def sessionStart : SessionMachine.SessionState × Finset SessionMachine.SessionTimer :=
  (.disconnected, SessionMachine.SessionState.timers .disconnected)

def transferStart : TransferMachine.TransferState × Finset TransferMachine.TransferTimer :=
  (.idle, TransferMachine.TransferState.timers .idle)

/-- **The timers of a state are armed exactly as long as no session becomes
active and no shortcut is taken.** Along any events of either machine, every
state reached has its own timer armed and no other, if and only if none of the
events leads to `Active` or is a shortcut out of a state with a timer. -/
theorem timers_disciplined_iff (es : List SessionMachine.SessionEvent) (es' : List TransferMachine.TransferEvent) :
    ((∀ es₁, es₁ <+: es → (after SessionMachine.sessionTimed.step sessionStart es₁).2 =
        (after SessionMachine.sessionTimed.step sessionStart es₁).1.timers) ↔
      Always SessionMachine.sessionTimed.step sessionStart
        (fun c e => c.1.activates e = false ∧ c.1.abandons e = false) es) ∧
    ((∀ es₁, es₁ <+: es' → (after TransferMachine.transferTimed.step transferStart es₁).2 =
        (after TransferMachine.transferTimed.step transferStart es₁).1.timers) ↔
      Always TransferMachine.transferTimed.step transferStart (fun c e => c.1.abandons e = false) es') := by
  constructor
  · rw [sessionStart, Timed.disciplined_iff]
    simp only [session_keeps_iff]
  · rw [transferStart, Timed.disciplined_iff]
    simp only [transfer_keeps_iff]

/-- A transfer is cancelled while it is offered, a connection is lost while it
waits for HELLO, and a session of paired devices becomes active. -/
theorem timer_left_armed :
    after TransferMachine.transferTimed.step transferStart [.sendTransferRequest, .cancelReceived] =
        (.cancelled, {.consent}) ∧
      after SessionMachine.sessionTimed.step sessionStart [.userConnect, .tlsEstablished, .connectionLost] =
        (.closed, {.helloExchange}) ∧
      after SessionMachine.sessionTimed.step sessionStart
          [.userConnect, .tlsEstablished, .helloReceived SessionMachine.zeroDeviceId true, .mutuallyPaired] = (.active, ∅) ∧
      SessionMachine.SessionState.timers .active = {.keepaliveTimeout} := by
  decide

end Nxfr

/-
The tiers of desert mode (`DesertModeOrchestrator`): Wi-Fi Direct, then a hotspot,
then a QR code.

The managers of Wi-Fi Direct and of the hotspot hold states that their callbacks
change at any time. The orchestrator launches coroutines that collect these states: a
collector is resumed some time after a change, with the value of then, and does
nothing with a value it was given last. `reset` and `teardown` cancel the collectors
they have a job of; of the collector of the client state that `startTier2` launches
there is none (`clientObservers`). `stale_silent_iff` says when no collector writes
over a state it has no part in.
-/
import Nxfr.History
import Nxfr.QrTicket

namespace Nxfr.DesertTiers

open CodeUnits QrTicket

structure P2pPeer where
  deviceAddress : Text
  deviceName : Text
  aid : Text
  port : Int
  deriving DecidableEq

inductive P2pState
  | idle
  | discovering
  | peersFound (peers : List P2pPeer)
  | forming
  | ready (isGO : Bool) (goIp iface : Text)
  | failed (reason : Text)
  deriving DecidableEq

inductive SoftApState
  | idle
  | starting
  | active (ssid : Text) (passphrase : Option Text) (hostIp : Text)
  | failed (reason : Text)
  deriving DecidableEq

inductive ClientJoinState
  | idle
  | connecting
  | connected (hostIp : Text)
  | failed (reason : Text)
  deriving DecidableEq

inductive DesertState
  | idle
  | locationRequired
  | tier1Scanning (secondsRemaining : Nat)
  | tier1PeersFound (peers : List P2pPeer)
  | tier1Connecting
  | tier2Hosting (ssid : Text) (passphrase : Option Text) (hostIp qrPayload : Text)
  | tier2Starting
  | tier2Joining
  | tier3QrFallback (reason : Text)
  | connected (peerIp : Text) (tier : Nat) (isGroupOwner : Bool)
  | failed (reason : Text)
  deriving DecidableEq

def DesertState.isScanning : DesertState → Bool
  | .tier1Scanning _ => true
  | _ => false

/-- The countdown, before its next second, or the wait for the hotspot. -/
inductive TierJob
  | countdown (remaining : Nat)
  | hostTimeout
  deriving DecidableEq

/-- What `softApObserverJob` collects, with the value it was given last. -/
inductive SoftApObserver
  | host (seen : Option SoftApState)
  | join (seen : Option ClientJoinState)
  deriving DecidableEq

/-- The orchestrator with the states of the managers, its jobs, the collectors without
a job, and whether `reset` or `teardown` was the last call. -/
structure Orchestrator where
  state : DesertState
  p2p : P2pState
  host : SoftApState
  client : ClientJoinState
  tierJob : Option TierJob
  p2pObserver : Option (Option P2pState)
  softApObserver : Option SoftApObserver
  clientObservers : List (Option ClientJoinState)
  resting : Bool
  deriving DecidableEq

def initial : Orchestrator := ⟨.idle, .idle, .idle, .idle, none, none, none, [], false⟩

/-- The calls, with the state the Wi-Fi Direct manager has after its part and the
reason `joinNetwork` fails for at once; the changes of the managers' states; and the
coroutines when they are resumed, with the reason `startHotspot` fails for at once. -/
inductive Event
  | start (located : Bool) (p2p : P2pState)
  | retryAfterLocation (p2p : P2pState)
  | connectToPeer (p2p : P2pState)
  | joinFromQr (refused : Option Text)
  | reset (p2p : P2pState)
  | teardown (p2p : P2pState)
  | p2p (p2p : P2pState)
  | host (host : SoftApState)
  | client (client : ClientJoinState)
  | collectP2p (refused : Option Text)
  | collectSoftAp
  | collectClient (i : Nat)
  | timer (p2p : P2pState) (refused : Option Text)
  deriving DecidableEq

namespace Orchestrator

def startTier1 (o : Orchestrator) (p2p : P2pState) : Orchestrator :=
  { o with state := .tier1Scanning 10, p2p := p2p, p2pObserver := some none, tierJob := some (.countdown 10) }

def startTier2 (o : Orchestrator) (refused : Option Text) : Orchestrator :=
  { o with
    state := .tier2Starting
    host := match refused with
      | none => .starting
      | some reason => .failed reason
    client := .idle
    softApObserver := some (.host none)
    clientObservers := o.clientObservers ++ [none]
    tierJob := some .hostTimeout }

/-- What `reset` and `teardown` have in common. -/
def halt (o : Orchestrator) (p2p : P2pState) : Orchestrator :=
  { o with
    state := .idle, p2p := p2p, host := .idle, client := .idle, tierJob := none, p2pObserver := none
    softApObserver := none, resting := true }

/-- The collector of the state of Wi-Fi Direct, given a state. -/
def onP2p (o : Orchestrator) (refused : Option Text) : P2pState → Orchestrator
  | .peersFound peers => if o.state.isScanning then { o with tierJob := none, state := .tier1PeersFound peers } else o
  | .forming => { o with state := .tier1Connecting }
  | .ready isGO goIp _ => { o with tierJob := none, state := .connected goIp 1 isGO }
  | .failed _ =>
    if o.state.isScanning || o.state = .tier1Connecting then startTier2 { o with tierJob := none } refused else o
  | _ => o

variable (encode : Text → Text)

/-- The collector of the state of the hotspot. -/
def onHost (o : Orchestrator) : SoftApState → Orchestrator
  | .active ssid passphrase hostIp =>
    { o with
      tierJob := none
      state := .tier2Hosting ssid passphrase hostIp (buildDesertQrPayload encode ssid passphrase hostIp) }
  | .failed reason => { o with tierJob := none, state := .tier3QrFallback reason }
  | _ => o

/-- The collector `joinFromQr` launches. -/
def onJoin (o : Orchestrator) : ClientJoinState → Orchestrator
  | .connected hostIp => { o with state := .connected hostIp 2 false }
  | .failed reason => { o with state := .failed (text "Failed to join network: " ++ reason) }
  | _ => o

/-- The collector of the client state that `startTier2` launches. -/
def onClient (o : Orchestrator) : ClientJoinState → Orchestrator
  | .connected hostIp => { o with tierJob := none, state := .connected hostIp 2 false }
  | _ => o

/-- The coroutine of `tierJob`, resumed. -/
def onTimer (o : Orchestrator) (p2p : P2pState) (refused : Option Text) : Option TierJob → Orchestrator
  | none => o
  | some (.countdown (n + 1)) =>
    if o.state.isScanning then { o with state := .tier1Scanning (n + 1), tierJob := some (.countdown n) }
    else { o with tierJob := none }
  | some (.countdown 0) =>
    if o.state.isScanning then startTier2 { o with p2p := p2p } refused else { o with tierJob := none }
  | some .hostTimeout =>
    if o.state = .tier2Starting then
      { o with tierJob := none, state := .tier3QrFallback (text "Hotspot failed to start within 8s") }
    else { o with tierJob := none }

def step (o : Orchestrator) : Event → Orchestrator
  | .start located p2p =>
    if located then startTier1 { o with resting := false } p2p
    else { o with state := .locationRequired, resting := false }
  | .retryAfterLocation p2p => startTier1 { o with resting := false } p2p
  | .connectToPeer p2p => { o with state := .tier1Connecting, p2p := p2p, resting := false }
  | .joinFromQr refused =>
    { o with
      state := .tier2Joining
      host := .idle
      client := match refused with
        | none => .connecting
        | some reason => .failed reason
      softApObserver := some (.join none)
      resting := false }
  | .reset p2p => o.halt p2p
  | .teardown p2p => o.halt p2p
  | .p2p p2p => { o with p2p := p2p }
  | .host host => { o with host := host }
  | .client client => { o with client := client }
  | .collectP2p refused => match o.p2pObserver with
    | none => o
    | some seen =>
      if seen = some o.p2p then o else onP2p { o with p2pObserver := some (some o.p2p) } refused o.p2p
  | .collectSoftAp => match o.softApObserver with
    | none => o
    | some (.host seen) =>
      if seen = some o.host then o
      else onHost encode { o with softApObserver := some (.host (some o.host)) } o.host
    | some (.join seen) =>
      if seen = some o.client then o
      else onJoin { o with softApObserver := some (.join (some o.client)) } o.client
  | .collectClient i => match o.clientObservers[i]? with
    | none => o
    | some seen =>
      if seen = some o.client then o
      else onClient { o with clientObservers := o.clientObservers.set i (some o.client) } o.client
  | .timer p2p refused => onTimer o p2p refused o.tierJob

end Orchestrator

/-! ## What is to hold -/

/-- The tier whose manager an event comes from. -/
def Event.tier : Event → Option Nat
  | .p2p _ => some 1
  | .collectP2p _ => some 1
  | .host _ => some 2
  | .client _ => some 2
  | .collectSoftAp => some 2
  | .collectClient _ => some 2
  | _ => none

/-- After a `reset` or a `teardown` the state is `Idle` until the next call, and no
event of another tier changes a state that is connected. -/
structure Silent (encode : Text → Text) (o : Orchestrator) (e : Event) : Prop where
  rests : (o.step encode e).resting = true → (o.step encode e).state = .idle
  connected : ∀ peerIp tier isGO, o.state = .connected peerIp tier isGO →
    ∀ t, e.tier = some t → t ≠ tier → (o.step encode e).state = o.state

def P2pState.isSpoken : P2pState → Bool
  | .forming => true
  | .ready _ _ _ => true
  | _ => false

def SoftApState.isSpoken : SoftApState → Bool
  | .active _ _ _ => true
  | .failed _ => true
  | _ => false

def ClientJoinState.isConnected : ClientJoinState → Bool
  | .connected _ => true
  | _ => false

def ClientJoinState.isSpoken : ClientJoinState → Bool
  | .connected _ => true
  | .failed _ => true
  | _ => false

/-- A collector that runs is given a value that is new to it and that it writes into
the state whatever the state is. -/
def Orchestrator.speaks (o : Orchestrator) : Event → Bool
  | .collectP2p _ => match o.p2pObserver with
    | none => false
    | some seen => seen != some o.p2p && o.p2p.isSpoken
  | .collectSoftAp => match o.softApObserver with
    | none => false
    | some (.host seen) => seen != some o.host && o.host.isSpoken
    | some (.join seen) => seen != some o.client && o.client.isSpoken
  | .collectClient i => match o.clientObservers[i]? with
    | none => false
    | some seen => seen != some o.client && o.client.isConnected
  | _ => false

/-- What speaks does so neither at rest nor into the connection of another tier. -/
def Quiet (o : Orchestrator) (e : Event) : Prop :=
  o.speaks e = true →
    o.resting = false ∧ ∀ peerIp tier isGO, o.state = .connected peerIp tier isGO → e.tier = some tier

section

variable {encode : Text → Text} {o : Orchestrator} {e : Event} {refused : Option Text} {p2p : P2pState}

/-! ## What a collector writes -/

theorem onP2p_resting : (o.onP2p refused p2p).resting = o.resting := by
  cases p2p <;> simp only [Orchestrator.onP2p] <;> try rfl
  all_goals split <;> rfl

theorem onHost_resting {host : SoftApState} : (o.onHost encode host).resting = o.resting := by
  cases host <;> rfl

theorem onJoin_resting {client : ClientJoinState} : (o.onJoin client).resting = o.resting := by
  cases client <;> rfl

theorem onClient_resting {client : ClientJoinState} : (o.onClient client).resting = o.resting := by
  cases client <;> rfl

theorem onTimer_resting {job : Option TierJob} : (o.onTimer p2p refused job).resting = o.resting := by
  unfold Orchestrator.onTimer
  split <;> (try rfl) <;> split <;> rfl

/-- An event that comes from a manager is no call. -/
theorem step_resting (h : e.tier ≠ none) : (o.step encode e).resting = o.resting := by
  cases e with
  | collectP2p refused =>
    simp only [Orchestrator.step]
    split
    · rfl
    · split
      · rfl
      · exact onP2p_resting
  | collectSoftAp =>
    simp only [Orchestrator.step]
    split
    · rfl
    · split
      · rfl
      · exact onHost_resting
    · split
      · rfl
      · exact onJoin_resting
  | collectClient i =>
    simp only [Orchestrator.step]
    split
    · rfl
    · split
      · rfl
      · exact onClient_resting
  | p2p | host | client => rfl
  | start | retryAfterLocation | connectToPeer | joinFromQr | reset | teardown | timer => exact absurd rfl h

/-- What speaks leaves the state neither idle nor connected through another tier. -/
theorem speaks_writes (encode : Text → Text) (h : o.speaks e = true) :
    e.tier ≠ none ∧ (o.step encode e).state ≠ .idle ∧
      ∀ peerIp tier isGO, (o.step encode e).state = .connected peerIp tier isGO → e.tier = some tier := by
  cases e with
  | collectP2p refused =>
    simp only [Orchestrator.speaks] at h
    split at h
    · cases h
    · rename_i seen hseen
      rw [Bool.and_eq_true, bne_iff_ne] at h
      simp only [Orchestrator.step, hseen, if_neg h.1, Event.tier]
      generalize o.p2p = value at h
      cases value with
      | forming => simp [Orchestrator.onP2p]
      | ready isGO goIp iface => simp [Orchestrator.onP2p]
      | idle | discovering | peersFound | failed => cases h.2
  | collectSoftAp =>
    simp only [Orchestrator.speaks] at h
    split at h
    · cases h
    · rename_i seen hseen
      rw [Bool.and_eq_true, bne_iff_ne] at h
      simp only [Orchestrator.step, hseen, if_neg h.1, Event.tier]
      generalize o.host = value at h
      cases value with
      | active ssid passphrase hostIp => simp [Orchestrator.onHost]
      | failed reason => simp [Orchestrator.onHost]
      | idle | starting => cases h.2
    · rename_i seen hseen
      rw [Bool.and_eq_true, bne_iff_ne] at h
      simp only [Orchestrator.step, hseen, if_neg h.1, Event.tier]
      generalize o.client = value at h
      cases value with
      | connected hostIp => simp [Orchestrator.onJoin]
      | failed reason => simp [Orchestrator.onJoin]
      | idle | connecting => cases h.2
  | collectClient i =>
    simp only [Orchestrator.speaks] at h
    split at h
    · cases h
    · rename_i seen hseen
      rw [Bool.and_eq_true, bne_iff_ne] at h
      simp only [Orchestrator.step, hseen, if_neg h.1, Event.tier]
      generalize o.client = value at h
      cases value with
      | connected hostIp => simp [Orchestrator.onClient]
      | failed | idle | connecting => cases h.2
  | start | retryAfterLocation | connectToPeer | joinFromQr | reset | teardown | p2p | host | client | timer => cases h

/-- Wi-Fi Direct is not being looked through and no peer of it is being connected. -/
def Settled (o : Orchestrator) : Prop := o.state.isScanning = false ∧ o.state ≠ .tier1Connecting

theorem onP2p_settled (h : p2p.isSpoken = false) (hs : Settled o) : (o.onP2p refused p2p).state = o.state := by
  cases p2p with
  | idle | discovering => rfl
  | peersFound peers => rw [Orchestrator.onP2p, if_neg (by simp [hs.1])]
  | failed reason => rw [Orchestrator.onP2p, if_neg (by simp [hs.1, hs.2])]
  | forming | ready => cases h

/-- An event of a manager that does not speak leaves a settled state. -/
theorem unspoken (encode : Text → Text) (hmanager : e.tier ≠ none) (h : o.speaks e = false) (hs : Settled o) :
    (o.step encode e).state = o.state := by
  cases e with
  | collectP2p refused =>
    simp only [Orchestrator.step]
    split
    · rfl
    · rename_i seen hseen
      split
      · rfl
      · rename_i hnew
        simp only [Orchestrator.speaks, hseen, bne_iff_ne.mpr hnew, Bool.true_and] at h
        exact onP2p_settled h hs
  | collectSoftAp =>
    simp only [Orchestrator.step]
    split
    · rfl
    · rename_i seen hseen
      split
      · rfl
      · rename_i hnew
        simp only [Orchestrator.speaks, hseen, bne_iff_ne.mpr hnew, Bool.true_and] at h
        generalize o.host = value at h
        cases value with
        | idle | starting => rfl
        | active | failed => cases h
    · rename_i seen hseen
      split
      · rfl
      · rename_i hnew
        simp only [Orchestrator.speaks, hseen, bne_iff_ne.mpr hnew, Bool.true_and] at h
        generalize o.client = value at h
        cases value with
        | idle | connecting => rfl
        | connected | failed => cases h
  | collectClient i =>
    simp only [Orchestrator.step]
    split
    · rfl
    · rename_i seen hseen
      split
      · rfl
      · rename_i hnew
        simp only [Orchestrator.speaks, hseen, bne_iff_ne.mpr hnew, Bool.true_and] at h
        generalize o.client = value at h
        cases value with
        | idle | connecting | failed => rfl
        | connected => cases h
  | p2p | host | client => rfl
  | start | retryAfterLocation | connectToPeer | joinFromQr | reset | teardown | timer => exact absurd rfl hmanager

/-! ## At rest -/

/-- At rest the state is idle and nothing that has a job runs. -/
structure Rested (o : Orchestrator) : Prop where
  idle : o.state = .idle
  tierJob : o.tierJob = none
  p2pObserver : o.p2pObserver = none
  softApObserver : o.softApObserver = none

theorem settled_of_idle (h : o.state = .idle) : Settled o := by
  rw [Settled, h]
  exact ⟨rfl, by simp⟩

theorem settled_of_connected {peerIp : Text} {tier : Nat} {isGO : Bool} (h : o.state = .connected peerIp tier isGO) :
    Settled o := by
  rw [Settled, h]
  exact ⟨rfl, by simp⟩

/-- Rest is kept where nothing speaks. -/
theorem rested_step (hrest : o.resting = true → Rested o) (hquiet : Quiet o e) :
    (o.step encode e).resting = true → Rested (o.step encode e) := by
  intro hresting
  cases e with
  | start located p2p =>
    simp only [Orchestrator.step] at hresting
    split at hresting <;> cases hresting
  | retryAfterLocation | connectToPeer | joinFromQr => cases hresting
  | reset | teardown => exact ⟨rfl, rfl, rfl, rfl⟩
  | p2p | host | client =>
    have h := hrest hresting
    exact ⟨h.idle, h.tierJob, h.p2pObserver, h.softApObserver⟩
  | collectP2p refused =>
    rw [step_resting (by simp [Event.tier])] at hresting
    have h := hrest hresting
    simpa only [Orchestrator.step, h.p2pObserver] using h
  | collectSoftAp =>
    rw [step_resting (by simp [Event.tier])] at hresting
    have h := hrest hresting
    simpa only [Orchestrator.step, h.softApObserver] using h
  | collectClient i =>
    rw [step_resting (by simp [Event.tier])] at hresting
    have h := hrest hresting
    have hspeaks : o.speaks (.collectClient i) = false := by
      by_contra hspeaks
      rw [(hquiet (by simpa using hspeaks)).1] at hresting
      cases hresting
    have hstate := unspoken encode (by simp [Event.tier]) hspeaks (settled_of_idle h.idle)
    refine ⟨hstate.trans h.idle, ?_, ?_, ?_⟩ <;> simp only [Orchestrator.step] <;> split <;> (try split) <;>
      (try cases o.client) <;> simp [Orchestrator.onClient, h.tierJob, h.p2pObserver, h.softApObserver]
  | timer p2p refused =>
    have htimer : o.step encode (.timer p2p refused) = o ∨ o.tierJob ≠ none := by
      by_cases hnone : o.tierJob = none
      · exact .inl (by rw [Orchestrator.step, hnone]; rfl)
      · exact .inr hnone
    rcases htimer with hsame | hjob
    · rw [hsame] at hresting ⊢
      exact hrest hresting
    · rw [Orchestrator.step, onTimer_resting] at hresting
      exact absurd (hrest hresting).tierJob hjob

theorem silent_of_quiet (hrest : o.resting = true → Rested o) (hquiet : Quiet o e) : Silent encode o e := by
  refine ⟨fun h => (rested_step hrest hquiet h).idle, fun peerIp tier isGO hstate t ht hne => ?_⟩
  have hspeaks : o.speaks e = false := by
    by_contra hspeaks
    have htier := (hquiet (by simpa using hspeaks)).2 _ _ _ hstate
    rw [ht, Option.some.injEq] at htier
    exact hne htier
  exact unspoken encode (by rw [ht]; exact Option.some_ne_none t) hspeaks (settled_of_connected hstate)

theorem quiet_of_silent (h : Silent encode o e) : Quiet o e := by
  intro hspeaks
  obtain ⟨hmanager, hidle, hconnected⟩ := speaks_writes encode hspeaks
  constructor
  · by_contra hresting
    refine hidle (h.rests ?_)
    rw [step_resting hmanager]
    simpa using hresting
  · intro peerIp tier isGO hstate
    obtain ⟨t, ht⟩ := Option.ne_none_iff_exists'.mp hmanager
    by_cases hsame : t = tier
    · rw [ht, hsame]
    · have hkept := h.connected _ _ _ hstate t ht hsame
      exact hconnected _ _ _ (hkept.trans hstate)

end

/-! ## Over a run -/

/-- **The tiers stay silent just in the runs in which no collector speaks at rest or
into the connection of another tier.** -/
theorem stale_silent_iff (encode : Text → Text) (es : List Event) :
    History.Always (Orchestrator.step encode) initial (Silent encode) es ↔
      History.Always (Orchestrator.step encode) initial Quiet es := by
  constructor
  · intro h es₁ e es₂ hes
    exact quiet_of_silent (h es₁ e es₂ hes)
  · intro h es₁ e es₂ hes
    refine silent_of_quiet ?_ (h es₁ e es₂ hes)
    rw [hes] at h
    exact History.Always.keeps (I := fun o => o.resting = true → Rested o) (fun hresting => by cases hresting)
      (fun _ _ hquiet hrest => rested_step hrest hquiet) h.of_append

/-- Wi-Fi Direct fails, the hotspot is started, a network is joined from a QR code
and the user goes back; the network is there only then. -/
def lateJoin : List Event :=
  [.start true .discovering, .p2p (.failed []), .collectP2p none, .joinFromQr none, .reset .idle,
    .client (.connected (text "192.168.43.1")), .collectClient 0]

theorem late_join_speaks : ¬ ∀ (encode : Text → Text) (es : List Event),
    History.Always (Orchestrator.step encode) initial (Silent encode) es := by
  intro h
  have hrests := (h id lateJoin (lateJoin.take 6) (.collectClient 0) [] rfl).rests (by decide +kernel)
  revert hrests
  decide +kernel

end Nxfr.DesertTiers

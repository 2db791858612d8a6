/-
Runs of desert mode (`DesertModeOrchestrator`), with the callbacks of the managers and
the coroutines in any order.

What the screen shows of a peer, a hotspot or a failure its manager reported, at some
time (`shown_reported`). And no run is stuck: while the state says that a tier is being
tried there is a job that ends it, and eleven resumptions of the countdown end the
first tier, one the start of the second (`cascade_ends`).
-/
import Nxfr.DesertTiers

namespace Nxfr.DesertTiers

open CodeUnits QrTicket

/-! ## What is shown -/

/-- The managers' states say what a state shows. -/
def Reported (encode : Text → Text) (o : Orchestrator) : DesertState → Prop
  | .tier1PeersFound peers => o.p2p = .peersFound peers
  | .tier2Hosting ssid passphrase hostIp qrPayload =>
    o.host = .active ssid passphrase hostIp ∧ qrPayload = buildDesertQrPayload encode ssid passphrase hostIp
  | .tier3QrFallback reason => o.host = .failed reason ∨ reason = text "Hotspot failed to start within 8s"
  | .connected peerIp tier isGroupOwner =>
    (tier = 1 ∧ ∃ iface, o.p2p = .ready isGroupOwner peerIp iface) ∨
      (tier = 2 ∧ isGroupOwner = false ∧ o.client = .connected peerIp)
  | .failed reason => ∃ why, o.client = .failed why ∧ reason = text "Failed to join network: " ++ why
  | _ => True

section

variable {encode : Text → Text} {o o' : Orchestrator} {e : Event} {refused : Option Text}

theorem onP2p_reported {p2p : P2pState} (h : o.p2p = p2p) :
    (o.onP2p refused p2p).state = o.state ∨ Reported encode o (o.onP2p refused p2p).state := by
  cases p2p with
  | idle | discovering => exact .inl rfl
  | peersFound peers =>
    rw [Orchestrator.onP2p]
    split
    · exact .inr h
    · exact .inl rfl
  | forming => exact .inr trivial
  | ready isGO goIp iface => exact .inr (.inl ⟨rfl, iface, h⟩)
  | failed reason =>
    rw [Orchestrator.onP2p]
    split
    · exact .inr trivial
    · exact .inl rfl

theorem onHost_reported {host : SoftApState} (h : o.host = host) :
    (o.onHost encode host).state = o.state ∨ Reported encode o (o.onHost encode host).state := by
  cases host with
  | idle | starting => exact .inl rfl
  | active ssid passphrase hostIp => exact .inr ⟨h, rfl⟩
  | failed reason => exact .inr (.inl h)

theorem onJoin_reported {client : ClientJoinState} (h : o.client = client) :
    (o.onJoin client).state = o.state ∨ Reported encode o (o.onJoin client).state := by
  cases client with
  | idle | connecting => exact .inl rfl
  | connected hostIp => exact .inr (.inr ⟨rfl, rfl, h⟩)
  | failed reason => exact .inr ⟨reason, h, rfl⟩

theorem onClient_reported {client : ClientJoinState} (h : o.client = client) :
    (o.onClient client).state = o.state ∨ Reported encode o (o.onClient client).state := by
  cases client with
  | idle | connecting | failed => exact .inl rfl
  | connected hostIp => exact .inr (.inr ⟨rfl, rfl, h⟩)

theorem onTimer_reported {p2p : P2pState} {job : Option TierJob} :
    (o.onTimer p2p refused job).state = o.state ∨ Reported encode o (o.onTimer p2p refused job).state := by
  unfold Orchestrator.onTimer
  split
  · exact .inl rfl
  · split
    · exact .inr trivial
    · exact .inl rfl
  · split
    · exact .inr trivial
    · exact .inl rfl
  · split
    · exact .inr (.inr rfl)
    · exact .inl rfl

/-- A step leaves the state or shows what is reported then. -/
theorem step_reported (encode : Text → Text) (o : Orchestrator) (e : Event) :
    (o.step encode e).state = o.state ∨ Reported encode o (o.step encode e).state := by
  cases e with
  | start located p2p =>
    rw [Orchestrator.step]
    split <;> exact .inr trivial
  | retryAfterLocation | connectToPeer | joinFromQr | reset | teardown => exact .inr trivial
  | p2p | host | client => exact .inl rfl
  | collectP2p refused =>
    rw [Orchestrator.step]
    split
    · exact .inl rfl
    · split
      · exact .inl rfl
      · exact onP2p_reported rfl
  | collectSoftAp =>
    rw [Orchestrator.step]
    split
    · exact .inl rfl
    · split
      · exact .inl rfl
      · exact onHost_reported rfl
    · split
      · exact .inl rfl
      · exact onJoin_reported rfl
  | collectClient i =>
    rw [Orchestrator.step]
    split
    · exact .inl rfl
    · split
      · exact .inl rfl
      · exact onClient_reported rfl
  | timer p2p refused => exact onTimer_reported

/-! ## The jobs -/

/-- A step that starts no tier leaves the state and the job, or ends the scan; when it
starts the hotspot, it waits for it. -/
def Moves (o o' : Orchestrator) : Prop :=
  (o'.state = o.state ∧ o'.tierJob = o.tierJob) ∨
    (o'.state.isScanning = false ∧ (o'.state = .tier2Starting → o'.tierJob = some .hostTimeout))

/-- While a tier is tried there is a job that ends it. -/
structure Watched (o : Orchestrator) : Prop where
  scanning : o.state.isScanning = true → ∃ n ≤ 10, o.tierJob = some (.countdown n)
  starting : o.state = .tier2Starting → o.tierJob = some .hostTimeout

def Event.startsScan : Event → Bool
  | .start located _ => located
  | .retryAfterLocation _ => true
  | _ => false

def Event.isTimer : Event → Bool
  | .timer _ _ => true
  | _ => false

theorem onP2p_moves {p2p : P2pState} : Moves o (o.onP2p refused p2p) := by
  cases p2p with
  | idle | discovering => exact .inl ⟨rfl, rfl⟩
  | peersFound peers =>
    rw [Orchestrator.onP2p]
    split
    · exact .inr ⟨rfl, fun h => by cases h⟩
    · exact .inl ⟨rfl, rfl⟩
  | forming | ready => exact .inr ⟨rfl, fun h => by cases h⟩
  | failed reason =>
    rw [Orchestrator.onP2p]
    split
    · exact .inr ⟨rfl, fun _ => rfl⟩
    · exact .inl ⟨rfl, rfl⟩

theorem onHost_moves {host : SoftApState} : Moves o (o.onHost encode host) := by
  cases host with
  | idle | starting => exact .inl ⟨rfl, rfl⟩
  | active | failed => exact .inr ⟨rfl, fun h => by cases h⟩

theorem onJoin_moves {client : ClientJoinState} : Moves o (o.onJoin client) := by
  cases client with
  | idle | connecting => exact .inl ⟨rfl, rfl⟩
  | connected | failed => exact .inr ⟨rfl, fun h => by cases h⟩

theorem onClient_moves {client : ClientJoinState} : Moves o (o.onClient client) := by
  cases client with
  | idle | connecting | failed => exact .inl ⟨rfl, rfl⟩
  | connected => exact .inr ⟨rfl, fun h => by cases h⟩

theorem step_moves (encode : Text → Text) (hstart : e.startsScan = false) (htimer : e.isTimer = false) :
    Moves o (o.step encode e) := by
  cases e with
  | start located p2p =>
    rw [Orchestrator.step, if_neg (by simpa [Event.startsScan] using hstart)]
    exact .inr ⟨rfl, fun h => by cases h⟩
  | retryAfterLocation => cases hstart
  | connectToPeer | joinFromQr | reset | teardown => exact .inr ⟨rfl, fun h => by cases h⟩
  | p2p | host | client => exact .inl ⟨rfl, rfl⟩
  | collectP2p refused =>
    rw [Orchestrator.step]
    split
    · exact .inl ⟨rfl, rfl⟩
    · split
      · exact .inl ⟨rfl, rfl⟩
      · exact onP2p_moves
  | collectSoftAp =>
    rw [Orchestrator.step]
    split
    · exact .inl ⟨rfl, rfl⟩
    · split
      · exact .inl ⟨rfl, rfl⟩
      · exact onHost_moves
    · split
      · exact .inl ⟨rfl, rfl⟩
      · exact onJoin_moves
  | collectClient i =>
    rw [Orchestrator.step]
    split
    · exact .inl ⟨rfl, rfl⟩
    · split
      · exact .inl ⟨rfl, rfl⟩
      · exact onClient_moves
  | timer => cases htimer

/-- A timer that leaves the scan going has a second less to go. -/
theorem timer_scanning {p2p : P2pState} (hw : Watched o)
    (h : (o.step encode (.timer p2p refused)).state.isScanning = true) :
    ∃ n, o.tierJob = some (.countdown (n + 1)) ∧
      (o.step encode (.timer p2p refused)).tierJob = some (.countdown n) := by
  rw [Orchestrator.step] at h ⊢
  rcases hjob : o.tierJob with - | (- | n) | -
  · rw [hjob] at h
    obtain ⟨n, -, hn⟩ := hw.scanning h
    rw [hjob] at hn
    cases hn
  · rw [hjob, Orchestrator.onTimer] at h
    split at h
    · cases h
    · rename_i hscan
      exact absurd h hscan
  · rw [hjob, Orchestrator.onTimer] at h
    rw [Orchestrator.onTimer]
    split at h
    · rename_i hscan
      exact ⟨n, rfl, by rw [if_pos hscan]⟩
    · rename_i hscan
      exact absurd h hscan
  · rw [hjob, Orchestrator.onTimer] at h
    split at h
    · cases h
    · obtain ⟨n, -, hn⟩ := hw.scanning h
      rw [hjob] at hn
      cases hn

theorem timer_starting {p2p : P2pState} (hw : Watched o)
    (h : (o.step encode (.timer p2p refused)).state = .tier2Starting) :
    o.state ≠ .tier2Starting ∧ (o.step encode (.timer p2p refused)).tierJob = some .hostTimeout := by
  rw [Orchestrator.step] at h ⊢
  rcases hjob : o.tierJob with - | (- | n) | -
  · rw [hjob] at h
    have hstarting := hw.starting h
    rw [hjob] at hstarting
    cases hstarting
  · rw [hjob, Orchestrator.onTimer] at h
    rw [Orchestrator.onTimer]
    split at h
    · rename_i hscan
      refine ⟨fun heq => by simp [heq, DesertState.isScanning] at hscan, ?_⟩
      rw [if_pos hscan]
      rfl
    · have hstarting := hw.starting h
      rw [hjob] at hstarting
      cases hstarting
  · rw [hjob, Orchestrator.onTimer] at h
    split at h
    · cases h
    · have hstarting := hw.starting h
      rw [hjob] at hstarting
      cases hstarting
  · rw [hjob, Orchestrator.onTimer] at h
    split at h
    · cases h
    · rename_i hstate
      exact absurd h hstate

theorem Watched.moves (hw : Watched o) (h : Moves o o') : Watched o' := by
  rcases h with ⟨hstate, hjob⟩ | ⟨hscan, hstarting⟩
  · exact ⟨by rw [hstate, hjob]; exact hw.scanning, by rw [hstate, hjob]; exact hw.starting⟩
  · refine ⟨fun h => ?_, hstarting⟩
    rw [hscan] at h
    cases h

theorem startTier1_watched (o : Orchestrator) (p2p : P2pState) : Watched (o.startTier1 p2p) :=
  ⟨fun _ => ⟨10, le_rfl, rfl⟩, fun h => by cases h⟩

theorem watched_step (hw : Watched o) : Watched (o.step encode e) := by
  by_cases hstart : e.startsScan = true
  · cases e with
    | start located p2p =>
      rw [Orchestrator.step, if_pos (by simpa [Event.startsScan] using hstart)]
      exact startTier1_watched _ _
    | retryAfterLocation p2p => exact startTier1_watched _ _
    | _ => cases hstart
  by_cases htimer : e.isTimer = true
  · cases e with
    | timer p2p refused =>
      refine ⟨fun h => ?_, fun h => (timer_starting hw h).2⟩
      obtain ⟨n, hn, hafter⟩ := timer_scanning hw h
      refine ⟨n, ?_, hafter⟩
      have hscan : o.state.isScanning = true := by
        rw [Orchestrator.step, hn, Orchestrator.onTimer] at h
        split at h
        · assumption
        · exact h
      obtain ⟨m, hm, hjob⟩ := hw.scanning hscan
      rw [hn, Option.some.injEq, TierJob.countdown.injEq] at hjob
      omega
    | _ => cases htimer
  · exact hw.moves (step_moves _ (by simpa using hstart) (by simpa using htimer))

theorem watched (encode : Text → Text) (es : List Event) :
    Watched (History.after (Orchestrator.step encode) initial es) := by
  have hstart : Watched initial := ⟨fun h => (by cases h), fun h => (by cases h)⟩
  exact History.after_induction (I := fun _ o => Watched o) hstart (fun _ _ hw => watched_step hw) es

/-- The seconds the countdown has to go, and those it went. -/
theorem scan_counts (encode : Text → Text) {es' : List Event} (hw : Watched o) (hstart : ∀ e ∈ es', e.startsScan = false) :
    Watched (History.after (Orchestrator.step encode) o es') ∧
      ((History.after (Orchestrator.step encode) o es').state.isScanning = true →
        ∃ n, (History.after (Orchestrator.step encode) o es').tierJob = some (.countdown n) ∧
          n + es'.countP Event.isTimer ≤ 10) := by
  refine History.after_induction
    (I := fun es' o' => (∀ e ∈ es', e.startsScan = false) → Watched o' ∧ (o'.state.isScanning = true →
      ∃ n, o'.tierJob = some (.countdown n) ∧ n + es'.countP Event.isTimer ≤ 10)) (fun _ => ⟨hw, fun h => ?_⟩) ?_ es' hstart
  · obtain ⟨n, hn, hjob⟩ := hw.scanning h
    exact ⟨n, hjob, hn⟩
  intro es' e ih hstart
  obtain ⟨hw', hscan⟩ := ih fun x hx => hstart x (List.mem_append_left _ hx)
  refine ⟨watched_step hw', fun h => ?_⟩
  rw [List.countP_append, List.countP_singleton]
  by_cases htimer : e.isTimer = true
  · cases e with
    | timer p2p refused =>
      obtain ⟨n, hn, hafter⟩ := timer_scanning hw' h
      have hbefore : (History.after (Orchestrator.step encode) o es').state.isScanning = true := by
        rw [Orchestrator.step, hn, Orchestrator.onTimer] at h
        split at h
        · assumption
        · exact h
      obtain ⟨m, hjob, hm⟩ := hscan hbefore
      rw [hn, Option.some.injEq, TierJob.countdown.injEq] at hjob
      exact ⟨n, hafter, by simp only [htimer, if_true]; omega⟩
    | _ => cases htimer
  · rcases step_moves encode (hstart e (by simp)) (by simpa using htimer) with ⟨hstate, hjob⟩ | ⟨hfalse, -⟩
    · rw [hstate] at h
      obtain ⟨n, hn, hle⟩ := hscan h
      exact ⟨n, hjob.trans hn, by simpa [htimer] using hle⟩
    · rw [hfalse] at h
      cases h

end

/-! ## Over a run -/

/-- **What is shown was reported: a peer, a hotspot with its QR payload, a failure or a
connection by the manager of its tier.** -/
theorem shown_reported (encode : Text → Text) (es : List Event) :
    (History.after (Orchestrator.step encode) initial es).state = .idle ∨
      History.Once (Orchestrator.step encode) initial
        (fun o _ => Reported encode o (History.after (Orchestrator.step encode) initial es).state) es := by
  refine History.after_induction (I := fun es (o : Orchestrator) => o.state = .idle ∨
    History.Once (Orchestrator.step encode) initial (fun o' _ => Reported encode o' o.state) es) (.inl rfl) ?_ es
  intro es e ih
  rcases step_reported encode (History.after (Orchestrator.step encode) initial es) e with hsame | hshown
  · rw [hsame]
    exact ih.imp_right fun h => h.snoc e
  · exact .inr (History.Once.now hshown)

/-- **No run is stuck: as long as no scan is started anew, eleven resumptions of the
countdown end the scan, and one ends the start of the hotspot, whatever else happens.** -/
theorem cascade_ends (encode : Text → Text) (es es' : List Event) (hstart : ∀ e ∈ es', e.startsScan = false) :
    (10 < es'.countP Event.isTimer →
      (History.after (Orchestrator.step encode) initial (es ++ es')).state.isScanning = false) ∧
    ∀ p2p refused, (History.after (Orchestrator.step encode) initial (es ++ es')).state = .tier2Starting →
      (History.after (Orchestrator.step encode) initial (es ++ es' ++ [.timer p2p refused])).state =
        .tier3QrFallback (text "Hotspot failed to start within 8s") := by
  constructor
  · intro hcount
    rw [History.after_append]
    by_contra hscan
    obtain ⟨n, -, hle⟩ := (scan_counts encode (watched encode es) hstart).2 (by simpa using hscan)
    omega
  · intro p2p refused hstarting
    have hjob := (watched encode (es ++ es')).starting hstarting
    rw [History.after_snoc, Orchestrator.step, hjob, Orchestrator.onTimer, if_pos hstarting]

/-- Nothing is found, and the hotspot does not come up. -/
theorem nothing_found :
    (History.after (Orchestrator.step id) initial
      ([.start true .discovering] ++ List.replicate 11 (.timer .idle none))).state.isScanning = false ∧
    (History.after (Orchestrator.step id) initial
      ([.start true .discovering] ++ List.replicate 11 (.timer .idle none) ++ [.timer .idle none])).state =
        .tier3QrFallback (text "Hotspot failed to start within 8s") := by
  have hstart : ∀ e ∈ List.replicate 11 (Event.timer .idle none), e.startsScan = false := by
    intro e he
    rw [(List.mem_replicate.mp he).2]
    rfl
  obtain ⟨hscan, hhotspot⟩ := cascade_ends id [.start true .discovering] _ hstart
  exact ⟨hscan (by decide), hhotspot .idle none (by decide +kernel)⟩

end Nxfr.DesertTiers

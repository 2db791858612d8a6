/-
`UdpBeacon`: a device that runs `announceLoop`, and a peer that runs
`handleBeacon` and `expiryLoop`.

A delay ends when it is over, and a beacon arrives when it is sent. Between two
announcements the device stays in the peer's list as long as the next check is
due 5000 ms after the first one at the latest (`listed_iff`): then no check has
come more than 4000 ms after it. In the active mode that is so. In the background
mode the next announcement is itself 5000 ms away, and a check that is due before
it drops the device; in the low power mode one always is.
-/
import Nxfr.DeviceMerge

namespace Nxfr.BeaconExpiry

open CodeUnits History DeviceMerge

inductive BeaconMode
  | active
  | background
  | lowPower
  deriving DecidableEq

def BeaconMode.intervalMs : BeaconMode → Nat
  | .active => 1000
  | .background => 5000
  | .lowPower => 30000

def peerExpiryMs : Nat := 4000

/-- The fields of a beacon that are there. -/
structure Beacon where
  v : Option Int
  advertisedId : Option Text
  name : Option Text
  plat : Option Text
  tcpPort : Option Int
  deriving DecidableEq

def buildBeaconPayload (localAdvertisedId localDeviceName : Text) (localPort : Int) : Beacon :=
  ⟨some 1, some localAdvertisedId, some localDeviceName, some (text "android"), some localPort⟩

/-- An entry of `peerMap`. -/
structure PeerEntry where
  advertisedId : Text
  device : DeviceUiModel
  lastSeen : Nat
  deriving DecidableEq

structure Peer where
  localAdvertisedId : Text
  peerMap : List PeerEntry
  peers : List DeviceUiModel
  deriving DecidableEq

/-- The devices of the map, sorted by name. -/
def shownPeers (peerMap : List PeerEntry) : List DeviceUiModel :=
  (peerMap.map (·.device)).mergeSort fun a b => a.name ≤ b.name

def putPeer (peerMap : List PeerEntry) (entry : PeerEntry) : List PeerEntry :=
  if peerMap.any (·.advertisedId = entry.advertisedId) then
    peerMap.map fun e => if e.advertisedId = entry.advertisedId then entry else e
  else peerMap ++ [entry]

/-- The device that a beacon tells of. -/
def beaconDevice (host : Text) (obj : Beacon) : DeviceUiModel :=
  { name := obj.name.getD (text "Unknown"), host, port := obj.tcpPort.getD 17394, deviceId := obj.advertisedId.getD [],
    platform := obj.plat.getD (text "unknown") }

/-- The peer with another map. -/
def Peer.withMap (p : Peer) (peerMap : List PeerEntry) : Peer := { p with peerMap, peers := shownPeers peerMap }

def handleBeacon (p : Peer) (now : Nat) (hostAddress : Option Text) (obj : Beacon) : Peer :=
  if obj.v.getD 0 ≠ 1 then p
  else if obj.advertisedId.getD [] = [] ∨ obj.advertisedId.getD [] = p.localAdvertisedId then p
  else match hostAddress with
    | none => p
    | some host => p.withMap (putPeer p.peerMap ⟨obj.advertisedId.getD [], beaconDevice host obj, now⟩)

def expired (p : Peer) (now : Nat) : List PeerEntry := p.peerMap.filter fun e => peerExpiryMs < now - e.lastSeen

/-- One turn of `expiryLoop`. -/
def expire (p : Peer) (now : Nat) : Peer :=
  if expired p now = [] then p
  else p.withMap (p.peerMap.filter fun e => e.advertisedId ∉ (expired p now).map (·.advertisedId))

/-- The clock, the device's mode and when its next announcement is due, and the
peer and when its next check is. -/
structure World where
  now : Nat
  currentMode : BeaconMode
  nextAnnounce : Nat
  nextCheck : Nat
  peer : Peer
  deriving DecidableEq

/-- What happens: time passes, the mode is set, the device announces itself under
its name, address and port of the moment, another device does, or the peer checks
its list. -/
inductive Event
  | elapse (ms : Nat)
  | setBeaconMode (mode : BeaconMode)
  | announce (localDeviceName hostAddress : Text) (localPort : Int)
  | other (hostAddress : Option Text) (obj : Beacon)
  | check
  deriving DecidableEq

def Event.isAnnounce : Event → Bool
  | .announce .. => true
  | _ => false

/-- The peer starts at time 0, and the device announces itself for the first time
from then on when it will. -/
def start (mode : BeaconMode) (firstAnnounce : Nat) (peerId : Text) : World :=
  ⟨0, mode, firstAnnounce, 1000, ⟨peerId, [], []⟩⟩

section

variable (advertisedId : Text)

def step (w : World) : Event → World
  | .elapse ms => { w with now := w.now + ms }
  | .setBeaconMode mode => { w with currentMode := mode }
  | .announce name host port =>
    { w with
      nextAnnounce := w.now + w.currentMode.intervalMs
      peer := handleBeacon w.peer w.now (some host) (buildBeaconPayload advertisedId name port) }
  | .other host obj => { w with peer := handleBeacon w.peer w.now host obj }
  | .check => { w with nextCheck := w.now + 1000, peer := expire w.peer w.now }

/-- What may happen: no loop is late, and ids are of one device each. -/
def Enabled (w : World) : Event → Prop
  | .elapse ms => w.now + ms ≤ w.nextAnnounce ∧ w.now + ms ≤ w.nextCheck
  | .setBeaconMode _ => True
  | .announce .. => w.now = w.nextAnnounce
  | .other _ obj => obj.advertisedId ≠ some advertisedId
  | .check => w.now = w.nextCheck

instance (w : World) (e : Event) : Decidable (Enabled advertisedId w e) := by
  cases e <;> unfold Enabled <;> infer_instance

def Listed (w : World) : Prop := ∃ d ∈ w.peer.peers, d.deviceId = advertisedId

instance (w : World) : Decidable (Listed advertisedId w) := inferInstanceAs (Decidable (∃ d ∈ _, _))

/-- From one announcement to the next, with what happens between them. -/
structure Gap (es es₁ : List Event) (e : Event) (mid : List Event) (e' : Event) : Prop where
  run : ∃ es₂, es = es₁ ++ e :: (mid ++ e' :: es₂)
  first : e.isAnnounce = true
  between : ∀ m ∈ mid, m.isAnnounce = false
  next : e'.isAnnounce = true

/-- The device, once it is listed, is not dropped between two announcements. -/
def Kept (s : World) (es : List Event) : Prop :=
  ∀ es₁ e mid e', Gap es es₁ e mid e' → Listed advertisedId (after (step advertisedId) s (es₁ ++ [e])) →
    ∀ m, m <+: mid → Listed advertisedId (after (step advertisedId) s (es₁ ++ e :: m))

/-- The mode at an announcement is the active one, or the background one where a
check is due with the next announcement and comes after it. -/
def Timely (w w' : World) : Prop :=
  w.currentMode = .active ∨ (w.currentMode = .background ∧ w'.nextCheck = w'.now)

/-- The announcements of an id that the peer takes are timely. -/
def AllTimely (s : World) (es : List Event) : Prop :=
  ∀ es₁ e mid e', Gap es es₁ e mid e' → advertisedId ≠ [] → advertisedId ≠ s.peer.localAdvertisedId →
    Timely (after (step advertisedId) s es₁) (after (step advertisedId) s (es₁ ++ e :: mid))

end

section

variable {advertisedId ownId : Text} {w : World} {p : Peer} {es mid : List Event} {e e' : Event} {t now interval : Nat}
  {entry put : PeerEntry} {peerMap : List PeerEntry} {host : Option Text} {obj : Beacon}

/-! ## The map of peers -/

theorem mem_putPeer : entry ∈ putPeer peerMap put ↔
    entry = put ∨ (entry ∈ peerMap ∧ entry.advertisedId ≠ put.advertisedId) := by
  unfold putPeer
  split
  · rename_i hany
    rw [List.mem_map]
    constructor
    · intro ⟨x, hx, hentry⟩
      split at hentry
      · exact .inl hentry.symm
      · rename_i hne
        subst hentry
        exact .inr ⟨hx, hne⟩
    · intro h
      rcases h with rfl | ⟨hmem, hne⟩
      · obtain ⟨x, hx, hid⟩ := List.any_eq_true.mp hany
        exact ⟨x, hx, if_pos (by simpa using hid)⟩
      · exact ⟨entry, hmem, if_neg hne⟩
  · rename_i hany
    rw [List.mem_append, List.mem_singleton]
    constructor
    · intro h
      rcases h with hmem | rfl
      · refine .inr ⟨hmem, ?_⟩
        intro hid
        exact hany (List.any_eq_true.mpr ⟨entry, hmem, by simpa using hid⟩)
      · exact .inl rfl
    · intro h
      rcases h with rfl | ⟨hmem, -⟩
      · exact .inr rfl
      · exact .inl hmem

theorem mem_expire : entry ∈ (expire p now).peerMap ↔ entry ∈ p.peerMap ∧
    ∀ x ∈ p.peerMap, x.advertisedId = entry.advertisedId → ¬ peerExpiryMs < now - x.lastSeen := by
  unfold expire
  split
  · rename_i hnone
    have hall : ∀ x ∈ p.peerMap, ¬ peerExpiryMs < now - x.lastSeen := by
      intro x hx hlate
      have hmem : x ∈ expired p now := by
        rw [expired, List.mem_filter]
        exact ⟨hx, by simpa using hlate⟩
      rw [hnone] at hmem
      cases hmem
    exact ⟨fun h => ⟨h, fun x hx _ => hall x hx⟩, fun h => h.1⟩
  · simp only [Peer.withMap, expired, List.mem_filter, List.mem_map, decide_eq_true_eq, not_exists, not_and, and_imp]
    constructor
    · intro ⟨hmem, hnot⟩
      exact ⟨hmem, fun x hx hid hlate => hnot x hx hlate hid⟩
    · intro ⟨hmem, hnot⟩
      exact ⟨hmem, fun x hx hlate hid => hnot x hx hid hlate⟩

/-- A beacon is ignored, or it is put into the map under its id. -/
theorem handleBeacon_cases (p : Peer) (now : Nat) (host : Option Text) (obj : Beacon) :
    handleBeacon p now host obj = p ∨
      ∃ id device, obj.advertisedId = some id ∧ device.deviceId = id ∧ (id ≠ [] ∧ id ≠ p.localAdvertisedId) ∧
        handleBeacon p now host obj = p.withMap (putPeer p.peerMap ⟨id, device, now⟩) := by
  unfold handleBeacon
  split
  · exact .inl rfl
  · split
    · exact .inl rfl
    · rename_i hid
      rw [not_or] at hid
      split
      · exact .inl rfl
      · cases hobj : obj.advertisedId with
        | none =>
          rw [hobj] at hid
          exact absurd rfl hid.1
        | some id =>
          rw [hobj] at hid
          exact .inr ⟨id, _, rfl, by rw [beaconDevice, hobj]; rfl, hid, rfl⟩

theorem handleBeacon_announced {name host : Text} {port : Int} (hne : advertisedId ≠ [])
    (hown : advertisedId ≠ p.localAdvertisedId) :
    handleBeacon p now (some host) (buildBeaconPayload advertisedId name port) =
      p.withMap (putPeer p.peerMap
        ⟨advertisedId, beaconDevice host (buildBeaconPayload advertisedId name port), now⟩) := by
  simp only [handleBeacon, buildBeaconPayload, Option.getD_some, ne_eq, not_true_eq_false, if_false, hne, hown, or_self]

/-! ## What every run keeps -/

/-- The loops are not late, and the list shows the map. -/
structure Sane (ownId : Text) (w : World) : Prop where
  announceDue : w.now ≤ w.nextAnnounce
  checkDue : w.now ≤ w.nextCheck
  checkSoon : w.nextCheck ≤ w.now + 1000
  own : w.peer.localAdvertisedId = ownId
  shown : w.peer.peers = shownPeers w.peer.peerMap
  ids : ∀ x ∈ w.peer.peerMap, x.device.deviceId = x.advertisedId
  visible : ∀ x ∈ w.peer.peerMap, x.advertisedId ≠ [] ∧ x.advertisedId ≠ ownId

theorem sane_start (mode : BeaconMode) (firstAnnounce : Nat) : Sane ownId (start mode firstAnnounce ownId) :=
  ⟨Nat.zero_le _, Nat.zero_le _, Nat.le_refl 1000, rfl, by simp [start, shownPeers], fun x hx => (by cases hx),
    fun x hx => by cases hx⟩

theorem Sane.beacon (h : Sane ownId w) (host : Option Text) (obj : Beacon) :
    (handleBeacon w.peer w.now host obj).localAdvertisedId = ownId ∧
      (handleBeacon w.peer w.now host obj).peers = shownPeers (handleBeacon w.peer w.now host obj).peerMap ∧
      (∀ x ∈ (handleBeacon w.peer w.now host obj).peerMap, x.device.deviceId = x.advertisedId) ∧
      ∀ x ∈ (handleBeacon w.peer w.now host obj).peerMap, x.advertisedId ≠ [] ∧ x.advertisedId ≠ ownId := by
  rcases handleBeacon_cases w.peer w.now host obj with heq | ⟨id, device, -, hdevice, hid, heq⟩
  · rw [heq]
    exact ⟨h.own, h.shown, h.ids, h.visible⟩
  · rw [heq]
    refine ⟨h.own, rfl, ?_, ?_⟩
    · intro x hx
      rcases mem_putPeer.mp hx with rfl | ⟨hmem, -⟩
      · exact hdevice
      · exact h.ids x hmem
    · intro x hx
      rcases mem_putPeer.mp hx with rfl | ⟨hmem, -⟩
      · exact h.own ▸ hid
      · exact h.visible x hmem

theorem Sane.step (h : Sane ownId w) (hen : Enabled advertisedId w e) :
    Sane ownId (BeaconExpiry.step advertisedId w e) := by
  cases e with
  | elapse ms =>
    have hsoon : w.nextCheck ≤ w.now + ms + 1000 := Nat.le_trans h.checkSoon (by omega)
    exact ⟨hen.1, hen.2, hsoon, h.own, h.shown, h.ids, h.visible⟩
  | setBeaconMode mode => exact ⟨h.announceDue, h.checkDue, h.checkSoon, h.own, h.shown, h.ids, h.visible⟩
  | announce name host port =>
    obtain ⟨hown, hshown, hids, hvisible⟩ := h.beacon (some host) (buildBeaconPayload advertisedId name port)
    exact ⟨Nat.le_add_right _ _, h.checkDue, h.checkSoon, hown, hshown, hids, hvisible⟩
  | other host obj =>
    obtain ⟨hown, hshown, hids, hvisible⟩ := h.beacon host obj
    exact ⟨h.announceDue, h.checkDue, h.checkSoon, hown, hshown, hids, hvisible⟩
  | check =>
    refine ⟨h.announceDue, Nat.le_add_right _ _, Nat.le_refl _, ?_, ?_, ?_, ?_⟩
    · simp only [BeaconExpiry.step, expire]
      split
      · exact h.own
      · exact h.own
    · simp only [BeaconExpiry.step, expire]
      split
      · exact h.shown
      · rfl
    · intro x hx
      exact h.ids x (mem_expire.mp hx).1
    · intro x hx
      exact h.visible x (mem_expire.mp hx).1

theorem Sane.listed_iff (h : Sane ownId w) :
    Listed advertisedId w ↔ ∃ x ∈ w.peer.peerMap, x.advertisedId = advertisedId := by
  unfold Listed
  rw [h.shown, shownPeers]
  constructor
  · intro ⟨d, hd, hid⟩
    obtain ⟨x, hx, rfl⟩ := List.mem_map.mp ((List.mergeSort_perm _ _).mem_iff.mp hd)
    exact ⟨x, hx, (h.ids x hx).symm.trans hid⟩
  · intro ⟨x, hx, hid⟩
    exact ⟨x.device, (List.mergeSort_perm _ _).mem_iff.mpr (List.mem_map_of_mem hx), (h.ids x hx).trans hid⟩

/-! ## Between two announcements -/

/-- Since an announcement at a time: when the next one is due, when the device was
seen last, and when it is still in the map. -/
structure Since (advertisedId : Text) (t interval : Nat) (w : World) : Prop where
  due : w.nextAnnounce = t + interval
  seen : ∀ x ∈ w.peer.peerMap, x.advertisedId = advertisedId → x.lastSeen = t
  listed : (∃ x ∈ w.peer.peerMap, x.advertisedId = advertisedId) ↔ w.nextCheck ≤ t + 5000

theorem Since.of_map {w w' : World} (h : Since advertisedId t interval w) (hmap : w'.peer.peerMap = w.peer.peerMap)
    (hannounce : w'.nextAnnounce = w.nextAnnounce) (hcheck : w'.nextCheck = w.nextCheck) :
    Since advertisedId t interval w' :=
  ⟨hannounce.trans h.due, hmap ▸ h.seen, by rw [hmap, hcheck]; exact h.listed⟩

theorem Since.step (h : Since advertisedId t interval w) (hen : Enabled advertisedId w e) (he : e.isAnnounce = false) :
    Since advertisedId t interval (BeaconExpiry.step advertisedId w e) := by
  cases e with
  | elapse ms => exact h.of_map rfl rfl rfl
  | setBeaconMode mode => exact h.of_map rfl rfl rfl
  | announce name host port => cases he
  | other host obj =>
    rcases handleBeacon_cases w.peer w.now host obj with heq | ⟨id, device, hid, -, -, heq⟩
    · exact h.of_map (congrArg Peer.peerMap heq) rfl rfl
    · -- The beacon has another id, so the entries of this one stay.
      have hne : id ≠ advertisedId := fun heq => hen (hid.trans (congrArg some heq))
      have hmap : (BeaconExpiry.step advertisedId w (.other host obj)).peer.peerMap =
          putPeer w.peer.peerMap ⟨id, device, w.now⟩ := congrArg Peer.peerMap heq
      have hmem : ∀ x, x.advertisedId = advertisedId →
          (x ∈ putPeer w.peer.peerMap ⟨id, device, w.now⟩ ↔ x ∈ w.peer.peerMap) := by
        intro x hx
        rw [mem_putPeer]
        constructor
        · intro hput
          rcases hput with rfl | hput
          · exact absurd hx hne
          · exact hput.1
        · intro hput
          exact .inr ⟨hput, hx.trans_ne (Ne.symm hne)⟩
      refine ⟨h.due, ?_, ?_⟩
      · intro x hx hid
        rw [hmap, hmem x hid] at hx
        exact h.seen x hx hid
      · rw [hmap, show (BeaconExpiry.step advertisedId w (.other host obj)).nextCheck = w.nextCheck from rfl, ← h.listed]
        exact exists_congr fun x => and_congr_left fun hid => hmem x hid
  | check =>
    have hdue : w.now = w.nextCheck := hen
    have hlisted := h.listed
    refine ⟨h.due, ?_, ?_⟩
    · intro x hx hid
      exact h.seen x (mem_expire.mp hx).1 hid
    · change (∃ x ∈ (expire w.peer w.now).peerMap, x.advertisedId = advertisedId) ↔ w.now + 1000 ≤ t + 5000
      constructor
      · intro ⟨x, hx, hid⟩
        obtain ⟨hmem, hfresh⟩ := mem_expire.mp hx
        have hlate := hfresh x hmem rfl
        rw [h.seen x hmem hid, peerExpiryMs] at hlate
        omega
      · intro hle
        obtain ⟨x, hx, hid⟩ := hlisted.mpr (by omega)
        refine ⟨x, mem_expire.mpr ⟨hx, ?_⟩, hid⟩
        intro y hy hyid
        rw [h.seen y hy (hyid.trans hid), peerExpiryMs]
        omega

/-- The announcement of a device that the peer does not ignore. -/
theorem step_announce (h : Sane ownId w) (he : e.isAnnounce = true) (hne : advertisedId ≠ []) (hown : advertisedId ≠ ownId) :
    ∃ device, step advertisedId w e =
      { w with
        nextAnnounce := w.now + w.currentMode.intervalMs
        peer := w.peer.withMap (putPeer w.peer.peerMap ⟨advertisedId, device, w.now⟩) } := by
  cases e with
  | elapse | setBeaconMode | other | check => cases he
  | announce name host port => exact ⟨_, by rw [step, handleBeacon_announced hne (h.own ▸ hown)]⟩

theorem since_announce (h : Sane ownId w) (he : e.isAnnounce = true) (hne : advertisedId ≠ [])
    (hown : advertisedId ≠ ownId) :
    Since advertisedId w.now w.currentMode.intervalMs (step advertisedId w e) := by
  obtain ⟨device, heq⟩ := step_announce h he hne hown
  have hsoon := h.checkSoon
  rw [heq]
  refine ⟨rfl, ?_, fun _ => ?_, fun _ => ⟨_, mem_putPeer.mpr (.inl rfl), rfl⟩⟩
  · intro x hx hid
    rcases mem_putPeer.mp hx with rfl | ⟨-, hother⟩
    · rfl
    · exact absurd hid hother
  · change w.nextCheck ≤ w.now + 5000
    omega

theorem due_of_announce (hen : Enabled advertisedId w e) (he : e.isAnnounce = true) : w.now = w.nextAnnounce := by
  cases e with
  | elapse | setBeaconMode | other | check => cases he
  | announce name host port => exact hen

/-- The announcement of one that it ignores. -/
theorem not_listed_ignored (h : Sane ownId w) (hignored : advertisedId = [] ∨ advertisedId = ownId) :
    ¬ Listed advertisedId w := by
  intro hlisted
  obtain ⟨x, hx, rfl⟩ := h.listed_iff.mp hlisted
  exact hignored.elim (h.visible x hx).1 (h.visible x hx).2

/-- What holds at every moment until the next announcement. -/
theorem gap_keeps (hsane : Sane ownId w) (he : e.isAnnounce = true) (hne : advertisedId ≠ []) (hown : advertisedId ≠ ownId)
    (hen : Enabled advertisedId w e)
    (hmid : Always (step advertisedId) (step advertisedId w e) (Enabled advertisedId) mid)
    (hbetween : ∀ m ∈ mid, m.isAnnounce = false) :
    Sane ownId (after (step advertisedId) (step advertisedId w e) mid) ∧
      Since advertisedId w.now w.currentMode.intervalMs (after (step advertisedId) (step advertisedId w e) mid) := by
  refine after_induction (I := fun mid s => Always (step advertisedId) (step advertisedId w e) (Enabled advertisedId) mid →
    (∀ m ∈ mid, m.isAnnounce = false) → Sane ownId s ∧ Since advertisedId w.now w.currentMode.intervalMs s)
    (fun _ _ => ⟨hsane.step hen, since_announce hsane he hne hown⟩) ?_ mid hmid hbetween
  intro mid m ih hmid hbetween
  obtain ⟨hs, hsince⟩ := ih hmid.of_append fun x hx => hbetween x (by simp [hx])
  exact ⟨hs.step hmid.last, hsince.step hmid.last (hbetween m (by simp))⟩

/-- The next check is not put earlier. -/
theorem nextCheck_mono {es' : List Event}
    (h : Always (step advertisedId) w (Enabled advertisedId) (es ++ es')) :
    (after (step advertisedId) w es).nextCheck ≤ (after (step advertisedId) w (es ++ es')).nextCheck := by
  rw [after_append]
  refine Always.keeps (I := fun s => (after (step advertisedId) w es).nextCheck ≤ s.nextCheck) (Nat.le_refl _) ?_ h.rest
  intro s e hen hle
  cases e with
  | check =>
    have hdue : s.now = s.nextCheck := hen
    simp only [step]
    omega
  | elapse | setBeaconMode | announce | other => exact hle

/-- The moment before the next announcement. -/
theorem timely_iff {w' : World} (hs : Sane ownId w') (hdue : w'.now = w'.nextAnnounce)
    (hsince : Since advertisedId w.now w.currentMode.intervalMs w') :
    Timely w w' ↔ w'.nextCheck ≤ w.now + 5000 := by
  have hnow : w'.now = w.now + w.currentMode.intervalMs := hdue.trans hsince.due
  have hle := hs.checkDue
  have hsoon := hs.checkSoon
  unfold Timely
  cases hmode : w.currentMode with
  | active =>
    rw [hmode, BeaconMode.intervalMs] at hnow
    simp only [true_or, true_iff]
    omega
  | background =>
    rw [hmode, BeaconMode.intervalMs] at hnow
    simp only [reduceCtorEq, false_or, true_and]
    omega
  | lowPower =>
    rw [hmode, BeaconMode.intervalMs] at hnow
    simp only [reduceCtorEq, false_and, or_self, false_iff]
    omega

end

/-! ## Samples -/

def sampleAnnounce : Event := .announce (text "phone") (text "10.0.0.3") 17394

/-- So many checks, one second apart. -/
def sampleChecks (n : Nat) : List Event := (List.replicate n [.elapse 1000, .check]).flatten

/-- An active phone, which announces itself again after a second. -/
def sampleActive : List Event := [.elapse 500, sampleAnnounce, .elapse 500, .check, .elapse 500, sampleAnnounce]

/-- A phone in the background, which announces itself again after five seconds. -/
def sampleBackground : List Event :=
  [.setBeaconMode .background, .elapse 500, sampleAnnounce, .elapse 500, .check] ++ sampleChecks 4 ++
    [.elapse 500, sampleAnnounce]

theorem sampleBackground_run :
    Always (step (text "id")) (start .active 500 (text "own")) (Enabled (text "id")) sampleBackground :=
  Always.of_holds (p := fun w e => decide (Enabled (text "id") w e)) (fun _ _ h => of_decide_eq_true h) (by decide +kernel)

theorem sampleActive_run :
    Always (step (text "id")) (start .active 500 (text "own")) (Enabled (text "id")) sampleActive :=
  Always.of_holds (p := fun w e => decide (Enabled (text "id") w e)) (fun _ _ h => of_decide_eq_true h) (by decide +kernel)

theorem run_listed_iff {mode : BeaconMode} {firstAnnounce : Nat} {advertisedId peerId : Text} {es : List Event}
    (h : Always (step advertisedId) (start mode firstAnnounce peerId) (Enabled advertisedId) es) :
    Listed advertisedId (after (step advertisedId) (start mode firstAnnounce peerId) es) ↔
      ∃ x ∈ (after (step advertisedId) (start mode firstAnnounce peerId) es).peer.peerMap, x.advertisedId = advertisedId :=
  (h.keeps (sane_start mode firstAnnounce) fun _ _ hen hs => hs.step hen).listed_iff

/-- The mode stays where it is not set. -/
theorem mode_kept {advertisedId : Text} {w : World} {es : List Event} (h : ∀ mode, .setBeaconMode mode ∉ es) :
    (after (step advertisedId) w es).currentMode = w.currentMode := by
  refine after_induction (I := fun es (s : World) => (∀ mode, .setBeaconMode mode ∉ es) → s.currentMode = w.currentMode)
    (fun _ => rfl) ?_ es h
  intro es e ih h
  rw [← ih fun mode hmem => h mode (by simp [hmem])]
  cases e with
  | setBeaconMode mode => exact absurd (by simp) (h mode)
  | elapse | announce | other | check => rfl

end Nxfr.BeaconExpiry

/-
The rotating id that a device goes by before a connection: the `id` property
of the mDNS service (`nxfr-discovery/src/privacy.rs`, `manager.rs`) and the
`advertised_id` of the Android beacon (`UdpBeacon.kt`), which computes it
through `nxfr_advertised_id` (`nxfr-ffi/src/lib.rs`).

A device has any number of managers and beacons, one clock and one time zone,
and its clock may be set to anything. The mDNS daemon answers with what was
last registered until it is unregistered. A beacon's `start` leaves its work to
a coroutine that runs later; from then on a loop sends the beacon's payload
again and again. Either computes its id first and shows it to the network
afterwards, and anything may happen in between. SHA-256 is a parameter.
-/
import Nxfr.Journal
import Nxfr.History
import Nxfr.Sha256

namespace Nxfr.Discovery

open History

/-! ## Dates -/

def pad (width : Nat) (n : Nat) : String :=
  String.ofList (List.replicate (width - (Nat.toDigits 10 n).length) '0' ++ Nat.toDigits 10 n)

/-- Year, month and day of a day counted from 1970-01-01. The count is taken
from 0000-03-01, in eras of 400 years, so that leap days come last. -/
def civil (day : Int) : Int × Nat × Nat :=
  let era := (day + 719468) / 146097
  let doe := ((day + 719468) % 146097).toNat
  let yoe := (doe - doe / 1460 + doe / 36524 - doe / 146096) / 365
  let doy := doe - (365 * yoe + yoe / 4 - yoe / 100)
  let mp := (5 * doy + 2) / 153
  let d := doy - (153 * mp + 2) / 5 + 1
  let m := if mp < 10 then mp + 3 else mp - 9
  (yoe + era * 400 + (if m ≤ 2 then 1 else 0), m, d)

/-- `%Y-%m-%d` of chrono, and `LocalDate.toString`. -/
def isoDate (day : Int) : String :=
  let (y, m, d) := civil day
  let year := if y < 0 then "-" ++ pad 4 y.natAbs else if 9999 < y then "+" ++ pad 4 y.natAbs else pad 4 y.natAbs
  year ++ "-" ++ pad 2 m ++ "-" ++ pad 2 d

/-- The day in UTC at a time in seconds. -/
def utcDay (now : Nat) : Int := (now : Int) / 86400

/-- The day where clocks are ahead of UTC by `offset` seconds. -/
def localDay (now : Nat) (offset : Int) : Int := ((now : Int) + offset) / 86400

example : isoDate 0 = "1970-01-01" ∧ isoDate 11016 = "2000-02-29" ∧ isoDate 20454 = "2026-01-01" := by decide

/-! ## The id -/

section

variable (sha256 : Bytes → Digest)

/-- The first sixteen hex digits of the hash. -/
def advertisedId (deviceId : Bytes) (dateStr : String) : String :=
  hexEncode ((sha256 (deviceId ++ dateStr.toUTF8.data.toList)).bytes.take 8)

def computeAdvertisedId (deviceId : DeviceId) (dateStr : String) : String := advertisedId sha256 deviceId.bytes dateStr

def computeAdvertisedIdNow (deviceId : DeviceId) (now : Nat) : String :=
  computeAdvertisedId sha256 deviceId (isoDate (utcDay now))

/-- `nxfr_advertised_id`; the text of a hex error is that of its crate. -/
def nxfrAdvertisedId (hexError : String → String) (deviceIdHex dateStr : String) : Except String String :=
  match hexDecode deviceIdHex with
  | some b =>
    if b.length = 32 then .ok (advertisedId sha256 b dateStr)
    else .error ("device_id must be 32 bytes, got " ++ toString b.length)
  | none => .error ("invalid hex: " ++ hexError deviceIdHex)

/-! ## The mDNS service -/

/-- What is registered: the host name is always `nxfr-host.local.`, and the
properties are `v`, `id`, `name` and `plat`. -/
structure ServiceInfo where
  instanceName : String
  port : Nat
  v : String
  id : String
  name : String
  plat : String

/-- `daemon` is what the mDNS daemon answers with under the manager's name.
`starting` is the service of a call of `start_advertising` that has not registered
it yet, and `startedDay` the date it was made on. -/
structure DiscoveryManager where
  deviceId : DeviceId
  deviceName : String
  platform : String
  port : Nat
  registeredFullname : Option String
  daemon : Option ServiceInfo
  starting : Option ServiceInfo
  startedDay : Int

/-- `ServiceInfo::get_fullname` -/
def fullname (instanceName : String) : String := instanceName ++ "._nxfr._tcp.local."

/-- `start_advertising` up to the service it makes. The call has the manager for
itself until it returns. -/
def DiscoveryManager.startAdvertising (m : DiscoveryManager) (now : Nat) : DiscoveryManager :=
  if m.starting.isSome || m.registeredFullname.isSome then m
  else
    { m with
      startedDay := utcDay now
      starting := some
        { instanceName := m.deviceName
          port := m.port
          v := "1.0"
          id := computeAdvertisedIdNow sha256 m.deviceId now
          name := m.deviceName
          plat := m.platform } }

/-- The rest of it; `ok` says whether the service could be made and registered. -/
def DiscoveryManager.register (m : DiscoveryManager) (ok : Bool) : DiscoveryManager := match m.starting with
  | none => m
  | some info =>
    if ok then
      { m with registeredFullname := some (fullname info.instanceName), daemon := some info, starting := none }
    else { m with starting := none }

/-- An error of `unregister` is swallowed, and the daemon goes on. -/
def DiscoveryManager.stopAdvertising (m : DiscoveryManager) (ok : Bool) : DiscoveryManager :=
  if m.starting.isSome then m
  else match m.registeredFullname with
    | some _ => { m with registeredFullname := none, daemon := if ok then none else m.daemon }
    | none => m

/-! ## The beacon -/

/-- `launched` counts the coroutines of `start` that have not run, `opening` those
that have computed the id and not yet opened the socket, `announcing` is the loop
of `announceJob`, and `stray` are loops whose job was replaced. `computedFor` and
`computedDay` are what the id was last computed from. -/
structure UdpBeacon where
  localDeviceId : String
  localDeviceName : String
  localPort : Nat
  localAdvertisedId : String
  computedFor : String
  computedDay : Int
  launched : Nat
  opening : Nat
  listening : Bool
  announcing : Bool
  stray : Nat

structure BeaconPayload where
  v : Nat
  advertisedId : String
  name : String
  plat : String
  tcpPort : Nat

def UdpBeacon.buildBeaconPayload (b : UdpBeacon) : BeaconPayload where
  v := 1
  advertisedId := b.localAdvertisedId
  name := b.localDeviceName
  plat := "android"
  tcpPort := b.localPort

/-- A loop sends the payload. -/
def UdpBeacon.sends (b : UdpBeacon) : Bool := b.announcing || 0 < b.stray

/-- The id on a date; an error leaves it empty. -/
def beaconIdOn (hexError : String → String) (localDeviceId : String) (day : Int) : String :=
  if localDeviceId = "" then ""
  else match nxfrAdvertisedId sha256 hexError localDeviceId (isoDate day) with
    | .ok id => id
    | .error _ => ""

/-- The date is that of the time zone. -/
def UdpBeacon.computeAdvertisedId (hexError : String → String) (b : UdpBeacon) (now : Nat) (offset : Int) : String :=
  beaconIdOn sha256 hexError b.localDeviceId (localDay now offset)

/-- `HotspotAwareDiscovery.startDiscovery` sets the beacon up and starts it. -/
def UdpBeacon.startDiscovery (b : UdpBeacon) (localDeviceId localDeviceName : String) (localPort : Nat) : UdpBeacon :=
  { b with
    localDeviceId, localDeviceName, localPort
    launched := if b.listening then b.launched else b.launched + 1 }

/-- The coroutine of `start` computes the id. -/
def UdpBeacon.launch (hexError : String → String) (b : UdpBeacon) (now : Nat) (offset : Int) : UdpBeacon :=
  if b.launched = 0 then b
  else
    { b with
      launched := b.launched - 1
      opening := b.opening + 1
      computedFor := b.localDeviceId
      computedDay := localDay now offset
      localAdvertisedId := b.computeAdvertisedId sha256 hexError now offset }

/-- The rest of it; `bound` says whether the lock and the socket were to be had. -/
def UdpBeacon.bind (b : UdpBeacon) (bound : Bool) : UdpBeacon :=
  if b.opening = 0 then b
  else if bound then
    { b with
      opening := b.opening - 1
      listening := true
      announcing := true
      stray := if b.announcing then b.stray + 1 else b.stray }
  else { b with opening := b.opening - 1 }

def UdpBeacon.stop (b : UdpBeacon) : UdpBeacon := { b with listening := false, announcing := false }

/-! ## The device -/

structure Device where
  now : Nat
  offset : Int
  managers : Nat → DiscoveryManager
  beacons : Nat → UdpBeacon

/-- What happens on a device: its clock and its time zone change, and its
managers and beacons are called and go on with what they have begun; the loops
of a beacon may also end by themselves. -/
inductive Event where
  | clock (now : Nat)
  | zone (offset : Int)
  | startAdvertising (i : Nat)
  | register (i : Nat) (ok : Bool)
  | stopAdvertising (i : Nat) (ok : Bool)
  | startDiscovery (j : Nat) (localDeviceId localDeviceName : String) (localPort : Nat)
  | launch (j : Nat)
  | bind (j : Nat) (bound : Bool)
  | stopDiscovery (j : Nat)
  | listenEnds (j : Nat)
  | announceEnds (j : Nat)

def Device.onManager (s : Device) (i : Nat) (f : DiscoveryManager → DiscoveryManager) : Device :=
  { s with managers := fun k => if k = i then f (s.managers k) else s.managers k }

def Device.onBeacon (s : Device) (j : Nat) (f : UdpBeacon → UdpBeacon) : Device :=
  { s with beacons := fun k => if k = j then f (s.beacons k) else s.beacons k }

variable (hexError : String → String)

def Device.step (s : Device) : Event → Device
  | .clock now => { s with now }
  | .zone offset => { s with offset }
  | .startAdvertising i => s.onManager i fun m => m.startAdvertising sha256 s.now
  | .register i ok => s.onManager i fun m => m.register ok
  | .stopAdvertising i ok => s.onManager i fun m => m.stopAdvertising ok
  | .startDiscovery j localDeviceId localDeviceName localPort =>
    s.onBeacon j fun b => b.startDiscovery localDeviceId localDeviceName localPort
  | .launch j => s.onBeacon j fun b => b.launch sha256 hexError s.now s.offset
  | .bind j bound => s.onBeacon j fun b => b.bind bound
  | .stopDiscovery j => s.onBeacon j UdpBeacon.stop
  | .listenEnds j => s.onBeacon j fun b => { b with listening := false }
  | .announceEnds j => s.onBeacon j fun b => { b with announcing := false }

end

/-- The ids that are to be seen on the network: those the mDNS daemon answers
with, and those in the payloads of the beacons. -/
def Device.Advertises (s : Device) (id : String) : Prop :=
  (∃ i info, (s.managers i).daemon = some info ∧ info.id = id) ∨
    ∃ j, (s.beacons j).sends = true ∧ (s.beacons j).buildBeaconPayload.advertisedId = id

/-! ## One id a day -/

/-- No start is under way. -/
def Device.Idle (s : Device) : Prop := (∀ i, (s.managers i).starting = none) ∧ ∀ j, (s.beacons j).opening = 0

/-- The date in UTC changes only while nothing is advertised. A service is
registered on the date its id was computed on, and a beacon begins to send on the
date its id was computed for, from the device's id; so is an id computed while a
loop sends. -/
def KeepsDate (deviceId : DeviceId) (s : Device) : Event → Prop
  | .clock now => utcDay now = utcDay s.now ∨ ∀ id, ¬ s.Advertises id
  | .register i ok => (s.managers i).starting.isSome = true → ok = true → (s.managers i).startedDay = utcDay s.now
  | .launch j => (s.beacons j).launched ≠ 0 → (s.beacons j).sends = true →
    localDay s.now s.offset = utcDay s.now ∧ hexDecode (s.beacons j).localDeviceId = some deviceId.bytes
  | .bind j bound => (s.beacons j).opening ≠ 0 → bound = true →
    (s.beacons j).computedDay = utcDay s.now ∧ hexDecode (s.beacons j).computedFor = some deviceId.bytes
  | _ => True

section

variable {sha256 : Bytes → Digest} {hexError : String → String} {deviceId : DeviceId} {s : Device}

/-- Both implementations compute the same. -/
theorem nxfrAdvertisedId_ok {deviceIdHex : String} (h : hexDecode deviceIdHex = some deviceId.bytes) (dateStr : String) :
    nxfrAdvertisedId sha256 hexError deviceIdHex dateStr = .ok (computeAdvertisedId sha256 deviceId dateStr) := by
  rw [nxfrAdvertisedId, h]
  exact if_pos deviceId.size

theorem decoded_ne_empty {deviceIdHex : String} (h : hexDecode deviceIdHex = some deviceId.bytes) : deviceIdHex ≠ "" := by
  intro hempty
  subst hempty
  have hlen := deviceId.size
  have hnil : deviceId.bytes = [] := (Option.some.inj h).symm
  simp [hnil] at hlen

/-- A beacon that computes from the device's id and the date of UTC has what the
managers have. -/
theorem beaconIdOn_today {localDeviceId : String} {day : Int} {now : Nat} (hday : day = utcDay now)
    (hid : hexDecode localDeviceId = some deviceId.bytes) :
    beaconIdOn sha256 hexError localDeviceId day = computeAdvertisedIdNow sha256 deviceId now := by
  rw [beaconIdOn, if_neg (decoded_ne_empty hid), nxfrAdvertisedId_ok hid, hday]
  rfl

/-- A manager is the device's, what its daemon answers with is the id of the day,
and what it is about to register the id of the day it was made on. -/
structure DiscoveryManager.Current (sha256 : Bytes → Digest) (deviceId : DeviceId) (now : Nat) (m : DiscoveryManager) :
    Prop where
  own : m.deviceId = deviceId
  service : ∀ info, m.daemon = some info → info.id = computeAdvertisedIdNow sha256 deviceId now
  made : ∀ info, m.starting = some info → info.id = computeAdvertisedId sha256 deviceId (isoDate m.startedDay)

/-- What a beacon sends is the id of the day, and what it is about to send the id
it was last computed to be. -/
structure UdpBeacon.Current (sha256 : Bytes → Digest) (hexError : String → String) (deviceId : DeviceId) (now : Nat)
    (b : UdpBeacon) : Prop where
  payload : b.sends = true → b.localAdvertisedId = computeAdvertisedIdNow sha256 deviceId now
  computed : b.opening ≠ 0 → b.localAdvertisedId = beaconIdOn sha256 hexError b.computedFor b.computedDay

/-- What is advertised is the id of the day. -/
structure Device.Current (sha256 : Bytes → Digest) (hexError : String → String) (deviceId : DeviceId) (s : Device) :
    Prop where
  managers : ∀ i, (s.managers i).Current sha256 deviceId s.now
  beacons : ∀ j, (s.beacons j).Current sha256 hexError deviceId s.now

theorem Device.Current.onManager (h : s.Current sha256 hexError deviceId) (i : Nat)
    (f : DiscoveryManager → DiscoveryManager) (hf : (f (s.managers i)).Current sha256 deviceId s.now) :
    (s.onManager i f).Current sha256 hexError deviceId where
  managers k := by
    simp only [Device.onManager]
    split
    · rename_i hk
      subst hk
      exact hf
    · exact h.managers k
  beacons := h.beacons

theorem Device.Current.onBeacon (h : s.Current sha256 hexError deviceId) (j : Nat) (f : UdpBeacon → UdpBeacon)
    (hf : (f (s.beacons j)).Current sha256 hexError deviceId s.now) :
    (s.onBeacon j f).Current sha256 hexError deviceId where
  managers := h.managers
  beacons k := by
    simp only [Device.onBeacon]
    split
    · rename_i hk
      subst hk
      exact hf
    · exact h.beacons k

theorem Device.Advertises.of_service {i : Nat} {id : String} (h : (s.managers i).daemon.map (·.id) = some id) :
    s.Advertises id := by
  obtain ⟨info, hinfo, hid⟩ := Option.map_eq_some_iff.mp h
  exact .inl ⟨i, info, hinfo, hid⟩

theorem Device.Advertises.of_payload {j : Nat} (h : (s.beacons j).sends = true) :
    s.Advertises (s.beacons j).localAdvertisedId := .inr ⟨j, h, rfl⟩

theorem Device.Current.advertised (h : s.Current sha256 hexError deviceId) {id : String} (hid : s.Advertises id) :
    id = computeAdvertisedIdNow sha256 deviceId s.now := by
  rcases hid with ⟨i, info, hinfo, rfl⟩ | ⟨j, hsends, rfl⟩
  · exact (h.managers i).service info hinfo
  · exact (h.beacons j).payload hsends

/-- While nothing is advertised, the clock may be anything. -/
theorem Device.Current.clock (h : s.Current sha256 hexError deviceId) {now : Nat}
    (hkeeps : utcDay now = utcDay s.now ∨ ∀ id, ¬ s.Advertises id) :
    ({ s with now } : Device).Current sha256 hexError deviceId := by
  rcases hkeeps with hday | hquiet
  · have htoday : computeAdvertisedIdNow sha256 deviceId now = computeAdvertisedIdNow sha256 deviceId s.now := by
      rw [computeAdvertisedIdNow, hday, computeAdvertisedIdNow]
    refine ⟨fun i => ⟨(h.managers i).own, ?_, (h.managers i).made⟩, fun j => ⟨?_, (h.beacons j).computed⟩⟩
    · intro info hinfo
      exact ((h.managers i).service info hinfo).trans htoday.symm
    · intro hsends
      exact ((h.beacons j).payload hsends).trans htoday.symm
  · refine ⟨fun i => ⟨(h.managers i).own, ?_, (h.managers i).made⟩, fun j => ⟨?_, (h.beacons j).computed⟩⟩
    · intro info hinfo
      exact absurd (.inl ⟨i, info, hinfo, rfl⟩) (hquiet info.id)
    · intro hsends
      exact absurd (.inr ⟨j, hsends, rfl⟩) (hquiet (s.beacons j).localAdvertisedId)

/-! ### Managers -/

section

variable {m : DiscoveryManager} {now : Nat}

theorem DiscoveryManager.Current.startAdvertising (h : m.Current sha256 deviceId now) :
    (m.startAdvertising sha256 now).Current sha256 deviceId now := by
  unfold DiscoveryManager.startAdvertising
  split
  · exact h
  · refine ⟨h.own, h.service, ?_⟩
    intro info hinfo
    cases hinfo
    rw [computeAdvertisedIdNow, h.own]

theorem DiscoveryManager.Current.register (h : m.Current sha256 deviceId now) {ok : Bool}
    (hday : m.starting.isSome = true → ok = true → m.startedDay = utcDay now) :
    (m.register ok).Current sha256 deviceId now := by
  unfold DiscoveryManager.register
  split
  · exact h
  · rename_i info hstarting
    cases ok with
    | true =>
      refine ⟨h.own, ?_, fun _ hnone => by cases hnone⟩
      intro info' hinfo'
      cases hinfo'
      rw [h.made info hstarting, hday (by rw [hstarting]; rfl) rfl, computeAdvertisedIdNow]
    | false => exact ⟨h.own, h.service, fun _ hnone => by cases hnone⟩

theorem DiscoveryManager.Current.stopAdvertising (h : m.Current sha256 deviceId now) (ok : Bool) :
    (m.stopAdvertising ok).Current sha256 deviceId now := by
  unfold DiscoveryManager.stopAdvertising
  split
  · exact h
  · split
    · refine ⟨h.own, ?_, h.made⟩
      intro info hinfo
      cases ok with
      | true => cases hinfo
      | false => exact h.service info hinfo
    · exact h

end

/-! ### Beacons -/

section

variable {b : UdpBeacon} {now : Nat}

theorem sends_of_stray (h : (false || decide (0 < b.stray)) = true) : b.sends = true := by
  rw [Bool.false_or] at h
  rw [UdpBeacon.sends, h, Bool.or_true]

theorem UdpBeacon.Current.launch (h : b.Current sha256 hexError deviceId now) {offset : Int}
    (hkeeps : b.launched ≠ 0 → b.sends = true →
      localDay now offset = utcDay now ∧ hexDecode b.localDeviceId = some deviceId.bytes) :
    (b.launch sha256 hexError now offset).Current sha256 hexError deviceId now := by
  unfold UdpBeacon.launch
  split
  · exact h
  · rename_i hlaunched
    refine ⟨?_, fun _ => rfl⟩
    intro hsends
    obtain ⟨hday, hid⟩ := hkeeps hlaunched hsends
    exact beaconIdOn_today hday hid

theorem UdpBeacon.Current.bind (h : b.Current sha256 hexError deviceId now) {bound : Bool}
    (hkeeps : b.opening ≠ 0 → bound = true →
      b.computedDay = utcDay now ∧ hexDecode b.computedFor = some deviceId.bytes) :
    (b.bind bound).Current sha256 hexError deviceId now := by
  unfold UdpBeacon.bind
  split
  · exact h
  · rename_i hopening
    cases bound with
    | true =>
      obtain ⟨hday, hid⟩ := hkeeps hopening rfl
      exact ⟨fun _ => (h.computed hopening).trans (beaconIdOn_today hday hid), fun _ => h.computed hopening⟩
    | false => exact ⟨h.payload, fun _ => h.computed hopening⟩

end

/-! ### Runs -/

theorem Device.Current.step (h : s.Current sha256 hexError deviceId) {e : Event} (hkeeps : KeepsDate deviceId s e) :
    (s.step sha256 hexError e).Current sha256 hexError deviceId := by
  cases e with
  | clock now => exact h.clock hkeeps
  | zone offset => exact ⟨h.managers, h.beacons⟩
  | startAdvertising i =>
    rw [Device.step]
    exact h.onManager i _ (h.managers i).startAdvertising
  | register i ok =>
    rw [Device.step]
    exact h.onManager i _ ((h.managers i).register hkeeps)
  | stopAdvertising i ok =>
    rw [Device.step]
    exact h.onManager i _ ((h.managers i).stopAdvertising ok)
  | startDiscovery j localDeviceId localDeviceName localPort =>
    rw [Device.step]
    exact h.onBeacon j _ ⟨(h.beacons j).payload, (h.beacons j).computed⟩
  | launch j =>
    rw [Device.step]
    exact h.onBeacon j _ ((h.beacons j).launch hkeeps)
  | bind j bound =>
    rw [Device.step]
    exact h.onBeacon j _ ((h.beacons j).bind hkeeps)
  | stopDiscovery j =>
    rw [Device.step]
    refine h.onBeacon j _ ⟨?_, (h.beacons j).computed⟩
    intro hsends
    exact (h.beacons j).payload (sends_of_stray hsends)
  | listenEnds j =>
    rw [Device.step]
    exact h.onBeacon j _ ⟨(h.beacons j).payload, (h.beacons j).computed⟩
  | announceEnds j =>
    rw [Device.step]
    refine h.onBeacon j _ ⟨?_, (h.beacons j).computed⟩
    intro hsends
    exact (h.beacons j).payload (sends_of_stray hsends)

theorem Device.Current.of_quiet (hown : ∀ i, (s.managers i).deviceId = deviceId) (hquiet : ∀ id, ¬ s.Advertises id)
    (hidle : s.Idle) : s.Current sha256 hexError deviceId where
  managers i := by
    refine ⟨hown i, ?_, ?_⟩
    · intro info hinfo
      exact absurd (.inl ⟨i, info, hinfo, rfl⟩) (hquiet info.id)
    · intro info hinfo
      rw [hidle.1 i] at hinfo
      cases hinfo
  beacons j := by
    refine ⟨?_, fun hopening => absurd (hidle.2 j) hopening⟩
    intro hsends
    exact absurd (.inr ⟨j, hsends, rfl⟩) (hquiet (s.beacons j).localAdvertisedId)

/-- **The id of the day, while the day lasts.** For any device that starts with
nothing advertised and no start under way, any hash and any run whose steps keep
to `KeepsDate`: in every state reached, what any manager or beacon advertises is
the id of the device on the current date in UTC, and so all advertise the same. -/
theorem advertised_today (sha256 : Bytes → Digest) (hexError : String → String) (deviceId : DeviceId) (start : Device)
    (hown : ∀ i, (start.managers i).deviceId = deviceId) (hquiet : ∀ id, ¬ start.Advertises id) (hidle : start.Idle)
    (es : List Event) (hkeeps : Always (Device.step sha256 hexError) start (KeepsDate deviceId) es) :
    (∀ id, (after (Device.step sha256 hexError) start es).Advertises id →
      id = computeAdvertisedIdNow sha256 deviceId (after (Device.step sha256 hexError) start es).now) ∧
    ∀ id id', (after (Device.step sha256 hexError) start es).Advertises id →
      (after (Device.step sha256 hexError) start es).Advertises id' → id = id' := by
  have hcurrent : (after (Device.step sha256 hexError) start es).Current sha256 hexError deviceId :=
    hkeeps.keeps (.of_quiet hown hquiet hidle) fun _ _ hkeep hs => hs.step hkeep
  refine ⟨fun _ => hcurrent.advertised, ?_⟩
  intro id id' hid hid'
  rw [hcurrent.advertised hid, hcurrent.advertised hid']

/-- SHA-256 itself. -/
def realSha256 (bs : Bytes) : Digest := ⟨Sha256.hash bs, Sha256.hash_length bs⟩

/-- The device whose id is thirty-two zeros. -/
def sampleId : DeviceId := ⟨List.replicate 32 0, by decide⟩

/-- A device at the start of a day, its time zone two hours ahead of UTC. -/
def sampleDevice : Device where
  now := 1767225600
  offset := 7200
  managers _ :=
    { deviceId := sampleId, deviceName := "desk", platform := "linux", port := 17394, registeredFullname := none
      daemon := none, starting := none, startedDay := 0 }
  beacons _ :=
    { localDeviceId := "", localDeviceName := "NXFR-Android", localPort := 17394, localAdvertisedId := "", computedFor := ""
      computedDay := 0, launched := 0, opening := 0, listening := false, announcing := false, stray := 0 }

/-- A manager and a beacon start, and an hour passes. -/
def sampleDay : List Event :=
  [.startAdvertising 0, .register 0 true, .startDiscovery 0 (hexEncode sampleId.bytes) "phone" 17394, .launch 0,
    .bind 0 true, .clock 1767229200]

/-- `KeepsDate`, computed, where the clock stays within the day. -/
def keepsDate (deviceId : DeviceId) (s : Device) : Event → Bool
  | .clock now => utcDay now == utcDay s.now
  | .register i _ => (s.managers i).startedDay == utcDay s.now
  | .launch j =>
    localDay s.now s.offset == utcDay s.now && hexDecode (s.beacons j).localDeviceId == some deviceId.bytes
  | .bind j _ =>
    (s.beacons j).computedDay == utcDay s.now && hexDecode (s.beacons j).computedFor == some deviceId.bytes
  | _ => true

theorem keepsDate_sound {e : Event} (h : keepsDate deviceId s e = true) : KeepsDate deviceId s e := by
  cases e with
  | clock now => exact .inl (by simpa [keepsDate] using h)
  | register i ok =>
    intro _ _
    simpa [keepsDate] using h
  | launch j =>
    intro _ _
    simpa [keepsDate] using h
  | bind j bound =>
    intro _ _
    simpa [keepsDate] using h
  | _ => trivial

theorem sampleDevice_quiet (id : String) : ¬ sampleDevice.Advertises id := by
  intro h
  rcases h with ⟨i, info, hinfo, -⟩ | ⟨j, hsends, -⟩
  · cases hinfo
  · cases hsends

theorem advertised_today_sample :
    (after (Device.step realSha256 id) sampleDevice sampleDay).Advertises
        ((after (Device.step realSha256 id) sampleDevice sampleDay).beacons 0).localAdvertisedId ∧
      ((after (Device.step realSha256 id) sampleDevice sampleDay).beacons 0).localAdvertisedId =
        computeAdvertisedIdNow realSha256 sampleId 1767229200 := by
  have hkeeps : Always (Device.step realSha256 id) sampleDevice (KeepsDate sampleId) sampleDay :=
    .of_holds (fun _ _ => keepsDate_sound) (by decide +kernel)
  have hsends : (after (Device.step realSha256 id) sampleDevice sampleDay).Advertises
      ((after (Device.step realSha256 id) sampleDevice sampleDay).beacons 0).localAdvertisedId :=
    .of_payload (by decide +kernel)
  exact ⟨hsends, (advertised_today realSha256 id sampleId sampleDevice (fun _ => rfl) sampleDevice_quiet
    ⟨fun _ => rfl, fun _ => rfl⟩ sampleDay hkeeps).1 _ hsends⟩

/-- A service registered in the last second of 2026-01-01 has the id of that day
on the next; so has a beacon, and a service whose id was computed in that second
and which is registered in the next. And at 22:30 in UTC a beacon two hours ahead
has the id of the next day, which its device's service has not. -/
theorem yesterday_advertised :
    ((after (Device.step realSha256 id) sampleDevice [.clock 1767311999, .startAdvertising 0, .register 0 true,
        .clock 1767312000]).Advertises "6bae46eb8a72ce9d" ∧
      (after (Device.step realSha256 id) sampleDevice [.zone 0, .clock 1767311999,
        .startDiscovery 0 (hexEncode sampleId.bytes) "phone" 17394, .launch 0, .bind 0 true,
        .clock 1767312000]).Advertises "6bae46eb8a72ce9d" ∧
      (after (Device.step realSha256 id) sampleDevice [.clock 1767311999, .startAdvertising 0, .clock 1767312000,
        .register 0 true]).Advertises "6bae46eb8a72ce9d" ∧
      computeAdvertisedIdNow realSha256 sampleId 1767312000 = "5d06724a8dc3ec90") ∧
    (after (Device.step realSha256 id) sampleDevice [.clock 1767306600, .startAdvertising 0, .register 0 true,
        .startDiscovery 0 (hexEncode sampleId.bytes) "phone" 17394, .launch 0, .bind 0 true]).Advertises
          "6bae46eb8a72ce9d" ∧
      (after (Device.step realSha256 id) sampleDevice [.clock 1767306600, .startAdvertising 0, .register 0 true,
        .startDiscovery 0 (hexEncode sampleId.bytes) "phone" 17394, .launch 0, .bind 0 true]).Advertises
          "5d06724a8dc3ec90" ∧
      computeAdvertisedIdNow realSha256 sampleId 1767306600 = "6bae46eb8a72ce9d" := by
  have service (s : Device) (h : (s.managers 0).daemon.map (·.id) = some "6bae46eb8a72ce9d") :
      s.Advertises "6bae46eb8a72ce9d" := .of_service h
  refine ⟨⟨service _ ?_, .inr ⟨0, ?_, ?_⟩, service _ ?_, ?_⟩, service _ ?_, .inr ⟨0, ?_, ?_⟩, ?_⟩
  · decide +kernel
  · decide +kernel
  · decide +kernel
  · decide +kernel
  · decide +kernel
  · decide +kernel
  · decide +kernel
  · decide +kernel
  · decide +kernel

end

end Nxfr.Discovery

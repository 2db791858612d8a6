/-
The table of paired devices (`nxfr-storage/src/db.rs`), on which the check of
a peer's identity rests.

A table is the list of its rows; `device_id` is the primary key. The statements
are what SQLite says of them. `extract_spki` is a parameter: it finds the
public key in a certificate, or fails on bytes that are none.
-/
import Nxfr.History
import Nxfr.Messages

namespace Nxfr.Storage

open History

structure PairedDevice where
  deviceId : String
  name : String
  publicKeySpki : Bytes
  firstSeen : Int
  lastSeen : Int
  trustLevel : String
  autoAccept : String
  deriving DecidableEq

inductive IdentityCheck where
  | matched
  | changed
  | unknown
  deriving DecidableEq

structure PairedDeviceDb where
  rows : List PairedDevice
  deriving DecidableEq

namespace PairedDeviceDb

/-- `UPDATE paired_devices SET … WHERE device_id = …` -/
def update (db : PairedDeviceDb) (deviceId : String) (set : PairedDevice → PairedDevice) : PairedDeviceDb :=
  ⟨db.rows.map fun row => if row.deviceId = deviceId then set row else row⟩

/-- `ON CONFLICT(device_id) DO UPDATE SET …` leaves `first_seen` alone. -/
def insertOrUpdate (db : PairedDeviceDb) (device : PairedDevice) : PairedDeviceDb :=
  if db.rows.any fun row => row.deviceId = device.deviceId then
    db.update device.deviceId fun row =>
      { row with
        name := device.name, publicKeySpki := device.publicKeySpki, lastSeen := device.lastSeen,
        trustLevel := device.trustLevel, autoAccept := device.autoAccept }
  else ⟨db.rows ++ [device]⟩

def lookup (db : PairedDeviceDb) (deviceId : String) : Option PairedDevice :=
  db.rows.find? fun row => row.deviceId = deviceId

def remove (db : PairedDeviceDb) (deviceId : String) : PairedDeviceDb :=
  ⟨db.rows.filter fun row => row.deviceId ≠ deviceId⟩

/-- `now` is the clock. -/
def updateLastSeen (db : PairedDeviceDb) (deviceId : String) (now : Int) : PairedDeviceDb :=
  db.update deviceId fun row => { row with lastSeen := now }

/-- The comparison of `verify_identity`: the differences of all bytes, gathered. -/
def keysMatch (stored incoming : Bytes) : Bool :=
  if stored.length = incoming.length then
    (List.zip stored incoming).foldl (fun diff ab => diff ||| (ab.1 ^^^ ab.2)) 0 == (0 : UInt8)
  else false

/-- A key by its SPKI, if it is a certificate. -/
def normalize (extractSpki : Bytes → Option Bytes) (key : Bytes) : Bytes := (extractSpki key).getD key

def verifyIdentity (extractSpki : Bytes → Option Bytes) (db : PairedDeviceDb) (deviceId : String)
    (incomingKey : Bytes) : IdentityCheck := match db.lookup deviceId with
  | some dev =>
    let storedSpki := normalize extractSpki dev.publicKeySpki
    let incomingSpki := normalize extractSpki incomingKey
    if keysMatch storedSpki incomingSpki then .matched else .changed
  | none => .unknown

end PairedDeviceDb

/-! ## Calls one after another -/

inductive DeviceCall where
  | insertOrUpdate (device : PairedDevice)
  | remove (deviceId : String)
  | updateLastSeen (deviceId : String) (now : Int)
  | lookup (deviceId : String)
  | verifyIdentity (deviceId : String) (incomingKey : Bytes)

def DeviceCall.deviceId : DeviceCall → String
  | .insertOrUpdate device => device.deviceId
  | .remove deviceId | .updateLastSeen deviceId _ | .lookup deviceId | .verifyIdentity deviceId _ => deviceId

def PairedDeviceDb.call (db : PairedDeviceDb) : DeviceCall → PairedDeviceDb
  | .insertOrUpdate device => db.insertOrUpdate device
  | .remove deviceId => db.remove deviceId
  | .updateLastSeen deviceId now => db.updateLastSeen deviceId now
  | .lookup _ | .verifyIdentity .. => db

/-- The `first_seen` of the first insert of a device since its last removal. -/
def firstInsert (deviceId : String) (first : Option Int) : DeviceCall → Option Int
  | .insertOrUpdate device => if device.deviceId = deviceId then some (first.getD device.firstSeen) else first
  | .remove removed => if removed = deviceId then none else first
  | _ => first

/-! ## Rows of one device -/

section

variable {db : PairedDeviceDb} {deviceId other : String} {device : PairedDevice}

theorem lookup_some (h : db.lookup deviceId = some device) : device ∈ db.rows ∧ device.deviceId = deviceId := by
  refine ⟨List.mem_of_find?_eq_some h, ?_⟩
  simpa using List.find?_some h

theorem lookup_none : db.lookup deviceId = none ↔ ∀ row ∈ db.rows, row.deviceId ≠ deviceId := by
  rw [PairedDeviceDb.lookup, List.find?_eq_none]
  simp

/-- An update keeps the ids, and so finds the row it changes under its id. -/
theorem update_lookup {set : PairedDevice → PairedDevice} (hset : ∀ row, (set row).deviceId = row.deviceId) :
    (db.update deviceId set).lookup other =
      (db.lookup other).map fun row => if other = deviceId then set row else row := by
  rw [PairedDeviceDb.lookup, PairedDeviceDb.lookup, PairedDeviceDb.update, List.find?_map]
  have hsame : ((fun row : PairedDevice => decide (row.deviceId = other)) ∘
      fun row => if row.deviceId = deviceId then set row else row) = fun row => decide (row.deviceId = other) := by
    funext row
    rw [Function.comp_apply]
    split
    · rw [hset]
    · rfl
  rw [hsame]
  cases hfind : db.rows.find? fun row => decide (row.deviceId = other) with
  | none => rfl
  | some row =>
    have hid : row.deviceId = other := (lookup_some hfind).2
    rw [Option.map_some, Option.map_some, hid]

theorem update_ids {set : PairedDevice → PairedDevice} (hset : ∀ row, (set row).deviceId = row.deviceId) :
    (db.update deviceId set).rows.map (·.deviceId) = db.rows.map (·.deviceId) := by
  rw [PairedDeviceDb.update, List.map_map]
  refine List.map_congr_left ?_
  intro row _
  rw [Function.comp_apply]
  split
  · exact hset row
  · rfl

theorem update_others {set : PairedDevice → PairedDevice} (hset : ∀ row, (set row).deviceId = row.deviceId)
    (hne : other ≠ deviceId) :
    ((db.update deviceId set).rows.filter fun row => row.deviceId = other) =
      db.rows.filter fun row => row.deviceId = other := by
  rw [PairedDeviceDb.update]
  induction db.rows with
  | nil => rfl
  | cons row rows ih =>
    rw [List.map_cons, List.filter_cons, List.filter_cons, ih]
    split
    · rename_i hid
      have hkept : row.deviceId ≠ other := fun heq => hne (heq.symm.trans hid)
      have hset' : (set row).deviceId ≠ other := by rwa [hset]
      simp [hkept, hset']
    · rfl

theorem any_iff : (db.rows.any fun row => row.deviceId = deviceId) = true ↔ db.lookup deviceId ≠ none := by
  rw [Ne, lookup_none]
  simp

/-- An upsert: the row of the device, with its old `first_seen` if there was
one. -/
theorem insertOrUpdate_lookup :
    (db.insertOrUpdate device).lookup other =
      if other = device.deviceId then
        some { device with firstSeen := ((db.lookup other).map (·.firstSeen)).getD device.firstSeen }
      else db.lookup other := by
  rw [PairedDeviceDb.insertOrUpdate]
  split
  · rename_i hany
    have hsome := any_iff.mp hany
    rw [update_lookup]
    · by_cases hid : other = device.deviceId
      · subst hid
        obtain ⟨row, hrow⟩ := Option.ne_none_iff_exists'.mp hsome
        have hdevice := (lookup_some hrow).2
        simp [hrow, hdevice]
      · simp [hid]
    · intro row
      rfl
  · rename_i hany
    have hnone : db.lookup device.deviceId = none := by
      by_contra hsome
      exact hany (any_iff.mpr hsome)
    rw [PairedDeviceDb.lookup, List.find?_append]
    by_cases hid : other = device.deviceId
    · subst hid
      rw [PairedDeviceDb.lookup] at hnone
      simp [hnone, PairedDeviceDb.lookup]
    · have hne : device.deviceId ≠ other := fun heq => hid heq.symm
      simp [hid, hne, PairedDeviceDb.lookup]

theorem remove_lookup :
    (db.remove deviceId).lookup other = if other = deviceId then none else db.lookup other := by
  by_cases hid : other = deviceId
  · subst hid
    rw [if_pos rfl, lookup_none]
    intro row hrow
    simpa using (List.mem_filter.mp hrow).2
  · rw [if_neg hid, PairedDeviceDb.lookup, PairedDeviceDb.lookup, PairedDeviceDb.remove, List.find?_filter]
    refine congrArg (fun p => List.find? p db.rows) (funext fun row => ?_)
    by_cases hrow : row.deviceId = other
    · simp [hrow, hid]
    · simp [hrow]

theorem updateLastSeen_lookup {now : Int} :
    (db.updateLastSeen deviceId now).lookup other =
      (db.lookup other).map fun row => if other = deviceId then { row with lastSeen := now } else row := by
  rw [PairedDeviceDb.updateLastSeen, update_lookup]
  intro row
  rfl

theorem updateLastSeen_ids {now : Int} :
    (db.updateLastSeen deviceId now).rows.map (·.deviceId) = db.rows.map (·.deviceId) := by
  rw [PairedDeviceDb.updateLastSeen, update_ids]
  intro row
  rfl

/-! ## What every call keeps -/

theorem call_nodup (h : (db.rows.map (·.deviceId)).Nodup) (c : DeviceCall) :
    ((db.call c).rows.map (·.deviceId)).Nodup := by
  cases c with
  | insertOrUpdate device =>
    rw [PairedDeviceDb.call, PairedDeviceDb.insertOrUpdate]
    split
    · rw [update_ids]
      · exact h
      · intro row
        rfl
    · rename_i hany
      have hnew : ∀ row ∈ db.rows, row.deviceId ≠ device.deviceId := by
        intro row hrow heq
        exact hany (List.any_eq_true.mpr ⟨row, hrow, by simpa using heq⟩)
      rw [List.map_append, List.nodup_append]
      refine ⟨h, by simp, ?_⟩
      intro id hid id' hid'
      obtain ⟨row, hrow, rfl⟩ := List.mem_map.mp hid
      rw [List.map_singleton, List.mem_singleton] at hid'
      rw [hid']
      exact hnew row hrow
  | remove deviceId => exact h.sublist (List.filter_sublist.map _)
  | updateLastSeen deviceId now =>
    rw [PairedDeviceDb.call, updateLastSeen_ids]
    exact h
  | lookup deviceId => exact h
  | verifyIdentity deviceId incomingKey => exact h

theorem call_others (c : DeviceCall) (hne : other ≠ c.deviceId) :
    ((db.call c).rows.filter fun row => row.deviceId = other) = db.rows.filter fun row => row.deviceId = other := by
  cases c with
  | insertOrUpdate device =>
    rw [PairedDeviceDb.call, PairedDeviceDb.insertOrUpdate]
    split
    · exact update_others (fun _ => rfl) hne
    · have hdevice : device.deviceId ≠ other := fun heq => hne heq.symm
      simp [List.filter_append, hdevice]
  | remove deviceId =>
    rw [PairedDeviceDb.call, PairedDeviceDb.remove, List.filter_filter]
    refine List.filter_congr fun row _ => ?_
    by_cases hrow : row.deviceId = other
    · have hkept : row.deviceId ≠ deviceId := fun heq => hne (hrow.symm.trans heq)
      simp [hrow, hrow ▸ hkept]
    · simp [hrow]
  | updateLastSeen deviceId now => exact update_others (fun _ => rfl) hne
  | lookup deviceId => rfl
  | verifyIdentity deviceId incomingKey => rfl

theorem call_firstSeen (c : DeviceCall) :
    ((db.call c).lookup other).map (·.firstSeen) = firstInsert other ((db.lookup other).map (·.firstSeen)) c := by
  cases c with
  | insertOrUpdate device =>
    rw [PairedDeviceDb.call, insertOrUpdate_lookup, firstInsert]
    by_cases hid : other = device.deviceId
    · simp [hid]
    · have hne : device.deviceId ≠ other := fun heq => hid heq.symm
      simp [hid, hne]
  | remove deviceId =>
    rw [PairedDeviceDb.call, remove_lookup, firstInsert]
    by_cases hid : other = deviceId
    · simp [hid]
    · have hne : deviceId ≠ other := fun heq => hid heq.symm
      simp [hid, hne]
  | updateLastSeen deviceId now =>
    rw [PairedDeviceDb.call, updateLastSeen_lookup, Option.map_map]
    refine congrArg (fun f => (db.lookup other).map f) (funext fun row => ?_)
    rw [Function.comp_apply]
    split
    · rfl
    · rfl
  | lookup deviceId => rfl
  | verifyIdentity deviceId incomingKey => rfl

/-! ## The comparison of keys -/

theorem diff_eq_zero (ab : List (UInt8 × UInt8)) (diff : UInt8) :
    ab.foldl (fun diff ab => diff ||| (ab.1 ^^^ ab.2)) diff = 0 ↔ diff = 0 ∧ ∀ p ∈ ab, p.1 = p.2 := by
  induction ab generalizing diff with
  | nil => simp
  | cons p ab ih =>
    rw [List.foldl_cons, ih, UInt8.or_eq_zero_iff, UInt8.xor_eq_zero_iff, List.forall_mem_cons, and_assoc]

theorem zip_eq_iff {stored incoming : Bytes} (hlen : stored.length = incoming.length) :
    (∀ p ∈ List.zip stored incoming, p.1 = p.2) ↔ stored = incoming := by
  induction stored generalizing incoming with
  | nil =>
    have hnil : incoming = [] := List.eq_nil_of_length_eq_zero hlen.symm
    simp [hnil]
  | cons a stored ih =>
    cases incoming with
    | nil => cases hlen
    | cons b incoming =>
      rw [List.zip_cons_cons, List.forall_mem_cons, ih (by simpa using hlen), List.cons.injEq]

theorem keysMatch_iff {stored incoming : Bytes} :
    PairedDeviceDb.keysMatch stored incoming = true ↔ stored = incoming := by
  rw [PairedDeviceDb.keysMatch]
  split
  · rename_i hlen
    rw [beq_iff_eq, diff_eq_zero, zip_eq_iff hlen]
    simp
  · rename_i hlen
    constructor
    · intro h
      cases h
    · intro heq
      exact absurd (congrArg List.length heq) hlen

section

variable {extractSpki : Bytes → Option Bytes} {incomingKey : Bytes}

theorem verify_some {dev : PairedDevice} (h : db.lookup deviceId = some dev) :
    db.verifyIdentity extractSpki deviceId incomingKey =
      if (extractSpki dev.publicKeySpki).getD dev.publicKeySpki = (extractSpki incomingKey).getD incomingKey
      then .matched else .changed := by
  rw [PairedDeviceDb.verifyIdentity, h]
  simp only [keysMatch_iff, PairedDeviceDb.normalize]

theorem verify_none (h : db.lookup deviceId = none) :
    db.verifyIdentity extractSpki deviceId incomingKey = .unknown := by
  rw [PairedDeviceDb.verifyIdentity, h]

theorem verify_unknown : db.verifyIdentity extractSpki deviceId incomingKey = .unknown ↔
    ∀ row ∈ db.rows, row.deviceId ≠ deviceId := by
  rw [← lookup_none]
  refine ⟨?_, verify_none⟩
  intro hverify
  cases hfind : db.lookup deviceId with
  | none => rfl
  | some dev =>
    rw [verify_some hfind] at hverify
    split at hverify
    · cases hverify
    · cases hverify

/-- The row of a device is the one `lookup` finds. -/
theorem row_iff (hnodup : (db.rows.map (·.deviceId)).Nodup) {P : PairedDevice → Prop} :
    (∃ row ∈ db.rows, row.deviceId = deviceId ∧ P row) ↔ ∃ row, db.lookup deviceId = some row ∧ P row := by
  constructor
  · intro h
    obtain ⟨row, hrow, hid, hP⟩ := h
    cases hfind : db.lookup deviceId with
    | none => exact absurd hid (lookup_none.mp hfind row hrow)
    | some found =>
      obtain ⟨hmem, hfound⟩ := lookup_some hfind
      have heq : found = row := List.inj_on_of_nodup_map hnodup hmem hrow (hfound.trans hid.symm)
      exact ⟨found, rfl, heq ▸ hP⟩
  · intro h
    obtain ⟨row, hfind, hP⟩ := h
    obtain ⟨hmem, hid⟩ := lookup_some hfind
    exact ⟨row, hmem, hid, hP⟩

theorem verify_matched (hnodup : (db.rows.map (·.deviceId)).Nodup) :
    db.verifyIdentity extractSpki deviceId incomingKey = .matched ↔
      ∃ row ∈ db.rows, row.deviceId = deviceId ∧
        (extractSpki row.publicKeySpki).getD row.publicKeySpki = (extractSpki incomingKey).getD incomingKey := by
  rw [row_iff hnodup]
  cases hfind : db.lookup deviceId with
  | none => simp [verify_none hfind]
  | some dev => simp [verify_some hfind]

theorem verify_changed (hnodup : (db.rows.map (·.deviceId)).Nodup) :
    db.verifyIdentity extractSpki deviceId incomingKey = .changed ↔
      ∃ row ∈ db.rows, row.deviceId = deviceId ∧
        (extractSpki row.publicKeySpki).getD row.publicKeySpki ≠ (extractSpki incomingKey).getD incomingKey := by
  rw [row_iff hnodup]
  cases hfind : db.lookup deviceId with
  | none => simp [verify_none hfind]
  | some dev => simp [verify_some hfind]

end

end

/-- **The table pins a device's key.** After any calls there is at most one row
for a device. Its `first_seen` is that of the first insert since the last
removal. `update_last_seen` changes `last_seen` of the row that is there, and
nothing else. No call touches the rows of another device. The check of an
identity answers `Unknown` without a row, `Matched` when the stored and the
incoming key are the same up to their certificates, and `Changed` otherwise. -/
theorem devices_pinned (extractSpki : Bytes → Option Bytes) (calls : List DeviceCall) :
    ((after PairedDeviceDb.call ⟨[]⟩ calls).rows.map (·.deviceId)).Nodup ∧
    (∀ deviceId, ((after PairedDeviceDb.call ⟨[]⟩ calls).lookup deviceId).map (·.firstSeen) =
      after (firstInsert deviceId) none calls) ∧
    (∀ deviceId now,
      ((after PairedDeviceDb.call ⟨[]⟩ calls).updateLastSeen deviceId now).rows.map (·.deviceId) =
        (after PairedDeviceDb.call ⟨[]⟩ calls).rows.map (·.deviceId) ∧
      ∀ other, ((after PairedDeviceDb.call ⟨[]⟩ calls).updateLastSeen deviceId now).lookup other =
        ((after PairedDeviceDb.call ⟨[]⟩ calls).lookup other).map fun row =>
          if other = deviceId then { row with lastSeen := now } else row) ∧
    (∀ c other, other ≠ DeviceCall.deviceId c →
      (((after PairedDeviceDb.call ⟨[]⟩ calls).call c).rows.filter fun row => row.deviceId = other) =
        (after PairedDeviceDb.call ⟨[]⟩ calls).rows.filter fun row => row.deviceId = other) ∧
    ∀ deviceId incomingKey,
      ((after PairedDeviceDb.call ⟨[]⟩ calls).verifyIdentity extractSpki deviceId incomingKey = .unknown ↔
        ∀ row ∈ (after PairedDeviceDb.call ⟨[]⟩ calls).rows, row.deviceId ≠ deviceId) ∧
      ((after PairedDeviceDb.call ⟨[]⟩ calls).verifyIdentity extractSpki deviceId incomingKey = .matched ↔
        ∃ row ∈ (after PairedDeviceDb.call ⟨[]⟩ calls).rows, row.deviceId = deviceId ∧
          (extractSpki row.publicKeySpki).getD row.publicKeySpki = (extractSpki incomingKey).getD incomingKey) ∧
      ((after PairedDeviceDb.call ⟨[]⟩ calls).verifyIdentity extractSpki deviceId incomingKey = .changed ↔
        ∃ row ∈ (after PairedDeviceDb.call ⟨[]⟩ calls).rows, row.deviceId = deviceId ∧
          (extractSpki row.publicKeySpki).getD row.publicKeySpki ≠ (extractSpki incomingKey).getD incomingKey) := by
  have hnodup : ((after PairedDeviceDb.call ⟨[]⟩ calls).rows.map (·.deviceId)).Nodup := by
    refine after_induction (I := fun _ db => (PairedDeviceDb.rows db |>.map (·.deviceId)).Nodup) ?_ ?_ calls
    · exact List.nodup_nil
    · intro _ c h
      exact call_nodup h c
  refine ⟨hnodup, ?_, fun _ _ => ⟨updateLastSeen_ids, fun _ => updateLastSeen_lookup⟩,
    fun c other hne => call_others c hne, ?_⟩
  · intro deviceId
    refine after_induction
      (I := fun calls (db : PairedDeviceDb) => (db.lookup deviceId).map (·.firstSeen) = after (firstInsert deviceId) none calls) rfl ?_ calls
    intro calls c ih
    rw [after_snoc, call_firstSeen, ih]
  · intro deviceId incomingKey
    exact ⟨verify_unknown, verify_matched hnodup, verify_changed hnodup⟩

end Nxfr.Storage

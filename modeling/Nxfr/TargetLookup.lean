/-
Where a command that names a device connects to: the cache of what mDNS found
(`browse_cache_task` of `nxfr-daemon/src/main.rs`, `browse_snapshot` of
`nxfr-discovery/src/manager.rs`) and the lookup of `cmd_send_streaming` and
`cmd_pair_streaming` (`nxfr-daemon/src/ipc.rs`), for a request without an
address.

The cache is a hash map from hints to entries: a hint is the rotating id that a
peer advertises, and `values` gives the entries in an order of its own. The
request names the device by its permanent id. The lookup takes the first entry
whose hint starts with the first eight bytes of that id, and it cuts them out
once for each entry it looks at: where they end inside a character it panics.
-/
import Nxfr.Advertising
import Nxfr.Casing
import Nxfr.HexFacts

namespace Nxfr.Discovery

open Casing History

/-! ## The browse cache -/

/-- `lastSeen` is in milliseconds. -/
structure BrowseEntry (IpAddr : Type) where
  name : String
  deviceIdHint : String
  addresses : List IpAddr
  port : UInt16
  lastSeen : Nat

structure DiscoveredPeer (IpAddr : Type) where
  name : String
  deviceIdHint : String
  addresses : List IpAddr
  port : UInt16

/-- A map: no two entries have one hint. -/
structure BrowseCache (IpAddr : Type) where
  entries : List (BrowseEntry IpAddr)
  distinct : (entries.map (·.deviceIdHint)).Nodup

variable {IpAddr : Type}

def BrowseCache.retain (cache : BrowseCache IpAddr) (now : Nat) : BrowseCache IpAddr where
  entries := cache.entries.filter fun entry => (now - entry.lastSeen) / 1000 < 60
  distinct := cache.distinct.sublist ((List.filter_sublist).map _)

/-- An entry takes the place of one with the same hint. -/
def BrowseCache.insert (cache : BrowseCache IpAddr) (entry : BrowseEntry IpAddr) : BrowseCache IpAddr where
  entries := entry :: cache.entries.filter fun e => e.deviceIdHint ≠ entry.deviceIdHint
  distinct := by
    rw [List.map_cons, List.nodup_cons]
    refine ⟨fun h => ?_, cache.distinct.sublist ((List.filter_sublist).map _)⟩
    obtain ⟨e, he, heq⟩ := List.mem_map.mp h
    exact of_decide_eq_true (List.mem_filter.mp he).2 heq

def DiscoveredPeer.entry (peer : DiscoveredPeer IpAddr) (now : Nat) : BrowseEntry IpAddr :=
  { name := peer.name, deviceIdHint := peer.deviceIdHint, addresses := peer.addresses, port := peer.port, lastSeen := now }

/-- A turn of the loop of `browse_cache_task`, at `now`. -/
structure Turn (IpAddr : Type) where
  now : Nat
  discovered : List (DiscoveredPeer IpAddr)

def BrowseCache.turn (cache : BrowseCache IpAddr) (t : Turn IpAddr) : BrowseCache IpAddr :=
  t.discovered.foldl (fun c peer => c.insert (peer.entry t.now)) (cache.retain t.now)

def BrowseCache.empty : BrowseCache IpAddr := ⟨[], List.nodup_nil⟩

/-- What a turn may leave in the cache. -/
theorem mem_turn {cache : BrowseCache IpAddr} {t : Turn IpAddr} {e : BrowseEntry IpAddr} (h : e ∈ (cache.turn t).entries) :
    (e ∈ cache.entries ∧ (t.now - e.lastSeen) / 1000 < 60) ∨ ∃ peer ∈ t.discovered, e = peer.entry t.now := by
  suffices hfold : ∀ (peers : List (DiscoveredPeer IpAddr)) (c : BrowseCache IpAddr),
      e ∈ (peers.foldl (fun c peer => c.insert (peer.entry t.now)) c).entries →
        e ∈ c.entries ∨ ∃ peer ∈ peers, e = peer.entry t.now by
    rcases hfold t.discovered _ h with hkept | hnew
    · have hmem := List.mem_filter.mp hkept
      exact .inl ⟨hmem.1, of_decide_eq_true hmem.2⟩
    · exact .inr hnew
  intro peers
  induction peers with
  | nil => exact fun c hc => .inl hc
  | cons peer peers ih =>
    intro c hc
    rcases ih _ hc with hmem | ⟨p, hp, heq⟩
    · rcases List.mem_cons.mp hmem with heq | hold
      · exact .inr ⟨peer, by simp, heq⟩
      · exact .inl (List.mem_of_mem_filter hold)
    · exact .inr ⟨p, by simp [hp], heq⟩

/-- An entry is as a turn of the past found it. -/
def FoundBy (past : List (Turn IpAddr)) (e : BrowseEntry IpAddr) : Prop :=
  ∃ t ∈ past, ∃ peer ∈ t.discovered, e = peer.entry t.now

theorem after_foundBy (past : List (Turn IpAddr)) {e : BrowseEntry IpAddr}
    (h : e ∈ (after BrowseCache.turn BrowseCache.empty past).entries) : FoundBy past e := by
  refine after_induction (I := fun past (cache : BrowseCache IpAddr) => ∀ e ∈ cache.entries, FoundBy past e)
    ?_ ?_ past e h
  · intro e he
    cases he
  · intro past t ih e he
    rcases mem_turn he with ⟨hold, -⟩ | ⟨peer, hpeer, heq⟩
    · obtain ⟨t', ht', hrest⟩ := ih e hold
      exact ⟨t', List.mem_append_left _ ht', hrest⟩
    · exact ⟨t, by simp, peer, hpeer, heq⟩

/-- **Nothing in the cache is older than a minute after a turn.** Each entry is
as some turn found its peer, and less than sixty seconds have passed since. -/
theorem cache_recent (past : List (Turn IpAddr)) (t : Turn IpAddr) {e : BrowseEntry IpAddr}
    (h : e ∈ (after BrowseCache.turn BrowseCache.empty (past ++ [t])).entries) :
    FoundBy (past ++ [t]) e ∧ (t.now - e.lastSeen) / 1000 < 60 := by
  refine ⟨after_foundBy (past ++ [t]) h, ?_⟩
  rw [after_snoc] at h
  rcases mem_turn h with ⟨-, hrecent⟩ | ⟨peer, -, heq⟩
  · exact hrecent
  · have hseen : e.lastSeen = t.now := by rw [heq]; rfl
    omega

/-! ## The lookup -/

/-- What the two commands read of a request. -/
structure IpcRequest where
  path : Option String
  targetDeviceId : Option String
  deviceId : Option String
  targetAddr : Option String

/-- What a command comes to before it connects. -/
inductive Resolved
  | panicked
  | refused (error : String)
  | target (addr : String)
  deriving DecidableEq

def isAsciiHexdigit (c : Char) : Bool :=
  ('0' ≤ c && c ≤ '9') || ('a' ≤ c && c ≤ 'f') || ('A' ≤ c && c ≤ 'F')

section

variable [ToString IpAddr]

/-- `format!` of an address and the port of its entry. -/
def BrowseEntry.targets (e : BrowseEntry IpAddr) : List String :=
  e.addresses.map fun addr => toString addr ++ ":" ++ toString e.port

/-- `cache.values().find(…)`, with the slice in its closure: none is a panic. -/
def findHint (deviceId : Text) : List (BrowseEntry IpAddr) → Option (Option (BrowseEntry IpAddr))
  | [] => some none
  | e :: rest => match sliceTo (min 8 (size deviceId)) deviceId with
    | none => none
    | some start => if start.isPrefixOf e.deviceIdHint.toList then some (some e) else findHint deviceId rest

/-- The address from the cache, whose entries come as `values`. -/
def fromCache (values : List (BrowseEntry IpAddr)) (deviceId missing : String) : Resolved :=
  match findHint deviceId.toList values with
  | none => .panicked
  | some (some entry) => match entry.targets.head? with
    | some addr => .target addr
    | none => .refused "no address for target device"
  | some none => .refused missing

/-- The start of `cmd_send_streaming`. -/
def cmdSendStreaming (values : List (BrowseEntry IpAddr)) (req : IpcRequest) : Resolved :=
  match req.path with
  | none => .refused "missing 'path' field"
  | some _ => match req.targetDeviceId with
    | none => .refused "missing 'target_device_id' field"
    | some targetDeviceId =>
      if size targetDeviceId.toList ≠ 64 || !targetDeviceId.toList.all isAsciiHexdigit then
        .refused "target_device_id must be a 64-character hex string; use `nxfr devices` to find device IDs"
      else match req.targetAddr with
        | some addr => .target addr
        | none => fromCache values targetDeviceId "missing 'target_addr' and device not in browse cache"

/-- The start of `cmd_pair_streaming`. -/
def cmdPairStreaming (values : List (BrowseEntry IpAddr)) (req : IpcRequest) : Resolved :=
  match req.deviceId with
  | none => .refused "missing 'device_id' field"
  | some deviceId => match req.targetAddr with
    | some addr => .target addr
    | none => fromCache values deviceId "missing 'target_addr' — address required when peer is not in cache"

/-- The commands that look a device up, with what else they need. -/
inductive Command
  | send (path : String)
  | pair

/-- A command for a device, without an address. -/
def Command.request (deviceId : String) : Command → IpcRequest
  | .send path => { path := some path, targetDeviceId := some deviceId, deviceId := none, targetAddr := none }
  | .pair => { path := none, targetDeviceId := none, deviceId := some deviceId, targetAddr := none }

def Command.resolve (values : List (BrowseEntry IpAddr)) (deviceId : String) : Command → Resolved
  | .send path => cmdSendStreaming values (Command.request deviceId (.send path))
  | .pair => cmdPairStreaming values (Command.request deviceId .pair)

/-- The command goes on to the lookup with the id. -/
def Command.accepts (deviceId : String) : Command → Bool
  | .send _ => size deviceId.toList = 64 && deviceId.toList.all isAsciiHexdigit
  | .pair => true

/-! ## What a lookup is for -/

section

variable (sha256 : Bytes → Digest) (now : Nat)

/-- The hint is what the device of that id advertises on the date of `now`. -/
def BrowseEntry.IsOf (deviceId : String) (e : BrowseEntry IpAddr) : Prop :=
  ∃ d : DeviceId, hexDecode deviceId = some d.bytes ∧ e.deviceIdHint = computeAdvertisedIdNow sha256 d now

/-- The device has an entry with an address. -/
def Listed (values : List (BrowseEntry IpAddr)) (deviceId : String) : Prop :=
  ∃ e ∈ values, e.IsOf sha256 now deviceId ∧ e.addresses ≠ []

/-- What a lookup is for: it does not panic, an address it comes to is one of the
device's own, and it comes to one where the device has one. -/
structure Reaches (values : List (BrowseEntry IpAddr)) (deviceId : String) (r : Resolved) : Prop where
  whole : r ≠ .panicked
  own : ∀ addr, r = .target addr → ∃ e ∈ values, e.IsOf sha256 now deviceId ∧ addr ∈ e.targets
  found : Listed sha256 now values deviceId → ∃ addr, r = .target addr

/-- The hint starts with the first eight bytes of the id, or all of it. -/
def BrowseEntry.Hinted (deviceId : String) (e : BrowseEntry IpAddr) : Prop :=
  ∃ start, sliceTo (min 8 (size deviceId.toList)) deviceId.toList = some start ∧ start <+: e.deviceIdHint.toList

/-- What of the id and the cache makes the lookup do that. -/
structure Tells (values : List (BrowseEntry IpAddr)) (deviceId : String) : Prop where
  whole : values ≠ [] → (sliceTo (min 8 (size deviceId.toList)) deviceId.toList).isSome
  listed : Listed sha256 now values deviceId → (∃ e ∈ values, e.Hinted deviceId) ∧
    ∀ e ∈ values, e.Hinted deviceId → ∃ addr, e.targets.head? = some addr ∧
      ∃ o ∈ values, o.IsOf sha256 now deviceId ∧ addr ∈ o.targets
  unlisted : ¬ Listed sha256 now values deviceId → ∀ e ∈ values, e.Hinted deviceId → e.addresses = []

end

end

/-! ## The lookup -/

section

variable {values order : List (BrowseEntry IpAddr)} {e : BrowseEntry IpAddr} {deviceId missing : String}

theorem findHint_hinted (h : e.Hinted deviceId) (rest : List (BrowseEntry IpAddr)) :
    findHint deviceId.toList (e :: rest) = some (some e) := by
  obtain ⟨start, hcut, hpre⟩ := h
  rw [findHint, hcut]
  simp only [List.isPrefixOf_iff_prefix.mpr hpre, if_true]

theorem findHint_some (h : findHint deviceId.toList values = some (some e)) : e ∈ values ∧ e.Hinted deviceId := by
  induction values with
  | nil => cases h
  | cons e' rest ih =>
    rw [findHint] at h
    split at h
    · cases h
    · rename_i start hcut
      split at h
      · rename_i hpre
        cases h
        exact ⟨by simp, start, hcut, List.isPrefixOf_iff_prefix.mp hpre⟩
      · exact ⟨List.mem_cons_of_mem _ (ih h).1, (ih h).2⟩

theorem findHint_none (h : findHint deviceId.toList values = some none) : ∀ e ∈ values, ¬ e.Hinted deviceId := by
  induction values with
  | nil => simp
  | cons e' rest ih =>
    intro e he hhint
    rw [findHint] at h
    split at h
    · cases h
    · rename_i start hcut
      split at h
      · cases h
      · rename_i hpre
        rcases List.mem_cons.mp he with heq | hmem
        · obtain ⟨start', hcut', hpre'⟩ := hhint
          rw [hcut] at hcut'
          cases hcut'
          exact hpre (List.isPrefixOf_iff_prefix.mpr (heq ▸ hpre'))
        · exact ih h e hmem hhint

/-- The lookup panics where the first eight bytes are not whole characters,
unless the cache is empty. -/
theorem findHint_panics_iff : findHint deviceId.toList values = none ↔
    values ≠ [] ∧ sliceTo (min 8 (size deviceId.toList)) deviceId.toList = none := by
  induction values with
  | nil => simp [findHint]
  | cons e rest ih =>
    rw [findHint]
    split
    · rename_i hcut
      simp [hcut]
    · rename_i start hcut
      simp only [hcut, reduceCtorEq, and_false, iff_false]
      split
      · simp
      · rw [ih, hcut]
        simp

/-- An entry with the right start may be the first of its map. -/
theorem hinted_first (hmem : e ∈ values) (hhint : e.Hinted deviceId) :
    ∃ order, order.Perm values ∧ findHint deviceId.toList order = some (some e) := by
  obtain ⟨before, later, heq⟩ := List.append_of_mem hmem
  refine ⟨e :: (before ++ later), ?_, findHint_hinted hhint _⟩
  rw [heq]
  exact List.perm_middle.symm

variable {sha256 : Bytes → Digest} {now : Nat}

theorem Listed.perm (h : order.Perm values) : Listed sha256 now order deviceId ↔ Listed sha256 now values deviceId := by
  simp only [Listed, h.mem_iff]

variable [ToString IpAddr]

theorem fromCache_panics_iff : fromCache values deviceId missing = .panicked ↔
    values ≠ [] ∧ sliceTo (min 8 (size deviceId.toList)) deviceId.toList = none := by
  rw [← findHint_panics_iff, fromCache]
  split
  · rename_i h
    simp [h]
  · rename_i entry h
    rw [h]
    split <;> simp
  · rename_i h
    simp [h]

theorem fromCache_target_iff {addr : String} : fromCache values deviceId missing = .target addr ↔
    ∃ e, findHint deviceId.toList values = some (some e) ∧ e.targets.head? = some addr := by
  rw [fromCache]
  constructor
  · intro h
    split at h
    · cases h
    · rename_i entry hfind
      split at h
      · rename_i hhead
        cases h
        exact ⟨entry, hfind, hhead⟩
      · cases h
    · cases h
  · intro ⟨e, hfind, hhead⟩
    simp only [hfind, hhead]

theorem head_targets (h : e.addresses ≠ []) : ∃ addr, e.targets.head? = some addr := by
  obtain ⟨a, rest, heq⟩ := List.exists_cons_of_ne_nil h
  rw [BrowseEntry.targets, heq]
  exact ⟨_, rfl⟩

theorem addresses_of_mem {addr : String} (h : addr ∈ e.targets) : e.addresses ≠ [] := by
  intro hnil
  rw [BrowseEntry.targets, hnil] at h
  cases h

/-! ## Where it does what it is for -/

theorem Tells.perm (h : order.Perm values) (ht : Tells sha256 now values deviceId) : Tells sha256 now order deviceId := by
  refine ⟨fun hne => ht.whole fun hnil => hne ?_, fun hl => ?_, fun hl e he => ?_⟩
  · rw [hnil] at h
    exact h.eq_nil
  · simpa only [h.mem_iff] using ht.listed ((Listed.perm h).mp hl)
  · exact ht.unlisted (fun hl' => hl ((Listed.perm h).mpr hl')) e (h.mem_iff.mp he)

theorem Reaches.perm {r : Resolved} (h : order.Perm values) (hr : Reaches sha256 now order deviceId r) :
    Reaches sha256 now values deviceId r := by
  refine ⟨hr.whole, ?_, fun hl => hr.found ((Listed.perm h).mpr hl)⟩
  simpa only [h.mem_iff] using hr.own

theorem Tells.reaches (h : Tells sha256 now values deviceId) :
    Reaches sha256 now values deviceId (fromCache values deviceId missing) where
  whole := by
    intro hpanic
    obtain ⟨hne, hcut⟩ := fromCache_panics_iff.mp hpanic
    have := h.whole hne
    rw [hcut] at this
    cases this
  own := by
    intro addr htarget
    obtain ⟨e, hfind, hhead⟩ := fromCache_target_iff.mp htarget
    obtain ⟨hmem, hhint⟩ := findHint_some hfind
    by_cases hl : Listed sha256 now values deviceId
    · obtain ⟨addr', hhead', hown⟩ := (h.listed hl).2 e hmem hhint
      rw [hhead] at hhead'
      cases hhead'
      exact hown
    · exact absurd (h.unlisted hl e hmem hhint) (addresses_of_mem (List.mem_of_mem_head? hhead))
  found := by
    intro hl
    obtain ⟨⟨e, hmem, hhint⟩, hall⟩ := h.listed hl
    cases hfind : findHint deviceId.toList values with
    | none =>
      obtain ⟨hne, hcut⟩ := findHint_panics_iff.mp hfind
      have := h.whole hne
      rw [hcut] at this
      cases this
    | some first =>
      cases first with
      | none => exact absurd hhint (findHint_none hfind e hmem)
      | some first =>
        obtain ⟨hfirst, hhinted⟩ := findHint_some hfind
        obtain ⟨addr, hhead, -⟩ := hall first hfirst hhinted
        exact ⟨addr, fromCache_target_iff.mpr ⟨first, hfind, hhead⟩⟩

theorem tells_of_reaches
    (h : ∀ order, order.Perm values → Reaches sha256 now values deviceId (fromCache order deviceId missing)) :
    Tells sha256 now values deviceId where
  whole := by
    intro hne
    by_contra hcut
    exact (h values (.refl _)).whole (fromCache_panics_iff.mpr ⟨hne, Option.not_isSome_iff_eq_none.mp hcut⟩)
  listed := by
    intro hl
    refine ⟨?_, fun e hmem hhint => ?_⟩
    · obtain ⟨addr, htarget⟩ := (h values (.refl _)).found hl
      obtain ⟨e, hfind, -⟩ := fromCache_target_iff.mp htarget
      exact ⟨e, findHint_some hfind⟩
    · obtain ⟨order, hperm, hfind⟩ := hinted_first hmem hhint
      have hr := h order hperm
      obtain ⟨addr, htarget⟩ := hr.found hl
      obtain ⟨e', hfind', hhead⟩ := fromCache_target_iff.mp htarget
      rw [hfind] at hfind'
      cases hfind'
      exact ⟨addr, hhead, hr.own addr htarget⟩
  unlisted := by
    intro hl e hmem hhint
    by_contra hne
    obtain ⟨order, hperm, hfind⟩ := hinted_first hmem hhint
    obtain ⟨addr, hhead⟩ := head_targets hne
    obtain ⟨o, ho, hown, haddr⟩ := (h order hperm).own addr (fromCache_target_iff.mpr ⟨e, hfind, hhead⟩)
    exact hl ⟨o, ho, hown, addresses_of_mem haddr⟩

theorem fromCache_reaches_iff :
    (∀ order, order.Perm values → Reaches sha256 now values deviceId (fromCache order deviceId missing)) ↔
      Tells sha256 now values deviceId :=
  ⟨tells_of_reaches, fun h _ hperm => (h.perm hperm).reaches.perm hperm⟩

/-! ## Ids in hex -/

theorem isAsciiHexdigit_of_value {c : Char} {v : Nat} (h : hexValue c = some v) : isAsciiHexdigit c = true := by
  unfold hexValue at h
  unfold isAsciiHexdigit
  split at h
  · rename_i hd
    simp [hd.1, hd.2]
  · split at h
    · rename_i hl
      simp [hl.1, hl.2]
    · split at h
      · rename_i hu
        simp [hu.1, hu.2]
      · cases h

theorem toNat_hexdigit {c : Char} (h : isAsciiHexdigit c = true) : c.toNat < 0x80 := by
  simp only [isAsciiHexdigit, Bool.or_eq_true, Bool.and_eq_true, decide_eq_true_eq] at h
  rcases h with (⟨-, h⟩ | ⟨-, h⟩) | ⟨-, h⟩
  · exact Nat.lt_of_le_of_lt h (by decide)
  · exact Nat.lt_of_le_of_lt h (by decide)
  · exact Nat.lt_of_le_of_lt h (by decide)

theorem hexPairs_digits {cs : List Char} {bs : Bytes} (h : hexPairs cs = some bs) :
    cs.length = 2 * bs.length ∧ ∀ c ∈ cs, isAsciiHexdigit c = true := by
  induction cs using hexPairs.induct generalizing bs with
  | case1 =>
    cases h
    simp
  | case2 c => cases h
  | case3 a b rest ih =>
    simp only [hexPairs, bind, Option.bind_eq_some_iff, pure, Option.some.injEq] at h
    obtain ⟨hi, hhi, lo, hlo, bs', hrest, heq⟩ := h
    obtain ⟨hlen, hall⟩ := ih hrest
    rw [← heq]
    refine ⟨?_, ?_⟩
    · simp only [List.length_cons]
      omega
    · intro c hc
      rcases List.mem_cons.mp hc with hca | hc
      · exact hca ▸ isAsciiHexdigit_of_value hhi
      · rcases List.mem_cons.mp hc with hcb | hc
        · exact hcb ▸ isAsciiHexdigit_of_value hlo
        · exact hall c hc

/-- The id of a device passes the check of `cmd_send_streaming`. -/
theorem accepts_of_decoded {d : DeviceId} (h : hexDecode deviceId = some d.bytes) (command : Command) :
    command.accepts deviceId = true := by
  cases command with
  | pair => rfl
  | send path =>
    obtain ⟨hlen, hall⟩ := hexPairs_digits h
    have h64 : size deviceId.toList = 64 := by
      rw [size_ascii fun c hc => toNat_hexdigit (hall c hc), hlen, d.size]
    simpa [Command.accepts, h64] using hall

/-- A command that accepts the id looks it up. -/
theorem resolve_accepted {command : Command} (h : command.accepts deviceId = true) :
    ∃ missing, ∀ values : List (BrowseEntry IpAddr), command.resolve values deviceId = fromCache values deviceId missing := by
  cases command with
  | pair => exact ⟨_, fun _ => rfl⟩
  | send path =>
    simp only [Command.accepts, Bool.and_eq_true, decide_eq_true_eq] at h
    exact ⟨"missing 'target_addr' and device not in browse cache", fun _ => if_neg (by simp [h.1, h.2])⟩

/-- One that does not refuses, whatever is in the cache. -/
theorem resolve_refused {command : Command} (h : command.accepts deviceId = false) (values : List (BrowseEntry IpAddr)) :
    ∃ error, command.resolve values deviceId = .refused error := by
  cases command with
  | pair => cases h
  | send path => exact ⟨_, if_pos (by simpa [Command.accepts, ← imp_iff_not_or] using h)⟩

omit [ToString IpAddr] in
theorem not_listed (h : Command.accepts deviceId command = false) : ¬ Listed sha256 now values deviceId := by
  intro ⟨e, _, ⟨d, hd, _⟩, _⟩
  rw [accepts_of_decoded hd command] at h
  cases h

/-- A refusal does what a lookup is for where the device is not listed. -/
theorem refused_reaches {error : String} (h : ¬ Listed sha256 now values deviceId) :
    Reaches sha256 now values deviceId (.refused error) :=
  ⟨fun hp => (by cases hp), fun _ ht => (by cases ht), fun hl => absurd hl h⟩

/-- **When a lookup does what it is for.** Whatever order the cache gives its
entries in, a command that accepts the id does not panic, takes no address but
one of the device's own and takes one where the device has one, exactly where
the id and the cache make it: the start that the lookup compares is made of
whole characters, and it is the start of the hints of entries with an address
of the device's, of one at least, where the device is listed, and of entries
without an address where it is not. -/
theorem target_reached_iff (sha256 : Bytes → Digest) (now : Nat) (command : Command) (cache : BrowseCache IpAddr)
    (deviceId : String) :
    (∀ values, values.Perm cache.entries →
        Reaches sha256 now cache.entries deviceId (command.resolve values deviceId)) ↔
      (command.accepts deviceId = true → Tells sha256 now cache.entries deviceId) := by
  cases haccepts : command.accepts deviceId with
  | true =>
    have hresolved : ∃ missing, ∀ values : List (BrowseEntry IpAddr),
        command.resolve values deviceId = fromCache values deviceId missing := resolve_accepted haccepts
    obtain ⟨missing, hresolve⟩ := hresolved
    simp only [hresolve, fromCache_reaches_iff, forall_const]
  | false =>
    refine ⟨fun _ h => (by cases h), fun _ values _ => ?_⟩
    obtain ⟨error, hrefused⟩ := resolve_refused haccepts values
    rw [hrefused]
    exact refused_reaches (not_listed haccepts)

/-! ## Panics -/

/-- A send never panics: what it looks up is sixty-four digits. -/
theorem cmdSendStreaming_whole (values : List (BrowseEntry IpAddr)) (req : IpcRequest) :
    cmdSendStreaming values req ≠ .panicked := by
  intro h
  unfold cmdSendStreaming at h
  split at h
  · cases h
  · split at h
    · cases h
    · rename_i id hid
      split at h
      · cases h
      · rename_i hhex
        split at h
        · cases h
        · obtain ⟨-, hcut⟩ := fromCache_panics_iff.mp h
          simp only [Bool.or_eq_true, decide_eq_true_eq, Bool.not_eq_true', not_or, Bool.not_eq_false,
            List.all_eq_true, ne_eq, Decidable.not_not] at hhex
          have hascii : ∀ c ∈ id.toList, c.toNat < 0x80 := fun c hc => toNat_hexdigit (hhex.2 c hc)
          rw [sliceTo_ascii hascii (by rw [← size_ascii hascii]; omega)] at hcut
          cases hcut

/-- A pairing panics where eight bytes of the id are not whole characters, while
anything is in the cache. -/
theorem cmdPairStreaming_panics_iff (values : List (BrowseEntry IpAddr)) (deviceId : String) :
    cmdPairStreaming values (Command.request deviceId .pair) = .panicked ↔
      values ≠ [] ∧ sliceTo (min 8 (size deviceId.toList)) deviceId.toList = none :=
  fromCache_panics_iff

/-! ## The start of a hash -/

omit [ToString IpAddr] in
/-- The entry of a device has the start of its id, in small digits, where the
hash of the id and the date has the first four bytes of the id. -/
theorem hinted_own_iff {d : DeviceId} {e : BrowseEntry IpAddr}
    (h : e.deviceIdHint = computeAdvertisedIdNow sha256 d now) :
    e.Hinted (hexEncode d.bytes) ↔
      (sha256 (d.bytes ++ (isoDate (utcDay now)).toUTF8.data.toList)).bytes.take 4 = d.bytes.take 4 := by
  have hlen4 : (d.bytes.take 4).length = 4 := by
    rw [List.length_take, d.size]
    rfl
  have hascii : ∀ c ∈ (hexEncode d.bytes).toList, c.toNat < 0x80 := by
    intro c hc
    rw [hexEncode, String.toList_ofList] at hc
    exact toNat_hexdigit ((hexPairs_digits (hexPairs_encode d.bytes)).2 c hc)
  have hsize : size (hexEncode d.bytes).toList = 64 := by rw [size_ascii hascii, length_hexEncode, d.size]
  have hstart : (hexEncode d.bytes).toList.take 8 = (hexEncode (d.bytes.take 4)).toList := by
    nth_rewrite 1 [← List.take_append_drop 4 d.bytes]
    rw [toList_hexEncode_append, List.take_left' (by rw [length_hexEncode, hlen4])]
  have hcut : sliceTo (min 8 (size (hexEncode d.bytes).toList)) (hexEncode d.bytes).toList =
      some (hexEncode (d.bytes.take 4)).toList := by
    rw [hsize, ← hstart]
    exact sliceTo_ascii hascii (by rw [length_hexEncode, d.size]; decide)
  generalize hdigest : sha256 (d.bytes ++ (isoDate (utcDay now)).toUTF8.data.toList) = digest
  have hlen4' : (digest.bytes.take 4).length = 4 := by
    rw [List.length_take, digest.size]
    rfl
  have hhint : e.deviceIdHint.toList.take 8 = (hexEncode (digest.bytes.take 4)).toList := by
    rw [h, computeAdvertisedIdNow, computeAdvertisedId, advertisedId, hdigest,
      show digest.bytes.take 8 = digest.bytes.take 4 ++ (digest.bytes.drop 4).take 4 from List.take_add (i := 4) (j := 4),
      toList_hexEncode_append, List.take_left' (by rw [length_hexEncode, hlen4'])]
  constructor
  · intro hhinted
    obtain ⟨start, hstart', hpre⟩ := hhinted
    rw [hcut] at hstart'
    cases hstart'
    rw [List.prefix_iff_eq_take, length_hexEncode, hlen4, hhint] at hpre
    exact hexEncode_injective (String.toList_injective hpre.symm)
  · intro heq
    refine ⟨_, hcut, ?_⟩
    rw [List.prefix_iff_eq_take, length_hexEncode, hlen4, hhint, heq]

end

/-! ## A device that is not found -/

/-- What the cache has of a device whose hint is as given. -/
def seen (hint : String) : BrowseEntry String :=
  { name := "desk", deviceIdHint := hint, addresses := ["192.168.1.7"], port := 17394, lastSeen := 0 }

def sampleCache : BrowseCache String := ⟨[seen "6bae46eb8a72ce9d"], by decide⟩

/-- On 2026-01-01 the device of thirty-two zeros is in the cache by the id it
advertises, and neither command finds it. A stranger whose hint starts with
eight zeros is taken for it. And a pairing panics where the eighth byte of the
id is inside a character. -/
theorem target_missed :
    ((∃ e ∈ sampleCache.entries, e.IsOf realSha256 1767229200 (hexEncode sampleId.bytes)) ∧
      ∀ command : Command, ¬ Reaches realSha256 1767229200 sampleCache.entries (hexEncode sampleId.bytes)
        (command.resolve sampleCache.entries (hexEncode sampleId.bytes))) ∧
    (∀ command : Command, ¬ Reaches realSha256 1767229200 [seen "00000000d15ea5ed"] (hexEncode sampleId.bytes)
      (command.resolve [seen "00000000d15ea5ed"] (hexEncode sampleId.bytes))) ∧
    Command.pair.resolve sampleCache.entries "aaaaaaa\u00e9" = .panicked := by
  have hdecoded : hexDecode (hexEncode sampleId.bytes) = some sampleId.bytes := by decide +kernel
  have hadvertised : computeAdvertisedIdNow realSha256 sampleId 1767229200 = "6bae46eb8a72ce9d" := by decide +kernel
  have hof : (seen "6bae46eb8a72ce9d").IsOf realSha256 1767229200 (hexEncode sampleId.bytes) :=
    ⟨sampleId, hdecoded, hadvertised.symm⟩
  refine ⟨⟨⟨_, List.mem_singleton_self _, hof⟩, fun command hr => ?_⟩, fun command hr => ?_, by decide +kernel⟩
  · obtain ⟨addr, htarget⟩ := hr.found ⟨_, List.mem_singleton_self _, hof, by decide⟩
    cases command with
    | send path =>
      have hrefused : (Command.send "").resolve sampleCache.entries (hexEncode sampleId.bytes) =
          .refused "missing 'target_addr' and device not in browse cache" := by decide +kernel
      cases hrefused.symm.trans htarget
    | pair =>
      have hrefused : Command.pair.resolve sampleCache.entries (hexEncode sampleId.bytes) =
          .refused "missing 'target_addr' — address required when peer is not in cache" := by decide +kernel
      cases hrefused.symm.trans htarget
  · have htaken : command.resolve [seen "00000000d15ea5ed"] (hexEncode sampleId.bytes) = .target "192.168.1.7:17394" := by
      cases command with
      | send path => exact (by decide +kernel :
          (Command.send "").resolve [seen "00000000d15ea5ed"] (hexEncode sampleId.bytes) = .target "192.168.1.7:17394")
      | pair => decide +kernel
    obtain ⟨e, he, ⟨d, hd, hhint⟩, -⟩ := hr.own _ htaken
    rw [hdecoded, Option.some.injEq] at hd
    have hsame : sampleId = d := by
      cases d
      cases hd
      rfl
    rw [← hsame, hadvertised, List.mem_singleton.mp he] at hhint
    exact absurd hhint (by decide)

end Nxfr.Discovery

/-
Keys the decoder does not know change nothing.

Entries under other keys may be put into the map of a message, into the maps
of its manifest and into the maps of its resume files, anywhere and as many as
one likes, as long as their values pass the depth check where they stand: the
decoder returns the same message, or the same error.
-/
import Nxfr.RoundTrip

namespace Nxfr.Codec
open Cbor (Value Integer Format)

/-! ## Insertions -/

/-- The keys the decoder asks the map of a message for. -/
def messageKeys : List String :=
  ["type", "protocol_version", "device_id", "device_name", "platform", "capabilities", "is_paired", "session_id",
    "sas_method", "reason", "code", "message", "fatal", "transfer_id", "transfer_type", "display_name", "total_files",
    "total_size", "manifest", "file_id", "stream_id", "relative_path", "size", "sha256", "mime_type", "modified_time",
    "accepted", "message_id", "offset", "length", "status", "failed_files", "file_ids", "resumable", "expiry", "files"]

/-- The keys it asks a manifest entry for. -/
def entryKeys : List String := ["file_id", "relative_path", "type", "size", "sha256"]

/-- The keys it asks a resume file for. -/
def resumeFileKeys : List String := ["file_id", "received_bytes", "received_ranges", "partial_sha256"]

/-- Entries at a depth, and the same with others in between whose keys are
not known and whose values pass the depth check. Where `R` relates the values
of a key, one may stand for the other. -/
inductive Inserted (known : List String) (depth : Nat) (R : String → Value → Value → Prop) :
    List (Value × Value) → List (Value × Value) → Prop
  | nil : Inserted known depth R [] []
  | keep {k v v' : Value} {es es' : List (Value × Value)} (hv : v = v' ∨ ∃ s, k = .text s ∧ R s v v')
      (h : Inserted known depth R es es') : Inserted known depth R ((k, v) :: es) ((k, v') :: es')
  | fresh {s : String} {v : Value} {es es' : List (Value × Value)} (hs : s ∉ known) (hv : Shallow depth v)
      (h : Inserted known depth R es es') : Inserted known depth R es ((.text s, v) :: es')

/-- An item of an array, and the same with entries put into its map. -/
def ItemInserted (known : List String) (x x' : Value) : Prop :=
  x = x' ∨ ∃ es es', x = .map es ∧ x' = .map es' ∧ Inserted known 3 (fun _ _ _ => False) es es'

/-- An array of maps, and the same with entries put into them. -/
def ArrayInserted (known : List String) (v v' : Value) : Prop :=
  ∃ items items', v = .array items ∧ v' = .array items' ∧ List.Forall₂ (ItemInserted known) items items'

/-- The two arrays of maps a message may hold. -/
def FieldInserted (key : String) (v v' : Value) : Prop :=
  (key = "manifest" ∧ ArrayInserted entryKeys v v') ∨ (key = "files" ∧ ArrayInserted resumeFileKeys v v')

/-- The map of a message, and the same with entries put into it, into its
manifest and into its resume files. -/
def MessageInserted (v v' : Value) : Prop :=
  ∃ es es', v = .map es ∧ v' = .map es' ∧ Inserted messageKeys 1 FieldInserted es es'

/-! ## The depth check -/

theorem Shallow.depth_le {depth : Nat} {v : Value} (h : Shallow depth v) : depth ≤ maxCborNesting := by
  rw [Shallow, checkNestingDepth.eq_def] at h
  split at h
  · cases h
  · omega

theorem Inserted.checkEntries {known : List String} {depth : Nat} {R : String → Value → Value → Prop}
    (hR : ∀ s v v', R s v v' → checkNestingDepth v depth = checkNestingDepth v' depth) {es es' : List (Value × Value)}
    (h : Inserted known depth R es es') : checkEntries es depth = checkEntries es' depth := by
  induction h with
  | nil => rfl
  | @keep k v v' es es' hv _ ih =>
    have hsame : checkNestingDepth v depth = checkNestingDepth v' depth := by
      rcases hv with rfl | ⟨s, -, hr⟩
      · rfl
      · exact hR s v v' hr
    rw [Codec.checkEntries, Codec.checkEntries, hsame, ih]
  | @fresh s _ _ _ _ hv _ ih =>
    have hkey : checkNestingDepth (.text s) depth = .ok () := shallow_text hv.depth_le
    rw [ih, Codec.checkEntries, hkey, ok_bind, hv, ok_bind]

theorem checkItems_congr {depth : Nat} {items items' : List Value}
    (h : List.Forall₂ (fun v v' => checkNestingDepth v depth = checkNestingDepth v' depth) items items') :
    checkItems items depth = checkItems items' depth := by
  induction h with
  | nil => rfl
  | cons hv _ ih => rw [checkItems, checkItems, hv, ih]

theorem ItemInserted.check {known : List String} {x x' : Value} (h : ItemInserted known x x') :
    checkNestingDepth x 2 = checkNestingDepth x' 2 := by
  rcases h with rfl | ⟨es, es', rfl, rfl, h⟩
  · rfl
  · rw [checkNestingDepth, checkNestingDepth, h.checkEntries fun _ _ _ hfalse => hfalse.elim]

theorem ArrayInserted.check {known : List String} {v v' : Value} (h : ArrayInserted known v v') :
    checkNestingDepth v 1 = checkNestingDepth v' 1 := by
  obtain ⟨items, items', rfl, rfl, hall⟩ := h
  rw [checkNestingDepth, checkNestingDepth, checkItems_congr (hall.imp fun _ _ h => h.check)]

theorem MessageInserted.check {v v' : Value} (h : MessageInserted v v') : checkNestingDepth v 0 = checkNestingDepth v' 0 := by
  obtain ⟨es, es', rfl, rfl, h⟩ := h
  rw [checkNestingDepth, checkNestingDepth, h.checkEntries]
  rintro s v v' (⟨-, h⟩ | ⟨-, h⟩)
  · exact h.check
  · exact h.check

/-! ## Collecting -/

/-- What two maps hold under a key, up to `R`. -/
def SameField (R : String → Value → Value → Prop) (key : String) (o o' : Option Value) : Prop :=
  o = o' ∨ ∃ v v', o = some v ∧ o' = some v' ∧ R key v v'

/-- Two maps hold the same under the known keys, up to `R`. -/
def SameFields (known : List String) (R : String → Value → Value → Prop) (m m' : CborMap) : Prop :=
  ∀ k ∈ known, SameField R k (m.get k) (m'.get k)

section

variable {known : List String} {R : String → Value → Value → Prop} {m m' : CborMap}

theorem SameFields.empty : SameFields known R .empty .empty := fun _ _ => .inl rfl

theorem SameFields.keep {s : String} {v v' : Value} (h : SameFields known R m m') (hv : v = v' ∨ R s v v') :
    SameFields known R (m.insert s v) (m'.insert s v') := by
  intro k hk
  rw [CborMap.get_insert, CborMap.get_insert]
  split
  · rename_i hs
    rcases hv with rfl | hr
    · exact .inl rfl
    · subst hs
      exact .inr ⟨v, v', rfl, rfl, hr⟩
  · exact h k hk

theorem SameFields.fresh {s : String} {v : Value} (h : SameFields known R m m') (hs : s ∉ known) :
    SameFields known R m (m'.insert s v) := by
  intro k hk
  have hne : s ≠ k := fun hsk => hs (hsk ▸ hk)
  rw [CborMap.get_insert, if_neg hne]
  exact h k hk

/-- Collecting ends the same way for both. -/
theorem Inserted.collect {depth : Nat} {es es' : List (Value × Value)} (h : Inserted known depth R es es')
    (hm : SameFields known R m m') :
    (∃ e, Codec.collect m es = .error e ∧ Codec.collect m' es' = .error e) ∨
      ∃ n n', Codec.collect m es = .ok n ∧ Codec.collect m' es' = .ok n' ∧ SameFields known R n n' := by
  induction h generalizing m m' with
  | nil => exact .inr ⟨m, m', rfl, rfl, hm⟩
  | @keep k v v' es es' hv _ ih =>
    cases k with
    | text s =>
      rw [Codec.collect, Codec.collect]
      refine ih (hm.keep ?_)
      rcases hv with rfl | ⟨s', hs', hr⟩
      · exact .inl rfl
      · cases hs'
        exact .inr hr
    | _ => exact .inl ⟨_, rfl, rfl⟩
  | fresh hs _ _ ih =>
    rw [Codec.collect]
    exact ih (hm.fresh hs)

end

/-! ## Decoding -/

theorem mapM_congr {α β ε : Type} {f : α → Except ε β} {l l' : List α} (h : List.Forall₂ (fun a a' => f a = f a') l l') :
    l.mapM f = l'.mapM f := by
  induction h with
  | nil => rfl
  | cons ha _ ih => rw [List.mapM_cons, List.mapM_cons, ha, ih]

/-- A map of an array, with or without the insertions, is collected to the
same under the known keys, or not at all. -/
theorem ItemInserted.entryMap {known : List String} {x x' : Value} (h : ItemInserted known x x') (field : String) :
    (∃ e, entryMap field x = .error e ∧ Codec.entryMap field x' = .error e) ∨
      ∃ m m', Codec.entryMap field x = .ok m ∧ Codec.entryMap field x' = .ok m' ∧ ∀ k ∈ known, m.get k = m'.get k := by
  rcases h with rfl | ⟨es, es', rfl, rfl, h⟩
  · cases hx : Codec.entryMap field x with
    | error e => exact .inl ⟨e, rfl, rfl⟩
    | ok m => exact .inr ⟨m, m, rfl, rfl, fun _ _ => rfl⟩
  · rcases h.collect SameFields.empty with ⟨e, he, he'⟩ | ⟨n, n', hn, hn', hsame⟩
    · exact .inl ⟨e, he, he'⟩
    · refine .inr ⟨n, n', hn, hn', fun k hk => ?_⟩
      rcases hsame k hk with heq | ⟨_, _, _, _, hfalse⟩
      · exact heq
      · exact hfalse.elim

theorem decodeManifestEntry_inserted {x x' : Value} (h : ItemInserted entryKeys x x') :
    decodeManifestEntry x = decodeManifestEntry x' := by
  unfold decodeManifestEntry
  rcases h.entryMap "manifest[]" with ⟨e, he, he'⟩ | ⟨m, m', hm, hm', hsame⟩
  · rw [he, he']
  · have hid := hsame "file_id" (by decide)
    have hpath := hsame "relative_path" (by decide)
    have htype := hsame "type" (by decide)
    have hsize := hsame "size" (by decide)
    have hsha := hsame "sha256" (by decide)
    rw [hm, hm', ok_bind, ok_bind]
    simp only [getU32, getUint, getUintOpt, getText, getTextOpt, getHash, getHashOpt, getBytes, getBytesOpt, getRequired,
      hid, hpath, htype, hsize, hsha]

theorem decodeResumeFile_inserted {x x' : Value} (h : ItemInserted resumeFileKeys x x') :
    decodeResumeFile x = decodeResumeFile x' := by
  unfold decodeResumeFile
  rcases h.entryMap "files[]" with ⟨e, he, he'⟩ | ⟨m, m', hm, hm', hsame⟩
  · rw [he, he']
  · have hid := hsame "file_id" (by decide)
    have hbytes := hsame "received_bytes" (by decide)
    have hranges := hsame "received_ranges" (by decide)
    have hsha := hsame "partial_sha256" (by decide)
    rw [hm, hm', ok_bind, ok_bind]
    simp only [getU32, getUint, getHashOpt, getBytesOpt, getRequired, hid, hbytes, hranges, hsha]

/-- Arrays of maps whose items are decoded the same. -/
def FieldSame (key : String) (v v' : Value) : Prop :=
  ∃ items items', v = .array items ∧ v' = .array items' ∧
    ((key = "manifest" ∧ List.Forall₂ (fun x x' => decodeManifestEntry x = decodeManifestEntry x') items items') ∨
      (key = "files" ∧ List.Forall₂ (fun x x' => decodeResumeFile x = decodeResumeFile x') items items'))

theorem FieldInserted.same {key : String} {v v' : Value} (h : FieldInserted key v v') : FieldSame key v v' := by
  rcases h with ⟨hkey, items, items', rfl, rfl, hall⟩ | ⟨hkey, items, items', rfl, rfl, hall⟩
  · exact ⟨items, items', rfl, rfl, .inl ⟨hkey, hall.imp fun _ _ hx => decodeManifestEntry_inserted hx⟩⟩
  · exact ⟨items, items', rfl, rfl, .inr ⟨hkey, hall.imp fun _ _ hx => decodeResumeFile_inserted hx⟩⟩

theorem SameFields.imp {known : List String} {R R' : String → Value → Value → Prop} {m m' : CborMap}
    (h : SameFields known R m m') (hR : ∀ k v v', R k v v' → R' k v v') : SameFields known R' m m' := by
  intro k hk
  rcases h k hk with heq | ⟨v, v', hv, hv', hr⟩
  · exact .inl heq
  · exact .inr ⟨v, v', hv, hv', hR k v v' hr⟩

section

variable {map map' : CborMap} (h : SameFields messageKeys FieldSame map map')

include h

/-- Away from the two arrays the maps agree. -/
theorem SameFields.get (key : String) (hk : key ∈ messageKeys) (hmanifest : key ≠ "manifest") (hfiles : key ≠ "files") :
    map.get key = map'.get key := by
  rcases h key hk with heq | ⟨_, _, _, _, _, _, -, -, ⟨hm, -⟩ | ⟨hf, -⟩⟩
  · exact heq
  · exact absurd hm hmanifest
  · exact absurd hf hfiles

theorem SameFields.manifest :
    map.get "manifest" = map'.get "manifest" ∨
      ∃ items items', map.get "manifest" = some (.array items) ∧ map'.get "manifest" = some (.array items') ∧
        List.Forall₂ (fun x x' => decodeManifestEntry x = decodeManifestEntry x') items items' := by
  rcases h "manifest" (by decide) with heq | ⟨v, v', hv, hv', items, items', rfl, rfl, ⟨-, hall⟩ | ⟨hf, -⟩⟩
  · exact .inl heq
  · exact .inr ⟨items, items', hv, hv', hall⟩
  · exact absurd hf (by decide)

theorem SameFields.files :
    map.get "files" = map'.get "files" ∨
      ∃ items items', map.get "files" = some (.array items) ∧ map'.get "files" = some (.array items') ∧
        List.Forall₂ (fun x x' => decodeResumeFile x = decodeResumeFile x') items items' := by
  rcases h "files" (by decide) with heq | ⟨v, v', hv, hv', items, items', rfl, rfl, ⟨hm, -⟩ | ⟨-, hall⟩⟩
  · exact .inl heq
  · exact absurd hm (by decide)
  · exact .inr ⟨items, items', hv, hv', hall⟩

theorem decodeTransferRequest_same : decodeTransferRequest map = decodeTransferRequest map' := by
  have hid := h.get "transfer_id" (by decide) (by decide) (by decide)
  have htype := h.get "transfer_type" (by decide) (by decide) (by decide)
  have hname := h.get "display_name" (by decide) (by decide) (by decide)
  have hfiles := h.get "total_files" (by decide) (by decide) (by decide)
  have hsize := h.get "total_size" (by decide) (by decide) (by decide)
  simp only [decodeTransferRequest, getTransferId, getBytes, getText, getU32, getUint, getRequired, hid, htype, hname, hfiles,
    hsize]
  rcases h.manifest with hsame | ⟨items, items', hitems, hitems', hall⟩
  · simp only [hsame]
  · have hloop : items.mapM decodeManifestEntry = items'.mapM decodeManifestEntry := mapM_congr hall
    simp only [hitems, hitems', arrayItems, ok_bind, hall.length_eq, hloop]

theorem decodeResumeFiles_same {resumable : Bool} : decodeResumeFiles map resumable = decodeResumeFiles map' resumable := by
  unfold decodeResumeFiles
  rcases h.files with hsame | ⟨items, items', hitems, hitems', hall⟩
  · simp only [hsame]
  · have hloop : items.mapM decodeResumeFile = items'.mapM decodeResumeFile := mapM_congr hall
    simp only [hitems, hitems', hloop]

theorem decodeType_same {c : Nat} : decodeType c map = decodeType c map' := by
  have hget : ∀ key, key ∈ messageKeys → key ≠ "manifest" → key ≠ "files" → map.get key = map'.get key := h.get
  have hid := hget "transfer_id" (by decide) (by decide) (by decide)
  have hreason := hget "reason" (by decide) (by decide) (by decide)
  have hversion := hget "protocol_version" (by decide) (by decide) (by decide)
  have hdevice := hget "device_id" (by decide) (by decide) (by decide)
  have hname := hget "device_name" (by decide) (by decide) (by decide)
  have hplatform := hget "platform" (by decide) (by decide) (by decide)
  have hcapabilities := hget "capabilities" (by decide) (by decide) (by decide)
  have hpaired := hget "is_paired" (by decide) (by decide) (by decide)
  have hfile := hget "file_id" (by decide) (by decide) (by decide)
  have hstream := hget "stream_id" (by decide) (by decide) (by decide)
  unfold decodeType
  split
  · simp only [decodeHello, parseVersionArray, getHash, getBytes, getText, getStrArray, getBool, getRequired, hversion, hdevice,
      hname, hplatform, hcapabilities, hpaired]
  · have hsession := hget "session_id" (by decide) (by decide) (by decide)
    simp only [decodeHelloAck, parseVersionArray, getHash, getBytes, getText, getStrArray, getBool, getU32, getUint,
      getRequired, hversion, hdevice, hname, hplatform, hcapabilities, hpaired, hsession]
  · have hmethod := hget "sas_method" (by decide) (by decide) (by decide)
    simp only [decodePairRequest, getText, getRequired, hmethod]
  · rfl
  · simp only [decodeReason, getTextOpt, hreason]
  · simp only [decodeReason, getTextOpt, hreason]
  · have hcode := hget "code" (by decide) (by decide) (by decide)
    have hmessage := hget "message" (by decide) (by decide) (by decide)
    have hfatal := hget "fatal" (by decide) (by decide) (by decide)
    simp only [decodeError, getText, getTextOpt, getBool, getRequired, hcode, hmessage, hfatal]
  · exact decodeTransferRequest_same h
  · simp only [decodeTransferId, getTransferId, getBytes, getRequired, hid]
  · simp only [decodeTransferReason, getTransferId, getBytes, getRequired, getTextOpt, hid, hreason]
  · have hpath := hget "relative_path" (by decide) (by decide) (by decide)
    have hsize := hget "size" (by decide) (by decide) (by decide)
    have hsha := hget "sha256" (by decide) (by decide) (by decide)
    have hmime := hget "mime_type" (by decide) (by decide) (by decide)
    have htime := hget "modified_time" (by decide) (by decide) (by decide)
    simp only [decodeFileMetadata, getTransferId, getHash, getBytes, getU32, getUint, getUintOpt, getText, getTextOpt,
      getRequired, hid, hfile, hstream, hpath, hsize, hsha, hmime, htime]
  · have haccepted := hget "accepted" (by decide) (by decide) (by decide)
    simp only [decodeFileMetadataAck, getTransferId, getBytes, getU32, getUint, getBool, getRequired, hid, hfile, hstream,
      haccepted]
  · have hmessage := hget "message_id" (by decide) (by decide) (by decide)
    have hoffset := hget "offset" (by decide) (by decide) (by decide)
    have hlength := hget "length" (by decide) (by decide) (by decide)
    simp only [decodeChunkAck, getU32, getUint, getRequired, hstream, hmessage, hoffset, hlength]
  · simp only [decodeTransferId, getTransferId, getBytes, getRequired, hid]
  · simp only [decodeTransferId, getTransferId, getBytes, getRequired, hid]
  · simp only [decodeTransferReason, getTransferId, getBytes, getRequired, getTextOpt, hid, hreason]
  · simp only [decodeTransferId, getTransferId, getBytes, getRequired, hid]
  · have hstatus := hget "status" (by decide) (by decide) (by decide)
    have hfailed := hget "failed_files" (by decide) (by decide) (by decide)
    simp only [decodeTransferAck, getTransferId, getBytes, getText, getUintArrayOpt, getRequired, hid, hstatus, hfailed]
  · have hids := hget "file_ids" (by decide) (by decide) (by decide)
    simp only [decodeResumeQuery, getTransferId, getBytes, getUintArrayOpt, getRequired, hid, hids]
  · have hresumable := hget "resumable" (by decide) (by decide) (by decide)
    have hexpiry := hget "expiry" (by decide) (by decide) (by decide)
    simp only [decodeResumeStatus, getTransferId, getBytes, getBool, getUintOpt, getRequired, hid, hresumable, hexpiry,
      decodeResumeFiles_same h]
  · rfl

theorem decodeMap_same : decodeMap map = decodeMap map' := by
  have htype := h.get "type" (by decide) (by decide) (by decide)
  simp only [decodeMap, getUint, getRequired, htype, decodeType_same h]

end

theorem decodeValue_inserted {v v' : Value} (h : MessageInserted v v') : decodeValue v = decodeValue v' := by
  rw [decodeValue, decodeValue, h.check]
  obtain ⟨es, es', rfl, rfl, h⟩ := h
  congr 1
  funext _
  rcases h.collect SameFields.empty with ⟨e, he, he'⟩ | ⟨n, n', hn, hn', hsame⟩
  · rw [toCborMap, toCborMap, he, he']
  · rw [toCborMap, toCborMap, hn, hn', ok_bind, ok_bind, decodeMap_same (hsame.imp fun _ _ _ hr => hr.same)]

/-- **Unknown keys are ignored.** Two payloads whose items differ in entries
the decoder does not know, at the top, in a manifest entry or in a resume
file, decode to the same message or fail with the same error. -/
theorem unknown_keys_ignored {c : Format} {payload payload' rest rest' : Bytes} {v v' : Value}
    (hread : c.fromReader payload = .ok (v, rest)) (hread' : c.fromReader payload' = .ok (v', rest'))
    (h : MessageInserted v v') : decodeControl c payload = decodeControl c payload' := by
  rw [decodeControl, decodeControl, hread, hread']
  exact decodeValue_inserted h

/-- A directory in a manifest, and the same from a newer peer. -/
def olderEntry : Value :=
  .map [(.text "file_id", uintToValue 1), (.text "relative_path", .text "d"), (.text "type", .text "dir")]

def newerEntry : Value :=
  .map [(.text "file_id", uintToValue 1), (.text "mode", uintToValue 0o755), (.text "relative_path", .text "d"),
    (.text "type", .text "dir")]

/-- A TRANSFER_REQUEST for it from either. -/
def olderRequest : Value :=
  .map [(.text "display_name", .text "d"), (.text "manifest", .array [olderEntry]), (.text "total_files", uintToValue 0),
    (.text "total_size", uintToValue 0), (.text "transfer_id", .bytes (List.replicate 16 0xAA)),
    (.text "transfer_type", .text "directory"), (.text "type", uintToValue 0x10)]

def newerRequest : Value :=
  .map [(.text "display_name", .text "d"), (.text "manifest", .array [newerEntry]), (.text "priority", .array [.bool true]),
    (.text "total_files", uintToValue 0), (.text "total_size", uintToValue 0),
    (.text "transfer_id", .bytes (List.replicate 16 0xAA)), (.text "transfer_type", .text "directory"),
    (.text "type", uintToValue 0x10)]

/-- Both are the same request. -/
theorem unknown_keys_ignored_request :
    decodeControl Cbor.definite (Cbor.write olderRequest) = decodeControl Cbor.definite (Cbor.write newerRequest) ∧
      (decodeControl Cbor.definite (Cbor.write olderRequest)).isOk = true := by
  have hread : ∀ v, Cbor.sized v = true → Cbor.definite.fromReader (Cbor.write v) = .ok (v, []) := by
    intro v hv
    have h := @Cbor.definite_read v hv []
    rwa [List.append_nil] at h
  refine ⟨unknown_keys_ignored (hread _ (by decide +kernel)) (hread _ (by decide +kernel)) ?_, by decide +kernel⟩
  have hmode : Shallow 3 (uintToValue 0o755) := shallow_uintToValue (by decide)
  have hpriority : Shallow 1 (.array [.bool true]) := by
    refine shallow_array (by decide) fun v hv => ?_
    rw [List.mem_singleton.mp hv]
    exact shallow_bool (by decide)
  have hentry : ItemInserted entryKeys olderEntry newerEntry :=
    .inr ⟨_, _, rfl, rfl, .keep (.inl rfl) (.fresh (by decide) hmode (.keep (.inl rfl) (.keep (.inl rfl) .nil)))⟩
  have hmanifest : FieldInserted "manifest" (.array [olderEntry]) (.array [newerEntry]) :=
    .inl ⟨rfl, _, _, rfl, rfl, .cons hentry .nil⟩
  refine ⟨_, _, rfl, rfl, .keep (.inl rfl) (.keep (.inr ⟨_, rfl, hmanifest⟩) (.fresh (by decide) hpriority ?_))⟩
  exact .keep (.inl rfl) (.keep (.inl rfl) (.keep (.inl rfl) (.keep (.inl rfl) (.keep (.inl rfl) .nil))))

end Nxfr.Codec

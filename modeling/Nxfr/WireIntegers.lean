/-
The integers of a control message against those on the wire.

The decoder takes integers in four ways: `get_uint` refuses a negative one and
keeps the rest, some of its results are cut to 32 bits by an `as u32`, and the
elements of arrays are cast without a look at their value. So a field is the
integer on the wire only where the cast was harmless.
-/
import Nxfr.RoundTrip

namespace Nxfr.Codec
open Cbor (Value Integer Format)

/-! ## Integers on the wire -/

/-- How the decoder takes an integer: `get_uint`, `get_uint(..)? as u32`, and
the bare `as u32` and `as u64`. -/
inductive Taking where
  | uint | uintAsU32 | bareU32 | bareU64
  deriving DecidableEq

/-- The width of the field it goes to. -/
def Taking.width : Taking → Nat
  | .uint | .bareU64 => 64
  | .uintAsU32 | .bareU32 => 32

/-- What the field gets. -/
def Taking.result : Taking → Int → Nat
  | .uint | .bareU64 => asU64
  | .uintAsU32 | .bareU32 => asU32

/-- What the decoder makes sure of. -/
def Taking.Checked : Taking → Int → Prop
  | .uint, v | .uintAsU32, v => 0 ≤ v
  | .bareU32, _ | .bareU64, _ => True

/-- What it leaves to the sender. -/
def Taking.Trusted : Taking → Int → Prop
  | .uint, _ => True
  | .uintAsU32, v => v < 2 ^ 32
  | .bareU32, v => 0 ≤ v ∧ v < 2 ^ 32
  | .bareU64, v => 0 ≤ v

instance (t : Taking) (v : Int) : Decidable (t.Trusted v) := by
  cases t <;> unfold Taking.Trusted <;> infer_instance

abbrev WireInt := Taking × Integer

def intOf (t : Taking) : Value → List WireInt
  | .integer i => [(t, i)]
  | _ => []

def itemsOf : Value → List Value
  | .array items => items
  | _ => []

/-- The integer under a key. -/
def fieldInt (t : Taking) (map : CborMap) (key : String) : List WireInt := ((map.get key).map (intOf t)).getD []

/-- The items of the array under a key. -/
def fieldItems (map : CborMap) (key : String) : List Value := ((map.get key).map itemsOf).getD []

/-- The integers of the array under a key. -/
def arrayInts (t : Taking) (map : CborMap) (key : String) : List WireInt := (fieldItems map key).flatMap (intOf t)

def entryInts (val : Value) : List WireInt := match entryMap "manifest[]" val with
  | .ok map => fieldInt .uintAsU32 map "file_id" ++ fieldInt .uint map "size"
  | .error _ => []

def resumeFileInts (val : Value) : List WireInt := match entryMap "files[]" val with
  | .ok map => fieldInt .uintAsU32 map "file_id" ++ fieldInt .uint map "received_bytes" ++
    (fieldItems map "received_ranges").flatMap fun range => (itemsOf range).flatMap (intOf .bareU64)
  | .error _ => []

/-- The integers in the fields of a message, by its type. -/
def wireInts (typeCode : Nat) (map : CborMap) : List WireInt := match typeCode with
  | 0x01 => arrayInts .bareU32 map "protocol_version"
  | 0x02 => arrayInts .bareU32 map "protocol_version" ++ fieldInt .uintAsU32 map "session_id"
  | 0x10 => fieldInt .uintAsU32 map "total_files" ++ fieldInt .uint map "total_size" ++
    (fieldItems map "manifest").flatMap entryInts
  | 0x13 => fieldInt .uintAsU32 map "file_id" ++ fieldInt .uintAsU32 map "stream_id" ++ fieldInt .uint map "size" ++
    fieldInt .uint map "modified_time"
  | 0x14 => fieldInt .uintAsU32 map "file_id" ++ fieldInt .uintAsU32 map "stream_id"
  | 0x15 => fieldInt .uintAsU32 map "stream_id" ++ fieldInt .uint map "message_id" ++ fieldInt .uint map "offset" ++
    fieldInt .uint map "length"
  | 0x1A => arrayInts .bareU32 map "failed_files"
  | 0x20 => arrayInts .bareU32 map "file_ids"
  | 0x21 => (match getBool map "resumable" with
      | .ok true => (fieldItems map "files").flatMap resumeFileInts
      | _ => []) ++ fieldInt .uint map "expiry"
  | _ => []

/-- The integers in the fields of the message a payload holds. -/
def payloadInts (c : Format) (payload : Bytes) : List WireInt := match c.fromReader payload with
  | .error _ => []
  | .ok (val, _) => match toCborMap val with
    | .error _ => []
    | .ok map => match getUint map "type" with
      | .error _ => []
      | .ok typeCode => wireInts typeCode map

/-- The integers of a manifest entry. -/
def manifestEntryInts (e : ManifestEntry) : List Nat := e.fileId :: e.size.toList

def resumeFileStatusInts (f : ResumeFileStatus) : List Nat :=
  f.fileId :: f.receivedBytes :: f.receivedRanges.flatMap fun r => [r.1, r.2]

/-- The integers of a message, in the same order. -/
def ints : ControlMessage → List Nat
  | .hello v _ _ _ _ _ => [v.major, v.minor]
  | .helloAck v _ _ _ _ _ sessionId => [v.major, v.minor, sessionId]
  | .transferRequest _ _ _ totalFiles totalSize manifest => totalFiles :: totalSize :: manifest.flatMap manifestEntryInts
  | .fileMetadata _ fileId streamId _ size _ _ modifiedTime => fileId :: streamId :: size :: modifiedTime.toList
  | .fileMetadataAck _ fileId streamId _ => [fileId, streamId]
  | .chunkAck streamId messageId offset length => [streamId, messageId, offset, length]
  | .transferAck _ _ failedFiles => failedFiles.getD []
  | .resumeQuery _ fileIds => fileIds.getD []
  | .resumeStatus _ _ files expiry => (files.getD []).flatMap resumeFileStatusInts ++ expiry.toList
  | _ => []

/-! ## What the casts make of them -/

/-- Every integer of a list was taken as its `Taking` says, to these
results. -/
def Taken (ws : List WireInt) (ns : List Nat) : Prop :=
  ns = ws.map (fun w => w.1.result w.2.val) ∧ ∀ w ∈ ws, w.1.Checked w.2.val

theorem Taken.nil : Taken [] [] := ⟨rfl, fun _ h => by cases h⟩

theorem Taken.append {ws ws' : List WireInt} {ns ns' : List Nat} (h : Taken ws ns) (h' : Taken ws' ns') :
    Taken (ws ++ ws') (ns ++ ns') := by
  refine ⟨by rw [h.1, h'.1, List.map_append], fun w hw => ?_⟩
  rcases List.mem_append.mp hw with hw | hw
  · exact h.2 w hw
  · exact h'.2 w hw

theorem Taken.single {t : Taking} {i : Integer} (h : t.Checked i.val) : Taken [(t, i)] [t.result i.val] := by
  refine ⟨rfl, fun w hw => ?_⟩
  rw [List.mem_singleton.mp hw]
  exact h

/-- A loop takes the integers of its items one after another. -/
theorem Taken.flatMap {α β : Type} {R : α → β → Prop} {f : α → List WireInt} {g : β → List Nat} {l : List α} {r : List β}
    (hstep : ∀ a b, R a b → Taken (f a) (g b)) (h : List.Forall₂ R l r) : Taken (l.flatMap f) (r.flatMap g) := by
  induction h with
  | nil => exact .nil
  | cons hab _ ih =>
    rw [List.flatMap_cons, List.flatMap_cons]
    exact (hstep _ _ hab).append ih

section

variable {map : CborMap} {key : String}

theorem taken_getUint {n : Nat} (h : getUint map key = .ok n) : Taken (fieldInt .uint map key) [n] := by
  obtain ⟨i, hget, hsign, rfl⟩ := getUint_ok h
  simpa [fieldInt, hget, intOf, Taking.result] using Taken.single (t := .uint) hsign

theorem taken_getU32 {n : Nat} (h : getU32 map key = .ok n) : Taken (fieldInt .uintAsU32 map key) [n] := by
  obtain ⟨i, hget, hsign, rfl⟩ := getU32_ok h
  simpa [fieldInt, hget, intOf, Taking.result] using Taken.single (t := .uintAsU32) hsign

theorem taken_getUintOpt {o : Option Nat} (h : getUintOpt map key = .ok o) : Taken (fieldInt .uint map key) o.toList := by
  rcases getUintOpt_ok h with ⟨hget, rfl⟩ | ⟨i, hget, hsign, rfl⟩
  · simpa [fieldInt, hget] using Taken.nil
  · simpa [fieldInt, hget, intOf, Taking.result] using Taken.single (t := .uint) hsign

theorem taken_bare (is : List Integer) :
    Taken ((is.map Value.integer).flatMap (intOf .bareU32)) (is.map fun i => asU32 i.val) := by
  induction is with
  | nil => exact .nil
  | cons i is ih => exact (Taken.single (t := .bareU32) (i := i) trivial).append ih

theorem taken_getUintArrayOpt {o : Option (List Nat)} (h : getUintArrayOpt map key = .ok o) :
    Taken (arrayInts .bareU32 map key) (o.getD []) := by
  rcases getUintArrayOpt_ok h with ⟨hget, rfl⟩ | ⟨is, hget, rfl⟩
  · simpa [arrayInts, fieldItems, hget] using Taken.nil
  · simpa [arrayInts, fieldItems, hget, itemsOf] using taken_bare is

theorem taken_parseVersionArray {v : ProtocolVersion} (h : parseVersionArray map = .ok v) :
    Taken (arrayInts .bareU32 map "protocol_version") [v.major, v.minor] := by
  obtain ⟨a, b, hget, rfl⟩ := parseVersionArray_ok h
  simpa [arrayInts, fieldItems, hget, itemsOf] using taken_bare [a, b]

theorem taken_manifestEntry {val : Value} {e : ManifestEntry} (h : decodeManifestEntry val = .ok e) :
    Taken (entryInts val) (manifestEntryInts e) := by
  obtain ⟨map, hmap, hid, hsize, -⟩ := decodeManifestEntry_ok h
  simp only [entryInts, hmap]
  exact (taken_getU32 hid).append (taken_getUintOpt hsize)

theorem taken_range {val : Value} {r : Nat × Nat} (h : decodeRange val = .ok r) :
    Taken ((itemsOf val).flatMap (intOf .bareU64)) [r.1, r.2] := by
  obtain ⟨a, b, rfl, rfl⟩ := decodeRange_ok h
  exact (Taken.single (t := .bareU64) (i := a) trivial).append (Taken.single (t := .bareU64) (i := b) trivial)

theorem taken_resumeFile {val : Value} {f : ResumeFileStatus} (h : decodeResumeFile val = .ok f) :
    Taken (resumeFileInts val) (resumeFileStatusInts f) := by
  obtain ⟨map, ranges, hmap, hid, hbytes, hget, hranges⟩ := decodeResumeFile_ok h
  simp only [resumeFileInts, hmap]
  have hall : Taken ((fieldItems map "received_ranges").flatMap fun range => (itemsOf range).flatMap (intOf .bareU64))
      (f.receivedRanges.flatMap fun r => [r.1, r.2]) := by
    simp only [fieldItems, hget, Option.map_some, Option.getD_some, itemsOf]
    exact Taken.flatMap (fun v r => taken_range) hranges
  exact ((taken_getU32 hid).append (taken_getUint hbytes)).append hall

theorem taken_manifest {items : List Value} {manifest : List ManifestEntry} (hget : map.get "manifest" = some (.array items))
    (hall : List.Forall₂ (fun v e => decodeManifestEntry v = .ok e) items manifest) :
    Taken ((fieldItems map "manifest").flatMap entryInts) (manifest.flatMap manifestEntryInts) := by
  simp only [fieldItems, hget, Option.map_some, Option.getD_some, itemsOf]
  exact Taken.flatMap (fun v e => taken_manifestEntry) hall

/-- The files of a resumable status are those of the items under `files`. -/
theorem decodeResumeFiles_items {files : Option (List ResumeFileStatus)} (h : decodeResumeFiles map true = .ok files) :
    List.Forall₂ (fun v f => decodeResumeFile v = .ok f) (fieldItems map "files") (files.getD []) := by
  rcases decodeResumeFiles_ok h with ⟨rfl, hnot⟩ | ⟨items, l, -, hget, rfl, hall⟩
  · have hitems : fieldItems map "files" = [] := by
      unfold fieldItems
      cases hfiles : map.get "files" with
      | none => rfl
      | some v =>
        cases v with
        | array items => exact absurd hfiles (hnot rfl items)
        | _ => rfl
    rw [hitems]
    exact .nil
  · simpa only [fieldItems, hget, Option.map_some, Option.getD_some, itemsOf] using hall

theorem taken_resumeFiles {resumable : Bool} {files : Option (List ResumeFileStatus)}
    (hresumable : getBool map "resumable" = .ok resumable) (h : decodeResumeFiles map resumable = .ok files) :
    Taken (match getBool map "resumable" with
      | .ok true => (fieldItems map "files").flatMap resumeFileInts
      | _ => []) ((files.getD []).flatMap resumeFileStatusInts) := by
  rw [hresumable]
  cases resumable with
  | false =>
    cases h
    exact .nil
  | true => exact Taken.flatMap (fun v f => taken_resumeFile) (decodeResumeFiles_items h)

/-- The integers of a decoded message are those on the wire, each taken its
own way. -/
theorem decodeType_taken {c : Nat} {m : ControlMessage} (h : decodeType c map = .ok m) : Taken (wireInts c map) (ints m) := by
  unfold decodeType at h
  unfold wireInts
  split at h
  · simp only [decodeHello, bind_eq_ok, pure_eq_ok, Except.ok.injEq] at h
    obtain ⟨v, hv, d, -, n, -, p, -, cs, -, b, -, rfl⟩ := h
    exact taken_parseVersionArray hv
  · simp only [decodeHelloAck, bind_eq_ok, pure_eq_ok, Except.ok.injEq] at h
    obtain ⟨v, hv, d, -, n, -, p, -, cs, -, b, -, s, hs, rfl⟩ := h
    exact (taken_parseVersionArray hv).append (taken_getU32 hs)
  · simp only [decodePairRequest, bind_eq_ok, pure_eq_ok, Except.ok.injEq] at h
    obtain ⟨s, -, rfl⟩ := h
    exact .nil
  · cases h
    exact .nil
  · simp only [decodeReason, bind_eq_ok, pure_eq_ok, Except.ok.injEq] at h
    obtain ⟨s, -, rfl⟩ := h
    exact .nil
  · simp only [decodeReason, bind_eq_ok, pure_eq_ok, Except.ok.injEq] at h
    obtain ⟨s, -, rfl⟩ := h
    exact .nil
  · simp only [decodeError, bind_eq_ok, pure_eq_ok, Except.ok.injEq] at h
    obtain ⟨code, -, message, -, fatal, -, rfl⟩ := h
    exact .nil
  · obtain ⟨t, ty, n, files, size, items, manifest, rfl, hfiles, hsize, hget, hall⟩ := decodeTransferRequest_ok h
    exact ((taken_getU32 hfiles).append (taken_getUint hsize)).append (taken_manifest hget hall)
  · simp only [decodeTransferId, bind_eq_ok, pure_eq_ok, Except.ok.injEq] at h
    obtain ⟨t, -, rfl⟩ := h
    exact .nil
  · simp only [decodeTransferReason, bind_eq_ok, pure_eq_ok, Except.ok.injEq] at h
    obtain ⟨t, -, r, -, rfl⟩ := h
    exact .nil
  · simp only [decodeFileMetadata, bind_eq_ok, pure_eq_ok, Except.ok.injEq] at h
    obtain ⟨t, -, id, hid, stream, hstream, path, -, size, hsize, d, -, mime, -, time, htime, rfl⟩ := h
    exact (((taken_getU32 hid).append (taken_getU32 hstream)).append (taken_getUint hsize)).append (taken_getUintOpt htime)
  · simp only [decodeFileMetadataAck, bind_eq_ok, pure_eq_ok, Except.ok.injEq] at h
    obtain ⟨t, -, id, hid, stream, hstream, b, -, rfl⟩ := h
    exact (taken_getU32 hid).append (taken_getU32 hstream)
  · simp only [decodeChunkAck, bind_eq_ok, pure_eq_ok, Except.ok.injEq] at h
    obtain ⟨stream, hstream, message, hmessage, offset, hoffset, length, hlength, rfl⟩ := h
    exact (((taken_getU32 hstream).append (taken_getUint hmessage)).append (taken_getUint hoffset)).append
      (taken_getUint hlength)
  · simp only [decodeTransferId, bind_eq_ok, pure_eq_ok, Except.ok.injEq] at h
    obtain ⟨t, -, rfl⟩ := h
    exact .nil
  · simp only [decodeTransferId, bind_eq_ok, pure_eq_ok, Except.ok.injEq] at h
    obtain ⟨t, -, rfl⟩ := h
    exact .nil
  · simp only [decodeTransferReason, bind_eq_ok, pure_eq_ok, Except.ok.injEq] at h
    obtain ⟨t, -, r, -, rfl⟩ := h
    exact .nil
  · simp only [decodeTransferId, bind_eq_ok, pure_eq_ok, Except.ok.injEq] at h
    obtain ⟨t, -, rfl⟩ := h
    exact .nil
  · simp only [decodeTransferAck, bind_eq_ok, pure_eq_ok, Except.ok.injEq] at h
    obtain ⟨t, -, name, -, status, -, failed, hfailed, rfl⟩ := h
    exact taken_getUintArrayOpt hfailed
  · simp only [decodeResumeQuery, bind_eq_ok, pure_eq_ok, Except.ok.injEq] at h
    obtain ⟨t, -, ids, hids, rfl⟩ := h
    exact taken_getUintArrayOpt hids
  · simp only [decodeResumeStatus, bind_eq_ok, pure_eq_ok, Except.ok.injEq] at h
    obtain ⟨t, -, resumable, hresumable, expiry, hexpiry, files, hfiles, rfl⟩ := h
    exact (taken_resumeFiles hresumable hfiles).append (taken_getUintOpt hexpiry)
  · cases h

end

theorem decodeControl_taken {c : Format} {payload : Bytes} {m : ControlMessage} (h : decodeControl c payload = .ok m) :
    Taken (payloadInts c payload) (ints m) := by
  obtain ⟨v, rest, hread, hv⟩ := decodeControl_ok h
  obtain ⟨map, code, -, hmap, hcode, htype⟩ := decodeValue_ok hv
  simp only [payloadInts, hread, hmap, hcode]
  exact decodeType_taken htype

/-- A cast that checks what it checks gives the integer exactly when the rest
is right. -/
theorem Taking.result_eq_iff {t : Taking} {i : Integer} (h : t.Checked i.val) :
    (t.result i.val : Int) = i.val ∧ 0 ≤ i.val ∧ i.val < 2 ^ t.width ↔ t.Trusted i.val := by
  have hlower := i.lower
  have hupper := i.upper
  cases t <;> simp only [result, Checked, Trusted, width, asU32, asU64, iff_true] at h ⊢ <;> omega

/-- **When a decoded integer is the one on the wire.** The fields of a decoded
message are the integers of its payload, all of them in the range of their
field, exactly if those the decoder casts unseen are: numbers it cuts to 32
bits are below `2 ^ 32`, elements of arrays are below it too and not
negative, and the bounds of received ranges are not negative. -/
theorem integers_exact_iff {c : Format} {payload : Bytes} {m : ControlMessage} (h : decodeControl c payload = .ok m) :
    ((ints m).map Int.ofNat = (payloadInts c payload).map (fun w => w.2.val) ∧
        ∀ w ∈ payloadInts c payload, 0 ≤ w.2.val ∧ w.2.val < 2 ^ w.1.width) ↔
      ∀ w ∈ payloadInts c payload, w.1.Trusted w.2.val := by
  obtain ⟨hints, hchecked⟩ := decodeControl_taken h
  rw [hints, List.map_map, List.map_inj_left]
  constructor
  · intro hexact w hw
    exact (Taking.result_eq_iff (hchecked w hw)).mp ⟨hexact.1 w hw, hexact.2 w hw⟩
  · intro htrusted
    have hexact := fun w hw => (Taking.result_eq_iff (hchecked w hw)).mpr (htrusted w hw)
    exact ⟨fun w hw => (hexact w hw).1, fun w hw => (hexact w hw).2⟩

/-! ## Examples -/

/-- A CHUNK_ACK for stream 7 as bytes, and one for stream `2 ^ 32`. -/
def ackValue (stream : Nat) : Value :=
  .map [(.text "length", uintToValue 1), (.text "message_id", uintToValue 1), (.text "offset", uintToValue 0),
    (.text "stream_id", uintToValue stream), (.text "type", uintToValue 0x15)]

/-- In the first every integer is the one on the wire. -/
theorem integers_exact_stream :
    ∃ m, decodeControl Cbor.definite (Cbor.write (ackValue 7)) = .ok m ∧
      (ints m).map Int.ofNat = (payloadInts Cbor.definite (Cbor.write (ackValue 7))).map fun w => w.2.val := by
  have hdecode : decodeControl Cbor.definite (Cbor.write (ackValue 7)) = .ok (.chunkAck 7 1 0 1) := by decide +kernel
  exact ⟨_, hdecode, ((integers_exact_iff hdecode).mpr (by decide +kernel)).1⟩

/-- In the second the stream is zero. -/
theorem stream_truncated :
    ∃ m, decodeControl Cbor.definite (Cbor.write (ackValue (2 ^ 32))) = .ok m ∧ ints m = [0, 1, 0, 1] ∧
      (payloadInts Cbor.definite (Cbor.write (ackValue (2 ^ 32)))).map (fun w => w.2.val) = [4294967296, 1, 0, 1] := by
  exact ⟨.chunkAck 0 1 0 1, by decide +kernel, rfl, by decide +kernel⟩

end Nxfr.Codec

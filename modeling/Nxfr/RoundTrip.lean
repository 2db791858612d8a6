/-
The control codec reads back what it writes.

Message by message, decoding the map the encoder builds gives the message; the
depth check lets it pass; and whatever the decoder returns is in canonical
form, so decoding, encoding and decoding again changes nothing.
-/
import Nxfr.CborText
import Nxfr.CodecFacts

namespace Nxfr.Codec
open Cbor (Value Integer Format)

/-! ## Messages -/

/-- The widths of the source's fields. -/
def VersionFits (v : ProtocolVersion) : Prop := v.major < 2 ^ 32 ∧ v.minor < 2 ^ 32

def EntryFits (e : ManifestEntry) : Prop := e.fileId < 2 ^ 32 ∧ ∀ n ∈ e.size, n < 2 ^ 64

def ResumeFileFits (f : ResumeFileStatus) : Prop :=
  f.fileId < 2 ^ 32 ∧ f.receivedBytes < 2 ^ 64 ∧ ∀ r ∈ f.receivedRanges, r.1 < 2 ^ 64 ∧ r.2 < 2 ^ 64

/-- The numbers of a message are ones its `u32` and `u64` fields can hold. -/
def Fits : ControlMessage → Prop
  | .hello v _ _ _ _ _ => VersionFits v
  | .helloAck v _ _ _ _ _ sessionId => VersionFits v ∧ sessionId < 2 ^ 32
  | .transferRequest _ _ _ totalFiles totalSize manifest =>
    totalFiles < 2 ^ 32 ∧ totalSize < 2 ^ 64 ∧ ∀ e ∈ manifest, EntryFits e
  | .fileMetadata _ fileId streamId _ size _ _ modifiedTime =>
    fileId < 2 ^ 32 ∧ streamId < 2 ^ 32 ∧ size < 2 ^ 64 ∧ ∀ n ∈ modifiedTime, n < 2 ^ 64
  | .fileMetadataAck _ fileId streamId _ => fileId < 2 ^ 32 ∧ streamId < 2 ^ 32
  | .chunkAck streamId messageId offset length =>
    streamId < 2 ^ 32 ∧ messageId < 2 ^ 64 ∧ offset < 2 ^ 64 ∧ length < 2 ^ 64
  | .transferAck _ _ failedFiles => ∀ l ∈ failedFiles, ∀ n ∈ l, n < 2 ^ 32
  | .resumeQuery _ fileIds => ∀ l ∈ fileIds, ∀ n ∈ l, n < 2 ^ 32
  | .resumeStatus _ _ files expiry => (∀ l ∈ files, ∀ f ∈ l, ResumeFileFits f) ∧ ∀ n ∈ expiry, n < 2 ^ 64
  | _ => True

/-- The strings with a platform of their own. -/
def platformNames : List String := ["linux", "android", "windows", "macos", "ios"]

def PlatformCanonical : Platform → Prop
  | .other s => s ∉ platformNames
  | _ => True

/-- The strings with an error code of their own. -/
def errorCodeNames : List String :=
  ["unsupported_version", "invalid_frame", "payload_too_large", "invalid_cbor", "unknown_message_type", "session_timeout",
    "checksum_mismatch", "disk_full", "storage_error", "path_rejected", "transfer_not_found", "stream_not_found",
    "identity_changed", "pair_required", "rate_limited", "internal_error", "manifest_too_large"]

def ErrorCodeCanonical : ErrorCode → Prop
  | .unknown s => s ∉ errorCodeNames
  | _ => True

/-- A file has a size and a hash. -/
def EntryCanonical (e : ManifestEntry) : Prop := e.entryType = .file → e.size.isSome ∧ e.sha256.isSome

/-- The messages the wire can say: no details of an error, no known name
under another constructor, no file without size or hash, and no files in a
status that is not resumable. -/
def Canonical : ControlMessage → Prop
  | .hello _ _ _ platform _ _ => PlatformCanonical platform
  | .helloAck _ _ _ platform _ _ _ => PlatformCanonical platform
  | .error code _ _ details => ErrorCodeCanonical code ∧ details = none
  | .transferRequest _ _ _ _ _ manifest => ∀ e ∈ manifest, EntryCanonical e
  | .resumeStatus _ resumable files _ => resumable = false → files = none
  | _ => True

theorem platformFromStrLossy_str {p : Platform} (h : PlatformCanonical p) : platformFromStrLossy (platformStr p) = p := by
  cases p with
  | other s =>
    simp only [PlatformCanonical, platformNames, List.mem_cons, List.not_mem_nil, or_false, not_or] at h
    unfold platformStr platformFromStrLossy
    split <;> simp_all
  | _ => rfl

theorem platformFromStrLossy_canonical {s : String} : PlatformCanonical (platformFromStrLossy s) := by
  unfold platformFromStrLossy
  split <;> simp_all [PlatformCanonical, platformNames]

theorem errorCodeFromWireStr_str {code : ErrorCode} (h : ErrorCodeCanonical code) :
    errorCodeFromWireStr (errorCodeStr code) = code := by
  cases code with
  | unknown s =>
    simp only [ErrorCodeCanonical, errorCodeNames, List.mem_cons, List.not_mem_nil, or_false, not_or] at h
    unfold errorCodeStr errorCodeFromWireStr
    split <;> simp_all
  | _ => rfl

theorem errorCodeFromWireStr_canonical {s : String} : ErrorCodeCanonical (errorCodeFromWireStr s) := by
  unfold errorCodeFromWireStr
  split <;> simp_all [ErrorCodeCanonical, errorCodeNames]

/-! ## Round trips -/

attribute [local simp] CborMap.get_insert CborMap.get_insertOpt

theorem entryMap_mapToValue {field : String} {m : CborMap} : entryMap field (mapToValue m) = .ok m := collect_toList

@[simp] theorem entryTypeOf_name {mixed : Bool} {t : ManifestEntryType} : entryTypeOf (entryTypeName mixed t) = .ok t := by
  cases t with
  | file => cases mixed <;> rfl
  | dir => rfl

@[simp] theorem transferTypeOf_name {t : TransferType} : transferTypeOf (transferTypeName t) = .ok t := by
  cases t <;> rfl

@[simp] theorem ackStatusOf_name {t : TransferAckStatus} : ackStatusOf (ackStatusName t) = .ok t := by
  cases t <;> rfl

theorem decodeManifestEntry_encode {mixed : Bool} {e : ManifestEntry} (hfits : EntryFits e) (hcanon : EntryCanonical e) :
    decodeManifestEntry (encodeManifestEntry mixed e) = .ok e := by
  obtain ⟨fileId, relativePath, size, sha256, entryType⟩ := e
  obtain ⟨hid, hsize⟩ := hfits
  simp only [decodeManifestEntry, encodeManifestEntry, entryMap_mapToValue, ok_bind]
  rw [getU32_uint (by simp) hid, ok_bind, getText_text (s := relativePath) (by simp), ok_bind,
    getTextOpt_text (o := entryTypeName mixed entryType) (by simp), ok_bind, entryTypeOf_name, ok_bind]
  cases entryType with
  | file =>
    obtain ⟨hs, hd⟩ := hcanon rfl
    obtain ⟨n, rfl⟩ := Option.isSome_iff_exists.mp hs
    obtain ⟨d, rfl⟩ := Option.isSome_iff_exists.mp hd
    simp only
    rw [getUint_uint (by simp) (hsize n rfl), ok_bind, getHash_bytes (d := d) (by simp), ok_bind, pure_eq_ok]
  | dir =>
    simp only
    rw [getUintOpt_uint (o := size) (by simp) hsize, ok_bind, getHashOpt_bytes (o := sha256) (by simp), ok_bind, pure_eq_ok]

theorem decodeRange_encode {r : Nat × Nat} (h : r.1 < 2 ^ 64 ∧ r.2 < 2 ^ 64) :
    decodeRange (.array [uintToValue r.1, uintToValue r.2]) = .ok r := by
  simp only [decodeRange, rangeBound, uintToValue, ok_bind, asU64_ofNat h.1, asU64_ofNat h.2, pure_eq_ok]

theorem decodeResumeFile_encode {f : ResumeFileStatus} (hfits : ResumeFileFits f) :
    decodeResumeFile (encodeResumeFile f) = .ok f := by
  obtain ⟨fileId, receivedBytes, receivedRanges, partialSha256⟩ := f
  obtain ⟨hid, hbytes, hranges⟩ := hfits
  simp only [decodeResumeFile, encodeResumeFile, entryMap_mapToValue, ok_bind]
  rw [getU32_uint (n := fileId) (by simp) hid, ok_bind, getUint_uint (n := receivedBytes) (by simp) hbytes, ok_bind,
    getRequired_some (v := .array (receivedRanges.map fun r => .array [uintToValue r.1, uintToValue r.2])) (by simp),
    ok_bind, arrayItems, ok_bind, mapM_map fun r hr => decodeRange_encode (hranges r hr), ok_bind,
    getHashOpt_bytes (o := partialSha256) (by simp), ok_bind, pure_eq_ok]

theorem decodeResumeFiles_encode {map : CborMap} {resumable : Bool} {o : Option (List ResumeFileStatus)}
    (h : map.get "files" = o.map fun files => .array (files.map encodeResumeFile))
    (hfits : ∀ l ∈ o, ∀ f ∈ l, ResumeFileFits f) (hcanon : resumable = false → o = none) :
    decodeResumeFiles map resumable = .ok o := by
  cases resumable with
  | false =>
    rw [hcanon rfl]
    rfl
  | true =>
    rw [decodeResumeFiles, if_pos rfl, h]
    cases o with
    | none => rfl
    | some files =>
      simp only [Option.map_some]
      rw [mapM_map fun f hf => decodeResumeFile_encode (hfits files rfl f hf), map_ok]

theorem decodeMap_type {map : CborMap} {c : Nat} (h : map.get "type" = some (uintToValue c)) (hc : c < 2 ^ 64) :
    decodeMap map = decodeType c map := by
  rw [decodeMap, getUint_uint h hc, ok_bind]

attribute [local simp] encodeTransferId encodeHello

/-- Decoding the map of a message gives the message. -/
theorem decodeMap_encodeToMap {m : ControlMessage} {map : CborMap} (hfits : Fits m) (hcanon : Canonical m)
    (h : encodeToMap m = .ok map) : decodeMap map = .ok m := by
  cases m with
  | hello v deviceId deviceName platform capabilities isPaired =>
    cases h
    rw [decodeMap_type (c := 0x01) (by simp) (by decide), decodeType, decodeHello,
      parseVersionArray_version (v := v) (by simp) hfits.1 hfits.2, ok_bind, getHash_bytes (d := deviceId) (by simp), ok_bind,
      getText_text (s := deviceName) (by simp), ok_bind, getText_text (s := platformStr platform) (by simp), ok_bind,
      getStrArray_texts (l := capabilities) (by simp), ok_bind, getBool_bool (b := isPaired) (by simp), ok_bind, pure_eq_ok,
      platformFromStrLossy_str hcanon]
  | helloAck v deviceId deviceName platform capabilities isPaired sessionId =>
    cases h
    rw [decodeMap_type (c := 0x02) (by simp) (by decide), decodeType, decodeHelloAck,
      parseVersionArray_version (v := v) (by simp) hfits.1.1 hfits.1.2, ok_bind, getHash_bytes (d := deviceId) (by simp),
      ok_bind, getText_text (s := deviceName) (by simp), ok_bind, getText_text (s := platformStr platform) (by simp), ok_bind,
      getStrArray_texts (l := capabilities) (by simp), ok_bind, getBool_bool (b := isPaired) (by simp), ok_bind,
      getU32_uint (n := sessionId) (by simp) hfits.2, ok_bind, pure_eq_ok, platformFromStrLossy_str hcanon]
  | pairRequest sasMethod =>
    cases h
    rw [decodeMap_type (c := 0x03) (by simp) (by decide), decodeType, decodePairRequest,
      getText_text (s := sasMethod) (by simp), ok_bind, pure_eq_ok]
  | pairAccept =>
    cases h
    rw [decodeMap_type (c := 0x04) (by simp) (by decide), decodeType]
  | pairReject reason =>
    cases h
    rw [decodeMap_type (c := 0x05) (by simp) (by decide), decodeType, decodeReason,
      getTextOpt_text (o := reason) (by simp), ok_bind, pure_eq_ok]
  | sessionClose reason =>
    cases h
    rw [decodeMap_type (c := 0x06) (by simp) (by decide), decodeType, decodeReason,
      getTextOpt_text (o := reason) (by simp), ok_bind, pure_eq_ok]
  | error code message fatal details =>
    cases h
    rw [decodeMap_type (c := 0x09) (by simp) (by decide), decodeType, decodeError,
      getText_text (s := errorCodeStr code) (by simp), ok_bind, getTextOpt_text (o := message) (by simp), ok_bind,
      getBool_bool (b := fatal) (by simp), ok_bind, pure_eq_ok, errorCodeFromWireStr_str hcanon.1, hcanon.2]
  | transferRequest transferId transferType displayName totalFiles totalSize manifest =>
    obtain ⟨hfiles, hsize, hentries⟩ := hfits
    rw [encodeToMap] at h
    split at h
    · cases h
    rename_i hcount
    cases h
    rw [decodeMap_type (c := 0x10) (by simp) (by decide), decodeType, decodeTransferRequest,
      getTransferId_bytes (t := transferId) (by simp), ok_bind, getText_text (s := transferTypeName transferType) (by simp),
      ok_bind, transferTypeOf_name, ok_bind, getText_text (s := displayName) (by simp), ok_bind,
      getU32_uint (n := totalFiles) (by simp) hfiles, ok_bind, getUint_uint (n := totalSize) (by simp) hsize, ok_bind,
      getRequired_some (v := encodeManifest manifest) (by simp), ok_bind, encodeManifest, arrayItems, ok_bind,
      if_neg (by rwa [List.length_map]),
      mapM_map fun e he => decodeManifestEntry_encode (hentries e he) (hcanon e he), ok_bind, pure_eq_ok]
  | transferAccept transferId =>
    cases h
    rw [decodeMap_type (c := 0x11) (by simp) (by decide), decodeType, decodeTransferId,
      getTransferId_bytes (t := transferId) (by simp), ok_bind, pure_eq_ok]
  | transferReject transferId reason =>
    cases h
    rw [decodeMap_type (c := 0x12) (by simp) (by decide), decodeType, decodeTransferReason,
      getTransferId_bytes (t := transferId) (by simp), ok_bind, getTextOpt_text (o := reason) (by simp), ok_bind, pure_eq_ok]
  | fileMetadata transferId fileId streamId relativePath size sha256 mimeType modifiedTime =>
    obtain ⟨hid, hstream, hsize, htime⟩ := hfits
    cases h
    rw [decodeMap_type (c := 0x13) (by simp) (by decide), decodeType, decodeFileMetadata,
      getTransferId_bytes (t := transferId) (by simp), ok_bind, getU32_uint (n := fileId) (by simp) hid, ok_bind,
      getU32_uint (n := streamId) (by simp) hstream, ok_bind, getText_text (s := relativePath) (by simp), ok_bind,
      getUint_uint (n := size) (by simp) hsize, ok_bind, getHash_bytes (d := sha256) (by simp), ok_bind,
      getTextOpt_text (o := mimeType) (by simp), ok_bind, getUintOpt_uint (o := modifiedTime) (by simp) htime, ok_bind,
      pure_eq_ok]
  | fileMetadataAck transferId fileId streamId accepted =>
    cases h
    rw [decodeMap_type (c := 0x14) (by simp) (by decide), decodeType, decodeFileMetadataAck,
      getTransferId_bytes (t := transferId) (by simp), ok_bind, getU32_uint (n := fileId) (by simp) hfits.1, ok_bind,
      getU32_uint (n := streamId) (by simp) hfits.2, ok_bind, getBool_bool (b := accepted) (by simp), ok_bind, pure_eq_ok]
  | chunkAck streamId messageId offset length =>
    obtain ⟨hstream, hmessage, hoffset, hlength⟩ := hfits
    cases h
    rw [decodeMap_type (c := 0x15) (by simp) (by decide), decodeType, decodeChunkAck,
      getU32_uint (n := streamId) (by simp) hstream, ok_bind, getUint_uint (n := messageId) (by simp) hmessage, ok_bind,
      getUint_uint (n := offset) (by simp) hoffset, ok_bind, getUint_uint (n := length) (by simp) hlength, ok_bind,
      pure_eq_ok]
  | transferPause transferId =>
    cases h
    rw [decodeMap_type (c := 0x16) (by simp) (by decide), decodeType, decodeTransferId,
      getTransferId_bytes (t := transferId) (by simp), ok_bind, pure_eq_ok]
  | transferResume transferId =>
    cases h
    rw [decodeMap_type (c := 0x17) (by simp) (by decide), decodeType, decodeTransferId,
      getTransferId_bytes (t := transferId) (by simp), ok_bind, pure_eq_ok]
  | transferCancel transferId reason =>
    cases h
    rw [decodeMap_type (c := 0x18) (by simp) (by decide), decodeType, decodeTransferReason,
      getTransferId_bytes (t := transferId) (by simp), ok_bind, getTextOpt_text (o := reason) (by simp), ok_bind, pure_eq_ok]
  | transferComplete transferId =>
    cases h
    rw [decodeMap_type (c := 0x19) (by simp) (by decide), decodeType, decodeTransferId,
      getTransferId_bytes (t := transferId) (by simp), ok_bind, pure_eq_ok]
  | transferAck transferId status failedFiles =>
    cases h
    rw [decodeMap_type (c := 0x1A) (by simp) (by decide), decodeType, decodeTransferAck,
      getTransferId_bytes (t := transferId) (by simp), ok_bind, getText_text (s := ackStatusName status) (by simp), ok_bind,
      ackStatusOf_name, ok_bind, getUintArrayOpt_uints (o := failedFiles) (by simp) hfits, ok_bind, pure_eq_ok]
  | resumeQuery transferId fileIds =>
    cases h
    rw [decodeMap_type (c := 0x20) (by simp) (by decide), decodeType, decodeResumeQuery,
      getTransferId_bytes (t := transferId) (by simp), ok_bind, getUintArrayOpt_uints (o := fileIds) (by simp) hfits, ok_bind,
      pure_eq_ok]
  | resumeStatus transferId resumable files expiry =>
    cases h
    rw [decodeMap_type (c := 0x21) (by simp) (by decide), decodeType, decodeResumeStatus,
      getTransferId_bytes (t := transferId) (by simp), ok_bind, getBool_bool (b := resumable) (by simp), ok_bind,
      getUintOpt_uint (o := expiry) (by simp) hfits.2, ok_bind]
    rw [decodeResumeFiles_encode (o := files) (by simp) hfits.1 hcanon, ok_bind, pure_eq_ok]

/-! ## The depth of what is written -/

section

variable {depth : Nat}

theorem shallow_uints {l : List Nat} (hd : depth + 1 ≤ maxCborNesting) : Shallow depth (.array (l.map uintToValue)) := by
  refine shallow_array (by omega) fun v hv => ?_
  obtain ⟨n, -, rfl⟩ := List.mem_map.mp hv
  exact shallow_uintToValue hd

theorem shallow_texts {l : List String} (hd : depth + 1 ≤ maxCborNesting) : Shallow depth (.array (l.map .text)) := by
  refine shallow_array (by omega) fun v hv => ?_
  obtain ⟨s, -, rfl⟩ := List.mem_map.mp hv
  exact shallow_text hd

end

theorem shallow_makeVersionArray {v : ProtocolVersion} : Shallow 1 (makeVersionArray v) :=
  shallow_uints (l := [v.major, v.minor]) (by decide)

theorem shallow_encodeManifestEntry {mixed : Bool} {e : ManifestEntry} : Shallow 2 (encodeManifestEntry mixed e) := by
  refine shallow_mapToValue (by decide) ?_
  refine .insertOpt (.insertOpt (.insertOpt (.insert (.insert .empty ?_) ?_) ?_) ?_) ?_
  · exact shallow_uintToValue (by decide)
  · exact shallow_text (by decide)
  · exact fun d _ => shallow_bytes (by decide)
  · exact fun n _ => shallow_uintToValue (by decide)
  · exact fun s _ => shallow_text (by decide)

theorem shallow_encodeManifest {manifest : List ManifestEntry} : Shallow 1 (encodeManifest manifest) := by
  refine shallow_array (by decide) fun v hv => ?_
  obtain ⟨e, -, rfl⟩ := List.mem_map.mp hv
  exact shallow_encodeManifestEntry

/-- The deepest of all: a bound of a range of a file. -/
theorem shallow_encodeResumeFile {f : ResumeFileStatus} : Shallow 2 (encodeResumeFile f) := by
  refine shallow_mapToValue (by decide) ?_
  refine .insert (.insert (.insertOpt (.insert .empty ?_) ?_) ?_) ?_
  · exact shallow_uintToValue (by decide)
  · exact fun d _ => shallow_bytes (by decide)
  · exact shallow_uintToValue (by decide)
  · refine shallow_array (by decide) fun v hv => ?_
    obtain ⟨r, -, rfl⟩ := List.mem_map.mp hv
    exact shallow_uints (l := [r.1, r.2]) (by decide)

theorem shallow_encodeResumeFiles {files : List ResumeFileStatus} : Shallow 1 (.array (files.map encodeResumeFile)) := by
  refine shallow_array (by decide) fun v hv => ?_
  obtain ⟨f, -, rfl⟩ := List.mem_map.mp hv
  exact shallow_encodeResumeFile

theorem encodeHello_shallow {v : ProtocolVersion} {deviceId : DeviceId} {deviceName : String} {platform : Platform}
    {capabilities : List String} {isPaired : Bool} :
    (encodeHello v deviceId deviceName platform capabilities isPaired).All (Shallow 1) := by
  refine .insert (.insert (.insert (.insert (.insert (.insert .empty ?_) ?_) ?_) ?_) ?_) ?_
  · exact shallow_texts (by decide)
  · exact shallow_bytes (by decide)
  · exact shallow_text (by decide)
  · exact shallow_bool (by decide)
  · exact shallow_text (by decide)
  · exact shallow_makeVersionArray

theorem encodeTransferId_shallow {map : CborMap} {transferId : TransferId} {typeCode : Nat} (h : map.All (Shallow 1)) :
    (encodeTransferId map transferId typeCode).All (Shallow 1) :=
  .insert (.insert h (shallow_bytes (by decide))) (shallow_uintToValue (by decide))

/-- What the encoder builds passes the depth check of the decoder. -/
theorem encodeToMap_shallow {m : ControlMessage} {map : CborMap} (h : encodeToMap m = .ok map) : map.All (Shallow 1) := by
  have huint : ∀ n, Shallow 1 (uintToValue n) := fun _ => shallow_uintToValue (by decide)
  have htext : ∀ s, Shallow 1 (.text s) := fun _ => shallow_text (by decide)
  have hbool : ∀ b, Shallow 1 (.bool b) := fun _ => shallow_bool (by decide)
  have hreason : ∀ o : Option String, (CborMap.empty.insertOpt "reason" (o.map .text)).All (Shallow 1) :=
    fun _ => .insertOpt .empty fun s _ => htext s
  cases m with
  | hello =>
    cases h
    exact encodeHello_shallow.insert (huint _)
  | helloAck =>
    cases h
    exact (encodeHello_shallow.insert (huint _)).insert (huint _)
  | pairRequest =>
    cases h
    exact (CborMap.All.empty.insert (htext _)).insert (huint _)
  | pairAccept =>
    cases h
    exact CborMap.All.empty.insert (huint _)
  | pairReject reason | sessionClose reason =>
    cases h
    exact (hreason reason).insert (huint _)
  | error =>
    cases h
    exact (((CborMap.All.empty.insert (htext _)).insert (hbool _)).insertOpt fun s _ => htext s).insert (huint _)
  | transferRequest =>
    rw [encodeToMap] at h
    split at h
    · cases h
    cases h
    refine encodeTransferId_shallow (.insert (.insert (.insert (.insert (.insert .empty ?_) ?_) ?_) ?_) ?_)
    · exact htext _
    · exact shallow_encodeManifest
    · exact huint _
    · exact huint _
    · exact htext _
  | transferAccept | transferPause | transferResume | transferComplete =>
    cases h
    exact encodeTransferId_shallow .empty
  | transferReject _ reason | transferCancel _ reason =>
    cases h
    exact encodeTransferId_shallow (hreason reason)
  | fileMetadata =>
    cases h
    refine encodeTransferId_shallow
      (.insert (.insert (.insert (.insert (.insertOpt (.insertOpt (.insert .empty ?_) ?_) ?_) ?_) ?_) ?_) ?_)
    · exact huint _
    · exact fun s _ => htext s
    · exact fun n _ => huint n
    · exact htext _
    · exact shallow_bytes (by decide)
    · exact huint _
    · exact huint _
  | fileMetadataAck =>
    cases h
    exact encodeTransferId_shallow (((CborMap.All.empty.insert (hbool _)).insert (huint _)).insert (huint _))
  | chunkAck =>
    cases h
    exact ((((CborMap.All.empty.insert (huint _)).insert (huint _)).insert (huint _)).insert (huint _)).insert (huint _)
  | transferAck =>
    cases h
    exact encodeTransferId_shallow ((CborMap.All.empty.insertOpt fun l _ => shallow_uints (by decide)).insert (htext _))
  | resumeQuery =>
    cases h
    exact encodeTransferId_shallow (CborMap.All.empty.insertOpt fun l _ => shallow_uints (by decide))
  | resumeStatus =>
    cases h
    exact encodeTransferId_shallow (((CborMap.All.empty.insertOpt fun n _ => huint n).insertOpt
      fun l _ => shallow_encodeResumeFiles).insert (hbool _))

/-- Decoding the value of a message gives the message. -/
theorem decodeValue_encodeToMap {m : ControlMessage} {map : CborMap} (hfits : Fits m) (hcanon : Canonical m)
    (h : encodeToMap m = .ok map) : decodeValue (mapToValue map) = .ok m := by
  have hdepth : checkNestingDepth (mapToValue map) 0 = .ok () := shallow_mapToValue (by decide) (encodeToMap_shallow h)
  rw [decodeValue, hdepth, ok_bind, toCborMap_mapToValue, ok_bind, decodeMap_encodeToMap hfits hcanon h]

/-! ## What is decoded -/

section

variable {map : CborMap} {key : String}

/-- What the decoder took a manifest entry from. -/
theorem decodeManifestEntry_ok {val : Value} {e : ManifestEntry} (h : decodeManifestEntry val = .ok e) :
    ∃ map, entryMap "manifest[]" val = .ok map ∧ getU32 map "file_id" = .ok e.fileId ∧
      getUintOpt map "size" = .ok e.size ∧ EntryCanonical e := by
  simp only [decodeManifestEntry, bind_eq_ok] at h
  obtain ⟨map, hmap, fileId, hid, relativePath, -, typeName, -, entryType, -, h⟩ := h
  refine ⟨map, hmap, ?_⟩
  split at h
  · simp only [bind_eq_ok, pure_eq_ok, Except.ok.injEq] at h
    obtain ⟨size, hsize, sha256, -, rfl⟩ := h
    refine ⟨hid, ?_, fun _ => ⟨rfl, rfl⟩⟩
    obtain ⟨i, hget, hsign, rfl⟩ := getUint_ok hsize
    rw [getUintOpt, hget]
    exact if_neg (by omega)
  · simp only [bind_eq_ok, pure_eq_ok, Except.ok.injEq] at h
    obtain ⟨size, hsize, sha256, -, rfl⟩ := h
    refine ⟨hid, hsize, ?_⟩
    intro hfile
    cases hfile

theorem rangeBound_ok {val : Value} {n : Nat} (h : rangeBound val = .ok n) :
    ∃ i : Integer, val = .integer i ∧ n = asU64 i.val := by
  unfold rangeBound at h
  split at h <;> cases h
  exact ⟨_, rfl, rfl⟩

theorem decodeRange_ok {val : Value} {r : Nat × Nat} (h : decodeRange val = .ok r) :
    ∃ a b : Integer, val = .array [.integer a, .integer b] ∧ r = (asU64 a.val, asU64 b.val) := by
  unfold decodeRange at h
  split at h
  · simp only [bind_eq_ok, pure_eq_ok, Except.ok.injEq] at h
    obtain ⟨offset, ha, length, hb, rfl⟩ := h
    obtain ⟨a, rfl, rfl⟩ := rangeBound_ok ha
    obtain ⟨b, rfl, rfl⟩ := rangeBound_ok hb
    exact ⟨a, b, rfl, rfl⟩
  · cases h

/-- What the decoder took a resume file from. -/
theorem decodeResumeFile_ok {val : Value} {f : ResumeFileStatus} (h : decodeResumeFile val = .ok f) :
    ∃ map ranges, entryMap "files[]" val = .ok map ∧ getU32 map "file_id" = .ok f.fileId ∧
      getUint map "received_bytes" = .ok f.receivedBytes ∧ map.get "received_ranges" = some (.array ranges) ∧
      List.Forall₂ (fun v r => decodeRange v = .ok r) ranges f.receivedRanges := by
  simp only [decodeResumeFile, bind_eq_ok, pure_eq_ok, Except.ok.injEq] at h
  obtain ⟨map, hmap, fileId, hid, bytes, hbytes, v, hv, ranges, hranges, rs, hrs, sha, -, rfl⟩ := h
  rw [getRequired] at hv
  split at hv <;> cases hv
  rename_i hget
  unfold arrayItems at hranges
  split at hranges <;> cases hranges
  exact ⟨map, ranges, hmap, hid, hbytes, hget, mapM_eq_ok hrs⟩

theorem parseVersionArray_fits {v : ProtocolVersion} (h : parseVersionArray map = .ok v) : VersionFits v := by
  obtain ⟨a, b, -, rfl⟩ := parseVersionArray_ok h
  exact ⟨asU32_lt, asU32_lt⟩

theorem decodeManifestEntry_fits {val : Value} {e : ManifestEntry} (h : decodeManifestEntry val = .ok e) : EntryFits e := by
  obtain ⟨map, -, hid, hsize, -⟩ := decodeManifestEntry_ok h
  exact ⟨getU32_lt hid, getUintOpt_lt hsize⟩

theorem decodeResumeFile_fits {val : Value} {f : ResumeFileStatus} (h : decodeResumeFile val = .ok f) : ResumeFileFits f := by
  obtain ⟨map, ranges, -, hid, hbytes, -, hranges⟩ := decodeResumeFile_ok h
  refine ⟨getU32_lt hid, getUint_lt hbytes, fun r hr => ?_⟩
  obtain ⟨v, -, hv⟩ := exists_of_forall₂ hranges hr
  obtain ⟨a, b, -, rfl⟩ := decodeRange_ok hv
  exact ⟨asU64_lt, asU64_lt⟩

theorem decodeTransferRequest_ok {m : ControlMessage} (h : decodeTransferRequest map = .ok m) :
    ∃ transferId transferType displayName totalFiles totalSize items manifest,
      m = .transferRequest transferId transferType displayName totalFiles totalSize manifest ∧
      getU32 map "total_files" = .ok totalFiles ∧ getUint map "total_size" = .ok totalSize ∧
      map.get "manifest" = some (.array items) ∧ List.Forall₂ (fun v e => decodeManifestEntry v = .ok e) items manifest := by
  simp only [decodeTransferRequest, bind_eq_ok] at h
  obtain ⟨transferId, -, typeName, -, transferType, -, displayName, -, totalFiles, hfiles, totalSize, hsize, v, hv, items,
    hitems, h⟩ := h
  split at h
  · cases h
  simp only [bind_eq_ok, pure_eq_ok, Except.ok.injEq] at h
  obtain ⟨manifest, hmanifest, rfl⟩ := h
  rw [getRequired] at hv
  split at hv <;> cases hv
  rename_i hget
  unfold arrayItems at hitems
  split at hitems <;> cases hitems
  exact ⟨_, _, _, _, _, items, manifest, rfl, hfiles, hsize, hget, mapM_eq_ok hmanifest⟩

theorem decodeResumeFiles_ok {resumable : Bool} {files : Option (List ResumeFileStatus)}
    (h : decodeResumeFiles map resumable = .ok files) :
    (files = none ∧ (resumable = true → ∀ items, map.get "files" ≠ some (.array items))) ∨
      ∃ items l, resumable = true ∧ map.get "files" = some (.array items) ∧ files = some l ∧
        List.Forall₂ (fun v f => decodeResumeFile v = .ok f) items l := by
  unfold decodeResumeFiles at h
  split at h
  · rename_i hresumable
    split at h
    · rename_i items hget
      rw [map_eq_ok] at h
      obtain ⟨l, hl, rfl⟩ := h
      exact .inr ⟨items, l, hresumable, hget, rfl, mapM_eq_ok hl⟩
    · rename_i hnot
      cases h
      exact .inl ⟨rfl, fun _ items hget => hnot items hget⟩
  · rename_i hresumable
    cases h
    exact .inl ⟨rfl, fun htrue => absurd htrue hresumable⟩

/-- Whatever the decoder returns has fields of the source's widths and is in
canonical form. -/
theorem decodeType_canonical {c : Nat} {m : ControlMessage} (h : decodeType c map = .ok m) : Fits m ∧ Canonical m := by
  unfold decodeType at h
  split at h
  · simp only [decodeHello, bind_eq_ok, pure_eq_ok, Except.ok.injEq] at h
    obtain ⟨v, hv, d, -, n, -, p, -, cs, -, b, -, rfl⟩ := h
    exact ⟨parseVersionArray_fits hv, platformFromStrLossy_canonical⟩
  · simp only [decodeHelloAck, bind_eq_ok, pure_eq_ok, Except.ok.injEq] at h
    obtain ⟨v, hv, d, -, n, -, p, -, cs, -, b, -, s, hs, rfl⟩ := h
    exact ⟨⟨parseVersionArray_fits hv, getU32_lt hs⟩, platformFromStrLossy_canonical⟩
  · simp only [decodePairRequest, bind_eq_ok, pure_eq_ok, Except.ok.injEq] at h
    obtain ⟨s, -, rfl⟩ := h
    exact ⟨trivial, trivial⟩
  · cases h
    exact ⟨trivial, trivial⟩
  · simp only [decodeReason, bind_eq_ok, pure_eq_ok, Except.ok.injEq] at h
    obtain ⟨s, -, rfl⟩ := h
    exact ⟨trivial, trivial⟩
  · simp only [decodeReason, bind_eq_ok, pure_eq_ok, Except.ok.injEq] at h
    obtain ⟨s, -, rfl⟩ := h
    exact ⟨trivial, trivial⟩
  · simp only [decodeError, bind_eq_ok, pure_eq_ok, Except.ok.injEq] at h
    obtain ⟨code, -, message, -, fatal, -, rfl⟩ := h
    exact ⟨trivial, errorCodeFromWireStr_canonical, rfl⟩
  · obtain ⟨t, ty, n, files, size, items, manifest, rfl, hfiles, hsize, -, hall⟩ := decodeTransferRequest_ok h
    refine ⟨⟨getU32_lt hfiles, getUint_lt hsize, fun e he => ?_⟩, fun e he => ?_⟩
    · obtain ⟨v, -, hv⟩ := exists_of_forall₂ hall he
      exact decodeManifestEntry_fits hv
    · obtain ⟨v, -, hv⟩ := exists_of_forall₂ hall he
      obtain ⟨map, -, -, -, hcanon⟩ := decodeManifestEntry_ok hv
      exact hcanon
  · simp only [decodeTransferId, bind_eq_ok, pure_eq_ok, Except.ok.injEq] at h
    obtain ⟨t, -, rfl⟩ := h
    exact ⟨trivial, trivial⟩
  · simp only [decodeTransferReason, bind_eq_ok, pure_eq_ok, Except.ok.injEq] at h
    obtain ⟨t, -, r, -, rfl⟩ := h
    exact ⟨trivial, trivial⟩
  · simp only [decodeFileMetadata, bind_eq_ok, pure_eq_ok, Except.ok.injEq] at h
    obtain ⟨t, -, id, hid, stream, hstream, path, -, size, hsize, d, -, mime, -, time, htime, rfl⟩ := h
    exact ⟨⟨getU32_lt hid, getU32_lt hstream, getUint_lt hsize, getUintOpt_lt htime⟩, trivial⟩
  · simp only [decodeFileMetadataAck, bind_eq_ok, pure_eq_ok, Except.ok.injEq] at h
    obtain ⟨t, -, id, hid, stream, hstream, b, -, rfl⟩ := h
    exact ⟨⟨getU32_lt hid, getU32_lt hstream⟩, trivial⟩
  · simp only [decodeChunkAck, bind_eq_ok, pure_eq_ok, Except.ok.injEq] at h
    obtain ⟨stream, hstream, message, hmessage, offset, hoffset, length, hlength, rfl⟩ := h
    exact ⟨⟨getU32_lt hstream, getUint_lt hmessage, getUint_lt hoffset, getUint_lt hlength⟩, trivial⟩
  · simp only [decodeTransferId, bind_eq_ok, pure_eq_ok, Except.ok.injEq] at h
    obtain ⟨t, -, rfl⟩ := h
    exact ⟨trivial, trivial⟩
  · simp only [decodeTransferId, bind_eq_ok, pure_eq_ok, Except.ok.injEq] at h
    obtain ⟨t, -, rfl⟩ := h
    exact ⟨trivial, trivial⟩
  · simp only [decodeTransferReason, bind_eq_ok, pure_eq_ok, Except.ok.injEq] at h
    obtain ⟨t, -, r, -, rfl⟩ := h
    exact ⟨trivial, trivial⟩
  · simp only [decodeTransferId, bind_eq_ok, pure_eq_ok, Except.ok.injEq] at h
    obtain ⟨t, -, rfl⟩ := h
    exact ⟨trivial, trivial⟩
  · simp only [decodeTransferAck, bind_eq_ok, pure_eq_ok, Except.ok.injEq] at h
    obtain ⟨t, -, name, -, status, -, failed, hfailed, rfl⟩ := h
    exact ⟨getUintArrayOpt_lt hfailed, trivial⟩
  · simp only [decodeResumeQuery, bind_eq_ok, pure_eq_ok, Except.ok.injEq] at h
    obtain ⟨t, -, ids, hids, rfl⟩ := h
    exact ⟨getUintArrayOpt_lt hids, trivial⟩
  · simp only [decodeResumeStatus, bind_eq_ok, pure_eq_ok, Except.ok.injEq] at h
    obtain ⟨t, -, resumable, -, expiry, hexpiry, files, hfiles, rfl⟩ := h
    rcases decodeResumeFiles_ok hfiles with ⟨rfl, -⟩ | ⟨items, l, rfl, -, rfl, hall⟩
    · exact ⟨⟨(fun l hl => by cases hl), getUintOpt_lt hexpiry⟩, fun _ => rfl⟩
    · refine ⟨⟨fun l' hl f hf => ?_, getUintOpt_lt hexpiry⟩, fun hfalse => by cases hfalse⟩
      cases hl
      obtain ⟨v, -, hv⟩ := exists_of_forall₂ hall hf
      exact decodeResumeFile_fits hv
  · cases h

end

/-! ## The codec -/

theorem decodeValue_ok {v : Value} {m : ControlMessage} (h : decodeValue v = .ok m) :
    ∃ map c, checkNestingDepth v 0 = .ok () ∧ toCborMap v = .ok map ∧ getUint map "type" = .ok c ∧
      decodeType c map = .ok m := by
  simp only [decodeValue, decodeMap, bind_eq_ok] at h
  obtain ⟨_, hdepth, map, hmap, c, hc, h⟩ := h
  exact ⟨map, c, hdepth, hmap, hc, h⟩

theorem decodeControl_ok {c : Format} {payload : Bytes} {m : ControlMessage} (h : decodeControl c payload = .ok m) :
    ∃ v rest, c.fromReader payload = .ok (v, rest) ∧ decodeValue v = .ok m := by
  unfold decodeControl at h
  split at h
  · cases h
  · rename_i v rest hread
    exact ⟨v, rest, hread, h⟩

theorem encodeControl_ok {c : Format} {m : ControlMessage} {b : Bytes} (h : encodeControl c m = .ok b) :
    ∃ map, encodeToMap m = .ok map ∧ c.intoWriter (mapToValue map) = .ok b ∧ b.length ≤ controlPayloadMax := by
  simp only [encodeControl, bind_eq_ok] at h
  obtain ⟨map, hmap, h⟩ := h
  refine ⟨map, hmap, ?_⟩
  split at h
  · cases h
  · rename_i buf hbuf
    split at h <;> cases h
    exact ⟨hbuf, by omega⟩

theorem decodeControl_canonical {c : Format} {payload : Bytes} {m : ControlMessage} (h : decodeControl c payload = .ok m) :
    Fits m ∧ Canonical m := by
  obtain ⟨v, -, -, hv⟩ := decodeControl_ok h
  obtain ⟨map, code, -, -, -, htype⟩ := decodeValue_ok hv
  exact decodeType_canonical htype

theorem decodeControl_encodeControl {c : Format} (hc : c.Inverts) {m : ControlMessage} {b : Bytes} (hfits : Fits m)
    (hcanon : Canonical m) (h : encodeControl c m = .ok b) : decodeControl c b = .ok m := by
  obtain ⟨map, hmap, hwrite, -⟩ := encodeControl_ok h
  have hread : c.fromReader b = .ok (mapToValue map, []) := by simpa using hc hwrite []
  rw [decodeControl, hread]
  exact decodeValue_encodeToMap hfits hcanon hmap

/-- **The control codec round trip.** A canonical message that is encoded is
decoded to itself; every message that is decoded is canonical; and so decoding,
encoding and decoding again changes nothing. -/
theorem control_round_trip {c : Format} (hc : c.Inverts) :
    (∀ m b, Fits m → Canonical m → encodeControl c m = .ok b → decodeControl c b = .ok m) ∧
      (∀ b m, decodeControl c b = .ok m → Fits m ∧ Canonical m) ∧
      ∀ b m b', decodeControl c b = .ok m → encodeControl c m = .ok b' → decodeControl c b' = .ok m := by
  refine ⟨fun m b => decodeControl_encodeControl hc, fun b m => decodeControl_canonical, ?_⟩
  intro b m b' hdecode hencode
  obtain ⟨hfits, hcanon⟩ := decodeControl_canonical hdecode
  exact decodeControl_encodeControl hc hfits hcanon hencode

/-- A RESUME_STATUS, the deepest of the messages. -/
def sampleStatus : ControlMessage :=
  .resumeStatus ⟨List.replicate 16 0xAA, rfl⟩ true (some [⟨1, 5, [(0, 5)], none⟩]) (some 86400)

/-- It comes back from its bytes. -/
theorem control_round_trip_status :
    ∃ b, encodeControl Cbor.definite sampleStatus = .ok b ∧ decodeControl Cbor.definite b = .ok sampleStatus := by
  have hencode : (encodeControl Cbor.definite sampleStatus).isOk = true := by decide +kernel
  cases h : encodeControl Cbor.definite sampleStatus with
  | error e =>
    rw [h] at hencode
    cases hencode
  | ok b =>
    have hfits : Fits sampleStatus := by
      simp only [sampleStatus, Fits, ResumeFileFits, Option.mem_def, Option.some.injEq]
      refine ⟨?_, ?_⟩
      · intro l hl f hf
        subst hl
        rw [List.mem_singleton.mp hf]
        decide
      · intro n hn
        omega
    have hcanon : Canonical sampleStatus := by
      simp only [sampleStatus, Canonical]
      decide
    exact ⟨b, rfl, (control_round_trip Cbor.definite_inverts).1 _ _ hfits hcanon h⟩

end Nxfr.Codec

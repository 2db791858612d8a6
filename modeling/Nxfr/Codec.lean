/-
The CBOR codec of the control messages (`nxfr-core/src/codec.rs`):
`decode_control` and `encode_control` with every helper they use, over the
`Value`s of ciborium.

Message fields are natural numbers and the source's are `u32` and `u64`, so the
casts of the decoder are written out. A loop that pushes onto a vector and
returns at the first error is `mapM`.
-/
import Nxfr.Cbor
import Nxfr.Messages

namespace Nxfr.Codec
open Cbor (Value Integer Format)

/-! ## Maps -/

/-- `BTreeMap<String, Value>`. -/
@[ext] structure CborMap where
  tree : Std.ExtTreeMap String Value

namespace CborMap

def empty : CborMap := ⟨∅⟩

def insert (m : CborMap) (key : String) (v : Value) : CborMap := ⟨m.tree.insert key v⟩

/-- `if let Some(v) = .. { map.insert(key, v); }`. -/
def insertOpt (m : CborMap) (key : String) : Option Value → CborMap
  | none => m
  | some v => m.insert key v

def get (m : CborMap) (key : String) : Option Value := m.tree[key]?

/-- The entries in the order of their keys. -/
def toList (m : CborMap) : List (String × Value) := m.tree.toList

@[simp] theorem get_empty {key : String} : empty.get key = none := Std.ExtTreeMap.getElem?_empty

theorem get_insert {m : CborMap} {key k : String} {v : Value} :
    (m.insert key v).get k = if key = k then some v else m.get k := by
  simp only [get, insert, Std.ExtTreeMap.getElem?_insert, Std.compare_eq_iff_eq]

theorem ext_get {m m' : CborMap} (h : ∀ k, m.get k = m'.get k) : m = m' :=
  CborMap.ext (Std.ExtTreeMap.ext_getElem? h)

theorem mem_toList {m : CborMap} {k : String} {v : Value} : (k, v) ∈ m.toList ↔ m.get k = some v :=
  Std.ExtTreeMap.mem_toList_iff_getElem?_eq_some

theorem keys_nodup {m : CborMap} : (m.toList.map Prod.fst).Nodup := by
  rw [List.Nodup, List.pairwise_map]
  refine (Std.ExtTreeMap.distinct_keys_toList (t := m.tree)).imp ?_
  intro a b hne
  rwa [Std.compare_eq_iff_eq] at hne

end CborMap

/-- The loop that collects the entries of a map: a later entry replaces an
earlier one of its key. -/
def collect (map : CborMap) : List (Value × Value) → Except CodecError CborMap
  | [] => .ok map
  | (.text key, v) :: entries => collect (map.insert key v) entries
  | _ :: _ => .error .nonStringKey

/-- `to_cbor_map`. -/
def toCborMap : Value → Except CodecError CborMap
  | .map entries => collect .empty entries
  | _ => .error .notAMap

/-! ## Fields -/

/-- `v as u32` for an `i128`. -/
def asU32 (v : Int) : Nat := (v % 2 ^ 32).toNat

/-- `v as u64` for an `i128`. -/
def asU64 (v : Int) : Nat := (v % 2 ^ 64).toNat

/-- `get_required`. -/
def getRequired (map : CborMap) (key : String) : Except CodecError Value := match map.get key with
  | none => .error (.missingField key)
  | some v => .ok v

/-- `get_uint`. -/
def getUint (map : CborMap) (key : String) : Except CodecError Nat := do
  match ← getRequired map key with
  | .integer i => if i.val < 0 then .error (.wrongType key "unsigned integer") else .ok (asU64 i.val)
  | _ => .error (.wrongType key "unsigned integer")

/-- `get_uint(..)? as u32`. -/
def getU32 (map : CborMap) (key : String) : Except CodecError Nat := do
  return asU32 (← getUint map key)

/-- `get_uint_opt`. -/
def getUintOpt (map : CborMap) (key : String) : Except CodecError (Option Nat) := match map.get key with
  | none => .ok none
  | some (.integer i) => if i.val < 0 then .error (.wrongType key "unsigned integer") else .ok (some (asU64 i.val))
  | some _ => .error (.wrongType key "unsigned integer")

/-- `get_text`. -/
def getText (map : CborMap) (key : String) : Except CodecError String := do
  match ← getRequired map key with
  | .text s => .ok s
  | _ => .error (.wrongType key "text string")

/-- `get_text_opt`. -/
def getTextOpt (map : CborMap) (key : String) : Except CodecError (Option String) := match map.get key with
  | none => .ok none
  | some (.text s) => .ok (some s)
  | some _ => .error (.wrongType key "text string")

/-- `get_bool`. -/
def getBool (map : CborMap) (key : String) : Except CodecError Bool := do
  match ← getRequired map key with
  | .bool b => .ok b
  | _ => .error (.wrongType key "boolean")

/-- The length check of `get_bytes` and `get_bytes_opt`. -/
def sizedBytes (key : String) (expectedLen : Nat) (b : Bytes) : Except CodecError { b : Bytes // b.length = expectedLen } :=
  if h : b.length = expectedLen then .ok ⟨b, h⟩ else .error (.wrongType key "bytes of correct length")

/-- `get_bytes`. -/
def getBytes (map : CborMap) (key : String) (expectedLen : Nat) :
    Except CodecError { b : Bytes // b.length = expectedLen } := do
  match ← getRequired map key with
  | .bytes b => sizedBytes key expectedLen b
  | _ => .error (.wrongType key "byte string")

/-- `get_bytes_opt`. -/
def getBytesOpt (map : CborMap) (key : String) (expectedLen : Nat) :
    Except CodecError (Option { b : Bytes // b.length = expectedLen }) := match map.get key with
  | none => .ok none
  | some (.bytes b) => some <$> sizedBytes key expectedLen b
  | some _ => .error (.wrongType key "byte string")

/-- `get_str_array`. -/
def getStrArray (map : CborMap) (key : String) : Except CodecError (List String) := match map.get key with
  | none => .ok []
  | some (.array items) => items.mapM fun
    | .text s => .ok s
    | _ => .error (.wrongType key "array of text strings")
  | some _ => .error (.wrongType key "array")

/-- `get_uint_array_opt`. -/
def getUintArrayOpt (map : CborMap) (key : String) : Except CodecError (Option (List Nat)) := match map.get key with
  | none => .ok none
  | some (.array items) => some <$> items.mapM fun
    | .integer i => .ok (asU32 i.val)
    | _ => .error (.wrongType key "array of unsigned integers")
  | some _ => .error (.wrongType key "array")

/-- `bytes_to_device_id` and `bytes_to_hash`. -/
def bytesToHash (b : { b : Bytes // b.length = 32 }) : Digest := ⟨b.1, b.2⟩

/-- `bytes_to_transfer_id`. -/
def bytesToTransferId (b : { b : Bytes // b.length = 16 }) : TransferId := ⟨b.1, b.2⟩

/-- One of the numbers of `parse_version_array`. -/
def versionNumber : Value → Except CodecError Nat
  | .integer i => .ok (asU32 i.val)
  | _ => .error (.wrongType "protocol_version" "[uint, uint]")

/-- `parse_version_array`. -/
def parseVersionArray (map : CborMap) : Except CodecError ProtocolVersion := do
  match ← getRequired map "protocol_version" with
  | .array [a, b] =>
    let major ← versionNumber a
    let minor ← versionNumber b
    return ⟨major, minor⟩
  | _ => .error (.wrongType "protocol_version" "[uint, uint]")

/-! ## Nesting -/

/-- `limits::MAX_CBOR_NESTING`. -/
def maxCborNesting : Nat := 6

mutual

/-- `check_nesting_depth`. -/
def checkNestingDepth (val : Value) (depth : Nat) : Except CodecError Unit :=
  if depth > maxCborNesting then .error (.nestingTooDeep depth)
  else match val with
    | .map entries => checkEntries entries (depth + 1)
    | .array items => checkItems items (depth + 1)
    | .tag _ _ => .error .tagNotAllowed
    | _ => .ok ()

/-- Its loop over the entries of a map. -/
def checkEntries (entries : List (Value × Value)) (depth : Nat) : Except CodecError Unit := match entries with
  | [] => .ok ()
  | (k, v) :: entries => do
    checkNestingDepth k depth
    checkNestingDepth v depth
    checkEntries entries depth

/-- Its loop over the items of an array. -/
def checkItems (items : List Value) (depth : Nat) : Except CodecError Unit := match items with
  | [] => .ok ()
  | item :: items => do
    checkNestingDepth item depth
    checkItems items depth

end

/-! ## Names -/

/-- `Platform::as_str`. -/
def platformStr : Platform → String
  | .linux => "linux"
  | .android => "android"
  | .windows => "windows"
  | .macOs => "macos"
  | .ios => "ios"
  | .other s => s

/-- `Platform::from_str_lossy`. -/
def platformFromStrLossy (s : String) : Platform := match s with
  | "linux" => .linux
  | "android" => .android
  | "windows" => .windows
  | "macos" => .macOs
  | "ios" => .ios
  | other => .other other

/-- `ErrorCode::as_str`. -/
def errorCodeStr : ErrorCode → String
  | .unsupportedVersion => "unsupported_version"
  | .invalidFrame => "invalid_frame"
  | .payloadTooLarge => "payload_too_large"
  | .invalidCbor => "invalid_cbor"
  | .unknownMessageType => "unknown_message_type"
  | .sessionTimeout => "session_timeout"
  | .checksumMismatch => "checksum_mismatch"
  | .diskFull => "disk_full"
  | .storageError => "storage_error"
  | .pathRejected => "path_rejected"
  | .transferNotFound => "transfer_not_found"
  | .streamNotFound => "stream_not_found"
  | .identityChanged => "identity_changed"
  | .pairRequired => "pair_required"
  | .rateLimited => "rate_limited"
  | .internalError => "internal_error"
  | .manifestTooLarge => "manifest_too_large"
  | .unknown s => s

/-- `ErrorCode::from_wire_str`. -/
def errorCodeFromWireStr (s : String) : ErrorCode := match s with
  | "unsupported_version" => .unsupportedVersion
  | "invalid_frame" => .invalidFrame
  | "payload_too_large" => .payloadTooLarge
  | "invalid_cbor" => .invalidCbor
  | "unknown_message_type" => .unknownMessageType
  | "session_timeout" => .sessionTimeout
  | "checksum_mismatch" => .checksumMismatch
  | "disk_full" => .diskFull
  | "storage_error" => .storageError
  | "path_rejected" => .pathRejected
  | "transfer_not_found" => .transferNotFound
  | "stream_not_found" => .streamNotFound
  | "identity_changed" => .identityChanged
  | "pair_required" => .pairRequired
  | "rate_limited" => .rateLimited
  | "internal_error" => .internalError
  | "manifest_too_large" => .manifestTooLarge
  | other => .unknown other

/-! ## Decoding -/

/-- `bytes_to_transfer_id(&get_bytes(map, "transfer_id", 16)?)`. -/
def getTransferId (map : CborMap) : Except CodecError TransferId := do
  return bytesToTransferId (← getBytes map "transfer_id" 16)

/-- `bytes_to_hash(&get_bytes(map, key, 32)?)`, and the same for a device id. -/
def getHash (map : CborMap) (key : String) : Except CodecError Digest := do
  return bytesToHash (← getBytes map key 32)

/-- `get_bytes_opt(map, key, 32)?.map(|b| bytes_to_hash(&b))`. -/
def getHashOpt (map : CborMap) (key : String) : Except CodecError (Option Digest) := do
  return (← getBytesOpt map key 32).map bytesToHash

/-- `decode_hello`. -/
def decodeHello (map : CborMap) : Except CodecError ControlMessage := do
  let protocolVersion ← parseVersionArray map
  let deviceId ← getHash map "device_id"
  let deviceName ← getText map "device_name"
  let platform ← getText map "platform"
  let capabilities ← getStrArray map "capabilities"
  let isPaired ← getBool map "is_paired"
  return .hello protocolVersion deviceId deviceName (platformFromStrLossy platform) capabilities isPaired

/-- `decode_hello_ack`. -/
def decodeHelloAck (map : CborMap) : Except CodecError ControlMessage := do
  let protocolVersion ← parseVersionArray map
  let deviceId ← getHash map "device_id"
  let deviceName ← getText map "device_name"
  let platform ← getText map "platform"
  let capabilities ← getStrArray map "capabilities"
  let isPaired ← getBool map "is_paired"
  let sessionId ← getU32 map "session_id"
  return .helloAck protocolVersion deviceId deviceName (platformFromStrLossy platform) capabilities isPaired
    sessionId

/-- `decode_pair_request`. -/
def decodePairRequest (map : CborMap) : Except CodecError ControlMessage := do
  return .pairRequest (← getText map "sas_method")

/-- `decode_error`. The `details` of an error are never read. -/
def decodeError (map : CborMap) : Except CodecError ControlMessage := do
  let code ← getText map "code"
  let message ← getTextOpt map "message"
  let fatal ← getBool map "fatal"
  return .error (errorCodeFromWireStr code) message fatal none

/-- The type of a manifest entry; none means a file. -/
def entryTypeOf : Option String → Except CodecError ManifestEntryType
  | some "dir" => .ok .dir
  | some "file" => .ok .file
  | none => .ok .file
  | some _ => .error (.wrongType "manifest[].type" "\"file\" or \"dir\"")

/-- The map of a manifest entry or of a resume file. -/
def entryMap (field : String) : Value → Except CodecError CborMap
  | .map entries => collect .empty entries
  | _ => .error (.wrongType field "map")

/-- The body of the manifest loop in `decode_transfer_request`. -/
def decodeManifestEntry (val : Value) : Except CodecError ManifestEntry := do
  let map ← entryMap "manifest[]" val
  let fileId ← getU32 map "file_id"
  let relativePath ← getText map "relative_path"
  let entryType ← entryTypeOf (← getTextOpt map "type")
  match entryType with
  | .file =>
    let size ← getUint map "size"
    let sha256 ← getHash map "sha256"
    return ⟨fileId, relativePath, some size, some sha256, .file⟩
  | .dir =>
    let size ← getUintOpt map "size"
    let sha256 ← getHashOpt map "sha256"
    return ⟨fileId, relativePath, size, sha256, .dir⟩

/-- The transfer types by name. -/
def transferTypeOf : String → Except CodecError TransferType
  | "files" => .ok .files
  | "directory" => .ok .directory
  | _ => .error (.wrongType "transfer_type" "\"files\" or \"directory\"")

/-- The array under `key`. -/
def arrayItems (key : String) : Value → Except CodecError (List Value)
  | .array items => .ok items
  | _ => .error (.wrongType key "array")

/-- `decode_transfer_request`. -/
def decodeTransferRequest (map : CborMap) : Except CodecError ControlMessage := do
  let transferId ← getTransferId map
  let transferType ← transferTypeOf (← getText map "transfer_type")
  let displayName ← getText map "display_name"
  let totalFiles ← getU32 map "total_files"
  let totalSize ← getUint map "total_size"
  let items ← arrayItems "manifest" (← getRequired map "manifest")
  if items.length > maxManifestEntries then .error (.manifestTooLarge items.length)
  else
    let manifest ← items.mapM decodeManifestEntry
    return .transferRequest transferId transferType displayName totalFiles totalSize manifest

/-- `decode_file_metadata`. -/
def decodeFileMetadata (map : CborMap) : Except CodecError ControlMessage := do
  let transferId ← getTransferId map
  let fileId ← getU32 map "file_id"
  let streamId ← getU32 map "stream_id"
  let relativePath ← getText map "relative_path"
  let size ← getUint map "size"
  let sha256 ← getHash map "sha256"
  let mimeType ← getTextOpt map "mime_type"
  let modifiedTime ← getUintOpt map "modified_time"
  return .fileMetadata transferId fileId streamId relativePath size sha256 mimeType modifiedTime

/-- `decode_file_metadata_ack`. -/
def decodeFileMetadataAck (map : CborMap) : Except CodecError ControlMessage := do
  let transferId ← getTransferId map
  let fileId ← getU32 map "file_id"
  let streamId ← getU32 map "stream_id"
  let accepted ← getBool map "accepted"
  return .fileMetadataAck transferId fileId streamId accepted

/-- `decode_chunk_ack`. -/
def decodeChunkAck (map : CborMap) : Except CodecError ControlMessage := do
  let streamId ← getU32 map "stream_id"
  let messageId ← getUint map "message_id"
  let offset ← getUint map "offset"
  let length ← getUint map "length"
  return .chunkAck streamId messageId offset length

/-- The status of a TRANSFER_ACK by name. -/
def ackStatusOf : String → Except CodecError TransferAckStatus
  | "success" => .ok .success
  | "partial_failure" => .ok .partialFailure
  | _ => .error (.wrongType "status" "\"success\" or \"partial_failure\"")

/-- `decode_transfer_ack`. -/
def decodeTransferAck (map : CborMap) : Except CodecError ControlMessage := do
  let transferId ← getTransferId map
  let status ← ackStatusOf (← getText map "status")
  let failedFiles ← getUintArrayOpt map "failed_files"
  return .transferAck transferId status failedFiles

/-- `decode_resume_query`. -/
def decodeResumeQuery (map : CborMap) : Except CodecError ControlMessage := do
  let transferId ← getTransferId map
  let fileIds ← getUintArrayOpt map "file_ids"
  return .resumeQuery transferId fileIds

/-- A bound of a received range: cast without a look at its sign. -/
def rangeBound : Value → Except CodecError Nat
  | .integer i => .ok (asU64 i.val)
  | _ => .error (.wrongType "received_ranges" "[uint, uint]")

/-- The body of the loop over `received_ranges`. -/
def decodeRange : Value → Except CodecError (Nat × Nat)
  | .array [a, b] => do
    let offset ← rangeBound a
    let length ← rangeBound b
    return (offset, length)
  | _ => .error (.wrongType "received_ranges" "array of [uint, uint]")

/-- The body of the loop over the files of a RESUME_STATUS. -/
def decodeResumeFile (val : Value) : Except CodecError ResumeFileStatus := do
  let map ← entryMap "files[]" val
  let fileId ← getU32 map "file_id"
  let receivedBytes ← getUint map "received_bytes"
  let ranges ← arrayItems "received_ranges" (← getRequired map "received_ranges")
  let receivedRanges ← ranges.mapM decodeRange
  let partialSha256 ← getHashOpt map "partial_sha256"
  return ⟨fileId, receivedBytes, receivedRanges, partialSha256⟩

/-- The files of a RESUME_STATUS: read only when it is resumable, and only
from an array. -/
def decodeResumeFiles (map : CborMap) (resumable : Bool) : Except CodecError (Option (List ResumeFileStatus)) :=
  if resumable then match map.get "files" with
    | some (.array items) => some <$> items.mapM decodeResumeFile
    | _ => .ok none
  else .ok none

/-- `decode_resume_status`. -/
def decodeResumeStatus (map : CborMap) : Except CodecError ControlMessage := do
  let transferId ← getTransferId map
  let resumable ← getBool map "resumable"
  let expiry ← getUintOpt map "expiry"
  let files ← decodeResumeFiles map resumable
  return .resumeStatus transferId resumable files expiry

/-- The messages with a transfer id and nothing more. -/
def decodeTransferId (message : TransferId → ControlMessage) (map : CborMap) : Except CodecError ControlMessage := do
  return message (← getTransferId map)

/-- The messages with a transfer id and a reason. -/
def decodeTransferReason (message : TransferId → Option String → ControlMessage) (map : CborMap) :
    Except CodecError ControlMessage := do
  let transferId ← getTransferId map
  let reason ← getTextOpt map "reason"
  return message transferId reason

/-- The messages with a reason. -/
def decodeReason (message : Option String → ControlMessage) (map : CborMap) : Except CodecError ControlMessage := do
  return message (← getTextOpt map "reason")

/-- The `match` of `decode_control` over the message types. -/
def decodeType (typeCode : Nat) (map : CborMap) : Except CodecError ControlMessage := match typeCode with
  | 0x01 => decodeHello map
  | 0x02 => decodeHelloAck map
  | 0x03 => decodePairRequest map
  | 0x04 => .ok .pairAccept
  | 0x05 => decodeReason .pairReject map
  | 0x06 => decodeReason .sessionClose map
  | 0x09 => decodeError map
  | 0x10 => decodeTransferRequest map
  | 0x11 => decodeTransferId .transferAccept map
  | 0x12 => decodeTransferReason .transferReject map
  | 0x13 => decodeFileMetadata map
  | 0x14 => decodeFileMetadataAck map
  | 0x15 => decodeChunkAck map
  | 0x16 => decodeTransferId .transferPause map
  | 0x17 => decodeTransferId .transferResume map
  | 0x18 => decodeTransferReason .transferCancel map
  | 0x19 => decodeTransferId .transferComplete map
  | 0x1A => decodeTransferAck map
  | 0x20 => decodeResumeQuery map
  | 0x21 => decodeResumeStatus map
  | other => .error (.unknownMessageType other)

/-- `decode_control` once the map is collected. -/
def decodeMap (map : CborMap) : Except CodecError ControlMessage := do
  decodeType (← getUint map "type") map

/-- `decode_control` once the bytes are read. -/
def decodeValue (val : Value) : Except CodecError ControlMessage := do
  checkNestingDepth val 0
  decodeMap (← toCborMap val)

/-- `decode_control`. `from_reader` stops behind the first item and nobody
asks for the rest. -/
def decodeControl (c : Format) (payload : Bytes) : Except CodecError ControlMessage := match c.fromReader payload with
  | .error e => .error (.cborDecode e)
  | .ok (val, _) => decodeValue val

/-! ## Encoding -/

/-- `uint_to_value`. -/
def uintToValue (v : Nat) : Value := .integer (.ofNat v)

/-- `make_version_array`. -/
def makeVersionArray (pv : ProtocolVersion) : Value := .array [uintToValue pv.major, uintToValue pv.minor]

/-- `map_to_value`. -/
def mapToValue (map : CborMap) : Value := .map (map.toList.map fun (k, v) => (.text k, v))

/-- The name an entry's type is written with: a file's only beside a
directory. -/
def entryTypeName (mixed : Bool) : ManifestEntryType → Option String
  | .file => if mixed then some "file" else none
  | .dir => some "dir"

/-- The map of a manifest entry. -/
def encodeManifestEntry (mixed : Bool) (e : ManifestEntry) : Value :=
  mapToValue ((((CborMap.empty.insert "file_id" (uintToValue e.fileId)).insert "relative_path" (.text e.relativePath)).insertOpt
    "sha256" (e.sha256.map fun d => .bytes d.bytes)).insertOpt "size" (e.size.map uintToValue) |>.insertOpt
    "type" ((entryTypeName mixed e.entryType).map .text))

def encodeManifest (manifest : List ManifestEntry) : Value :=
  .array (manifest.map (encodeManifestEntry (manifest.any fun e => e.entryType == .dir)))

/-- The map of a resume file. -/
def encodeResumeFile (f : ResumeFileStatus) : Value :=
  mapToValue (((CborMap.empty.insert "file_id" (uintToValue f.fileId)).insertOpt "partial_sha256"
    (f.partialSha256.map fun d => .bytes d.bytes)).insert "received_bytes" (uintToValue f.receivedBytes) |>.insert
    "received_ranges" (.array (f.receivedRanges.map fun r => .array [uintToValue r.1, uintToValue r.2])))

def transferTypeName : TransferType → String
  | .files => "files"
  | .directory => "directory"

def ackStatusName : TransferAckStatus → String
  | .success => "success"
  | .partialFailure => "partial_failure"

/-- The fields HELLO and HELLO_ACK share. -/
def encodeHello (protocolVersion : ProtocolVersion) (deviceId : DeviceId) (deviceName : String) (platform : Platform)
    (capabilities : List String) (isPaired : Bool) : CborMap :=
  CborMap.empty.insert "capabilities" (.array (capabilities.map .text)) |>.insert "device_id" (.bytes deviceId.bytes)
    |>.insert "device_name" (.text deviceName) |>.insert "is_paired" (.bool isPaired)
    |>.insert "platform" (.text (platformStr platform)) |>.insert "protocol_version" (makeVersionArray protocolVersion)

/-- A transfer id and the type of the message. -/
def encodeTransferId (map : CborMap) (transferId : TransferId) (typeCode : Nat) : CborMap :=
  map.insert "transfer_id" (.bytes transferId.bytes) |>.insert "type" (uintToValue typeCode)

/-- `encode_to_map`. -/
def encodeToMap : ControlMessage → Except CodecError CborMap
  | .hello protocolVersion deviceId deviceName platform capabilities isPaired =>
    .ok ((encodeHello protocolVersion deviceId deviceName platform capabilities isPaired).insert "type" (uintToValue 0x01))
  | .helloAck protocolVersion deviceId deviceName platform capabilities isPaired sessionId =>
    .ok ((encodeHello protocolVersion deviceId deviceName platform capabilities isPaired).insert "session_id"
      (uintToValue sessionId) |>.insert "type" (uintToValue 0x02))
  | .pairRequest sasMethod =>
    .ok (CborMap.empty.insert "sas_method" (.text sasMethod) |>.insert "type" (uintToValue 0x03))
  | .pairAccept => .ok (CborMap.empty.insert "type" (uintToValue 0x04))
  | .pairReject reason => .ok (CborMap.empty.insertOpt "reason" (reason.map .text) |>.insert "type" (uintToValue 0x05))
  | .sessionClose reason => .ok (CborMap.empty.insertOpt "reason" (reason.map .text) |>.insert "type" (uintToValue 0x06))
  | .error code message fatal _ =>
    .ok (CborMap.empty.insert "code" (.text (errorCodeStr code)) |>.insert "fatal" (.bool fatal)
      |>.insertOpt "message" (message.map .text) |>.insert "type" (uintToValue 0x09))
  | .transferRequest transferId transferType displayName totalFiles totalSize manifest =>
    if manifest.length > maxManifestEntries then .error (.manifestTooLarge manifest.length)
    else
      let map := CborMap.empty.insert "display_name" (.text displayName) |>.insert "manifest" (encodeManifest manifest)
        |>.insert "total_files" (uintToValue totalFiles) |>.insert "total_size" (uintToValue totalSize)
        |>.insert "transfer_type" (.text (transferTypeName transferType))
      .ok (encodeTransferId map transferId 0x10)
  | .transferAccept transferId => .ok (encodeTransferId .empty transferId 0x11)
  | .transferReject transferId reason =>
    .ok (encodeTransferId (CborMap.empty.insertOpt "reason" (reason.map .text)) transferId 0x12)
  | .fileMetadata transferId fileId streamId relativePath size sha256 mimeType modifiedTime =>
    let map := CborMap.empty.insert "file_id" (uintToValue fileId) |>.insertOpt "mime_type" (mimeType.map .text)
      |>.insertOpt "modified_time" (modifiedTime.map uintToValue) |>.insert "relative_path" (.text relativePath)
      |>.insert "sha256" (.bytes sha256.bytes) |>.insert "size" (uintToValue size)
      |>.insert "stream_id" (uintToValue streamId)
    .ok (encodeTransferId map transferId 0x13)
  | .fileMetadataAck transferId fileId streamId accepted =>
    let map := CborMap.empty.insert "accepted" (.bool accepted) |>.insert "file_id" (uintToValue fileId)
      |>.insert "stream_id" (uintToValue streamId)
    .ok (encodeTransferId map transferId 0x14)
  | .chunkAck streamId messageId offset length =>
    .ok (CborMap.empty.insert "length" (uintToValue length) |>.insert "message_id" (uintToValue messageId)
      |>.insert "offset" (uintToValue offset) |>.insert "stream_id" (uintToValue streamId)
      |>.insert "type" (uintToValue 0x15))
  | .transferPause transferId => .ok (encodeTransferId .empty transferId 0x16)
  | .transferResume transferId => .ok (encodeTransferId .empty transferId 0x17)
  | .transferCancel transferId reason =>
    .ok (encodeTransferId (CborMap.empty.insertOpt "reason" (reason.map .text)) transferId 0x18)
  | .transferComplete transferId => .ok (encodeTransferId .empty transferId 0x19)
  | .transferAck transferId status failedFiles =>
    let map := CborMap.empty.insertOpt "failed_files" (failedFiles.map fun ids => .array (ids.map uintToValue))
      |>.insert "status" (.text (ackStatusName status))
    .ok (encodeTransferId map transferId 0x1A)
  | .resumeQuery transferId fileIds =>
    .ok (encodeTransferId (CborMap.empty.insertOpt "file_ids" (fileIds.map fun ids => .array (ids.map uintToValue)))
      transferId 0x20)
  | .resumeStatus transferId resumable files expiry =>
    let map := CborMap.empty.insertOpt "expiry" (expiry.map uintToValue)
      |>.insertOpt "files" (files.map fun files => .array (files.map encodeResumeFile)) |>.insert "resumable" (.bool resumable)
    .ok (encodeTransferId map transferId 0x21)

/-- `encode_control`. -/
def encodeControl (c : Format) (msg : ControlMessage) : Except CodecError Bytes := do
  let map ← encodeToMap msg
  match c.intoWriter (mapToValue map) with
  | .error e => .error (.cborEncode e)
  | .ok buf => if buf.length > controlPayloadMax then .error .encodedTooLarge else .ok buf

end Nxfr.Codec

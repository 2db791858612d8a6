/-
The control messages (`nxfr-core/src/messages.rs`, `error_code.rs`,
`nxfr-common/src/types.rs`), the frames that carry them, and the sending half
of `NxfrConnection` (`nxfr-transport/src/connection.rs`).

A frame is as `recv_frame` gives it, with what `decode_control` makes of its
payload beside the payload: the receivers ask that of a CONTROL frame, the
mobile sender of any frame. Numbers are unbounded here; the widths are the
codec's concern. What the code takes from other crates is `Ext`.
-/
import Mathlib

namespace Nxfr

abbrev Bytes := List UInt8

/-- `[u8; 32]`, a SHA-256 value. -/
structure Digest where
  bytes : Bytes
  size : bytes.length = 32
  deriving DecidableEq

/-- `TransferId`, 16 bytes. -/
structure TransferId where
  bytes : Bytes
  size : bytes.length = 16
  deriving DecidableEq

/-- `DeviceId`, the SHA-256 of a certificate's SPKI. -/
abbrev DeviceId := Digest

inductive Platform where
  | linux | android | windows | macOs | ios
  | other (name : String)
  deriving DecidableEq

structure ProtocolVersion where
  major : Nat
  minor : Nat
  deriving DecidableEq

inductive ErrorCode where
  | unsupportedVersion | invalidFrame | payloadTooLarge | invalidCbor | unknownMessageType
  | sessionTimeout | checksumMismatch | diskFull | storageError | pathRejected | transferNotFound
  | streamNotFound | identityChanged | pairRequired | rateLimited | internalError | manifestTooLarge
  | unknown (code : String)
  deriving DecidableEq

inductive ManifestEntryType where
  | file | dir
  deriving DecidableEq

structure ManifestEntry where
  fileId : Nat
  relativePath : String
  size : Option Nat
  sha256 : Option Digest
  entryType : ManifestEntryType
  deriving DecidableEq

inductive TransferType where
  | files | directory
  deriving DecidableEq

structure ResumeFileStatus where
  fileId : Nat
  receivedBytes : Nat
  receivedRanges : List (Nat × Nat)
  partialSha256 : Option Digest
  deriving DecidableEq

inductive TransferAckStatus where
  | success | partialFailure
  deriving DecidableEq

inductive ControlMessage where
  | hello (protocolVersion : ProtocolVersion) (deviceId : DeviceId) (deviceName : String) (platform : Platform)
      (capabilities : List String) (isPaired : Bool)
  | helloAck (protocolVersion : ProtocolVersion) (deviceId : DeviceId) (deviceName : String)
      (platform : Platform) (capabilities : List String) (isPaired : Bool) (sessionId : Nat)
  | pairRequest (sasMethod : String)
  | pairAccept
  | pairReject (reason : Option String)
  | sessionClose (reason : Option String)
  | error (code : ErrorCode) (message : Option String) (fatal : Bool) (details : Option (List (String × String)))
  | transferRequest (transferId : TransferId) (transferType : TransferType) (displayName : String)
      (totalFiles totalSize : Nat) (manifest : List ManifestEntry)
  | transferAccept (transferId : TransferId)
  | transferReject (transferId : TransferId) (reason : Option String)
  | fileMetadata (transferId : TransferId) (fileId streamId : Nat) (relativePath : String) (size : Nat)
      (sha256 : Digest) (mimeType : Option String) (modifiedTime : Option Nat)
  | fileMetadataAck (transferId : TransferId) (fileId streamId : Nat) (accepted : Bool)
  | chunkAck (streamId messageId offset length : Nat)
  | transferPause (transferId : TransferId)
  | transferResume (transferId : TransferId)
  | transferCancel (transferId : TransferId) (reason : Option String)
  | transferComplete (transferId : TransferId)
  | transferAck (transferId : TransferId) (status : TransferAckStatus) (failedFiles : Option (List Nat))
  | resumeQuery (transferId : TransferId) (fileIds : Option (List Nat))
  | resumeStatus (transferId : TransferId) (resumable : Bool) (files : Option (List ResumeFileStatus))
      (expiry : Option Nat)
  deriving DecidableEq

/-- `CodecError`, the ways `encode_control` and `decode_control` fail. -/
inductive CodecError where
  | cborDecode (text : String) | notAMap | nonStringKey | missingField (field : String)
  | wrongType (field expected : String) | unknownMessageType (code : Nat) | nestingTooDeep (depth : Nat)
  | tagNotAllowed | indefiniteLength | cborEncode (text : String) | manifestTooLarge (entries : Nat)
  | encodedTooLarge
  deriving DecidableEq

/-! ## The wire -/

inductive FrameKind where
  | control | chunk | keepalive
  deriving DecidableEq

/-- A frame: the header fields the code reads, the payload, and
`decode_control` of the payload. -/
structure Frame where
  kind : FrameKind
  flags : Nat
  streamId : Nat
  messageId : Nat
  payload : Bytes
  control : Except CodecError ControlMessage

/-- `FrameFlags::is_last_chunk`. -/
def Frame.isLastChunk (f : Frame) : Bool := f.flags % 2 == 1

/-- `FrameFlags::is_pong`: the same bit, on a keepalive. -/
def Frame.isPong (f : Frame) : Bool := f.flags % 2 == 1

/-- `u64::to_be_bytes`. -/
def toBeBytes (n : Nat) : Bytes := (List.range 8).map fun i => UInt8.ofNat (n / 256 ^ (7 - i))

/-- `u64::from_be_bytes`. -/
def fromBeBytes (bs : Bytes) : Nat := bs.foldl (fun n b => n * 256 + b.toNat) 0

/-- The bytes of a message's strings and lists: what its encoding holds
beyond a bounded number of keys, heads and fixed-size values. -/
def ControlMessage.volume : ControlMessage → Nat
  | .hello _ _ name platform caps _ | .helloAck _ _ name platform caps _ _ =>
    name.utf8ByteSize + (match platform with | .other s => s.utf8ByteSize | _ => 0) +
      (caps.map fun c => 9 + c.utf8ByteSize).sum
  | .pairRequest method => method.utf8ByteSize
  | .pairReject reason | .sessionClose reason | .transferReject _ reason | .transferCancel _ reason =>
    (reason.map (·.utf8ByteSize)).getD 0
  | .error code message _ _ =>
    (match code with | .unknown s => s.utf8ByteSize | _ => 0) + (message.map (·.utf8ByteSize)).getD 0
  | .transferRequest _ _ name _ _ manifest =>
    name.utf8ByteSize + (manifest.map fun e => 256 + e.relativePath.utf8ByteSize).sum
  | .fileMetadata _ _ _ path _ _ mime _ => path.utf8ByteSize + (mime.map (·.utf8ByteSize)).getD 0
  | .transferAck _ _ failed => ((failed.getD []).map fun _ => 9).sum
  | .resumeQuery _ ids => ((ids.getD []).map fun _ => 9).sum
  | .resumeStatus _ _ files _ => ((files.getD []).map fun f => 256 + 32 * f.receivedRanges.length).sum
  | _ => 0

/-- What the code takes from other crates and from the standard library:
`Sha256::digest`, the length of the CBOR text ciborium writes for a message,
and the `{:?}` form of a string. -/
structure Ext where
  sha256 : Bytes → Digest
  cborLen : ControlMessage → Nat
  debugStr : String → String

/-- The heads of CBOR items take at most nine bytes, so a message's text is
its strings and lists and not much more. -/
def Ext.Compact (x : Ext) : Prop := ∀ m, x.cborLen m ≤ 1024 + m.volume

/-- `limits::CONTROL_PAYLOAD_MAX`. -/
def controlPayloadMax : Nat := 65536

/-- `limits::MAX_MANIFEST_ENTRIES`. -/
def maxManifestEntries : Nat := 500

/-- Whether `encode_control` takes a message. -/
def encodeControl (x : Ext) (m : ControlMessage) : Except CodecError Unit :=
  match m with
  | .transferRequest _ _ _ _ _ manifest =>
    if manifest.length > maxManifestEntries then .error (.manifestTooLarge manifest.length)
    else if x.cborLen m > controlPayloadMax then .error .encodedTooLarge
    else .ok ()
  | _ => if x.cborLen m > controlPayloadMax then .error .encodedTooLarge else .ok ()

/-- The CONTROL frame of a message. -/
def controlFrame (messageId : Nat) (m : ControlMessage) : Frame :=
  { kind := .control, flags := 0, streamId := 0, messageId, payload := [], control := .ok m }

/-- A CHUNK frame. Both receivers tell it by its kind and never ask
`decode_control` about its payload. -/
def chunkFrame (messageId streamId flags : Nat) (payload : Bytes) : Frame :=
  { kind := .chunk, flags, streamId, messageId, payload, control := .error .notAMap }

/-- Our end of a connection: the id the next frame gets, what was written,
and how many more frames the peer takes before the connection is lost
(`none`: it is never lost). -/
structure Conn where
  nextMessageId : Nat := 1
  outbox : List Frame := []
  writesLeft : Option Nat := none

/-- `framed.send`, failing once the connection is lost. -/
def Conn.write (c : Conn) (f : Frame) : Option Conn := match c.writesLeft with
  | some 0 => none
  | left => some { c with outbox := c.outbox ++ [f], writesLeft := left.map (· - 1) }

/-- `NxfrConnection::send_control`. -/
def Conn.sendControl (x : Ext) (c : Conn) (m : ControlMessage) : Option Conn :=
  match encodeControl x m with
  | .error _ => none
  | .ok () => (c.write (controlFrame c.nextMessageId m)).map fun c =>
    { c with nextMessageId := c.nextMessageId + 1 }

/-- Why a function returned early: the text of an error of its own, an I/O
error, or a payload `decode_control` refused. -/
inductive Fail where
  | text (s : String)
  | io
  | codec (e : CodecError)
  deriving DecidableEq

end Nxfr

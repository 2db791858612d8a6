/-
Frames on a byte stream: the 28-byte header (`nxfr-core/src/frame.rs`) and
`NxfrCodec` (`nxfr-transport/src/framing.rs`), which takes frames off the
buffer of a tokio `Framed` and writes them to it.

Header fields have the source's widths. The slices of the header are
contiguous, so `serialize` writes them one after another. `decode` answers
with the buffer it leaves behind.
-/
import Nxfr.BigEndian
import Nxfr.Incremental
import Nxfr.Messages

namespace Nxfr

/-! ## The header -/

/-- `limits::FRAME_HEADER_SIZE`. -/
def frameHeaderSize : Nat := 28

/-- `limits::FRAME_MAGIC`, `b"NXFR"`. -/
def frameMagic : Bytes := [0x4E, 0x58, 0x46, 0x52]

/-- `limits::FRAME_VERSION`. -/
def frameVersion : UInt8 := 1

/-- `limits::CONTROL_PAYLOAD_MAX`, as the header has it. -/
def controlPayloadLenMax : UInt32 := 65536

/-- `limits::CHUNK_PAYLOAD_MIN`: 40 bytes of chunk header and one of data. -/
def chunkPayloadLenMin : UInt32 := 41

/-- `limits::CHUNK_PAYLOAD_MAX`. -/
def chunkPayloadLenMax : UInt32 := 4194304

/-- `limits::KEEPALIVE_PAYLOAD_MAX`. -/
def keepalivePayloadLenMax : UInt32 := 8

inductive FrameError where
  | invalidMagic
  | unsupportedVersion (version : UInt8)
  | unknownKind (kind : UInt8)
  | payloadTooLarge (kind : String) (size max : UInt32)
  | incompleteHeader (got : Nat)
  | chunkPayloadTooSmall (size : UInt32)
  | keepalivePayloadInvalid (size : UInt32)
  deriving DecidableEq

/-- The discriminants of `FrameKind`. -/
def FrameKind.toU8 : FrameKind → UInt8
  | .control => 0x01
  | .chunk => 0x02
  | .keepalive => 0x03

/-- `FrameKind::from_u8`. -/
def FrameKind.fromU8 (v : UInt8) : Except FrameError FrameKind :=
  if v = 0x01 then .ok .control else if v = 0x02 then .ok .chunk else if v = 0x03 then .ok .keepalive
  else .error (.unknownKind v)

/-- `FrameKind::as_str`. -/
def FrameKind.asStr : FrameKind → String
  | .control => "CONTROL"
  | .chunk => "CHUNK"
  | .keepalive => "KEEPALIVE"

structure FrameHeader where
  kind : FrameKind
  flags : UInt16
  sessionId : UInt32
  streamId : UInt32
  messageId : UInt64
  payloadLen : UInt32
  deriving DecidableEq

/-- `FrameHeader::validate_payload_len`. -/
def FrameHeader.validatePayloadLen (h : FrameHeader) : Except FrameError Unit := match h.kind with
  | .control =>
    if h.payloadLen > controlPayloadLenMax then
      .error (.payloadTooLarge h.kind.asStr h.payloadLen controlPayloadLenMax)
    else .ok ()
  | .chunk =>
    if h.payloadLen < chunkPayloadLenMin then .error (.chunkPayloadTooSmall h.payloadLen)
    else if h.payloadLen > chunkPayloadLenMax then
      .error (.payloadTooLarge h.kind.asStr h.payloadLen chunkPayloadLenMax)
    else .ok ()
  | .keepalive =>
    if h.payloadLen ≠ 0 ∧ h.payloadLen ≠ keepalivePayloadLenMax then .error (.keepalivePayloadInvalid h.payloadLen)
    else .ok ()

/-- `buf[i..j]`. -/
def byteRange (buf : Bytes) (i j : Nat) : Bytes := (buf.drop i).take (j - i)

/-- `buf[i]`. -/
def byteAt (buf : Bytes) (i : Nat) : UInt8 := buf.getD i 0

/-- The fields of a header after its kind, as the bytes have them. -/
def FrameHeader.ofFields (kind : FrameKind) (buf : Bytes) : FrameHeader :=
  { kind
    flags := UInt16.ofNat (BigEndian.value (byteRange buf 6 8))
    sessionId := UInt32.ofNat (BigEndian.value (byteRange buf 8 12))
    streamId := UInt32.ofNat (BigEndian.value (byteRange buf 12 16))
    messageId := UInt64.ofNat (BigEndian.value (byteRange buf 16 24))
    payloadLen := UInt32.ofNat (BigEndian.value (byteRange buf 24 28)) }

/-- `FrameHeader::parse`. -/
def FrameHeader.parse (buf : Bytes) : Except FrameError FrameHeader :=
  if buf.length < frameHeaderSize then .error (.incompleteHeader buf.length)
  else if byteRange buf 0 4 ≠ frameMagic then .error .invalidMagic
  else if byteAt buf 4 ≠ frameVersion then .error (.unsupportedVersion (byteAt buf 4))
  else match FrameKind.fromU8 (byteAt buf 5) with
    | .error e => .error e
    | .ok kind => match (FrameHeader.ofFields kind buf).validatePayloadLen with
      | .error e => .error e
      | .ok () => .ok (FrameHeader.ofFields kind buf)

/-- `FrameHeader::serialize`. -/
def FrameHeader.serialize (h : FrameHeader) : Bytes :=
  frameMagic ++ [frameVersion] ++ [h.kind.toU8] ++ BigEndian.bytes 2 h.flags.toNat ++ BigEndian.bytes 4 h.sessionId.toNat ++
    BigEndian.bytes 4 h.streamId.toNat ++ BigEndian.bytes 8 h.messageId.toNat ++ BigEndian.bytes 4 h.payloadLen.toNat

/-! ## The codec -/

/-- `NxfrFrame`. -/
abbrev NxfrFrame := FrameHeader × Bytes

/-- `NxfrCodec::decode`. -/
def NxfrCodec.decode (src : Bytes) : Except FrameError (Option NxfrFrame) × Bytes :=
  if src.length < 28 then (.ok none, src)
  else match FrameHeader.parse (src.take 28) with
    | .error e => (.error e, src)
    | .ok header =>
      let totalLen := 28 + header.payloadLen.toNat
      if src.length < totalLen then (.ok none, src)
      else (.ok (some (header, (src.drop 28).take header.payloadLen.toNat)), (src.drop 28).drop header.payloadLen.toNat)

/-- What `NxfrCodec::encode` writes. -/
def NxfrCodec.encode (item : NxfrFrame) : Bytes := item.1.serialize ++ item.2

theorem NxfrCodec.decode_consumes {buf rest : Bytes} {f : NxfrFrame} (h : decode buf = (.ok (some f), rest)) :
    rest.length < buf.length := by
  unfold decode at h
  split at h
  · cases h
  rename_i hlen
  split at h
  · cases h
  simp only at h
  split at h
  · cases h
  simp only [Prod.mk.injEq] at h
  rw [← h.2, List.length_drop, List.length_drop]
  omega

/-- The decoder and encoder a `Framed` reads and writes with. -/
def nxfrCodec : Incremental.Codec NxfrFrame UInt8 FrameError where
  encode := NxfrCodec.encode
  decode := NxfrCodec.decode
  consumes := NxfrCodec.decode_consumes

end Nxfr

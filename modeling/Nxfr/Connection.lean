/-
A connection's outgoing frames and their message ids
(`nxfr-transport/src/connection.rs`), with the keepalive branch of the session
loop (`nxfr-daemon/src/handler.rs`), the one place that sends a frame it has
numbered itself.

The two `send_` methods number their frames from a counter that starts at 1
and goes on once a frame is written. A pong goes out through `send_raw` with
the id 0. The counter wraps around as `u64` does in a release build.
-/
import Nxfr.Codec
import Nxfr.Framing
import Nxfr.History

namespace Nxfr

open Cbor (Format)

/-! ## The connection -/

/-- The `std::io::Error` of a send: the message cannot be encoded, or the
frame cannot be written. -/
inductive SendError where
  | invalidData (e : CodecError)
  | io
  deriving DecidableEq

/-- What was written to the stream, how many more frames it takes before the
connection is lost (`none`: it is never lost), and the counter. -/
structure NxfrConnection where
  framed : List NxfrFrame
  writesLeft : Option Nat
  nextMessageId : UInt64
  deriving DecidableEq

namespace NxfrConnection

/-- `NxfrConnection::new` over a stream. -/
def new (writesLeft : Option Nat) : NxfrConnection := ⟨[], writesLeft, 1⟩

/-- The stream takes no more frames. -/
def lost (c : NxfrConnection) : Bool := c.writesLeft == some 0

/-- `framed.send`. -/
def framedSend (c : NxfrConnection) (frame : NxfrFrame) : Except SendError Unit × NxfrConnection :=
  if c.lost then (.error .io, c)
  else (.ok (), { c with framed := c.framed ++ [frame], writesLeft := c.writesLeft.map (· - 1) })

/-- Send a frame numbered from the counter, as `send_control` and `send_chunk`
do. -/
def sendNumbered (c : NxfrConnection) (kind : FrameKind) (flags : UInt16) (sessionId streamId : UInt32)
    (payload : Bytes) : Except SendError UInt64 × NxfrConnection :=
  let msgId := c.nextMessageId
  let header : FrameHeader :=
    { kind, flags, sessionId, streamId, messageId := msgId, payloadLen := UInt32.ofNat payload.length }
  match c.framedSend (header, payload) with
  | (.error e, c) => (.error e, c)
  | (.ok (), c) => (.ok msgId, { c with nextMessageId := c.nextMessageId + 1 })

/-- `NxfrConnection::send_control`. -/
def sendControl (cbor : Format) (c : NxfrConnection) (sessionId streamId : UInt32) (msg : ControlMessage) :
    Except SendError UInt64 × NxfrConnection :=
  match Codec.encodeControl cbor msg with
  | .error e => (.error (.invalidData e), c)
  | .ok payload => c.sendNumbered .control 0 sessionId streamId payload

/-- `NxfrConnection::send_chunk`. -/
def sendChunk (c : NxfrConnection) (sessionId streamId : UInt32) (flags : UInt16) (payload : Bytes) :
    Except SendError UInt64 × NxfrConnection :=
  c.sendNumbered .chunk flags sessionId streamId payload

/-- `NxfrConnection::send_raw`. -/
def sendRaw (c : NxfrConnection) (frame : NxfrFrame) : Except SendError Unit × NxfrConnection := c.framedSend frame

end NxfrConnection

/-- `FrameFlags::is_pong`. -/
def FrameHeader.isPong (h : FrameHeader) : Bool := h.flags &&& 1 != 0

/-- The frame that answers a keepalive. -/
def pongFrame (sessionId : UInt32) (payload : Bytes) : NxfrFrame :=
  ({ kind := .keepalive, flags := 1, sessionId, streamId := 0, messageId := 0
     payloadLen := UInt32.ofNat payload.length }, payload)

/-- The session loop reads a keepalive. -/
def onKeepalive (c : NxfrConnection) (sessionId : UInt32) (frame : NxfrFrame) : Except SendError Unit × NxfrConnection :=
  if frame.1.isPong then (.ok (), c) else c.sendRaw (pongFrame sessionId frame.2)

/-- What makes the daemon send a frame. -/
inductive Sending where
  | control (sessionId streamId : UInt32) (msg : ControlMessage)
  | chunk (sessionId streamId : UInt32) (flags : UInt16) (payload : Bytes)
  | keepalive (sessionId : UInt32) (frame : NxfrFrame)

/-- The connection after one of them, whatever the caller makes of an error. -/
def NxfrConnection.perform (cbor : Format) (c : NxfrConnection) : Sending → NxfrConnection
  | .control sessionId streamId msg => (c.sendControl cbor sessionId streamId msg).2
  | .chunk sessionId streamId flags payload => (c.sendChunk sessionId streamId flags payload).2
  | .keepalive sessionId frame => (onKeepalive c sessionId frame).2

/-- The ids of the frames sent, in order. -/
def NxfrConnection.messageIds (c : NxfrConnection) : List UInt64 := c.framed.map (·.1.messageId)

end Nxfr

/-
A connection from one end to the other: what its two `send_` methods and the
answered keepalives (`nxfr-transport/src/connection.rs`,
`nxfr-daemon/src/handler.rs`) put on the stream, and what the peer's `Framed`
and the session loop take off it again.

The stream may come in any pieces and end at any byte. The peer then has the
first of what was sent, all of it where no byte is missing: nothing out of
order, nothing twice, every message as it was handed to `send_control` and
under the id that was returned for it.
-/
import Nxfr.FramingFacts
import Nxfr.MessageIds
import Nxfr.RoundTrip

namespace Nxfr

open Cbor (Format)
open History

/-! ## The two ends -/

/-- What a frame carries: a control message, or bytes that the codec leaves
alone. -/
inductive Content where
  | message (msg : ControlMessage)
  | bytes (payload : Bytes)

/-- A frame as the callers of either end know it. -/
structure Delivery where
  kind : FrameKind
  flags : UInt16
  sessionId : UInt32
  streamId : UInt32
  messageId : UInt64
  content : Content

/-- What an event sends, as its caller is told: nothing where an error is
returned, or where a pong is read. -/
def Sending.accepted (cbor : Format) (c : NxfrConnection) : Sending → List Delivery
  | .control sessionId streamId msg => match (c.sendControl cbor sessionId streamId msg).1 with
    | .error _ => []
    | .ok messageId => [{ kind := .control, flags := 0, sessionId, streamId, messageId, content := .message msg }]
  | .chunk sessionId streamId flags payload => match (c.sendChunk sessionId streamId flags payload).1 with
    | .error _ => []
    | .ok messageId => [{ kind := .chunk, flags, sessionId, streamId, messageId, content := .bytes payload }]
  | .keepalive sessionId frame =>
    if frame.1.isPong then []
    else match (onKeepalive c sessionId frame).1 with
      | .error _ => []
      | .ok () =>
        [{ kind := .keepalive, flags := 1, sessionId, streamId := 0, messageId := 0, content := .bytes frame.2 }]

/-- All that a run sends. -/
def acceptedIn (cbor : Format) (c : NxfrConnection) : List Sending → List Delivery
  | [] => []
  | op :: ops => op.accepted cbor c ++ acceptedIn cbor (c.perform cbor op) ops

def FrameHeader.delivery (h : FrameHeader) (content : Content) : Delivery :=
  { kind := h.kind, flags := h.flags, sessionId := h.sessionId, streamId := h.streamId, messageId := h.messageId
    content }

/-- What the session loop makes of a frame. -/
def frameDelivery (cbor : Format) (frame : NxfrFrame) : Except CodecError Delivery := match frame.1.kind with
  | .control => match Codec.decodeControl cbor frame.2 with
    | .error e => .error e
    | .ok msg => .ok (frame.1.delivery (.message msg))
  | _ => .ok (frame.1.delivery (.bytes frame.2))

/-- What the callers of the `send_` methods see to: a message is in canonical
form and within its fields' widths, a chunk is no shorter and no longer than
the protocol has it, and a keepalive is one that the codec has read. -/
def Sending.Sound : Sending → Prop
  | .control _ _ msg => Codec.Fits msg ∧ Codec.Canonical msg
  | .chunk _ _ _ payload => 41 ≤ payload.length ∧ payload.length ≤ 4194304
  | .keepalive _ frame => WellFramed frame ∧ frame.1.kind = .keepalive

/-! ## One event -/

variable {cbor : Format}

theorem payloadLen_toNat {payload : Bytes} (h : payload.length ≤ 4194304) :
    (UInt32.ofNat payload.length).toNat = payload.length := by
  refine UInt32.toNat_ofNat_of_lt' ?_
  rw [show UInt32.size = 4294967296 from rfl]
  omega

/-- A single frame is well framed whose kind allows the length of its payload. -/
theorem wellFramed_of_allowed {h : FrameHeader} {payload : Bytes} (hlen : h.payloadLen = UInt32.ofNat payload.length)
    (hbound : payload.length ≤ 4194304) (hallowed : h.LenAllowed) : ∀ f ∈ [(h, payload)], WellFramed f := by
  intro f hf
  rw [List.mem_singleton] at hf
  subst hf
  refine ⟨FrameHeader.validatePayloadLen_ok_iff.mpr hallowed, ?_⟩
  rw [hlen]
  exact payloadLen_toNat hbound

/-- A frame from the counter is written with the id that is returned, or an
error is returned and nothing is written. -/
theorem NxfrConnection.sendNumbered_cases (c : NxfrConnection) (kind : FrameKind) (flags : UInt16)
    (sessionId streamId : UInt32) (payload : Bytes) :
    (∃ e, c.sendNumbered kind flags sessionId streamId payload = (.error e, c)) ∨
      (c.sendNumbered kind flags sessionId streamId payload).1 = .ok c.nextMessageId ∧
        (c.sendNumbered kind flags sessionId streamId payload).2.framed = c.framed ++
          [({ kind, flags, sessionId, streamId, messageId := c.nextMessageId
              payloadLen := UInt32.ofNat payload.length }, payload)] := by
  cases hlost : c.lost with
  | true => exact .inl ⟨.io, by simp [sendNumbered, framedSend_lost hlost]⟩
  | false => exact .inr (by simp [sendNumbered, framedSend_live hlost])

/-- What one event adds to the stream is well framed, and is read as what its
caller is told. -/
theorem NxfrConnection.perform_delivers (hc : cbor.Inverts) (c : NxfrConnection) {op : Sending} (hop : op.Sound) :
    ∃ frames, (c.perform cbor op).framed = c.framed ++ frames ∧ (∀ f ∈ frames, WellFramed f) ∧
      frames.map (frameDelivery cbor) = (op.accepted cbor c).map .ok := by
  cases op with
  | control sessionId streamId msg =>
    obtain ⟨hfits, hcanon⟩ := hop
    simp only [perform, Sending.accepted, sendControl]
    cases hcode : Codec.encodeControl cbor msg with
    | error e => exact ⟨[], by simp⟩
    | ok payload =>
      obtain ⟨-, -, -, hsize⟩ := Codec.encodeControl_ok hcode
      rw [controlPayloadMax] at hsize
      rcases c.sendNumbered_cases .control 0 sessionId streamId payload with ⟨e, h⟩ | ⟨hid, hframed⟩
      · exact ⟨[], by simp [h]⟩
      · refine ⟨_, hframed, ?_, ?_⟩
        · refine wellFramed_of_allowed rfl (by omega) ?_
          rw [FrameHeader.LenAllowed, payloadLen_toNat (by omega)]
          exact hsize
        · simp [hid, frameDelivery, FrameHeader.delivery, Codec.decodeControl_encodeControl hc hfits hcanon hcode]
  | chunk sessionId streamId flags payload =>
    obtain ⟨hmin, hmax⟩ := hop
    simp only [perform, Sending.accepted, sendChunk]
    rcases c.sendNumbered_cases .chunk flags sessionId streamId payload with ⟨e, h⟩ | ⟨hid, hframed⟩
    · exact ⟨[], by simp [h]⟩
    · refine ⟨_, hframed, ?_, ?_⟩
      · refine wellFramed_of_allowed rfl (by omega) ?_
        rw [FrameHeader.LenAllowed, payloadLen_toNat hmax]
        exact ⟨hmin, hmax⟩
      · simp [hid, frameDelivery, FrameHeader.delivery]
  | keepalive sessionId frame =>
    obtain ⟨⟨hvalid, hpayload⟩, hkind⟩ := hop
    have hallowed := FrameHeader.validatePayloadLen_ok_iff.mp hvalid
    rw [FrameHeader.LenAllowed, hkind] at hallowed
    simp only [perform, Sending.accepted, onKeepalive]
    cases hpong : frame.1.isPong with
    | true => exact ⟨[], by simp⟩
    | false =>
      cases hlost : c.lost with
      | true => exact ⟨[], by simp [sendRaw, framedSend_lost hlost]⟩
      | false =>
        have hlen : frame.2.length = 0 ∨ frame.2.length = 8 := by
          rw [← hpayload]
          exact hallowed
        refine ⟨[pongFrame sessionId frame.2], by simp [sendRaw, framedSend_live hlost], ?_, ?_⟩
        · refine wellFramed_of_allowed rfl (by omega) ?_
          rw [FrameHeader.LenAllowed]
          simp only [payloadLen_toNat (show frame.2.length ≤ 4194304 by omega)]
          omega
        · simp [sendRaw, framedSend_live hlost, frameDelivery, FrameHeader.delivery, pongFrame]

/-! ## Runs -/

/-- The stream after a run: what was on it, and frames that are read as what
the run's callers were told. -/
theorem NxfrConnection.run_delivers (hc : cbor.Inverts) {ops : List Sending} (hops : ∀ op ∈ ops, op.Sound)
    (c : NxfrConnection) :
    ∃ frames, (after (perform cbor) c ops).framed = c.framed ++ frames ∧ (∀ f ∈ frames, WellFramed f) ∧
      frames.map (frameDelivery cbor) = (acceptedIn cbor c ops).map .ok := by
  induction ops generalizing c with
  | nil => exact ⟨[], by simp [after, acceptedIn]⟩
  | cons op ops ih =>
    obtain ⟨first, hfirst, hgood, hread⟩ := c.perform_delivers hc (hops op List.mem_cons_self)
    obtain ⟨more, hmore, hgood', hread'⟩ := ih (fun op hop => hops op (List.mem_cons_of_mem _ hop)) (c.perform cbor op)
    refine ⟨first ++ more, ?_, ?_, ?_⟩
    · rw [← List.append_assoc, ← hfirst, ← hmore]
      rfl
    · intro f hf
      rcases List.mem_append.mp hf with hf | hf
      · exact hgood f hf
      · exact hgood' f hf
    · rw [List.map_append, hread, hread', acceptedIn, List.map_append]

/-- A message, a chunk and a ping, on a connection that takes two frames. -/
def sampleSendings : List Sending :=
  [.control 7 0 (.pairReject (some "no")), .chunk 7 2 0 (List.replicate 41 0),
    .keepalive 7 ({ kind := .keepalive, flags := 0, sessionId := 7, streamId := 0, messageId := 1
                    payloadLen := 0 }, [])]

def sampleWire : Bytes :=
  (after (NxfrConnection.perform Cbor.definite) (.new (some 2)) sampleSendings).framed.flatMap NxfrCodec.encode

/-- The two that were sent have the ids 1 and 2, and the pong is not sent. -/
example : (acceptedIn Cbor.definite (.new (some 2)) sampleSendings).map (·.messageId) = [1, 2] := by decide +kernel

end Nxfr

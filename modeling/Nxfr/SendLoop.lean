/-
The chunk loops of the senders as they run: `send_file` and `send_file_resume`
(`nxfr-daemon/src/sender.rs`) and the loop of `do_send_file` over one file
(`nxfr-ffi/src/lib.rs`), on a connection whose other end sends what it likes.

`sendMove` is a turn of the loop; here the turns come one after another, with
the frames that the waits read between them, and the chunks go out as frames
with their headers. The ranges to skip are compared in 64 bits, as a release
build does.
-/
import Nxfr.Connection
import Nxfr.MobileSender
import Nxfr.ChunkExchange

namespace Nxfr

open History

/-! ## The loops -/

/-- The payload decodes to a CHUNK_ACK. -/
def Frame.decodesAck (f : Frame) : Bool := match f.control with
  | .ok (.chunkAck _ _ _ _) => true
  | _ => false

/-- The chunk lies inside one of the ranges, in 64 bits. -/
def coveredWord (skipRanges : List (Nat × Nat)) (offset len : Nat) : Bool :=
  skipRanges.any fun r => offset ≥ r.1 && (offset + len) % 2 ^ 64 ≤ (r.1 + r.2) % 2 ^ 64

/-- Which loop it is; the mobile one comes with what was acknowledged of the
files before. -/
inductive ChunkLoop where
  | sendFile
  | sendFileResume (skipRanges : List (Nat × Nat))
  | doSendFile (cumulativeSent : Nat)

def ChunkLoop.skips : ChunkLoop → Nat → Nat → Bool
  | .sendFileResume skipRanges => coveredWord skipRanges
  | .sendFile | .doSendFile _ => fun _ _ => false

/-- The variables before the first turn. -/
def ChunkLoop.start : ChunkLoop → SendState
  | .sendFile => {}
  | .sendFileResume skipRanges => resumeStart skipRanges
  | .doSendFile cumulativeSent => { ackedBytes := cumulativeSent }

/-- What a wait makes of a frame. -/
def ChunkLoop.onFrame : ChunkLoop → SendState → Frame → Except Fail SendState
  | .sendFile | .sendFileResume _ => SendState.onFrame
  | .doSendFile _ => fun s f => .ok (s.onAnyFrame f)

/-- The frames that a wait counts as CHUNK_ACKs: the daemon looks at the kind
of a frame first. -/
def ChunkLoop.isAck : ChunkLoop → Frame → Bool
  | .sendFile | .sendFileResume _ => fun f => f.kind == .control && f.decodesAck
  | .doSendFile _ => Frame.decodesAck

/-- What is sent, and as which stream of which session. -/
structure Stream where
  sessionId : UInt32
  streamId : UInt32
  fileData : Bytes

/-- A run of a loop: its variables, the connection with the chunks it has
written, the CHUNK_ACKs it has read, and what it has returned. -/
structure SendRun where
  state : SendState
  conn : NxfrConnection
  acks : Nat
  result : Option (Except Fail Unit)

/-- The loop goes on, or a wait reads a frame; or the wait, or the read of the
next chunk from the disk, fails. -/
inductive SendInput where
  | go
  | frame (f : Frame)
  | lost

/-- The chunks a run has sent. -/
def SendRun.chunks (r : SendRun) : List NxfrFrame := r.conn.framed

section

variable (x : Ext) (loop : ChunkLoop) (io : Stream)

def SendRun.move (r : SendRun) : SendMove := sendMove x loop.skips io.fileData r.state

def SendRun.step (r : SendRun) (e : SendInput) : SendRun :=
  match r.result with
  | some _ => r
  | none => match r.move x loop io, e with
    | .skip s, .go => { r with state := s }
    | .send flags payload s, .go =>
      match r.conn.sendChunk io.sessionId io.streamId (UInt16.ofNat flags) payload with
      | (.ok _, conn) => { r with state := s, conn }
      | (.error _, conn) => { r with conn, result := some (.error .io) }
    | .wait, .frame f => match loop.onFrame r.state f with
      | .ok s => { r with state := s, acks := r.acks + (loop.isAck f).toNat }
      | .error e => { r with result := some (.error e) }
    | .wait, .lost | .send _ _ _, .lost => { r with result := some (.error .io) }
    | .done, .go => { r with result := some (.ok ()) }
    | _, _ => r

/-- The run starts on a connection that has sent what it has sent. -/
def SendRun.start (conn : NxfrConnection) : SendRun := ⟨loop.start, { conn with framed := [] }, 0, none⟩

end

/-! ## One step -/

/-- What a step of a run can do. -/
inductive SendRun.Steps (x : Ext) (loop : ChunkLoop) (io : Stream) (r : SendRun) : SendInput → SendRun → Prop
  | idle (e : SendInput) : Steps x loop io r e r
  | skipped (h : r.state.offset < io.fileData.length)
    (hskip : loop.skips r.state.offset (chunkStop io.fileData r.state.offset - r.state.offset) = true)
    (stop : Nat) (hstop : stop = chunkStop io.fileData r.state.offset) :
    Steps x loop io r .go { r with state := { r.state with offset := stop } }
  | sent (hrun : r.result = none) (h : r.state.offset < io.fileData.length) (hflight : r.state.inFlight < maxInFlight)
    (hskip : loop.skips r.state.offset (chunkStop io.fileData r.state.offset - r.state.offset) = false)
    (header : FrameHeader)
    (hheader : header = { kind := .chunk
                          flags := UInt16.ofNat
                            (if chunkStop io.fileData r.state.offset = io.fileData.length then 1 else 0)
                          sessionId := io.sessionId, streamId := io.streamId, messageId := r.conn.nextMessageId
                          payloadLen := UInt32.ofNat (chunkPayload x r.state.offset
                            (slice io.fileData r.state.offset (chunkStop io.fileData r.state.offset))).length })
    (conn : NxfrConnection)
    (hconn : conn.framed = r.conn.framed ++ [(header, chunkPayload x r.state.offset
      (slice io.fileData r.state.offset (chunkStop io.fileData r.state.offset)))])
    (stop : Nat) (hstop : stop = chunkStop io.fileData r.state.offset) :
    Steps x loop io r .go
      { r with state := { r.state with offset := stop, inFlight := r.state.inFlight + 1 }, conn }
  | acked (f : Frame) (h : r.result = none) (hmove : r.move x loop io = .wait)
    (hwait : r.state.offset < io.fileData.length → maxInFlight ≤ r.state.inFlight)
    (hflight : 0 < r.state.inFlight) (hack : loop.isAck f = true) (length : Nat)
    (hlength : ∃ stream message offset, f.control = .ok (.chunkAck stream message offset length)) :
    Steps x loop io r (.frame f) { r with state := r.state.acked length, acks := r.acks + 1 }
  | passed (f : Frame) (h : r.result = none) (hmove : r.move x loop io = .wait)
    (hwait : r.state.offset < io.fileData.length → maxInFlight ≤ r.state.inFlight)
    (hflight : 0 < r.state.inFlight) (hack : loop.isAck f = false) : Steps x loop io r (.frame f) r
  | failed (e : SendInput) (conn : NxfrConnection) (hconn : conn.framed = r.conn.framed) (error : Fail) :
    Steps x loop io r e { r with conn, result := some (.error error) }
  | finished (h : r.result = none) (hend : io.fileData.length ≤ r.state.offset) (hflight : r.state.inFlight = 0) :
    Steps x loop io r .go { r with result := some (.ok ()) }

variable {x : Ext} {loop : ChunkLoop} {io : Stream}

theorem Frame.decodesAck_cases (f : Frame) :
    (f.decodesAck = true ∧ ∃ stream message offset length, f.control = .ok (.chunkAck stream message offset length)) ∨
      (f.decodesAck = false ∧ ∀ stream message offset length, f.control ≠ .ok (.chunkAck stream message offset length)) := by
  unfold Frame.decodesAck
  split
  · exact .inl ⟨rfl, _, _, _, _, ‹_›⟩
  · rename_i hno
    exact .inr ⟨rfl, hno⟩

theorem SendState.onFrame_cases (s : SendState) (f : Frame) :
    ((f.kind == .control && f.decodesAck) = true ∧
        ∃ stream message offset length, f.control = .ok (.chunkAck stream message offset length) ∧
          s.onFrame f = .ok (s.acked length)) ∨
      ((f.kind == .control && f.decodesAck) = false ∧ (s.onFrame f = .ok s ∨ ∃ e, s.onFrame f = .error e)) := by
  by_cases hkind : f.kind = .control
  · rcases f.decodesAck_cases with ⟨hack, stream, message, offset, length, hf⟩ | ⟨hack, hno⟩
    · exact .inl ⟨by simp [hkind, hack], stream, message, offset, length, hf, by simp [SendState.onFrame, hkind, hf]⟩
    · refine .inr ⟨by simp [hack], ?_⟩
      simp only [SendState.onFrame, hkind, if_true]
      split
      · exact .inr ⟨_, rfl⟩
      · rename_i hf
        exact absurd hf (hno _ _ _ _)
      · exact .inl rfl
  · exact .inr ⟨by simp [hkind], .inl (by simp [SendState.onFrame, hkind])⟩

theorem SendState.onAnyFrame_cases (s : SendState) (f : Frame) :
    (f.decodesAck = true ∧ ∃ stream message offset length, f.control = .ok (.chunkAck stream message offset length) ∧
        s.onAnyFrame f = s.acked length) ∨ (f.decodesAck = false ∧ s.onAnyFrame f = s) := by
  rcases f.decodesAck_cases with ⟨hack, stream, message, offset, length, hf⟩ | ⟨hack, hno⟩
  · exact .inl ⟨hack, stream, message, offset, length, hf, by simp [SendState.onAnyFrame, hf]⟩
  · refine .inr ⟨hack, ?_⟩
    unfold SendState.onAnyFrame
    split
    · rename_i hf
      exact absurd hf (hno _ _ _ _)
    · rfl

/-- A frame is a CHUNK_ACK to a wait and is counted, or it is passed over, or
it cannot be decoded. -/
theorem ChunkLoop.onFrame_cases (loop : ChunkLoop) (s : SendState) (f : Frame) :
    (loop.isAck f = true ∧ ∃ stream message offset length, f.control = .ok (.chunkAck stream message offset length) ∧
        loop.onFrame s f = .ok (s.acked length)) ∨
      (loop.isAck f = false ∧ (loop.onFrame s f = .ok s ∨ ∃ e, loop.onFrame s f = .error e)) := by
  cases loop with
  | sendFile => exact s.onFrame_cases f
  | sendFileResume skipRanges => exact s.onFrame_cases f
  | doSendFile cumulativeSent =>
    rcases s.onAnyFrame_cases f with ⟨hack, stream, message, offset, length, hf, h⟩ | ⟨hack, h⟩
    · exact .inl ⟨hack, stream, message, offset, length, hf, congrArg Except.ok h⟩
    · exact .inr ⟨hack, .inl (congrArg Except.ok h)⟩

/-- A turn, with the end of the chunk under its name. -/
theorem sendMove_eq (skips : Nat → Nat → Bool) (data : Bytes) (s : SendState) : sendMove x skips data s =
    if s.offset < data.length then
      if skips s.offset (chunkStop data s.offset - s.offset) then .skip { s with offset := chunkStop data s.offset }
      else if s.inFlight ≥ maxInFlight then .wait
      else .send (if chunkStop data s.offset = data.length then 1 else 0)
        (chunkPayload x s.offset (slice data s.offset (chunkStop data s.offset)))
        { s with offset := chunkStop data s.offset, inFlight := s.inFlight + 1 }
    else if s.inFlight > 0 then .wait
    else .done := rfl

/-- A turn of a loop: at the chunk that starts at its offset, or past the last. -/
theorem sendMove_cases (skips : Nat → Nat → Bool) (data : Bytes) (s : SendState) :
    (s.offset < data.length ∧ skips s.offset (chunkStop data s.offset - s.offset) = true ∧
        sendMove x skips data s = .skip { s with offset := chunkStop data s.offset }) ∨
      (s.offset < data.length ∧ skips s.offset (chunkStop data s.offset - s.offset) = false ∧ s.inFlight < maxInFlight ∧
        sendMove x skips data s = .send (if chunkStop data s.offset = data.length then 1 else 0)
          (chunkPayload x s.offset (slice data s.offset (chunkStop data s.offset)))
          { s with offset := chunkStop data s.offset, inFlight := s.inFlight + 1 }) ∨
      ((s.offset < data.length → maxInFlight ≤ s.inFlight) ∧ 0 < s.inFlight ∧ sendMove x skips data s = .wait) ∨
      (data.length ≤ s.offset ∧ s.inFlight = 0 ∧ sendMove x skips data s = .done) := by
  rw [sendMove_eq]
  by_cases hlt : s.offset < data.length
  · rw [if_pos hlt]
    cases hskip : skips s.offset (chunkStop data s.offset - s.offset) with
    | true => exact .inl ⟨hlt, rfl, by rw [if_pos rfl]⟩
    | false =>
      rw [if_neg Bool.false_ne_true]
      by_cases hfull : maxInFlight ≤ s.inFlight
      · refine .inr (.inr (.inl ⟨fun _ => hfull, by simp only [maxInFlight] at hfull; omega, ?_⟩))
        rw [if_pos hfull]
      · refine .inr (.inl ⟨hlt, rfl, by omega, ?_⟩)
        rw [if_neg hfull]
  · rw [if_neg hlt]
    by_cases hzero : s.inFlight > 0
    · exact .inr (.inr (.inl ⟨fun h => absurd h hlt, hzero, if_pos hzero⟩))
    · exact .inr (.inr (.inr ⟨by omega, by omega, if_neg hzero⟩))

theorem NxfrConnection.sendChunk_cases (c : NxfrConnection) (sessionId streamId : UInt32) (flags : UInt16) (payload : Bytes) :
    (∃ id conn, c.sendChunk sessionId streamId flags payload = (.ok id, conn) ∧ conn.framed = c.framed ++
        [({ kind := .chunk, flags, sessionId, streamId, messageId := c.nextMessageId
            payloadLen := UInt32.ofNat payload.length }, payload)]) ∨
      ∃ e conn, c.sendChunk sessionId streamId flags payload = (.error e, conn) ∧ conn.framed = c.framed := by
  simp only [sendChunk, sendNumbered, framedSend]
  split
  · rename_i h
    split at h
    · cases h
      exact .inr ⟨_, _, rfl, rfl⟩
    · cases h
  · rename_i h
    split at h
    · cases h
    · cases h
      exact .inl ⟨_, _, rfl, rfl⟩

theorem SendRun.step_ended {r : SendRun} {result : Except Fail Unit} (h : r.result = some result) (e : SendInput) :
    r.step x loop io e = r := by
  simp only [SendRun.step, h]

theorem SendRun.step_spec (x : Ext) (loop : ChunkLoop) (io : Stream) (r : SendRun) (e : SendInput) : Steps x loop io r e (r.step x loop io e) := by
  obtain ⟨state, conn, acks, result⟩ := r
  cases result with
  | some result => exact .idle e
  | none =>
    rcases sendMove_cases (x := x) loop.skips io.fileData state with ⟨hlt, hskip, hmove⟩ | ⟨hlt, hskip, hflight, hmove⟩ |
      ⟨hwait, hflight, hmove⟩ | ⟨hend, hflight, hmove⟩
    · cases e <;> simp only [SendRun.step, SendRun.move, hmove]
      · exact .skipped hlt hskip _ rfl
      · exact .idle _
      · exact .idle _
    · cases e <;> simp only [SendRun.step, SendRun.move, hmove]
      · rcases NxfrConnection.sendChunk_cases conn io.sessionId io.streamId
          (UInt16.ofNat (if chunkStop io.fileData state.offset = io.fileData.length then 1 else 0))
          (chunkPayload x state.offset (slice io.fileData state.offset (chunkStop io.fileData state.offset))) with
          ⟨id, conn', hsend, hconn⟩ | ⟨error, conn', hsend, hconn⟩
        · rw [hsend]
          exact .sent rfl hlt hflight hskip _ rfl conn' hconn _ rfl
        · rw [hsend]
          exact .failed _ conn' hconn _
      · exact .idle _
      · exact .failed _ conn rfl _
    · cases e with
      | go =>
        simp only [SendRun.step, SendRun.move, hmove]
        exact .idle _
      | frame f =>
        have hwaits : SendRun.move x loop io ⟨state, conn, acks, none⟩ = .wait := hmove
        rcases loop.onFrame_cases state f with ⟨hack, stream, message, offset, length, hf, hon⟩ | ⟨hack, hon | ⟨error, hon⟩⟩
        · simp only [SendRun.step, SendRun.move, hmove, hon, hack]
          exact .acked f rfl hwaits hwait hflight hack length ⟨stream, message, offset, hf⟩
        · simp only [SendRun.step, SendRun.move, hmove, hon, hack]
          exact .passed f rfl hwaits hwait hflight hack
        · simp only [SendRun.step, SendRun.move, hmove, hon]
          exact .failed _ conn rfl _
      | lost =>
        simp only [SendRun.step, SendRun.move, hmove]
        exact .failed _ conn rfl _
    · cases e <;> simp only [SendRun.step, SendRun.move, hmove]
      · exact .finished rfl hend hflight
      · exact .idle _
      · exact .idle _

/-! ## The window -/

/-- The chunks sent less the CHUNK_ACKs read are those in flight, of which
there are at most eight; a run that has ended well has read them all. -/
structure SendRun.Windowed (r : SendRun) : Prop where
  counted : (r.chunks.length : Int) - r.acks = r.state.inFlight
  bounded : r.state.inFlight ≤ 8
  paid : r.result = some (.ok ()) → r.acks = r.chunks.length

theorem SendRun.Steps.windowed {r r' : SendRun} {e : SendInput} (h : Steps x loop io r e r') (hr : r.Windowed) :
    r'.Windowed := by
  have hcounted := hr.counted
  have hbounded := hr.bounded
  cases h with
  | idle => exact hr
  | skipped hlt hskip stop hstop => exact ⟨hcounted, hbounded, hr.paid⟩
  | sent hresult hlt hflight hskip header hheader conn hconn stop hstop =>
    have hlen : conn.framed.length = r.conn.framed.length + 1 := by rw [hconn, List.length_append, List.length_singleton]
    simp only [SendRun.chunks, maxInFlight] at hcounted hflight ⊢
    refine ⟨?_, ?_, ?_⟩
    · simp only [SendRun.chunks]
      omega
    · simp only
      omega
    · intro hok
      rw [hresult] at hok
      cases hok
  | acked f hresult hmove hwait hflight hack length hlength =>
    refine ⟨?_, ?_, ?_⟩
    · simp only [SendState.acked, SendRun.chunks] at hcounted ⊢
      omega
    · simp only [SendState.acked]
      omega
    · intro hok
      rw [hresult] at hok
      cases hok
  | passed => exact hr
  | failed e conn hconn error =>
    refine ⟨?_, hbounded, fun hok => by cases hok⟩
    simpa only [SendRun.chunks, hconn] using hcounted
  | finished hresult hend hflight =>
    refine ⟨hcounted, hbounded, fun _ => ?_⟩
    simp only [SendRun.chunks] at hcounted ⊢
    omega

theorem run_windowed (x : Ext) (loop : ChunkLoop) (io : Stream) (conn : NxfrConnection) (es : List SendInput) :
    (after (SendRun.step x loop io) (SendRun.start loop conn) es).Windowed := by
  induction es using List.reverseRecOn with
  | nil => cases loop <;> exact ⟨rfl, Nat.zero_le 8, fun h => by cases h⟩
  | append_singleton es e ih =>
    rw [after_snoc]
    exact (SendRun.step_spec x loop io _ e).windowed ih

/-- **The in-flight window.** At every step of every one of the three loops,
whatever frames come, the chunks sent less the CHUNK_ACKs read are those in
flight, between none and eight; a CHUNK_ACK is read only while one is in
flight; and the loop returns `Ok` only when it has read one for each chunk. -/
theorem window_kept (x : Ext) (loop : ChunkLoop) (io : Stream) (conn : NxfrConnection) (es : List SendInput) :
    (after (SendRun.step x loop io) (SendRun.start loop conn) es).Windowed ∧
      ∀ f, ((after (SendRun.step x loop io) (SendRun.start loop conn) es).step x loop io (.frame f)).acks ≠
        (after (SendRun.step x loop io) (SendRun.start loop conn) es).acks →
          0 < (after (SendRun.step x loop io) (SendRun.start loop conn) es).state.inFlight := by
  refine ⟨run_windowed x loop io conn es, ?_⟩
  intro f hne
  generalize after (SendRun.step x loop io) (SendRun.start loop conn) es = r at *
  have hstep := SendRun.step_spec x loop io r (.frame f)
  generalize r.step x loop io (.frame f) = r' at *
  cases hstep with
  | acked f hresult hmove hwait hflight hack length hlength => exact hflight
  | idle => exact absurd rfl hne
  | passed => exact absurd rfl hne
  | failed => exact absurd rfl hne

end Nxfr

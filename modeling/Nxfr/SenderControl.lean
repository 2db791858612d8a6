/-
What the chunk loops of the daemon (`send_file`, `send_file_resume`,
`nxfr-daemon/src/sender.rs`) make of TRANSFER_CANCEL, TRANSFER_PAUSE and
TRANSFER_RESUME.

A loop reads frames only in its waits, and passes over everything but a
CHUNK_ACK there. Beside a run stands what it has been told: whether its
transfer has been cancelled, and whether it is paused.
-/
import Nxfr.ChunkPartition

namespace Nxfr

open History

/-- What a sender has been told of its transfer. -/
structure Orders where
  cancelled : Bool := false
  paused : Bool := false

/-- It is to send no chunk. -/
def Orders.halted (o : Orders) : Bool := o.cancelled || o.paused

/-- A frame tells it something. -/
def Orders.read (transferId : TransferId) (o : Orders) (f : Frame) : Orders :=
  if f.kind == .control then
    match f.control with
    | .ok (.transferCancel id _) => if id = transferId then { o with cancelled := true } else o
    | .ok (.transferPause id) => if id = transferId then { o with paused := true } else o
    | .ok (.transferResume id) => if id = transferId then { o with paused := false } else o
    | _ => o
  else o

/-- A run of a loop and what it has been told so far. -/
structure WatchedRun where
  run : SendRun
  orders : Orders := {}

section

variable (x : Ext) (loop : ChunkLoop) (io : Stream)

/-- The frame that a step reads. -/
def SendRun.reads (r : SendRun) (e : SendInput) : Option Frame :=
  match r.result, r.move x loop io, e with
  | none, .wait, .frame f => some f
  | _, _, _ => none

def WatchedRun.step (transferId : TransferId) (w : WatchedRun) (e : SendInput) : WatchedRun :=
  ⟨w.run.step x loop io e, match w.run.reads x loop io e with
    | some f => w.orders.read transferId f
    | none => w.orders⟩

def WatchedRun.start (conn : NxfrConnection) : WatchedRun := { run := SendRun.start loop conn }

/-- A chunk is sent only by a sender that may. -/
def Obeys (transferId : TransferId) (w : WatchedRun) (e : SendInput) : Prop :=
  (w.step x loop io transferId e).run.chunks ≠ w.run.chunks → w.orders.halted = false

/-- No CHUNK_ACK ends the wait of a sender that is to send nothing and has
something left to send. -/
def WatchedRun.leftWaiting (w : WatchedRun) (e : SendInput) : Bool :=
  match w.run.reads x loop io e with
  | some f => !(loop.isAck f && w.orders.halted && decide (w.run.state.offset < io.fileData.length))
  | none => true

end

variable {x : Ext} {loop : ChunkLoop} {io : Stream} {transferId : TransferId}

/-! ## One step -/

theorem ChunkLoop.isAck_control {f : Frame} (h : loop.isAck f = true) :
    ∃ stream message offset length, f.control = .ok (.chunkAck stream message offset length) := by
  have hack : f.decodesAck = true := by
    cases loop with
    | sendFile | sendFileResume => exact (Bool.and_eq_true_iff.mp h).2
    | doSendFile => exact h
  rcases f.decodesAck_cases with ⟨_, hcontrol⟩ | ⟨hno, _⟩
  · exact hcontrol
  · exact absurd (hack.symm.trans hno) (by simp)

theorem Orders.read_ack {o : Orders} {f : Frame} (h : loop.isAck f = true) : o.read transferId f = o := by
  obtain ⟨_, _, _, _, hcontrol⟩ := ChunkLoop.isAck_control h
  rw [Orders.read, hcontrol]
  split <;> rfl

theorem SendRun.reads_some {r : SendRun} {e : SendInput} {f : Frame} (h : r.reads x loop io e = some f) :
    r.result = none ∧ r.move x loop io = .wait ∧ e = .frame f := by
  unfold SendRun.reads at h
  split at h
  · rename_i hresult hmove
    cases h
    exact ⟨hresult, hmove, rfl⟩
  · cases h

theorem SendRun.reads_frame {r : SendRun} {f : Frame} (hresult : r.result = none) (hmove : r.move x loop io = .wait) :
    r.reads x loop io (.frame f) = some f := by
  simp only [SendRun.reads, hresult, hmove]

theorem SendRun.reads_none {r : SendRun} {e : SendInput} (hmove : r.move x loop io ≠ .wait) :
    r.reads x loop io e = none := by
  cases h : r.reads x loop io e with
  | none => rfl
  | some f => exact absurd (SendRun.reads_some h).2.1 hmove

theorem SendRun.move_wait {r : SendRun} (h : r.move x loop io = .wait) (hlt : r.state.offset < io.fileData.length) :
    maxInFlight ≤ r.state.inFlight ∧
      loop.skips r.state.offset (chunkStop io.fileData r.state.offset - r.state.offset) = false := by
  simp only [SendRun.move] at h
  rcases sendMove_cases (x := x) loop.skips io.fileData r.state with ⟨_, _, hmove⟩ | ⟨_, _, _, hmove⟩ |
    ⟨hwait, _, _⟩ | ⟨_, _, hmove⟩
  · rw [hmove] at h
    cases h
  · rw [hmove] at h
    cases h
  · refine ⟨hwait hlt, ?_⟩
    cases hskip : loop.skips r.state.offset (chunkStop io.fileData r.state.offset - r.state.offset) with
    | false => rfl
    | true =>
      rw [sendMove_eq, if_pos hlt, if_pos hskip] at h
      cases h
  · rw [hmove] at h
    cases h

/-! ## A sender that is left waiting -/

/-- A sender that is to send nothing stands in a wait, or has sent all. -/
def WatchedRun.Standing (io : Stream) (w : WatchedRun) : Prop :=
  w.orders.halted = true → w.run.result = none → w.run.state.offset < io.fileData.length →
    maxInFlight ≤ w.run.state.inFlight

theorem WatchedRun.Standing.step {w : WatchedRun} (h : w.Standing io) {e : SendInput}
    (hleft : w.leftWaiting x loop io e = true) : (w.step x loop io transferId e).Standing io := by
  intro hhalted hresult hlt
  cases hreads : w.run.reads x loop io e with
  | some f =>
    obtain ⟨hrun, hmove, rfl⟩ := SendRun.reads_some hreads
    simp only [WatchedRun.step, hreads] at hhalted hresult hlt ⊢
    simp only [WatchedRun.leftWaiting, hreads] at hleft
    have hstep := SendRun.step_spec x loop io w.run (.frame f)
    generalize w.run.step x loop io (.frame f) = r' at *
    cases hstep with
    | idle => exact (SendRun.move_wait hmove hlt).1
    | passed => exact (SendRun.move_wait hmove hlt).1
    | failed => cases hresult
    | acked f _ _ _ _ hack length _ =>
      rw [Orders.read_ack hack] at hhalted
      simp only [SendState.acked] at hlt
      simp [hack, hhalted, hlt] at hleft
  | none =>
    simp only [WatchedRun.step, hreads] at hhalted hresult hlt ⊢
    have hstep := SendRun.step_spec x loop io w.run e
    generalize w.run.step x loop io e = r' at *
    cases hstep with
    | idle => exact h hhalted hresult hlt
    | passed => exact h hhalted hresult hlt
    | skipped hbefore hskip stop hstop => exact h hhalted hresult hbefore
    | sent hrun hbefore hflight hskip header hheader conn hconn stop hstop =>
      have hfull := h hhalted hrun hbefore
      omega
    | acked f hrun hmove _ _ _ _ _ =>
      rw [SendRun.reads_frame hrun hmove] at hreads
      cases hreads
    | failed => cases hresult
    | finished => cases hresult

theorem WatchedRun.Standing.obeys {w : WatchedRun} (h : w.Standing io) (e : SendInput) : Obeys x loop io transferId w e := by
  intro hchunks
  cases hhalted : w.orders.halted with
  | false => rfl
  | true =>
    simp only [WatchedRun.step] at hchunks
    have hstep := SendRun.step_spec x loop io w.run e
    generalize w.run.step x loop io e = r' at *
    cases hstep with
    | sent hrun hbefore hflight hskip header hheader conn hconn stop hstop =>
      have hfull := h hhalted hrun hbefore
      omega
    | failed e conn hconn error => exact absurd hconn hchunks
    | idle => exact absurd rfl hchunks
    | skipped => exact absurd rfl hchunks
    | acked => exact absurd rfl hchunks
    | passed => exact absurd rfl hchunks
    | finished => exact absurd rfl hchunks

/-! ## A sender that is not -/

/-- A sender that is to send nothing is about to send a chunk, or the stream has
taken no more. -/
def WatchedRun.Poised (loop : ChunkLoop) (io : Stream) (w : WatchedRun) : Prop :=
  (∃ error, w.run.result = some (.error error)) ∨
    w.orders.halted = true ∧ w.run.result = none ∧ w.run.state.offset < io.fileData.length ∧
      w.run.state.inFlight < maxInFlight ∧
      loop.skips w.run.state.offset (chunkStop io.fileData w.run.state.offset - w.run.state.offset) = false

theorem WatchedRun.Poised.step {w : WatchedRun} (h : w.Poised loop io) {e : SendInput}
    (hobeys : Obeys x loop io transferId w e) : (w.step x loop io transferId e).Poised loop io := by
  rcases h with ⟨error, herror⟩ | ⟨hhalted, hrun, hlt, hflight, hskip⟩
  · refine .inl ⟨error, ?_⟩
    simp only [WatchedRun.step, SendRun.step_ended herror]
    exact herror
  · have hmove : w.run.move x loop io ≠ .wait := by
      intro hwait
      have hfull := (SendRun.move_wait hwait hlt).1
      omega
    have horders : (w.step x loop io transferId e).orders = w.orders := by
      simp only [WatchedRun.step, SendRun.reads_none hmove]
    have hsame : (w.step x loop io transferId e).run = w.run → (w.step x loop io transferId e).Poised loop io := by
      intro heq
      refine .inr ⟨?_, ?_, ?_, ?_, ?_⟩
      · rw [horders]
        exact hhalted
      · rw [heq]
        exact hrun
      · rw [heq]
        exact hlt
      · rw [heq]
        exact hflight
      · rw [heq]
        exact hskip
    have hchunks : (w.step x loop io transferId e).run.chunks = w.run.chunks := by
      by_contra hne
      exact absurd (hhalted.symm.trans (hobeys hne)) (by simp)
    have hstep := SendRun.step_spec x loop io w.run e
    have hrun' : (w.step x loop io transferId e).run = w.run.step x loop io e := rfl
    rw [← hrun'] at hstep
    generalize w.step x loop io transferId e = w' at *
    obtain ⟨run', orders'⟩ := w'
    cases hstep with
    | idle => exact hsame rfl
    | passed => exact hsame rfl
    | failed e conn hconn error => exact .inl ⟨error, rfl⟩
    | skipped _ hskipped stop hstop => exact absurd (hskip.symm.trans hskipped) (by simp)
    | acked f _ hwait _ _ _ _ _ => exact absurd hwait hmove
    | finished _ hend _ => omega
    | sent _ _ _ _ header hheader conn hconn stop hstop =>
      have hlen := congrArg List.length hchunks
      simp only [SendRun.chunks, hconn, List.length_append, List.length_singleton] at hlen
      omega

/-- A CHUNK_ACK that ends the wait of a sender that is to send nothing. -/
theorem WatchedRun.poised_of_ack {w : WatchedRun} (hr : w.run.Windowed) {e : SendInput}
    (h : w.leftWaiting x loop io e = false) : (w.step x loop io transferId e).Poised loop io := by
  unfold WatchedRun.leftWaiting at h
  cases hreads : w.run.reads x loop io e with
  | none =>
    rw [hreads] at h
    cases h
  | some f =>
    obtain ⟨hrun, hmove, rfl⟩ := SendRun.reads_some hreads
    simp only [hreads, Bool.not_eq_false', Bool.and_eq_true, decide_eq_true_eq] at h
    obtain ⟨⟨hack, hhalted⟩, hlt⟩ := h
    obtain ⟨hfull, hskip⟩ := SendRun.move_wait hmove hlt
    have hbounded := hr.bounded
    obtain ⟨_, _, _, length, _, hon⟩ : ∃ stream message offset length,
        f.control = .ok (.chunkAck stream message offset length) ∧
          loop.onFrame w.run.state f = .ok (w.run.state.acked length) := by
      rcases loop.onFrame_cases w.run.state f with ⟨_, hcases⟩ | ⟨hno, _⟩
      · exact hcases
      · exact absurd (hack.symm.trans hno) (by simp)
    have hstate : (w.step x loop io transferId (.frame f)).run =
        { w.run with state := w.run.state.acked length, acks := w.run.acks + (loop.isAck f).toNat } := by
      simp only [WatchedRun.step, SendRun.step, hrun, hmove, hon]
    have horders : (w.step x loop io transferId (.frame f)).orders = w.orders := by
      simp only [WatchedRun.step, hreads, Orders.read_ack hack]
    refine .inr ⟨?_, ?_, ?_, ?_, ?_⟩
    · rw [horders]
      exact hhalted
    · rw [hstate]
      exact hrun
    · rw [hstate]
      exact hlt
    · rw [hstate]
      simp only [SendState.acked, maxInFlight] at hfull ⊢
      omega
    · rw [hstate]
      exact hskip

/-! ## Runs -/

theorem watched_run (conn : NxfrConnection) (es : List SendInput) :
    (after (WatchedRun.step x loop io transferId) (WatchedRun.start loop conn) es).run =
      after (SendRun.step x loop io) (SendRun.start loop conn) es := by
  induction es using List.reverseRecOn with
  | nil => rfl
  | append_singleton es e ih =>
    rw [after_snoc, after_snoc, ← ih]
    rfl

/-- **A sender and what it is told.** In every run of a loop, whatever frames
come, no chunk is sent once TRANSFER_CANCEL has been read, nor between
TRANSFER_PAUSE and TRANSFER_RESUME, when no CHUNK_ACK is read meanwhile in a wait
that has chunks behind it; and a run that returned `Ok` has sent one, when one
was. -/
theorem orders_obeyed (x : Ext) (loop : ChunkLoop) (io : Stream) (transferId : TransferId) (conn : NxfrConnection)
    (es : List SendInput) :
    (Always (WatchedRun.step x loop io transferId) (WatchedRun.start loop conn)
        (fun w e => w.leftWaiting x loop io e = true) es →
      Always (WatchedRun.step x loop io transferId) (WatchedRun.start loop conn) (Obeys x loop io transferId) es) ∧
    ((after (WatchedRun.step x loop io transferId) (WatchedRun.start loop conn) es).run.result = some (.ok ()) →
      Always (WatchedRun.step x loop io transferId) (WatchedRun.start loop conn) (Obeys x loop io transferId) es →
      Always (WatchedRun.step x loop io transferId) (WatchedRun.start loop conn)
        (fun w e => w.leftWaiting x loop io e = true) es) := by
  refine ⟨?_, ?_⟩
  · intro hleft es₁ e es₂ hes
    subst hes
    have hstanding : (after (WatchedRun.step x loop io transferId) (WatchedRun.start loop conn) es₁).Standing io :=
      Always.keeps (fun hhalted => by cases hhalted) (fun w e hleft h => h.step hleft) hleft.of_append
    exact hstanding.obeys e
  · intro hok hobeys es₁ e es₂ hes
    subst hes
    by_contra hleft
    rw [Bool.not_eq_true] at hleft
    have hpoised : WatchedRun.Poised loop io
        (after (WatchedRun.step x loop io transferId) (WatchedRun.start loop conn) (es₁ ++ [e])) := by
      rw [after_snoc]
      refine WatchedRun.poised_of_ack ?_ hleft
      rw [watched_run]
      exact run_windowed x loop io conn es₁
    have hrest : Always (WatchedRun.step x loop io transferId) (WatchedRun.start loop conn) (Obeys x loop io transferId)
        ((es₁ ++ [e]) ++ es₂) := by rwa [List.append_assoc, List.singleton_append]
    have hend := hrest.rest.keeps hpoised (fun w e h hw => hw.step h)
    rw [← after_append, List.append_assoc, List.singleton_append] at hend
    rcases hend with ⟨error, herror⟩ | ⟨_, hnone, _⟩
    · exact absurd (hok.symm.trans herror) (by simp)
    · exact absurd (hok.symm.trans hnone) (by simp)

/-- A file of one byte is sent; TRANSFER_CANCEL comes in the last wait. -/
theorem orders_obeyed_byte :
    Always (WatchedRun.step sampleExt .sendFile ⟨1, 1, [0x61]⟩ sampleId) (WatchedRun.start .sendFile (.new none))
      (Obeys sampleExt .sendFile ⟨1, 1, [0x61]⟩ sampleId)
      [.go, .frame (controlFrame 2 (.transferCancel sampleId none)), .frame (controlFrame 3 (.chunkAck 1 1 0 1)), .go] :=
  (orders_obeyed sampleExt .sendFile ⟨1, 1, [0x61]⟩ sampleId (.new none) _).1
    (Always.of_holds (fun _ _ h => h) (by decide +kernel))

/-! ## A chunk after a cancel -/

/-- A run with room for a chunk sends it, the stream taking every frame. -/
theorem SendRun.step_sends (loop : ChunkLoop) {r : SendRun} (hrun : r.result = none) (hconn : r.conn.writesLeft = none)
    (hlt : r.state.offset < io.fileData.length) (hflight : r.state.inFlight < maxInFlight)
    (hskip : loop.skips r.state.offset (chunkStop io.fileData r.state.offset - r.state.offset) = false) :
    (r.step x loop io .go).result = none ∧ (r.step x loop io .go).conn.writesLeft = none ∧
      (r.step x loop io .go).state =
        { r.state with offset := chunkStop io.fileData r.state.offset, inFlight := r.state.inFlight + 1 } ∧
      (r.step x loop io .go).chunks.length = r.chunks.length + 1 := by
  have hmove : r.move x loop io = .send (if chunkStop io.fileData r.state.offset = io.fileData.length then 1 else 0)
      (chunkPayload x r.state.offset (slice io.fileData r.state.offset (chunkStop io.fileData r.state.offset)))
      { r.state with offset := chunkStop io.fileData r.state.offset, inFlight := r.state.inFlight + 1 } := by
    rw [SendRun.move, sendMove_eq, if_pos hlt, hskip, if_neg Bool.false_ne_true, if_neg (by omega)]
  have hsends : ∀ flags payload, r.conn.sendChunk io.sessionId io.streamId flags payload =
      (.ok r.conn.nextMessageId,
        { r.conn with
          framed := r.conn.framed ++
            [({ kind := .chunk, flags, sessionId := io.sessionId, streamId := io.streamId
                messageId := r.conn.nextMessageId, payloadLen := UInt32.ofNat payload.length }, payload)]
          nextMessageId := r.conn.nextMessageId + 1 }) := by
    intro flags payload
    simp only [NxfrConnection.sendChunk, NxfrConnection.sendNumbered, NxfrConnection.framedSend, NxfrConnection.lost,
      hconn]
    rfl
  generalize hto : chunkStop io.fileData r.state.offset = stop at *
  simp only [SendRun.step, hrun, hmove, hsends]
  refine ⟨trivial, hconn, trivial, ?_⟩
  simp only [SendRun.chunks, List.length_append, List.length_singleton]

/-- The first chunks go out without a wait. -/
theorem run_sends (hlen : 8 * chunkDataSize < io.fileData.length) {n : Nat} (hn : n ≤ 8) :
    ∃ r, after (SendRun.step x .sendFile io) (SendRun.start .sendFile (.new none)) (List.replicate n .go) = r ∧
      r.result = none ∧ r.conn.writesLeft = none ∧ r.state = ⟨n * chunkDataSize, n, 0⟩ := by
  induction n with
  | zero => exact ⟨_, rfl, rfl, rfl, rfl⟩
  | succ n ih =>
    obtain ⟨r, hafter, hrun, hconn, hstate⟩ := ih (by omega)
    have hoffset : r.state.offset = n * chunkDataSize := by rw [hstate]
    have hnext : (n + 1) * chunkDataSize = n * chunkDataSize + chunkDataSize := Nat.succ_mul n chunkDataSize
    have hle : (n + 1) * chunkDataSize ≤ 8 * chunkDataSize := Nat.mul_le_mul_right chunkDataSize hn
    have hlt : r.state.offset < io.fileData.length := by omega
    obtain ⟨hrun', hconn', hstate', _⟩ := SendRun.step_sends (x := x) .sendFile hrun hconn hlt
      (by rw [hstate]; exact hn) rfl
    refine ⟨r.step x .sendFile io .go, ?_, hrun', hconn', ?_⟩
    · rw [List.replicate_succ', after_snoc, hafter]
    · have hstop : chunkStop io.fileData r.state.offset = (n + 1) * chunkDataSize := by
        rw [chunkStop, hoffset]
        omega
      rw [hstate', hstop, hstate]

theorem WatchedRun.step_reads (transferId : TransferId) {w : WatchedRun} {f : Frame} {s : SendState} (hrun : w.run.result = none)
    (hmove : w.run.move x loop io = .wait) (hon : loop.onFrame w.run.state f = .ok s) :
    (w.step x loop io transferId (.frame f)).run.result = none ∧
      (w.step x loop io transferId (.frame f)).run.conn = w.run.conn ∧
      (w.step x loop io transferId (.frame f)).run.state = s ∧
      (w.step x loop io transferId (.frame f)).orders = w.orders.read transferId f := by
  simp only [WatchedRun.step, SendRun.reads_frame hrun hmove, SendRun.step, hrun, hmove, hon]
  exact ⟨trivial, trivial, trivial, trivial⟩

theorem SendRun.reads_go (r : SendRun) : r.reads x loop io .go = none := by
  cases h : r.reads x loop io .go with
  | none => rfl
  | some f => cases (SendRun.reads_some h).2.2

/-- After eight chunks the loop waits, and has been told nothing. -/
theorem watched_sends (x : Ext) (transferId : TransferId) (hlen : 8 * chunkDataSize < io.fileData.length) :
    ∃ r, after (WatchedRun.step x .sendFile io transferId) (WatchedRun.start .sendFile (.new none))
        (List.replicate 8 .go) = ⟨r, {}⟩ ∧
      r.result = none ∧ r.conn.writesLeft = none ∧ r.state = ⟨8 * chunkDataSize, 8, 0⟩ := by
  obtain ⟨r, hafter, hrest⟩ := run_sends (x := x) hlen (Nat.le_refl 8)
  have horders : ∀ n, (after (WatchedRun.step x .sendFile io transferId) (WatchedRun.start .sendFile (.new none))
      (List.replicate n .go)).orders = {} := by
    intro n
    induction n with
    | zero => rfl
    | succ n ih =>
      rw [List.replicate_succ', after_snoc, WatchedRun.step]
      simp only [SendRun.reads_go, ih]
  refine ⟨r, ?_, hrest⟩
  rw [← hafter, ← watched_run, ← horders 8]

/-- A control message that is read in the first wait, and then a CHUNK_ACK: a
chunk follows. -/
theorem sent_after_order (hlen : 8 * chunkDataSize < io.fileData.length) {m : ControlMessage}
    (hon : ∀ s : SendState, s.onFrame (controlFrame 2 m) = .ok s)
    (hhalted : (Orders.read transferId {} (controlFrame 2 m)).halted = true) :
    ¬ Always (WatchedRun.step x .sendFile io transferId) (WatchedRun.start .sendFile (.new none))
      (Obeys x .sendFile io transferId)
      (List.replicate 8 .go ++ [.frame (controlFrame 2 m), .frame (controlFrame 3 (.chunkAck 1 1 0 1048576)), .go]) := by
  intro hobeys
  obtain ⟨r, hafter, hrun, hconn, hstate⟩ := watched_sends x transferId hlen
  have hmove : ∀ r : SendRun, r.state = ⟨8 * chunkDataSize, 8, 0⟩ → r.move x .sendFile io = .wait := by
    intro r hstate
    rw [SendRun.move, sendMove_eq, hstate, if_pos hlen, if_neg (by simp [ChunkLoop.skips]), if_pos (by decide)]
  have hread : ∀ o : Orders, o.read transferId (controlFrame 3 (.chunkAck 1 1 0 1048576)) = o := fun o => rfl
  have hack : ∀ s : SendState, ChunkLoop.sendFile.onFrame s (controlFrame 3 (.chunkAck 1 1 0 1048576)) =
    .ok (s.acked 1048576) := fun s => rfl
  generalize controlFrame 3 (.chunkAck 1 1 0 1048576) = ack at *
  have hthree := hobeys.rest
  rw [hafter] at hthree
  have htwo := hthree.tail
  have hone := htwo.tail
  -- the message is read, and changes what the run has been told
  obtain ⟨hrun₁, hconn₁, hstate₁, horders₁⟩ := WatchedRun.step_reads transferId (w := ⟨r, {}⟩) hrun (hmove r hstate)
    (hon r.state)
  generalize WatchedRun.step x .sendFile io transferId ⟨r, {}⟩ (.frame (controlFrame 2 m)) = w₁ at *
  -- the CHUNK_ACK is read, and makes room
  obtain ⟨hrun₂, hconn₂, hstate₂, horders₂⟩ := WatchedRun.step_reads transferId hrun₁
    (hmove _ (hstate₁.trans hstate)) (hack w₁.run.state)
  generalize w₁.step x .sendFile io transferId (.frame ack) = w₂ at *
  have hstate₂ : w₂.run.state = ⟨8 * chunkDataSize, 7, 1048576⟩ := by
    rw [hstate₂, hstate₁, hstate]
    simp only [SendState.acked]
  obtain ⟨_, _, _, hsent⟩ := SendRun.step_sends (x := x) .sendFile hrun₂ (by rw [hconn₂, hconn₁, hconn])
    (by rw [hstate₂]; exact hlen) (by rw [hstate₂]; decide) rfl
  have hclear := hone.head (fun heq => by
    have hsame := congrArg List.length heq
    simp only [WatchedRun.step] at hsame
    omega)
  rw [horders₂, hread, horders₁] at hclear
  exact absurd (hhalted.symm.trans hclear) (by simp)

/-- A byte more than eight chunks hold. -/
def nineChunks : Stream := ⟨1, 1, List.replicate (8 * chunkDataSize + 1) 0x61⟩

theorem nineChunks_length : 8 * chunkDataSize < nineChunks.fileData.length := by
  rw [nineChunks, List.length_replicate]
  omega

/-- A file of nine chunks: TRANSFER_CANCEL, or TRANSFER_PAUSE, is read after the
eighth chunk, a CHUNK_ACK after it, and the ninth chunk is sent. -/
theorem orders_ignored :
    ¬ Always (WatchedRun.step sampleExt .sendFile nineChunks sampleId) (WatchedRun.start .sendFile (.new none))
        (Obeys sampleExt .sendFile nineChunks sampleId)
        (List.replicate 8 .go ++ [.frame (controlFrame 2 (.transferCancel sampleId (some "user_cancelled"))),
          .frame (controlFrame 3 (.chunkAck 1 1 0 1048576)), .go]) ∧
      ¬ Always (WatchedRun.step sampleExt .sendFile nineChunks sampleId) (WatchedRun.start .sendFile (.new none))
        (Obeys sampleExt .sendFile nineChunks sampleId)
        (List.replicate 8 .go ++ [.frame (controlFrame 2 (.transferPause sampleId)),
          .frame (controlFrame 3 (.chunkAck 1 1 0 1048576)), .go]) :=
  ⟨sent_after_order nineChunks_length (fun _ => rfl) (by decide),
    sent_after_order nineChunks_length (fun _ => rfl) (by decide)⟩

end Nxfr

/-
The daemon's receiving side as the peer sees it, where the connection holds:
what it answers to each message of a transfer, and that inside `receive_file`
it is a `ChunkReceiver`.
-/
import Nxfr.ChunkExchange
import Nxfr.ReceiverFacts

namespace Nxfr

open Network

/-- A connection that holds, with nothing left to write. -/
def quiet (id : Nat) : Conn := { nextMessageId := id }

/-- The same after one message. -/
def wrote (id : Nat) (m : ControlMessage) : Conn := { nextMessageId := id + 1, outbox := [controlFrame id m] }

theorem quiet_sendControl {x : Ext} {id : Nat} {m : ControlMessage} (he : encodeControl x m = .ok ()) :
    (quiet id).sendControl x m = some (wrote id m) :=
  Conn.sendControl_ok he rfl

/-- What is written goes out. -/
theorem responder_wrote {x : Ext} {cfg : SessionConfig} {s : Session} {id : Nat} {m : ControlMessage}
    (h : s.conn = wrote id m) :
    responder x cfg s = .send (controlFrame id m) (s.withConn (quiet (id + 1))) := by
  simp [responder, h, wrote, quiet]

/-- The responder is asked and answers. -/
theorem responder_call {x : Ext} (cfg : SessionConfig) {σ : Type} {p : σ → Act Frame σ} {n : Net Frame σ Session}
    {f : Frame} {l : σ} {s s' : Session} {id : Nat} {m : ControlMessage} {k : Frame → σ} {lost : σ}
    (hp : p n.left = .send f l) (hr : n.right = s) (hs : responder x cfg s = .recv (sessionStep x cfg s) (sessionLost s))
    (hstep : sessionStep x cfg s f = s') (hm : s'.conn = wrote id m) (hwait : p l = .recv k lost)
    (hR : n.toRight = []) (hL : n.toLeft = []) :
    Reaches p (responder x cfg) n
      { left := k (controlFrame id m), right := s'.withConn (quiet (id + 1)), gotRight := n.gotRight ++ [f]
        gotLeft := n.gotLeft ++ [controlFrame id m] } := by
  subst hr
  exact Reaches.call hp hs (by rw [hstep, responder_wrote hm]) hwait hR hL

/-! ## Chunks -/

section

variable {x : Ext} {a : RecvArgs} {data : Bytes}

/-- The file `receive_file` is asked for. -/
structure Expects (x : Ext) (a : RecvArgs) (data : Bytes) : Prop where
  size : a.expectedSize = data.length
  hash : a.expectedHash = x.sha256 data

/-- After the chunk at `m`: `.part`, journal and answer. -/
def afterChunk (a : RecvArgs) (data : Bytes) (m c id : Nat) (s : RecvState) : RecvState :=
  let stop := chunkStop data m
  let resume := s.resume.record a.fileId stop
  { fs := s.fs.set a.partPath (some (.file (data.take stop)))
    resume
    journal := s.journal.save resume
    conn := wrote id (.chunkAck a.streamId c m (stop - m)) }

theorem encode_chunkAck (hx : x.Compact) {stream message offset length : Nat} :
    encodeControl x (.chunkAck stream message offset length) = .ok () :=
  encodeControl_ok hx (by simp [ControlMessage.volume]) (by simp)

/-- A chunk of the file at the position the loop is at. -/
theorem receiveStep_fileChunk (now : Nat) (hx : x.Compact) (hlen : data.length < 2 ^ 64) (ha : Expects x a data) {m : Nat}
    (hm : m < data.length) {s : RecvState} (hpart : s.fs a.partPath = some (.file (data.take m))) {id : Nat}
    (hc : s.conn = quiet id) (c : Nat) :
    receiveStep x now a ⟨m, data.take m⟩ (fileChunk x data a.streamId m c) s =
      if chunkStop data m = data.length then renameFinal now a (afterChunk a data m c id s)
      else (.next ⟨chunkStop data m, data.take (chunkStop data m)⟩, afterChunk a data m c id s) := by
  obtain ⟨hlo, hhi⟩ := chunkStop_bounds hm
  have hsl := slice_length (Nat.le_of_lt hlo) hhi
  have hsum : m + (chunkStop data m - m) = chunkStop data m := by omega
  have hoff : fromBeBytes (toBeBytes m) = m := fromBeBytes_toBeBytes (by omega)
  have hstore : storeChunk a (chunkStop data m) (slice data m (chunkStop data m)) s =
      some { afterChunk a data m c id s with conn := quiet id } := by
    simp [storeChunk, Disk.Fs.append, hpart, afterChunk, take_append_slice (Nat.le_of_lt hlo), ← hc]
  have hlast : (fileChunk x data a.streamId m c).isLastChunk = decide (chunkStop data m = data.length) :=
    fileChunk_isLastChunk
  have hchunk : receiveChunk x now a ⟨m, data.take m⟩ (fileChunk x data a.streamId m c) s =
      ackChunk x now a ⟨chunkStop data m, data.take (chunkStop data m)⟩ (fileChunk x data a.streamId m c) m
        (chunkStop data m - m) { afterChunk a data m c id s with conn := quiet id } := by
    unfold receiveChunk
    rw [if_neg (by simp [fileChunk, chunkFrame]),
      if_neg (by simp only [fileChunk, chunkFrame, chunkPayload_length, hsl]; omega)]
    simp only [fileChunk, chunkFrame, chunkPayload_offset, chunkPayload_hash, chunkPayload_data, hoff, hsl, hsum,
      ne_eq, not_true_eq_false, if_false, if_true, take_append_slice (Nat.le_of_lt hlo)]
    rw [if_neg (by rw [ha.size]; omega), hstore]
  change receiveChunk x now a ⟨m, data.take m⟩ (fileChunk x data a.streamId m c) s = _
  rw [hchunk]
  unfold ackChunk RecvState.send
  rw [show ({ afterChunk a data m c id s with conn := quiet id } : RecvState).conn = quiet id from rfl,
    quiet_sendControl (encode_chunkAck hx)]
  simp only [hlast]
  by_cases hstop : chunkStop data m = data.length
  · simp only [hstop, decide_true, Bool.true_or, if_true]
    unfold finishFile
    rw [if_neg (by simp [ha.hash]), if_neg (by simp [ha.size])]
    simp [afterChunk, hstop, fileChunk, chunkFrame]
  · simp only [hstop, decide_false, Bool.false_or, ha.size, beq_iff_eq, if_false]
    simp [afterChunk, fileChunk, chunkFrame]

/-- A chunk of the file that starts before the position the loop is at. -/
theorem receiveStep_behind (now : Nat) (hx : x.Compact) (hlen : data.length < 2 ^ 64) (ha : Expects x a data) {m m' : Nat}
    (hm : m < m') (hm' : m' < data.length) {s : RecvState} {id : Nat} (hc : s.conn = quiet id) (c : Nat) :
    receiveStep x now a ⟨m', data.take m'⟩ (fileChunk x data a.streamId m c) s =
      if chunkStop data m ≤ m' then
        (.next ⟨m', data.take m'⟩, { s with conn := wrote id (.chunkAck a.streamId c m (chunkStop data m - m)) })
      else
        (.ret (.error (.text "overlapping chunk offset")),
          { s with conn := wrote id (.error .invalidFrame (some "overlapping chunk offset") true none) }) := by
  obtain ⟨hlo, hhi⟩ := chunkStop_bounds (show m < data.length by omega)
  have hsl := slice_length (Nat.le_of_lt hlo) hhi
  have hsum : m + (chunkStop data m - m) = chunkStop data m := by omega
  have hoff : fromBeBytes (toBeBytes m) = m := fromBeBytes_toBeBytes (by omega)
  have hlast : (fileChunk x data a.streamId m c).isLastChunk = decide (chunkStop data m = data.length) :=
    fileChunk_isLastChunk
  have hchunk : receiveChunk x now a ⟨m', data.take m'⟩ (fileChunk x data a.streamId m c) s =
      if chunkStop data m ≤ m' then
        ackChunk x now a ⟨m', data.take m'⟩ (fileChunk x data a.streamId m c) m (chunkStop data m - m) s
      else refuse x .invalidFrame "overlapping chunk offset" "overlapping chunk offset" (fun s => s) s := by
    unfold receiveChunk
    rw [if_neg (by simp [fileChunk, chunkFrame]),
      if_neg (by simp only [fileChunk, chunkFrame, chunkPayload_length, hsl]; omega)]
    simp only [fileChunk, chunkFrame, chunkPayload_offset, chunkPayload_hash, chunkPayload_data, hoff, hsl, hsum,
      ne_eq, not_true_eq_false, if_false]
    rw [if_neg (by omega), if_pos hm]
    rfl
  change receiveChunk x now a ⟨m', data.take m'⟩ (fileChunk x data a.streamId m c) s = _
  rw [hchunk]
  split
  · unfold ackChunk RecvState.send
    rw [hc, quiet_sendControl (encode_chunkAck hx)]
    simp only [hlast]
    rw [if_neg (by rw [ha.size]; simp; omega)]
    simp [fileChunk, chunkFrame]
  · unfold refuse RecvState.send
    rw [hc, quiet_sendControl (encodeControl_ok hx (by
      simp only [ControlMessage.volume, Option.map_some, Option.getD_some]
      decide) (by simp))]

end

/-! ## A file on its way in -/

/-- The arguments `receive_file` gets for a file. -/
def recvArgs (root : Path) (fileId streamId : Nat) (relativePath : String) (size : Nat) (sha256 : Digest) : RecvArgs :=
  { fileId, streamId, expectedSize := size, expectedHash := sha256
    partPath := partPath (joinPath root relativePath), finalPath := joinPath root relativePath }

/-- A file `handle_incoming_transfer` is receiving: what its metadata said,
the bytes it is to have, and what the transfer had before it. Its path is as
the sanitiser would have it, in directories that are there. -/
structure Incoming where
  t : Transfer
  fileId : Nat
  streamId : Nat
  relativePath : String
  data : Bytes
  fs : Fs
  receivedFiles : Nat
  stored : List StoredFile
  short : data.length < 2 ^ 64
  sane : sanitizePath relativePath = .ok relativePath
  root : fs t.receiveDir = some .dir
  home : fs.Grounded (joinPath t.receiveDir relativePath).dropLast

namespace Incoming

variable (x : Ext) (i : Incoming)

def a : RecvArgs :=
  recvArgs i.t.receiveDir i.fileId i.streamId i.relativePath i.data.length (x.sha256 i.data)

/-- The metadata of the file. -/
def metadata (transferId : TransferId) : ControlMessage :=
  .fileMetadata transferId i.fileId i.streamId i.relativePath i.data.length (x.sha256 i.data) none none

def finalPath : Path := joinPath i.t.receiveDir i.relativePath

def partPath : Path := Nxfr.partPath i.finalPath

/-- The disk with the first `m` bytes in the `.part` file. -/
def disk (m : Nat) : Fs := i.fs.set i.partPath (some (.file (i.data.take m)))

/-- Where the file goes. -/
def dest : Path := resolveCollision i.t.now (i.disk i.data.length) i.finalPath

/-- The file can be put in its place. -/
def Placed : Prop := (i.disk i.data.length).Takes i.dest

instance : Decidable i.Placed := inferInstanceAs (Decidable ((i.disk i.data.length).Takes i.dest))

/-- The file as stored. -/
def file : StoredFile :=
  { fileId := i.fileId, relativePath := i.relativePath, size := i.data.length, sha256 := x.sha256 i.data
    dest := i.dest, content := i.data }

/-- The disk with the file in its place. -/
def placed : Fs := (i.fs.set i.partPath none).set i.dest (some (.file i.data))

/-- What the journal holds when `m` bytes are here; recording more keeps it
so. -/
structure Records (Keeps : Nat → ResumeState → Journal → Prop) : Prop where
  record : ∀ {m resume journal}, Keeps m resume journal → m < i.data.length →
    let resume' := resume.record i.fileId (chunkStop i.data m)
    Keeps (chunkStop i.data m) resume' (journal.save resume')

variable (Keeps : Nat → ResumeState → Journal → Prop)

/-- `receive_file` with the first `m` bytes, waiting for more. -/
def waiting (m : Nat) (resume : ResumeState) (journal : Journal) (conn : Conn) : Session :=
  .transfer i.t
    { recv := { fs := i.disk m, journal, resume, conn }
      receivedFiles := i.receivedFiles
      phase := .receiving (i.a x) i.relativePath ⟨m, i.data.take m⟩
      stored := i.stored }

def Waits (m : Nat) (s : Session) : Prop :=
  ∃ resume journal id, Keeps m resume journal ∧ s = i.waiting x m resume journal (quiet id)

/-- The transfer after the file. -/
def after (resume : ResumeState) (journal : Journal) (conn : Conn) : Session :=
  .transfer i.t
    { recv := { fs := i.placed, journal, resume, conn }
      receivedFiles := i.receivedFiles + 1
      phase := .negotiate
      stored := i.stored ++ [i.file x] }

def Stored (s : Session) : Prop :=
  ∃ resume journal id, Keeps i.data.length resume journal ∧ s = i.after x resume journal (quiet id)

/-- The connection after a rename that failed. -/
def Failed (s : Session) : Prop := ∃ fs journal id, s = .closed fs journal (quiet id) (.error .io)

/-- What answering the last chunk leads to. -/
def Done (s : Session) : Prop := if i.Placed then i.Stored x Keeps s else Failed s

variable {x i Keeps}

@[simp] theorem a_fileId : (i.a x).fileId = i.fileId := rfl

@[simp] theorem a_streamId : (i.a x).streamId = i.streamId := rfl

@[simp] theorem a_partPath : (i.a x).partPath = i.partPath := rfl

@[simp] theorem a_expectedSize : (i.a x).expectedSize = i.data.length := rfl

@[simp] theorem a_expectedHash : (i.a x).expectedHash = x.sha256 i.data := rfl

theorem expects : Expects x (i.a x) i.data := ⟨rfl, rfl⟩

theorem finalPath_ne_nil : i.finalPath ≠ [] := by simp [finalPath, joinPath, splitSlash_ne_nil]

theorem dest_dropLast : i.dest.dropLast = i.finalPath.dropLast := by
  rw [dest, resolveCollision_dropLast]

theorem disk_part {m : Nat} : i.disk m i.partPath = some (.file (i.data.take m)) := set_self

/-- The `.part` file is not where a directory of the path is. -/
theorem partPath_ne {p : Path} (hp : p <+: i.finalPath.dropLast) : p ≠ i.partPath := by
  rintro rfl
  have hlen := hp.length_le
  have hpos := List.length_pos_iff.mpr i.finalPath_ne_nil
  rw [partPath, Nxfr.partPath, renameLast_length, List.length_dropLast] at hlen
  omega

theorem disk_home {m : Nat} : i.disk m i.finalPath.dropLast = some .dir := by
  rw [disk, set_other (partPath_ne List.prefix_rfl)]
  exact i.home.self

/-- The rename, the `.part` file being complete. -/
theorem renameFinal_eq {s : RecvState} (hfs : s.fs = i.disk i.data.length) :
    renameFinal i.t.now (i.a x) s =
      if i.Placed then ((.ret (.ok i.dest), { s with fs := i.placed }) : Flow RecvLocals × RecvState)
      else (.ret (.error .io), s) := by
  have hdest : resolveCollision i.t.now s.fs (i.a x).finalPath = i.dest := by
    rw [hfs]
    rfl
  have hpart : s.fs (i.a x).partPath = some (.file i.data) := by
    rw [hfs, a_partPath, disk_part, List.take_length]
  have hhome : s.fs.isDir i.dest.dropLast = true := by
    rw [dest_dropLast, Disk.Fs.isDir, hfs, disk_home]
  simp only [renameFinal, hdest, Disk.Fs.rename, hpart, hhome, Bool.true_and]
  by_cases hp : i.Placed
  · have hdir : s.fs.isDir i.dest = false := by
      rw [hfs]
      exact Disk.Fs.isDir_eq_false.mpr hp.1
    simp only [hdir, Bool.not_false, hp.2, Bool.and_self, if_true, hp]
    rw [hfs, disk, a_partPath, set_set]
    rfl
  · have hno : (!s.fs.isDir i.dest && Disk.Limits.fits i.dest) = false := by
      rw [hfs]
      exact Disk.Fs.takes_eq_false.mpr hp
    simp only [hno, Bool.false_eq_true, if_false, hp]

theorem placed_dest : i.placed i.dest = some (.file i.data) := set_self

/-- A chunk of the file, read and not yet answered. -/
theorem sessionStep_chunk (hx : x.Compact) (cfg : SessionConfig) {m : Nat} (hm : m < i.data.length)
    (resume : ResumeState) (journal : Journal) (id c : Nat) :
    let stop := chunkStop i.data m
    let resume' := resume.record i.fileId stop
    let journal' := journal.save resume'
    let conn := wrote id (.chunkAck i.streamId c m (stop - m))
    sessionStep x cfg (i.waiting x m resume journal (quiet id)) (fileChunk x i.data i.streamId m c) =
      if stop = i.data.length then
        if i.Placed then i.after x resume' journal' conn else .closed (i.disk stop) journal' conn (.error .io)
      else i.waiting x stop resume' journal' conn := by
  have hstep := receiveStep_fileChunk i.t.now (s := { fs := i.disk m, journal, resume, conn := quiet id })
    hx i.short (i.expects (x := x)) hm disk_part rfl c
  have hdisk : (i.disk m).set i.partPath (some (.file (i.data.take (chunkStop i.data m)))) =
      i.disk (chunkStop i.data m) := set_set
  rw [a_streamId] at hstep
  simp only [sessionStep, waiting, transferStep, hstep]
  by_cases hstop : chunkStop i.data m = i.data.length
  · rw [if_pos hstop, if_pos hstop, renameFinal_eq (hstop ▸ hdisk)]
    by_cases hp : i.Placed
    · rw [if_pos hp, if_pos hp]
      simp [afterReceive, Session.ofTransfer, after, file, Disk.Fs.read, placed_dest, afterChunk]
    · rw [if_neg hp, if_neg hp]
      simp [afterReceive, Session.ofTransfer, afterChunk, hdisk]
  · rw [if_neg hstop, if_neg hstop]
    simp [afterReceive, Session.ofTransfer, afterChunk, hdisk]

/-- A chunk that starts before the bytes that are here end. -/
theorem sessionStep_behind (hx : x.Compact) (cfg : SessionConfig) {m m' : Nat} (hm : m < m') (hm' : m' < i.data.length)
    (resume : ResumeState) (journal : Journal) (id c : Nat) :
    sessionStep x cfg (i.waiting x m' resume journal (quiet id)) (fileChunk x i.data i.streamId m c) =
      if chunkStop i.data m ≤ m' then
        i.waiting x m' resume journal (wrote id (.chunkAck i.streamId c m (chunkStop i.data m - m)))
      else
        .closed (i.disk m') journal (wrote id (.error .invalidFrame (some "overlapping chunk offset") true none))
          (.error (.text "overlapping chunk offset")) := by
  have hstep := receiveStep_behind i.t.now (s := { fs := i.disk m', journal, resume, conn := quiet id })
    hx i.short (i.expects (x := x)) hm hm' rfl c
  rw [a_streamId] at hstep
  simp only [sessionStep, waiting, transferStep, hstep]
  split <;> simp [afterReceive, Session.ofTransfer]

/-- **In `receive_file` the daemon takes the chunks of a file in order.** -/
theorem chunkReceiver (Keeps : Nat → ResumeState → Journal → Prop) (hx : x.Compact) (hk : i.Records Keeps) (cfg : SessionConfig) :
    ChunkReceiver x (responder x cfg) i.data i.streamId (i.Waits x Keeps) (i.Done x Keeps) where
  take := by
    rintro m s ⟨resume, journal, id, hkeep, rfl⟩ hm c
    have hstep := sessionStep_chunk hx cfg hm resume journal id c
    have hkeep' := hk.record hkeep hm
    dsimp only at hstep hkeep'
    refine ⟨sessionStep x cfg (i.waiting x m resume journal (quiet id)),
      sessionLost (i.waiting x m resume journal (quiet id)), id, ?_⟩
    by_cases hstop : chunkStop i.data m = i.data.length
    · rw [if_pos hstop] at hstep
      simp only [if_pos hstop, Done]
      by_cases hp : i.Placed
      · rw [if_pos hp] at hstep
        simp only [if_pos hp]
        exact ⟨_, rfl, responder_wrote (hstep ▸ rfl), _, _, id + 1, hstop ▸ hkeep', by rw [hstep, hstop]; rfl⟩
      · rw [if_neg hp] at hstep
        simp only [if_neg hp]
        exact ⟨_, rfl, responder_wrote (hstep ▸ rfl), _, _, _, by rw [hstep]; rfl⟩
    · rw [if_neg hstop] at hstep
      simp only [if_neg hstop]
      exact ⟨_, rfl, responder_wrote (hstep ▸ rfl), _, _, _, hkeep', by rw [hstep]; rfl⟩

end Incoming

/-! ## The messages around the chunks -/

/-- `handle_incoming_transfer` at the top of its loop. -/
def negotiating (t : Transfer) (recv : RecvState) (receivedFiles : Nat) (stored : List StoredFile) : Session :=
  .transfer t { recv, receivedFiles, phase := .negotiate, stored }

section

variable {x : Ext} {cfg : SessionConfig}

theorem encode_small (hx : x.Compact) {m : ControlMessage} (hv : m.volume ≤ 60000)
    (hm : ∀ {id type name n size manifest}, m ≠ .transferRequest id type name n size manifest) :
    encodeControl x m = .ok () :=
  encodeControl_ok hx hv fun he => absurd he hm

/-- The request, with the user's consent. -/
theorem sessionStep_request (hx : x.Compact) (hc : cfg.declined = none) {fs : Fs} {j : Journal} {id c : Nat}
    {transferId : TransferId} {type : TransferType} {name : String} {files size : Nat} {manifest : List ManifestEntry} :
    sessionStep x cfg (.idle fs j (quiet id))
        (controlFrame c (.transferRequest transferId type name files size manifest)) =
      enterTransfer cfg fs j (wrote id (.transferAccept transferId)) transferId name manifest := by
  simp [sessionStep, controlFrame, onSessionMessage, hc,
    quiet_sendControl (encode_small hx (m := .transferAccept transferId) (by simp [ControlMessage.volume]) (by simp))]

/-- TRANSFER_COMPLETE at the top of the loop. -/
theorem sessionStep_complete (hx : x.Compact) {t : Transfer} {fs : Fs} {journal : Journal} {resume : ResumeState}
    {id c receivedFiles : Nat} {stored : List StoredFile} {transferId : TransferId} :
    sessionStep x cfg (negotiating t { fs, journal, resume, conn := quiet id } receivedFiles stored)
        (controlFrame c (.transferComplete transferId)) =
      .idle fs (journal.delete (hexEncode t.transferId.bytes)) (wrote id (.transferAck t.transferId .success none)) := by
  simp [sessionStep, negotiating, transferStep, controlFrame, onTransferMessage, TransferState.send,
    quiet_sendControl (encode_small hx (m := .transferAck t.transferId .success none)
      (by simp [ControlMessage.volume]) (by simp)), Session.ofTransfer]

/-- SESSION_CLOSE in the message loop. -/
theorem sessionStep_close (hx : x.Compact) {fs : Fs} {j : Journal} {id c : Nat} {reason : Option String} :
    sessionStep x cfg (.idle fs j (quiet id)) (controlFrame c (.sessionClose reason)) =
      .closed fs j (wrote id (.sessionClose (some "normal"))) (.ok ()) := by
  simp [sessionStep, controlFrame, onSessionMessage, sendIdle,
    quiet_sendControl (encode_small hx (m := .sessionClose (some "normal"))
      (by simp only [ControlMessage.volume, Option.map_some, Option.getD_some]; decide) (by simp))]

/-- `receive_file` passes over the end of the transfer. -/
theorem sessionStep_complete_inside (i : Incoming) {m : Nat} {resume : ResumeState} {journal : Journal} {conn : Conn}
    {c : Nat} {transferId : TransferId} :
    sessionStep x cfg (i.waiting x m resume journal conn) (controlFrame c (.transferComplete transferId)) =
      i.waiting x m resume journal conn := by
  simp [sessionStep, Incoming.waiting, transferStep, controlFrame, receiveStep, afterReceive, Session.ofTransfer]

theorem begin_hasPartial {resume : ResumeState} {fileId : Nat} {part : Path} :
    (resume.begin fileId part).hasPartial fileId = resume.hasPartial fileId := by
  unfold ResumeState.begin
  split
  · rfl
  · rename_i h
    rw [Bool.not_eq_true] at h
    rw [h]
    simp [ResumeState.hasPartial, ResumeState.received]

/-- FILE_METADATA, for the content the transfer started with. -/
theorem sessionStep_metadata (hx : x.Compact) (i : Incoming) {journal : Journal} {resume : ResumeState} {id c : Nat}
    {transferId : TransferId} (hmod : isModified resume i.fileId (x.sha256 i.data) = false) :
    let resume' := resume.begin i.fileId i.partPath
    let conn := wrote id (.fileMetadataAck i.t.transferId i.fileId i.streamId true)
    sessionStep x cfg (negotiating i.t { fs := i.fs, journal, resume, conn := quiet id } i.receivedFiles i.stored)
        (controlFrame c (i.metadata x transferId)) =
      .ofTransfer i.t (afterReceive (i.a x) i.relativePath
        { recv := { fs := i.fs, journal, resume, conn }, receivedFiles := i.receivedFiles, phase := .negotiate
          stored := i.stored }
        (receiveOpen x i.t.now (i.a x) { fs := i.fs, journal := journal.save resume', resume := resume', conn })) := by
  have hsend : (quiet id).sendControl x (.fileMetadataAck i.t.transferId i.fileId i.streamId true) =
      some (wrote id (.fileMetadataAck i.t.transferId i.fileId i.streamId true)) :=
    quiet_sendControl (encode_small hx (by simp [ControlMessage.volume]) (by simp))
  have hres : resolveSafePath i.fs i.t.receiveDir i.relativePath = .ok (joinPath i.t.receiveDir i.relativePath) :=
    resolveSafePath_ok i.sane (by simp [Disk.Fs.exists?, i.root])
  simp only [sessionStep, negotiating, transferStep, controlFrame, Incoming.metadata, onTransferMessage, onMetadata,
    i.sane, hmod, TransferState.send, hsend, beginFile, hres, i.home.createDirAll, Bool.false_eq_true, if_false]
  rfl

namespace Incoming

variable (cfg) {i : Incoming} (journal : Journal) {resume : ResumeState} (id c : Nat)
  (transferId : TransferId)

/-- The metadata of a file of which nothing is here. -/
theorem begin_fresh (hx : x.Compact) (hmod : isModified resume i.fileId (x.sha256 i.data) = false)
    (hnew : resume.hasPartial i.fileId = false) :
    let resume' := resume.begin i.fileId i.partPath
    let conn := wrote id (.fileMetadataAck i.t.transferId i.fileId i.streamId true)
    sessionStep x cfg (negotiating i.t { fs := i.fs, journal, resume, conn := quiet id } i.receivedFiles i.stored)
        (controlFrame c (i.metadata x transferId)) =
      if i.fs.Takes i.partPath then i.waiting x 0 resume' (journal.save resume') conn
      else .closed i.fs (journal.save resume') conn (.error .io) := by
  have hhome : i.fs.isDir i.partPath.dropLast = true := by
    rw [partPath, Nxfr.partPath, renameLast_dropLast, Disk.Fs.isDir, finalPath, i.home.self]
  simp only [sessionStep_metadata hx i hmod, receiveOpen, a_fileId, begin_hasPartial, hnew, Bool.false_and,
    Bool.false_eq_true, if_false, Disk.Fs.create, a_partPath, hhome, Bool.true_and]
  by_cases htakes : i.fs.Takes i.partPath
  · simp [Disk.Fs.takes_eq_true.mpr htakes, htakes, afterReceive, Session.ofTransfer, waiting, disk]
  · simp [Disk.Fs.takes_eq_false.mpr htakes, htakes, afterReceive, Session.ofTransfer]

/-- The metadata of a file of which the first `m` bytes are here. -/
theorem begin_resumed (hx : x.Compact) (hmod : isModified resume i.fileId (x.sha256 i.data) = false)
    (hsome : resume.hasPartial i.fileId = true) {m : Nat} (hm : m < i.data.length)
    (hpart : i.fs i.partPath = some (.file (i.data.take m))) :
    sessionStep x cfg (negotiating i.t { fs := i.fs, journal, resume, conn := quiet id } i.receivedFiles i.stored)
        (controlFrame c (i.metadata x transferId)) =
      i.waiting x m resume (journal.save resume)
        (wrote id (.fileMetadataAck i.t.transferId i.fileId i.streamId true)) := by
  have hbegin : resume.begin i.fileId i.partPath = resume := by simp [ResumeState.begin, hsome]
  have hlen : (i.data.take m).length = m := by simp; omega
  have hdisk : i.disk m = i.fs := set_eq_self hpart
  simp only [sessionStep_metadata hx i hmod, hbegin, receiveOpen, a_fileId, a_partPath, a_expectedSize, hsome,
    Disk.Fs.exists?, Disk.Fs.read, hpart, hlen, Option.isSome_some, Bool.and_self, if_true]
  rw [if_neg (by omega)]
  simp [afterReceive, Session.ofTransfer, waiting, hdisk]

/-- The metadata of a file of which all bytes are here. -/
theorem begin_full (hx : x.Compact) (hmod : isModified resume i.fileId (x.sha256 i.data) = false)
    (hsome : resume.hasPartial i.fileId = true) (hpart : i.fs i.partPath = some (.file i.data)) :
    let conn := wrote id (.fileMetadataAck i.t.transferId i.fileId i.streamId true)
    sessionStep x cfg (negotiating i.t { fs := i.fs, journal, resume, conn := quiet id } i.receivedFiles i.stored)
        (controlFrame c (i.metadata x transferId)) =
      if i.Placed then i.after x resume (journal.save resume) conn
      else .closed i.fs (journal.save resume) conn (.error .io) := by
  have hbegin : resume.begin i.fileId i.partPath = resume := by simp [ResumeState.begin, hsome]
  have hdisk : i.fs = i.disk i.data.length := (set_eq_self (by rw [hpart, List.take_length])).symm
  simp only [sessionStep_metadata hx i hmod, hbegin, receiveOpen, a_fileId, a_partPath, a_expectedSize,
    a_expectedHash, hsome, Disk.Fs.exists?, Disk.Fs.read, hpart, Option.isSome_some, Bool.and_self, if_true, and_self]
  rw [renameFinal_eq hdisk]
  by_cases hp : i.Placed
  · simp [hp, afterReceive, Session.ofTransfer, after, file, Disk.Fs.read, placed_dest]
  · simp [hp, afterReceive, Session.ofTransfer]

end Incoming

end

end Nxfr

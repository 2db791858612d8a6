/-
`do_receive_file` as the peer sees it, where the connection holds: in the
chunk loop of a file it is a `ChunkReceiver`, and what it has stored it never
forgets.
-/
import Nxfr.MobileReceiver
import Nxfr.ResponderFacts

namespace Nxfr

open Network Disk

/-! ## What is stored -/

section

variable {x : Ext} {cfg : MobileConfig} {offer : PendingOffer} (st : MobileState)

theorem send_stored {m : ControlMessage} {k : MobileState → MobileState}
    (hk : ∀ conn, st.stored <+: (k { st with conn }).stored) : st.stored <+: (st.send x m k).stored := by
  unfold MobileState.send
  split
  · exact List.prefix_rfl
  · exact hk _

theorem sendTransferAck_stored : st.stored <+: (sendTransferAck x offer st).stored :=
  send_stored st fun _ => List.prefix_rfl

theorem nextFile_stored : st.stored <+: (nextFile x offer st).stored := by
  unfold nextFile
  split
  · exact List.prefix_rfl
  · exact sendTransferAck_stored st

theorem finishMobile_stored {a : MobileFile} {l : RecvLocals} : st.stored <+: (finishMobile x cfg offer a l st).stored := by
  unfold finishMobile
  split
  · exact List.prefix_rfl
  · dsimp only
    split
    · exact List.prefix_rfl
    · exact .trans (List.prefix_append _ _) (nextFile_stored (MobileState.mk _ _ _ _ _ _))

theorem mobileMetadata_stored {fileId streamId size : Nat} {path : String} {sha256 : Digest} :
    st.stored <+: (mobileMetadata x cfg offer fileId streamId path size sha256 st).stored := by
  refine send_stored st fun conn => ?_
  unfold openTmp
  split
  · exact List.prefix_rfl
  · dsimp only
    split
    · exact List.prefix_rfl
    · exact List.prefix_rfl

theorem mobileChunk_stored {a : MobileFile} {l : RecvLocals} {f : Frame} :
    st.stored <+: (mobileChunk x cfg offer a l f st).stored := by
  unfold mobileChunk
  split
  · exact List.prefix_rfl
  dsimp only
  split
  · exact List.prefix_rfl
  split
  · exact List.prefix_rfl
  split
  · exact List.prefix_rfl
  split
  · exact List.prefix_rfl
  rename_i fs _ _ conn _
  split
  · exact finishMobile_stored { st with fs, conn }
  · exact List.prefix_rfl

theorem mobileStep_stored {f : Frame} : st.stored <+: (mobileStep x cfg offer f st).stored := by
  unfold mobileStep
  split
  · split
    · exact List.prefix_rfl
    · exact mobileMetadata_stored st
    · exact List.prefix_rfl
    · exact sendTransferAck_stored st
    · exact List.prefix_rfl
  · split
    · exact List.prefix_rfl
    · exact finishMobile_stored st
    · exact List.prefix_rfl
    · exact mobileChunk_stored st
    · exact List.prefix_rfl
  · exact List.prefix_rfl

theorem mobileLost_stored : st.stored <+: (mobileLost st).stored := by
  unfold mobileLost
  split <;> exact List.prefix_rfl

end

/-- What is stored stays so along a run. -/
theorem Reaches.stored_grows {x : Ext} {cfg : MobileConfig} {σ : Type} {p : σ → Act Frame σ}
    {n n' : Net Frame σ MobileSession} (hr : Reaches p (mobileReceiver x cfg) n n') : n.right.stored <+: n'.right.stored := by
  refine Network.Reaches.right_keeps (I := fun s => n.right.stored <+: s.stored) ?_ hr List.prefix_rfl
  intro s hs
  have hstep : ∀ f, s.stored <+: (mobileSessionStep x cfg s f).stored := by
    intro f
    cases s with
    | reading fs conn => exact List.nil_prefix
    | idle fs conn => exact List.nil_prefix
    | receiving offer st => exact mobileStep_stored st
  have hlost : s.stored <+: (mobileSessionLost s).stored := by
    cases s with
    | reading fs conn => exact List.nil_prefix
    | idle fs conn => exact List.nil_prefix
    | receiving offer st => exact mobileLost_stored st
  unfold mobileReceiver
  split
  · cases s <;> exact hs
  · split
    · trivial
    · trivial
    · exact ⟨fun f => hs.trans (hstep f), hs.trans hlost⟩

/-! ## A file on its way in -/

/-- A file `do_receive_file` is receiving: what its metadata said, the bytes
it is to have, and what the transfer had before its temporary file, which
lies beside its destination. -/
structure MobileIncoming (x : Ext) where
  offer : PendingOffer
  a : MobileFile
  data : Bytes
  fs : Fs
  draws : Nat
  receivedFiles : Nat
  stored : List StoredFile
  short : data.length < 2 ^ 64
  size : a.expectedSize = data.length
  hash : a.expectedHash = x.sha256 data
  beside : a.tmpPath.dropLast = a.finalPath.dropLast
  home : fs a.finalPath.dropLast = some .dir
  free : fs a.tmpPath = none

namespace MobileIncoming

variable {x : Ext} (cfg : MobileConfig) (i : MobileIncoming x)

/-- The disk with the first `m` bytes in the temporary file. -/
def disk (m : Nat) : Fs := i.fs.set i.a.tmpPath (some (.file (i.data.take m)))

/-- Where the file goes. -/
def dest : Path := resolveCollision cfg.now (i.disk i.data.length) i.a.finalPath

/-- The file can be put in its place. -/
def Placed : Prop := (i.disk i.data.length).Takes (i.dest cfg)

instance : Decidable (i.Placed cfg) := inferInstanceAs (Decidable ((i.disk i.data.length).Takes (i.dest cfg)))

/-- The disk with the file in its place. -/
def placed : Fs := i.fs.set (i.dest cfg) (some (.file i.data))

/-- The file as stored. -/
def file : StoredFile :=
  { fileId := i.a.fileId, relativePath := i.a.relativePath, size := i.data.length, sha256 := x.sha256 i.data
    dest := i.dest cfg, content := i.data }

/-- The chunk loop with the first `m` bytes. -/
def state (m : Nat) (conn : Conn) : MobileState :=
  { fs := i.disk m, conn, draws := i.draws, receivedFiles := i.receivedFiles
    phase := .chunks i.a ⟨m, i.data.take m⟩, stored := i.stored }

def waiting (m : Nat) (conn : Conn) : MobileSession := .receiving i.offer (i.state m conn)

/-- The top of the outer loop after the file. -/
def after (conn : Conn) : MobileSession :=
  .receiving i.offer
    { fs := i.placed cfg, conn, draws := i.draws, receivedFiles := i.receivedFiles + 1, phase := .files
      stored := i.stored ++ [i.file cfg] }

/-- The transfer is acknowledged after the file. -/
def finished (conn : Conn) : MobileSession :=
  .receiving i.offer
    { fs := i.placed cfg, conn, draws := i.draws, receivedFiles := i.receivedFiles + 1, phase := .returned (.ok ())
      stored := i.stored ++ [i.file cfg] }

/-- The rename failed. -/
def dropped (conn : Conn) : MobileSession :=
  .receiving i.offer ((i.state i.data.length conn).dropTmp i.a .io)

/-- What the answer to the last chunk leads to; where it was the last file,
the acknowledgement of the transfer is still to be written. -/
def Done (s : MobileSession) : Prop := ∃ id,
  s = if i.Placed cfg then
      if i.receivedFiles + 1 < i.offer.expectedFiles then i.after cfg (quiet id)
      else i.finished cfg (wrote id (.transferAck i.offer.transferId .success none))
    else i.dropped (quiet id)

def Waits (m : Nat) (s : MobileSession) : Prop := ∃ id, s = i.waiting m (quiet id)

variable {cfg i}

theorem disk_tmp {m : Nat} : i.disk m i.a.tmpPath = some (.file (i.data.take m)) := set_self

theorem disk_home {m : Nat} : i.disk m i.a.finalPath.dropLast = some .dir := by
  rw [disk, set_other]
  · exact i.home
  · intro he
    have := i.home
    rw [he, i.free] at this
    cases this

theorem encode_transferAck (hx : x.Compact) {transferId : TransferId} :
    encodeControl x (.transferAck transferId .success none) = .ok () :=
  encode_small hx (by simp [ControlMessage.volume]) (by simp)

/-- The next file, or the acknowledgement of the transfer. -/
theorem nextFile_eq (hx : x.Compact) {st : MobileState} (hc : st.conn.writesLeft = none) (offer : PendingOffer) :
    nextFile x offer st =
      if st.receivedFiles < offer.expectedFiles then { st with phase := .files }
      else { st with
        conn := { st.conn with
          nextMessageId := st.conn.nextMessageId + 1
          outbox := st.conn.outbox ++
            [controlFrame st.conn.nextMessageId (.transferAck offer.transferId .success none)] }
        phase := .returned (.ok ()) } := by
  unfold nextFile
  split
  · rfl
  · simp [sendTransferAck, MobileState.send, Conn.sendControl_ok (encode_transferAck hx) hc]

/-- The end of the file, all its bytes being here. -/
theorem finish_eq (cfg : MobileConfig) (hx : x.Compact) {conn : Conn} (hc : conn.writesLeft = none) (phase : MobilePhase) :
    MobileSession.receiving i.offer (finishMobile x cfg i.offer i.a ⟨i.data.length, i.data⟩
        { i.state i.data.length conn with phase }) =
      if i.Placed cfg then
        if i.receivedFiles + 1 < i.offer.expectedFiles then i.after cfg conn
        else i.finished cfg { conn with
          nextMessageId := conn.nextMessageId + 1
          outbox := conn.outbox ++ [controlFrame conn.nextMessageId (.transferAck i.offer.transferId .success none)] }
      else i.dropped conn := by
  have htmp : i.disk i.data.length i.a.tmpPath = some (.file i.data) := by rw [disk_tmp, List.take_length]
  have hhome : (i.disk i.data.length).isDir (i.dest cfg).dropLast = true := by
    rw [dest, resolveCollision_dropLast, Fs.isDir, disk_home]
  unfold finishMobile
  rw [if_neg (by simp [i.hash])]
  simp only [state, show resolveCollision cfg.now (i.disk i.data.length) i.a.finalPath = i.dest cfg from rfl,
    Fs.rename, htmp, hhome, Bool.true_and]
  by_cases hp : i.Placed cfg
  · have hset : Fs.set (i.disk i.data.length) i.a.tmpPath none = i.fs := by
      rw [disk, set_set, set_eq_self i.free]
    simp only [Fs.takes_eq_true.mpr hp, if_true, hp, hset]
    rw [nextFile_eq hx hc]
    split <;> simp [after, finished, placed, Fs.read, set_self, file, i.size, i.hash]
  · simp only [Fs.takes_eq_false.mpr hp, Bool.false_eq_true, if_false, hp, dropped, state, MobileState.dropTmp]

/-- A chunk of the file at the position the loop is at. -/
theorem mobileStep_fileChunk (cfg : MobileConfig) (hx : x.Compact) {m : Nat} (hm : m < i.data.length) (id c streamId : Nat) :
    mobileStep x cfg i.offer (fileChunk x i.data streamId m c) (i.state m (quiet id)) =
      if chunkStop i.data m = i.data.length then
        finishMobile x cfg i.offer i.a ⟨i.data.length, i.data⟩
          { i.state i.data.length (wrote id (.chunkAck i.a.streamId c m (chunkStop i.data m - m))) with
            phase := .chunks i.a ⟨m, i.data.take m⟩ }
      else i.state (chunkStop i.data m) (wrote id (.chunkAck i.a.streamId c m (chunkStop i.data m - m))) := by
  obtain ⟨hlo, hhi⟩ := chunkStop_bounds hm
  have hshort := i.short
  have hsl := slice_length (Nat.le_of_lt hlo) hhi
  have hsum : m + (chunkStop i.data m - m) = chunkStop i.data m := by omega
  have hoff : fromBeBytes (toBeBytes m) = m := fromBeBytes_toBeBytes (by omega)
  have hlast : (fileChunk x i.data streamId m c).isLastChunk = decide (chunkStop i.data m = i.data.length) :=
    fileChunk_isLastChunk
  have happend : (i.disk m).append i.a.tmpPath (slice i.data m (chunkStop i.data m)) =
      some (i.disk (chunkStop i.data m)) := by
    simp [Fs.append, set_self, take_append_slice (Nat.le_of_lt hlo), disk, set_set]
  have hchunk : mobileStep x cfg i.offer (fileChunk x i.data streamId m c) (i.state m (quiet id)) =
      mobileChunk x cfg i.offer i.a ⟨m, i.data.take m⟩ (fileChunk x i.data streamId m c) (i.state m (quiet id)) := rfl
  rw [hchunk]
  unfold mobileChunk
  rw [if_neg (by simp only [fileChunk, chunkFrame, chunkPayload_length, hsl]; omega)]
  simp only [hlast]
  simp only [fileChunk, chunkFrame, chunkPayload_offset, chunkPayload_hash, chunkPayload_data, hoff, hsl, hsum, ne_eq,
    not_true_eq_false, if_false, state, happend, take_append_slice (Nat.le_of_lt hlo),
    quiet_sendControl (encode_chunkAck hx)]
  by_cases hstop : chunkStop i.data m = i.data.length
  · simp [hstop]
  · have hge : ¬ i.a.expectedSize ≤ chunkStop i.data m := by
      rw [i.size]
      omega
    simp [hstop, hge]

/-- **In the chunk loop `do_receive_file` takes the chunks of a file in
order.** -/
theorem chunkReceiver (hx : x.Compact) :
    ChunkReceiver x (mobileReceiver x cfg) i.data i.a.streamId i.Waits (i.Done cfg) where
  take := by
    rintro m s ⟨id, rfl⟩ hm c
    have hstep := mobileStep_fileChunk cfg hx hm id c i.a.streamId
    refine ⟨mobileSessionStep x cfg (i.waiting m (quiet id)), mobileSessionLost (i.waiting m (quiet id)), id, ?_⟩
    have hread : mobileSessionStep x cfg (i.waiting m (quiet id)) (fileChunk x i.data i.a.streamId m c) =
        .receiving i.offer (mobileStep x cfg i.offer (fileChunk x i.data i.a.streamId m c) (i.state m (quiet id))) := rfl
    rw [hread, hstep]
    by_cases hstop : chunkStop i.data m = i.data.length
    · rw [if_pos hstop, finish_eq cfg hx rfl]
      simp only [if_pos hstop]
      by_cases hp : i.Placed cfg
      · rw [if_pos hp]
        by_cases hnext : i.receivedFiles + 1 < i.offer.expectedFiles
        · rw [if_pos hnext]
          exact ⟨i.after cfg (quiet (id + 1)), rfl, rfl, id + 1, by rw [if_pos hp, if_pos hnext]⟩
        · rw [if_neg hnext]
          exact ⟨i.finished cfg (wrote (id + 1) (.transferAck i.offer.transferId .success none)), rfl, rfl, id + 1, by
            rw [if_pos hp, if_neg hnext]⟩
      · rw [if_neg hp]
        exact ⟨i.dropped (quiet (id + 1)), rfl, rfl, id + 1, by rw [if_neg hp]⟩
    · rw [if_neg hstop]
      simp only [if_neg hstop]
      exact ⟨i.waiting (chunkStop i.data m) (quiet (id + 1)), rfl, rfl, id + 1, rfl⟩

end MobileIncoming

end Nxfr

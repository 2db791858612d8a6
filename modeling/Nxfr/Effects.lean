/-
What one frame can do to the disk, the journal and the resume state in
`handle_incoming_transfer`: in `receive_file` (`Turn`), and at the top of the
loop, where a FILE_METADATA opens a file (`Opening`). Every result about runs
of the receiver on the disk it shares with earlier connections, with the
user's files or with other peers starts from these two.
-/
import Nxfr.ResponderFacts

namespace Nxfr

/-! ## A turn of `receive_file` -/

section

variable (x : Ext) (now : Nat) (a : RecvArgs) (l : RecvLocals) (f : Frame)

/-- The chunk of a frame, where it is of this stream, whole, and has its
hash. -/
def chunkHere : Option (Nat × Bytes) :=
  if f.kind = .chunk ∧ f.streamId = a.streamId ∧ 41 ≤ f.payload.length ∧
      (f.payload.drop 8).take 32 = (x.sha256 (f.payload.drop 40)).bytes then
    some (fromBeBytes (f.payload.take 8), f.payload.drop 40)
  else none

/-- The variables of the loop with the new chunk of a frame, if it has one. -/
def withNew : RecvLocals := match newChunk x a l f with
  | some (_, data) => ⟨l.receivedBytes + data.length, l.hasher ++ data⟩
  | none => l

/-- The frame makes `receive_file` give the file up and remove what it has of
it: the chunk has another hash, or it is too much, or the transfer is
cancelled. -/
def refuses : Bool := match f.kind with
  | .chunk => decide (f.streamId = a.streamId ∧ 41 ≤ f.payload.length ∧
      ((f.payload.drop 8).take 32 ≠ (x.sha256 (f.payload.drop 40)).bytes ∨
        (fromBeBytes (f.payload.take 8) = l.receivedBytes ∧
          l.receivedBytes + (f.payload.drop 40).length > a.expectedSize)))
  | .control => match f.control with
    | .ok (.transferCancel _ _) => true
    | _ => false
  | .keepalive => false

/-- The frame ends the loop: its chunk is new or was there already, and it is
the last or the file has its size. -/
def endsFile : Bool := match chunkHere x a f with
  | some (offset, data) =>
    ((newChunk x a l f).isSome || decide (offset < l.receivedBytes ∧ offset + data.length ≤ l.receivedBytes)) &&
      (f.isLastChunk || (withNew x a l f).receivedBytes == a.expectedSize)
  | none => false

/-- The bytes pass the two checks at the end. -/
def Checked (l : RecvLocals) : Prop := x.sha256 l.hasher = a.expectedHash ∧ l.receivedBytes = a.expectedSize

/-- The state with the new chunk of the frame, if it has one, in the journal. -/
def recorded (s : RecvState) : RecvState := match newChunk x a l f with
  | some _ =>
    let resume := s.resume.record a.fileId (withNew x a l f).receivedBytes
    { s with resume, journal := s.journal.save resume }
  | none => s

/-- What a turn does: the file is kept with what the frame adds to it, or it
is dropped, or it is put in place. -/
inductive Turn (s : RecvState) : Flow RecvLocals × RecvState → Prop
  | kept {r : Flow RecvLocals} {s' : RecvState}
      (hfs : s'.fs = s.fs.set a.partPath (some (.file (withNew x a l f).hasher)))
      (hresume : s'.resume = (recorded x a l f s).resume) (hjournal : s'.journal = (recorded x a l f s).journal)
      (hr : r = .next (withNew x a l f) ∨ ∃ e, r = .ret (.error e)) : Turn s (r, s')
  | dropped {e : Fail} {s' : RecvState} (hfs : s'.fs = s.fs.set a.partPath none)
      (hresume : s'.resume = (recorded x a l f s).resume) (hjournal : s'.journal = (recorded x a l f s).journal)
      (hf : refuses x a l f = true ∧ newChunk x a l f = none ∨
        endsFile x a l f = true ∧ ¬ Checked x a (withNew x a l f)) : Turn s (.ret (.error e), s')
  | placed {s' : RecvState} (hfs : s'.fs = delivered now a s.fs (withNew x a l f).hasher)
      (hresume : s'.resume = (recorded x a l f s).resume) (hjournal : s'.journal = (recorded x a l f s).journal)
      (hf : endsFile x a l f = true) (hchecked : Checked x a (withNew x a l f)) :
      Turn s (.ret (.ok (finalDest now a s.fs (withNew x a l f).hasher)), s')

end

section

variable {x : Ext} {now : Nat} {a : RecvArgs} {l : RecvLocals} {f : Frame} {s : RecvState}

theorem Writing.part {fs : Fs} (h : Writing a fs l s) : s.fs a.partPath = some (.file l.hasher) := by rw [h.disk, set_self]

theorem removeFile_part {content : Bytes} (h : s.fs a.partPath = some (.file content)) :
    (s.removeFile a.partPath).fs = s.fs.set a.partPath none := by
  simp [RecvState.removeFile, Disk.Fs.removeFile, Disk.Fs.isFile, h]

/-- The rename, the `.part` file holding `content`. -/
theorem renameFinal_cases (now : Nat) {content : Bytes} {fs : Fs} (h : s.fs = fs.set a.partPath (some (.file content))) :
    renameFinal (α := RecvLocals) now a s = (.ret (.error .io), s) ∨
      renameFinal (α := RecvLocals) now a s =
        (.ret (.ok (finalDest now a fs content)), { s with fs := delivered now a fs content }) := by
  have hpart : s.fs a.partPath = some (.file content) := by rw [h, set_self]
  unfold renameFinal
  dsimp only
  split
  · exact .inl rfl
  · rename_i fs' hr
    simp only [Disk.Fs.rename, hpart, Option.ite_none_right_eq_some, Option.some.injEq] at hr
    refine .inr ?_
    rw [← hr.2, h, set_set]
    rfl

/-- After the acknowledgement of a chunk, `m` being the state of the file. -/
theorem ackChunk_turn {m : RecvState} {l' : RecvLocals} {offset length : Nat} (hl : l' = withNew x a l f)
    (hfs : m.fs = s.fs.set a.partPath (some (.file (withNew x a l f).hasher)))
    (hresume : m.resume = (recorded x a l f s).resume) (hjournal : m.journal = (recorded x a l f s).journal)
    (hend : f.isLastChunk || (withNew x a l f).receivedBytes == a.expectedSize → endsFile x a l f = true) :
    Turn x now a l f s (ackChunk x now a l' f offset length m) := by
  subst hl
  unfold ackChunk RecvState.send
  split
  · exact .kept hfs hresume hjournal (.inr ⟨_, rfl⟩)
  · rename_i conn _
    dsimp only
    split
    · rename_i hlast
      have hpart : m.fs a.partPath = some (.file (withNew x a l f).hasher) := by rw [hfs, set_self]
      have hremoved : (RecvState.removeFile { m with conn } a.partPath).fs = s.fs.set a.partPath none := by
        rw [removeFile_part (s := { m with conn }) hpart, hfs, set_set]
      unfold finishFile
      split
      · rename_i hhash
        exact .dropped hremoved hresume hjournal (.inr ⟨hend hlast, fun hc => hhash hc.1⟩)
      split
      · rename_i hsize
        exact .dropped hremoved hresume hjournal (.inr ⟨hend hlast, fun hc => hsize hc.2⟩)
      · rename_i hhash hsize
        simp only [ne_eq, Decidable.not_not] at hhash hsize
        rcases renameFinal_cases now (s := { m with conn }) hfs with hr | hr
        · rw [hr]
          exact .kept hfs hresume hjournal (.inr ⟨_, rfl⟩)
        · rw [hr]
          exact .placed rfl hresume hjournal (hend hlast) ⟨hhash, hsize⟩
    · exact .kept hfs hresume hjournal (.inl rfl)

theorem withNew_none (h : newChunk x a l f = none) : withNew x a l f = l := by simp [withNew, h]

theorem recorded_none (h : newChunk x a l f = none) : recorded x a l f s = s := by simp [recorded, h]

/-- Nothing new, and the file stays as it is. -/
theorem Turn.stay (hw : Writing a s.fs l s) (hn : newChunk x a l f = none) {r : Flow RecvLocals} {s' : RecvState}
    (hfs : s'.fs = s.fs) (hresume : s'.resume = s.resume) (hjournal : s'.journal = s.journal)
    (hr : r = .next l ∨ ∃ e, r = .ret (.error e)) : Turn x now a l f s (r, s') := by
  refine .kept ?_ ?_ ?_ ?_
  · rw [hfs, withNew_none hn]
    exact hw.disk
  · rw [recorded_none hn, hresume]
  · rw [recorded_none hn, hjournal]
  · rwa [withNew_none hn]

/-- An Error frame, and the file dropped. -/
theorem Turn.refuse (hw : Writing a s.fs l s) (hn : newChunk x a l f = none) (hf : refuses x a l f = true)
    {code : ErrorCode} {message failure : String} :
    Turn x now a l f s (refuse x code message failure (·.removeFile a.partPath) s) := by
  unfold Nxfr.refuse RecvState.send
  split
  · exact .stay hw hn rfl rfl rfl (.inr ⟨_, rfl⟩)
  · rename_i conn _
    refine .dropped (removeFile_part (s := { s with conn }) hw.part) ?_ ?_ (.inl ⟨hf, hn⟩)
    · rw [recorded_none hn]
      rfl
    · rw [recorded_none hn]
      rfl

/-- An Error frame, and the file left as it is. -/
theorem Turn.refuse_keep (hw : Writing a s.fs l s) (hn : newChunk x a l f = none) {code : ErrorCode}
    {message failure : String} : Turn x now a l f s (Nxfr.refuse x code message failure id s) := by
  unfold Nxfr.refuse RecvState.send
  split
  · exact .stay hw hn rfl rfl rfl (.inr ⟨_, rfl⟩)
  · exact .stay hw hn rfl rfl rfl (.inr ⟨_, rfl⟩)

/-- **A turn of `receive_file`.** -/
theorem receiveStep_turn (hw : Writing a s.fs l s) (f : Frame) : Turn x now a l f s (receiveStep x now a l f s) := by
  unfold receiveStep
  split
  · rename_i hk
    unfold receiveChunk
    split
    · rename_i hstream
      exact .stay hw (newChunk_none fun hc => hstream hc.2.1) rfl rfl rfl (.inl rfl)
    split
    · rename_i hlen
      exact .stay hw (newChunk_none fun hc => by omega) rfl rfl rfl (.inl rfl)
    rename_i hstream hlen
    simp only [ne_eq, Decidable.not_not] at hstream
    dsimp only
    split
    · rename_i hhash
      refine .refuse hw (newChunk_none fun hc => hhash hc.2.2.2.1) ?_
      simp only [refuses, hk, decide_eq_true_eq]
      exact ⟨hstream, by omega, .inl hhash⟩
    rename_i hhash
    simp only [ne_eq, Decidable.not_not] at hhash
    have hhere : chunkHere x a f = some (fromBeBytes (f.payload.take 8), f.payload.drop 40) :=
      if_pos ⟨hk, hstream, by omega, hhash⟩
    split
    · rename_i hoff
      split
      · rename_i htotal
        refine .refuse hw (newChunk_none fun hc => by omega) ?_
        simp only [refuses, hk, decide_eq_true_eq]
        exact ⟨hstream, by omega, .inr ⟨hoff, htotal⟩⟩
      · rename_i htotal
        have hnew : newChunk x a l f = some (l.receivedBytes, f.payload.drop 40) := by
          unfold newChunk
          rw [if_pos ⟨hk, hstream, by omega, hhash, hoff, by omega⟩, hoff]
        have hwith : withNew x a l f = ⟨l.receivedBytes + (f.payload.drop 40).length, l.hasher ++ f.payload.drop 40⟩ := by
          simp [withNew, hnew]
        have hstore : storeChunk a (l.receivedBytes + (f.payload.drop 40).length) (f.payload.drop 40) s =
            some { recorded x a l f s with fs := s.fs.set a.partPath (some (.file (l.hasher ++ f.payload.drop 40))) } := by
          simp [storeChunk, Disk.Fs.append, hw.part, recorded, hnew, hwith]
        rw [hstore]
        refine ackChunk_turn hwith.symm ?_ rfl rfl fun hlast => ?_
        · rw [hwith]
        · rw [hwith] at hlast
          simp only [endsFile, hhere, hnew, hwith, Option.isSome_some, Bool.true_or, Bool.true_and]
          exact hlast
    · rename_i hoff
      have hnone : newChunk x a l f = none := newChunk_none fun hc => hoff hc.2.2.2.2.1
      split
      · split
        · rename_i hbefore hdup
          refine ackChunk_turn (withNew_none hnone).symm ?_ ?_ ?_ fun hlast => ?_
          · rw [withNew_none hnone]
            exact hw.disk
          · rw [recorded_none hnone]
          · rw [recorded_none hnone]
          · simp only [endsFile, hhere, hnone, Option.isSome_none, Bool.false_or, hbefore, hdup, and_self, decide_true,
              Bool.true_and]
            exact hlast
        · exact .refuse_keep hw hnone
      · exact .refuse_keep hw hnone
  · rename_i hk
    have hnone : newChunk x a l f = none := newChunk_none fun hc => by simp [hk] at hc
    split
    · exact .stay hw hnone rfl rfl rfl (.inr ⟨_, rfl⟩)
    · rename_i hcontrol
      refine .dropped (removeFile_part hw.part) ?_ ?_ (.inl ⟨?_, hnone⟩)
      · rw [recorded_none hnone]
        rfl
      · rw [recorded_none hnone]
        rfl
      · simp [refuses, hk, hcontrol]
    · exact .stay hw hnone rfl rfl rfl (.inr ⟨_, rfl⟩)
    · exact .stay hw hnone rfl rfl rfl (.inl rfl)
  · rename_i hk
    exact .stay hw (newChunk_none fun hc => by simp [hk] at hc) rfl rfl rfl (.inl rfl)

end

/-! ## What a turn writes -/

/-- What was written to the connection since. -/
def Conn.Adds (P : Frame → Prop) (c c' : Conn) : Prop := ∃ fs, c'.outbox = c.outbox ++ fs ∧ ∀ f ∈ fs, P f

section

variable {P : Frame → Prop} {c c' c'' : Conn}

theorem Conn.Adds.refl : c.Adds P c := ⟨[], by simp, by simp⟩

theorem Conn.Adds.trans (h : c.Adds P c') (h' : c'.Adds P c'') : c.Adds P c'' := by
  obtain ⟨fs, hfs, hP⟩ := h
  obtain ⟨fs', hfs', hP'⟩ := h'
  refine ⟨fs ++ fs', by rw [hfs', hfs, List.append_assoc], fun f hf => ?_⟩
  rcases List.mem_append.mp hf with hf | hf
  · exact hP f hf
  · exact hP' f hf

theorem Conn.write_adds {f : Frame} (h : c.write f = some c') (hf : P f) : c.Adds P c' := by
  unfold Conn.write at h
  split at h
  · cases h
  · rw [← Option.some.inj h]
    exact ⟨[f], rfl, by simpa using hf⟩

theorem Conn.sendControl_adds {x : Ext} {m : ControlMessage} (h : c.sendControl x m = some c')
    (hm : ∀ id, P (controlFrame id m)) : c.Adds P c' := by
  unfold Conn.sendControl at h
  split at h
  · cases h
  · obtain ⟨d, hd, rfl⟩ := Option.map_eq_some_iff.mp h
    obtain ⟨fs, hfs, hP⟩ := Conn.write_adds hd (hm _)
    exact ⟨fs, hfs, hP⟩

end

section

variable {x : Ext} {now : Nat} {a : RecvArgs} {l : RecvLocals} {f : Frame} {s : RecvState} {P : Frame → Prop}

theorem renameFinal_conn {α : Type} : (renameFinal (α := α) now a s).2.conn = s.conn := by
  unfold renameFinal
  dsimp only
  split <;> rfl

theorem receiveOpen_conn : (receiveOpen x now a s).2.conn = s.conn := by
  unfold receiveOpen
  split
  · split
    · rfl
    · split
      · exact renameFinal_conn
      · rfl
  · split <;> rfl

theorem RecvState.send_adds {α : Type} {m : ControlMessage} {k : RecvState → Flow α × RecvState}
    (hm : ∀ id, P (controlFrame id m)) (hk : ∀ conn : Conn, conn.Adds P (k { s with conn }).2.conn) :
    s.conn.Adds P (s.send x m k).2.conn := by
  unfold RecvState.send
  split
  · exact .refl
  · rename_i conn hc
    exact (Conn.sendControl_adds hc hm).trans (hk conn)

theorem ackChunk_adds {offset length : Nat}
    (hack : ∀ id, P (controlFrame id (.chunkAck a.streamId f.messageId offset length))) :
    s.conn.Adds P (ackChunk x now a l f offset length s).2.conn := by
  refine RecvState.send_adds hack fun conn => ?_
  split
  · unfold finishFile
    split
    · exact .refl
    split
    · exact .refl
    · rw [renameFinal_conn]
      exact .refl
  · exact .refl

theorem refuse_adds {α : Type} {code : ErrorCode} {message failure : String} {cleanup : RecvState → RecvState}
    (herror : ∀ id, P (controlFrame id (.error code (some message) true none))) (hc : ∀ s, (cleanup s).conn = s.conn) :
    s.conn.Adds P (refuse (α := α) x code message failure cleanup s).2.conn := by
  refine RecvState.send_adds herror fun conn => ?_
  rw [hc]
  exact .refl

/-- `receive_file` writes chunk acknowledgements and errors. -/
theorem receiveStep_adds (hack : ∀ id streamId messageId offset length,
      P (controlFrame id (.chunkAck streamId messageId offset length)))
    (herror : ∀ id code message fatal, P (controlFrame id (.error code message fatal none))) :
    s.conn.Adds P (receiveStep x now a l f s).2.conn := by
  have hrefuse : ∀ {code : ErrorCode} {message failure : String} {cleanup : RecvState → RecvState},
      (∀ s, (cleanup s).conn = s.conn) →
      s.conn.Adds P (refuse (α := RecvLocals) x code message failure cleanup s).2.conn :=
    fun hc => refuse_adds (fun id => herror id _ _ _) hc
  unfold receiveStep
  split
  · unfold receiveChunk
    split
    · exact .refl
    split
    · exact .refl
    dsimp only
    split
    · exact hrefuse fun _ => rfl
    split
    · split
      · exact hrefuse fun _ => rfl
      · split
        · exact .refl
        · rename_i s' hs
          obtain ⟨fs, _, rfl⟩ := Option.map_eq_some_iff.mp hs
          exact ackChunk_adds fun id => hack id _ _ _ _
    split
    · split
      · exact ackChunk_adds fun id => hack id _ _ _ _
      · exact hrefuse fun _ => rfl
    · exact hrefuse fun _ => rfl
  · split <;> exact .refl
  · exact .refl

end

/-! ## The start of a file -/

/-- What `receive_file` does before its loop: nothing, or it goes on with what
it finds, or it starts over, or it finds the file complete. -/
inductive Opening (x : Ext) (now : Nat) (a : RecvArgs) (s : RecvState) : Flow RecvLocals × RecvState → Prop
  | failed {e : Fail} : Opening x now a s (.ret (.error e), s)
  | resumed {existing : Bytes} (hsome : s.resume.hasPartial a.fileId = true)
      (hpart : s.fs a.partPath = some (.file existing)) : Opening x now a s (.next ⟨existing.length, existing⟩, s)
  | fresh (hnew : s.resume.hasPartial a.fileId = true → s.fs a.partPath = none) :
      Opening x now a s (.next ⟨0, []⟩, { s with fs := s.fs.set a.partPath (some (.file [])) })
  | complete {existing : Bytes} (hsome : s.resume.hasPartial a.fileId = true)
      (hpart : s.fs a.partPath = some (.file existing)) (hchecked : Checked x a ⟨existing.length, existing⟩) :
      Opening x now a s
        (.ret (.ok (finalDest now a s.fs existing)), { s with fs := delivered now a s.fs existing })

theorem read_some {fs : Fs} {p : Path} {content : Bytes} (h : fs.read p = some content) : fs p = some (.file content) := by
  unfold Disk.Fs.read at h
  split at h
  · rename_i c hc
    rw [hc, Option.some.inj h]
  · cases h

theorem receiveOpen_opening (x : Ext) (now : Nat) (a : RecvArgs) (s : RecvState) :
    Opening x now a s (receiveOpen x now a s) := by
  unfold receiveOpen
  split
  · rename_i hresume
    simp only [Bool.and_eq_true] at hresume
    split
    · exact .failed
    · rename_i existing hread
      have hpart := read_some hread
      split
      · rename_i hdone
        rcases renameFinal_cases now (set_eq_self hpart).symm with hr | hr
        · rw [hr]
          exact .failed
        · rw [hr]
          exact .complete hresume.1 hpart ⟨hdone.2, hdone.1⟩
      · exact .resumed hresume.1 hpart
  · rename_i hresume
    split
    · exact .failed
    · rename_i fs hcreate
      simp only [Disk.Fs.create, Option.ite_none_right_eq_some, Option.some.injEq] at hcreate
      rw [← hcreate.2]
      refine .fresh fun hp => ?_
      simpa [hp, Disk.Fs.exists?] using hresume

/-! ## A frame -/

/-- The file a frame is about at the top of the loop, with its id and its
path: a FILE_METADATA that opens the file, or that shows it modified. -/
def TransferState.opening (t : Transfer) (st : TransferState) (f : Frame) : Option (Nat × Path) :=
  match st.phase, f.kind, f.control with
  | .negotiate, .control, .ok (.fileMetadata _ fileId _ relativePath _ sha256 _ _) =>
    match sanitizePath relativePath with
    | .error _ => none
    | .ok sanitized =>
      if isModified st.recv.resume fileId sha256 then some (fileId, joinPath t.receiveDir sanitized)
      else match resolveSafePath st.recv.fs t.receiveDir sanitized with
        | .error _ => none
        | .ok dest => some (fileId, dest)
  | _, _, _ => none

/-- What a frame does: nothing to the disk and the journal; the journal of a
completed transfer is deleted; what is here of a modified file is dropped; a
file is opened; or `receive_file` takes a turn. -/
inductive Effect (x : Ext) (t : Transfer) (st : TransferState) (f : Frame) : TransferState → Prop
  | quiet {st' : TransferState} (hidle : ∀ a relativePath l, st.phase ≠ .receiving a relativePath l)
      (hfs : st'.recv.fs = st.recv.fs) (hresume : st'.recv.resume = st.recv.resume)
      (hjournal : st'.recv.journal = st.recv.journal) (hstored : st'.stored = st.stored)
      (hphase : st'.phase = .negotiate ∨ ∃ r, st'.phase = .returned r) : Effect x t st f st'
  | completed {st' : TransferState} (hidle : ∀ a relativePath l, st.phase ≠ .receiving a relativePath l)
      (hfs : st'.recv.fs = st.recv.fs) (hresume : st'.recv.resume = st.recv.resume)
      (hjournal : st'.recv.journal = st.recv.journal.delete (hexEncode t.transferId.bytes)) (hstored : st'.stored = st.stored)
      (hphase : ∃ r, st'.phase = .returned r) : Effect x t st f st'
  | modified {fileId : Nat} {dest : Path} {st' : TransferState} (hopen : st.opening t f = some (fileId, dest))
      (hfs : st'.recv.fs = (st.recv.fs.removeFile (partPath dest)).getD st.recv.fs)
      (hresume : st'.recv.resume = { st.recv.resume with files := st.recv.resume.files.erase fileId })
      (hjournal : st'.recv.journal = st.recv.journal.save st'.recv.resume) (hstored : st'.stored = st.stored)
      (hphase : st'.phase = .negotiate ∨ ∃ r, st'.phase = .returned r) : Effect x t st f st'
  | opened {a : RecvArgs} {relativePath : String} {s : RecvState} {st₀ : TransferState} {r : Flow RecvLocals × RecvState}
      (hopen : st.opening t f = some (a.fileId, a.finalPath)) (hpart : a.partPath = partPath a.finalPath)
      (hdirs : st.recv.fs.createDirAll a.finalPath.dropLast = some s.fs)
      (hresume : s.resume = st.recv.resume.begin a.fileId a.partPath) (hjournal : s.journal = st.recv.journal.save s.resume)
      (hstored : st₀.stored = st.stored) (h : Opening x t.now a s r) :
      Effect x t st f (afterReceive a relativePath st₀ r)
  | turn {a : RecvArgs} {relativePath : String} {l : RecvLocals} {r : Flow RecvLocals × RecvState}
      (hphase : st.phase = .receiving a relativePath l) (h : Turn x t.now a l f st.recv r) :
      Effect x t st f (afterReceive a relativePath st r)

section

variable {x : Ext} {t : Transfer} {st : TransferState} {f : Frame}

/-- After a write the transfer goes on as it was, but for the connection, or
it returns. -/
theorem TransferState.send_effect {m : ControlMessage} {k : TransferState → TransferState} {P : TransferState → Prop}
    (hfail : P { st with phase := .returned (.error .io) }) (hk : ∀ conn, P (k { st with recv := { st.recv with conn } })) :
    P (st.send x m k) := by
  unfold TransferState.send
  split
  · exact hfail
  · exact hk _

theorem onMetadata_effect {tid : TransferId} {fileId streamId size : Nat} {relativePath : String} {sha256 : Digest}
    {mime : Option String} {time : Option Nat} (hphase : st.phase = .negotiate) (hkind : f.kind = .control)
    (hcontrol : f.control = .ok (.fileMetadata tid fileId streamId relativePath size sha256 mime time)) :
    Effect x t st f (onMetadata x t fileId streamId relativePath size sha256 st) := by
  have hidle : ∀ a relativePath l, st.phase ≠ .receiving a relativePath l := by simp [hphase]
  have hquiet : ∀ conn, Effect x t st f { st with recv := { st.recv with conn } } :=
    fun conn => .quiet hidle rfl rfl rfl rfl (.inl hphase)
  have hio : ∀ conn, Effect x t st f { st with recv := { st.recv with conn }, phase := .returned (.error .io) } :=
    fun conn => .quiet hidle rfl rfl rfl rfl (.inr ⟨_, rfl⟩)
  unfold onMetadata
  split
  · exact TransferState.send_effect (hio _) fun conn => TransferState.send_effect (hio _) fun conn => hquiet _
  rename_i sanitized hpath
  split
  · rename_i hmod
    have hopen : st.opening t f = some (fileId, joinPath t.receiveDir sanitized) := by
      simp [TransferState.opening, hphase, hkind, hcontrol, hpath, hmod]
    exact TransferState.send_effect (.modified hopen rfl rfl rfl rfl (.inr ⟨_, rfl⟩))
      fun conn => .modified hopen rfl rfl rfl rfl (.inl hphase)
  rename_i hmod
  refine TransferState.send_effect (hio _) fun conn => ?_
  unfold beginFile
  split
  · exact TransferState.send_effect (hio _) fun conn => hquiet _
  rename_i dest hdest
  have hopen : st.opening t f = some (fileId, dest) := by
    simp only [Bool.not_eq_true] at hmod
    simp [TransferState.opening, hphase, hkind, hcontrol, hpath, hmod, show resolveSafePath st.recv.fs t.receiveDir sanitized = .ok dest from hdest]
  split
  · exact hio _
  · rename_i fs hdirs
    exact .opened (a := ⟨fileId, streamId, size, sha256, partPath dest, dest⟩) hopen rfl hdirs rfl rfl rfl
      (receiveOpen_opening _ _ _ _)

/-- **What a frame does** to the disk, the journal and the resume state. -/
theorem transferStep_effect (hw : ∀ a relativePath l, st.phase = .receiving a relativePath l → Writing a st.recv.fs l st.recv)
    (f : Frame) : Effect x t st f (transferStep x t f st) := by
  unfold transferStep
  split
  · rename_i hphase
    have hidle : ∀ a relativePath l, st.phase ≠ .receiving a relativePath l := by simp [hphase]
    split
    · exact .quiet hidle rfl rfl rfl rfl (.inr ⟨_, rfl⟩)
    · rename_i m hkind hcontrol
      unfold onTransferMessage
      split
      · exact onMetadata_effect hphase hkind hcontrol
      · refine TransferState.send_effect ?_ fun conn => ?_
        · exact .quiet hidle rfl rfl rfl rfl (.inr ⟨_, rfl⟩)
        · exact .completed hidle rfl rfl rfl rfl ⟨_, rfl⟩
      · exact .quiet hidle rfl rfl rfl rfl (.inr ⟨_, rfl⟩)
      · refine TransferState.send_effect ?_ fun conn => ?_
        · exact .quiet hidle rfl rfl rfl rfl (.inr ⟨_, rfl⟩)
        · exact .quiet hidle rfl rfl rfl rfl (.inr ⟨_, rfl⟩)
      · exact .quiet hidle rfl rfl rfl rfl (.inl hphase)
    · exact .quiet hidle rfl rfl rfl rfl (.inl hphase)
  · rename_i a relativePath l hphase
    exact .turn hphase (receiveStep_turn (hw _ _ _ hphase) f)
  · rename_i r hphase
    exact .quiet (by simp [hphase]) rfl rfl rfl rfl (.inr ⟨r, hphase⟩)

end

end Nxfr

/-
§13.6: a file that was changed since part of it was received
(`handle_incoming_transfer`, `nxfr-daemon/src/handler.rs`; `receive_file`,
`nxfr-daemon/src/receiver.rs`).

When the journal has bytes of a file and its FILE_METADATA announces another
size or hash than the manifest in the journal, the file is to be turned down
and nothing put behind the bytes that are there. The code compares the hashes,
where the manifest has one.
-/
import Nxfr.Connections
import Nxfr.History

namespace Nxfr

open History

/-- The manifest in the journal has the file, with this size and hash. -/
def ResumeState.Lists (resume : ResumeState) (fileId size : Nat) (sha256 : Digest) : Prop :=
  ∃ entry, resume.manifest.find? (·.fileId == fileId) = some entry ∧ entry.size = size ∧
    entry.sha256 = hexEncode sha256.bytes

/-- What a FILE_METADATA_ACK says. -/
def Frame.metadataAck (f : Frame) : Option (TransferId × Nat × Nat × Bool) := match f.control with
  | .ok (.fileMetadataAck transferId fileId streamId accepted) => some (transferId, fileId, streamId, accepted)
  | _ => none

/-- A FILE_METADATA. -/
def Frame.isMetadata (f : Frame) : Bool := match f.kind, f.control with
  | .control, .ok (.fileMetadata _ _ _ _ _ _ _ _) => true
  | _, _ => false

section

variable (x : Ext) (t : Transfer)

/-- The one answer since `conn` is `accepted = false`, unless the connection was
lost over it. -/
def AnswersNo (fileId streamId : Nat) (conn : Conn) (st' : TransferState) : Prop :=
  ∃ frames, st'.recv.conn.outbox = conn.outbox ++ frames ∧
    (frames.filterMap Frame.metadataAck = [(t.transferId, fileId, streamId, false)] ∨
      frames.filterMap Frame.metadataAck = [] ∧ st'.phase = .returned (.error .io))

/-- A FILE_METADATA took a transfer from `st` to `st'` and was turned down: the
one answer is `accepted = false`, unless the connection was lost over it; no
chunk that follows it is stored; and if the file was turned down and not only
its path, the next FILE_METADATA for it begins with nothing. -/
structure TurnedDown (fileId streamId : Nat) (relativePath : String) (st st' : TransferState) : Prop where
  answered : AnswersNo t fileId streamId st.recv.conn st'
  ignored : ∀ fs : List Frame, (∀ f ∈ fs, f.isMetadata = false) →
    (after (fun st f => transferStep x t f st) st' fs).recv.fs = st'.recv.fs
  apart : (sanitizePath relativePath).isOk = true → ∀ fs : List Frame, (∀ f ∈ fs, f.isMetadata = false) →
    ∀ id transferId streamId relativePath size sha256 mimeType modifiedTime a announced l,
      (transferStep x t (controlFrame id
        (.fileMetadata transferId fileId streamId relativePath size sha256 mimeType modifiedTime))
        (after (fun st f => transferStep x t f st) st' fs)).phase = .receiving a announced l → l = ⟨0, []⟩

end

variable {x : Ext} {t : Transfer} {st : TransferState}

/-! ## Between the files -/

/-- No `receive_file` is under way. -/
def TransferState.outside (st : TransferState) : Prop := ∀ a relativePath l, st.phase ≠ .receiving a relativePath l

/-- The files and what the journal says of them are as they were, and no
`receive_file` is under way. -/
structure TransferState.Stays (st st' : TransferState) : Prop where
  fs : st'.recv.fs = st.recv.fs
  resume : st'.recv.resume = st.recv.resume
  outside : st'.outside

theorem TransferState.Stays.trans {st₁ st₂ st₃ : TransferState} (h : st₁.Stays st₂) (h' : st₂.Stays st₃) : st₁.Stays st₃ :=
  ⟨h'.fs.trans h.fs, h'.resume.trans h.resume, h'.outside⟩

theorem TransferState.send_stays {m : ControlMessage} {k : TransferState → TransferState}
    (hk : ∀ conn, st.Stays (k { st with recv := { st.recv with conn } })) : st.Stays (st.send x m k) := by
  unfold TransferState.send
  split
  · exact ⟨rfl, rfl, fun _ _ _ h => by cases h⟩
  · exact hk _

theorem TransferState.send_id_stays {m : ControlMessage} (hst : st.outside) : st.Stays (st.send x m id) :=
  st.send_stays fun _ => ⟨rfl, rfl, hst⟩

theorem TransferState.send_twice_stays {m m' : ControlMessage} (hst : st.outside) :
    st.Stays (st.send x m fun st => st.send x m' id) :=
  st.send_stays fun conn =>
    (⟨rfl, rfl, hst⟩ : st.Stays { st with recv := { st.recv with conn } }).trans (TransferState.send_id_stays hst)

/-- Outside of `receive_file` only a FILE_METADATA changes the files or what the
journal says of them. -/
theorem transferStep_stays (hst : st.outside) {f : Frame} (hf : f.isMetadata = false) : st.Stays (transferStep x t f st) := by
  unfold transferStep
  split
  · split
    · exact ⟨rfl, rfl, fun _ _ _ h => by cases h⟩
    · rename_i m hkind hcontrol
      unfold onTransferMessage
      split
      · simp [Frame.isMetadata, hkind, hcontrol] at hf
      · exact st.send_stays fun _ => ⟨rfl, rfl, fun _ _ _ h => by cases h⟩
      · exact ⟨rfl, rfl, fun _ _ _ h => by cases h⟩
      · exact st.send_stays fun _ => ⟨rfl, rfl, fun _ _ _ h => by cases h⟩
      · exact ⟨rfl, rfl, hst⟩
    · exact ⟨rfl, rfl, hst⟩
  · rename_i hphase
    exact absurd hphase (hst _ _ _)
  · exact ⟨rfl, rfl, hst⟩

theorem run_stays (hst : st.outside) {fs : List Frame} (hfs : ∀ f ∈ fs, f.isMetadata = false) :
    st.Stays (after (fun st f => transferStep x t f st) st fs) := by
  induction fs using List.reverseRecOn with
  | nil => exact ⟨rfl, rfl, hst⟩
  | append_singleton fs f ih =>
    have hrun := ih fun f hf => hfs f (List.mem_append_left _ hf)
    rw [after_snoc]
    exact hrun.trans (transferStep_stays hrun.outside (hfs f (by simp)))

/-! ## The next FILE_METADATA -/

theorem receiveOpen_fresh {now : Nat} {a : RecvArgs} {s : RecvState} (h : s.resume.hasPartial a.fileId = false)
    {l : RecvLocals} (hl : (receiveOpen x now a s).1 = .next l) : l = ⟨0, []⟩ := by
  rw [receiveOpen, h, Bool.false_and, if_neg Bool.false_ne_true] at hl
  split at hl
  · cases hl
  · cases hl
    rfl

theorem ResumeState.begin_fresh {resume : ResumeState} {fileId : Nat} (h : resume.hasPartial fileId = false) (part : Path) :
    (resume.begin fileId part).hasPartial fileId = false := by
  rw [ResumeState.begin, h, if_neg Bool.false_ne_true]
  simp [ResumeState.hasPartial, ResumeState.received]

theorem afterReceive_receiving {a a' : RecvArgs} {relativePath announced : String} {r : Flow RecvLocals × RecvState}
    {l : RecvLocals} (h : (afterReceive a relativePath st r).phase = .receiving a' announced l) : r.1 = .next l := by
  obtain ⟨flow, recv⟩ := r
  unfold afterReceive at h
  split at h
  · rename_i heq
    cases heq
    cases h
    rfl
  · cases h
  · cases h

/-- A file of which the journal has nothing begins with nothing. -/
theorem beginFile_fresh {fileId streamId : Nat} {relativePath sanitized : String} {size : Nat} {sha256 : Digest}
    (hst : st.outside) (hnew : st.recv.resume.hasPartial fileId = false) {a : RecvArgs} {announced : String} {l : RecvLocals}
    (h : (beginFile x t fileId streamId relativePath sanitized size sha256 st).phase = .receiving a announced l) :
    l = ⟨0, []⟩ := by
  unfold beginFile at h
  split at h
  · exact absurd h ((st.send_id_stays hst).outside _ _ _)
  · split at h
    · cases h
    · exact receiveOpen_fresh (ResumeState.begin_fresh hnew _) (afterReceive_receiving h)

theorem onMetadata_fresh {fileId streamId : Nat} {relativePath : String} {size : Nat} {sha256 : Digest}
    (hst : st.outside) (hnew : st.recv.resume.hasPartial fileId = false) {a : RecvArgs} {announced : String} {l : RecvLocals}
    (h : (onMetadata x t fileId streamId relativePath size sha256 st).phase = .receiving a announced l) : l = ⟨0, []⟩ := by
  have hmod : isModified st.recv.resume fileId sha256 = false := by simp [isModified, hnew]
  unfold onMetadata at h
  split at h
  · exact absurd h ((st.send_twice_stays hst).outside _ _ _)
  · rw [hmod, if_neg Bool.false_ne_true] at h
    unfold TransferState.send at h
    split at h
    · cases h
    · refine beginFile_fresh ?_ ?_ h
      · exact hst
      · exact hnew

/-! ## What is answered -/

theorem Conn.sendControl_outbox {c c' : Conn} {m : ControlMessage} (h : c.sendControl x m = some c') :
    ∃ id, c'.outbox = c.outbox ++ [controlFrame id m] := by
  unfold Conn.sendControl Conn.write at h
  split at h
  · cases h
  · split at h
    · cases h
    · simp only [Option.map_some, Option.some.injEq] at h
      exact ⟨c.nextMessageId, by rw [← h]⟩

theorem TransferState.send_answers (t : Transfer) (fileId streamId : Nat) (st : TransferState) :
    AnswersNo t fileId streamId st.recv.conn (st.send x (.fileMetadataAck t.transferId fileId streamId false) id) := by
  unfold TransferState.send
  split
  · exact ⟨[], by simp, .inr ⟨rfl, rfl⟩⟩
  · rename_i conn hsend
    obtain ⟨id, hid⟩ := Conn.sendControl_outbox hsend
    exact ⟨[_], hid, .inl rfl⟩

/-- A message that is no FILE_METADATA_ACK, and then the answer. -/
theorem TransferState.send_then_answers {m : ControlMessage} (hm : ∀ id, (controlFrame id m).metadataAck = none)
    (t : Transfer) (fileId streamId : Nat) (st : TransferState) : AnswersNo t fileId streamId st.recv.conn
      (st.send x m fun st => st.send x (.fileMetadataAck t.transferId fileId streamId false) id) := by
  rw [TransferState.send]
  split
  · exact ⟨[], by simp, .inr ⟨rfl, rfl⟩⟩
  · rename_i conn hsend
    obtain ⟨id, hid⟩ := Conn.sendControl_outbox hsend
    obtain ⟨frames, hframes, hacks⟩ :=
      TransferState.send_answers (x := x) t fileId streamId { st with recv := { st.recv with conn } }
    refine ⟨controlFrame id m :: frames, ?_, ?_⟩
    · rw [List.append_cons, ← hid]
      exact hframes
    · rw [List.filterMap_cons_none (hm id)]
      exact hacks

/-- After `accepted = true` nothing more is answered. -/
theorem beginFile_answers {fileId streamId : Nat} {relativePath sanitized : String} {size : Nat} {sha256 : Digest} :
    ∃ frames, (beginFile x t fileId streamId relativePath sanitized size sha256 st).recv.conn.outbox =
        st.recv.conn.outbox ++ frames ∧ frames.filterMap Frame.metadataAck = [] := by
  unfold beginFile
  split
  · unfold TransferState.send
    split
    · exact ⟨[], by simp, rfl⟩
    · rename_i conn hsend
      obtain ⟨id, hid⟩ := Conn.sendControl_outbox hsend
      exact ⟨[_], hid, rfl⟩
  · split
    · exact ⟨[], by simp, rfl⟩
    · refine ⟨[], ?_, rfl⟩
      rw [afterReceive_recv, receiveOpen_conn, List.append_nil]

/-! ## The rule -/

/-- The manifest in the journal has a hash for the file, and it is another. -/
def ResumeState.OtherHash (resume : ResumeState) (fileId : Nat) (sha256 : Digest) : Prop :=
  ∃ entry, resume.manifest.find? (·.fileId == fileId) = some entry ∧ entry.sha256 ≠ "" ∧
    entry.sha256 ≠ hexEncode sha256.bytes

theorem isModified_iff {resume : ResumeState} {fileId : Nat} {sha256 : Digest} (h : resume.hasPartial fileId = true) :
    isModified resume fileId sha256 = true ↔ resume.OtherHash fileId sha256 := by
  simp only [isModified, h, Bool.true_and, Bool.and_eq_true, bne_iff_ne, ResumeState.OtherHash]
  cases hfind : resume.manifest.find? (·.fileId == fileId) with
  | none => simp
  | some entry => simp

theorem run_returned {r : Except Fail Unit} (h : st.phase = .returned r) (fs : List Frame) :
    after (fun st f => transferStep x t f st) st fs = st := by
  induction fs using List.reverseRecOn with
  | nil => rfl
  | append_singleton fs f ih =>
    rw [after_snoc, ih, transferStep, h]

/-- After a FILE_METADATA that leaves the transfer outside of `receive_file`. -/
theorem TurnedDown.of_outside {fileId streamId : Nat} {relativePath : String} {st st' : TransferState}
    (hanswered : AnswersNo t fileId streamId st.recv.conn st') (hout : st'.outside)
    (hnew : (sanitizePath relativePath).isOk = true → st'.recv.resume.hasPartial fileId = false ∨
      st'.phase = .returned (.error .io)) : TurnedDown x t fileId streamId relativePath st st' := by
  refine ⟨hanswered, ?_, ?_⟩
  · intro fs hfs
    exact (run_stays hout hfs).fs
  · intro hsane fs hfs id transferId streamId relativePath size sha256 mimeType modifiedTime a announced l h
    rcases hnew hsane with hnew | hlost
    · have hstays := run_stays (x := x) (t := t) hout hfs
      generalize after (fun st f => transferStep x t f st) st' fs = st'' at *
      unfold transferStep at h
      split at h
      · exact onMetadata_fresh hstays.outside (hstays.resume ▸ hnew) h
      · rename_i hphase
        exact absurd hphase (hstays.outside _ _ _)
      · rename_i hphase
        exact absurd (hphase.symm.trans h) (by simp)
    · rw [run_returned hlost, transferStep, hlost] at h
      exact absurd (hlost.symm.trans h) (by simp)

theorem TurnedDown.of_send {fileId streamId : Nat} {relativePath : String} {st st₁ : TransferState} (hout : st₁.outside)
    (hconn : st₁.recv.conn = st.recv.conn) (hnew : st₁.recv.resume.hasPartial fileId = false) :
    TurnedDown x t fileId streamId relativePath st
      (st₁.send x (.fileMetadataAck t.transferId fileId streamId false) id) := by
  refine .of_outside ?_ (TransferState.send_id_stays hout).outside fun _ => .inl ?_
  · rw [← hconn]
    exact st₁.send_answers t fileId streamId
  · rw [(TransferState.send_id_stays hout).resume]
    exact hnew

/-- A file that `accepted = true` has been sent for is not turned down. -/
theorem not_turnedDown {fileId streamId : Nat} {relativePath sanitized : String} {size : Nat} {sha256 : Digest} {conn : Conn}
    (hsend : st.recv.conn.sendControl x (.fileMetadataAck t.transferId fileId streamId true) = some conn) :
    ¬ TurnedDown x t fileId streamId relativePath st
      (beginFile x t fileId streamId relativePath sanitized size sha256
        { st with recv := { st.recv with conn }, phase := .negotiate }) := by
  intro hturned
  obtain ⟨frames, hframes, hacks⟩ := hturned.answered
  obtain ⟨ackId, hack⟩ := Conn.sendControl_outbox hsend
  obtain ⟨rest, hrest, hnone⟩ := @beginFile_answers x t { st with recv := { st.recv with conn }, phase := .negotiate }
    fileId streamId relativePath sanitized size sha256
  have hsent : frames = [controlFrame ackId (.fileMetadataAck t.transferId fileId streamId true)] ++ rest := by
    refine List.append_cancel_left (hframes.symm.trans (hrest.trans ?_))
    rw [← List.append_assoc, ← hack]
  rw [hsent, List.filterMap_append, hnone, List.append_nil] at hacks
  rcases hacks with hacks | ⟨hacks, _⟩
  · simp [Frame.metadataAck, controlFrame] at hacks
  · simp [Frame.metadataAck, controlFrame] at hacks

/-- **A modified file.** When the journal has bytes of a file and its
FILE_METADATA has another size or hash than the manifest there, or the manifest
does not have it, the file is turned down exactly when its path is turned down,
or the manifest has a hash for it and that is the one that differs; or the
connection does not take the answer. -/
theorem modified_turned_down_iff (x : Ext) (t : Transfer) (st : TransferState) (id : Nat) (transferId : TransferId)
    (fileId streamId : Nat) (relativePath : String) (size : Nat) (sha256 : Digest) (mimeType : Option String)
    (modifiedTime : Option Nat) :
    (st.recv.resume.hasPartial fileId = true → ¬ st.recv.resume.Lists fileId size sha256 →
        TurnedDown x t fileId streamId relativePath st (transferStep x t (controlFrame id
          (.fileMetadata transferId fileId streamId relativePath size sha256 mimeType modifiedTime))
          { st with phase := .negotiate })) ↔
      (st.recv.resume.hasPartial fileId = true → ¬ st.recv.resume.Lists fileId size sha256 →
        (∃ e, sanitizePath relativePath = .error e) ∨ st.recv.resume.OtherHash fileId sha256 ∨
          st.recv.conn.sendControl x (.fileMetadataAck t.transferId fileId streamId true) = none) := by
  refine imp_congr_right fun hpartial => imp_congr_right fun _ => ?_
  have hstep : transferStep x t (controlFrame id
      (.fileMetadata transferId fileId streamId relativePath size sha256 mimeType modifiedTime))
      { st with phase := .negotiate } =
        onMetadata x t fileId streamId relativePath size sha256 { st with phase := .negotiate } := rfl
  have hout : TransferState.outside { st with phase := .negotiate } := fun _ _ _ h => by cases h
  rw [hstep, onMetadata]
  cases hsane : sanitizePath relativePath with
  | error e =>
    simp only [Except.error.injEq, exists_eq', true_or, iff_true]
    refine .of_outside ?_ (TransferState.send_twice_stays hout).outside fun hok => ?_
    · exact TransferState.send_then_answers (fun _ => rfl) t fileId streamId { st with phase := .negotiate }
    · rw [hsane] at hok
      cases hok
  | ok sanitized =>
    simp only [reduceCtorEq, exists_false, false_or]
    by_cases hmod : isModified st.recv.resume fileId sha256 = true
    · refine iff_of_true ?_ (.inl ((isModified_iff hpartial).mp hmod))
      rw [if_pos hmod]
      refine .of_send (fun _ _ _ h => by cases h) rfl ?_
      simp [ResumeState.hasPartial, ResumeState.received]
    · have hother : ¬ st.recv.resume.OtherHash fileId sha256 := fun h => hmod ((isModified_iff hpartial).mpr h)
      rw [if_neg hmod, TransferState.send]
      cases hsend : st.recv.conn.sendControl x (.fileMetadataAck t.transferId fileId streamId true) with
      | none =>
        refine iff_of_true ?_ (.inr rfl)
        exact .of_outside ⟨[], by simp, .inr ⟨rfl, rfl⟩⟩ (fun _ _ _ h => by cases h) fun _ => .inr rfl
      | some conn =>
        exact iff_of_false (not_turnedDown hsend) (by simp [hother])

/-- Part of `a.txt` is here: a byte `a`, of two that were announced. -/
def sampleCut : TransferState :=
  { recv :=
      { fs := sampleFs.set ["inbox", "a.txt.part"] (some (.file [0x61]))
        journal := fun _ => none
        resume :=
          { freshResume sampleTransfer with
            manifest := [⟨1, "a.txt", 2, hexEncode (sampleHash [0x61]).bytes⟩]
            files := (∅ : AList _).insert 1 ⟨1, [(0, 1)], none, ["inbox", "a.txt.part"]⟩ }
        conn := {} }
    receivedFiles := 0, phase := .negotiate, stored := [] }

/-- The same, and the manifest does not have the file. -/
def sampleUnlisted : TransferState :=
  { sampleCut with
    recv := { sampleCut.recv with resume := { sampleCut.recv.resume with manifest := [] } } }

/-- The size has changed and the hash has not, or the manifest does not have the
file: the file is accepted, and its chunks go behind the byte that is here. -/
theorem modified_accepted :
    (sampleCut.recv.resume.hasPartial 1 = true ∧ ¬ sampleCut.recv.resume.Lists 1 3 (sampleHash [0x61]) ∧
        ¬ TurnedDown sampleExt sampleTransfer 1 1 "a.txt" sampleCut (transferStep sampleExt sampleTransfer
          (controlFrame 3 (.fileMetadata sampleId 1 1 "a.txt" 3 (sampleHash [0x61]) none none)) sampleCut) ∧
        ∃ a, (transferStep sampleExt sampleTransfer
          (controlFrame 3 (.fileMetadata sampleId 1 1 "a.txt" 3 (sampleHash [0x61]) none none)) sampleCut).phase =
            .receiving a "a.txt" ⟨1, [0x61]⟩) ∧
      (sampleUnlisted.recv.resume.hasPartial 1 = true ∧ ¬ sampleUnlisted.recv.resume.Lists 1 3 (sampleHash []) ∧
        ¬ TurnedDown sampleExt sampleTransfer 1 1 "a.txt" sampleUnlisted (transferStep sampleExt sampleTransfer
          (controlFrame 3 (.fileMetadata sampleId 1 1 "a.txt" 3 (sampleHash []) none none)) sampleUnlisted) ∧
        ∃ a, (transferStep sampleExt sampleTransfer
          (controlFrame 3 (.fileMetadata sampleId 1 1 "a.txt" 3 (sampleHash []) none none)) sampleUnlisted).phase =
            .receiving a "a.txt" ⟨1, [0x61]⟩) := by
  refine ⟨⟨by decide, ?_, ?_, _, rfl⟩, by decide, ?_, ?_, _, rfl⟩
  · intro hlists
    obtain ⟨entry, hfind, hsize, _⟩ := hlists
    have hentry : entry = ⟨1, "a.txt", 2, hexEncode (sampleHash [0x61]).bytes⟩ := Option.some.inj (hfind.symm.trans rfl)
    rw [hentry] at hsize
    cases hsize
  · have haccepted : transferStep sampleExt sampleTransfer
        (controlFrame 3 (.fileMetadata sampleId 1 1 "a.txt" 3 (sampleHash [0x61]) none none)) sampleCut =
          beginFile sampleExt sampleTransfer 1 1 "a.txt" "a.txt" 3 (sampleHash [0x61]) { sampleCut with
            recv := { sampleCut.recv with conn := wrote 1 (.fileMetadataAck sampleId 1 1 true) }
            phase := .negotiate } := rfl
    rw [haccepted]
    exact not_turnedDown rfl
  · intro hlists
    obtain ⟨entry, hfind, _⟩ := hlists
    cases hfind
  · have haccepted : transferStep sampleExt sampleTransfer
        (controlFrame 3 (.fileMetadata sampleId 1 1 "a.txt" 3 (sampleHash []) none none)) sampleUnlisted =
          beginFile sampleExt sampleTransfer 1 1 "a.txt" "a.txt" 3 (sampleHash []) { sampleUnlisted with
            recv := { sampleUnlisted.recv with conn := wrote 1 (.fileMetadataAck sampleId 1 1 true) }
            phase := .negotiate } := rfl
    rw [haccepted]
    exact not_turnedDown rfl

end Nxfr

/-
What was offered and what is stored, in both receivers
(`handle_incoming_transfer`, `do_receive_file`), whatever frames the peer
sends.

The manifest the user agreed to and the FILE_METADATA messages that decide
what is stored are never compared, and TRANSFER_COMPLETE is acknowledged
whatever was stored before it. Where the peer keeps to the manifest, each
receiver is an `Intake` of its file entries, frame by frame; from there come
the two results.
-/
import Nxfr.Connections
import Nxfr.Intake
import Nxfr.MobilePair

namespace Nxfr

open Intake (Step Steps Agrees)

/-! ## Entries, announcements, acknowledgements -/

/-- The entry a manifest has for a file. -/
def listedFile (fileId : Nat) (relativePath : String) (size : Nat) (sha256 : Digest) : ManifestEntry :=
  { fileId, relativePath, size := some size, sha256 := some sha256, entryType := .file }

def StoredFile.entry (s : StoredFile) : ManifestEntry := listedFile s.fileId s.relativePath s.size s.sha256

/-- The File entries of a manifest. -/
def fileEntries (manifest : List ManifestEntry) : List ManifestEntry :=
  manifest.filter fun e => e.entryType == .file

/-- A TRANSFER_ACK with status Success. -/
def Frame.acksSuccess (f : Frame) : Bool := match f.control with
  | .ok (.transferAck _ .success _) => true
  | _ => false

/-- Success has been acknowledged. -/
def Conn.acked (c : Conn) : Bool := c.outbox.any Frame.acksSuccess

theorem Conn.sendControl_acked {x : Ext} {c c' : Conn} {m : ControlMessage} (h : c.sendControl x m = some c') :
    c'.acked = (c.acked || (controlFrame 0 m).acksSuccess) := by
  unfold Conn.sendControl Conn.write at h
  split at h
  · cases h
  · split at h
    · cases h
    · simp only [Option.map_some, Option.some.injEq] at h
      rw [← h]
      simp [Conn.acked, Frame.acksSuccess, controlFrame]

/-! ## The daemon -/

/-- The file of a `receive_file` under way, as a manifest lists it. -/
def RecvArgs.entry (a : RecvArgs) (relativePath : String) : ManifestEntry :=
  listedFile a.fileId relativePath a.expectedSize a.expectedHash

namespace TransferState

/-- The file a frame announces to `handle_incoming_transfer`: a FILE_METADATA
at the top of the loop, with a path it takes and, for a file of which part is
here, the content it was part of. -/
def announced (st : TransferState) (f : Frame) : Option ManifestEntry := match st.phase, f.kind, f.control with
  | .negotiate, .control, .ok (.fileMetadata _ fileId _ relativePath size sha256 _ _) =>
    if (sanitizePath relativePath).isOk && !isModified st.recv.resume fileId sha256 then
      some (listedFile fileId relativePath size sha256)
    else none
  | _, _, _ => none

/-- TRANSFER_COMPLETE at the top of the loop. -/
def completes (st : TransferState) (f : Frame) : Bool := match st.phase, f.kind, f.control with
  | .negotiate, .control, .ok (.transferComplete _) => true
  | _, _, _ => false

/-- The transfer as an intake, `earlier` being what earlier connections of it
stored. -/
def intake (earlier : List StoredFile) (st : TransferState) : Intake.State ManifestEntry :=
  { current := match st.phase with
      | .receiving a relativePath _ => some (a.entry relativePath)
      | _ => none
    taken := (earlier ++ st.stored).map (·.entry)
    done := st.recv.conn.acked }

end TransferState

/-- What was written acknowledges nothing. -/
theorem Conn.Adds.acked {c c' : Conn} (h : c.Adds (fun f => f.acksSuccess = false) c') : c'.acked = c.acked := by
  obtain ⟨fs, hfs, hP⟩ := h
  have hnone : fs.any Frame.acksSuccess = false := by
    rw [List.any_eq_false]
    intro f hf
    simp [hP f hf]
  rw [Conn.acked, Conn.acked, hfs, List.any_append, hnone, Bool.or_false]

/-- `receive_file` never acknowledges the transfer. -/
theorem receiveStep_acked {x : Ext} {now : Nat} {a : RecvArgs} {l : RecvLocals} {f : Frame} {s : RecvState} :
    (receiveStep x now a l f s).2.conn.acked = s.conn.acked :=
  (receiveStep_adds (fun _ _ _ _ _ => rfl) fun _ _ _ _ => rfl).acked

section

variable {x : Ext} {t : Transfer} {agreed : List ManifestEntry} {mayFinish : List ManifestEntry → Prop}
  {earlier : List StoredFile} {st : TransferState} {i : Intake.State ManifestEntry}

/-- A write of the transfer, other than its acknowledgement of success. -/
theorem TransferState.send_steps {m : ControlMessage} {k : TransferState → TransferState}
    (hi : st.intake earlier = i) (hm : (controlFrame 0 m).acksSuccess = false)
    (hk : ∀ st' : TransferState, st'.intake earlier = i → Steps agreed mayFinish i ((k st').intake earlier)) :
    Steps agreed mayFinish i ((st.send x m k).intake earlier) := by
  subst hi
  unfold TransferState.send
  split
  · exact .single .giveUp
  · rename_i conn hc
    refine hk _ ?_
    simp only [intake, Conn.sendControl_acked hc, hm, Bool.or_false]

theorem TransferState.send_id_steps {m : ControlMessage} (hi : st.intake earlier = i)
    (hm : (controlFrame 0 m).acksSuccess = false) : Steps agreed mayFinish i ((st.send x m id).intake earlier) :=
  send_steps hi hm fun _ hi' => hi' ▸ .refl

/-- After a piece of `receive_file` its file is under way, given up or
taken. -/
theorem afterReceive_steps {a : RecvArgs} {relativePath : String} {r : Flow RecvLocals × RecvState}
    (hcur : i.current = some (a.entry relativePath)) (htaken : i.taken = (earlier ++ st.stored).map (·.entry))
    (hdone : i.done = r.2.conn.acked) : Steps agreed mayFinish i ((afterReceive a relativePath st r).intake earlier) := by
  obtain ⟨current, taken, done⟩ := i
  simp only at hcur htaken hdone
  subst hcur htaken hdone
  rcases r with ⟨l | e | dest, recv⟩
  · exact .refl
  · exact .single .giveUp
  · have htaken : ∀ file : StoredFile, (earlier ++ (st.stored ++ [file])).map (·.entry) =
        (earlier ++ st.stored).map (·.entry) ++ [file.entry] := by simp
    simp only [afterReceive, TransferState.intake, htaken]
    exact .single (.take rfl)

/-- A file that is still wanted, after the acknowledgement of its metadata. -/
theorem beginFile_steps {fileId streamId size : Nat} {relativePath sanitized : String} {sha256 : Digest}
    (hi : st.intake earlier = i)
    (hwanted : i.taken.count (listedFile fileId relativePath size sha256) <
      agreed.count (listedFile fileId relativePath size sha256)) :
    Steps agreed mayFinish i ((beginFile x t fileId streamId relativePath sanitized size sha256 st).intake earlier) := by
  unfold beginFile
  split
  · exact TransferState.send_id_steps hi rfl
  split
  · subst hi
    exact .single .giveUp
  · subst hi
    dsimp only
    refine Relation.ReflTransGen.head (.announce hwanted) ?_
    refine afterReceive_steps rfl rfl ?_
    rw [receiveOpen_conn]
    rfl

theorem onMetadata_steps {fileId streamId size : Nat} {relativePath : String} {sha256 : Digest}
    (hwanted : (sanitizePath relativePath).isOk = true → isModified st.recv.resume fileId sha256 = false →
      (st.intake earlier).taken.count (listedFile fileId relativePath size sha256) <
        agreed.count (listedFile fileId relativePath size sha256)) :
    Steps agreed mayFinish (st.intake earlier)
      ((onMetadata x t fileId streamId relativePath size sha256 st).intake earlier) := by
  unfold onMetadata
  split
  · exact TransferState.send_steps rfl rfl fun st' hi => TransferState.send_id_steps hi rfl
  · rename_i sanitized hpath
    split
    · exact TransferState.send_id_steps rfl rfl
    · rename_i hmod
      refine TransferState.send_steps rfl rfl fun st' hi => beginFile_steps hi ?_
      exact hwanted (by rw [hpath]; rfl) (by simpa using hmod)

/-- **A frame, to the daemon, is steps of the intake** where what it announces
is still wanted and TRANSFER_COMPLETE is not early. -/
theorem transferStep_steps {f : Frame}
    (hann : ∀ e, st.announced f = some e → (st.intake earlier).taken.count e < agreed.count e)
    (hfin : st.completes f = true → mayFinish (st.intake earlier).taken) :
    Steps agreed mayFinish (st.intake earlier) ((transferStep x t f st).intake earlier) := by
  unfold transferStep
  split
  · rename_i hphase
    split
    · exact .single .giveUp
    · rename_i m hkind hcontrol
      unfold onTransferMessage
      split
      · refine onMetadata_steps fun hpath hmod => hann _ ?_
        simp [TransferState.announced, hphase, hkind, hcontrol, hpath, hmod]
      · unfold TransferState.send
        split
        · exact .single .giveUp
        · rename_i conn hc
          have hdone : conn.acked = true := by simp [Conn.sendControl_acked hc, Frame.acksSuccess, controlFrame]
          simp only [TransferState.intake, hphase, hdone] at hfin ⊢
          exact .single (.finish (hfin (by simp [TransferState.completes, hphase, hkind, hcontrol])))
      · exact .single .giveUp
      · exact TransferState.send_steps rfl rfl fun st' hi => hi ▸ .single .giveUp
      · exact .refl
    · exact .refl
  · rename_i a relativePath l hphase
    refine afterReceive_steps (by simp [TransferState.intake, hphase]) rfl ?_
    rw [receiveStep_acked]
    rfl
  · exact .refl

/-- What the daemon keeps: the `.part` file of the file under way holds what
was hashed of it, and a stored file had the bytes of its hash. -/
structure TransferState.Verified (x : Ext) (st : TransferState) : Prop where
  writing : ∀ a relativePath l, st.phase = .receiving a relativePath l → Writing a st.recv.fs l st.recv
  stored : ∀ s ∈ st.stored, x.sha256 s.content = s.sha256

theorem transferStep_verified (hv : st.Verified x) (f : Frame) : (transferStep x t f st).Verified x := by
  have he : Effect x t st f _ := transferStep_effect hv.writing f
  refine ⟨fun a relativePath l hphase => (he.receiving hv.writing hphase).2.2, fun s hs => ?_⟩
  rcases he.stored with hstored | ⟨file, hstored, _, hhash⟩
  · rw [hstored] at hs
    exact hv.stored s hs
  · rw [hstored] at hs
    rcases List.mem_append.mp hs with hs | hs
    · exact hv.stored s hs
    · rw [List.mem_singleton.mp hs]
      exact hhash

end

/-! ## The mobile library -/

/-- The file of a turn of the outer loop, as a manifest lists it. -/
def MobileFile.entry (a : MobileFile) : ManifestEntry := listedFile a.fileId a.relativePath a.expectedSize a.expectedHash

namespace MobileState

/-- The file a frame announces to `do_receive_file`: a FILE_METADATA at the
top of the outer loop. -/
def announced (st : MobileState) (f : Frame) : Option ManifestEntry := match st.phase, f.kind, f.control with
  | .files, .control, .ok (.fileMetadata _ fileId _ relativePath size sha256 _ _) =>
    some (listedFile fileId relativePath size sha256)
  | _, _, _ => none

/-- TRANSFER_COMPLETE at the top of the outer loop. -/
def completes (st : MobileState) (f : Frame) : Bool := match st.phase, f.kind, f.control with
  | .files, .control, .ok (.transferComplete _) => true
  | _, _, _ => false

def intake (st : MobileState) : Intake.State ManifestEntry :=
  { current := match st.phase with
      | .chunks a _ => some a.entry
      | _ => none
    taken := st.stored.map (·.entry)
    done := st.conn.acked }

/-- What `do_receive_file` keeps: the temporary file holds what was hashed, a
stored file had the bytes of its hash, and the counter counts them. -/
structure Verified (x : Ext) (st : MobileState) : Prop where
  writing : ∀ a l, st.phase = .chunks a l → st.fs a.tmpPath = some (.file l.hasher)
  stored : ∀ s ∈ st.stored, x.sha256 s.content = s.sha256
  count : st.receivedFiles = st.stored.length

end MobileState

section

variable {x : Ext} {cfg : MobileConfig} {offer : PendingOffer} {mayFinish : List ManifestEntry → Prop} {st : MobileState}

theorem MobileState.Verified.of_phase {st' : MobileState} (hv : st.Verified x) (hs : st'.stored = st.stored)
    (hc : st'.receivedFiles = st.receivedFiles) (hp : ∀ a l, st'.phase ≠ .chunks a l) : st'.Verified x where
  writing a l h := absurd h (hp a l)
  stored := hs ▸ hv.stored
  count := by rw [hc, hs, hv.count]

/-- After the outer loop, where it may end. -/
theorem sendTransferAck_steps {i : Intake.State ManifestEntry} {agreed : List ManifestEntry} (hcur : i.current = none)
    (htaken : i.taken = st.stored.map (·.entry)) (hdone : i.done = st.conn.acked) (hfin : mayFinish i.taken) :
    Steps agreed mayFinish i (sendTransferAck x offer st).intake := by
  obtain ⟨current, taken, done⟩ := i
  simp only at hcur htaken hdone
  subst hcur htaken hdone
  unfold sendTransferAck MobileState.send
  split
  · exact .refl
  · rename_i conn hc
    have hdone : conn.acked = true := by simp [Conn.sendControl_acked hc, Frame.acksSuccess, controlFrame]
    simp only [MobileState.intake, hdone]
    exact .single (.finish hfin)

theorem sendTransferAck_verified (hv : st.Verified x) : (sendTransferAck x offer st).Verified x := by
  unfold sendTransferAck MobileState.send
  split
  · exact hv.of_phase rfl rfl nofun
  · exact hv.of_phase rfl rfl nofun

/-- The end of a file: it is given up or taken, and with the last file the
transfer is acknowledged. -/
theorem finishMobile_steps {i : Intake.State ManifestEntry} {a : MobileFile} {l : RecvLocals}
    (hcount : ∀ taken : List ManifestEntry, (fileEntries offer.manifest).length ≤ taken.length → mayFinish taken)
    (hcur : i.current = some a.entry) (htaken : i.taken = st.stored.map (·.entry)) (hdone : i.done = st.conn.acked)
    (hnum : st.receivedFiles = st.stored.length) :
    Steps (fileEntries offer.manifest) mayFinish i (finishMobile x cfg offer a l st).intake := by
  obtain ⟨current, taken, done⟩ := i
  simp only at hcur htaken hdone
  subst hcur htaken hdone
  unfold finishMobile
  split
  · exact .single .giveUp
  · dsimp only
    split
    · exact .single .giveUp
    · refine .head (.take rfl) ?_
      unfold nextFile
      split
      · simp only [MobileState.intake, List.map_append]
        exact .refl
      · rename_i hlast
        refine sendTransferAck_steps rfl ?_ rfl (hcount _ ?_)
        · simp only [List.map_append]
          rfl
        · simp only [PendingOffer.expectedFiles] at hlast
          simp only [fileEntries, List.length_append, List.length_map, List.length_singleton]
          omega

theorem finishMobile_verified {a : MobileFile} {l : RecvLocals} (htmp : st.fs a.tmpPath = some (.file l.hasher))
    (hs : ∀ s ∈ st.stored, x.sha256 s.content = s.sha256) (hnum : st.receivedFiles = st.stored.length) :
    (finishMobile x cfg offer a l st).Verified x := by
  unfold finishMobile
  split
  · exact ⟨fun _ _ h => (by cases h), hs, hnum⟩
  rename_i hhash
  dsimp only
  split
  · exact ⟨fun _ _ h => (by cases h), hs, hnum⟩
  rename_i fs hr
  have hread : fs.read (resolveCollision cfg.now st.fs a.finalPath) = some l.hasher := by
    simp only [Disk.Fs.rename, htmp, Option.ite_none_right_eq_some, Option.some.injEq] at hr
    rw [← hr.2, Disk.Fs.read, set_self]
  unfold nextFile
  have hs' : ∀ s ∈ st.stored ++ [{ fileId := a.fileId, relativePath := a.relativePath, size := a.expectedSize
                                   sha256 := a.expectedHash, dest := resolveCollision cfg.now st.fs a.finalPath
                                   content := (fs.read (resolveCollision cfg.now st.fs a.finalPath)).getD [] }],
      x.sha256 s.content = s.sha256 := by
    intro s hmem
    rcases List.mem_append.mp hmem with hmem | hmem
    · exact hs s hmem
    · rw [List.mem_singleton.mp hmem, hread]
      simpa using hhash
  split
  · exact ⟨fun _ _ h => (by cases h), hs', by simp [hnum]⟩
  · unfold sendTransferAck MobileState.send
    split
    · exact ⟨fun _ _ h => (by cases h), hs', by simp [hnum, MobileState.ret]⟩
    · exact ⟨fun _ _ h => (by cases h), hs', by simp [hnum]⟩

theorem mobileChunk_steps {a : MobileFile} {l : RecvLocals} {f : Frame}
    (hcount : ∀ taken : List ManifestEntry, (fileEntries offer.manifest).length ≤ taken.length → mayFinish taken)
    (hphase : st.phase = .chunks a l) (hnum : st.receivedFiles = st.stored.length) :
    Steps (fileEntries offer.manifest) mayFinish st.intake (mobileChunk x cfg offer a l f st).intake := by
  unfold mobileChunk
  split
  · exact .single .giveUp
  dsimp only
  split
  · exact .single .giveUp
  split
  · exact .single .giveUp
  split
  · exact .single .giveUp
  split
  · exact .single .giveUp
  rename_i fs _ _ conn hc
  have hdone : conn.acked = st.conn.acked := by simp [Conn.sendControl_acked hc, Frame.acksSuccess, controlFrame]
  split
  · exact finishMobile_steps hcount (by simp [MobileState.intake, hphase]) rfl hdone.symm hnum
  · simp only [MobileState.intake, hphase, hdone]
    exact .refl

theorem mobileChunk_verified {a : MobileFile} {l : RecvLocals} {f : Frame} (hv : st.Verified x)
    (hphase : st.phase = .chunks a l) : (mobileChunk x cfg offer a l f st).Verified x := by
  unfold mobileChunk
  split
  · exact hv.of_phase rfl rfl (fun _ _ h => by cases h)
  dsimp only
  split
  · exact hv.of_phase rfl rfl (fun _ _ h => by cases h)
  split
  · exact hv.of_phase rfl rfl (fun _ _ h => by cases h)
  split
  · exact hv.of_phase rfl rfl (fun _ _ h => by cases h)
  rename_i fs happend
  have htmp : fs a.tmpPath = some (.file (l.hasher ++ f.payload.drop 40)) := by
    simp only [Disk.Fs.append, hv.writing a l hphase, Option.some.injEq] at happend
    rw [← happend, set_self]
  split
  · exact hv.of_phase rfl rfl (fun _ _ h => by cases h)
  split
  · exact finishMobile_verified htmp hv.stored hv.count
  · refine ⟨fun a' l' h => ?_, hv.stored, hv.count⟩
    simp only [MobilePhase.chunks.injEq] at h
    obtain ⟨rfl, rfl⟩ := h
    exact htmp

theorem mobileMetadata_steps {fileId streamId size : Nat} {relativePath : String} {sha256 : Digest}
    (hwanted : st.intake.taken.count (listedFile fileId relativePath size sha256) <
      (fileEntries offer.manifest).count (listedFile fileId relativePath size sha256)) :
    Steps (fileEntries offer.manifest) mayFinish st.intake
      (mobileMetadata x cfg offer fileId streamId relativePath size sha256 st).intake := by
  unfold mobileMetadata MobileState.send
  split
  · exact .single .giveUp
  rename_i conn hc
  have hdone : conn.acked = st.conn.acked := by simp [Conn.sendControl_acked hc, Frame.acksSuccess, controlFrame]
  unfold openTmp
  split
  · simp only [MobileState.ret, MobileState.intake, hdone]
    exact .single .giveUp
  dsimp only
  split
  · simp only [MobileState.ret, MobileState.intake, hdone]
    exact .single .giveUp
  · simp only [MobileState.intake, hdone]
    exact .single (.announce hwanted)

theorem mobileMetadata_verified {fileId streamId size : Nat} {relativePath : String} {sha256 : Digest} (hv : st.Verified x) :
    (mobileMetadata x cfg offer fileId streamId relativePath size sha256 st).Verified x := by
  unfold mobileMetadata MobileState.send
  split
  · exact hv.of_phase rfl rfl nofun
  unfold openTmp
  split
  · exact hv.of_phase rfl rfl nofun
  dsimp only
  split
  · exact hv.of_phase rfl rfl nofun
  · rename_i fs hcreate
    refine ⟨fun a l h => ?_, hv.stored, hv.count⟩
    simp only [MobilePhase.chunks.injEq] at h
    obtain ⟨rfl, rfl⟩ := h
    simp only [Disk.Fs.create, Option.ite_none_right_eq_some, Option.some.injEq] at hcreate
    simp only [← hcreate.2, set_self]

/-- **A frame, to the mobile library, is steps of the intake** where what it
announces is still wanted and TRANSFER_COMPLETE is not early. -/
theorem mobileStep_steps {f : Frame} (hv : st.Verified x)
    (hcount : ∀ taken : List ManifestEntry, (fileEntries offer.manifest).length ≤ taken.length → mayFinish taken)
    (hann : ∀ e, st.announced f = some e → st.intake.taken.count e < (fileEntries offer.manifest).count e)
    (hfin : st.completes f = true → mayFinish st.intake.taken) :
    Steps (fileEntries offer.manifest) mayFinish st.intake (mobileStep x cfg offer f st).intake := by
  unfold mobileStep
  split
  · rename_i hphase
    split
    · exact .single .giveUp
    · rename_i hkind hcontrol
      exact mobileMetadata_steps (hann _ (by simp [MobileState.announced, hphase, hkind, hcontrol]))
    · exact .single .giveUp
    · rename_i hkind hcontrol
      refine sendTransferAck_steps (by simp [MobileState.intake, hphase]) rfl rfl (hfin ?_)
      simp [MobileState.completes, hphase, hkind, hcontrol]
    · exact .refl
  · rename_i a l hphase
    split
    · exact .single .giveUp
    · exact finishMobile_steps hcount (by simp [MobileState.intake, hphase]) rfl rfl hv.count
    · exact .single .giveUp
    · exact mobileChunk_steps hcount hphase hv.count
    · exact .refl
  · exact .refl

theorem mobileStep_verified (hv : st.Verified x) (f : Frame) : (mobileStep x cfg offer f st).Verified x := by
  unfold mobileStep
  split
  · split
    · exact hv.of_phase rfl rfl nofun
    · exact mobileMetadata_verified hv
    · exact hv.of_phase rfl rfl nofun
    · exact sendTransferAck_verified hv
    · exact hv
  · rename_i a l hphase
    split
    · exact hv.of_phase rfl rfl nofun
    · exact finishMobile_verified (hv.writing a l hphase) hv.stored hv.count
    · exact hv.of_phase rfl rfl nofun
    · exact mobileChunk_verified hv hphase
    · exact hv
  · exact hv

end

/-! ## Whole transfers -/

/-- The frame announces nothing but a File entry of the manifest, one that is
not stored yet. -/
def TransferState.Wanted (offered : List ManifestEntry) (earlier : List StoredFile) (st : TransferState) (f : Frame) : Prop :=
  ∀ e, st.announced f = some e → ((earlier ++ st.stored).map (·.entry)).count e < (fileEntries offered).count e

/-- TRANSFER_COMPLETE comes after as many files as the manifest has. -/
def TransferState.Timely (offered : List ManifestEntry) (earlier : List StoredFile) (st : TransferState) (f : Frame) : Prop :=
  st.completes f = true → (fileEntries offered).length ≤ (earlier ++ st.stored).length

def MobileState.Wanted (offer : PendingOffer) (st : MobileState) (f : Frame) : Prop :=
  ∀ e, st.announced f = some e → (st.stored.map (·.entry)).count e < (fileEntries offer.manifest).count e

def MobileState.Timely (offer : PendingOffer) (st : MobileState) (f : Frame) : Prop :=
  st.completes f = true → (fileEntries offer.manifest).length ≤ st.stored.length

/-- The daemon in a transfer whose offer was accepted, on any of its
connections: the first, and those that ask to resume it, whatever has become
of the disk and of the journal in between. `earlier` is what the connections
before this one stored; every frame is one that `may` come. -/
inductive TransferRun (x : Ext) (offered : List ManifestEntry) (may : List StoredFile → TransferState → Frame → Prop) :
    List StoredFile → Transfer → TransferState → Prop
  | accept {cfg : SessionConfig} {fs : Fs} {j : Journal} {conn : Conn} {transferId : TransferId} {kind : TransferType}
      {name : String} {files bytes : Nat} {t : Transfer} {st : TransferState} (hconn : conn.outbox = [])
      (h : onSessionMessage x cfg fs j conn (.transferRequest transferId kind name files bytes offered) = .transfer t st) :
      TransferRun x offered may [] t st
  | frame {earlier : List StoredFile} {t : Transfer} {st : TransferState} (f : Frame)
      (h : TransferRun x offered may earlier t st) (hf : may earlier st f) :
      TransferRun x offered may earlier t (transferStep x t f st)
  | resume {earlier : List StoredFile} {t t' : Transfer} {st st' : TransferState} {cfg : SessionConfig} {fs : Fs} {j : Journal}
      {conn : Conn} {fileIds : Option (List Nat)} (h : TransferRun x offered may earlier t st) (hconn : conn.outbox = [])
      (hq : onSessionMessage x cfg fs j conn (.resumeQuery t.transferId fileIds) = .transfer t' st') :
      TransferRun x offered may (earlier ++ st.stored) t' st'

/-- The mobile library in a transfer whose offer was accepted. -/
inductive MobileRun (x : Ext) (cfg : MobileConfig) (offer : PendingOffer) (may : MobileState → Frame → Prop) :
    MobileState → Prop
  | accept {fs : Fs} {conn : Conn} (hconn : conn.outbox = []) : MobileRun x cfg offer may (startReceive x cfg offer fs conn)
  | frame {st : MobileState} (f : Frame) (h : MobileRun x cfg offer may st) (hf : may st f) :
      MobileRun x cfg offer may (mobileStep x cfg offer f st)

/-- Every file stored is one that was offered, and none more often than it
was. -/
def AsOffered (manifest : List ManifestEntry) (stored : List StoredFile) : Prop :=
  (∀ s ∈ stored, s.entry ∈ fileEntries manifest) ∧
    ∀ e, (stored.map (·.entry)).count e ≤ (fileEntries manifest).count e

/-- Every file offered is stored, and its bytes had its hash. -/
def AllStored (x : Ext) (manifest : List ManifestEntry) (stored : List StoredFile) : Prop :=
  ∀ e ∈ fileEntries manifest, ∃ s ∈ stored, s.entry = e ∧ x.sha256 s.content = s.sha256

section

variable {x : Ext}

theorem Conn.first_unacked {conn c : Conn} {m : ControlMessage} (hconn : conn.outbox = [])
    (hm : (controlFrame 0 m).acksSuccess = false) (hc : conn.sendControl x m = some c) : c.acked = false := by
  rw [Conn.sendControl_acked hc, hm, Bool.or_false, Conn.acked, hconn, List.any_nil]

/-- How a transfer starts on a connection. -/
theorem onSessionMessage_transfer {cfg : SessionConfig} {fs : Fs} {j : Journal} {conn : Conn} {m : ControlMessage}
    {t : Transfer} {st : TransferState} (hconn : conn.outbox = [])
    (h : onSessionMessage x cfg fs j conn m = .transfer t st) :
    st.phase = .negotiate ∧ st.stored = [] ∧ st.recv.conn.acked = false := by
  have hstart : ∀ {c transferId name manifest}, c.acked = false →
      enterTransfer cfg fs j c transferId name manifest = .transfer t st →
      st.phase = .negotiate ∧ st.stored = [] ∧ st.recv.conn.acked = false := by
    intro c transferId name manifest hc he
    simp only [enterTransfer, Session.transfer.injEq] at he
    rw [← he.2]
    exact ⟨rfl, rfl, hc⟩
  unfold onSessionMessage at h
  split at h
  · split at h
    · unfold sendIdle at h
      split at h <;> cases h
    · split at h
      · cases h
      · rename_i hc
        exact hstart (Conn.first_unacked hconn rfl hc) h
  · dsimp only [sendIdle] at h
    split at h
    · cases h
    · rename_i hc
      split at h
      · rename_i hstatus _
        exact hstart (Conn.first_unacked hconn (by rw [hstatus]; rfl) hc) h
      · cases h
  · cases h
  · unfold sendIdle at h
    split at h <;> cases h
  · cases h

/-- **A transfer to the daemon, over all its connections,** keeps to what was
agreed, and what it stored had its hash. -/
theorem TransferRun.agrees (mayFinish : List ManifestEntry → Prop) {offered : List ManifestEntry} {may : List StoredFile → TransferState → Frame → Prop}
    {earlier : List StoredFile} {t : Transfer} {st : TransferState}
    (hwanted : ∀ earlier st f, may earlier st f → st.Wanted offered earlier f)
    (hfin : ∀ earlier (st : TransferState) f, may earlier st f → st.completes f = true →
      mayFinish ((earlier ++ st.stored).map (·.entry)))
    (h : TransferRun x offered may earlier t st) :
    Agrees (fileEntries offered) mayFinish (st.intake earlier) ∧ st.Verified x ∧
      ∀ s ∈ earlier, x.sha256 s.content = s.sha256 := by
  induction h with
  | accept hconn h =>
    obtain ⟨hphase, hstored, hacked⟩ := onSessionMessage_transfer hconn h
    refine ⟨.start ?_ ?_ hacked, ⟨?_, ?_⟩, ?_⟩
    · simp [TransferState.intake, hphase]
    · simp [TransferState.intake, hstored]
    · simp [hphase]
    · simp [hstored]
    · simp
  | frame f _ hf ih =>
    obtain ⟨ha, hv, he⟩ := ih
    exact ⟨ha.steps (transferStep_steps (hwanted _ _ f hf) (hfin _ _ f hf)), transferStep_verified hv f, he⟩
  | resume _ hconn hq ih =>
    obtain ⟨ha, hv, he⟩ := ih
    obtain ⟨hphase, hstored, hacked⟩ := onSessionMessage_transfer hconn hq
    refine ⟨⟨?_, ?_, ?_⟩, ⟨?_, ?_⟩, ?_⟩
    · simp [TransferState.intake, hphase]
    · simpa [TransferState.intake, hstored] using ha.within
    · simp [TransferState.intake, hacked]
    · simp [hphase]
    · simp [hstored]
    · intro s hs
      rcases List.mem_append.mp hs with hs | hs
      · exact he s hs
      · exact hv.stored s hs

theorem startReceive_start (x : Ext) (cfg : MobileConfig) (offer : PendingOffer) (fs : Fs) {conn : Conn} (hconn : conn.outbox = []) :
    (∀ a l, (startReceive x cfg offer fs conn).phase ≠ .chunks a l) ∧ (startReceive x cfg offer fs conn).stored = [] ∧
      (startReceive x cfg offer fs conn).receivedFiles = 0 ∧ (startReceive x cfg offer fs conn).conn.acked = false := by
  unfold startReceive MobileState.send
  dsimp only
  split
  · exact ⟨nofun, rfl, rfl, by simp [MobileState.ret, Conn.acked, hconn]⟩
  · rename_i c hc
    have hacked := Conn.first_unacked hconn rfl hc
    split
    · exact ⟨nofun, rfl, rfl, hacked⟩
    · split
      · exact ⟨nofun, rfl, rfl, hacked⟩
      · exact ⟨nofun, rfl, rfl, hacked⟩

/-- **A transfer to the mobile library** keeps to what was agreed, and what it
stored had its hash. -/
theorem MobileRun.agrees (mayFinish : List ManifestEntry → Prop) {cfg : MobileConfig} {offer : PendingOffer}
    {may : MobileState → Frame → Prop} {st : MobileState}
    (hwanted : ∀ st f, may st f → st.Wanted offer f)
    (hfin : ∀ (st : MobileState) f, may st f → st.completes f = true → mayFinish (st.stored.map (·.entry)))
    (hcount : ∀ taken : List ManifestEntry, (fileEntries offer.manifest).length ≤ taken.length → mayFinish taken)
    (h : MobileRun x cfg offer may st) : Agrees (fileEntries offer.manifest) mayFinish st.intake ∧ st.Verified x := by
  induction h with
  | accept hconn =>
    obtain ⟨hphase, hstored, hnum, hacked⟩ := startReceive_start x cfg offer _ hconn
    refine ⟨.start ?_ ?_ hacked, ?_, ?_, ?_⟩
    · cases hp : (startReceive x cfg offer _ _).phase with
      | chunks a l => exact absurd hp (hphase a l)
      | files => simp [MobileState.intake, hp]
      | returned r => simp [MobileState.intake, hp]
    · simp [MobileState.intake, hstored]
    · exact fun a l hc => absurd hc (hphase a l)
    · simp [hstored]
    · simp [hstored, hnum]
  | frame f _ hf ih =>
    obtain ⟨ha, hv⟩ := ih
    exact ⟨ha.steps (mobileStep_steps hv hcount (hwanted _ f hf) (hfin _ f hf)), mobileStep_verified hv f⟩

end

/-! ## An example -/

/-- A manifest with the one file `a.txt`. -/
def sampleManifest : List ManifestEntry := [listedFile 1 "a.txt" 1 (sampleHash [0x61])]

def sampleAccepted : TransferState :=
  startTransfer sampleTransfer sampleFs (fun _ => none) (wrote 1 (.transferAccept sampleId))

theorem sampleAccepted_run (may : List StoredFile → TransferState → Frame → Prop) :
    TransferRun sampleExt sampleManifest may [] sampleTransfer sampleAccepted := by
  have h : onSessionMessage sampleExt sampleConfig sampleFs (fun _ => none) {}
      (.transferRequest sampleId .files "a.txt" 1 1 sampleManifest) = .transfer sampleTransfer sampleAccepted := by
    have he : encodeControl sampleExt (.transferAccept sampleId) = .ok () := by rfl
    simp only [onSessionMessage, sampleConfig, Conn.sendControl, he, Conn.write]
    rfl
  exact .accept rfl h

def sampleOffer : PendingOffer := { transferId := sampleId, manifest := sampleManifest }

def sampleReceiving : MobileState := startReceive sampleExt sampleMobile sampleOffer sampleFs {}

theorem sampleReceiving_run (may : MobileState → Frame → Prop) :
    MobileRun sampleExt sampleMobile sampleOffer may sampleReceiving := .accept rfl

def sampleComplete : Frame := controlFrame 5 (.transferComplete sampleId)

/-- `a.txt`, announced and sent, where TRANSFER_COMPLETE is not awaited. -/
def sampleStored : TransferState :=
  transferStep sampleExt sampleTransfer sampleChunk (transferStep sampleExt sampleTransfer (sampleMetadata "a.txt") sampleAccepted)

theorem sampleStored_run (may : List StoredFile → TransferState → Frame → Prop)
    (hmay : ∀ earlier st f, st.Wanted sampleManifest earlier f → st.completes f = false → may earlier st f) :
    TransferRun sampleExt sampleManifest may [] sampleTransfer sampleStored := by
  refine .frame _ (.frame _ (sampleAccepted_run _) (hmay _ _ _ ?_ ?_)) (hmay _ _ _ ?_ ?_)
  · intro e he
    rw [show sampleAccepted.announced (sampleMetadata "a.txt") = some (listedFile 1 "a.txt" 1 (sampleHash [0x61])) by
      decide +kernel, Option.some.injEq] at he
    rw [← he]
    decide +kernel
  · decide +kernel
  · intro e he
    rw [show TransferState.announced _ sampleChunk = none by decide +kernel] at he
    cases he
  · decide +kernel

def sampleReceived : MobileState :=
  mobileStep sampleExt sampleMobile sampleOffer sampleChunk
    (mobileStep sampleExt sampleMobile sampleOffer (sampleMetadata "a.txt") sampleReceiving)

theorem sampleReceived_run (may : MobileState → Frame → Prop)
    (hmay : ∀ st f, st.Wanted sampleOffer f → st.completes f = false → may st f) :
    MobileRun sampleExt sampleMobile sampleOffer may sampleReceived := by
  refine .frame _ (.frame _ (sampleReceiving_run _) (hmay _ _ ?_ ?_)) (hmay _ _ ?_ ?_)
  · intro e he
    rw [show sampleReceiving.announced (sampleMetadata "a.txt") = some (listedFile 1 "a.txt" 1 (sampleHash [0x61])) by
      decide +kernel, Option.some.injEq] at he
    rw [← he]
    decide +kernel
  · decide +kernel
  · intro e he
    rw [show MobileState.announced _ sampleChunk = none by decide +kernel] at he
    cases he
  · decide +kernel

/-! ## Consent covers content -/

theorem asOffered_of_agrees {manifest : List ManifestEntry} {stored : List StoredFile} {mayFinish : List ManifestEntry → Prop}
    {i : Intake.State ManifestEntry} (ha : Agrees (fileEntries manifest) mayFinish i) (hi : i.taken = stored.map (·.entry)) :
    AsOffered manifest stored := by
  refine ⟨fun s hs => ?_, fun e => ?_⟩
  · refine ha.within.subset ?_
    rw [hi]
    exact List.mem_map_of_mem hs
  · rw [← hi]
    exact ha.within.count_le e

/-- **What is stored was offered.** In every transfer, to the daemon over all
its connections or to the mobile library, where each FILE_METADATA that the
receiver takes up names a File entry of the manifest that is not stored yet,
every file stored is a File entry of the manifest, and none is stored twice. -/
theorem stored_as_offered (x : Ext) :
    (∀ {offered : List ManifestEntry} {earlier : List StoredFile} {t : Transfer} {st : TransferState},
        TransferRun x offered (fun earlier st => st.Wanted offered earlier) earlier t st →
        AsOffered offered (earlier ++ st.stored)) ∧
      ∀ {cfg : MobileConfig} {offer : PendingOffer} {st : MobileState},
        MobileRun x cfg offer (fun st => st.Wanted offer) st → AsOffered offer.manifest st.stored := by
  constructor
  · intro offered earlier t st h
    have ha := (h.agrees (fun _ => True) (fun _ _ _ hf => hf) fun _ _ _ _ _ => trivial).1
    exact asOffered_of_agrees ha rfl
  · intro cfg offer st h
    have ha := (h.agrees (fun _ => True) (fun _ _ hf => hf) (fun _ _ _ _ => trivial) fun _ _ => trivial).1
    exact asOffered_of_agrees ha rfl

/-- The daemon and the mobile library store `a.txt` as it was offered. -/
theorem stored_as_offered_sample :
    (∃ st, TransferRun sampleExt sampleManifest (fun earlier st => st.Wanted sampleManifest earlier) [] sampleTransfer st ∧
        st.stored ≠ [] ∧ AsOffered sampleManifest ([] ++ st.stored)) ∧
      ∃ st, MobileRun sampleExt sampleMobile sampleOffer (fun st => st.Wanted sampleOffer) st ∧
        st.stored ≠ [] ∧ AsOffered sampleOffer.manifest st.stored := by
  constructor
  · have hrun := sampleStored_run (fun earlier st => st.Wanted sampleManifest earlier) fun _ _ _ hw _ => hw
    exact ⟨_, hrun, by decide +kernel, (stored_as_offered sampleExt).1 hrun⟩
  · have hrun := sampleReceived_run (fun st => st.Wanted sampleOffer) fun _ _ hw _ => hw
    exact ⟨_, hrun, by decide +kernel, (stored_as_offered sampleExt).2 hrun⟩

/-- Both store `b.txt`, which was not offered. -/
theorem unlisted_file_stored :
    (∃ st, TransferRun sampleExt sampleManifest (fun _ _ _ => True) [] sampleTransfer st ∧
        ¬ AsOffered sampleManifest ([] ++ st.stored)) ∧
      ∃ st, MobileRun sampleExt sampleMobile sampleOffer (fun _ _ => True) st ∧
        ¬ AsOffered sampleOffer.manifest st.stored := by
  constructor
  · refine ⟨_, .frame sampleChunk (.frame (sampleMetadata "b.txt") (sampleAccepted_run _) trivial) trivial, ?_⟩
    intro h
    have := h.2 (listedFile 1 "b.txt" 1 (sampleHash [0x61]))
    revert this
    decide +kernel
  · refine ⟨_, .frame sampleChunk (.frame (sampleMetadata "b.txt") (sampleReceiving_run _) trivial) trivial, ?_⟩
    intro h
    have := h.2 (listedFile 1 "b.txt" 1 (sampleHash [0x61]))
    revert this
    decide +kernel

/-! ## Success means complete -/

theorem allStored_of_agrees {x : Ext} {manifest : List ManifestEntry} {stored : List StoredFile} {i : Intake.State ManifestEntry}
    (ha : Agrees (fileEntries manifest) (fun taken => (fileEntries manifest).length ≤ taken.length) i)
    (hi : i.taken = stored.map (·.entry)) (hdone : i.done = true) (hs : ∀ s ∈ stored, x.sha256 s.content = s.sha256) :
    AllStored x manifest stored := by
  intro e he
  have htaken := ha.complete (fun _ h => h) hdone he
  rw [hi] at htaken
  obtain ⟨s, hmem, rfl⟩ := List.mem_map.mp htaken
  exact ⟨s, hmem, rfl, hs s hmem⟩

/-- **Success means complete.** In every transfer, to the daemon over all its
connections or to the mobile library, where each FILE_METADATA that the
receiver takes up names a File entry of the manifest that is not stored yet,
and TRANSFER_COMPLETE comes after as many files as the manifest has, success
is acknowledged only when every File entry is stored with the bytes of its
hash. -/
theorem success_means_complete (x : Ext) :
    (∀ {offered : List ManifestEntry} {earlier : List StoredFile} {t : Transfer} {st : TransferState},
        TransferRun x offered (fun earlier st f => st.Wanted offered earlier f ∧ st.Timely offered earlier f) earlier t st →
        st.recv.conn.acked = true → AllStored x offered (earlier ++ st.stored)) ∧
      ∀ {cfg : MobileConfig} {offer : PendingOffer} {st : MobileState},
        MobileRun x cfg offer (fun st f => st.Wanted offer f ∧ st.Timely offer f) st →
        st.conn.acked = true → AllStored x offer.manifest st.stored := by
  constructor
  · intro offered earlier t st h hacked
    obtain ⟨ha, hv, he⟩ := h.agrees (fun taken => (fileEntries offered).length ≤ taken.length) (fun _ _ _ hf => hf.1)
      fun earlier st f hf hc => by
        rw [List.length_map]
        exact hf.2 hc
    refine allStored_of_agrees ha rfl hacked fun s hs => ?_
    rcases List.mem_append.mp hs with hs | hs
    · exact he s hs
    · exact hv.stored s hs
  · intro cfg offer st h hacked
    obtain ⟨ha, hv⟩ := h.agrees (fun taken => (fileEntries offer.manifest).length ≤ taken.length) (fun _ _ hf => hf.1)
      (fun st f hf hc => by
        rw [List.length_map]
        exact hf.2 hc) fun _ hlen => hlen
    exact allStored_of_agrees ha rfl hacked hv.stored

/-- The daemon and the mobile library acknowledge `a.txt` when they have it. -/
theorem success_means_complete_sample :
    (∃ st, TransferRun sampleExt sampleManifest
          (fun earlier st f => st.Wanted sampleManifest earlier f ∧ st.Timely sampleManifest earlier f) [] sampleTransfer st ∧
        st.recv.conn.acked = true ∧ AllStored sampleExt sampleManifest ([] ++ st.stored)) ∧
      ∃ st, MobileRun sampleExt sampleMobile sampleOffer (fun st f => st.Wanted sampleOffer f ∧ st.Timely sampleOffer f) st ∧
        st.conn.acked = true ∧ AllStored sampleExt sampleOffer.manifest st.stored := by
  constructor
  · have hrun := TransferRun.frame sampleComplete (sampleStored_run
      (fun earlier st f => st.Wanted sampleManifest earlier f ∧ st.Timely sampleManifest earlier f) fun earlier st f hw hc => ⟨hw, fun h => by simp [hc] at h⟩)
      ⟨fun e he => by simp [show sampleStored.announced sampleComplete = none by decide +kernel] at he,
        fun _ => by decide +kernel⟩
    exact ⟨_, hrun, by decide +kernel, (success_means_complete sampleExt).1 hrun (by decide +kernel)⟩
  · have hrun := sampleReceived_run (fun st f => st.Wanted sampleOffer f ∧ st.Timely sampleOffer f)
      fun st f hw hc => ⟨hw, fun h => by simp [hc] at h⟩
    exact ⟨_, hrun, by decide +kernel, (success_means_complete sampleExt).2 hrun (by decide +kernel)⟩

/-- Both acknowledge a transfer of which they have nothing. -/
theorem empty_transfer_acknowledged :
    (∃ st, TransferRun sampleExt sampleManifest (fun _ _ _ => True) [] sampleTransfer st ∧ st.recv.conn.acked = true ∧
        ¬ AllStored sampleExt sampleManifest ([] ++ st.stored)) ∧
      ∃ st, MobileRun sampleExt sampleMobile sampleOffer (fun _ _ => True) st ∧ st.conn.acked = true ∧
        ¬ AllStored sampleExt sampleOffer.manifest st.stored := by
  constructor
  · refine ⟨_, .frame sampleComplete (sampleAccepted_run _) trivial, by decide +kernel, fun h => ?_⟩
    obtain ⟨s, hs, _⟩ := h (listedFile 1 "a.txt" 1 (sampleHash [0x61])) (by decide +kernel)
    have hnone : (transferStep sampleExt sampleTransfer sampleComplete sampleAccepted).stored.length = 0 := by decide +kernel
    rw [List.nil_append, List.length_eq_zero_iff.mp hnone] at hs
    cases hs
  · refine ⟨_, .frame sampleComplete (sampleReceiving_run _) trivial, by decide +kernel, fun h => ?_⟩
    obtain ⟨s, hs, _⟩ := h (listedFile 1 "a.txt" 1 (sampleHash [0x61])) (by decide +kernel)
    have hnone : (mobileStep sampleExt sampleMobile sampleOffer sampleComplete sampleReceiving).stored.length = 0 := by
      decide +kernel
    rw [List.length_eq_zero_iff.mp hnone] at hs
    cases hs

end Nxfr

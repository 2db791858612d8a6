/-
A transfer cut off and taken up again: RESUME_QUERY, the answer from the
journal, and `send_file_resume` of the reported ranges against a receiver
that goes by its `.part` file (`resumed_ends_iff`). Where the two agree the
transfer ends as if it had not been cut off (`resume_ends_iff_uninterrupted`);
after a crash inside a chunk step they may not (`crash_recovers_iff`).
-/
import Nxfr.CutTransfer

namespace Nxfr

open Network

/-- A session of the same peer with the same receive directory at another
time, whatever the user would answer to an offer. -/
def SessionConfig.later (cfg : SessionConfig) (now : Nat) (declined : Option String) : SessionConfig :=
  { cfg with now, declined }

/-- `handle_outbound_resume` about to ask, the receiver's disk and journal
being `fs` and `j`. -/
def resumeNet (js : Journal) (c : Nat) (fs : Fs) (j : Journal) (id : Nat) : Net Frame OutboundState Session :=
  { left := { pc := .query, journal := js, nextMessageId := c }, right := .idle fs j (quiet id) }

/-- The transfer as the resumed session has it. -/
def Outbound.resumedTransfer (x : Ext) (o : Outbound) (cfg : SessionConfig) (now m : Nat) : Transfer :=
  { transferId := o.transferId
    peerIdHex := cfg.peerIdHex
    displayName := o.fileName
    manifest := resumeManifest (o.journaled x cfg m)
    receiveDir := cfg.receiveDir
    now }

theorem Outbound.resumedTransfer_receiveDir {x : Ext} {o : Outbound} {cfg : SessionConfig} {now m : Nat} :
    (o.resumedTransfer x cfg now m).receiveDir = cfg.receiveDir := rfl

/-- What RESUME_STATUS says of `m` bytes. -/
def Outbound.statusMessage (o : Outbound) (cfg : SessionConfig) (m : Nat) : ControlMessage :=
  .resumeStatus o.transferId true
    (some [{ fileId := 1, receivedBytes := m, receivedRanges := ranges m, partialSha256 := none }])
    (some (cfg.now + 86400))

section

variable {x : Ext} {o : Outbound} {cfg : SessionConfig} {fs : Fs} {j : Journal} {now : Nat} {declined : Option String}

theorem resumeStatus_eq (hnow : now ≤ cfg.now + 86400) {j₁ : Journal} {m : Nat}
    (hj : j₁ (hexEncode o.transferId.bytes) = some (o.journaled x cfg m)) :
    resumeStatus (cfg.later now declined) j₁ o.transferId none = o.statusMessage cfg m := by
  have hpeer : (o.journaled x cfg m).peerDeviceId = (cfg.later now declined).peerIdHex := rfl
  have hexp : (o.journaled x cfg m).expiresAt = cfg.now + 86400 := rfl
  have hnow' : (cfg.later now declined).now = now := rfl
  simp only [resumeStatus, hj, hpeer, hexp, hnow']
  rw [if_neg (by simp), if_neg (by omega)]
  rfl

variable (h : Offered x o cfg fs j) (hnow : now ≤ cfg.now + 86400)
include h hnow

/-- The query is answered from the journal. -/
theorem query_answered {fs₁ : Fs} {j₁ : Journal} {m : Nat}
    (hj : j₁ (hexEncode o.transferId.bytes) = some (o.journaled x cfg m)) (js : Journal) (c id : Nat) :
    Reaches (initiator x o) (responder x (cfg.later now declined)) (resumeNet js c fs₁ j₁ id)
      { left := { pc := .metadata (some (ranges m)), journal := js, nextMessageId := c + 1 }
        right := negotiating (o.resumedTransfer x cfg now m)
          { fs := fs₁, journal := j₁, resume := o.journaled x cfg m, conn := quiet (id + 1) } 0 []
        gotRight := [controlFrame c (.resumeQuery o.transferId none)]
        gotLeft := [controlFrame id (o.statusMessage cfg m)] } := by
  have hquery : initiator x o { pc := .query, journal := js, nextMessageId := c } =
      .send (controlFrame c (.resumeQuery o.transferId none))
        { pc := .awaitStatus, journal := js, nextMessageId := c + 1 } :=
    sendControl_act (encode_small h.compact (by simp [ControlMessage.volume]) (by simp))
  have hsend : (quiet id).sendControl x (o.statusMessage cfg m) = some (wrote id (o.statusMessage cfg m)) := by
    refine quiet_sendControl (encode_small h.compact ?_ (by simp [Outbound.statusMessage]))
    simp only [Outbound.statusMessage, ControlMessage.volume, ranges, Option.getD_some, List.map_singleton,
      List.sum_singleton]
    split <;> simp
  have hload : loadResume (o.resumedTransfer x cfg now m) j₁ = o.journaled x cfg m := by
    have hkeys : (o.journaled x cfg m).files.keys ≠ [] := by simp [Outbound.journaled]
    simp [loadResume, Outbound.resumedTransfer, hj, hkeys]
  have hdirs : createDirs (o.resumedTransfer x cfg now m) fs₁ = fs₁ := rfl
  have hstep : sessionStep x (cfg.later now declined) (.idle fs₁ j₁ (quiet id))
        (controlFrame c (.resumeQuery o.transferId none)) =
      negotiating (o.resumedTransfer x cfg now m)
        { fs := fs₁, journal := j₁, resume := o.journaled x cfg m, conn := wrote id (o.statusMessage cfg m) } 0 [] := by
    simp only [sessionStep, controlFrame, onSessionMessage, resumeStatus_eq hnow hj, sendIdle, hsend, hj]
    change Session.transfer (o.resumedTransfer x cfg now m) (startTransfer (o.resumedTransfer x cfg now m) _ _ _) = _
    simp only [startTransfer, hload, hdirs, negotiating]
  have h₁ := responder_call _ (n := resumeNet js c fs₁ j₁ id) hquery rfl rfl hstep rfl rfl rfl rfl
  exact h₁

omit hnow in
/-- The receive directory is untouched by what is in the `.part` file. -/
theorem Offered.grounded_set {n : Option (Disk.Node UInt8)} : (fs.set (o.partPath cfg) n).Grounded cfg.receiveDir := by
  intro p hp
  have hne : p ≠ o.partPath cfg := by
    rintro rfl
    have hlen := hp.length_le
    rw [Outbound.partPath, Nxfr.partPath, renameLast_length, h.finalPath_eq, List.length_append,
      List.length_singleton] at hlen
    omega
  rw [set_other hne]
  exact h.root p hp

/-- The file of a second attempt, the journal having `m` bytes and the
`.part` file `bytes`. -/
def Offered.second (now m : Nat) (bytes : Bytes) : Incoming :=
  h.incoming (o.resumedTransfer x cfg now m) Outbound.resumedTransfer_receiveDir
    (fs.set (o.partPath cfg) (some (.file bytes))) h.grounded_set

omit h hnow in
theorem Outbound.written_set {n : Option (Disk.Node UInt8)} :
    o.written (cfg.later now declined) (fs.set (o.partPath cfg) n) = o.written (cfg.later now declined) fs := set_set

omit h hnow in
theorem Outbound.destination_set {n : Option (Disk.Node UInt8)} :
    o.destination (cfg.later now declined) (fs.set (o.partPath cfg) n) = o.destination (cfg.later now declined) fs := by
  rw [Outbound.destination, Outbound.destination, Outbound.written_set]

omit hnow in
@[simp] theorem Offered.second_data {m : Nat} {bytes : Bytes} : (h.second now m bytes).data = o.fileData := rfl

omit hnow in
@[simp] theorem Offered.second_streamId {m : Nat} {bytes : Bytes} : (h.second now m bytes).streamId = 1 := rfl

omit hnow in
theorem Offered.second_dest {m : Nat} {bytes : Bytes} :
    (h.second now m bytes).dest = o.destination (cfg.later now declined) fs := by
  rw [← Outbound.destination_set (n := some (.file bytes))]
  exact h.incoming_dest _ _ rfl rfl

omit hnow in
theorem Offered.second_placed_iff (now : Nat) (declined : Option String) (m : Nat) (bytes : Bytes) : (h.second now m bytes).Placed ↔
    (o.written (cfg.later now declined) fs).Takes (o.destination (cfg.later now declined) fs) := by
  rw [← Outbound.destination_set (n := some (.file bytes)), ← Outbound.written_set (n := some (.file bytes))]
  exact h.incoming_placed_iff _ _ rfl rfl

omit h hnow in
theorem journaled_unmodified (x : Ext) (o : Outbound) (cfg : SessionConfig) (m : Nat) : isModified (o.journaled x cfg m) 1 (x.sha256 o.fileData) = false := by
  simp [isModified, Outbound.journaled, freshResume, Outbound.transfer]

/-- The metadata is acknowledged, and the sender goes to its chunks. -/
theorem resume_opened {j₁ : Journal} {m : Nat} {bytes : Bytes} {s : Session} (js : Journal) {c id : Nat}
    (hj : j₁ (hexEncode o.transferId.bytes) = some (o.journaled x cfg m))
    (hstep : sessionStep x (cfg.later now declined)
      (negotiating (h.second now m bytes).t { fs := (h.second now m bytes).fs, journal := j₁
                                              resume := o.journaled x cfg m, conn := quiet (id + 1) }
        (h.second now m bytes).receivedFiles (h.second now m bytes).stored)
      (controlFrame (c + 1) ((h.second now m bytes).metadata x o.transferId)) = s)
    (hconn : s.conn = wrote (id + 1) (.fileMetadataAck o.transferId 1 1 true)) :
    Reaches (initiator x o) (responder x (cfg.later now declined))
      (resumeNet js c (fs.set (o.partPath cfg) (some (.file bytes))) j₁ id)
      { left := inChunks js (some (ranges m)) (resumeStart (ranges m)) (c + 2)
        right := s.withConn (quiet (id + 2))
        gotRight := [controlFrame c (.resumeQuery o.transferId none), controlFrame (c + 1) (o.metadataMessage x)]
        gotLeft := [controlFrame id (o.statusMessage cfg m),
          controlFrame (id + 1) (.fileMetadataAck o.transferId 1 1 true)] } := by
  have hmeta : initiator x o { pc := .metadata (some (ranges m)), journal := js, nextMessageId := c + 1 } =
      .send (controlFrame (c + 1) (o.metadataMessage x))
        { pc := .awaitMetadataAck (some (ranges m)), journal := js, nextMessageId := c + 2 } :=
    sendControl_act h.encode_metadata
  have h₂ := (query_answered h hnow hj js c id).trans (responder_call _ hmeta rfl rfl hstep hconn rfl rfl rfl)
  exact h₂

omit h hnow in
/-- The resumed chunk loop starts in step. -/
theorem resume_inStep (cfg : SessionConfig) (js : Journal) (c id m : Nat) {r : Session} :
    InStep (inChunks js (some (ranges m)))
      { left := inChunks js (some (ranges m)) (resumeStart (ranges m)) (c + 2), right := r
        gotRight := [controlFrame c (.resumeQuery o.transferId none), controlFrame (c + 1) (o.metadataMessage x)]
        gotLeft := [controlFrame id (o.statusMessage cfg m),
          controlFrame (id + 1) (.fileMetadataAck o.transferId 1 1 true)] } (resumeStart (ranges m)) (c + 2) where
  left := rfl
  sent := rfl
  waiting := rfl
  acks := by simp
  answered := by constructor <;> simp [ackedId?, chunkId?, controlFrame, Outbound.statusMessage]
  early := by simp [IsSuccess, controlFrame, Outbound.statusMessage]

omit h hnow in
/-- Chunks before byte `m` are left out, others are not. -/
theorem covered_ranges {m offset stop : Nat} (hlt : offset < stop) :
    skipsOf (some (ranges m)) offset (stop - offset) = decide (stop ≤ m) := by
  have hsum : offset + (stop - offset) = stop := by omega
  unfold ranges skipsOf covered
  split
  · rename_i hm
    simp [hm]
    omega
  · simp [hsum]

/-! ### How a resumed leg ends -/

variable {P : Net Frame OutboundState Session → Prop} {j₁ : Journal} {m : Nat}
  (hj : j₁ (hexEncode o.transferId.bytes) = some (o.journaled x cfg m)) {bytes : Bytes} {js : Journal} {c id : Nat}
  {s : Session}
  (hstep : sessionStep x (cfg.later now declined)
    (negotiating (h.second now m bytes).t { fs := (h.second now m bytes).fs, journal := j₁
                                            resume := o.journaled x cfg m, conn := quiet (id + 1) }
      (h.second now m bytes).receivedFiles (h.second now m bytes).stored)
    (controlFrame (c + 1) ((h.second now m bytes).metadata x o.transferId)) = s)
include hj hstep

/-- The sender skips to byte `m`. -/
theorem resume_at (js : Journal) (hconn : s.conn = wrote (id + 1) (.fileMetadataAck o.transferId 1 1 true))
    (hm : m ≤ o.fileData.length) (haligned : chunkDataSize ∣ m ∨ m = o.fileData.length) :
    ∃ n s', Reaches (initiator x o) (responder x (cfg.later now declined))
        (resumeNet js c (fs.set (o.partPath cfg) (some (.file bytes))) j₁ id) n ∧
      InStep (inChunks js (some (ranges m))) n s' (c + 2) ∧ s'.offset = m ∧ s'.inFlight = 0 ∧
      n.right = s.withConn (quiet (id + 2)) := by
  have h₁ := resume_opened h hnow js hj hstep hconn
  obtain ⟨n, s', hr, hin, hoff, hflight, hright⟩ :=
    (resume_inStep (x := x) (o := o) cfg js c id m (r := s.withConn (quiet (id + 2)))).skipped
      (q := responder x (cfg.later now declined)) (initiator_chunkSender x o js (some (ranges m)))
      (Nat.zero_le _) hm (Nat.dvd_zero _) haligned (by
        intro offset hlt hstop
        rw [covered_ranges (chunkStop_bounds hlt).1, decide_eq_true hstop])
  exact ⟨n, s', h₁.trans hr, hin, hoff, hflight, hright⟩

omit h hnow hj hstep in
/-- Nothing from byte `m` on is left out. -/
theorem not_skipped {offset : Nat} (hle : m ≤ offset) (hlt : offset < o.fileData.length) :
    skipsOf (some (ranges m)) offset (chunkStop o.fileData offset - offset) = false := by
  have := (chunkStop_bounds hlt).1
  rw [covered_ranges this]
  exact decide_eq_false (by omega)

/-- The receiver waits where the sender starts. -/
theorem resumed_in_step {resume : ResumeState} {journal : Journal}
    (hs : s = (h.second now m bytes).waiting x m resume journal
      (wrote (id + 1) (.fileMetadataAck o.transferId 1 1 true)))
    (hm : m < o.fileData.length) (haligned : chunkDataSize ∣ m) (hP : GoodEnd o (cfg.later now declined) fs P) :
    Ends (initiator x o) (responder x (cfg.later now declined)) P
        (resumeNet js c (fs.set (o.partPath cfg) (some (.file bytes))) j₁ id) ↔ (h.second now m bytes).Placed := by
  obtain ⟨n, s', hr, hin, hoff, hflight, hright⟩ := resume_at h hnow hj hstep js (by rw [hs]; rfl) (Nat.le_of_lt hm)
    (.inl haligned)
  obtain ⟨n', c', hr', hl, hdone, hR, hL, ha, hearly⟩ := exchange (initiator_chunkSender x o js (some (ranges m)))
    ((h.second now m bytes).chunkReceiver (fun _ _ _ => True) h.compact ⟨fun _ _ => trivial⟩ (cfg.later now declined)) hin
    ⟨_, _, _, trivial, by rw [hright, hs, hoff]; rfl⟩ (hoff ▸ hm)
    (fun offset hle hlt => not_skipped (hoff ▸ hle) hlt)
  exact ends_iff_placed h.compact hP rfl h.second_dest rfl (hr.trans hr') hl hdone hR hL ha hearly

/-- The receiver has one whole chunk more than the journal says: it answers
the chunk without storing it, and the two are in step. -/
theorem resumed_one_ahead {resume : ResumeState} {journal : Journal}
    (hs : s = (h.second now m bytes).waiting x (chunkStop o.fileData m) resume journal
      (wrote (id + 1) (.fileMetadataAck o.transferId 1 1 true)))
    (hm : chunkStop o.fileData m < o.fileData.length) (haligned : chunkDataSize ∣ m)
    (hP : GoodEnd o (cfg.later now declined) fs P) :
    Ends (initiator x o) (responder x (cfg.later now declined)) P
        (resumeNet js c (fs.set (o.partPath cfg) (some (.file bytes))) j₁ id) ↔ (h.second now m bytes).Placed := by
  have hlt : m < o.fileData.length := by
    by_contra hge
    have : chunkStop o.fileData m = o.fileData.length := by simp only [chunkStop]; omega
    omega
  have hlo := (chunkStop_bounds hlt).1
  obtain ⟨n, s', hr, hin, hoff, hflight, hright⟩ := resume_at h hnow hj hstep js (by rw [hs]; rfl) (Nat.le_of_lt hlt)
    (.inl haligned)
  have hright : n.right = (h.second now m bytes).waiting x (chunkStop o.fileData m) resume journal (quiet (id + 2)) := by
    rw [hright, hs]
    rfl
  have hdup := (h.second now m bytes).sessionStep_behind h.compact (cfg.later now declined) hlo hm resume journal
    (id + 2) (c + 2)
  rw [h.second_data, h.second_streamId, if_pos (Nat.le_refl _)] at hdup
  obtain ⟨n₁, s₁, hr₁, hin₁, hoff₁, hright₁, _⟩ := hin.send (initiator_chunkSender x o js (some (ranges m)))
    (q := responder x (cfg.later now declined)) (hoff ▸ hlt)
    (by rw [hoff]; exact not_skipped (Nat.le_refl m) hlt) (by rw [hright]; rfl)
    (by rw [hoff, hdup]; exact responder_wrote rfl)
  rw [hoff] at hoff₁
  obtain ⟨n', c', hr', hl, hdone, hR, hL, ha, hearly⟩ := exchange (initiator_chunkSender x o js (some (ranges m)))
    ((h.second now m bytes).chunkReceiver (fun _ _ _ => True) h.compact ⟨fun _ _ => trivial⟩ (cfg.later now declined)) hin₁
    ⟨_, _, _, trivial, by rw [hright₁, hoff₁]; rfl⟩ (hoff₁ ▸ hm)
    (fun offset hle hlt => not_skipped (by omega) hlt)
  exact ends_iff_placed h.compact hP rfl h.second_dest rfl ((hr.trans hr₁).trans hr') hl hdone hR hL ha hearly

/-- The receiver has part of a chunk more than the journal says: it refuses
the chunk. -/
theorem resumed_torn {resume : ResumeState} {journal : Journal} {m' : Nat}
    (hs : s = (h.second now m bytes).waiting x m' resume journal
      (wrote (id + 1) (.fileMetadataAck o.transferId 1 1 true)))
    (hm : m < m') (hm' : m' < chunkStop o.fileData m) (haligned : chunkDataSize ∣ m)
    (hP : GoodEnd o (cfg.later now declined) fs P) :
    ¬ Ends (initiator x o) (responder x (cfg.later now declined)) P
        (resumeNet js c (fs.set (o.partPath cfg) (some (.file bytes))) j₁ id) := by
  have hle : chunkStop o.fileData m ≤ o.fileData.length := Nat.min_le_right _ _
  have hlt : m < o.fileData.length := by omega
  obtain ⟨n, s', hr, hin, hoff, hflight, hright⟩ := resume_at h hnow hj hstep js (by rw [hs]; rfl) (Nat.le_of_lt hlt)
    (.inl haligned)
  have hright : n.right = (h.second now m bytes).waiting x m' resume journal (quiet (id + 2)) := by
    rw [hright, hs]
    rfl
  have hrefuse := (h.second now m bytes).sessionStep_behind h.compact (cfg.later now declined) hm
    (show m' < o.fileData.length by omega) resume journal (id + 2) (c + 2)
  rw [h.second_data, h.second_streamId, if_neg (by omega)] at hrefuse
  have h₁ := hr.trans (hin.push (q := responder x (cfg.later now declined))
    (initiator_chunkSender x o js (some (ranges m))) hflight (hoff ▸ hlt)
    (by rw [hoff]; exact not_skipped (Nat.le_refl m) hlt) (by rw [hright]; rfl))
  rw [hoff, hrefuse] at h₁
  have h₂ := h₁.trans (.right_send (responder_wrote rfl))
  refine not_ends_of_closed hP.success h₂ rfl ?_
  intro f hf
  simp only [List.nil_append, List.mem_append, List.mem_singleton] at hf
  rcases hf with hf | rfl
  · exact hin.early f hf
  · simp [IsSuccess, controlFrame]

/-- The receiver has the whole file and the journal does not say so: it has
put the file in its place when the last chunk comes, and passes over it. -/
theorem resumed_unanswered {resume : ResumeState} {journal : Journal}
    (hs : s = (h.second now m bytes).after x resume journal
      (wrote (id + 1) (.fileMetadataAck o.transferId 1 1 true)))
    (hm : m < o.fileData.length) (hlast : chunkStop o.fileData m = o.fileData.length) (haligned : chunkDataSize ∣ m)
    (hP : GoodEnd o (cfg.later now declined) fs P) :
    ¬ Ends (initiator x o) (responder x (cfg.later now declined)) P
        (resumeNet js c (fs.set (o.partPath cfg) (some (.file bytes))) j₁ id) := by
  obtain ⟨n, s', hr, hin, hoff, hflight, hright⟩ := resume_at h hnow hj hstep js (by rw [hs]; rfl)
    (Nat.le_of_lt hm) (.inl haligned)
  have hright : n.right = (h.second now m bytes).after x resume journal (quiet (id + 2)) := by
    rw [hright, hs]
    rfl
  have h₁ := hr.trans (hin.push (q := responder x (cfg.later now declined))
    (initiator_chunkSender x o js (some (ranges m))) hflight (hoff ▸ hm)
    (by rw [hoff]; exact not_skipped (Nat.le_refl m) hm) (by rw [hright]; rfl))
  have hpass : sessionStep x (cfg.later now declined)
      ((h.second now m bytes).after x resume journal (quiet (id + 2))) (fileChunk x o.fileData 1 m (c + 2)) =
      (h.second now m bytes).after x resume journal (quiet (id + 2)) := by
    simp [sessionStep, Incoming.after, transferStep, fileChunk, chunkFrame, Session.ofTransfer]
  rw [hoff, hpass] at h₁
  have hwait := (initiator_chunkSender x o js (some (ranges m))).move
    { s' with offset := chunkStop o.fileData m, inFlight := 1 } (c + 2 + 1)
  rw [show sendMove x (skipsOf (some (ranges m))) o.fileData
    { s' with offset := chunkStop o.fileData m, inFlight := 1 } = .wait by simp [sendMove, hlast]] at hwait
  obtain ⟨k, lost, hp, _⟩ := hwait
  have hsettles : Settles (initiator x o) (responder x (cfg.later now declined)) _ _ :=
    ⟨h₁, .of_recv hp rfl rfl rfl⟩
  rw [hsettles.ends_iff]
  intro hgood
  obtain ⟨f, hf, hsucc⟩ := hP.success _ hgood
  exact hin.early f hf hsucc

/-- Both sides have the whole file. -/
theorem resumed_complete {resume : ResumeState} {journal : Journal} (hm : m = o.fileData.length)
    (hs : s = if (h.second now m bytes).Placed then (h.second now m bytes).after x resume journal
        (wrote (id + 1) (.fileMetadataAck o.transferId 1 1 true))
      else .closed (h.second now m bytes).fs journal (wrote (id + 1) (.fileMetadataAck o.transferId 1 1 true))
        (.error .io))
    (hP : GoodEnd o (cfg.later now declined) fs P) :
    Ends (initiator x o) (responder x (cfg.later now declined)) P
        (resumeNet js c (fs.set (o.partPath cfg) (some (.file bytes))) j₁ id) ↔ (h.second now m bytes).Placed := by
  obtain ⟨n, s', hr, hin, hoff, hflight, hright⟩ := resume_at h hnow hj hstep js (by rw [hs]; split <;> rfl)
    (Nat.le_of_eq hm) (.inr hm)
  obtain ⟨n', hr', hl, hright', hR, hL, ha, hearly⟩ := hin.drained (q := responder x (cfg.later now declined))
    (initiator_chunkSender x o js (some (ranges m))) (hoff.trans hm)
  have hdone : (h.second now m bytes).Done x (fun _ _ _ => True) n'.right := by
    rw [hright', hright, hs, Incoming.Done]
    split
    · exact ⟨_, _, _, trivial, rfl⟩
    · exact ⟨_, _, _, rfl⟩
  exact ends_iff_placed h.compact hP rfl h.second_dest rfl (hr.trans hr') hl hdone hR hL ha hearly

omit hj hstep in
/-- **Where the `.part` file holds what the journal says, or the journal says
nothing**, a resumed leg ends well exactly when the file can be put in its
place. -/
theorem resumed_ends_iff (hj : j₁ (hexEncode o.transferId.bytes) = some (o.journaled x cfg m))
    (hfits : Disk.Limits.fits (o.partPath cfg) = true) (hm : m < o.fileData.length) (haligned : chunkDataSize ∣ m)
    (hbytes : m = 0 ∨ bytes = o.fileData.take m) (hP : GoodEnd o (cfg.later now declined) fs P) (js : Journal) (c id : Nat) :
    Ends (initiator x o) (responder x (cfg.later now declined)) P
        (resumeNet js c (fs.set (o.partPath cfg) (some (.file bytes))) j₁ id) ↔
      (o.written (cfg.later now declined) fs).Takes (o.destination (cfg.later now declined) fs) := by
  rw [← h.second_placed_iff now declined m bytes]
  have hpart : (h.second now m bytes).fs (h.second now m bytes).partPath = some (.file bytes) := set_self
  rcases Nat.eq_zero_or_pos m with rfl | hpos
  · have hopen := (h.second now 0 bytes).begin_fresh (cfg.later now declined) j₁ (id + 1) (c + 1) o.transferId h.compact
      (journaled_unmodified x o cfg 0) ((journaled_hasPartial x o cfg 0).trans rfl)
    dsimp only at hopen
    rw [if_pos ⟨by rw [hpart]; simp, hfits⟩] at hopen
    exact resumed_in_step h hnow hj hopen rfl hm (Nat.dvd_zero _) hP
  · have hbytes : bytes = o.fileData.take m := hbytes.resolve_left (by omega)
    have hopen := (h.second now m bytes).begin_resumed (cfg.later now declined) j₁ (id + 1) (c + 1) o.transferId
      h.compact (journaled_unmodified x o cfg m) ((journaled_hasPartial x o cfg m).trans (decide_eq_true hpos)) hm
      (hbytes ▸ hpart)
    exact resumed_in_step h hnow hj hopen rfl hm haligned hP

omit hj hstep in
/-- The same where both have the whole file. -/
theorem resumed_complete_iff (hj : j₁ (hexEncode o.transferId.bytes) = some (o.journaled x cfg o.fileData.length))
    (hne : o.fileData ≠ []) (hP : GoodEnd o (cfg.later now declined) fs P) (js : Journal) (c id : Nat) :
    Ends (initiator x o) (responder x (cfg.later now declined)) P
        (resumeNet js c (fs.set (o.partPath cfg) (some (.file o.fileData))) j₁ id) ↔
      (o.written (cfg.later now declined) fs).Takes (o.destination (cfg.later now declined) fs) := by
  rw [← h.second_placed_iff now declined o.fileData.length o.fileData]
  have hopen := (h.second now o.fileData.length o.fileData).begin_full (cfg.later now declined) j₁ (id + 1) (c + 1)
    o.transferId h.compact (journaled_unmodified x o cfg _)
    ((journaled_hasPartial x o cfg _).trans (decide_eq_true (List.length_pos_iff.mpr hne))) set_self
  exact resumed_complete h hnow hj hopen rfl rfl hP

end

/-! ## Cut off between chunks -/

/-- **Resuming is as good as not having been cut off.** A first attempt is
cut off anywhere with `k` chunks taken, `k` less than the file has; then the
same peer asks again before the journal expires, and sends what the reported
ranges leave. Every run of that second attempt ends with the acknowledgement
of success and the file in its place exactly when every run of a transfer
that is not cut off does, and that is when the destination takes a file: no
directory is there, and its path is not too long. -/
theorem resume_ends_iff_uninterrupted {x : Ext} {o : Outbound} {cfg : SessionConfig} {fs : Fs} {j : Journal}
    (h : Offered x o cfg fs j) {k : Nat} (hk : k < chunkCount o.fileData) {js : Journal} {c id : Nat}
    {n : Net Frame OutboundState Session}
    (hr : Reaches (initiator x o) (responder x cfg) (sendStart js c fs j id) n) (hn : ChunksTaken k n) {now : Nat}
    (hnow : now ≤ cfg.now + 86400) (declined : Option String) (c₂ id₂ : Nat) :
    let resumed := Ends (initiator x o) (responder x (cfg.later now declined)) (o.Delivered (cfg.later now declined) fs)
      (resumeNet n.left.journal c₂ n.right.fs n.right.journal id₂)
    let uninterrupted := Ends (initiator x o) (responder x (cfg.later now none)) (o.Delivered (cfg.later now none) fs)
      (sendStart js c fs j id)
    (resumed ↔ uninterrupted) ∧
      (uninterrupted ↔ (o.written (cfg.later now none) fs).Takes (o.destination (cfg.later now none) fs)) := by
  have hk' := lt_chunkCount_iff.mp hk
  have hne : o.fileData ≠ [] := by rintro hnil; simp [hnil] at hk'
  have hpart := hn.part_free h hr
  obtain ⟨id', hright⟩ := hn.right_eq h hr hk'
  have hwhole := @nonempty_ends_iff x o (cfg.later now none) fs j
    ⟨h.compact, h.short, h.name, h.accepted, rfl, h.root, h.fresh⟩ hne hpart js c id
  have hresumed := resumed_ends_iff h hnow (save_journaled x o cfg j _) hpart.2 hk' (Nat.dvd_mul_left _ _) (.inr rfl)
    (o.delivered_goodEnd (cfg.later now declined) fs) n.left.journal c₂ id₂
  have hfs : n.right.fs = fs.set (o.partPath cfg) (some (.file (o.fileData.take (k * chunkDataSize)))) := by
    rw [hright]
    rfl
  have hj : n.right.journal = j.save (o.journaled x cfg (k * chunkDataSize)) := by
    rw [hright]
    rfl
  rw [← hfs, ← hj] at hresumed
  exact ⟨hresumed.trans hwhole.symm, hwhole⟩

/-! ## Stopped inside a chunk step -/

/-- Where the receiver's process can stop while it stores a chunk: the write
to the `.part` file, which may be half done, then the journal. -/
inductive CrashPoint where
  | beforeWrite
  | duringWrite (written : Nat)
  | afterWrite
  | afterSave

/-- A write half done has written something, and not all of it. -/
def CrashPoint.Proper (length : Nat) : CrashPoint → Prop
  | .duringWrite written => 0 < written ∧ written < length
  | _ => True

/-- What is left of the state when the process stops while `receive_file`
stores `data`. -/
def RecvState.crash (a : RecvArgs) (l : RecvLocals) (data : Bytes) (s : RecvState) : CrashPoint → RecvState
  | .beforeWrite => s
  | .duringWrite written => { s with fs := (s.fs.append a.partPath (data.take written)).getD s.fs }
  | .afterWrite => { s with fs := (s.fs.append a.partPath data).getD s.fs }
  | .afterSave => (storeChunk a (l.receivedBytes + data.length) data s).getD s

/-- The disk and the journal of a responder that stops inside the step of a
frame. -/
def Session.crash (f : Frame) (at_ : CrashPoint) : Session → Fs × Journal
  | .transfer _ st => match st.phase with
    | .receiving a _ l =>
      let s := st.recv.crash a l (f.payload.drop 40) at_
      (s.fs, s.journal)
    | _ => (st.recv.fs, st.recv.journal)
  | s => (s.fs, s.journal)

/-- Delivered, and each chunk the receiver read was acknowledged once. -/
def Outbound.Resumed (o : Outbound) (cfg : SessionConfig) (fs : Fs) (n : Net Frame OutboundState Session) : Prop :=
  o.Delivered cfg fs n ∧
    ∀ f ∈ n.gotRight, f.kind = .chunk → (n.gotLeft.filterMap ackedId?).count f.messageId = 1

/-- The journal has no chunk of the file, or it agrees with the `.part` file,
or the `.part` file has one whole chunk more, not the last. -/
def Recovers (data : Bytes) (k : Nat) : CrashPoint → Prop
  | .beforeWrite => True
  | .duringWrite _ => k = 0
  | .afterWrite => k = 0 ∨ k + 1 < chunkCount data
  | .afterSave => True

theorem Outbound.resumed_goodEnd (o : Outbound) (cfg : SessionConfig) (fs : Fs) : GoodEnd o cfg fs (o.Resumed cfg fs) where
  holds := by
    intro n hd hacks honce
    refine ⟨hd, fun f hf hk => ?_⟩
    rw [hacks]
    exact List.count_eq_one_of_mem honce (List.mem_filterMap.mpr ⟨f, hf, by simp [chunkId?, hk]⟩)
  success := fun _ hr => hr.1.success

theorem take_append_slice_take {data : Bytes} {m stop w : Nat} (hw : w ≤ stop - m) :
    data.take m ++ (slice data m stop).take w = data.take (m + w) := by
  rw [slice, List.take_take, Nat.min_eq_left hw, ← List.take_add]

section

variable {x : Ext} {o : Outbound} {cfg : SessionConfig} {fs : Fs} {j : Journal} (h : Offered x o cfg fs j) {m c id : Nat}

/-- What a crash inside a chunk step leaves: the `.part` file's bytes and the
bytes the journal has. -/
def CrashPoint.leaves (data : Bytes) (m : Nat) : CrashPoint → Bytes × Nat
  | .beforeWrite => (data.take m, m)
  | .duringWrite written => (data.take (m + written), m)
  | .afterWrite => (data.take (chunkStop data m), m)
  | .afterSave => (data.take (chunkStop data m), chunkStop data m)

theorem crash_eq (hm : m < o.fileData.length) (at_ : CrashPoint) (hat : at_.Proper (chunkStop o.fileData m - m)) :
    (h.first.waiting x m (o.journaled x cfg m) (j.save (o.journaled x cfg m)) (quiet id)).crash
        (fileChunk x o.fileData 1 m c) at_ =
      (fs.set (o.partPath cfg) (some (.file (at_.leaves o.fileData m).1)),
        j.save (o.journaled x cfg (at_.leaves o.fileData m).2)) := by
  obtain ⟨hlo, hhi⟩ := chunkStop_bounds hm
  have hdata : (fileChunk x o.fileData 1 m c).payload.drop 40 = slice o.fileData m (chunkStop o.fileData m) :=
    chunkPayload_data
  have hlen := slice_length (Nat.le_of_lt hlo) hhi
  have hdisk : h.first.disk m = fs.set (o.partPath cfg) (some (.file (o.fileData.take m))) := rfl
  have happend : ∀ bytes : Bytes, (h.first.disk m).append (o.partPath cfg) bytes =
      some (fs.set (o.partPath cfg) (some (.file (o.fileData.take m ++ bytes)))) := by
    intro bytes
    simp only [hdisk, Disk.Fs.append, set_self, set_set]
  have hargs : (h.first.a x).partPath = o.partPath cfg := rfl
  cases at_ with
  | beforeWrite => rfl
  | duringWrite written =>
    simp only [Session.crash, Incoming.waiting, RecvState.crash, hdata, hargs, happend, Option.getD_some,
      CrashPoint.leaves, take_append_slice_take (Nat.le_of_lt hat.2)]
  | afterWrite =>
    simp only [Session.crash, Incoming.waiting, RecvState.crash, hdata, hargs, happend, Option.getD_some,
      CrashPoint.leaves, take_append_slice (Nat.le_of_lt hlo)]
  | afterSave =>
    have hid : (h.first.a x).fileId = 1 := rfl
    have hsum : m + (chunkStop o.fileData m - m) = chunkStop o.fileData m := by omega
    simp only [Session.crash, Incoming.waiting, RecvState.crash, storeChunk, hdata, hargs, hid, hlen, hsum, happend,
      Option.map_some, Option.getD_some, CrashPoint.leaves, take_append_slice (Nat.le_of_lt hlo),
      journaled_record x o cfg m (Nat.lt_of_le_of_lt (Nat.zero_le m) hlo)]
    rw [Journal.save_save ((journaled_transferId _ _ _ _).trans (journaled_transferId _ _ _ _).symm)]

variable {now : Nat} {declined : Option String} {P : Net Frame OutboundState Session → Prop}
include h

/-- The journal misses the last chunk: well or not, the file is in its place
or given up before the chunk comes. -/
theorem not_resumed_last (hnow : now ≤ cfg.now + 86400) {j₁ : Journal}
    (hj : j₁ (hexEncode o.transferId.bytes) = some (o.journaled x cfg m)) (hpos : 0 < m) (hm : m < o.fileData.length)
    (hlast : chunkStop o.fileData m = o.fileData.length) (haligned : chunkDataSize ∣ m)
    (hP : GoodEnd o (cfg.later now declined) fs P) (js : Journal) :
    ¬ Ends (initiator x o) (responder x (cfg.later now declined)) P
        (resumeNet js c (fs.set (o.partPath cfg) (some (.file o.fileData))) j₁ id) := by
  have hopen := (h.second now m o.fileData).begin_full (cfg.later now declined) j₁ (id + 1) (c + 1) o.transferId h.compact
    (journaled_unmodified x o cfg m) ((journaled_hasPartial x o cfg m).trans (decide_eq_true hpos)) set_self
  dsimp only at hopen
  split at hopen
  · exact resumed_unanswered h hnow hj hopen rfl hm hlast haligned hP
  · obtain ⟨n, s', hr, hin, _, hflight, hright⟩ := resume_at h hnow hj hopen js rfl (Nat.le_of_lt hm) (.inl haligned)
    refine not_ends_of_closed hP.success hr hright ?_
    have hL : n.toLeft = [] := List.eq_nil_of_length_eq_zero (hin.waiting.trans hflight)
    simpa [hL] using hin.early

/-- The journal misses part of a chunk. -/
theorem not_resumed_torn (hnow : now ≤ cfg.now + 86400) {j₁ : Journal} {m' : Nat}
    (hj : j₁ (hexEncode o.transferId.bytes) = some (o.journaled x cfg m)) (hpos : 0 < m) (hm : m < m')
    (hm' : m' < chunkStop o.fileData m) (haligned : chunkDataSize ∣ m)
    (hP : GoodEnd o (cfg.later now declined) fs P) (js : Journal) :
    ¬ Ends (initiator x o) (responder x (cfg.later now declined)) P
        (resumeNet js c (fs.set (o.partPath cfg) (some (.file (o.fileData.take m')))) j₁ id) := by
  have hle : chunkStop o.fileData m ≤ o.fileData.length := Nat.min_le_right _ _
  have hopen := (h.second now m (o.fileData.take m')).begin_resumed (cfg.later now declined) j₁ (id + 1) (c + 1)
    o.transferId h.compact (journaled_unmodified x o cfg m)
    ((journaled_hasPartial x o cfg m).trans (decide_eq_true hpos)) (m := m') (show m' < o.fileData.length by omega) set_self
  exact resumed_torn h hnow hj hopen rfl hm hm' haligned hP

/-- The journal misses a chunk that is not the last. -/
theorem resumed_ahead_iff (hnow : now ≤ cfg.now + 86400) {j₁ : Journal}
    (hj : j₁ (hexEncode o.transferId.bytes) = some (o.journaled x cfg m)) (hpos : 0 < m)
    (hm : chunkStop o.fileData m < o.fileData.length) (haligned : chunkDataSize ∣ m)
    (hP : GoodEnd o (cfg.later now declined) fs P) (js : Journal) :
    Ends (initiator x o) (responder x (cfg.later now declined)) P
        (resumeNet js c (fs.set (o.partPath cfg) (some (.file (o.fileData.take (chunkStop o.fileData m))))) j₁ id) ↔
      (o.written (cfg.later now declined) fs).Takes (o.destination (cfg.later now declined) fs) := by
  have hopen := (h.second now m (o.fileData.take (chunkStop o.fileData m))).begin_resumed (cfg.later now declined) j₁
    (id + 1) (c + 1) o.transferId h.compact (journaled_unmodified x o cfg m)
    ((journaled_hasPartial x o cfg m).trans (decide_eq_true hpos)) (m := chunkStop o.fileData m) hm set_self
  rw [← h.second_placed_iff now declined m (o.fileData.take (chunkStop o.fileData m))]
  exact resumed_one_ahead h hnow hj hopen rfl hm haligned hP

end

/-- **Resuming after a crash.** The receiver's process stops inside the step
of the chunk after the `k`th, at any point of it. After the restart the same
peer asks again and sends what the reported ranges leave. Every run ends with
every chunk read acknowledged once, the acknowledgement of success and the
file in its place, exactly when the crash point is one of `Recovers` and the
destination takes a file.

The other crash points, for `k > 0`: a write half done leaves part of a chunk
in the `.part` file, and `receive_file` refuses the chunk that is sent again;
a last chunk written and not yet in the journal leaves a complete `.part`
file, which `receive_file` renames at once, and the chunk that is sent again
reaches the outer loop, which never answers it. -/
theorem crash_recovers_iff {x : Ext} {o : Outbound} {cfg : SessionConfig} {fs : Fs} {j : Journal}
    (h : Offered x o cfg fs j) {k : Nat} (hk : k < chunkCount o.fileData) {js : Journal} {c id : Nat}
    {n : Net Frame OutboundState Session}
    (hr : Reaches (initiator x o) (responder x cfg) (sendStart js c fs j id) n) (hn : ChunksTaken k n)
    {f : Frame} {rest : List Frame} (hf : n.toRight = f :: rest) {at_ : CrashPoint}
    (hat : at_.Proper (f.payload.length - 40)) {now : Nat} (hnow : now ≤ cfg.now + 86400) (declined : Option String)
    (c₂ id₂ : Nat) :
    Ends (initiator x o) (responder x (cfg.later now declined)) (o.Resumed (cfg.later now declined) fs)
        (resumeNet n.left.journal c₂ (n.right.crash f at_).1 (n.right.crash f at_).2 id₂) ↔
      Recovers o.fileData k at_ ∧
        (o.written (cfg.later now declined) fs).Takes (o.destination (cfg.later now declined) fs) := by
  have hm := lt_chunkCount_iff.mp hk
  have hne : o.fileData ≠ [] := by rintro hnil; simp [hnil] at hm
  have haligned : chunkDataSize ∣ k * chunkDataSize := Nat.dvd_mul_left _ _
  obtain ⟨hlo, hhi⟩ := chunkStop_bounds hm
  have hP := Outbound.resumed_goodEnd o (cfg.later now declined) fs
  have hpos : k ≠ 0 → 0 < k * chunkDataSize := fun h0 => Nat.mul_pos (Nat.pos_of_ne_zero h0) (by decide)
  have hsave := save_journaled x o cfg j
  -- The last chunk is the one that stops where the file does.
  have hlast : chunkStop o.fileData (k * chunkDataSize) < o.fileData.length ↔ k + 1 < chunkCount o.fileData := by
    rw [lt_chunkCount_iff, Nat.succ_mul, chunkStop_lt_iff]
  have hpart := hn.part_free h hr
  obtain ⟨id', hright⟩ := hn.right_eq h hr hm
  have hf := hn.next_eq h hr hm hf
  have hlen : f.payload.length - 40 = chunkStop o.fileData (k * chunkDataSize) - k * chunkDataSize := by
    rw [hf]
    simp [fileChunk, chunkFrame, slice_length (Nat.le_of_lt hlo) hhi]
  rw [hlen] at hat
  rw [hright, hf, crash_eq h hm at_ hat]
  -- With nothing in the journal the `.part` file is started over.
  have hfresh : k = 0 → ∀ bytes, Ends (initiator x o) (responder x (cfg.later now declined))
      (o.Resumed (cfg.later now declined) fs)
        (resumeNet n.left.journal c₂ (fs.set (o.partPath cfg) (some (.file bytes)))
          (j.save (o.journaled x cfg (k * chunkDataSize))) id₂) ↔
      (o.written (cfg.later now declined) fs).Takes (o.destination (cfg.later now declined) fs) := by
    intro h0 bytes
    exact resumed_ends_iff h hnow (hsave _) hpart.2 hm haligned (.inl (by simp [h0])) hP _ _ _
  cases at_ with
  | beforeWrite =>
    simp only [CrashPoint.leaves, Recovers, true_and]
    exact resumed_ends_iff h hnow (hsave _) hpart.2 hm haligned (.inr rfl) hP _ _ _
  | duringWrite written =>
    simp only [CrashPoint.leaves, Recovers]
    obtain ⟨hw, hw'⟩ := hat
    by_cases h0 : k = 0
    · rw [hfresh h0]
      simp [h0]
    · refine iff_of_false ?_ fun hok => h0 hok.1
      exact not_resumed_torn h hnow (hsave _) (hpos h0) (by omega) (by omega) haligned hP _
  | afterWrite =>
    simp only [CrashPoint.leaves, Recovers]
    by_cases h0 : k = 0
    · rw [hfresh h0]
      simp [h0]
    · by_cases hl : k + 1 < chunkCount o.fileData
      · rw [resumed_ahead_iff h hnow (hsave _) (hpos h0) (hlast.mpr hl) haligned hP]
        simp [hl]
      · have hstop : chunkStop o.fileData (k * chunkDataSize) = o.fileData.length :=
          Nat.le_antisymm hhi (Nat.le_of_not_lt fun hlt => hl (hlast.mp hlt))
        rw [hstop, List.take_length]
        refine iff_of_false ?_ fun hok => by omega
        exact not_resumed_last h hnow (hsave _) (hpos h0) hm hstop haligned hP _
  | afterSave =>
    simp only [CrashPoint.leaves, Recovers, true_and]
    rcases Nat.lt_or_eq_of_le hhi with hlt | hstop
    · refine resumed_ends_iff h hnow (hsave _) hpart.2 hlt ?_ (.inr rfl) hP _ _ _
      rw [chunkStop_eq_add hlt]
      exact Nat.dvd_add haligned (Nat.dvd_refl _)
    · rw [hstop, List.take_length]
      exact resumed_complete_iff h hnow (hsave _) hne hP _ _ _

/-! ### A file of two chunks -/

theorem twoChunks_length : twoChunks.length = 1048577 := List.length_replicate

theorem twoChunks_offered :
    Offered sampleExt (sampleOutbound twoChunks) sampleConfig sampleFs fun _ => none :=
  sample_offered _ (by rw [twoChunks_length]; decide)

theorem twoChunks_one : 1 * chunkDataSize < (sampleOutbound twoChunks).fileData.length := by
  rw [show (sampleOutbound twoChunks).fileData.length = 1048577 from twoChunks_length]
  decide

theorem twoChunks_unobstructed : (sampleOutbound twoChunks).Unobstructed (sampleConfig.later 2000 none) sampleFs :=
  ⟨by decide, by decide⟩

/-- Cut off after the first chunk, the file arrives in a second attempt. -/
theorem resume_second_chunk :
    ∃ n, Reaches (initiator sampleExt (sampleOutbound twoChunks)) (responder sampleExt sampleConfig)
        (sendStart (fun _ => none) 2 sampleFs (fun _ => none) 2) n ∧ ChunksTaken 1 n ∧
      Ends (initiator sampleExt (sampleOutbound twoChunks)) (responder sampleExt (sampleConfig.later 2000 none))
        ((sampleOutbound twoChunks).Delivered (sampleConfig.later 2000 none) sampleFs)
        (resumeNet n.left.journal 2 n.right.fs n.right.journal 2) := by
  obtain ⟨n, f, hr, hn, _⟩ := twoChunks_offered.chunk_underway (by decide) (fun _ => none) 2 2 twoChunks_one
  have hboth := resume_ends_iff_uninterrupted twoChunks_offered (lt_chunkCount_iff.mpr twoChunks_one) hr hn
    (show 2000 ≤ sampleConfig.now + 86400 by decide) none 2 2
  exact ⟨n, hr, hn, hboth.1.mpr (hboth.2.mpr twoChunks_unobstructed.dest)⟩

/-- Stopped after the last chunk is in the journal, the receiver recovers. -/
theorem crash_afterSave_recovers :
    ∃ n f, Reaches (initiator sampleExt (sampleOutbound twoChunks)) (responder sampleExt sampleConfig)
        (sendStart (fun _ => none) 2 sampleFs (fun _ => none) 2) n ∧ ChunksTaken 1 n ∧ n.toRight = [f] ∧
      Ends (initiator sampleExt (sampleOutbound twoChunks)) (responder sampleExt (sampleConfig.later 2000 none))
        ((sampleOutbound twoChunks).Resumed (sampleConfig.later 2000 none) sampleFs)
        (resumeNet n.left.journal 2 (n.right.crash f .afterSave).1 (n.right.crash f .afterSave).2 2) := by
  obtain ⟨n, f, hr, hn, hf⟩ := twoChunks_offered.chunk_underway (by decide) (fun _ => none) 2 2 twoChunks_one
  refine ⟨n, f, hr, hn, hf, ?_⟩
  exact (crash_recovers_iff twoChunks_offered (lt_chunkCount_iff.mpr twoChunks_one) hr hn hf
    (show CrashPoint.Proper _ .afterSave from trivial) (show 2000 ≤ sampleConfig.now + 86400 by decide) none 2 2).mpr ⟨trivial, twoChunks_unobstructed.dest⟩

/-- Stopped after the last chunk is written and before the journal has it,
it does not. -/
theorem crash_afterWrite_hangs :
    ∃ n f, Reaches (initiator sampleExt (sampleOutbound twoChunks)) (responder sampleExt sampleConfig)
        (sendStart (fun _ => none) 2 sampleFs (fun _ => none) 2) n ∧ ChunksTaken 1 n ∧ n.toRight = [f] ∧
      ¬ Ends (initiator sampleExt (sampleOutbound twoChunks)) (responder sampleExt (sampleConfig.later 2000 none))
        ((sampleOutbound twoChunks).Resumed (sampleConfig.later 2000 none) sampleFs)
        (resumeNet n.left.journal 2 (n.right.crash f .afterWrite).1 (n.right.crash f .afterWrite).2 2) := by
  obtain ⟨n, f, hr, hn, hf⟩ := twoChunks_offered.chunk_underway (by decide) (fun _ => none) 2 2 twoChunks_one
  refine ⟨n, f, hr, hn, hf, ?_⟩
  obtain ⟨id', hright⟩ := hn.right_eq twoChunks_offered hr twoChunks_one
  have hstop : chunkStop (sampleOutbound twoChunks).fileData (1 * chunkDataSize) =
      (sampleOutbound twoChunks).fileData.length :=
    Nat.min_eq_right (by
      rw [show (sampleOutbound twoChunks).fileData.length = 1048577 from twoChunks_length]
      decide)
  rw [hright, hn.next_eq twoChunks_offered hr twoChunks_one hf,
    crash_eq twoChunks_offered twoChunks_one .afterWrite trivial]
  simp only [CrashPoint.leaves, hstop, List.take_length]
  exact not_resumed_last twoChunks_offered (by decide) (save_journaled _ _ _ _ _) (by decide) twoChunks_one hstop
    (Nat.dvd_mul_left _ _) (Outbound.resumed_goodEnd _ _ _) _

end Nxfr

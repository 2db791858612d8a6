/-
A daemon sending to a daemon: `handle_outbound_send` with `send_file` against
`handle_incoming_transfer` with `receive_file`, from the request to the end
of the session (`outboundSend_delivers_iff`).
-/
import Nxfr.ResponderFacts

namespace Nxfr

open Network

/-! ## The sender -/

/-- What a chunk loop leaves out. -/
def skipsOf : Option (List (Nat × Nat)) → Nat → Nat → Bool
  | none => fun _ _ => false
  | some ranges => covered ranges

/-- The initiator in its chunk loop. -/
def inChunks (journal : Journal) (skip : Option (List (Nat × Nat))) (s : SendState) (c : Nat) : OutboundState :=
  { pc := .chunks skip s, journal, nextMessageId := c }

/-- The initiator after its chunk loop. -/
def chunksSent (journal : Journal) (c : Nat) : OutboundState := { pc := .complete, journal, nextMessageId := c }

theorem initiator_chunkSender (x : Ext) (o : Outbound) (journal : Journal) (skip : Option (List (Nat × Nat))) :
    ChunkSender x (initiator x o) (skipsOf skip) o.fileData 1 (inChunks journal skip) (chunksSent journal) where
  move := by
    intro s c
    have hmove : outboundMove x o skip s = sendMove x (skipsOf skip) o.fileData s := by cases skip <;> rfl
    cases h : sendMove x (skipsOf skip) o.fileData s with
    | skip s' => simp [initiator, inChunks, hmove, h]
    | send flags payload s' => simp [initiator, inChunks, hmove, h]
    | done => simp [initiator, inChunks, chunksSent, hmove, h]
    | wait =>
      refine ⟨onChunkAck skip s (inChunks journal skip s c), (inChunks journal skip s c).lost, ?_, ?_⟩
      · simp [initiator, inChunks, hmove, h]
      · intro id stream message offset length
        simp [onChunkAck, SendState.onFrame, controlFrame, inChunks]

/-! ## The offer -/

namespace Outbound

/-- The path the receiver gives the file. -/
def finalPath (o : Outbound) (cfg : SessionConfig) : Path := joinPath cfg.receiveDir o.fileName

def partPath (o : Outbound) (cfg : SessionConfig) : Path := Nxfr.partPath (o.finalPath cfg)

/-- The disk with the whole file in its `.part` file. -/
def written (o : Outbound) (cfg : SessionConfig) (fs : Fs) : Fs :=
  fs.set (o.partPath cfg) (some (.file o.fileData))

/-- The collision-resolved destination. -/
def destination (o : Outbound) (cfg : SessionConfig) (fs : Fs) : Path :=
  resolveCollision cfg.now (o.written cfg fs) (o.finalPath cfg)

/-- The receiver can write at the `.part` path and at the destination: no
directory is there, and the file system takes the path, which may be longer than
that of the offer. -/
structure Unobstructed (o : Outbound) (cfg : SessionConfig) (fs : Fs) : Prop where
  part : fs.Takes (o.partPath cfg)
  dest : (o.written cfg fs).Takes (o.destination cfg fs)

/-- The transfer the receiver takes part in. -/
def transfer (x : Ext) (o : Outbound) (cfg : SessionConfig) : Transfer :=
  { transferId := o.transferId
    peerIdHex := cfg.peerIdHex
    displayName := o.fileName
    manifest := [{ fileId := 1, relativePath := o.fileName, size := some o.fileData.length
                   sha256 := some (x.sha256 o.fileData), entryType := .file }]
    receiveDir := cfg.receiveDir
    now := cfg.now }

theorem transfer_receiveDir {x : Ext} {o : Outbound} {cfg : SessionConfig} :
    (o.transfer x cfg).receiveDir = cfg.receiveDir := rfl

/-- The journal state once the metadata is in. -/
def begun (x : Ext) (o : Outbound) (cfg : SessionConfig) : ResumeState :=
  (freshResume (o.transfer x cfg)).begin 1 (o.partPath cfg)

/-- The sender has the acknowledgement of success, and the receiver has the
file. -/
def Delivered (o : Outbound) (cfg : SessionConfig) (fs : Fs) (n : Net Frame OutboundState Session) : Prop :=
  (∃ f ∈ n.gotLeft, f.control = .ok (.transferAck o.transferId .success none)) ∧
    n.right.fs (o.destination cfg fs) = some (.file o.fileData)

end Outbound

/-- `handle_outbound_send` about to ask, the receiver's disk and journal
being `fs` and `j`; `c` and `id` are the numbers of the next frames. -/
def sendStart (js : Journal) (c : Nat) (fs : Fs) (j : Journal) (id : Nat) : Net Frame OutboundState Session :=
  { left := { pc := .request, journal := js, nextMessageId := c }, right := .idle fs j (quiet id) }

/-- A file under a name the sanitiser accepts, offered to a receiver that
takes it and knows nothing of the transfer. The name is one component of a
path, and the receive directory is there, as the daemon makes it when it
starts. -/
structure Offered (x : Ext) (o : Outbound) (cfg : SessionConfig) (fs : Fs) (j : Journal) : Prop where
  compact : x.Compact
  short : o.fileData.length < 2 ^ 64
  name : '/' ∉ o.fileName.toList
  accepted : ∃ sanitized, sanitizePath o.fileName = .ok sanitized
  consent : cfg.declined = none
  root : fs.Grounded cfg.receiveDir
  fresh : j (hexEncode o.transferId.bytes) = none

namespace Offered

variable {x : Ext} {o : Outbound} {cfg : SessionConfig} {fs : Fs} {j : Journal}

theorem sane (h : Offered x o cfg fs j) : sanitizePath o.fileName = .ok o.fileName := by
  obtain ⟨sanitized, hs⟩ := h.accepted
  rw [hs, sanitizePath_name h.name hs]

theorem size_le (h : Offered x o cfg fs j) : o.fileName.utf8ByteSize ≤ maxRelativePath := by
  obtain ⟨kept, _, _, _, hsize⟩ := sanitizePath_kept h.sane
  exact hsize

theorem finalPath_eq (h : Offered x o cfg fs j) : o.finalPath cfg = cfg.receiveDir ++ [o.fileName] := by
  have := splitSlash_joinSlash (List.cons_ne_nil o.fileName []) (by simpa using h.name)
  simp only [joinSlash, List.map_singleton, List.intercalate_singleton, String.ofList_toList] at this
  rw [Outbound.finalPath, joinPath, this]

/-- The file on its way in, on a disk with the receive directory. -/
def incoming (h : Offered x o cfg fs j) (t : Transfer) (ht : t.receiveDir = cfg.receiveDir) (fs' : Fs)
    (hroot : fs'.Grounded cfg.receiveDir) : Incoming where
  t := t
  fileId := 1
  streamId := 1
  relativePath := o.fileName
  data := o.fileData
  fs := fs'
  receivedFiles := 0
  stored := []
  short := h.short
  sane := h.sane
  root := by rw [ht]; exact hroot.self
  home := by
    rw [ht, show joinPath cfg.receiveDir o.fileName = _ from h.finalPath_eq, List.dropLast_concat]
    exact hroot

theorem encode_request (h : Offered x o cfg fs j) : encodeControl x (o.requestMessage x) = .ok () := by
  refine encodeControl_ok h.compact ?_ ?_
  · have := h.size_le
    simp only [Outbound.requestMessage, ControlMessage.volume, List.map_singleton, List.sum_singleton, maxRelativePath]
      at this ⊢
    omega
  · rintro _ _ _ _ _ _ ⟨⟩
    simp [maxManifestEntries]

theorem encode_metadata (h : Offered x o cfg fs j) : encodeControl x (o.metadataMessage x) = .ok () := by
  refine encode_small h.compact ?_ (by simp [Outbound.metadataMessage])
  have := h.size_le
  simp only [Outbound.metadataMessage, ControlMessage.volume, Option.map_none, Option.getD_none, maxRelativePath]
    at this ⊢
  omega

end Offered

theorem sendControl_act {x : Ext} {st : OutboundState} {m : ControlMessage} {pc : OutboundPc}
    (he : encodeControl x m = .ok ()) :
    st.sendControl x m pc =
      .send (controlFrame st.nextMessageId m) { st with pc, nextMessageId := st.nextMessageId + 1 } := by
  simp [OutboundState.sendControl, he]

/-- From the last chunk on: the end of the transfer, its acknowledgement,
and the two closing messages. -/
theorem complete_settles {x : Ext} (hx : x.Compact) (o : Outbound) (cfg : SessionConfig)
    {n : Net Frame OutboundState Session} {js : Journal} {c : Nat} {t : Transfer} {fs : Fs} {journal : Journal}
    {resume : ResumeState} {id receivedFiles : Nat} {stored : List StoredFile} (hl : n.left = chunksSent js c)
    (hr : n.right = negotiating t { fs, journal, resume, conn := quiet id } receivedFiles stored)
    (hR : n.toRight = []) (hL : n.toLeft = []) :
    ∃ n', Settles (initiator x o) (responder x cfg) n n' ∧ n'.right.fs = fs ∧
      (∃ f ∈ n'.gotLeft, f.control = .ok (.transferAck t.transferId .success none)) ∧
      n'.gotLeft.filterMap ackedId? = n.gotLeft.filterMap ackedId? ∧
      n'.gotRight.filterMap chunkId? = n.gotRight.filterMap chunkId? := by
  have hcomplete : initiator x o n.left = .send (controlFrame c (.transferComplete o.transferId))
      { pc := .awaitAck, journal := js, nextMessageId := c + 1 } := by
    rw [hl]
    exact sendControl_act (encode_small hx (by simp [ControlMessage.volume]) (by simp))
  have h₁ := responder_call cfg hcomplete hr rfl (sessionStep_complete hx) rfl rfl hR hL
  have hclose : initiator x o { pc := .close, journal := js.delete o.outboundId, nextMessageId := c + 1 } =
      .send (controlFrame (c + 1) (.sessionClose (some "normal")))
        { pc := .awaitClose, journal := js.delete o.outboundId, nextMessageId := c + 2 } :=
    sendControl_act (encode_small hx
      (by simp only [ControlMessage.volume, Option.map_some, Option.getD_some]; decide) (by simp))
  have h₂ := h₁.trans (responder_call cfg hclose rfl rfl (sessionStep_close hx) rfl rfl rfl rfl)
  refine ⟨_, ⟨h₂, ?_⟩, rfl, ?_, ?_, ?_⟩
  · rintro (_ | _) <;> rfl
  · exact ⟨controlFrame id (.transferAck t.transferId .success none), by simp, rfl⟩
  · simp [ackedId?, controlFrame]
  · simp [chunkId?, controlFrame]

/-! ## A whole transfer -/

section

variable {x : Ext} {o : Outbound} {cfg : SessionConfig} {fs : Fs} {j : Journal} (h : Offered x o cfg fs j)
include h

/-- The file of a first attempt. -/
def Offered.first : Incoming := h.incoming (o.transfer x cfg) Outbound.transfer_receiveDir fs h.root

section

variable {t : Transfer} (ht : t.receiveDir = cfg.receiveDir) {fs' : Fs} (hroot : fs'.Grounded cfg.receiveDir)
  {cfg' : SessionConfig}

theorem Offered.incoming_disk (hdir : cfg'.receiveDir = cfg.receiveDir) :
    (h.incoming t ht fs' hroot).disk o.fileData.length = o.written cfg' fs' := by
  simp only [Incoming.disk, Offered.incoming, List.take_length, Incoming.partPath, Incoming.finalPath, ht,
    Outbound.written, Outbound.partPath, Outbound.finalPath, hdir]

theorem Offered.incoming_dest (hdir : cfg'.receiveDir = cfg.receiveDir) (hnow : t.now = cfg'.now) :
    (h.incoming t ht fs' hroot).dest = o.destination cfg' fs' := by
  rw [Incoming.dest, Outbound.destination, ← h.incoming_disk ht hroot hdir]
  simp only [Offered.incoming, hnow, Incoming.finalPath, ht, Outbound.finalPath, hdir]

theorem Offered.incoming_placed_iff (hdir : cfg'.receiveDir = cfg.receiveDir) (hnow : t.now = cfg'.now) :
    (h.incoming t ht fs' hroot).Placed ↔ (o.written cfg' fs').Takes (o.destination cfg' fs') := by
  rw [← h.incoming_dest ht hroot hdir hnow, ← h.incoming_disk ht hroot hdir]
  rfl

end

/-- The request is accepted. -/
theorem request_accepted (js : Journal) (c id : Nat) :
    Reaches (initiator x o) (responder x cfg) (sendStart js c fs j id)
      { left := { pc := .metadata none, journal := js.save (o.journalEntry x), nextMessageId := c + 1 }
        right := negotiating (o.transfer x cfg)
          { fs, journal := j, resume := freshResume (o.transfer x cfg), conn := quiet (id + 1) } 0 []
        gotRight := [controlFrame c (o.requestMessage x)]
        gotLeft := [controlFrame id (.transferAccept o.transferId)] } := by
  have hreq : initiator x o { pc := .request, journal := js, nextMessageId := c } =
      .send (controlFrame c (o.requestMessage x)) { pc := .awaitAccept, journal := js, nextMessageId := c + 1 } :=
    sendControl_act h.encode_request
  have h₁ := responder_call cfg (n := sendStart js c fs j id) hreq rfl rfl
    (sessionStep_request h.compact h.consent) rfl rfl rfl rfl
  simpa [enterTransfer, startTransfer, createDirs, loadResume, h.fresh, onReply, controlFrame, sendStart,
    Session.withConn, negotiating, Outbound.transfer] using h₁

/-- The metadata is accepted, and `receive_file` waits, if it can write. -/
theorem metadata_accepted (js : Journal) (c id : Nat) :
    Reaches (initiator x o) (responder x cfg) (sendStart js c fs j id)
      { left := inChunks (js.save (o.journalEntry x)) none {} (c + 2)
        right := if fs.Takes (o.partPath cfg) then
            h.first.waiting x 0 (o.begun x cfg) (j.save (o.begun x cfg)) (quiet (id + 2))
          else .closed fs (j.save (o.begun x cfg)) (quiet (id + 2)) (.error .io)
        gotRight := [controlFrame c (o.requestMessage x), controlFrame (c + 1) (o.metadataMessage x)]
        gotLeft := [controlFrame id (.transferAccept o.transferId),
          controlFrame (id + 1) (.fileMetadataAck o.transferId 1 1 true)] } := by
  have hmeta : initiator x o { pc := .metadata none, journal := js.save (o.journalEntry x), nextMessageId := c + 1 } =
      .send (controlFrame (c + 1) (o.metadataMessage x))
        { pc := .awaitMetadataAck none, journal := js.save (o.journalEntry x), nextMessageId := c + 2 } :=
    sendControl_act h.encode_metadata
  have hnew : (freshResume (o.transfer x cfg)).hasPartial 1 = false := rfl
  have hmod : isModified (freshResume (o.transfer x cfg)) 1 (x.sha256 o.fileData) = false := by
    simp [isModified, hnew]
  have hopen := h.first.begin_fresh cfg j (id + 1) (c + 1) o.transferId h.compact hmod hnew
  dsimp only at hopen
  by_cases htakes : fs.Takes (o.partPath cfg)
  · rw [if_pos (show h.first.fs.Takes h.first.partPath from htakes)] at hopen
    rw [if_pos htakes]
    have h₂ := (request_accepted h js c id).trans (responder_call cfg hmeta rfl rfl hopen rfl rfl rfl rfl)
    exact h₂
  · rw [if_neg (show ¬ h.first.fs.Takes h.first.partPath from htakes)] at hopen
    rw [if_neg htakes]
    have h₂ := (request_accepted h js c id).trans (responder_call cfg hmeta rfl rfl hopen rfl rfl rfl rfl)
    exact h₂

theorem Offered.chunkReceiver (Keeps : Nat → ResumeState → Journal → Prop) (hk : h.first.Records Keeps) :
    ChunkReceiver x (responder x cfg) o.fileData 1 (h.first.Waits x Keeps) (h.first.Done x Keeps) :=
  h.first.chunkReceiver Keeps h.compact hk cfg

omit h in
/-- The chunk loop starts in step with `receive_file`. -/
theorem sendStart_inStep (js : Journal) (c id : Nat) {r : Session} :
    InStep (inChunks (js.save (o.journalEntry x)) none)
      { left := inChunks (js.save (o.journalEntry x)) none {} (c + 2), right := r
        gotRight := [controlFrame c (o.requestMessage x), controlFrame (c + 1) (o.metadataMessage x)]
        gotLeft := [controlFrame id (.transferAccept o.transferId),
          controlFrame (id + 1) (.fileMetadataAck o.transferId 1 1 true)] } {} (c + 2) where
  left := rfl
  sent := rfl
  waiting := rfl
  acks := by simp
  answered := by constructor <;> simp [ackedId?, chunkId?, controlFrame]
  early := by simp [IsSuccess, controlFrame]

omit h in
/-- A transfer whose receiver has given up is not delivered. -/
theorem not_ends_of_closed {fs₁ : Fs} {P : Net Frame OutboundState Session → Prop}
    (hP : ∀ n, P n → ∃ f ∈ n.gotLeft, IsSuccess f) {n n' : Net Frame OutboundState Session}
    (hr : Reaches (initiator x o) (responder x cfg) n n') {j₁ : Journal} {id : Nat} {e : Except Fail Unit}
    (hclosed : n'.right = .closed fs₁ j₁ (quiet id) e) (hsilent : ∀ f ∈ n'.gotLeft ++ n'.toLeft, ¬ IsSuccess f) :
    ¬ Ends (initiator x o) (responder x cfg) P n := by
  rw [hr.ends_iff]
  exact not_ends_of_halt hP (show responder x cfg n'.right = .halt true by rw [hclosed]; rfl) hsilent

omit h in
theorem Outbound.Delivered.success {n : Net Frame OutboundState Session} (hd : o.Delivered cfg fs n) :
    ∃ f ∈ n.gotLeft, IsSuccess f := by
  obtain ⟨⟨f, hf, hc⟩, _⟩ := hd
  exact ⟨f, hf, _, _, hc⟩

/-- A way to end that a transfer comes to when the file is delivered and
every chunk answered, and only with the acknowledgement of success. -/
structure GoodEnd (o : Outbound) (cfg : SessionConfig) (fs : Fs) (P : Net Frame OutboundState Session → Prop) :
    Prop where
  holds : ∀ n, o.Delivered cfg fs n → n.gotLeft.filterMap ackedId? = n.gotRight.filterMap chunkId? →
    (n.gotRight.filterMap chunkId?).Nodup → P n
  success : ∀ n, P n → ∃ f ∈ n.gotLeft, IsSuccess f

omit h in
theorem Outbound.delivered_goodEnd (o : Outbound) (cfg : SessionConfig) (fs : Fs) : GoodEnd o cfg fs (o.Delivered cfg fs) :=
  ⟨fun _ hd _ _ => hd, fun _ => Outbound.Delivered.success⟩

/-- With no byte to send, the end of the transfer reaches `receive_file`,
which passes over it: each side waits for the other. -/
theorem empty_settles (hempty : o.fileData = []) (hpart : fs.Takes (o.partPath cfg)) (js : Journal) (c id : Nat) :
    ∃ n, Settles (initiator x o) (responder x cfg) (sendStart js c fs j id) n ∧ ∀ f ∈ n.gotLeft, ¬ IsSuccess f := by
  have h₁ := metadata_accepted h js c id
  rw [if_pos hpart] at h₁
  obtain ⟨n₂, hr₂, hl, hright, hR, hL, _, hearly⟩ :=
    (sendStart_inStep (x := x) (o := o) js c id).drained (q := responder x cfg)
      (initiator_chunkSender x o _ none) (by simp [hempty])
  have hcomplete : initiator x o n₂.left = .send (controlFrame (c + 2) (.transferComplete o.transferId))
      { pc := .awaitAck, journal := js.save (o.journalEntry x), nextMessageId := c + 3 } := by
    rw [hl]
    exact sendControl_act (encode_small h.compact (by simp [ControlMessage.volume]) (by simp))
  have h₃ := (h₁.trans hr₂).trans (.left_send hcomplete)
  have h₄ := h₃.trans (.right_only (controlFrame (c + 2) (.transferComplete o.transferId))
    (show responder x cfg n₂.right = .recv (sessionStep x cfg n₂.right) (sessionLost n₂.right) by rw [hright]; rfl)
    (by simp [hR]))
  rw [hright, sessionStep_complete_inside] at h₄
  exact ⟨_, ⟨h₄, .of_recv rfl rfl rfl hL⟩, hearly⟩

/-- With bytes to send, both chunk loops come to their ends. -/
theorem chunks_exchanged (hne : o.fileData ≠ []) (hpart : fs.Takes (o.partPath cfg)) (js : Journal) (c id : Nat) :
    ∃ n c', Reaches (initiator x o) (responder x cfg) (sendStart js c fs j id) n ∧
      n.left = chunksSent (js.save (o.journalEntry x)) c' ∧ h.first.Done x (fun _ _ _ => True) n.right ∧
      n.toRight = [] ∧ n.toLeft = [] ∧ Answered n c' ∧ ∀ f ∈ n.gotLeft, ¬ IsSuccess f := by
  have h₁ := metadata_accepted h js c id
  rw [if_pos hpart] at h₁
  obtain ⟨n₂, c₂, hr₂, h₂⟩ := exchange (initiator_chunkSender x o (js.save (o.journalEntry x)) none)
    (h.chunkReceiver (fun _ _ _ => True) ⟨fun _ _ => trivial⟩) (sendStart_inStep js c id) ⟨_, _, _, trivial, rfl⟩
    (List.length_pos_iff.mpr hne) (fun _ _ _ => rfl)
  exact ⟨n₂, c₂, h₁.trans hr₂, h₂⟩

omit h in
/-- Once the last chunk is answered, only the rename decides. -/
theorem ends_iff_placed (hx : x.Compact) {P : Net Frame OutboundState Session → Prop} (hP : GoodEnd o cfg fs P)
    {i : Incoming} (hdata : i.data = o.fileData) (hdest : i.dest = o.destination cfg fs)
    (hid : i.t.transferId = o.transferId) {n₀ n : Net Frame OutboundState Session}
    {js : Journal} {c : Nat} {Keeps : Nat → ResumeState → Journal → Prop}
    (hr : Reaches (initiator x o) (responder x cfg) n₀ n) (hl : n.left = chunksSent js c)
    (hdone : i.Done x Keeps n.right) (hR : n.toRight = []) (hL : n.toLeft = []) (ha : Answered n c)
    (hearly : ∀ f ∈ n.gotLeft, ¬ IsSuccess f) :
    Ends (initiator x o) (responder x cfg) P n₀ ↔ i.Placed := by
  unfold Incoming.Done at hdone
  split at hdone
  · rename_i hp
    obtain ⟨resume, journal, id', _, hn⟩ := hdone
    obtain ⟨n', hsettles, hfs, hack, hacks, hchunks⟩ := complete_settles hx o cfg hl hn hR hL
    have hsettles : Settles (initiator x o) (responder x cfg) n₀ n' := ⟨hr.trans hsettles.1, hsettles.2⟩
    rw [hsettles.ends_iff]
    refine iff_of_true (hP.holds n' ⟨hid ▸ hack, ?_⟩ ?_ (hchunks ▸ ha.once)) hp
    · rw [hfs, ← hdest, ← hdata]
      exact Incoming.placed_dest
    · rw [hacks, hchunks, ← ha.acks, hL, List.append_nil]
  · rename_i hp
    obtain ⟨fs', j', id', hn⟩ := hdone
    refine iff_of_false (not_ends_of_closed hP.success hr hn ?_) hp
    simpa [hL] using hearly

/-- A file with bytes arrives exactly when it can be put in its place. -/
theorem nonempty_ends_iff (hne : o.fileData ≠ []) (hpart : fs.Takes (o.partPath cfg)) (js : Journal)
    (c id : Nat) :
    Ends (initiator x o) (responder x cfg) (o.Delivered cfg fs) (sendStart js c fs j id) ↔
      (o.written cfg fs).Takes (o.destination cfg fs) := by
  obtain ⟨n, c', hr, hl, hdone, hR, hL, ha, hearly⟩ := chunks_exchanged h hne hpart js c id
  rw [ends_iff_placed h.compact (o.delivered_goodEnd cfg fs) rfl (h.incoming_dest _ _ rfl rfl) rfl hr hl hdone hR hL ha hearly]
  exact h.incoming_placed_iff _ _ rfl rfl

/-- **A daemon sends to a daemon.** However the two sides and the connection
take turns, every run from the request on ends, with the sender holding the
acknowledgement of success and the receiver holding the file, exactly when
the file has at least one byte and can be written where it is written. An
empty file leaves both sides waiting: `receive_file` waits for a first chunk
and passes over TRANSFER_COMPLETE, which the sender wants acknowledged. -/
theorem outboundSend_delivers_iff (js : Journal) (c id : Nat) :
    Ends (initiator x o) (responder x cfg) (o.Delivered cfg fs) (sendStart js c fs j id) ↔
      o.fileData ≠ [] ∧ o.Unobstructed cfg fs := by
  by_cases hpart : fs.Takes (o.partPath cfg)
  case neg =>
    have h₁ := metadata_accepted h js c id
    rw [if_neg hpart] at h₁
    refine iff_of_false (not_ends_of_closed (fun n => Outbound.Delivered.success) h₁ rfl ?_) fun hok => hpart hok.2.part
    simp [IsSuccess, controlFrame]
  by_cases hempty : o.fileData = []
  · obtain ⟨n, hsettles, hearly⟩ := empty_settles h hempty hpart js c id
    rw [hsettles.ends_iff]
    refine iff_of_false (fun hd => ?_) fun hok => hok.1 hempty
    obtain ⟨f, hf, hs⟩ := hd.success
    exact hearly f hf hs
  · rw [nonempty_ends_iff h hempty hpart js c id]
    exact ⟨fun hdest => ⟨hempty, hpart, hdest⟩, fun hok => hok.2.dest⟩

end

/-! ## An example -/

/-- A byte more than one chunk holds. -/
def twoChunks : Bytes := List.replicate 1048577 0x61

/-- SHA-256 of what the examples hash: nothing, `a`, a chunk of `a`s, and a
byte more. -/
def sampleHash (bs : Bytes) : Digest :=
  if bs = [0x61] then
    ⟨[0xca, 0x97, 0x81, 0x12, 0xca, 0x1b, 0xbd, 0xca, 0xfa, 0xc2, 0x31, 0xb3, 0x9a, 0x23, 0xdc, 0x4d,
      0xa7, 0x86, 0xef, 0xf8, 0x14, 0x7c, 0x4e, 0x72, 0xb9, 0x80, 0x77, 0x85, 0xaf, 0xee, 0x48, 0xbb], rfl⟩
  else if bs = List.replicate 1048576 0x61 then
    ⟨[0x9b, 0xc1, 0xb2, 0xa2, 0x88, 0xb2, 0x6a, 0xf7, 0x25, 0x7a, 0x36, 0x27, 0x7a, 0xe3, 0x81, 0x6a,
      0x7d, 0x4f, 0x16, 0xe8, 0x9c, 0x1e, 0x7e, 0x77, 0xd0, 0xa5, 0xc4, 0x8b, 0xad, 0x62, 0xb3, 0x60], rfl⟩
  else if bs = twoChunks then
    ⟨[0x4a, 0x3f, 0x0c, 0x0c, 0x21, 0x3a, 0xde, 0xa1, 0x74, 0xf9, 0xa3, 0xd4, 0xc1, 0x31, 0x77, 0x31,
      0x5b, 0x58, 0x8b, 0xdb, 0x2e, 0x9c, 0x10, 0x12, 0xd3, 0xd0, 0xbf, 0x04, 0x53, 0xca, 0x0f, 0x6a], rfl⟩
  else
    ⟨[0xe3, 0xb0, 0xc4, 0x42, 0x98, 0xfc, 0x1c, 0x14, 0x9a, 0xfb, 0xf4, 0xc8, 0x99, 0x6f, 0xb9, 0x24,
      0x27, 0xae, 0x41, 0xe4, 0x64, 0x9b, 0x93, 0x4c, 0xa4, 0x95, 0x99, 0x1b, 0x78, 0x52, 0xb8, 0x55], rfl⟩

def sampleExt : Ext := { sha256 := sampleHash, cborLen := fun m => 256 + m.volume, debugStr := fun s => "\"" ++ s ++ "\"" }

theorem sampleExt_compact : sampleExt.Compact := by
  intro m
  simp only [sampleExt]
  omega

def sampleId : TransferId := ⟨List.replicate 16 7, rfl⟩

/-- A file `a.txt` with the given bytes. -/
def sampleOutbound (fileData : Bytes) : Outbound :=
  { transferId := sampleId, targetDeviceId := "peer", fileName := "a.txt", fileData, now := 1000 }

def sampleConfig : SessionConfig := { peerIdHex := "peer", receiveDir := ["inbox"], now := 1000, declined := none }

/-- A disk with nothing but the receive directory. -/
def sampleFs : Fs := fun p => if p = [] ∨ p = ["inbox"] then some .dir else none

theorem sampleFs_grounded : sampleFs.Grounded ["inbox"] := by
  intro p hp
  rcases List.prefix_cons_iff.mp hp with rfl | ⟨p', rfl, hp'⟩
  · rfl
  · rw [List.prefix_nil.mp hp']
    rfl

theorem sample_offered (fileData : Bytes) (hlen : fileData.length < 2 ^ 64) :
    Offered sampleExt (sampleOutbound fileData) sampleConfig sampleFs fun _ => none where
  compact := sampleExt_compact
  short := hlen
  name := show '/' ∉ "a.txt".toList by decide
  accepted := ⟨"a.txt", show sanitizePath "a.txt" = .ok "a.txt" by rfl⟩
  consent := rfl
  root := sampleFs_grounded
  fresh := rfl

/-- The one byte `a` arrives. -/
theorem outboundSend_delivers_a :
    Ends (initiator sampleExt (sampleOutbound [0x61])) (responder sampleExt sampleConfig)
      ((sampleOutbound [0x61]).Delivered sampleConfig sampleFs) (sendStart (fun _ => none) 2 sampleFs (fun _ => none) 2) :=
  (outboundSend_delivers_iff (sample_offered _ (by decide)) _ _ _).mpr ⟨by decide, by decide, by decide⟩

/-- An empty file does not. -/
theorem outboundSend_empty_hangs :
    ¬ Ends (initiator sampleExt (sampleOutbound [])) (responder sampleExt sampleConfig)
      ((sampleOutbound []).Delivered sampleConfig sampleFs) (sendStart (fun _ => none) 2 sampleFs (fun _ => none) 2) := by
  obtain ⟨n, hsettles, hearly⟩ :=
    empty_settles (sample_offered [] (by decide)) rfl (by decide) (fun _ => none) 2 2
  rw [hsettles.ends_iff]
  intro hd
  obtain ⟨f, hf, hs⟩ := hd.success
  exact hearly f hf hs

end Nxfr

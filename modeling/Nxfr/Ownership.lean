/-
Whose journal state and `.part` files a session touches, over any sequence of
sessions of any peers (`journal_owned`).

The journal is keyed by the transfer id, which the peer chooses.
RESUME_QUERY compares the peer of the state it finds with the peer of the
session; `handle_incoming_transfer` does not, so a TRANSFER_REQUEST under the
id of another peer's transfer takes that transfer's state over. A `.part` path
is made from the path the peer sends, so two peers may also meet there. Where
neither happens a session leaves alone what is recorded for other peers.
-/
import Nxfr.JournalDisk

namespace Nxfr

open Disk

/-! ## Sessions -/

/-- Sessions one after the other, each with the disk and the journal the one
before it left, at any of its states; the clock and the user's answers may
change at any time. Every frame is one that `may` come. -/
inductive Sessions (x : Ext) (fs₀ : Fs) (may : SessionConfig → Session → Frame → Prop) : SessionConfig → Session → Prop
  | first (cfg : SessionConfig) (conn : Conn) : Sessions x fs₀ may cfg (.idle fs₀ (fun _ => none) conn)
  | frame {cfg : SessionConfig} {s : Session} (f : Frame) (h : Sessions x fs₀ may cfg s) (hf : may cfg s f) :
      Sessions x fs₀ may cfg (sessionStep x cfg s f)
  | settings {cfg cfg' : SessionConfig} {s : Session} (h : Sessions x fs₀ may cfg s)
      (hpeer : cfg'.peerIdHex = cfg.peerIdHex) : Sessions x fs₀ may cfg' s
  | next {cfg cfg' : SessionConfig} {s : Session} {conn : Conn} (h : Sessions x fs₀ may cfg s) :
      Sessions x fs₀ may cfg' (.idle s.fs s.journal conn)

/-- The journal has bytes of a peer other than `peer` recorded at a path. -/
def Foreign (peer : String) (j : Journal) (p : Path) : Prop :=
  ∃ id rs fileId e, j id = some rs ∧ rs.peerDeviceId ≠ peer ∧ rs.files.lookup fileId = some e ∧ 0 < e.receivedBytes ∧
    e.destPath = p

/-- What is recorded for other peers is as it was. -/
structure Untouched (peer : String) (s s' : Session) : Prop where
  journal : ∀ id rs, s.journal id = some rs → rs.peerDeviceId ≠ peer → s'.journal id = some rs
  parts : ∀ p c, Foreign peer s.journal p → s.fs p = some (.file c) → s'.fs p = some (.file c)

/-- A RESUME_STATUS that says anything of a transfer is about one of the
peer's own. -/
def ReportsOwn (peer : String) (j : Journal) (f : Frame) : Prop :=
  ∀ transferId resumable files expiry, f.kind = .control →
    f.control = .ok (.resumeStatus transferId resumable files expiry) →
    (resumable = false ∧ files = none ∧ expiry = none) ∨
      ∃ rs, j (hexEncode transferId.bytes) = some rs ∧ rs.peerDeviceId = peer

/-- The frame is not a TRANSFER_REQUEST, to be accepted, under the id of
another peer's transfer; and the file it opens in a transfer has a `.part` path
where nothing is recorded for another peer, and a name that is free. -/
structure Apart (cfg : SessionConfig) (s : Session) (f : Frame) : Prop where
  request : ∀ fs j conn transferId type name files size manifest, s = .idle fs j conn → f.kind = .control →
    f.control = .ok (.transferRequest transferId type name files size manifest) → cfg.declined = none →
    ∀ rs, j (hexEncode transferId.bytes) = some rs → rs.peerDeviceId = cfg.peerIdHex
  room : ∀ t st, s = .transfer t st → st.Room t f
  opens : ∀ t st fileId dest, s = .transfer t st → st.opening t f = some (fileId, dest) →
    ¬ Foreign cfg.peerIdHex st.recv.journal (partPath dest)

/-! ## What a session writes -/

/-- A message that is no RESUME_STATUS. -/
def ControlMessage.silent : ControlMessage → Bool
  | .resumeStatus .. => false
  | _ => true

/-- The frame is no RESUME_STATUS. -/
def Silent (f : Frame) : Prop := f.kind = .control → ∀ m, f.control = .ok m → m.silent = true

theorem silent_controlFrame {m : ControlMessage} (h : m.silent = true) (id : Nat) : Silent (controlFrame id m) := by
  intro _ m' hm'
  cases hm'
  exact h

section

variable {x : Ext} {t : Transfer} {st : TransferState} {f : Frame}

theorem TransferState.send_silent {m : ControlMessage} {k : TransferState → TransferState} (hm : m.silent = true)
    (hk : ∀ conn : Conn, conn.Adds Silent (k { st with recv := { st.recv with conn } }).recv.conn) :
    st.recv.conn.Adds Silent (st.send x m k).recv.conn := by
  unfold TransferState.send
  split
  · exact .refl
  · rename_i conn hc
    exact (Conn.sendControl_adds hc (silent_controlFrame hm)).trans (hk conn)

theorem beginFile_silent {fileId streamId size : Nat} {relativePath sanitized : String} {sha256 : Digest} :
    st.recv.conn.Adds Silent (beginFile x t fileId streamId relativePath sanitized size sha256 st).recv.conn := by
  unfold beginFile
  split
  · exact TransferState.send_silent rfl fun conn => .refl
  · split
    · exact .refl
    · rw [afterReceive_recv, receiveOpen_conn]
      exact .refl

theorem transferStep_silent : st.recv.conn.Adds Silent (transferStep x t f st).recv.conn := by
  unfold transferStep
  split
  · split
    · exact .refl
    · unfold onTransferMessage
      split
      · unfold onMetadata
        split
        · exact TransferState.send_silent rfl fun conn => TransferState.send_silent rfl fun conn => .refl
        · split
          · exact TransferState.send_silent rfl fun conn => .refl
          · exact TransferState.send_silent rfl fun conn => beginFile_silent
      · exact TransferState.send_silent rfl fun conn => .refl
      · exact .refl
      · exact TransferState.send_silent rfl fun conn => .refl
      · exact .refl
    · exact .refl
  · rw [afterReceive_recv]
    exact receiveStep_adds (fun id _ _ _ _ => silent_controlFrame rfl id) fun id _ _ _ => silent_controlFrame rfl id
  · exact .refl

end

/-! ## A transfer of the peer's own -/

/-- A state of the same transfer and the same peer. -/
def SameOwner (rs rs' : ResumeState) : Prop := rs'.transferId = rs.transferId ∧ rs'.peerDeviceId = rs.peerDeviceId

section

variable {x : Ext} {t : Transfer} {st st' : TransferState} {f : Frame}

theorem record_sameOwner {rs : ResumeState} {fileId received : Nat} : SameOwner rs (rs.record fileId received) := by
  unfold ResumeState.record
  split <;> exact ⟨rfl, rfl⟩

theorem begin_sameOwner {rs : ResumeState} {fileId : Nat} {part : Path} : SameOwner rs (rs.begin fileId part) := by
  unfold ResumeState.begin
  split <;> exact ⟨rfl, rfl⟩

/-- What a frame does to the journal: nothing, or it deletes the state of the
transfer, or saves the one of this session. -/
inductive Journalled (t : Transfer) (st st' : TransferState) : Prop
  | same (h : st'.recv.journal = st.recv.journal)
  | deleted (h : st'.recv.journal = st.recv.journal.delete (hexEncode t.transferId.bytes))
  | saved (rs : ResumeState) (hrs : SameOwner st.recv.resume rs) (h : st'.recv.journal = st.recv.journal.save rs)

theorem Turn.journalled {a : RecvArgs} {l : RecvLocals} {s : RecvState} {r : Flow RecvLocals × RecvState}
    (h : Turn x t.now a l f s r) : SameOwner s.resume r.2.resume ∧
      (r.2.journal = s.journal ∨ ∃ rs, SameOwner s.resume rs ∧ r.2.journal = s.journal.save rs) := by
  have hrecorded : SameOwner s.resume (recorded x a l f s).resume ∧ ((recorded x a l f s).journal = s.journal ∨
      ∃ rs, SameOwner s.resume rs ∧ (recorded x a l f s).journal = s.journal.save rs) := by
    unfold recorded
    split
    · exact ⟨record_sameOwner, .inr ⟨_, record_sameOwner, rfl⟩⟩
    · exact ⟨⟨rfl, rfl⟩, .inl rfl⟩
  cases h with
  | kept _ hresume hjournal => rwa [hresume, hjournal]
  | dropped _ hresume hjournal => rwa [hresume, hjournal]
  | placed _ hresume hjournal => rwa [hresume, hjournal]

theorem Opening.journalled {a : RecvArgs} {s : RecvState} {r : Flow RecvLocals × RecvState} (h : Opening x t.now a s r) :
    r.2.resume = s.resume ∧ r.2.journal = s.journal := by
  cases h <;> exact ⟨rfl, rfl⟩

theorem Effect.journalled (he : Effect x t st f st') :
    SameOwner st.recv.resume st'.recv.resume ∧ Journalled t st st' := by
  cases he with
  | quiet _ _ hresume hjournal => exact ⟨by rw [hresume]; exact ⟨rfl, rfl⟩, .same hjournal⟩
  | completed _ _ hresume hjournal => exact ⟨by rw [hresume]; exact ⟨rfl, rfl⟩, .deleted hjournal⟩
  | modified _ _ hresume hjournal =>
    have hsame : SameOwner st.recv.resume st'.recv.resume := by rw [hresume]; exact ⟨rfl, rfl⟩
    exact ⟨hsame, .saved _ hsame hjournal⟩
  | @opened a path s st₀ r _ _ _ hresume hjournal _ ho =>
    obtain ⟨hr, hj⟩ := ho.journalled
    have hsame : SameOwner st.recv.resume s.resume := by rw [hresume]; exact begin_sameOwner
    refine ⟨?_, .saved s.resume hsame ?_⟩
    · rw [afterReceive_recv, hr]
      exact hsame
    · rw [afterReceive_recv, hj, hjournal]
  | turn _ ht =>
    obtain ⟨hsame, hjournal⟩ := ht.journalled
    refine ⟨by rwa [afterReceive_recv], ?_⟩
    rcases hjournal with hj | ⟨rs, hrs, hj⟩
    · exact .same (by rw [afterReceive_recv, hj])
    · exact .saved rs hrs (by rw [afterReceive_recv, hj])

/-- What holds of a transfer in a session of `peer`: its state is the peer's,
under its own id, and so is what the journal has there; nothing is recorded
for another peer where it writes. -/
structure OwnTransfer (peer : String) (t : Transfer) (st : TransferState) : Prop where
  id : st.recv.resume.transferId = hexEncode t.transferId.bytes
  owner : st.recv.resume.peerDeviceId = peer
  saved : ∀ rs, st.recv.journal (hexEncode t.transferId.bytes) = some rs → rs.peerDeviceId = peer
  writing : ∀ a relativePath l, st.phase = .receiving a relativePath l → Writing a st.recv.fs l st.recv
  apart : ∀ a relativePath l, st.phase = .receiving a relativePath l → ¬ Foreign peer st.recv.journal a.partPath

theorem Journalled.foreign {peer : String} (h : Journalled t st st') (ho : OwnTransfer peer t st) {id : String}
    {rs : ResumeState} (hrs : st.recv.journal id = some rs) (hpeer : rs.peerDeviceId ≠ peer) :
    st'.recv.journal id = some rs := by
  -- The state of another peer is not under the id of this transfer.
  have hid : id ≠ hexEncode t.transferId.bytes := by
    rintro rfl
    exact hpeer (ho.saved rs hrs)
  cases h with
  | same h => rw [h, hrs]
  | deleted h => simp [h, Journal.delete, hid, hrs]
  | saved rs' hrs' h => simp [h, Journal.save, hrs'.1, ho.id, hid, hrs]

theorem Journalled.own {peer : String} (h : Journalled t st st') (ho : OwnTransfer peer t st) {id : String}
    {rs : ResumeState} (hrs : st'.recv.journal id = some rs) :
    st.recv.journal id = some rs ∨ (id = hexEncode t.transferId.bytes ∧ rs.transferId = id ∧ rs.peerDeviceId = peer) := by
  cases h with
  | same h => exact .inl (h ▸ hrs)
  | deleted h =>
    simp only [h, Journal.delete] at hrs
    split at hrs
    · cases hrs
    · exact .inl hrs
  | saved rs' hrs' h =>
    simp only [h, Journal.save] at hrs
    split at hrs
    · rename_i hid
      cases hrs
      exact .inr ⟨hid.trans (hrs'.1.trans ho.id), hid.symm, hrs'.2.trans ho.owner⟩
    · exact .inl hrs

/-- Nothing is recorded for another peer where the frame writes. -/
theorem OwnTransfer.partPath {peer : String} (ho : OwnTransfer peer t st)
    (hopen : ∀ fileId dest, st.opening t f = some (fileId, dest) → ¬ Foreign peer st.recv.journal (Nxfr.partPath dest))
    {p : Path} (hp : st.partPath? t f = some p) : ¬ Foreign peer st.recv.journal p := by
  unfold TransferState.partPath? at hp
  split at hp
  · rename_i hphase
    cases hp
    exact ho.apart _ _ _ hphase
  · obtain ⟨⟨fileId, dest⟩, ho', rfl⟩ := Option.map_eq_some_iff.mp hp
    exact hopen fileId dest ho'

/-- **A frame in a transfer of the peer's own** leaves alone what is recorded
for other peers, and the transfer stays the peer's own. -/
theorem OwnTransfer.step {peer : String} (ho : OwnTransfer peer t st) (hroom : st.Room t f)
    (hopen : ∀ fileId dest, st.opening t f = some (fileId, dest) → ¬ Foreign peer st.recv.journal (Nxfr.partPath dest)) :
    OwnTransfer peer t (transferStep x t f st) ∧
      (∀ id rs, st.recv.journal id = some rs → rs.peerDeviceId ≠ peer →
        (transferStep x t f st).recv.journal id = some rs) ∧
      ∀ p c, Foreign peer st.recv.journal p → st.recv.fs p = some (.file c) →
        (transferStep x t f st).recv.fs p = some (.file c) := by
  have he : Effect x t st f (transferStep x t f st) := transferStep_effect ho.writing f
  obtain ⟨hsame, hj⟩ := he.journalled
  refine ⟨⟨hsame.1.trans ho.id, hsame.2.trans ho.owner, ?_, ?_, ?_⟩, ?_, ?_⟩
  · intro rs hrs
    rcases hj.own ho hrs with hrs | ⟨_, _, hpeer⟩
    · exact ho.saved rs hrs
    · exact hpeer
  · intro a relativePath l hphase
    exact (he.receiving ho.writing hphase).2.2
  · intro a relativePath l hphase hforeign
    obtain ⟨id, rs, fileId, e, hrs, hpeer, hrecord⟩ := hforeign
    refine ho.partPath hopen (he.receiving ho.writing hphase).2.1 ⟨id, rs, fileId, e, ?_, hpeer, hrecord⟩
    rcases hj.own ho hrs with hrs | ⟨_, _, hpeer'⟩
    · exact hrs
    · exact absurd hpeer' hpeer
  · exact fun id rs hrs hpeer => hj.foreign ho hrs hpeer
  · intro p c hforeign hp
    exact he.keeps ho.writing hroom hp fun hpart => ho.partPath hopen hpart hforeign

end

/-! ## A session -/

/-- What holds of a session of `peer`: every state of the journal is under its
own id, and a transfer is the peer's own. -/
structure Owned (peer : String) (s : Session) : Prop where
  keyed : ∀ id rs, s.journal id = some rs → rs.transferId = id
  own : ∀ t st, s = .transfer t st → OwnTransfer peer t st

/-- The peer whose state the transfer of a session works with. -/
def Session.stateOwner : Session → Option String
  | .transfer _ st => some st.recv.resume.peerDeviceId
  | _ => none

theorem Session.ne_transfer {s : Session} (h : s.stateOwner = none) {t : Transfer} {st : TransferState} :
    s ≠ .transfer t st := by
  intro hs
  rw [hs] at h
  cases h

/-- What a frame may do in a session of `peer`. -/
structure Ours (peer : String) (s s' : Session) : Prop where
  owned : Owned peer s'
  untouched : Untouched peer s s'
  reports : s.conn.Adds (ReportsOwn peer s.journal) s'.conn

section

variable {x : Ext} {cfg : SessionConfig} {fs : Fs} {j : Journal} {conn : Conn}

theorem Silent.reportsOwn {peer : String} {f : Frame} (h : Silent f) : ReportsOwn peer j f := by
  intro transferId resumable files expiry hkind hcontrol
  have := h hkind _ hcontrol
  cases this

theorem Conn.Adds.imp {P Q : Frame → Prop} {c c' : Conn} (h : c.Adds P c') (hPQ : ∀ f, P f → Q f) : c.Adds Q c' := by
  obtain ⟨fs, hfs, hP⟩ := h
  exact ⟨fs, hfs, fun f hf => hPQ f (hP f hf)⟩

/-- A step that is in no transfer, with disk and journal as they were. -/
theorem Ours.still {peer : String} {s s' : Session} (h : Owned peer s) (hfs : s'.fs = s.fs) (hj : s'.journal = s.journal)
    (hs : s'.stateOwner = none) (hconn : s.conn.Adds (ReportsOwn peer s.journal) s'.conn) : Ours peer s s' := by
  refine ⟨⟨?_, fun t st he => ?_⟩, ⟨?_, ?_⟩, hconn⟩
  · rw [hj]
    exact h.keyed
  · exact absurd he (Session.ne_transfer hs)
  · intro id rs hrs _
    rw [hj, hrs]
  · intro p c _ hp
    rw [hfs, hp]

theorem Ours.sendIdle (h : Owned cfg.peerIdHex (.idle fs j conn)) {m : ControlMessage} {k : Conn → Session}
    (hm : ∀ id, ReportsOwn cfg.peerIdHex j (controlFrame id m))
    (hk : ∀ conn', conn.Adds (ReportsOwn cfg.peerIdHex j) conn' → Ours cfg.peerIdHex (.idle fs j conn) (k conn')) :
    Ours cfg.peerIdHex (.idle fs j conn) (sendIdle x fs j conn m k) := by
  unfold Nxfr.sendIdle
  split
  · exact .still h rfl rfl rfl .refl
  · rename_i conn' hc
    exact hk conn' (Conn.sendControl_adds hc hm)

/-- `handle_incoming_transfer` is called, with what the journal has under the
id, if anything, being the peer's own. -/
theorem Ours.enterTransfer (h : Owned cfg.peerIdHex (.idle fs j conn)) {conn' : Conn} {transferId : TransferId}
    {name : String} {manifest : List ManifestEntry} (hown : ∀ rs, j (hexEncode transferId.bytes) = some rs →
      rs.peerDeviceId = cfg.peerIdHex) (hconn : conn.Adds (ReportsOwn cfg.peerIdHex j) conn') :
    Ours cfg.peerIdHex (.idle fs j conn) (enterTransfer cfg fs j conn' transferId name manifest) := by
  refine ⟨⟨h.keyed, ?_⟩, ⟨fun id rs hrs _ => hrs, fun p c _ hp => createDirs_file hp⟩, hconn⟩
  intro t st he
  cases he
  have hload : ∀ {t : Transfer}, t.transferId = transferId → t.peerIdHex = cfg.peerIdHex →
      (loadResume t j).transferId = hexEncode transferId.bytes ∧ (loadResume t j).peerDeviceId = cfg.peerIdHex := by
    intro t hid hpeer
    unfold loadResume
    rw [hid]
    split
    · rename_i rs hrs
      split
      · exact ⟨by rw [freshResume, hid], hpeer⟩
      · exact ⟨h.keyed _ rs hrs, hown rs hrs⟩
    · exact ⟨by rw [freshResume, hid], hpeer⟩
  refine ⟨?_, ?_, hown, nofun, nofun⟩
  · exact (hload rfl rfl).1
  · exact (hload rfl rfl).2

theorem resumeStatus_cases (cfg : SessionConfig) (j : Journal) (transferId : TransferId) (fileIds : Option (List Nat)) :
    resumeStatus cfg j transferId fileIds = .resumeStatus transferId false none none ∨
      ∃ rs files expiry, j (hexEncode transferId.bytes) = some rs ∧ rs.peerDeviceId = cfg.peerIdHex ∧
        resumeStatus cfg j transferId fileIds = .resumeStatus transferId true files expiry := by
  unfold resumeStatus
  split
  · exact .inl rfl
  · rename_i rs hrs
    split
    · exact .inl rfl
    split
    · exact .inl rfl
    · rename_i hpeer _
      exact .inr ⟨rs, _, _, hrs, by simpa using hpeer, rfl⟩

theorem resumeStatus_reportsOwn (transferId : TransferId) (fileIds : Option (List Nat)) (id : Nat) :
    ReportsOwn cfg.peerIdHex j (controlFrame id (resumeStatus cfg j transferId fileIds)) := by
  intro transferId' resumable files expiry _ hcontrol
  rcases resumeStatus_cases cfg j transferId fileIds with h | ⟨rs, files', expiry', hrs, hpeer, h⟩
  · rw [h] at hcontrol
    cases hcontrol
    exact .inl ⟨rfl, rfl, rfl⟩
  · rw [h] at hcontrol
    cases hcontrol
    exact .inr ⟨rs, hrs, hpeer⟩

theorem Ours.onSessionMessage (h : Owned cfg.peerIdHex (.idle fs j conn)) {m : ControlMessage}
    (hrequest : ∀ transferId type name files size manifest, m = .transferRequest transferId type name files size manifest →
      cfg.declined = none → ∀ rs, j (hexEncode transferId.bytes) = some rs → rs.peerDeviceId = cfg.peerIdHex) :
    Ours cfg.peerIdHex (.idle fs j conn) (onSessionMessage x cfg fs j conn m) := by
  unfold Nxfr.onSessionMessage
  split
  · split
    · exact .sendIdle h (fun id => (silent_controlFrame rfl id).reportsOwn) fun conn' hc => .still h rfl rfl rfl hc
    · rename_i hdeclined
      split
      · exact .still h rfl rfl rfl .refl
      · rename_i conn' hc
        exact .enterTransfer h (hrequest _ _ _ _ _ _ rfl hdeclined)
          (Conn.sendControl_adds hc fun id => (silent_controlFrame rfl id).reportsOwn)
  · rename_i transferId fileIds
    refine .sendIdle h (resumeStatus_reportsOwn transferId fileIds) fun conn' hc => ?_
    split
    · rename_i rs hstatus hrs
      refine .enterTransfer h ?_ hc
      rcases resumeStatus_cases cfg j transferId fileIds with hno | ⟨rs', _, _, hrs', hpeer, _⟩
      · rw [hno] at hstatus
        cases hstatus
      · intro rs'' hrs''
        rw [hrs', Option.some.injEq] at hrs''
        exact hrs'' ▸ hpeer
    · exact .still h rfl rfl rfl hc
  · exact .still h rfl rfl rfl .refl
  · exact .sendIdle h (fun id => (silent_controlFrame rfl id).reportsOwn) fun conn' hc => .still h rfl rfl rfl hc
  · exact .still h rfl rfl rfl .refl

theorem ofTransfer_facts (t : Transfer) (st : TransferState) :
    (Session.ofTransfer t st).fs = st.recv.fs ∧ (Session.ofTransfer t st).journal = st.recv.journal ∧
      (Session.ofTransfer t st).conn = st.recv.conn ∧
      ∀ t' st', Session.ofTransfer t st = .transfer t' st' → t' = t ∧ st' = st := by
  unfold Session.ofTransfer
  split
  · exact ⟨rfl, rfl, rfl, fun t' st' he => absurd he (Session.ne_transfer rfl)⟩
  · exact ⟨rfl, rfl, rfl, fun t' st' he => absurd he (Session.ne_transfer rfl)⟩
  · refine ⟨rfl, rfl, rfl, fun t' st' he => ?_⟩
    cases he
    exact ⟨rfl, rfl⟩

/-- **A frame in a session** does nothing to what is recorded for other
peers, where it keeps apart from them. -/
theorem Owned.step {s : Session} (h : Owned cfg.peerIdHex s) {f : Frame} (hf : Apart cfg s f) :
    Ours cfg.peerIdHex s (sessionStep x cfg s f) := by
  unfold sessionStep
  split
  · split
    · exact .still h rfl rfl rfl .refl
    · rename_i hkind hcontrol
      refine .onSessionMessage h fun transferId type name files size manifest hm hdeclined => ?_
      exact hf.request _ _ _ transferId type name files size manifest rfl hkind (hm ▸ hcontrol) hdeclined
    · split
      · exact .still h rfl rfl rfl .refl
      · split
        · exact .still h rfl rfl rfl .refl
        · rename_i conn' hc
          exact .still h rfl rfl rfl (Conn.write_adds hc nofun)
    · exact .still h rfl rfl rfl .refl
  · rename_i t st
    have ho := h.own t st rfl
    obtain ⟨ho', hjournal, hparts⟩ := ho.step (x := x) (hf.room t st rfl) fun fileId dest => hf.opens t st fileId dest rfl
    obtain ⟨hfs, hj, hconn, heq⟩ := ofTransfer_facts t (transferStep x t f st)
    refine ⟨⟨?_, ?_⟩, ⟨?_, ?_⟩, ?_⟩
    · intro id rs hrs
      rw [hj] at hrs
      rcases (transferStep_effect ho.writing f).journalled.2.own ho hrs with hrs | ⟨_, hid, _⟩
      · exact h.keyed id rs hrs
      · exact hid
    · intro t' st' he
      obtain ⟨rfl, rfl⟩ := heq t' st' he
      exact ho'
    · intro id rs hrs hpeer
      rw [hj]
      exact hjournal id rs hrs hpeer
    · intro p c hforeign hp
      rw [hfs]
      exact hparts p c hforeign hp
    · rw [hconn]
      exact transferStep_silent.imp fun f hf => hf.reportsOwn
  · rename_i hidle htransfer
    refine .still h rfl rfl ?_ .refl
    cases s with
    | transfer t st => exact absurd rfl (htransfer t st)
    | idle => rfl
    | pairing => rfl
    | closed => rfl

end

/-- **A session touches what is its peer's own.** In any sequence of sessions
of any peers in which no accepted TRANSFER_REQUEST comes under the id of a
transfer the journal has of another peer, and no file is opened whose `.part`
path has bytes recorded for another peer or for which no name is free: the
state a transfer works with is the peer's own, and each frame leaves the
journal states and the recorded `.part` bytes of other peers as they are and
reports nothing of them. -/
theorem journal_owned {x : Ext} {fs₀ : Fs} {cfg : SessionConfig} {s : Session} (h : Sessions x fs₀ Apart cfg s) :
    (∀ t st, s = .transfer t st → st.recv.resume.peerDeviceId = cfg.peerIdHex) ∧
      ∀ f, Apart cfg s f → Untouched cfg.peerIdHex s (sessionStep x cfg s f) ∧
        s.conn.Adds (ReportsOwn cfg.peerIdHex s.journal) (sessionStep x cfg s f).conn := by
  have howned : Owned cfg.peerIdHex s := by
    induction h with
    | first => exact ⟨nofun, fun t st he => absurd he (Session.ne_transfer rfl)⟩
    | frame f _ hf ih => exact (ih.step hf).owned
    | settings _ hpeer ih => exact hpeer ▸ ih
    | next _ ih => exact ⟨ih.keyed, fun t st he => absurd he (Session.ne_transfer rfl)⟩
  refine ⟨fun t st hs => (howned.own t st hs).owner, fun f hf => ?_⟩
  exact ⟨(howned.step hf).untouched, (howned.step hf).reports⟩

/-! ## An example -/

/-- A TRANSFER_REQUEST for `a.txt`. -/
def offerFrame (transferId : TransferId) : Frame :=
  controlFrame 2 (.transferRequest transferId .files "a.txt" 1 2 sampleTransfer.manifest)

def otherId : TransferId := ⟨List.replicate 16 8, rfl⟩

/-- The session of another peer. -/
def otherConfig : SessionConfig := { sampleConfig with peerIdHex := "other" }

/-- The first byte of `a.txt` has come, and the connection is lost. -/
@[irreducible] def offeredSession : Session := sessionStep sampleExt sampleConfig (.idle sampleFs (fun _ => none) {}) (offerFrame sampleId)

@[irreducible] def openedSession : Session := sessionStep sampleExt sampleConfig offeredSession longMetadata

@[irreducible] def startedSession : Session := sessionStep sampleExt sampleConfig openedSession firstByte

@[irreducible] def otherSession : Session := .idle startedSession.fs startedSession.journal {}

theorem sessionStep_idle_journal {x : Ext} {cfg : SessionConfig} {fs : Fs} {j : Journal} {conn : Conn} (f : Frame) :
    (sessionStep x cfg (.idle fs j conn) f).journal = j := by
  have hsend : ∀ {m : ControlMessage} {k : Conn → Session}, (∀ conn, (k conn).journal = j) →
      (sendIdle x fs j conn m k).journal = j := by
    intro m k hk
    unfold sendIdle
    split
    · rfl
    · exact hk _
  simp only [sessionStep]
  split
  · rfl
  · unfold onSessionMessage
    split
    · split
      · exact hsend fun _ => rfl
      · split <;> rfl
    · refine hsend fun conn => ?_
      split <;> rfl
    · rfl
    · exact hsend fun _ => rfl
    · rfl
  · split
    · rfl
    · split <;> rfl
  · rfl

/-- In a transfer, a name is free for the file a frame is about; it opens no
file, or nothing is in the journal. -/
def Session.clear (s : Session) (f : Frame) (empty : Bool) : Bool := match s with
  | .transfer t st => ((st.finalPath? t f).all fun final =>
      (st.recv.fs (resolveCollision t.now st.recv.fs final)).isNone) && ((st.opening t f).isNone || empty)
  | _ => false

theorem apart_of_clear {cfg : SessionConfig} {s : Session} {f : Frame} {empty : Bool} (hclear : s.clear f empty = true)
    (hempty : empty = true → ∀ id, s.journal id = none) : Apart cfg s f := by
  refine ⟨?_, ?_, ?_⟩
  · intro fs j conn transferId type name files size manifest hs
    rw [hs] at hclear
    cases hclear
  · intro t st hs final hfinal
    rw [hs] at hclear
    simp only [Session.clear, Bool.and_eq_true, hfinal, Option.all_some, Option.isNone_iff_eq_none] at hclear
    exact hclear.1
  · intro t st fileId dest hs hopen hforeign
    obtain ⟨id, rs, _, _, hrs, _⟩ := hforeign
    rw [hs] at hclear
    simp only [Session.clear, Bool.and_eq_true, hopen, Option.isNone_some, Bool.false_or] at hclear
    have hnone := hempty hclear.2 id
    rw [hs] at hnone
    rw [show st.recv.journal id = none from hnone] at hrs
    cases hrs

/-- In the message loop a frame keeps apart that makes no offer under the id
of another's transfer. -/
theorem apart_idle {cfg : SessionConfig} {fs : Fs} {j : Journal} {conn : Conn} {transferId : TransferId}
    (hnone : j (hexEncode transferId.bytes) = none) : Apart cfg (.idle fs j conn) (offerFrame transferId) := by
  refine ⟨?_, fun t st hs => absurd hs (Session.ne_transfer rfl), fun t st _ _ hs => absurd hs (Session.ne_transfer rfl)⟩
  intro fs' j' conn' transferId' type name files size manifest hs _ hcontrol _ rs hrs
  cases hs
  cases hcontrol
  rw [hnone] at hrs
  cases hrs

/-- The run of the first peer, up to the session of the other. -/
theorem otherSession_run {may : SessionConfig → Session → Frame → Prop}
    (hoffered : may sampleConfig (.idle sampleFs (fun _ => none) {}) (offerFrame sampleId))
    (hopened : may sampleConfig offeredSession longMetadata) (hstarted : may sampleConfig openedSession firstByte) :
    Sessions sampleExt sampleFs may otherConfig otherSession := by
  have h₁ : Sessions sampleExt sampleFs may sampleConfig offeredSession := by
    rw [offeredSession]
    exact .frame _ (.first _ _) hoffered
  have h₂ : Sessions sampleExt sampleFs may sampleConfig openedSession := by
    rw [openedSession]
    exact .frame _ h₁ hopened
  have h₃ : Sessions sampleExt sampleFs may sampleConfig startedSession := by
    rw [startedSession]
    exact .frame _ h₂ hstarted
  rw [otherSession]
  exact .next h₃

/-- What one peer has sent stays while another offers a file under an id of
its own. -/
theorem journal_owned_beside :
    ∃ rs, otherSession.journal (hexEncode sampleId.bytes) = some rs ∧ rs.peerDeviceId = "peer" ∧
      (sessionStep sampleExt otherConfig otherSession (offerFrame otherId)).journal (hexEncode sampleId.bytes) = some rs := by
  have hoffered : Apart sampleConfig (.idle sampleFs (fun _ => none) {}) (offerFrame sampleId) := apart_idle rfl
  have hopened : Apart sampleConfig offeredSession longMetadata := by
    have hclear : offeredSession.clear longMetadata true = true := by decide +kernel
    refine apart_of_clear hclear fun _ id => ?_
    rw [offeredSession, sessionStep_idle_journal]
  have hstarted : Apart sampleConfig openedSession firstByte := by
    have hclear : openedSession.clear firstByte false = true := by decide +kernel
    exact apart_of_clear hclear fun h => absurd h Bool.false_ne_true
  have hnone : (otherSession.journal (hexEncode otherId.bytes)).isNone = true := by decide +kernel
  have hapart : Apart otherConfig otherSession (offerFrame otherId) := by
    rw [otherSession] at hnone ⊢
    exact apart_idle (Option.isNone_iff_eq_none.mp hnone)
  have hpeer : (otherSession.journal (hexEncode sampleId.bytes)).map (·.peerDeviceId) = some "peer" := by decide +kernel
  obtain ⟨rs, hrs, howner⟩ := Option.map_eq_some_iff.mp hpeer
  have hother : rs.peerDeviceId ≠ otherConfig.peerIdHex := by
    rw [howner]
    decide
  have hrun := otherSession_run hoffered hopened hstarted
  exact ⟨rs, hrs, howner, ((journal_owned hrun).2 (offerFrame otherId) hapart).1.journal _ rs hrs hother⟩

/-- Another peer offers a file under the id of a transfer it has no part in. -/
@[irreducible] def takenSession : Session := sessionStep sampleExt otherConfig otherSession (offerFrame sampleId)

def completeFrame : Frame := controlFrame 3 (.transferComplete sampleId)

/-- It works with the state of that transfer, and deletes it. -/
theorem foreign_state_deleted :
    Sessions sampleExt sampleFs (fun _ _ _ => True) otherConfig takenSession ∧ takenSession.stateOwner = some "peer" ∧
      ¬ Untouched otherConfig.peerIdHex takenSession (sessionStep sampleExt otherConfig takenSession completeFrame) := by
  refine ⟨?_, by decide +kernel, fun h => ?_⟩
  · rw [takenSession]
    exact .frame _ (otherSession_run trivial trivial trivial) trivial
  · have hpeer : (takenSession.journal (hexEncode sampleId.bytes)).map (·.peerDeviceId) = some "peer" := by decide +kernel
    obtain ⟨rs, hrs, howner⟩ := Option.map_eq_some_iff.mp hpeer
    have hother : rs.peerDeviceId ≠ otherConfig.peerIdHex := by
      rw [howner]
      decide
    have hkept := h.journal _ rs hrs hother
    have hgone : ((sessionStep sampleExt otherConfig takenSession completeFrame).journal
        (hexEncode sampleId.bytes)).isNone = true := by decide +kernel
    rw [hkept] at hgone
    cases hgone

end Nxfr

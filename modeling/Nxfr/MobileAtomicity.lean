/-
What `do_receive_file` leaves on the disk, whatever it meets.

Each file is written beside its destination under a temporary name that a
guard removes on every way out but the last, and is renamed once its hash is
right. The announced size is not checked, so that a file whose hash is right is
as long as announced only if its last frame came with the last byte.
-/
import Nxfr.Consent
import Nxfr.History

namespace Nxfr

open Disk History

/-! ## What a run meets -/

section

variable (x : Ext) (cfg : MobileConfig) (offer : PendingOffer) (rename : Fs → Path → Path → Option Fs)

/-- `finishMobile` with a `rename` that may fail. -/
def finishMobileWith (a : MobileFile) (l : RecvLocals) (st : MobileState) : MobileState :=
  if x.sha256 l.hasher ≠ a.expectedHash then
    st.dropTmp a (.text ("file hash mismatch for " ++ a.relativePath ++ ": expected " ++
      hexEncode a.expectedHash.bytes ++ ", got " ++ hexEncode (x.sha256 l.hasher).bytes))
  else
    let finalDest := resolveCollision cfg.now st.fs a.finalPath
    match rename st.fs a.tmpPath finalDest with
    | none => st.dropTmp a .io
    | some fs =>
      let file := { fileId := a.fileId, relativePath := a.relativePath, size := a.expectedSize
                    sha256 := a.expectedHash, dest := finalDest, content := (fs.read finalDest).getD [] }
      nextFile x offer { st with fs, receivedFiles := st.receivedFiles + 1, stored := st.stored ++ [file] }

/-- `mobileChunk` with such a `rename`. -/
def mobileChunkWith (a : MobileFile) (l : RecvLocals) (f : Frame) (st : MobileState) : MobileState :=
  if f.payload.length < 41 then st.dropTmp a (.text "chunk too small")
  else
    let chunkOffset := fromBeBytes (f.payload.take 8)
    let chunkHash := (f.payload.drop 8).take 32
    let data := f.payload.drop 40
    if chunkOffset ≠ l.receivedBytes then
      st.dropTmp a (.text ("chunk offset mismatch: expected " ++ toString l.receivedBytes ++ ", got " ++
        toString chunkOffset))
    else if (x.sha256 data).bytes ≠ chunkHash then
      st.dropTmp a (.text ("chunk hash mismatch at offset " ++ toString chunkOffset))
    else match st.fs.append a.tmpPath data with
      | none => st.dropTmp a .io
      | some fs =>
        let l := ⟨l.receivedBytes + data.length, l.hasher ++ data⟩
        let st := { st with fs }
        match st.conn.sendControl x (.chunkAck a.streamId f.messageId chunkOffset data.length) with
        | none => st.dropTmp a .io
        | some conn =>
          let st := { st with conn }
          if f.isLastChunk || l.receivedBytes ≥ a.expectedSize then finishMobileWith x cfg offer rename a l st
          else { st with phase := .chunks a l }

/-- `mobileStep` with such a `rename`. -/
def mobileStepWith (f : Frame) (st : MobileState) : MobileState :=
  match st.phase with
  | .files => mobileStep x cfg offer f st
  | .chunks a l => match f.kind, f.control with
    | .control, .error e => st.dropTmp a (.codec e)
    | .control, .ok (.transferComplete _) => finishMobileWith x cfg offer rename a l st
    | .control, .ok (.transferCancel _ _) => st.dropTmp a (.text "transfer cancelled by peer")
    | .chunk, _ => mobileChunkWith x cfg offer rename a l f st
    | _, _ => st
  | .returned _ => st

/-- With the `rename` of the disk this is the frame as the function reads it. -/
theorem mobileStepWith_rename : mobileStepWith x cfg offer Fs.rename = mobileStep x cfg offer := by
  funext f st
  unfold mobileStepWith
  split
  · rfl
  · rename_i a l hphase
    simp only [mobileStep, hphase]
    rfl
  · rename_i r hphase
    simp only [mobileStep, hphase]

end

/-- What happens while `do_receive_file` waits for a frame: one comes, one
comes and the `rename` it may lead to fails, or the connection is lost. -/
inductive Arrival where
  | frame (f : Frame)
  | renameFails (f : Frame)
  | lost

def Arrival.frame? : Arrival → Option Frame
  | .frame f | .renameFails f => some f
  | .lost => none

/-- `do_receive_file`, for one of these. -/
def receiveArrival (x : Ext) (cfg : MobileConfig) (offer : PendingOffer) (st : MobileState) : Arrival → MobileState
  | .frame f => mobileStep x cfg offer f st
  | .renameFails f => mobileStepWith x cfg offer (fun _ _ _ => none) f st
  | .lost => mobileLost st

/-- `do_receive_file` from its first line, on the disk `fs`. -/
def receiveRun (x : Ext) (cfg : MobileConfig) (offer : PendingOffer) (fs : Fs) (conn : Conn) (es : List Arrival) :
    MobileState :=
  after (receiveArrival x cfg offer) (startReceive x cfg offer fs conn) es

/-! ## What one of them does -/

/-- The frame announces a file. -/
def Arrival.Announces (e : Arrival) (fileId : Nat) (relativePath : String) (size : Nat) (sha256 : Digest) : Prop :=
  ∃ f transferId streamId mimeType modifiedTime, e.frame? = some f ∧ f.kind = .control ∧
    f.control = .ok (.fileMetadata transferId fileId streamId relativePath size sha256 mimeType modifiedTime)

/-- The temporary path under which a file is opened. -/
def opens (cfg : MobileConfig) (offer : PendingOffer) (st : MobileState) (e : Arrival) : Option Path :=
  match st.phase, e.frame? with
  | .files, some f => match f.kind, f.control with
    | .control, .ok (.fileMetadata _ _ _ relativePath _ _ _ _) =>
      match resolveSafePath st.fs cfg.receiveDir relativePath with
      | .ok finalPath => some (renameLast (tmpName offer.transferId (cfg.rand st.draws)) finalPath)
      | .error _ => none
    | _, _ => none
  | _, _ => none

/-- What was received of a file when a frame ends it. -/
def ends (a : MobileFile) (l : RecvLocals) (f : Frame) : Option RecvLocals := match f.kind, f.control with
  | .control, .ok (.transferComplete _) => some l
  | .chunk, _ =>
    let data := f.payload.drop 40
    if f.isLastChunk || l.receivedBytes + data.length ≥ a.expectedSize then
      some ⟨l.receivedBytes + data.length, l.hasher ++ data⟩
    else none
  | _, _ => none

/-- Outside the chunk loop. -/
def MobileState.Between (st : MobileState) : Prop := ∀ a l, st.phase ≠ .chunks a l

/-- The file as written when a frame ends it, or drops it: with the frame's
data or without. -/
inductive Written (st : MobileState) (a : MobileFile) (l : RecvLocals) : Fs → RecvLocals → Prop
  | before : Written st a l st.fs l
  | after (data : Bytes) (fs : Fs) (h : st.fs.append a.tmpPath data = some fs) :
      Written st a l fs ⟨l.receivedBytes + data.length, l.hasher ++ data⟩

/-- What one turn of `do_receive_file` can do. -/
inductive MobileTurn (x : Ext) (cfg : MobileConfig) (offer : PendingOffer) (st : MobileState) (e : Arrival)
    (st' : MobileState) : Prop
  | waits (h : st' = st)
  | between (hfs : st.fs.SameFiles st'.fs) (hstored : st'.stored = st.stored) (hbefore : st.Between) (hafter : st'.Between)
  | opened (a : MobileFile) (fs : Fs) (hbefore : st.Between) (hopens : opens cfg offer st e = some a.tmpPath)
      (hannounced : e.Announces a.fileId a.relativePath a.expectedSize a.expectedHash) (hfs : st.fs.SameFiles fs)
      (hcreate : fs.create a.tmpPath = some st'.fs) (hstored : st'.stored = st.stored)
      (hafter : st'.phase = .chunks a ⟨0, []⟩)
  | wrote (a : MobileFile) (l : RecvLocals) (data : Bytes) (hbefore : st.phase = .chunks a l)
      (happend : st.fs.append a.tmpPath data = some st'.fs) (hstored : st'.stored = st.stored)
      (hafter : st'.phase = .chunks a ⟨l.receivedBytes + data.length, l.hasher ++ data⟩)
  | dropped (a : MobileFile) (l l' : RecvLocals) (fs : Fs) (hbefore : st.phase = .chunks a l)
      (hwritten : Written st a l fs l') (hfs : st'.fs = (fs.removeFile a.tmpPath).getD fs)
      (hstored : st'.stored = st.stored) (hafter : st'.Between)
  | put (a : MobileFile) (l l' : RecvLocals) (fs : Fs) (s : StoredFile) (f : Frame) (hbefore : st.phase = .chunks a l)
      (hwritten : Written st a l fs l') (hframe : e.frame? = some f) (hends : ends a l f = some l')
      (hhash : x.sha256 l'.hasher = a.expectedHash) (hrename : fs.rename a.tmpPath s.dest = some st'.fs)
      (hfile : s.fileId = a.fileId ∧ s.relativePath = a.relativePath ∧ s.size = a.expectedSize ∧ s.sha256 = a.expectedHash)
      (hstored : st'.stored = st.stored ++ [s]) (hafter : st'.Between)

section

variable {x : Ext} {cfg : MobileConfig} {offer : PendingOffer}

theorem MobileState.between_of_files {st : MobileState} (h : st.phase = .files) : st.Between := by
  intro a l hphase
  rw [h] at hphase
  cases hphase

theorem MobileState.between_of_returned {st : MobileState} {r : Except Fail Unit} (h : st.phase = .returned r) :
    st.Between := by
  intro a l hphase
  rw [h] at hphase
  cases hphase

theorem sendTransferAck_between (x : Ext) (offer : PendingOffer) (st : MobileState) :
    (sendTransferAck x offer st).fs = st.fs ∧ (sendTransferAck x offer st).stored = st.stored ∧
      (sendTransferAck x offer st).Between := by
  unfold sendTransferAck MobileState.send
  split
  · exact ⟨rfl, rfl, MobileState.between_of_returned rfl⟩
  · exact ⟨rfl, rfl, MobileState.between_of_returned rfl⟩

theorem nextFile_between (x : Ext) (offer : PendingOffer) (st : MobileState) :
    (nextFile x offer st).fs = st.fs ∧ (nextFile x offer st).stored = st.stored ∧ (nextFile x offer st).Between := by
  unfold nextFile
  split
  · exact ⟨rfl, rfl, MobileState.between_of_files rfl⟩
  · exact sendTransferAck_between x offer st

theorem getD_createDirAll (fs : Fs) (p : Path) : fs.SameFiles ((fs.createDirAll p).getD fs) := by
  cases h : fs.createDirAll p with
  | none => exact Fs.SameFiles.refl
  | some fs' => exact Fs.createDirAll_sameFiles h

/-- FILE_METADATA. -/
theorem mobileMetadata_turn {st : MobileState} {e : Arrival} {f : Frame} {transferId : TransferId}
    {fileId streamId size : Nat} {relativePath : String} {sha256 : Digest} {mimeType : Option String}
    {modifiedTime : Option Nat} (hphase : st.phase = .files) (hframe : e.frame? = some f) (hkind : f.kind = .control)
    (hcontrol : f.control = .ok (.fileMetadata transferId fileId streamId relativePath size sha256 mimeType modifiedTime)) :
    MobileTurn x cfg offer st e (mobileMetadata x cfg offer fileId streamId relativePath size sha256 st) := by
  have hbefore := MobileState.between_of_files hphase
  unfold mobileMetadata MobileState.send
  split
  · exact .between .refl rfl hbefore (MobileState.between_of_returned rfl)
  rename_i conn hconn
  unfold openTmp
  split
  · exact .between .refl rfl hbefore (MobileState.between_of_returned rfl)
  rename_i finalPath hpath
  dsimp only
  split
  · exact .between (getD_createDirAll _ _) rfl hbefore (MobileState.between_of_returned rfl)
  rename_i fs hcreate
  refine .opened _ _ hbefore ?_ ⟨f, transferId, streamId, mimeType, modifiedTime, hframe, hkind, hcontrol⟩
    (getD_createDirAll _ _) hcreate rfl rfl
  dsimp only at hpath
  simp only [opens, hphase, hframe, hkind, hcontrol, hpath]

/-- A file after its chunk loop, with what was written of it. -/
theorem finishMobileWith_turn {rename : Fs → Path → Path → Option Fs}
    (hrename : ∀ fs p q fs', rename fs p q = some fs' → fs.rename p q = some fs') {st st₁ : MobileState} {e : Arrival}
    {f : Frame} {a : MobileFile} {l l' : RecvLocals} (hphase : st.phase = .chunks a l) (hframe : e.frame? = some f)
    (hends : ends a l f = some l') (hwritten : Written st a l st₁.fs l') (hstored : st₁.stored = st.stored) :
    MobileTurn x cfg offer st e (finishMobileWith x cfg offer rename a l' st₁) := by
  unfold finishMobileWith
  split
  · exact .dropped a l l' st₁.fs hphase hwritten rfl hstored (MobileState.between_of_returned rfl)
  rename_i hhash
  dsimp only
  split
  · exact .dropped a l l' st₁.fs hphase hwritten rfl hstored (MobileState.between_of_returned rfl)
  rename_i fs hfs
  generalize hfile : ({ fileId := a.fileId, relativePath := a.relativePath, size := a.expectedSize
                        sha256 := a.expectedHash, dest := resolveCollision cfg.now st₁.fs a.finalPath
                        content := (fs.read (resolveCollision cfg.now st₁.fs a.finalPath)).getD [] } : StoredFile) = s
  obtain ⟨hnext, hnextStored, hafter⟩ := nextFile_between x offer
    { st₁ with fs, receivedFiles := st₁.receivedFiles + 1, stored := st₁.stored ++ [s] }
  refine .put a l l' st₁.fs s f hphase hwritten hframe hends (not_not.mp hhash) ?_ ?_ ?_ hafter
  · rw [hnext, ← hfile]
    exact hrename _ _ _ _ hfs
  · rw [← hfile]
    exact ⟨rfl, rfl, rfl, rfl⟩
  · rw [hnextStored, hstored]

theorem mobileChunkWith_turn {rename : Fs → Path → Path → Option Fs}
    (hrename : ∀ fs p q fs', rename fs p q = some fs' → fs.rename p q = some fs') {st : MobileState} {e : Arrival}
    {f : Frame} {a : MobileFile} {l : RecvLocals} (hphase : st.phase = .chunks a l) (hframe : e.frame? = some f)
    (hkind : f.kind = .chunk) : MobileTurn x cfg offer st e (mobileChunkWith x cfg offer rename a l f st) := by
  have hdrop : ∀ err, MobileTurn x cfg offer st e (st.dropTmp a err) := fun err =>
    .dropped a l l st.fs hphase .before rfl rfl (MobileState.between_of_returned rfl)
  unfold mobileChunkWith
  split
  · exact hdrop _
  dsimp only
  split
  · exact hdrop _
  split
  · exact hdrop _
  split
  · exact hdrop _
  rename_i fs happend
  split
  · exact .dropped a l _ fs hphase (.after _ fs happend) rfl rfl (MobileState.between_of_returned rfl)
  rename_i conn hconn
  split
  · rename_i hlast
    refine finishMobileWith_turn hrename hphase hframe ?_ (.after _ fs happend) rfl
    simp only [ends, hkind]
    rw [if_pos hlast]
  · exact .wrote a l _ hphase happend rfl rfl

theorem mobileStepWith_turn {rename : Fs → Path → Path → Option Fs}
    (hrename : ∀ fs p q fs', rename fs p q = some fs' → fs.rename p q = some fs') (st : MobileState) {e : Arrival}
    {f : Frame} (hframe : e.frame? = some f) : MobileTurn x cfg offer st e (mobileStepWith x cfg offer rename f st) := by
  unfold mobileStepWith
  split
  · rename_i hphase
    have hbefore := MobileState.between_of_files hphase
    simp only [mobileStep, hphase]
    split
    · exact .between .refl rfl hbefore (MobileState.between_of_returned rfl)
    · rename_i hkind hcontrol
      exact mobileMetadata_turn hphase hframe hkind hcontrol
    · exact .between .refl rfl hbefore (MobileState.between_of_returned rfl)
    · obtain ⟨hfs, hstored, hafter⟩ := sendTransferAck_between x offer st
      exact .between (hfs ▸ .refl) hstored hbefore hafter
    · exact .waits rfl
  · rename_i a l hphase
    split
    · exact .dropped a l l st.fs hphase .before rfl rfl (MobileState.between_of_returned rfl)
    · rename_i hkind hcontrol
      exact finishMobileWith_turn hrename hphase hframe (by simp only [ends, hkind, hcontrol]) .before rfl
    · exact .dropped a l l st.fs hphase .before rfl rfl (MobileState.between_of_returned rfl)
    · rename_i hkind
      exact mobileChunkWith_turn hrename hphase hframe hkind
    · exact .waits rfl
  · exact .waits rfl

theorem receiveArrival_turn (x : Ext) (cfg : MobileConfig) (offer : PendingOffer) (st : MobileState) (e : Arrival) :
    MobileTurn x cfg offer st e (receiveArrival x cfg offer st e) := by
  cases e with
  | frame f =>
    rw [receiveArrival, ← mobileStepWith_rename]
    exact mobileStepWith_turn (fun _ _ _ _ h => h) st rfl
  | renameFails f => exact mobileStepWith_turn (fun _ _ _ _ h => by cases h) st rfl
  | lost =>
    simp only [receiveArrival, mobileLost]
    split
    · rename_i hphase
      exact .between .refl rfl (MobileState.between_of_files hphase) (MobileState.between_of_returned rfl)
    · rename_i a l hphase
      exact .dropped a l l st.fs hphase .before rfl rfl (MobileState.between_of_returned rfl)
    · exact .waits rfl

end

/-! ## What a run keeps -/

/-- What the peer and the random number generator must do for a turn to go
well: the temporary name is not that of a file, and a frame that ends a file
whose hash is right comes with the last of its announced bytes. -/
structure GoesWell (x : Ext) (cfg : MobileConfig) (offer : PendingOffer) (st : MobileState) (e : Arrival) : Prop where
  freshName : ∀ q, opens cfg offer st e = some q → st.fs.isFile q = false
  announcedSize : ∀ a l f l', st.phase = .chunks a l → e.frame? = some f → ends a l f = some l' →
    x.sha256 l'.hasher = a.expectedHash → l'.receivedBytes = a.expectedSize

/-- Where every file on the disk comes from: it was there before, it was stored
whole, or it is the temporary file being written. -/
structure Whole (x : Ext) (fs₀ : Fs) (st : MobileState) : Prop where
  accounted : ∀ q c, st.fs q = some (.file c) → fs₀ q = some (.file c) ∨
    (∃ s ∈ st.stored, s.dest = q ∧ x.sha256 c = s.sha256 ∧ c.length = s.size) ∨ ∃ a l, st.phase = .chunks a l ∧ q = a.tmpPath
  tmp : ∀ a l, st.phase = .chunks a l → st.fs a.tmpPath = some (.file l.hasher) ∧
    l.receivedBytes = l.hasher.length ∧ ∀ c, fs₀ a.tmpPath ≠ some (.file c)
  kept : ∀ q c, fs₀ q = some (.file c) → ∃ c', st.fs q = some (.file c')

section

variable {x : Ext} {cfg : MobileConfig} {offer : PendingOffer} {fs₀ : Fs} {st st' : MobileState}

theorem Whole.written {a : MobileFile} {l l' : RecvLocals} {fs : Fs} (h : Whole x fs₀ st) (hphase : st.phase = .chunks a l)
    (hwritten : Written st a l fs l') :
    fs a.tmpPath = some (.file l'.hasher) ∧ l'.receivedBytes = l'.hasher.length ∧ ∀ q, q ≠ a.tmpPath → fs q = st.fs q := by
  obtain ⟨htmp, hlen, -⟩ := h.tmp a l hphase
  cases hwritten with
  | before => exact ⟨htmp, hlen, fun _ _ => rfl⟩
  | after data fs happend =>
    simp only [Fs.append, htmp, Option.some.injEq] at happend
    subst happend
    refine ⟨by simp [Fs.set], by simp [hlen], ?_⟩
    intro q hq
    simp [Fs.set, hq]

/-- What is not the temporary file is accounted for without it. -/
theorem Whole.elsewhere {a : MobileFile} {l : RecvLocals} {q : Path} {c : Bytes} (h : Whole x fs₀ st)
    (hphase : st.phase = .chunks a l) (hq : q ≠ a.tmpPath) (hfile : st.fs q = some (.file c)) :
    fs₀ q = some (.file c) ∨ ∃ s ∈ st.stored, s.dest = q ∧ x.sha256 c = s.sha256 ∧ c.length = s.size := by
  rcases h.accounted q c hfile with hold | hnew | ⟨a', l', hphase', rfl⟩
  · exact .inl hold
  · exact .inr hnew
  · rw [hphase] at hphase'
    cases hphase'
    exact absurd rfl hq

theorem Whole.between (h : Whole x fs₀ st) (hfs : st.fs.SameFiles st'.fs) (hstored : st'.stored = st.stored)
    (hbefore : st.Between) (hafter : st'.Between) : Whole x fs₀ st' where
  accounted := by
    intro q c hfile
    rcases h.accounted q c ((hfs q c).mp hfile) with hold | hnew | ⟨a, l, hphase, -⟩
    · exact .inl hold
    · exact .inr (.inl (hstored ▸ hnew))
    · exact absurd hphase (hbefore a l)
  tmp a l hphase := absurd hphase (hafter a l)
  kept := by
    intro q c hold
    obtain ⟨c', hfile⟩ := h.kept q c hold
    exact ⟨c', (hfs q c').mpr hfile⟩

theorem Whole.opened {a : MobileFile} {fs : Fs} (h : Whole x fs₀ st) (hfresh : st.fs.isFile a.tmpPath = false)
    (hfs : st.fs.SameFiles fs) (hcreate : fs.create a.tmpPath = some st'.fs) (hstored : st'.stored = st.stored)
    (hbefore : st.Between) (hafter : st'.phase = .chunks a ⟨0, []⟩) : Whole x fs₀ st' := by
  have hset : st'.fs = fs.set a.tmpPath (some (.file [])) := by
    unfold Fs.create at hcreate
    split at hcreate
    · exact (Option.some.inj hcreate).symm
    · cases hcreate
  have hother : ∀ q, q ≠ a.tmpPath → st'.fs q = fs q := fun q hq => by simp [hset, Fs.set, hq]
  have hnew : ∀ c, fs₀ a.tmpPath ≠ some (.file c) := by
    intro c hold
    obtain ⟨c', hfile⟩ := h.kept _ c hold
    simp [Fs.isFile, hfile] at hfresh
  refine ⟨?_, ?_, ?_⟩
  · intro q c hfile
    by_cases hq : q = a.tmpPath
    · exact .inr (.inr ⟨a, _, hafter, hq⟩)
    · rw [hother q hq] at hfile
      rcases h.accounted q c ((hfs q c).mp hfile) with hold | hdone | ⟨a', l', hphase, -⟩
      · exact .inl hold
      · exact .inr (.inl (hstored ▸ hdone))
      · exact absurd hphase (hbefore a' l')
  · intro a' l' hphase
    rw [hafter] at hphase
    cases hphase
    exact ⟨by simp [hset, Fs.set], rfl, hnew⟩
  · intro q c hold
    have hq : q ≠ a.tmpPath := by
      rintro rfl
      exact hnew c hold
    obtain ⟨c', hfile⟩ := h.kept q c hold
    exact ⟨c', by rw [hother q hq]; exact (hfs q c').mpr hfile⟩

theorem Whole.wrote {a : MobileFile} {l : RecvLocals} {data : Bytes} (h : Whole x fs₀ st) (hbefore : st.phase = .chunks a l)
    (happend : st.fs.append a.tmpPath data = some st'.fs) (hstored : st'.stored = st.stored)
    (hafter : st'.phase = .chunks a ⟨l.receivedBytes + data.length, l.hasher ++ data⟩) : Whole x fs₀ st' := by
  obtain ⟨htmp, hlen, hother⟩ := h.written hbefore (.after data _ happend)
  obtain ⟨-, -, hnew⟩ := h.tmp a l hbefore
  refine ⟨?_, ?_, ?_⟩
  · intro q c hfile
    by_cases hq : q = a.tmpPath
    · exact .inr (.inr ⟨a, _, hafter, hq⟩)
    · rw [hother q hq] at hfile
      rcases h.elsewhere hbefore hq hfile with hold | hdone
      · exact .inl hold
      · exact .inr (.inl (hstored ▸ hdone))
  · intro a' l' hphase
    rw [hafter] at hphase
    cases hphase
    exact ⟨htmp, hlen, hnew⟩
  · intro q c hold
    have hq : q ≠ a.tmpPath := by
      rintro rfl
      exact hnew c hold
    obtain ⟨c', hfile⟩ := h.kept q c hold
    exact ⟨c', by rw [hother q hq, hfile]⟩

theorem Whole.dropped {a : MobileFile} {l l' : RecvLocals} {fs : Fs} (h : Whole x fs₀ st) (hbefore : st.phase = .chunks a l)
    (hwritten : Written st a l fs l') (hfs : st'.fs = (fs.removeFile a.tmpPath).getD fs)
    (hstored : st'.stored = st.stored) (hafter : st'.Between) : Whole x fs₀ st' := by
  obtain ⟨htmp, -, hother⟩ := h.written hbefore hwritten
  obtain ⟨-, -, hnew⟩ := h.tmp a l hbefore
  have hset : st'.fs = fs.set a.tmpPath none := by simp [hfs, Fs.removeFile, Fs.isFile, htmp]
  have hgone : st'.fs a.tmpPath = none := by simp [hset, Fs.set]
  have hsame : ∀ q, q ≠ a.tmpPath → st'.fs q = st.fs q := fun q hq => by simp [hset, Fs.set, hq, hother q hq]
  refine ⟨?_, fun a' l' hphase => absurd hphase (hafter a' l'), ?_⟩
  · intro q c hfile
    have hq : q ≠ a.tmpPath := by
      rintro rfl
      rw [hgone] at hfile
      cases hfile
    rw [hsame q hq] at hfile
    rcases h.elsewhere hbefore hq hfile with hold | hdone
    · exact .inl hold
    · exact .inr (.inl (hstored ▸ hdone))
  · intro q c hold
    have hq : q ≠ a.tmpPath := by
      rintro rfl
      exact hnew c hold
    obtain ⟨c', hfile⟩ := h.kept q c hold
    exact ⟨c', by rw [hsame q hq, hfile]⟩

theorem Whole.put {a : MobileFile} {l l' : RecvLocals} {fs : Fs} {s : StoredFile} (h : Whole x fs₀ st)
    (hbefore : st.phase = .chunks a l) (hwritten : Written st a l fs l') (hhash : x.sha256 l'.hasher = a.expectedHash)
    (hsize : l'.receivedBytes = a.expectedSize) (hrename : fs.rename a.tmpPath s.dest = some st'.fs)
    (hfile : s.size = a.expectedSize ∧ s.sha256 = a.expectedHash) (hstored : st'.stored = st.stored ++ [s])
    (hafter : st'.Between) : Whole x fs₀ st' := by
  obtain ⟨htmp, hlen, hother⟩ := h.written hbefore hwritten
  obtain ⟨-, -, hnew⟩ := h.tmp a l hbefore
  have hset : st'.fs = (fs.set a.tmpPath none).set s.dest (some (.file l'.hasher)) := by
    simp only [Fs.rename, htmp] at hrename
    split at hrename
    · exact (Option.some.inj hrename).symm
    · cases hrename
  have hdest : st'.fs s.dest = some (.file l'.hasher) := by simp [hset, Fs.set]
  have hsame : ∀ q, q ≠ s.dest → q ≠ a.tmpPath → st'.fs q = st.fs q :=
    fun q hd hq => by simp [hset, Fs.set, hd, hq, hother q hq]
  refine ⟨?_, fun a' l' hphase => absurd hphase (hafter a' l'), ?_⟩
  · intro q c hq
    by_cases hd : q = s.dest
    · subst hd
      rw [hdest] at hq
      cases hq
      refine .inr (.inl ⟨s, by simp [hstored], rfl, ?_, ?_⟩)
      · rw [hfile.2, hhash]
      · rw [hfile.1, ← hsize, hlen]
    · by_cases ht : q = a.tmpPath
      · have hgone : st'.fs q = none := by
          rw [hset]
          simp only [Fs.set, if_neg hd, if_pos ht]
        rw [hgone] at hq
        cases hq
      · rw [hsame q hd ht] at hq
        rcases h.elsewhere hbefore ht hq with hold | ⟨s', hs', hdone⟩
        · exact .inl hold
        · exact .inr (.inl ⟨s', by simp [hstored, hs'], hdone⟩)
  · intro q c hold
    by_cases hd : q = s.dest
    · exact ⟨_, hd ▸ hdest⟩
    · have ht : q ≠ a.tmpPath := by
        rintro rfl
        exact hnew c hold
      obtain ⟨c', hq⟩ := h.kept q c hold
      exact ⟨c', by rw [hsame q hd ht, hq]⟩

/-- A turn that goes well keeps every file accounted for. -/
theorem Whole.step {e : Arrival} (h : Whole x fs₀ st) (hwell : GoesWell x cfg offer st e) :
    Whole x fs₀ (receiveArrival x cfg offer st e) := by
  cases receiveArrival_turn x cfg offer st e with
  | waits heq =>
    rw [heq]
    exact h
  | between hfs hstored hbefore hafter => exact h.between hfs hstored hbefore hafter
  | opened a fs hbefore hopens _ hfs hcreate hstored hafter =>
    exact h.opened (hwell.freshName _ hopens) hfs hcreate hstored hbefore hafter
  | wrote a l data hbefore happend hstored hafter => exact h.wrote hbefore happend hstored hafter
  | dropped a l l' fs hbefore hwritten hfs hstored hafter => exact h.dropped hbefore hwritten hfs hstored hafter
  | put a l l' fs s f hbefore hwritten hframe hends hhash hrename hfile hstored hafter =>
    exact h.put hbefore hwritten hhash (hwell.announcedSize a l f l' hbefore hframe hends hhash) hrename hfile.2.2 hstored
      hafter

theorem precreateDirs_sameFiles (x : Ext) (cfg : MobileConfig) (es : List ManifestEntry) (fs : Fs) :
    fs.SameFiles (precreateDirs x cfg es fs).1 := by
  induction es generalizing fs with
  | nil => exact .refl
  | cons e es ih =>
    rw [precreateDirs]
    split
    · split
      · exact .refl
      · exact (getD_createDirAll _ _).trans (ih _)
    · exact ih _

/-- Before its loop `do_receive_file` makes directories only. -/
theorem startReceive_whole (x : Ext) (cfg : MobileConfig) (offer : PendingOffer) (fs₀ : Fs) (conn : Conn) :
    Whole x fs₀ (startReceive x cfg offer fs₀ conn) := by
  have hstart : Whole x fs₀ { fs := fs₀, conn, draws := 0, receivedFiles := 0, phase := .files, stored := [] } :=
    ⟨fun _ _ hfile => .inl hfile, nofun, fun _ c hold => ⟨c, hold⟩⟩
  have hfiles : MobileState.Between { fs := fs₀, conn, draws := 0, receivedFiles := 0, phase := .files, stored := [] } :=
    MobileState.between_of_files rfl
  unfold startReceive MobileState.send
  dsimp only
  split
  · exact hstart.between .refl rfl hfiles (MobileState.between_of_returned rfl)
  split
  · exact hstart.between .refl rfl hfiles (MobileState.between_of_returned rfl)
  rename_i fs hfs
  have hdirs := (Fs.createDirAll_sameFiles hfs).trans (precreateDirs_sameFiles x cfg offer.manifest fs)
  split
  · rename_i fs' e hpre
    rw [hpre] at hdirs
    exact hstart.between hdirs rfl hfiles (MobileState.between_of_returned rfl)
  · rename_i fs' hpre
    rw [hpre] at hdirs
    exact hstart.between hdirs rfl hfiles (MobileState.between_of_files rfl)

theorem startReceive_between (x : Ext) (cfg : MobileConfig) (offer : PendingOffer) (fs₀ : Fs) (conn : Conn) :
    (startReceive x cfg offer fs₀ conn).Between ∧ (startReceive x cfg offer fs₀ conn).stored = [] := by
  unfold startReceive MobileState.send
  dsimp only
  split
  · exact ⟨MobileState.between_of_returned rfl, rfl⟩
  split
  · exact ⟨MobileState.between_of_returned rfl, rfl⟩
  split
  · exact ⟨MobileState.between_of_returned rfl, rfl⟩
  · exact ⟨MobileState.between_of_files rfl, rfl⟩

/-- What is stored, or being written, was announced in the run. -/
structure Announced (es : List Arrival) (st : MobileState) : Prop where
  stored : ∀ s ∈ st.stored, ∃ e ∈ es, e.Announces s.fileId s.relativePath s.size s.sha256
  writing : ∀ a l, st.phase = .chunks a l →
    ∃ e ∈ es, e.Announces a.fileId a.relativePath a.expectedSize a.expectedHash

theorem Announced.step {es : List Arrival} (h : Announced es st) (e : Arrival) :
    Announced (es ++ [e]) (receiveArrival x cfg offer st e) := by
  have hlater : ∀ {P : Arrival → Prop}, (∃ e ∈ es, P e) → ∃ e' ∈ es ++ [e], P e' := by
    intro P ⟨e', he', hP⟩
    exact ⟨e', by simp [he'], hP⟩
  have hstored : ∀ {st' : MobileState}, st'.stored = st.stored →
      ∀ s ∈ st'.stored, ∃ e' ∈ es ++ [e], e'.Announces s.fileId s.relativePath s.size s.sha256 := by
    intro st' heq s hs
    exact hlater (h.stored s (heq ▸ hs))
  cases receiveArrival_turn x cfg offer st e with
  | waits heq =>
    rw [heq]
    exact ⟨hstored rfl, fun a l hphase => hlater (h.writing a l hphase)⟩
  | between _ hsame _ hafter => exact ⟨hstored hsame, fun a l hphase => absurd hphase (hafter a l)⟩
  | opened a fs _ _ hannounced _ _ hsame hafter =>
    refine ⟨hstored hsame, ?_⟩
    intro a' l' hphase
    rw [hafter] at hphase
    cases hphase
    exact ⟨e, by simp, hannounced⟩
  | wrote a l data hbefore _ hsame hafter =>
    refine ⟨hstored hsame, ?_⟩
    intro a' l' hphase
    rw [hafter] at hphase
    cases hphase
    exact hlater (h.writing a l hbefore)
  | dropped a l l' fs _ _ _ hsame hafter => exact ⟨hstored hsame, fun a l hphase => absurd hphase (hafter a l)⟩
  | put a l l' fs s f hbefore _ _ _ _ _ hfile hnew hafter =>
    refine ⟨?_, fun a l hphase => absurd hphase (hafter a l)⟩
    intro s' hs'
    rw [hnew, List.mem_append, List.mem_singleton] at hs'
    rcases hs' with hs' | rfl
    · exact hlater (h.stored s' hs')
    · obtain ⟨hid, hpath, hsize, hsha⟩ := hfile
      rw [hid, hpath, hsize, hsha]
      exact hlater (h.writing a l hbefore)

end

/-- `GoesWell`, computed. -/
def goesWell (x : Ext) (cfg : MobileConfig) (offer : PendingOffer) (st : MobileState) (e : Arrival) : Bool :=
  ((opens cfg offer st e).all fun q => !st.fs.isFile q) &&
    match st.phase, e.frame? with
    | .chunks a l, some f =>
      (ends a l f).all fun l' => x.sha256 l'.hasher != a.expectedHash || l'.receivedBytes == a.expectedSize
    | _, _ => true

theorem GoesWell.of_goesWell {x : Ext} {cfg : MobileConfig} {offer : PendingOffer} {st : MobileState} {e : Arrival}
    (h : goesWell x cfg offer st e = true) : GoesWell x cfg offer st e := by
  obtain ⟨hfresh, hsize⟩ := Bool.and_eq_true_iff.mp h
  constructor
  · intro q hq
    simpa [hq] using hfresh
  · intro a l f l' hphase hframe hends hhash
    simp only [hphase, hframe, hends] at hsize
    simpa [hhash] using hsize

/-- `a.txt` is announced and sent. -/
def sentFile : List Arrival := [.frame (sampleMetadata "a.txt"), .frame sampleChunk]

/-- The same with a FILE_METADATA that has the hash of the one byte sent and a
size of three. -/
def sentShort : List Arrival :=
  [.frame (controlFrame 3 (.fileMetadata sampleId 1 1 "a.txt" 3 (sampleHash [0x61]) none none)), .frame sampleChunk]

end Nxfr

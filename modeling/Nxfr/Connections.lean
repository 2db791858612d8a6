/-
One transfer over all its connections, on a disk and with a journal that
nothing else changes in the meantime; and what that leaves of the files that
were there before (`files_kept`).

Between its connections a transfer keeps nothing but the disk and the
journal. `earlier` collects what earlier connections put in place, `received`
the bytes that came for each file since it was last begun.
-/
import Nxfr.DaemonPair
import Nxfr.Effects

namespace Nxfr

open Disk

/-! ## Runs -/

/-- The bytes received for each file, after a frame. -/
def TransferState.receives (x : Ext) (st : TransferState) (f : Frame) (received : Nat → Bytes) : Nat → Bytes :=
  match st.phase with
  | .receiving a _ l => match newChunk x a l f with
    | some (_, data) => fun fileId =>
      if fileId = a.fileId then (if l.receivedBytes = 0 then [] else received fileId) ++ data else received fileId
    | none => received
  | _ => received

/-- The connections of a transfer, one after the other. Each starts with the
disk and the journal the one before it left, at any of its states; every frame
is one that `may` come. -/
inductive Connections (x : Ext) (fs₀ : Fs) (j₀ : Journal) (may : List StoredFile → Transfer → TransferState → Frame → Prop) :
    List StoredFile → (Nat → Bytes) → Transfer → TransferState → Prop
  | first (t : Transfer) (conn : Conn) (received : Nat → Bytes) :
      Connections x fs₀ j₀ may [] received t (startTransfer t fs₀ j₀ conn)
  | frame {earlier : List StoredFile} {received : Nat → Bytes} {t : Transfer} {st : TransferState} (f : Frame)
      (h : Connections x fs₀ j₀ may earlier received t st) (hf : may earlier t st f) :
      Connections x fs₀ j₀ may earlier (st.receives x f received) t (transferStep x t f st)
  | next {earlier : List StoredFile} {received : Nat → Bytes} {t t' : Transfer} {st : TransferState} {conn : Conn}
      (h : Connections x fs₀ j₀ may earlier received t st) (hid : t'.transferId = t.transferId) :
      Connections x fs₀ j₀ may (earlier ++ st.stored) received t' (startTransfer t' st.recv.fs st.recv.journal conn)

/-- The final path of the file a frame is about. -/
def TransferState.finalPath? (t : Transfer) (st : TransferState) (f : Frame) : Option Path := match st.phase with
  | .receiving a _ _ => some a.finalPath
  | _ => (st.opening t f).map (·.2)

/-- The `.part` path of the file a frame is about. -/
def TransferState.partPath? (t : Transfer) (st : TransferState) (f : Frame) : Option Path := match st.phase with
  | .receiving a _ _ => some a.partPath
  | _ => (st.opening t f).map fun o => partPath o.2

/-- One of the names the file may get is free. -/
def TransferState.Room (t : Transfer) (st : TransferState) (f : Frame) : Prop :=
  ∀ final, st.finalPath? t f = some final → st.recv.fs (resolveCollision t.now st.recv.fs final) = none

/-! ## Names that are free -/

/-- Whether a path is taken is all that counts, and only for paths beside the
file. -/
theorem resolveCollision_congr {now : Nat} {fs fs' : Fs} {p : Path}
    (h : ∀ q : Path, q.length = p.length → fs.exists? q = fs'.exists? q) :
    resolveCollision now fs p = resolveCollision now fs' p := by
  unfold resolveCollision
  rw [h p rfl]
  have hfind : ((List.range 999).map fun i => renameLast (collisionName (i + 1)) p).find? (fun c => !fs.exists? c) =
      ((List.range 999).map fun i => renameLast (collisionName (i + 1)) p).find? fun c => !fs'.exists? c := by
    refine List.find?_congr fun q hq => ?_
    obtain ⟨i, _, rfl⟩ := List.mem_map.mp hq
    rw [h _ renameLast_length]
  rw [hfind]

theorem resolveCollision_length {now : Nat} {fs : Fs} {p : Path} : (resolveCollision now fs p).length = p.length := by
  unfold resolveCollision
  split
  · rfl
  split
  · rename_i candidate h
    obtain ⟨i, _, rfl⟩ := List.mem_map.mp (List.mem_of_find?_eq_some h)
    exact renameLast_length
  · exact renameLast_length

/-- Where a file goes whose `.part` file is there. -/
theorem finalDest_eq {now : Nat} {a : RecvArgs} {fs : Fs} {c content : Bytes} (h : fs a.partPath = some (.file c)) :
    finalDest now a fs content = resolveCollision now fs a.finalPath := by
  refine resolveCollision_congr fun q _ => ?_
  by_cases hq : q = a.partPath
  · simp [Fs.exists?, hq, set_self, h]
  · simp [Fs.exists?, set_other hq]

/-- Directories are made above a file, where nothing is. -/
theorem createDirAll_other {fs fs' : Fs} {p q : Path} (h : fs.createDirAll p.dropLast = some fs') (hne : p ≠ [])
    (hq : q.length = p.length) : fs' q = fs q := by
  rw [(Fs.createDirAll_eq h).2, if_neg]
  intro hpre
  have hle := hpre.1.length_le
  have hpos := List.length_pos_iff.mpr hne
  rw [List.length_dropLast] at hle
  omega

theorem createDirAll_file {fs fs' : Fs} {p q : Path} {c : Bytes} (h : fs.createDirAll p = some fs')
    (hq : fs q = some (.file c)) : fs' q = some (.file c) := by
  rw [(Fs.createDirAll_eq h).2, if_neg]
  · exact hq
  · simp [hq]

theorem createDirs_file {t : Transfer} {fs : Fs} {q : Path} {c : Bytes} (hq : fs q = some (.file c)) :
    createDirs t fs q = some (.file c) := by
  unfold createDirs
  induction t.manifest generalizing fs with
  | nil => exact hq
  | cons e es ih =>
    rw [List.foldl_cons]
    refine ih ?_
    cases hk : e.entryType with
    | file => simpa only using hq
    | dir =>
      cases hp : sanitizePath e.relativePath with
      | error err => simpa only using hq
      | ok sanitized =>
        cases hd : fs.createDirAll (joinPath t.receiveDir sanitized) with
        | none => simpa only [hd, Option.getD_none] using hq
        | some fs' => simpa only [hd, Option.getD_some] using createDirAll_file hd hq

theorem joinPath_ne_nil {root : Path} {relative : String} : joinPath root relative ≠ [] := by
  simp [joinPath, splitSlash_ne_nil]

theorem resolveSafePath_joined {fs : Fs} {root dest : Path} {relative : String}
    (h : resolveSafePath fs root relative = .ok dest) : ∃ sanitized, dest = joinPath root sanitized := by
  unfold resolveSafePath at h
  split at h
  · cases h
  · rename_i sanitized _
    split at h
    · cases h
    · rename_i canonRoot hroot
      have hcanon : canonRoot = root := by
        simp only [canonicalize] at hroot
        split at hroot
        · exact (Except.ok.inj hroot).symm
        · cases hroot
      dsimp only at h
      split at h
      · cases h
      · split at h
        · exact ⟨sanitized, by rw [← Except.ok.inj h, hcanon]⟩
        · cases h

section

variable {x : Ext} {t : Transfer} {st st' : TransferState} {f : Frame} {fileId : Nat} {dest : Path}

theorem opening_ne_nil (h : st.opening t f = some (fileId, dest)) : dest ≠ [] := by
  unfold TransferState.opening at h
  split at h
  · split at h
    · cases h
    split at h
    · simp only [Option.some.injEq, Prod.mk.injEq] at h
      rw [← h.2]
      exact joinPath_ne_nil
    · split at h
      · cases h
      · rename_i hdest
        obtain ⟨sanitized, hjoined⟩ := resolveSafePath_joined hdest
        simp only [Option.some.injEq, Prod.mk.injEq] at h
        rw [← h.2, hjoined]
        exact joinPath_ne_nil
  · cases h

theorem opening_negotiate (h : st.opening t f = some (fileId, dest)) : st.phase = .negotiate := by
  unfold TransferState.opening at h
  split at h
  · assumption
  · cases h

theorem opening_finalPath (h : st.opening t f = some (fileId, dest)) : st.finalPath? t f = some dest := by
  simp [TransferState.finalPath?, opening_negotiate h, h]

theorem opening_partPath (h : st.opening t f = some (fileId, dest)) : st.partPath? t f = some (partPath dest) := by
  simp [TransferState.partPath?, opening_negotiate h, h]

/-- Nothing is where a file goes that is complete as it is opened. -/
theorem opened_dest {a : RecvArgs} {fs : Fs} {existing : Bytes} (hroom : st.Room t f)
    (hopen : st.opening t f = some (a.fileId, a.finalPath)) (hdirs : st.recv.fs.createDirAll a.finalPath.dropLast = some fs)
    (hpart : fs a.partPath = some (.file existing)) : fs (finalDest t.now a fs existing) = none := by
  have hother : ∀ {q : Path}, q.length = a.finalPath.length → fs q = st.recv.fs q :=
    fun hq => createDirAll_other hdirs (opening_ne_nil hopen) hq
  have hsame : resolveCollision t.now fs a.finalPath = resolveCollision t.now st.recv.fs a.finalPath :=
    resolveCollision_congr fun q hq => by rw [Fs.exists?, Fs.exists?, hother hq]
  rw [finalDest_eq hpart, hsame, hother resolveCollision_length]
  exact hroom _ (opening_finalPath hopen)

/-- Nothing is where a file goes that a turn completes. -/
theorem turn_dest {a : RecvArgs} {relativePath : String} {l : RecvLocals} (content : Bytes) (hroom : st.Room t f)
    (hphase : st.phase = .receiving a relativePath l) (hw : Writing a st.recv.fs l st.recv) :
    st.recv.fs (finalDest t.now a st.recv.fs content) = none := by
  rw [finalDest_eq hw.part]
  exact hroom _ (by simp [TransferState.finalPath?, hphase])

/-! ## What a frame leaves alone -/

theorem delivered_other {now : Nat} {a : RecvArgs} {fs : Fs} {content : Bytes} {p : Path} (hpart : p ≠ a.partPath)
    (hdest : p ≠ finalDest now a fs content) : delivered now a fs content p = fs p := by
  rw [delivered, set_other hdest, set_other hpart]

theorem delivered_dest {now : Nat} {a : RecvArgs} {fs : Fs} {content : Bytes} :
    delivered now a fs content (finalDest now a fs content) = some (.file content) := set_self

theorem afterReceive_stored {a : RecvArgs} {relativePath : String} {st : TransferState} {dest : Path} {recv : RecvState} :
    ∃ s ∈ (afterReceive a relativePath st (.ret (.ok dest), recv)).stored, s.dest = dest :=
  ⟨_, List.mem_append_right _ (List.mem_singleton_self _), rfl⟩

@[simp] theorem afterReceive_recv {a : RecvArgs} {relativePath : String} {st : TransferState}
    {r : Flow RecvLocals × RecvState} : (afterReceive a relativePath st r).recv = r.2 := by
  rcases r with ⟨l | e | d, recv⟩ <;> rfl

/-- **A file that is not the `.part` file of the one the frame is about stays
as it is**, where a name is free for that one. -/
theorem Effect.keeps (he : Effect x t st f st') (hw : ∀ a relativePath l, st.phase = .receiving a relativePath l →
      Writing a st.recv.fs l st.recv) (hroom : st.Room t f) {p : Path} {c : Bytes} (hp : st.recv.fs p = some (.file c))
    (hpart : st.partPath? t f ≠ some p) : st'.recv.fs p = some (.file c) := by
  -- What is there is not where the file goes.
  have hfree : ∀ {fs : Fs} {q : Path}, fs p = some (.file c) → fs q = none → p ≠ q := by
    rintro fs q hfs hq rfl
    rw [hfs] at hq
    cases hq
  cases he with
  | quiet _ hfs => rw [hfs, hp]
  | completed _ hfs => rw [hfs, hp]
  | @modified fileId dest st' hopen hfs =>
    have hne : p ≠ partPath dest := fun h => hpart (h ▸ opening_partPath hopen)
    rw [hfs, Fs.removeFile]
    split
    · simpa [set_other hne] using hp
    · exact hp
  | @opened a path s st₀ r hopen hpath hdirs _ _ hstored h =>
    have hne : p ≠ a.partPath := fun h => hpart (by rw [opening_partPath hopen, h, hpath])
    have hdone : s.fs p = some (.file c) := createDirAll_file hdirs hp
    rw [afterReceive_recv]
    cases h with
    | failed => exact hdone
    | resumed => exact hdone
    | fresh => simpa [set_other hne] using hdone
    | complete _ hexisting _ =>
      exact (delivered_other hne (hfree hdone (opened_dest hroom hopen hdirs hexisting))).trans hdone
  | @turn a path l r hphase h =>
    have hne : p ≠ a.partPath := fun h => hpart (by simp [TransferState.partPath?, hphase, h])
    rw [afterReceive_recv]
    cases h with
    | kept hfs => rw [hfs, set_other hne, hp]
    | dropped hfs => rw [hfs, set_other hne, hp]
    | placed hfs => rw [hfs, delivered_other hne (hfree hp (turn_dest _ hroom hphase (hw _ _ _ hphase))), hp]

/-- What is a file after a frame was that file before, or it is the one the
frame was about. -/
theorem Effect.before (he : Effect x t st f st') {p : Path} {c : Bytes} (hp : st'.recv.fs p = some (.file c))
    (hpart : st.partPath? t f ≠ some p) : st.recv.fs p = some (.file c) ∨ ∃ s ∈ st'.stored, s.dest = p := by
  have hdirs : ∀ {fs : Fs} {q}, st.recv.fs.createDirAll q = some fs → fs p = some (.file c) →
      st.recv.fs p = some (.file c) := by
    intro fs q hd hfs
    rw [(Fs.createDirAll_eq hd).2] at hfs
    split at hfs
    · cases hfs
    · exact hfs
  cases he with
  | quiet _ hfs => exact .inl (hfs ▸ hp)
  | completed _ hfs => exact .inl (hfs ▸ hp)
  | @modified fileId dest st' hopen hfs =>
    have hne : p ≠ partPath dest := fun h => hpart (h ▸ opening_partPath hopen)
    rw [hfs, Fs.removeFile] at hp
    split at hp
    · exact .inl (by simpa [set_other hne] using hp)
    · exact .inl hp
  | @opened a path s st₀ r hopen hpath hd _ _ hstored h =>
    have hne : p ≠ a.partPath := fun h => hpart (by rw [opening_partPath hopen, h, hpath])
    rw [afterReceive_recv] at hp
    cases h with
    | failed => exact .inl (hdirs hd hp)
    | resumed => exact .inl (hdirs hd hp)
    | fresh => exact .inl (hdirs hd (by simpa [set_other hne] using hp))
    | @complete existing _ hexisting _ =>
      by_cases hdest : p = finalDest t.now a s.fs existing
      · exact .inr (hdest ▸ afterReceive_stored)
      · exact .inl (hdirs hd ((delivered_other hne hdest).symm.trans hp))
  | @turn a path l r hphase h =>
    have hne : p ≠ a.partPath := fun h => hpart (by simp [TransferState.partPath?, hphase, h])
    rw [afterReceive_recv] at hp
    cases h with
    | kept hfs => exact .inl (by rwa [hfs, set_other hne] at hp)
    | dropped hfs => exact .inl (by rwa [hfs, set_other hne] at hp)
    | placed hfs =>
      by_cases hdest : p = finalDest t.now a st.recv.fs (withNew x a l f).hasher
      · exact .inr (hdest ▸ afterReceive_stored)
      · rw [hfs, delivered_other hne hdest] at hp
        exact .inl hp

theorem withNew_size {a : RecvArgs} {l : RecvLocals} (h : l.receivedBytes = l.hasher.length) :
    (withNew x a l f).receivedBytes = (withNew x a l f).hasher.length := by
  unfold withNew
  split
  · simp [h]
  · exact h

/-- The file under way after a frame is the one the frame was about, and
count, hasher and disk are in step. -/
theorem Effect.receiving (he : Effect x t st f st') (hw : ∀ a relativePath l, st.phase = .receiving a relativePath l →
      Writing a st.recv.fs l st.recv) {a : RecvArgs} {relativePath : String} {l : RecvLocals}
    (h : st'.phase = .receiving a relativePath l) :
    st'.stored = st.stored ∧ st.partPath? t f = some a.partPath ∧ Writing a st'.recv.fs l st'.recv := by
  cases he with
  | quiet _ _ _ _ _ hphase =>
    rcases hphase with hphase | ⟨r, hphase⟩ <;> rw [hphase] at h <;> cases h
  | completed _ _ _ _ _ hphase =>
    obtain ⟨r, hphase⟩ := hphase
    rw [hphase] at h
    cases h
  | modified _ _ _ _ _ hphase =>
    rcases hphase with hphase | ⟨r, hphase⟩ <;> rw [hphase] at h <;> cases h
  | opened hopen hpath _ _ _ hstored ho =>
    cases ho with
    | failed => cases h
    | resumed _ hpart =>
      cases h
      exact ⟨hstored, by rw [opening_partPath hopen, hpath], rfl, (set_eq_self hpart).symm⟩
    | fresh _ =>
      cases h
      exact ⟨hstored, by rw [opening_partPath hopen, hpath], rfl, by simp [afterReceive, set_set]⟩
    | complete => cases h
  | @turn a' path l' r hphase ht =>
    cases ht with
    | kept hfs _ _ hr =>
      rcases hr with rfl | ⟨e, rfl⟩
      · cases h
        refine ⟨rfl, by simp [TransferState.partPath?, hphase], withNew_size (hw _ _ _ hphase).size, ?_⟩
        simp only [afterReceive, hfs, set_set]
      · cases h
    | dropped => cases h
    | placed => cases h

/-- What a frame puts in place is there, and has its hash. -/
theorem Effect.stored (he : Effect x t st f st') : st'.stored = st.stored ∨
    ∃ file, st'.stored = st.stored ++ [file] ∧ st'.recv.fs file.dest = some (.file file.content) ∧
      x.sha256 file.content = file.sha256 := by
  cases he with
  | quiet _ _ _ _ hstored => exact .inl hstored
  | completed _ _ _ _ hstored => exact .inl hstored
  | modified _ _ _ _ hstored => exact .inl hstored
  | opened _ _ _ _ _ hstored ho =>
    cases ho with
    | failed => exact .inl hstored
    | resumed => exact .inl hstored
    | fresh => exact .inl hstored
    | complete _ _ hchecked =>
      refine .inr ⟨_, congrArg (· ++ _) hstored, ?_, ?_⟩
      · simp [afterReceive, delivered_dest, Fs.read]
      · simpa [delivered_dest, Fs.read] using hchecked.1
  | turn _ ht =>
    cases ht with
    | kept _ _ _ hr =>
      rcases hr with rfl | ⟨e, rfl⟩
      · exact .inl rfl
      · exact .inl rfl
    | dropped => exact .inl rfl
    | placed hfs _ _ _ hchecked =>
      refine .inr ⟨_, rfl, ?_, ?_⟩
      · simp [afterReceive, hfs, delivered_dest, Fs.read]
      · simpa [hfs, delivered_dest, Fs.read] using hchecked.1

end

/-- Count, hasher and disk are in step, in every state of a transfer. -/
theorem Connections.writing {x : Ext} {fs₀ : Fs} {j₀ : Journal}
    {may : List StoredFile → Transfer → TransferState → Frame → Prop} {earlier : List StoredFile} {received : Nat → Bytes}
    {t : Transfer} {st : TransferState} (h : Connections x fs₀ j₀ may earlier received t st) :
    ∀ a relativePath l, st.phase = .receiving a relativePath l → Writing a st.recv.fs l st.recv := by
  induction h with
  | first => exact nofun
  | frame f _ _ ih => exact fun a relativePath l hphase => ((transferStep_effect ih f).receiving ih hphase).2.2
  | next => exact nofun

/-- **A frame, in a transfer**: its effect on the state it meets. -/
theorem Connections.effect {x : Ext} {fs₀ : Fs} {j₀ : Journal}
    {may : List StoredFile → Transfer → TransferState → Frame → Prop} {earlier : List StoredFile} {received : Nat → Bytes}
    {t : Transfer} {st : TransferState} (h : Connections x fs₀ j₀ may earlier received t st) (f : Frame) :
    Effect x t st f (transferStep x t f st) := transferStep_effect h.writing f

/-! ## The files that were there before -/

/-- A file that was there before the transfer, or one it has completed. -/
def Protected (fs₀ : Fs) (done : List StoredFile) (p : Path) : Prop :=
  (∃ c, fs₀ p = some (.file c)) ∨ ∃ s ∈ done, s.dest = p

/-- The frame is about a file whose `.part` path is not that of a protected
file and for which a name is free. -/
def Spares (fs₀ : Fs) (earlier : List StoredFile) (t : Transfer) (st : TransferState) (f : Frame) : Prop :=
  st.Room t f ∧ ∀ p, st.partPath? t f = some p → ¬ Protected fs₀ (earlier ++ st.stored) p

/-- **Receiving leaves what was there.** In every transfer, over all its
connections, where the `.part` path of a file announced is never that of a
file that was there before or was completed earlier, and one of the names of
the file is free, every file that was there before and every file completed
has its name and content. -/
theorem files_kept {x : Ext} {fs₀ : Fs} {j₀ : Journal} {earlier : List StoredFile} {received : Nat → Bytes} {t : Transfer}
    {st : TransferState} (h : Connections x fs₀ j₀ (Spares fs₀) earlier received t st) :
    (∀ p c, fs₀ p = some (.file c) → st.recv.fs p = some (.file c)) ∧
      ∀ s ∈ earlier ++ st.stored, st.recv.fs s.dest = some (.file s.content) := by
  induction h with
  | first => exact ⟨fun p c hp => createDirs_file hp, by simp [startTransfer]⟩
  | @frame earlier received t st f h hf ih =>
    obtain ⟨hold, hdone⟩ := ih
    obtain ⟨hroom, hspare⟩ := hf
    have he := h.effect f
    have hkeep : ∀ {p c}, Protected fs₀ (earlier ++ st.stored) p → st.recv.fs p = some (.file c) →
        (transferStep x t f st).recv.fs p = some (.file c) :=
      fun hprot hp => he.keeps h.writing hroom hp fun hpart => hspare _ hpart hprot
    have hbefore : ∀ s ∈ earlier ++ st.stored, (transferStep x t f st).recv.fs s.dest = some (.file s.content) :=
      fun s hs => hkeep (.inr ⟨s, hs, rfl⟩) (hdone s hs)
    refine ⟨fun p c hp => hkeep (.inl ⟨c, hp⟩) (hold p c hp), fun s hs => ?_⟩
    rcases he.stored with hstored | ⟨file, hstored, hfile, _⟩
    · rw [hstored] at hs
      exact hbefore s hs
    · rw [hstored, ← List.append_assoc] at hs
      rcases List.mem_append.mp hs with hs | hs
      · exact hbefore s hs
      · rw [List.mem_singleton.mp hs]
        exact hfile
  | next h hid ih =>
    obtain ⟨hold, hdone⟩ := ih
    refine ⟨fun p c hp => createDirs_file (hold p c hp), fun s hs => createDirs_file (hdone s ?_)⟩
    simpa [startTransfer] using hs

/-! ## An example -/

/-- A transfer of the one file `a.txt`. -/
def sampleTransfer : Transfer :=
  { transferId := sampleId, peerIdHex := "peer", displayName := "a.txt"
    manifest := [{ fileId := 1, relativePath := "a.txt", size := some 1, sha256 := some (sampleHash [0x61]), entryType := .file }]
    receiveDir := ["inbox"], now := 1000 }

/-- FILE_METADATA for a file with the byte `a`, and its one chunk. -/
def sampleMetadata (name : String) : Frame :=
  controlFrame 3 (.fileMetadata sampleId 1 1 name 1 (sampleHash [0x61]) none none)

def sampleChunk : Frame := fileChunk sampleExt [0x61] 1 0 4

/-- The receive directory with a file of the user's in it. -/
def usedFs (name : String) : Fs := sampleFs.set ["inbox", name] (some (.file [0x62]))

theorem spares_of {fs₀ : Fs} {t : Transfer} {st : TransferState} {f : Frame} (final part : Path)
    (hfinal : st.finalPath? t f = some final) (hfree : st.recv.fs (resolveCollision t.now st.recv.fs final) = none)
    (hpart : st.partPath? t f = some part) (hnew : fs₀ part = none) (hstored : st.stored.length = 0) : Spares fs₀ [] t st f := by
  refine ⟨fun final' h => ?_, fun p h hprot => ?_⟩
  · rw [hfinal, Option.some.injEq] at h
    exact h ▸ hfree
  · rw [hpart, Option.some.injEq] at h
    subst h
    rcases hprot with ⟨c, hc⟩ | ⟨s, hs, _⟩
    · rw [hnew] at hc
      cases hc
    · rw [List.length_eq_zero_iff.mp hstored] at hs
      cases hs

/-- `a.txt` arrives beside another `a.txt`. -/
theorem files_kept_beside :
    ∃ received st, Connections sampleExt (usedFs "a.txt") (fun _ => none) (Spares (usedFs "a.txt")) [] received sampleTransfer st ∧
      st.stored.length = 1 ∧ st.recv.fs ["inbox", "a.txt"] = some (.file [0x62]) := by
  have hopened : Connections sampleExt (usedFs "a.txt") (fun _ => none) (Spares (usedFs "a.txt")) [] _ sampleTransfer _ :=
    .frame (sampleMetadata "a.txt") (.first sampleTransfer {} fun _ => [])
      (spares_of ["inbox", "a.txt"] ["inbox", "a.txt.part"] (by decide +kernel) (by decide +kernel) (by decide +kernel)
        (by decide +kernel) (by decide +kernel))
  have hrun := Connections.frame sampleChunk hopened
    (spares_of ["inbox", "a.txt"] ["inbox", "a.txt.part"] (by decide +kernel) (by decide +kernel) (by decide +kernel)
      (by decide +kernel) (by decide +kernel))
  exact ⟨_, _, hrun, by decide +kernel, (files_kept hrun).1 ["inbox", "a.txt"] [0x62] (by decide +kernel)⟩

/-- The user's `a.txt.part` does not survive the arrival of `a.txt`. -/
theorem part_file_destroyed :
    ∃ st, Connections sampleExt (usedFs "a.txt.part") (fun _ => none) (fun _ _ _ _ => True) [] (fun _ => []) sampleTransfer st ∧
      ¬ ∀ p c, usedFs "a.txt.part" p = some (.file c) → st.recv.fs p = some (.file c) := by
  refine ⟨_, .frame (sampleMetadata "a.txt") (.first sampleTransfer {} fun _ => []) trivial, fun h => ?_⟩
  have hlost := h ["inbox", "a.txt.part"] [0x62] (by decide +kernel)
  revert hlost
  decide +kernel

end Nxfr

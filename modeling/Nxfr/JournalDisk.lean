/-
The journal of a transfer against the disk, over all the connections of the
transfer and whatever ends them (`journal_held`).

`receive_file` writes a chunk, then records it; on several ways out it removes
the `.part` file and leaves the record. Where it does not come to that
(`Honest`), a file of which bytes are recorded is backed: by its `.part` file,
or by the file it was completed to (`Backed`).
-/
import Nxfr.Connections

namespace Nxfr

open Disk

/-- The id of the file a frame is about. -/
def TransferState.fileId? (t : Transfer) (st : TransferState) (f : Frame) : Option Nat := match st.phase with
  | .receiving a _ _ => some a.fileId
  | _ => (st.opening t f).map (·.1)

/-- The frame costs no recorded bytes: what `receive_file` refuses it refuses
before the first byte, and a file that ends passes its checks; the `.part`
path is neither that of another file with recorded bytes nor that of a
completed one; a file with recorded bytes comes under the path it had; and a
name is free. -/
structure Honest (x : Ext) (earlier : List StoredFile) (t : Transfer) (st : TransferState) (f : Frame) : Prop where
  refused : ∀ a relativePath l, st.phase = .receiving a relativePath l → refuses x a l f = true → l.receivedBytes = 0
  checked : ∀ a relativePath l, st.phase = .receiving a relativePath l → endsFile x a l f = true → Checked x a (withNew x a l f)
  others : ∀ p fileId e, st.partPath? t f = some p → st.recv.resume.files.lookup fileId = some e → 0 < e.receivedBytes →
    e.destPath = p → st.fileId? t f = some fileId
  completed : ∀ p, st.partPath? t f = some p → ∀ s ∈ earlier ++ st.stored, s.dest ≠ p
  same : ∀ fileId dest e, st.opening t f = some (fileId, dest) → st.recv.resume.files.lookup fileId = some e →
    0 < e.receivedBytes → e.destPath = partPath dest
  room : st.Room t f

/-- The bytes recorded for a file are on the disk: in its `.part` file or in
the file it was completed to. Another file may have taken the place of its
`.part` file in the second case. -/
structure Backed (fs : Fs) (done : List StoredFile) (fileId : Nat) (e : ResumeFileState) (bytes : Bytes) : Prop where
  size : bytes.length = e.receivedBytes
  ranges : e.receivedRanges = [(0, e.receivedBytes)]
  kept : fs e.destPath = some (.file bytes) ∨ ∃ s ∈ done, s.fileId = fileId ∧ fs s.dest = some (.file bytes)
  part : ∀ c, fs e.destPath = some (.file c) → c = [] ∨ c = bytes ∨ ∃ s ∈ done, s.dest = e.destPath

/-- What every state keeps. -/
structure Agreed (done : List StoredFile) (received : Nat → Bytes) (t : Transfer) (st : TransferState) : Prop where
  saved : ∀ rs, st.recv.journal (hexEncode t.transferId.bytes) = some rs →
    rs.transferId = hexEncode t.transferId.bytes ∧ (rs = st.recv.resume ∨ rs.files.keys = [])
  own : st.recv.resume.transferId = hexEncode t.transferId.bytes
  backed : ∀ fileId e, st.recv.resume.files.lookup fileId = some e → 0 < e.receivedBytes →
    Backed st.recv.fs done fileId e (received fileId)
  unmarked : ∀ fileId e, st.recv.resume.files.lookup fileId = some e → e.receivedBytes = 0 → e.receivedRanges = []
  under : ∀ a relativePath l, st.phase = .receiving a relativePath l →
    (∃ e, st.recv.resume.files.lookup a.fileId = some e ∧ e.destPath = a.partPath) ∧
      (0 < l.receivedBytes → l.hasher = received a.fileId)

/-! ## Records -/

theorem lookup_record {s : ResumeState} {fileId n : Nat} {e : ResumeFileState} (h : s.files.lookup fileId = some e) (id : Nat) :
    (s.record fileId n).files.lookup id =
      if id = fileId then some { e with receivedBytes := n, receivedRanges := [(0, n)] } else s.files.lookup id := by
  unfold ResumeState.record
  rw [h]
  dsimp only
  split
  · rename_i hid
    rw [hid, AList.lookup_insert]
  · rename_i hid
    rw [AList.lookup_insert_ne hid]

@[simp] theorem record_transferId {s : ResumeState} {fileId n : Nat} : (s.record fileId n).transferId = s.transferId := by
  unfold ResumeState.record
  split <;> rfl

@[simp] theorem begin_transferId {s : ResumeState} {fileId : Nat} {part : Path} :
    (s.begin fileId part).transferId = s.transferId := by
  unfold ResumeState.begin
  split <;> rfl

theorem hasPartial_iff {s : ResumeState} {fileId : Nat} :
    s.hasPartial fileId = true ↔ ∃ e, s.files.lookup fileId = some e ∧ 0 < e.receivedBytes := by
  unfold ResumeState.hasPartial ResumeState.received
  cases s.files.lookup fileId <;> simp

theorem lookup_begin {s : ResumeState} {fileId id : Nat} {part : Path} {e : ResumeFileState}
    (h : (s.begin fileId part).files.lookup id = some e) (hpos : 0 < e.receivedBytes) : s.files.lookup id = some e := by
  unfold ResumeState.begin at h
  split at h
  · exact h
  · by_cases hid : id = fileId
    · subst hid
      rw [AList.lookup_insert, Option.some.injEq] at h
      rw [← h] at hpos
      cases hpos
    · rwa [AList.lookup_insert_ne hid] at h

theorem lookup_begin_none {s : ResumeState} {fileId id : Nat} {part : Path} {e : ResumeFileState}
    (h : (s.begin fileId part).files.lookup id = some e) : s.files.lookup id = some e ∨ e.receivedRanges = [] := by
  unfold ResumeState.begin at h
  split at h
  · exact .inl h
  · by_cases hid : id = fileId
    · subst hid
      rw [AList.lookup_insert, Option.some.injEq] at h
      exact .inr (h ▸ rfl)
    · rw [AList.lookup_insert_ne hid] at h
      exact .inl h

theorem begin_entry {s : ResumeState} {fileId : Nat} {part : Path}
    (hsame : ∀ e, s.files.lookup fileId = some e → 0 < e.receivedBytes → e.destPath = part) :
    ∃ e, (s.begin fileId part).files.lookup fileId = some e ∧ e.destPath = part := by
  unfold ResumeState.begin
  split
  · rename_i hp
    obtain ⟨e, he, hpos⟩ := hasPartial_iff.mp hp
    exact ⟨e, he, hsame e he hpos⟩
  · exact ⟨_, AList.lookup_insert _, rfl⟩

theorem save_own {j : Journal} {s : ResumeState} {id : String} (h : s.transferId = id) : j.save s id = some s := by
  rw [← h, Journal.save_self]

/-! ## A frame -/

section

variable {x : Ext} {earlier : List StoredFile} {received : Nat → Bytes} {t : Transfer} {st st' : TransferState} {f : Frame}
  {a : RecvArgs} {relativePath : String} {l : RecvLocals}

theorem Effect.stored_subset (he : Effect x t st f st') : earlier ++ st.stored ⊆ earlier ++ st'.stored := by
  rcases he.stored with hstored | ⟨file, hstored, _⟩
  · rw [hstored]
    exact List.Subset.refl _
  · rw [hstored, ← List.append_assoc]
    exact List.subset_append_left _ _

/-- A file the frame is not about stays backed. -/
theorem Backed.step {fileId : Nat} {e : ResumeFileState} {bytes : Bytes}
    (hb : Backed st.recv.fs (earlier ++ st.stored) fileId e bytes) (he : Effect x t st f st')
    (hw : ∀ a relativePath l, st.phase = .receiving a relativePath l → Writing a st.recv.fs l st.recv)
    (hh : Honest x earlier t st f) (hne : st.partPath? t f ≠ some e.destPath) :
    Backed st'.recv.fs (earlier ++ st'.stored) fileId e bytes where
  size := hb.size
  ranges := hb.ranges
  kept := by
    rcases hb.kept with hpart | ⟨s, hs, hid, hfile⟩
    · exact .inl (he.keeps hw hh.room hpart hne)
    · exact .inr ⟨s, he.stored_subset hs, hid, he.keeps hw hh.room hfile fun hp => hh.completed _ hp s hs rfl⟩
  part := by
    intro c hc
    rcases he.before hc hne with hbefore | ⟨s, hs, hdest⟩
    · rcases hb.part c hbefore with hnil | hbytes | ⟨s, hs, hdest⟩
      · exact .inl hnil
      · exact .inr (.inl hbytes)
      · exact .inr (.inr ⟨s, he.stored_subset hs, hdest⟩)
    · exact .inr (.inr ⟨s, List.mem_append_right _ hs, hdest⟩)

/-- A file the frame is about, completed before, whose `.part` file has no
bytes now. -/
theorem Backed.of_completed {fileId : Nat} {e : ResumeFileState} {bytes : Bytes} {s : StoredFile}
    (hb : Backed st.recv.fs (earlier ++ st.stored) fileId e bytes) (he : Effect x t st f st')
    (hw : ∀ a relativePath l, st.phase = .receiving a relativePath l → Writing a st.recv.fs l st.recv)
    (hh : Honest x earlier t st f) (hs : s ∈ earlier ++ st.stored) (hid : s.fileId = fileId)
    (hfile : st.recv.fs s.dest = some (.file bytes)) (hpart : ∀ c, st'.recv.fs e.destPath = some (.file c) → c = []) :
    Backed st'.recv.fs (earlier ++ st'.stored) fileId e bytes where
  size := hb.size
  ranges := hb.ranges
  kept := .inr ⟨s, he.stored_subset hs, hid, he.keeps hw hh.room hfile fun hp => hh.completed _ hp s hs rfl⟩
  part := fun c hc => .inl (hpart c hc)

theorem receives_other (hphase : st.phase = .receiving a relativePath l) {fileId : Nat} (h : fileId ≠ a.fileId) :
    st.receives x f received fileId = received fileId := by
  simp only [TransferState.receives, hphase]
  cases newChunk x a l f with
  | none => rfl
  | some c => exact if_neg h

theorem receives_none (hphase : st.phase = .receiving a relativePath l) (h : newChunk x a l f = none) :
    st.receives x f received = received := by
  simp [TransferState.receives, hphase, h]

theorem receives_new (hphase : st.phase = .receiving a relativePath l) (hw : Writing a st.recv.fs l st.recv)
    (hhash : 0 < l.receivedBytes → l.hasher = received a.fileId) {c : Nat × Bytes} (h : newChunk x a l f = some c) :
    st.receives x f received a.fileId = (withNew x a l f).hasher := by
  simp only [TransferState.receives, hphase, h, if_true, withNew]
  split
  · rename_i hzero
    rw [List.eq_nil_of_length_eq_zero (hw.size.symm.trans hzero)]
  · rename_i hpos
    rw [hhash (by omega)]

theorem receives_idle (hidle : ∀ a relativePath l, st.phase ≠ .receiving a relativePath l) :
    st.receives x f received = received := by
  unfold TransferState.receives
  split
  · rename_i hphase
    exact absurd hphase (hidle _ _ _)
  · rfl

/-- What `receive_file` has of a file is what was received for it, after the
frame as before. -/
theorem receives_hasher (hphase : st.phase = .receiving a relativePath l) (hw : Writing a st.recv.fs l st.recv)
    (hhash : 0 < l.receivedBytes → l.hasher = received a.fileId) (hpos : 0 < (withNew x a l f).receivedBytes) :
    (withNew x a l f).hasher = st.receives x f received a.fileId := by
  cases hn : newChunk x a l f with
  | none =>
    rw [receives_none hphase hn, withNew_none hn]
    rw [withNew_none hn] at hpos
    exact hhash hpos
  | some c => exact (receives_new hphase hw hhash hn).symm

/-- The entry of the file under way, with the frame recorded. -/
theorem recorded_entry {s : RecvState} {e₀ : ResumeFileState} (h₀ : s.resume.files.lookup a.fileId = some e₀) (fileId : Nat) :
    (recorded x a l f s).resume.files.lookup fileId =
      if fileId = a.fileId ∧ newChunk x a l f ≠ none then
        some { e₀ with receivedBytes := (withNew x a l f).receivedBytes, receivedRanges := [(0, (withNew x a l f).receivedBytes)] }
      else s.resume.files.lookup fileId := by
  unfold recorded
  cases hn : newChunk x a l f with
  | none => simp
  | some c =>
    dsimp only
    rw [lookup_record h₀]
    simp

theorem withNew_pos {c : Nat × Bytes} (hn : newChunk x a l f = some c) : 0 < (withNew x a l f).receivedBytes := by
  have hc := hn
  simp only [newChunk, Option.ite_none_right_eq_some, Option.some.injEq] at hc
  obtain ⟨⟨_, _, hlen, _⟩, rfl⟩ := hc
  simp only [withNew, hn, List.length_drop]
  omega

theorem endsFile_replay (hn : newChunk x a l f = none) (h : endsFile x a l f = true) : 0 < l.receivedBytes := by
  unfold endsFile at h
  split at h
  · simp only [hn, Option.isSome_none, Bool.false_or, Bool.and_eq_true, decide_eq_true_eq] at h
    omega
  · cases h

/-- Where a file was completed, its `.part` file is gone. -/
theorem turn_part_gone (hh : Honest x earlier t st f) (hphase : st.phase = .receiving a relativePath l)
    (hw : Writing a st.recv.fs l st.recv) {content : Bytes} : delivered t.now a st.recv.fs content a.partPath = none := by
  have hfree := turn_dest content hh.room hphase hw
  have hne : a.partPath ≠ finalDest t.now a st.recv.fs content := by
    intro h
    rw [← h, hw.part] at hfree
    cases hfree
  rw [delivered, set_other hne, set_self]

section

variable (hg : Agreed (earlier ++ st.stored) received t st) (hh : Honest x earlier t st f)
  (hw : ∀ a relativePath l, st.phase = .receiving a relativePath l → Writing a st.recv.fs l st.recv)
  (hphase : st.phase = .receiving a relativePath l) {r : Flow RecvLocals × RecvState} (ht : Turn x t.now a l f st.recv r)
include hg hh hw hphase ht

/-- The file under way, after a turn with a new chunk: it is recorded, and it
is on the disk. -/
theorem Agreed.backed_new {c : Nat × Bytes} (hn : newChunk x a l f = some c) {e : ResumeFileState}
    (hsize : e.receivedBytes = (withNew x a l f).receivedBytes) (hranges : e.receivedRanges = [(0, e.receivedBytes)])
    (hdest : e.destPath = a.partPath) :
    Backed r.2.fs (earlier ++ (afterReceive a relativePath st r).stored) a.fileId e (st.receives x f received a.fileId) := by
  have hwriting := hw _ _ _ hphase
  have hlength : (withNew x a l f).hasher.length = e.receivedBytes := by
    rw [hsize]
    exact (withNew_size hwriting.size).symm
  rw [receives_new hphase hwriting (hg.under _ _ _ hphase).2 hn]
  cases ht with
  | kept hfs =>
    refine ⟨hlength, hranges, .inl ?_, fun c hc => ?_⟩
    · rw [hdest, hfs, set_self]
    · rw [hdest, hfs, set_self] at hc
      cases hc
      exact .inr (.inl rfl)
  | dropped _ _ _ hf =>
    rcases hf with ⟨_, hnone⟩ | ⟨hend, hnot⟩
    · rw [hn] at hnone
      cases hnone
    · exact absurd (hh.checked _ _ _ hphase hend) hnot
  | placed hfs =>
    refine ⟨hlength, hranges, .inr ⟨_, List.mem_append_right _ (List.mem_append_right _ (List.mem_singleton_self _)), rfl, ?_⟩, ?_⟩
    · rw [hfs]
      exact delivered_dest
    · intro c hc
      rw [hdest, hfs, turn_part_gone hh hphase hwriting] at hc
      cases hc

/-- The file under way, after a turn without a new chunk. -/
theorem Agreed.backed_same (hn : newChunk x a l f = none) {e : ResumeFileState}
    (he : st.recv.resume.files.lookup a.fileId = some e) (hpos : 0 < e.receivedBytes) (hdest : e.destPath = a.partPath) :
    Backed r.2.fs (earlier ++ (afterReceive a relativePath st r).stored) a.fileId e (st.receives x f received a.fileId) := by
  have hwriting := hw _ _ _ hphase
  have hb := hg.backed _ _ he hpos
  have heffect : Effect x t st f (afterReceive a relativePath st r) := .turn hphase ht
  rw [receives_none hphase hn]
  cases ht with
  | @kept r s' hfs _ _ hr =>
    rw [withNew_none hn, set_eq_self hwriting.part] at hfs
    have hstored : (afterReceive a relativePath st (r, s')).stored = st.stored := by
      rcases hr with rfl | ⟨e, rfl⟩ <;> rfl
    rw [hstored]
    exact hfs ▸ hb
  | dropped hfs _ _ hf =>
    rcases hf with ⟨hrefused, _⟩ | ⟨hend, hnot⟩
    · -- Nothing was received yet, so the record is backed by an earlier copy.
      have hnil : l.hasher = [] := List.eq_nil_of_length_eq_zero (hwriting.size ▸ hh.refused _ _ _ hphase hrefused)
      rcases hb.kept with hpart | ⟨s, hs, hid, hfile⟩
      · rw [hdest, hwriting.part, hnil] at hpart
        have hzero := hb.size
        rw [← (Node.file.inj (Option.some.inj hpart))] at hzero
        rw [← hzero] at hpos
        cases hpos
      · refine hb.of_completed heffect hw hh hs hid hfile fun c hc => ?_
        rw [afterReceive_recv, hdest, hfs, set_self] at hc
        cases hc
    · exact absurd (hh.checked _ _ _ hphase hend) hnot
  | placed hfs _ _ hend =>
    have hbytes := (hg.under _ _ _ hphase).2 (endsFile_replay hn hend)
    refine ⟨hb.size, hb.ranges, .inr ⟨_, List.mem_append_right _ (List.mem_append_right _ (List.mem_singleton_self _)), rfl, ?_⟩, ?_⟩
    · rw [hfs, ← hbytes, withNew_none hn]
      exact delivered_dest
    · intro c hc
      rw [hdest, hfs, turn_part_gone hh hphase hwriting] at hc
      cases hc

/-- **A turn keeps journal and disk agreed.** -/
theorem Agreed.turn : Agreed (earlier ++ (afterReceive a relativePath st r).stored) (st.receives x f received) t
    (afterReceive a relativePath st r) := by
  obtain ⟨⟨e₀, he₀, hpath₀⟩, hhash⟩ := hg.under _ _ _ hphase
  have heffect : Effect x t st f (afterReceive a relativePath st r) := .turn hphase ht
  have hresume : r.2.resume = (recorded x a l f st.recv).resume ∧ r.2.journal = (recorded x a l f st.recv).journal := by
    cases ht with
    | kept _ hresume hjournal => exact ⟨hresume, hjournal⟩
    | dropped _ hresume hjournal => exact ⟨hresume, hjournal⟩
    | placed _ hresume hjournal => exact ⟨hresume, hjournal⟩
  have hown : (recorded x a l f st.recv).resume.transferId = hexEncode t.transferId.bytes := by
    unfold recorded
    split
    · rw [record_transferId]
      exact hg.own
    · exact hg.own
  refine ⟨?_, ?_, ?_, ?_, ?_⟩
  · intro rs hrs
    rw [afterReceive_recv, hresume.2] at hrs
    rw [afterReceive_recv, hresume.1]
    cases hn : newChunk x a l f with
    | none =>
      rw [recorded_none hn] at hrs ⊢
      exact hg.saved rs hrs
    | some c =>
      rw [show (recorded x a l f st.recv).journal = st.recv.journal.save (recorded x a l f st.recv).resume by
        simp [recorded, hn], save_own hown, Option.some.injEq] at hrs
      subst hrs
      exact ⟨hown, .inl rfl⟩
  · rw [afterReceive_recv, hresume.1]
    exact hown
  · intro fileId e he hpos
    rw [afterReceive_recv, hresume.1, recorded_entry he₀] at he
    by_cases hid : fileId = a.fileId
    · subst hid
      rw [afterReceive_recv]
      cases hn : newChunk x a l f with
      | none =>
        simp only [hn, ne_eq, not_true_eq_false, and_false, if_false] at he
        have hsame := he
        rw [he₀, Option.some.injEq] at hsame
        exact hg.backed_same hh hw hphase ht hn he hpos (hsame ▸ hpath₀)
      | some c =>
        simp only [hn, ne_eq, reduceCtorEq, not_false_eq_true, and_self, if_true, Option.some.injEq] at he
        subst he
        exact hg.backed_new hh hw hphase ht hn rfl rfl hpath₀
    · simp only [hid, false_and, if_false] at he
      rw [receives_other hphase hid]
      refine (hg.backed _ _ he hpos).step heffect hw hh fun hpart => hid ?_
      have := hh.others _ _ _ hpart he hpos rfl
      simp only [TransferState.fileId?, hphase, Option.some.injEq] at this
      exact this.symm
  · intro fileId e he hzero
    rw [afterReceive_recv, hresume.1, recorded_entry he₀] at he
    split at he
    · rename_i hnew
      obtain ⟨c, hc⟩ := Option.ne_none_iff_exists'.mp hnew.2
      have hpos := withNew_pos hc
      cases he
      exact absurd hzero (Nat.ne_of_gt hpos)
    · exact hg.unmarked fileId e he hzero
  · intro a' path' l' hphase'
    rw [afterReceive_recv, hresume.1]
    cases ht with
    | kept _ _ _ hr =>
      rcases hr with rfl | ⟨e, rfl⟩
      · cases hphase'
        refine ⟨?_, fun hpos => receives_hasher hphase (hw _ _ _ hphase) hhash hpos⟩
        rw [recorded_entry he₀]
        split
        · exact ⟨_, rfl, hpath₀⟩
        · exact ⟨e₀, he₀, hpath₀⟩
      · cases hphase'
    | dropped => cases hphase'
    | placed => cases hphase'

end

/-- The file a frame opens, with bytes recorded for it: what its `.part` file
holds, if it is there. -/
theorem Agreed.existing (hg : Agreed (earlier ++ st.stored) received t st) (hh : Honest x earlier t st f)
    (hopen : st.opening t f = some (a.fileId, a.finalPath)) (hpath : a.partPath = partPath a.finalPath)
    {e : ResumeFileState} (he : st.recv.resume.files.lookup a.fileId = some e) (hpos : 0 < e.receivedBytes) {c : Bytes}
    (hc : st.recv.fs a.partPath = some (.file c)) : c = [] ∨ c = received a.fileId := by
  have hdest : e.destPath = a.partPath := (hh.same _ _ _ hopen he hpos).trans hpath.symm
  rcases (hg.backed _ _ he hpos).part c (hdest ▸ hc) with hnil | hbytes | ⟨s, hs, hsdest⟩
  · exact .inl hnil
  · exact .inr hbytes
  · exact absurd (hsdest.trans hdest) (hh.completed _ (by rw [opening_partPath hopen, hpath]) s hs)

theorem createDirAll_before {fs fs' : Fs} {p q : Path} {c : Bytes} (h : fs.createDirAll p = some fs')
    (hq : fs' q = some (.file c)) : fs q = some (.file c) := by
  rw [(Fs.createDirAll_eq h).2] at hq
  split at hq
  · cases hq
  · exact hq

/-- The file a frame opens, with bytes recorded for it, is backed as it was
or by what it is completed to. -/
theorem Agreed.backed_opened (hg : Agreed (earlier ++ st.stored) received t st) (hh : Honest x earlier t st f)
    (hw : ∀ a relativePath l, st.phase = .receiving a relativePath l → Writing a st.recv.fs l st.recv)
    {s : RecvState} {st₀ : TransferState} {r : Flow RecvLocals × RecvState}
    (hopen : st.opening t f = some (a.fileId, a.finalPath)) (hpath : a.partPath = partPath a.finalPath)
    (hdirs : st.recv.fs.createDirAll a.finalPath.dropLast = some s.fs) (hstored : st₀.stored = st.stored)
    (ho : Opening x t.now a s r) (heffect : Effect x t st f (afterReceive a relativePath st₀ r)) {e : ResumeFileState}
    (he : st.recv.resume.files.lookup a.fileId = some e) (hpos : 0 < e.receivedBytes)
    (hsome : s.resume.hasPartial a.fileId = true) :
    Backed r.2.fs (earlier ++ (afterReceive a relativePath st₀ r).stored) a.fileId e (received a.fileId) := by
  have hb := hg.backed _ _ he hpos
  have hdest : e.destPath = a.partPath := (hh.same _ _ _ hopen he hpos).trans hpath.symm
  have hexisting : ∀ {c}, s.fs a.partPath = some (.file c) → c = [] ∨ c = received a.fileId :=
    fun hc => hg.existing hh hopen hpath he hpos (createDirAll_before hdirs hc)
  -- Where the `.part` file does not back the record, an earlier copy does.
  have hcompleted : (∀ c, r.2.fs a.partPath = some (.file c) → c = []) →
      (∃ s ∈ earlier ++ st.stored, s.fileId = a.fileId ∧ st.recv.fs s.dest = some (.file (received a.fileId))) →
      Backed r.2.fs (earlier ++ (afterReceive a relativePath st₀ r).stored) a.fileId e (received a.fileId) := by
    rintro hempty ⟨s, hs, hsid, hfile⟩
    have := hb.of_completed heffect hw hh hs hsid hfile fun c hc => hempty c (by rwa [afterReceive_recv, hdest] at hc)
    rwa [afterReceive_recv] at this
  -- With the `.part` file as it was, so is everything.
  have hsame : r.2.fs = s.fs → (afterReceive a relativePath st₀ r).stored = st₀.stored →
      Backed r.2.fs (earlier ++ (afterReceive a relativePath st₀ r).stored) a.fileId e (received a.fileId) := by
    intro hfs hst
    rw [hfs, hst, hstored]
    refine ⟨hb.size, hb.ranges, ?_, fun c hc => ?_⟩
    · rcases hb.kept with hpart | ⟨q, hq, hqid, hfile⟩
      · exact .inl (createDirAll_file hdirs hpart)
      · exact .inr ⟨q, hq, hqid, createDirAll_file hdirs hfile⟩
    · exact hb.part c (createDirAll_before hdirs hc)
  cases ho with
  | failed => exact hsame rfl rfl
  | resumed => exact hsame rfl rfl
  | fresh hnew =>
    rcases hb.kept with hpart | hcopy
    · have hgone := createDirAll_file hdirs (hdest ▸ hpart)
      rw [hnew hsome] at hgone
      cases hgone
    · refine hcompleted (fun c hc => ?_) hcopy
      simp only [set_self, Option.some.injEq, Node.file.injEq] at hc
      exact hc.symm
  | @complete existing _ hpart =>
    have hfree := opened_dest hh.room hopen hdirs hpart
    have hne : a.partPath ≠ finalDest t.now a s.fs existing := by
      intro h
      rw [← h, hpart] at hfree
      cases hfree
    have hgone : delivered t.now a s.fs existing a.partPath = none := by rw [delivered, set_other hne, set_self]
    rcases hexisting hpart with hnil | hbytes
    · rcases hb.kept with hfile | hcopy
      · have hfile' := createDirAll_file hdirs (hdest ▸ hfile)
        rw [hpart, hnil] at hfile'
        have hzero := hb.size
        rw [← (Node.file.inj (Option.some.inj hfile'))] at hzero
        rw [← hzero] at hpos
        cases hpos
      · exact hcompleted (fun c hc => by simp [hgone] at hc) hcopy
    · refine ⟨hb.size, hb.ranges,
        .inr ⟨_, List.mem_append_right _ (List.mem_append_right _ (List.mem_singleton_self _)), rfl, ?_⟩, fun c hc => ?_⟩
      · have hplaced : delivered t.now a s.fs existing (finalDest t.now a s.fs existing) = some (.file (received a.fileId)) := by
          rw [delivered_dest, hbytes]
        exact hplaced
      · simp [hdest, hgone] at hc

/-- **The start of a file keeps journal and disk agreed.** -/
theorem Agreed.opened (hg : Agreed (earlier ++ st.stored) received t st) (hh : Honest x earlier t st f)
    (hw : ∀ a relativePath l, st.phase = .receiving a relativePath l → Writing a st.recv.fs l st.recv)
    {s : RecvState} {st₀ : TransferState} {r : Flow RecvLocals × RecvState}
    (hopen : st.opening t f = some (a.fileId, a.finalPath)) (hpath : a.partPath = partPath a.finalPath)
    (hdirs : st.recv.fs.createDirAll a.finalPath.dropLast = some s.fs)
    (hresume : s.resume = st.recv.resume.begin a.fileId a.partPath) (hjournal : s.journal = st.recv.journal.save s.resume)
    (hstored : st₀.stored = st.stored) (ho : Opening x t.now a s r) :
    Agreed (earlier ++ (afterReceive a relativePath st₀ r).stored) (st.receives x f received) t
      (afterReceive a relativePath st₀ r) := by
  have heffect : Effect x t st f (afterReceive a relativePath st₀ r) :=
    .opened hopen hpath hdirs hresume hjournal hstored ho
  have hpart : st.partPath? t f = some a.partPath := by rw [opening_partPath hopen, hpath]
  have hrecv : r.2.resume = s.resume ∧ r.2.journal = s.journal := by cases ho <;> exact ⟨rfl, rfl⟩
  have hown : s.resume.transferId = hexEncode t.transferId.bytes := by
    rw [hresume, begin_transferId]
    exact hg.own
  have hdest : ∀ e, st.recv.resume.files.lookup a.fileId = some e → 0 < e.receivedBytes → e.destPath = a.partPath :=
    fun e he hpos => (hh.same _ _ _ hopen he hpos).trans hpath.symm
  have hidle : ∀ a' path' l', st.phase ≠ .receiving a' path' l' := by simp [opening_negotiate hopen]
  rw [receives_idle hidle]
  refine ⟨?_, ?_, ?_, ?_, ?_⟩
  · intro rs hrs
    rw [afterReceive_recv, hrecv.2, hjournal, save_own hown, Option.some.injEq] at hrs
    subst hrs
    exact ⟨hown, .inl (by rw [afterReceive_recv, hrecv.1])⟩
  · rw [afterReceive_recv, hrecv.1]
    exact hown
  · intro fileId e he hpos
    rw [afterReceive_recv, hrecv.1, hresume] at he
    have hbefore := lookup_begin he hpos
    by_cases hid : fileId = a.fileId
    · subst hid
      rw [afterReceive_recv]
      exact hg.backed_opened hh hw hopen hpath hdirs hstored ho heffect hbefore hpos
        (hresume ▸ hasPartial_iff.mpr ⟨e, he, hpos⟩)
    · refine (hg.backed _ _ hbefore hpos).step heffect hw hh fun hp => hid ?_
      rw [hpart, Option.some.injEq] at hp
      have := hh.others _ _ _ hpart hbefore hpos hp.symm
      simp only [TransferState.fileId?, opening_negotiate hopen, hopen, Option.map_some, Option.some.injEq] at this
      exact this.symm
  · intro fileId e he hzero
    rw [afterReceive_recv, hrecv.1, hresume] at he
    rcases lookup_begin_none he with hbefore | hnone
    · exact hg.unmarked fileId e hbefore hzero
    · exact hnone
  · intro a' path' l' hphase'
    rw [afterReceive_recv, hrecv.1]
    have hentry := hresume ▸ begin_entry hdest
    cases ho with
    | failed => cases hphase'
    | resumed hsome hexisting =>
      cases hphase'
      refine ⟨hentry, fun hpos => ?_⟩
      rw [hresume] at hsome
      obtain ⟨e, he, hrecorded⟩ := hasPartial_iff.mp hsome
      rcases hg.existing hh hopen hpath (lookup_begin he hrecorded) hrecorded (createDirAll_before hdirs hexisting) with
        hnil | hbytes
      · rw [hnil] at hpos
        cases hpos
      · exact hbytes
    | fresh =>
      cases hphase'
      exact ⟨hentry, fun hpos => by cases hpos⟩
    | complete => cases hphase'

theorem Agreed.modified (hg : Agreed (earlier ++ st.stored) received t st) (hh : Honest x earlier t st f)
    (hw : ∀ a relativePath l, st.phase = .receiving a relativePath l → Writing a st.recv.fs l st.recv)
    {fileId : Nat} {dest : Path} (hopen : st.opening t f = some (fileId, dest)) (heffect : Effect x t st f st')
    (hresume : st'.recv.resume = { st.recv.resume with files := st.recv.resume.files.erase fileId })
    (hjournal : st'.recv.journal = st.recv.journal.save st'.recv.resume)
    (hphase : st'.phase = .negotiate ∨ ∃ r, st'.phase = .returned r) :
    Agreed (earlier ++ st'.stored) (st.receives x f received) t st' := by
  have hown : st'.recv.resume.transferId = hexEncode t.transferId.bytes := by
    rw [hresume]
    exact hg.own
  rw [receives_idle (by simp [opening_negotiate hopen])]
  -- What is left of the entries was there before.
  have hentry : ∀ {fileId' e}, st'.recv.resume.files.lookup fileId' = some e →
      fileId' ≠ fileId ∧ st.recv.resume.files.lookup fileId' = some e := by
    intro fileId' e he
    have hid : fileId' ≠ fileId := by
      rintro rfl
      rw [hresume, AList.lookup_erase] at he
      cases he
    rw [hresume, AList.lookup_erase_ne hid] at he
    exact ⟨hid, he⟩
  refine ⟨fun rs hrs => ?_, hown, fun fileId' e he hpos => ?_, fun fileId' e he => hg.unmarked _ _ (hentry he).2,
    fun a' path' l' hphase' => ?_⟩
  · rw [hjournal, save_own hown, Option.some.injEq] at hrs
    subst hrs
    exact ⟨hown, .inl rfl⟩
  · obtain ⟨hid, he⟩ := hentry he
    refine (hg.backed _ _ he hpos).step heffect hw hh fun hp => hid ?_
    have := hh.others _ _ _ hp he hpos rfl
    simp only [TransferState.fileId?, opening_negotiate hopen, hopen, Option.map_some, Option.some.injEq] at this
    exact this.symm
  · rcases hphase with hphase | ⟨r, hphase⟩ <;> rw [hphase] at hphase' <;> cases hphase'

/-- **A frame keeps journal and disk agreed.** -/
theorem Agreed.frame (hg : Agreed (earlier ++ st.stored) received t st) (hh : Honest x earlier t st f)
    (hw : ∀ a relativePath l, st.phase = .receiving a relativePath l → Writing a st.recv.fs l st.recv)
    (he : Effect x t st f st') : Agreed (earlier ++ st'.stored) (st.receives x f received) t st' := by
  have heffect := he
  cases he with
  | quiet hidle hfs hresume hjournal hstored hphase =>
    rw [receives_idle hidle]
    refine ⟨?_, hresume ▸ hg.own, ?_, hresume ▸ hg.unmarked, ?_⟩
    · rw [hjournal, hresume]
      exact hg.saved
    · rw [hfs, hresume, hstored]
      exact hg.backed
    · intro a path l h
      rcases hphase with hphase | ⟨r, hphase⟩ <;> rw [hphase] at h <;> cases h
  | completed hidle hfs hresume hjournal hstored hphase =>
    rw [receives_idle hidle]
    refine ⟨fun rs hrs => ?_, hresume ▸ hg.own, ?_, hresume ▸ hg.unmarked, ?_⟩
    · simp [hjournal, Journal.delete] at hrs
    · rw [hfs, hresume, hstored]
      exact hg.backed
    · intro a path l h
      obtain ⟨r, hphase⟩ := hphase
      rw [hphase] at h
      cases h
  | modified hopen _ hresume hjournal _ hphase => exact hg.modified hh hw hopen heffect hresume hjournal hphase
  | opened hopen hpath hdirs hresume hjournal hstored ho => exact hg.opened hh hw hopen hpath hdirs hresume hjournal hstored ho
  | turn hphase ht => exact hg.turn hh hw hphase ht

end

/-! ## Whole transfers -/

theorem createDirs_before {t : Transfer} {fs : Fs} {q : Path} {c : Bytes} (hq : createDirs t fs q = some (.file c)) :
    fs q = some (.file c) := by
  unfold createDirs at hq
  generalize t.manifest = es at hq
  induction es generalizing fs with
  | nil => exact hq
  | cons e es ih =>
    rw [List.foldl_cons] at hq
    have := ih hq
    cases hk : e.entryType with
    | file => simpa only [hk] using this
    | dir =>
      cases hp : sanitizePath e.relativePath with
      | error err => simpa only [hk, hp] using this
      | ok sanitized =>
        cases hd : fs.createDirAll (joinPath t.receiveDir sanitized) with
        | none => simpa only [hk, hp, hd, Option.getD_none] using this
        | some fs' =>
          simp only [hk, hp, hd, Option.getD_some] at this
          exact createDirAll_before hd this

theorem lookup_of_keys_nil {files : AList fun _ : Nat => ResumeFileState} (h : files.keys = []) (fileId : Nat) :
    files.lookup fileId = none := by
  rw [AList.lookup_eq_none, AList.mem_keys, h]
  exact List.not_mem_nil

/-- A connection that starts, on the disk and the journal of the one before. -/
theorem Agreed.start {done : List StoredFile} {received : Nat → Bytes} {t t' : Transfer} {st : TransferState}
    (hg : Agreed done received t st) (conn : Conn) (hid : t'.transferId = t.transferId) :
    Agreed done received t' (startTransfer t' st.recv.fs st.recv.journal conn) := by
  -- The resume state is the saved one, or it has no entries.
  have hload : loadResume t' st.recv.journal = freshResume t' ∨
      st.recv.journal (hexEncode t'.transferId.bytes) = some (loadResume t' st.recv.journal) ∧
        (loadResume t' st.recv.journal).files.keys ≠ [] := by
    unfold loadResume
    split
    · rename_i rs hrs
      split
      · exact .inl rfl
      · rename_i hkeys
        exact .inr ⟨hrs, hkeys⟩
    · exact .inl rfl
  have hsaved : ∀ rs, st.recv.journal (hexEncode t'.transferId.bytes) = some rs →
      rs.transferId = hexEncode t'.transferId.bytes ∧ (rs = st.recv.resume ∨ rs.files.keys = []) := by
    rw [hid]
    exact hg.saved
  have hentry : ∀ {fileId e}, (loadResume t' st.recv.journal).files.lookup fileId = some e →
      st.recv.resume.files.lookup fileId = some e := by
    intro fileId e he
    rcases hload with hfresh | ⟨hrs, hkeys⟩
    · rw [hfresh] at he
      cases he
    · rwa [(hsaved _ hrs).2.resolve_right hkeys] at he
  refine ⟨?_, ?_, ?_, fun fileId e he => hg.unmarked _ _ (hentry he), nofun⟩
  · intro rs hrs
    refine ⟨(hsaved rs hrs).1, ?_⟩
    by_cases hkeys : rs.files.keys = []
    · exact .inr hkeys
    · refine .inl ?_
      have hjournal : st.recv.journal (hexEncode t'.transferId.bytes) = some rs := hrs
      simp [startTransfer, loadResume, hjournal, hkeys]
  · rcases hload with hfresh | ⟨hrs, _⟩
    · exact congrArg ResumeState.transferId hfresh
    · exact (hsaved _ hrs).1
  · intro fileId e he hpos
    have hb := hg.backed _ _ (hentry he) hpos
    refine ⟨hb.size, hb.ranges, ?_, fun c hc => hb.part c (createDirs_before hc)⟩
    rcases hb.kept with hpart | ⟨s, hs, hsid, hfile⟩
    · exact .inl (createDirs_file hpart)
    · exact .inr ⟨s, hs, hsid, createDirs_file hfile⟩

theorem Connections.agreed {x : Ext} {fs₀ : Fs} {j₀ : Journal} {earlier : List StoredFile} {received : Nat → Bytes}
    {t : Transfer} {st : TransferState} (h : Connections x fs₀ j₀ (Honest x) earlier received t st)
    (hnew : j₀ (hexEncode t.transferId.bytes) = none) : Agreed (earlier ++ st.stored) received t st := by
  induction h with
  | first t conn received =>
    have hresume : (startTransfer t fs₀ j₀ conn).recv.resume = freshResume t := by simp [startTransfer, loadResume, hnew]
    refine ⟨fun rs hrs => ?_, by rw [hresume]; rfl, fun fileId e he => ?_, fun fileId e he => ?_, ?_⟩
    · have : j₀ (hexEncode t.transferId.bytes) = some rs := hrs
      rw [hnew] at this
      cases this
    · rw [hresume] at he
      cases he
    · rw [hresume] at he
      cases he
    · intro a relativePath l hphase
      cases hphase
  | frame f h hf ih => exact (ih hnew).frame hf h.writing (h.effect f)
  | next _ hid ih =>
    rw [show ∀ (t : Transfer) (fs : Fs) (j : Journal) (conn : Conn), (startTransfer t fs j conn).stored = [] from
      fun _ _ _ _ => rfl, List.append_nil]
    exact (ih (hid ▸ hnew)).start _ hid

/-- The bytes a record claims for a file are on the disk: its `.part` file, or
one it was completed to, starts with the bytes received first. -/
def Held (fs : Fs) (done : List StoredFile) (fileId : Nat) (part : Path) (n : Nat) (bytes : Bytes) : Prop :=
  n ≤ bytes.length ∧ ∃ p c, (p = part ∨ ∃ s ∈ done, s.fileId = fileId ∧ s.dest = p) ∧ fs p = some (.file c) ∧
    c.take n = bytes.take n

theorem Backed.held {fs : Fs} {done : List StoredFile} {fileId : Nat} {e : ResumeFileState} {bytes : Bytes}
    (hb : Backed fs done fileId e bytes) : Held fs done fileId e.destPath e.receivedBytes bytes := by
  refine ⟨Nat.le_of_eq hb.size.symm, ?_⟩
  rcases hb.kept with hpart | ⟨s, hs, hid, hfile⟩
  · exact ⟨_, _, .inl rfl, hpart, rfl⟩
  · exact ⟨_, _, .inr ⟨s, hs, hid, rfl⟩, hfile, rfl⟩

/-- **What the journal claims is on the disk.** In every transfer, over all
its connections, where no frame costs recorded bytes, the bytes the journal
claims for a file are held, and so is every range a RESUME_STATUS reports. -/
theorem journal_held {x : Ext} {fs₀ : Fs} {j₀ : Journal} {earlier : List StoredFile} {received : Nat → Bytes} {t : Transfer}
    {st : TransferState} (h : Connections x fs₀ j₀ (Honest x) earlier received t st)
    (hnew : j₀ (hexEncode t.transferId.bytes) = none) :
    (∀ rs fileId e, st.recv.journal (hexEncode t.transferId.bytes) = some rs → rs.files.lookup fileId = some e →
        0 < e.receivedBytes →
        Held st.recv.fs (earlier ++ st.stored) fileId e.destPath e.receivedBytes (received fileId)) ∧
      ∀ cfg fileIds files expiry,
        resumeStatus cfg st.recv.journal t.transferId fileIds = .resumeStatus t.transferId true (some files) expiry →
        ∀ s ∈ files, ∀ range ∈ s.receivedRanges, range.1 = 0 ∧ ∃ part,
          Held st.recv.fs (earlier ++ st.stored) s.fileId part range.2 (received s.fileId) := by
  have hg := h.agreed hnew
  have hbacked : ∀ rs fileId e, st.recv.journal (hexEncode t.transferId.bytes) = some rs → rs.files.lookup fileId = some e →
      0 < e.receivedBytes → Backed st.recv.fs (earlier ++ st.stored) fileId e (received fileId) := by
    intro rs fileId e hrs he hpos
    rcases (hg.saved rs hrs).2 with hsame | hkeys
    · exact hg.backed _ _ (hsame ▸ he) hpos
    · rw [lookup_of_keys_nil hkeys] at he
      cases he
  refine ⟨fun rs fileId e hrs he hpos => (hbacked rs fileId e hrs he hpos).held, ?_⟩
  intro cfg fileIds files expiry hstatus s hs range hrange
  unfold resumeStatus at hstatus
  split at hstatus
  · cases hstatus
  rename_i rs hrs
  split at hstatus
  · cases hstatus
  split at hstatus
  · cases hstatus
  simp only [ControlMessage.resumeStatus.injEq, Option.some.injEq, true_and] at hstatus
  rw [← hstatus.1] at hs
  obtain ⟨entry, hentry, rfl⟩ := List.mem_map.mp hs
  have he : rs.files.lookup entry.1 = some entry.2 := AList.mem_lookup_iff.mpr (List.mem_of_mem_filter hentry)
  have hpos : 0 < entry.2.receivedBytes := by
    refine Nat.pos_of_ne_zero fun hzero => ?_
    rcases (hg.saved rs hrs).2 with hsame | hkeys
    · have hnone := hg.unmarked _ _ (hsame ▸ he) hzero
      rw [hnone] at hrange
      cases hrange
    · rw [lookup_of_keys_nil hkeys] at he
      cases he
  have hb := hbacked rs entry.1 entry.2 hrs he hpos
  rw [hb.ranges, List.mem_singleton] at hrange
  rw [hrange]
  exact ⟨rfl, entry.2.destPath, hb.held⟩

/-! ## An example -/

/-- FILE_METADATA for `a.txt` with two bytes, its first byte, and a change of
mind. -/
def longMetadata : Frame := controlFrame 3 (.fileMetadata sampleId 1 1 "a.txt" 2 (sampleHash [0x61]) none none)

def firstByte : Frame := chunkFrame 4 1 0 (chunkPayload sampleExt 0 [0x61])

def cancelled : Frame := controlFrame 5 (.transferCancel sampleId none)

/-- A frame before anything is recorded, which ends nothing. -/
theorem honest_of {x : Ext} {t : Transfer} {st : TransferState} {f : Frame} (final : Path)
    (hturn : (match st.phase with | .receiving a _ l => !refuses x a l f && !endsFile x a l f | _ => true) = true)
    (hentries : (st.recv.resume.files.entries.all fun e => e.2.receivedBytes == 0) = true) (hstored : st.stored.length = 0)
    (hfinal : st.finalPath? t f = some final) (hfree : st.recv.fs (resolveCollision t.now st.recv.fs final) = none) :
    Honest x [] t st f := by
  have hzero : ∀ {fileId e}, st.recv.resume.files.lookup fileId = some e → ¬ 0 < e.receivedBytes := by
    intro fileId e he
    have := List.all_eq_true.mp hentries _ (AList.mem_lookup_iff.mp he)
    simp only [beq_iff_eq] at this
    omega
  refine ⟨?_, ?_, ?_, ?_, ?_, ?_⟩
  · intro a path l hphase hr
    simp [hphase, hr] at hturn
  · intro a path l hphase hend
    simp [hphase, hend] at hturn
  · intro p fileId e _ he hpos
    exact absurd hpos (hzero he)
  · intro p _ s hs
    rw [List.length_eq_zero_iff.mp hstored] at hs
    cases hs
  · intro fileId dest e _ he hpos
    exact absurd hpos (hzero he)
  · intro final' h
    rw [hfinal, Option.some.injEq] at h
    exact h ▸ hfree

/-- The transfer after each of these frames. -/
def announced : TransferState :=
  transferStep sampleExt sampleTransfer longMetadata (startTransfer sampleTransfer sampleFs (fun _ => none) {})

def oneByteIn : TransferState := transferStep sampleExt sampleTransfer firstByte announced

def oneByteLost : TransferState := transferStep sampleExt sampleTransfer cancelled oneByteIn

/-- The first byte of `a.txt` is recorded, and held. -/
theorem journal_held_first :
    ∃ received rs e, Connections sampleExt sampleFs (fun _ => none) (Honest sampleExt) [] received sampleTransfer oneByteIn ∧
      oneByteIn.recv.journal (hexEncode sampleTransfer.transferId.bytes) = some rs ∧ rs.files.lookup 1 = some e ∧
      e.receivedBytes = 1 ∧
      Held oneByteIn.recv.fs ([] ++ oneByteIn.stored) 1 e.destPath e.receivedBytes (received 1) := by
  have hfirst : Honest sampleExt [] sampleTransfer (startTransfer sampleTransfer sampleFs (fun _ => none) {}) longMetadata :=
    honest_of ["inbox", "a.txt"] (by decide +kernel) (by decide +kernel) (by decide +kernel) (by decide +kernel)
      (by decide +kernel)
  have hsecond : Honest sampleExt [] sampleTransfer announced firstByte :=
    honest_of ["inbox", "a.txt"] (by decide +kernel) (by decide +kernel) (by decide +kernel) (by decide +kernel)
      (by decide +kernel)
  have hentry : (oneByteIn.recv.journal (hexEncode sampleTransfer.transferId.bytes)).bind (·.files.lookup 1) =
      some ⟨1, [(0, 1)], none, ["inbox", "a.txt.part"]⟩ := by decide +kernel
  obtain ⟨received, hrun⟩ : ∃ received,
      Connections sampleExt sampleFs (fun _ => none) (Honest sampleExt) [] received sampleTransfer oneByteIn :=
    ⟨_, .frame firstByte (.frame longMetadata (.first sampleTransfer {} fun _ => []) hfirst) hsecond⟩
  obtain ⟨rs, hrs, he⟩ := Option.bind_eq_some_iff.mp hentry
  exact ⟨received, rs, _, hrun, hrs, he, rfl, (journal_held hrun rfl).1 rs 1 _ hrs he (by decide)⟩

/-- After the transfer is cancelled the record of it stays, the byte does
not. -/
theorem cancelled_not_held :
    ∃ received rs e,
      Connections sampleExt sampleFs (fun _ => none) (fun _ _ _ _ => True) [] received sampleTransfer oneByteLost ∧
      oneByteLost.recv.journal (hexEncode sampleTransfer.transferId.bytes) = some rs ∧ rs.files.lookup 1 = some e ∧
      0 < e.receivedBytes ∧
      ¬ Held oneByteLost.recv.fs ([] ++ oneByteLost.stored) 1 e.destPath e.receivedBytes (received 1) := by
  have hentry : (oneByteLost.recv.journal (hexEncode sampleTransfer.transferId.bytes)).bind (·.files.lookup 1) =
      some ⟨1, [(0, 1)], none, ["inbox", "a.txt.part"]⟩ := by decide +kernel
  have hgone : oneByteLost.recv.fs ["inbox", "a.txt.part"] = none := by decide +kernel
  have hstored : oneByteLost.stored.length = 0 := by decide +kernel
  obtain ⟨received, hrun⟩ : ∃ received,
      Connections sampleExt sampleFs (fun _ => none) (fun _ _ _ _ => True) [] received sampleTransfer oneByteLost :=
    ⟨_, .frame cancelled (.frame firstByte (.frame longMetadata (.first sampleTransfer {} fun _ => []) trivial) trivial)
      trivial⟩
  obtain ⟨rs, hrs, he⟩ := Option.bind_eq_some_iff.mp hentry
  refine ⟨received, rs, _, hrun, hrs, he, by decide, ?_⟩
  intro hheld
  obtain ⟨_, p, c, hwhere, hp, _⟩ := hheld
  rcases hwhere with hpart | ⟨s, hs, _⟩
  · change p = ["inbox", "a.txt.part"] at hpart
    rw [hpart, hgone] at hp
    cases hp
  · rw [List.nil_append, List.length_eq_zero_iff.mp hstored] at hs
    cases hs

end Nxfr

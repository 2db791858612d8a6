/-
What a run of `receive_file` leaves behind, for any frames (`receiveFile_delivers`).

The loop keeps three things in step (`Writing`): the byte count, the hasher
and the `.part` file. Every turn either keeps them so, adding the chunk it
accepts to all three, or returns; a return with `Ok` has renamed a file that
passed both checks, a return with `Err` has changed nothing but the `.part`
file.
-/
import Nxfr.Receiver

namespace Nxfr

/-! ## Writes to the disk -/

theorem set_self {fs : Fs} {p : Path} {n : Option (Disk.Node UInt8)} : fs.set p n p = n := by
  simp [Disk.Fs.set]

theorem set_other {fs : Fs} {p p' : Path} {n : Option (Disk.Node UInt8)} (h : p' ≠ p) : fs.set p n p' = fs p' := by
  simp [Disk.Fs.set, h]

theorem set_set {fs : Fs} {p : Path} {n n' : Option (Disk.Node UInt8)} : (fs.set p n).set p n' = fs.set p n' := by
  funext p'
  by_cases h : p' = p <;> simp [Disk.Fs.set, h]

theorem set_eq_self {fs : Fs} {p : Path} {n : Option (Disk.Node UInt8)} (h : fs p = n) : fs.set p n = fs := by
  funext p'
  by_cases h' : p' = p <;> simp [Disk.Fs.set, h', h]

theorem removeFile_other {s : RecvState} {p p' : Path} (h : p' ≠ p) : (s.removeFile p).fs p' = s.fs p' := by
  simp only [RecvState.removeFile, Disk.Fs.removeFile]
  split
  · simp [set_other h]
  · rfl

/-! ## What a run is about -/

section

variable (x : Ext) (now : Nat) (a : RecvArgs)

/-- The `.part` bytes a run keeps. -/
def retained (s : RecvState) : Bytes :=
  if s.resume.hasPartial a.fileId && s.fs.exists? a.partPath then (s.fs.read a.partPath).getD [] else []

/-- The chunk of a frame, where it continues the file: of this stream, whole,
with its own hash, at the next offset and within the announced size. -/
def newChunk (l : RecvLocals) (f : Frame) : Option (Nat × Bytes) :=
  let offset := fromBeBytes (f.payload.take 8)
  let data := f.payload.drop 40
  if f.kind = .chunk ∧ f.streamId = a.streamId ∧ 41 ≤ f.payload.length ∧
      (f.payload.drop 8).take 32 = (x.sha256 data).bytes ∧ offset = l.receivedBytes ∧
      l.receivedBytes + data.length ≤ a.expectedSize then
    some (offset, data)
  else none

/-- The chunks a run of the loop accepts, in the order it accepts them. -/
def acceptedChunks (l : RecvLocals) : List Frame → RecvState → List (Nat × Bytes)
  | [], _ => []
  | f :: fs, s => (newChunk x a l f).toList ++ match receiveStep x now a l f s with
    | (.ret _, _) => []
    | (.next l, s) => acceptedChunks l fs s

/-- The chunks a run of `receive_file` accepts. -/
def accepted (frames : List Frame) (s : RecvState) : List (Nat × Bytes) :=
  match receiveOpen x now a s with
  | (.ret _, _) => []
  | (.next l, s) => acceptedChunks x now a l frames s

/-- Each chunk starts where the one before it ended, the first at `n`. -/
def Contiguous : Nat → List (Nat × Bytes) → Prop
  | _, [] => True
  | n, (offset, data) :: cs => offset = n ∧ Contiguous (n + data.length) cs

/-- The collision-resolved destination, `content` being in the `.part` file. -/
def finalDest (fs : Fs) (content : Bytes) : Path :=
  resolveCollision now (fs.set a.partPath (some (.file content))) a.finalPath

/-- The disk after the `.part` file with `content` has been renamed. -/
def delivered (fs : Fs) (content : Bytes) : Fs :=
  (fs.set a.partPath none).set (finalDest now a fs content) (some (.file content))

/-- Count, hasher and disk agree; `fs` is the disk the run found. -/
structure Writing (fs : Fs) (l : RecvLocals) (s : RecvState) : Prop where
  size : l.receivedBytes = l.hasher.length
  disk : s.fs = fs.set a.partPath (some (.file l.hasher))

/-- What a return may leave, `content` being all the bytes of the file so
far: with `Ok` they are checked and in place, with `Err` nothing has changed
beside the `.part` file. -/
def Returned (fs : Fs) (content : Bytes) : Except Fail Path × RecvState → Prop
  | (.ok dest, s) => dest = finalDest now a fs content ∧ s.fs = delivered now a fs content ∧
      content.length = a.expectedSize ∧ x.sha256 content = a.expectedHash
  | (.error _, s) => ∀ p, p ≠ a.partPath → s.fs p = fs p

/-- The same for a piece of the function, which may also go on. -/
def Outcome (fs : Fs) (content : Bytes) : Flow RecvLocals × RecvState → Prop
  | (.next l, s) => Writing a fs l s ∧ l.hasher = content
  | (.ret r, s) => Returned x now a fs content (r, s)

end

variable {x : Ext} {now : Nat} {a : RecvArgs}

/-! ## One turn -/

theorem Writing.other {fs : Fs} {l : RecvLocals} {s : RecvState} (h : Writing a fs l s) {p : Path}
    (hp : p ≠ a.partPath) : s.fs p = fs p := by
  rw [h.disk, set_other hp]

theorem Writing.send {fs : Fs} {content : Bytes} {l : RecvLocals} {s : RecvState} {m : ControlMessage}
    {k : RecvState → Flow RecvLocals × RecvState} (h : Writing a fs l s)
    (hk : ∀ conn, Outcome x now a fs content (k { s with conn })) :
    Outcome x now a fs content (s.send x m k) := by
  unfold RecvState.send
  split
  · exact fun p hp => h.other hp
  · exact hk _

theorem Writing.rename {fs : Fs} {l : RecvLocals} {s : RecvState} (h : Writing a fs l s)
    (hsize : l.hasher.length = a.expectedSize) (hhash : x.sha256 l.hasher = a.expectedHash) :
    Outcome x now a fs l.hasher (renameFinal now a s) := by
  unfold renameFinal
  dsimp only
  split
  · exact fun p hp => h.other hp
  · rename_i fs' hr
    have hpart : s.fs a.partPath = some (.file l.hasher) := by rw [h.disk, set_self]
    simp only [Disk.Fs.rename, hpart] at hr
    split at hr
    · simp only [Option.some.injEq] at hr
      refine ⟨by rw [h.disk]; rfl, ?_, hsize, hhash⟩
      rw [← hr, h.disk, set_set]
      rfl
    · cases hr

theorem Writing.finish {fs : Fs} {l : RecvLocals} {s : RecvState} (h : Writing a fs l s) :
    Outcome x now a fs l.hasher (finishFile x now a l s) := by
  unfold finishFile
  split
  · exact fun p hp => (removeFile_other hp).trans (h.other hp)
  split
  · exact fun p hp => (removeFile_other hp).trans (h.other hp)
  · rename_i hhash hsize
    simp only [ne_eq, Decidable.not_not] at hhash hsize
    exact h.rename (h.size ▸ hsize) hhash

theorem Writing.ack {fs : Fs} {l : RecvLocals} {s : RecvState} (h : Writing a fs l s) {f : Frame}
    {offset length : Nat} : Outcome x now a fs l.hasher (ackChunk x now a l f offset length s) := by
  refine h.send fun conn => ?_
  have h' : Writing a fs l { s with conn } := ⟨h.size, h.disk⟩
  split
  · exact h'.finish
  · exact ⟨h', rfl⟩

theorem Writing.refuse {fs : Fs} {content : Bytes} {l : RecvLocals} {s : RecvState} (h : Writing a fs l s)
    {code : ErrorCode} {message failure : String} {cleanup : RecvState → RecvState}
    (hc : ∀ s p, p ≠ a.partPath → (cleanup s).fs p = s.fs p) :
    Outcome x now a fs content (refuse x code message failure cleanup s) := by
  refine h.send fun conn => ?_
  intro p hp
  rw [hc _ _ hp]
  exact h.other hp

theorem Writing.store {fs : Fs} {l : RecvLocals} {s s' : RecvState} (h : Writing a fs l s) {data : Bytes}
    (hs : storeChunk a (l.receivedBytes + data.length) data s = some s') :
    Writing a fs ⟨l.receivedBytes + data.length, l.hasher ++ data⟩ s' := by
  have hpart : s.fs a.partPath = some (.file l.hasher) := by rw [h.disk, set_self]
  simp only [storeChunk, Disk.Fs.append, hpart, Option.map_some, Option.some.injEq] at hs
  subst hs
  refine ⟨by simp [h.size], ?_⟩
  simp only [h.disk, set_set]

theorem newChunk_none {l : RecvLocals} {f : Frame}
    (h : ¬ (f.kind = .chunk ∧ f.streamId = a.streamId ∧ 41 ≤ f.payload.length ∧
      (f.payload.drop 8).take 32 = (x.sha256 (f.payload.drop 40)).bytes ∧
      fromBeBytes (f.payload.take 8) = l.receivedBytes ∧
      l.receivedBytes + (f.payload.drop 40).length ≤ a.expectedSize)) : newChunk x a l f = none :=
  if_neg h

/-- **One turn of the loop** keeps count, hasher and disk in step, with the
new chunk of the frame, if it has one, added to all three. -/
theorem receiveStep_outcome {fs : Fs} {l : RecvLocals} {s : RecvState} (h : Writing a fs l s) (f : Frame) :
    Outcome x now a fs (l.hasher ++ ((newChunk x a l f).map (·.2)).getD []) (receiveStep x now a l f s) := by
  -- Off the accepting branch the frame adds nothing.
  have keep : ∀ {r : Flow RecvLocals × RecvState}, newChunk x a l f = none → Outcome x now a fs l.hasher r →
      Outcome x now a fs (l.hasher ++ ((newChunk x a l f).map (·.2)).getD []) r := by
    intro r hn ho
    simpa [hn] using ho
  have stay : Outcome x now a fs l.hasher (.next l, s) := ⟨h, rfl⟩
  unfold receiveStep
  split
  · rename_i hk
    unfold receiveChunk
    split
    · rename_i hstream
      exact keep (newChunk_none fun hc => hstream hc.2.1) stay
    split
    · rename_i hlen
      exact keep (newChunk_none fun hc => by omega) stay
    dsimp only
    split
    · rename_i hhash
      exact keep (newChunk_none fun hc => hhash hc.2.2.2.1) (h.refuse fun s p hp => removeFile_other hp)
    split
    · rename_i hstream hlen hhash hoff
      split
      · rename_i htotal
        exact keep (newChunk_none fun hc => by omega) (h.refuse fun s p hp => removeFile_other hp)
      · rename_i htotal
        have hnew : newChunk x a l f = some (l.receivedBytes, f.payload.drop 40) := by
          simp only [ne_eq, Decidable.not_not] at hstream hhash
          unfold newChunk
          rw [if_pos ⟨hk, hstream, by omega, hhash, hoff, by omega⟩, hoff]
        rw [hnew]
        split
        · exact fun p hp => h.other hp
        · rename_i s' hs
          exact (h.store hs).ack
    · rename_i hoff
      have hnone : newChunk x a l f = none := newChunk_none fun hc => hoff hc.2.2.2.2.1
      split
      · split
        · exact keep hnone h.ack
        · exact keep hnone (h.refuse fun s p hp => rfl)
      · exact keep hnone (h.refuse fun s p hp => rfl)
  · rename_i hk
    have hnone : newChunk x a l f = none := newChunk_none fun hc => by simp [hk] at hc
    refine keep hnone ?_
    split
    · exact fun p hp => h.other hp
    · exact fun p hp => (removeFile_other hp).trans (h.other hp)
    · exact fun p hp => h.other hp
    · exact stay
  · rename_i hk
    exact keep (newChunk_none fun hc => by simp [hk] at hc) stay

theorem newChunk_offset {l : RecvLocals} {f : Frame} {c : Nat × Bytes} (h : newChunk x a l f = some c) :
    c.1 = l.receivedBytes := by
  simp only [newChunk, Option.ite_none_right_eq_some, Option.some.injEq] at h
  rw [← h.2]
  exact h.1.2.2.2.2.1

/-! ## A whole run -/

/-- The loop's chunks are contiguous from the bytes already there, and what
it returns is about those bytes and the chunks' together. -/
theorem receiveLoop_returned {fs : Fs} {l : RecvLocals} {s : RecvState} (h : Writing a fs l s)
    (frames : List Frame) :
    Contiguous l.receivedBytes (acceptedChunks x now a l frames s) ∧
      Returned x now a fs (l.hasher ++ (acceptedChunks x now a l frames s).flatMap (·.2))
        (receiveLoop x now a l frames s) := by
  induction frames generalizing l s with
  | nil => exact ⟨trivial, fun p hp => h.other hp⟩
  | cons f frames ih =>
    have hstep := @receiveStep_outcome x now a fs l s h f
    simp only [acceptedChunks, receiveLoop]
    rcases hr : receiveStep x now a l f s with ⟨l' | r, s'⟩ <;> rw [hr] at hstep
    · obtain ⟨hw, hl'⟩ := hstep
      obtain ⟨hcont, hret⟩ := ih hw
      rw [hw.size, hl'] at hcont
      rw [hl'] at hret
      cases hn : newChunk x a l f with
      | none =>
        simp only [hn, Option.map_none, Option.getD_none, List.append_nil, ← h.size] at hcont hret
        exact ⟨hcont, hret⟩
      | some c =>
        simp only [hn, Option.map_some, Option.getD_some, List.length_append, ← h.size] at hcont hret
        refine ⟨⟨newChunk_offset hn, hcont⟩, ?_⟩
        simpa [List.append_assoc] using hret
    · have hret : Returned x now a fs _ (r, s') := hstep
      cases hn : newChunk x a l f with
      | none => exact ⟨trivial, by simpa [hn] using hret⟩
      | some c => exact ⟨⟨newChunk_offset hn, trivial⟩, by simpa [hn] using hret⟩

/-- Before the loop: the run goes on with the retained bytes, or it has
found them complete. -/
theorem receiveOpen_outcome (s : RecvState) :
    Outcome x now a s.fs (retained a s) (receiveOpen x now a s) := by
  unfold receiveOpen retained
  split
  · split
    · exact fun _ _ => rfl
    · rename_i existing hread
      have hpart : s.fs a.partPath = some (.file existing) := by
        revert hread
        unfold Disk.Fs.read
        split <;> simp_all
      have hw : Writing a s.fs ⟨existing.length, existing⟩ s := ⟨rfl, (set_eq_self hpart).symm⟩
      simp only [hread, Option.getD_some]
      split
      · rename_i hdone
        exact hw.rename hdone.1 hdone.2
      · exact ⟨hw, rfl⟩
  · split
    · exact fun _ _ => rfl
    · rename_i fs hc
      simp only [Disk.Fs.create, Option.ite_none_right_eq_some, Option.some.injEq] at hc
      exact ⟨⟨rfl, hc.2.symm⟩, rfl⟩

/-- **A run of `receive_file`**, whatever frames it is given and whatever the
`.part` file and the journal held before. Returning `Ok`, it has renamed one
file to the collision-resolved destination: the retained bytes followed by
the data of the accepted chunks, each starting where the one before it ended,
of the announced size and hash. Returning `Err`, it has renamed nothing:
every path but the `.part` file's is as it was. -/
theorem receiveFile_delivers (x : Ext) (now : Nat) (a : RecvArgs) (frames : List Frame) (s : RecvState) :
    let content := retained a s ++ (accepted x now a frames s).flatMap (·.2)
    Contiguous (retained a s).length (accepted x now a frames s) ∧
      match receiveFile x now a frames s with
      | (.ok dest, s') => dest = finalDest now a s.fs content ∧ s'.fs = delivered now a s.fs content ∧
          content.length = a.expectedSize ∧ x.sha256 content = a.expectedHash
      | (.error _, s') => ∀ p, p ≠ a.partPath → s'.fs p = s.fs p := by
  have hopen := @receiveOpen_outcome x now a s
  unfold accepted receiveFile
  rcases hr : receiveOpen x now a s with ⟨l | r, s'⟩ <;> rw [hr] at hopen
  · obtain ⟨hw, hl⟩ := hopen
    have hloop := @receiveLoop_returned x now a _ _ _ hw frames
    rw [hw.size, hl] at hloop
    exact hloop
  · refine ⟨trivial, ?_⟩
    simp only [List.flatMap_nil, List.append_nil]
    exact hopen

end Nxfr

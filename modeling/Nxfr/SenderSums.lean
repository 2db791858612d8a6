/-
The additions of the chunk loops (`nxfr-daemon/src/sender.rs`,
`nxfr-ffi/src/lib.rs`), all in 64 bits and unchecked: where a loop is in the
file, what it has counted, the ends of the ranges to skip, and the running sum
of the lengths that the CHUNK_ACKs of the peer carry.

The variables of the model hold the exact sums, so a sum that does not fit a
word shows as one of 2^64 or more; a debug build stops there, a release build
goes on with the rest of the division.
-/
import Nxfr.ChunkPartition

namespace Nxfr

open History

/-! ## The additions -/

/-- The sums that the closure over the ranges makes for a chunk, up to the range
it takes. -/
def rangeSums (offset len : Nat) : List (Nat × Nat) → List Nat
  | [] => []
  | r :: ranges =>
    if offset ≥ r.1 then
      [offset + len, r.1 + r.2] ++
        if (offset + len) % 2 ^ 64 ≤ (r.1 + r.2) % 2 ^ 64 then [] else rangeSums offset len ranges
    else rangeSums offset len ranges

/-- The sums of a turn at the chunk that starts at the offset of a run: its end,
the size of its payload, the counters, and those of the ranges. The chunks
skipped are those before it that were not sent. -/
def SendRun.turnSums (loop : ChunkLoop) (io : Stream) (r : SendRun) : List Nat :=
  let len := chunkStop io.fileData r.state.offset - r.state.offset
  [8 + 32 + len, r.state.inFlight + 1] ++ match loop with
    | .sendFile => [r.state.offset + chunkDataSize]
    | .doSendFile _ => [r.state.offset + len]
    | .sendFileResume skipRanges =>
      [r.state.offset + chunkDataSize, r.chunks.length + 1,
        r.state.offset / chunkDataSize - r.chunks.length + 1] ++ rangeSums r.state.offset len skipRanges

/-- No sum a run has made so far on its way to the state, and none of the turn it
is in, is more than a word holds. -/
structure SendRun.InWord (loop : ChunkLoop) (io : Stream) (r : SendRun) : Prop where
  acked : r.state.ackedBytes < 2 ^ 64
  turn : r.result = none → r.state.offset < io.fileData.length → ∀ n ∈ r.turnSums loop io, n < 2 ^ 64

/-- The first of the ranges that holds the chunk, with the exact ends. -/
def firstHolding (skipRanges : List (Nat × Nat)) (offset len : Nat) : Option (Nat × Nat) :=
  skipRanges.find? fun r => r.1 ≤ offset && offset + len ≤ r.1 + r.2

/-- For each chunk, the first range that holds it ends below 2^64. -/
def ChunkLoop.RangesEnd (data : Bytes) : ChunkLoop → Prop
  | .sendFileResume skipRanges => ∀ k < chunkCount data, ∀ r,
    firstHolding skipRanges (k * chunkDataSize) (chunkBytes data k).length = some r → r.1 + r.2 < 2 ^ 64
  | .sendFile | .doSendFile _ => True

section

variable (x : Ext) (loop : ChunkLoop) (io : Stream)

/-- The length in the CHUNK_ACK that a step reads. -/
def SendRun.readLength (r : SendRun) (e : SendInput) : Nat :=
  match r.result, r.move x loop io, e with
  | none, .wait, .frame f => if loop.isAck f then
      match f.control with
      | .ok (.chunkAck _ _ _ length) => length
      | _ => 0
    else 0
  | _, _, _ => 0

/-- The lengths in the CHUNK_ACKs that a run reads, together. -/
def readLengths (r : SendRun) : List SendInput → Nat
  | [] => 0
  | e :: es => r.readLength x loop io e + readLengths (r.step x loop io e) es

end

/-- A file of `do_send_file`, with the connection as its loop finds it and what
comes while it runs. -/
structure FileTurn where
  io : Stream
  conn : NxfrConnection
  es : List SendInput

/-- The loop of `do_send_file` over a file, or part of it. -/
def FileTurn.run (x : Ext) (t : FileTurn) (cumulativeSent : Nat) (es : List SendInput) : SendRun :=
  after (SendRun.step x (.doSendFile cumulativeSent) t.io) (SendRun.start (.doSendFile cumulativeSent) t.conn) es

/-- `cumulative_sent` after some files. -/
def cumulativeSent (x : Ext) (files : List FileTurn) : Nat :=
  files.foldl (fun sent t => (t.run x sent t.es).state.ackedBytes) 0

/-- The lengths in the CHUNK_ACKs that the loops over some files read. -/
def filesRead (x : Ext) (files : List FileTurn) : Nat :=
  files.foldl (fun sent t =>
    sent + readLengths x (.doSendFile sent) t.io (SendRun.start (.doSendFile sent) t.conn) t.es) 0

variable {x : Ext} {loop : ChunkLoop} {io : Stream} {data : Bytes}

/-! ## The sum of the lengths -/

theorem SendRun.step_acked (x : Ext) (loop : ChunkLoop) (io : Stream) (r : SendRun) (e : SendInput) :
    (r.step x loop io e).state.ackedBytes = r.state.ackedBytes + r.readLength x loop io e := by
  obtain ⟨state, conn, acks, result⟩ := r
  cases result with
  | some result => rfl
  | none =>
    rcases sendMove_cases (x := x) loop.skips io.fileData state with ⟨_, _, hmove⟩ | ⟨_, _, _, hmove⟩ | ⟨_, _, hmove⟩ |
      ⟨_, _, hmove⟩
    · cases e <;> simp only [SendRun.step, SendRun.readLength, SendRun.move, hmove] <;> rfl
    · cases e <;> simp only [SendRun.step, SendRun.readLength, SendRun.move, hmove]
      · split <;> rfl
      · rfl
      · rfl
    · cases e with
      | go =>
        simp only [SendRun.step, SendRun.readLength, SendRun.move, hmove]
        rfl
      | lost =>
        simp only [SendRun.step, SendRun.readLength, SendRun.move, hmove]
        rfl
      | frame f =>
        rcases loop.onFrame_cases state f with ⟨hack, _, _, _, length, hf, hon⟩ | ⟨hack, hon | ⟨error, hon⟩⟩
        · simp only [SendRun.step, SendRun.readLength, SendRun.move, hmove, hon, hack, hf, SendState.acked, if_true]
        · simp only [SendRun.step, SendRun.readLength, SendRun.move, hmove, hon, hack]
          rfl
        · simp only [SendRun.step, SendRun.readLength, SendRun.move, hmove, hon, hack]
          rfl
    · cases e <;> simp only [SendRun.step, SendRun.readLength, SendRun.move, hmove] <;> rfl

theorem run_acked (r : SendRun) (es : List SendInput) :
    (after (SendRun.step x loop io) r es).state.ackedBytes = r.state.ackedBytes + readLengths x loop io r es := by
  induction es generalizing r with
  | nil => rfl
  | cons e es ih =>
    have hstep := SendRun.step_acked x loop io r e
    have hrest := ih (r.step x loop io e)
    simp only [after, List.foldl_cons, readLengths] at hrest ⊢
    omega

theorem readLengths_append (r : SendRun) (es later : List SendInput) : readLengths x loop io r (es ++ later) =
    readLengths x loop io r es + readLengths x loop io (after (SendRun.step x loop io) r es) later := by
  induction es generalizing r with
  | nil => simp [readLengths, after]
  | cons e es ih =>
    have hrest := ih (r.step x loop io e)
    simp only [after, List.cons_append, List.foldl_cons, readLengths] at hrest ⊢
    omega

/-! ## The sums of a turn -/

/-- A range that does not fit a word and is looked at holds the chunk, so it is
the first one that matters. -/
theorem rangeSums_iff {skipRanges : List (Nat × Nat)} {offset len : Nat} (h : offset + len < 2 ^ 64) :
    (∀ n ∈ rangeSums offset len skipRanges, n < 2 ^ 64) ↔
      ∀ r, firstHolding skipRanges offset len = some r → r.1 + r.2 < 2 ^ 64 := by
  induction skipRanges with
  | nil => simp [rangeSums, firstHolding]
  | cons r ranges ih =>
    rw [rangeSums, firstHolding, List.find?_cons]
    by_cases hoffset : r.1 ≤ offset
    · rw [if_pos hoffset, Nat.mod_eq_of_lt h]
      by_cases hend : r.1 + r.2 < 2 ^ 64
      · rw [Nat.mod_eq_of_lt hend]
        by_cases hhold : offset + len ≤ r.1 + r.2
        · simp only [hoffset, hhold, decide_true, Bool.and_true, if_true, List.append_nil, List.mem_cons,
            List.not_mem_nil, or_false, Option.some.injEq]
          constructor
          · rintro - _ rfl
            exact hend
          · rintro - n (rfl | rfl)
            · exact h
            · exact hend
        · simp only [hoffset, hhold, decide_true, decide_false, Bool.and_false, if_false]
          rw [← firstHolding, ← ih]
          constructor
          · intro hall n hn
            exact hall n (List.mem_append_right _ hn)
          · intro hall n hn
            simp only [List.mem_append, List.mem_cons, List.not_mem_nil, or_false] at hn
            rcases hn with (rfl | rfl) | hn
            · exact h
            · exact hend
            · exact hall n hn
      · have hhold : offset + len ≤ r.1 + r.2 := by omega
        simp only [hoffset, hhold, decide_true, Bool.and_true, Option.some.injEq]
        constructor
        · intro hall
          exact absurd (hall (r.1 + r.2) (by simp)) hend
        · intro hall
          exact absurd (hall r rfl) hend
    · have hno : (decide (r.1 ≤ offset) && decide (offset + len ≤ r.1 + r.2)) = false := by simp [hoffset]
      rw [if_neg hoffset, hno]
      exact ih

theorem SendRun.Past.chunks_length {r : SendRun} {k : Nat} (h : r.Past x loop io k) : r.chunks.length ≤ k := by
  have hlen := congrArg List.length h.chunks
  simp only [keptChunks, List.length_map] at hlen
  have hfilter := List.length_filter_le (loop.keeps io.fileData) (List.range k)
  rw [List.length_range] at hfilter
  omega

/-- The sums of a turn fit a word when those of the ranges do. -/
theorem SendRun.Past.turnSums_iff {r : SendRun} {k : Nat} (h : r.Past x loop io k) (hr : r.Windowed)
    (hlen : io.fileData.length < 2 ^ 63) (hlt : r.state.offset < io.fileData.length) :
    (∀ n ∈ r.turnSums loop io, n < 2 ^ 64) ↔ match loop with
      | .sendFileResume skipRanges =>
        ∀ range, firstHolding skipRanges (k * chunkDataSize) (chunkBytes io.fileData k).length = some range →
          range.1 + range.2 < 2 ^ 64
      | .sendFile | .doSendFile _ => True := by
  obtain ⟨hat, hk, hstop⟩ := h.at_chunk hlt
  obtain ⟨hbytes, _, hmax⟩ := chunkBytes_length k hk
  have hbounds := chunkStop_bounds hlt
  have hflight := hr.bounded
  have hchunks := h.chunks_length
  have hsize : chunkDataSize = 1048576 := rfl
  rw [← hat] at hbytes
  cases loop with
  | sendFile =>
    simp only [SendRun.turnSums, ← hbytes, List.mem_append, List.mem_cons, List.not_mem_nil, or_false, iff_true]
    intro n hn
    omega
  | doSendFile sent =>
    simp only [SendRun.turnSums, ← hbytes, List.mem_append, List.mem_cons, List.not_mem_nil, or_false, iff_true]
    intro n hn
    omega
  | sendFileResume skipRanges =>
    simp only [SendRun.turnSums, ← hbytes]
    rw [← hat, ← rangeSums_iff (by omega)]
    constructor
    · intro hall n hn
      exact hall n (List.mem_append_right _ (List.mem_append_right _ hn))
    · intro hall n hn
      simp only [List.mem_append, List.mem_cons, List.not_mem_nil, or_false] at hn
      rcases hn with hn | hn | hn
      · omega
      · have hle : k ≤ k * chunkDataSize := Nat.le_mul_of_pos_right k (by decide)
        have hcount : r.state.offset / chunkDataSize = k := by rw [hat, Nat.mul_div_cancel _ (by decide)]
        omega
      · exact hall n hn

/-! ## Runs -/

theorem SendRun.step_offset (x : Ext) (loop : ChunkLoop) (io : Stream) (r : SendRun) (e : SendInput) :
    (r.step x loop io e).state.offset = r.state.offset ∨
      r.result = none ∧ r.state.offset < io.fileData.length ∧
        (r.step x loop io e).state.offset = chunkStop io.fileData r.state.offset := by
  cases hresult : r.result with
  | some result =>
    rw [SendRun.step_ended hresult]
    exact .inl rfl
  | none =>
    have hstep := SendRun.step_spec x loop io r e
    generalize r.step x loop io e = r' at *
    cases hstep with
    | skipped hlt hskip stop hstop => exact .inr ⟨rfl, hlt, hstop⟩
    | sent _ hlt hflight hskip header hheader conn hconn stop hstop => exact .inr ⟨rfl, hlt, hstop⟩
    | idle => exact .inl rfl
    | acked => exact .inl rfl
    | passed => exact .inl rfl
    | failed => exact .inl rfl
    | finished => exact .inl rfl

/-- A run has been at the start of each chunk it has gone past. -/
theorem run_reached (conn : NxfrConnection) (es : List SendInput) {k : Nat}
    (h : k * chunkDataSize < (after (SendRun.step x loop io) (SendRun.start loop conn) es).state.offset) :
    ∃ es', es' <+: es ∧ (after (SendRun.step x loop io) (SendRun.start loop conn) es').result = none ∧
      (after (SendRun.step x loop io) (SendRun.start loop conn) es').state.offset = k * chunkDataSize ∧
      k * chunkDataSize < io.fileData.length := by
  induction es using List.reverseRecOn with
  | nil =>
    have hzero : (SendRun.start loop conn).state.offset = 0 := by cases loop <;> rfl
    simp only [after, List.foldl_nil, hzero] at h
    omega
  | append_singleton es e ih =>
    obtain ⟨j, hj⟩ := run_past x loop io conn es
    rw [after_snoc] at h
    rcases SendRun.step_offset x loop io (after (SendRun.step x loop io) (SendRun.start loop conn) es) e with
      hsame | ⟨hresult, hlt, hmoved⟩
    · rw [hsame] at h
      obtain ⟨es', hes', hrest⟩ := ih h
      exact ⟨es', hes'.trans (List.prefix_append _ _), hrest⟩
    · by_cases hbefore : k * chunkDataSize < (after (SendRun.step x loop io) (SendRun.start loop conn) es).state.offset
      · obtain ⟨es', hes', hrest⟩ := ih hbefore
        exact ⟨es', hes'.trans (List.prefix_append _ _), hrest⟩
      · obtain ⟨hat, _, hstop⟩ := hj.at_chunk hlt
        have hkj : k = j := by
          rw [hmoved, hstop] at h
          rw [hat] at hbefore
          simp only [chunkDataSize] at h hbefore
          omega
        subst hkj
        exact ⟨es, List.prefix_append _ _, hresult, hat, hat ▸ hlt⟩

theorem run_inWord (conn : NxfrConnection) (hlen : io.fileData.length < 2 ^ 63) {es es' : List SendInput} (hes : es' <+: es)
    (hsum : loop.start.ackedBytes + readLengths x loop io (SendRun.start loop conn) es < 2 ^ 64)
    (hranges : loop.RangesEnd io.fileData) :
    (after (SendRun.step x loop io) (SendRun.start loop conn) es').InWord loop io := by
  obtain ⟨later, rfl⟩ := hes
  refine ⟨?_, ?_⟩
  · rw [readLengths_append] at hsum
    rw [run_acked]
    simp only [SendRun.start] at hsum ⊢
    omega
  · intro _ hlt
    obtain ⟨k, hk⟩ := run_past x loop io conn es'
    rw [hk.turnSums_iff (run_windowed x loop io conn es') hlen hlt]
    obtain ⟨_, hcount, _⟩ := hk.at_chunk hlt
    cases loop with
    | sendFile => trivial
    | doSendFile sent => trivial
    | sendFileResume skipRanges => exact hranges k hcount

theorem run_ranges (conn : NxfrConnection) (hlen : io.fileData.length < 2 ^ 63) {es : List SendInput}
    (hok : (after (SendRun.step x loop io) (SendRun.start loop conn) es).result = some (.ok ()))
    (h : ∀ es', es' <+: es → (after (SendRun.step x loop io) (SendRun.start loop conn) es').InWord loop io) :
    loop.RangesEnd io.fileData := by
  cases loop with
  | sendFile => trivial
  | doSendFile sent => trivial
  | sendFileResume skipRanges =>
    intro k hk
    obtain ⟨j, hj⟩ := run_past x (.sendFileResume skipRanges) io conn es
    have hat := hj.offset
    have hend := hj.ended hok
    have hoffset := lt_chunkCount_iff.mp hk
    subst hend
    obtain ⟨es', hes', hresult, hreached, hlt⟩ := run_reached (k := k) conn es (by
      rw [hat]
      simp only [chunkCount, chunkDataSize] at hk ⊢
      omega)
    obtain ⟨i, hi⟩ := run_past x (.sendFileResume skipRanges) io conn es'
    have hlt' := hreached.symm ▸ hlt
    obtain ⟨hik, _, _⟩ := hi.at_chunk hlt'
    have heq : i = k := by
      rw [hreached] at hik
      simp only [chunkDataSize] at hik
      omega
    subst heq
    exact (hi.turnSums_iff (run_windowed x _ io conn es') hlen hlt').mp ((h es' hes').turn hresult hlt')

theorem FileTurn.run_acked (t : FileTurn) (sent : Nat) (es : List SendInput) : (t.run x sent es).state.ackedBytes =
    sent + readLengths x (.doSendFile sent) t.io (SendRun.start (.doSendFile sent) t.conn) es :=
  Nxfr.run_acked _ es

theorem cumulativeSent_eq (files : List FileTurn) : cumulativeSent x files = filesRead x files := by
  simp only [cumulativeSent, filesRead, FileTurn.run_acked]

theorem filesRead_snoc (files : List FileTurn) (t : FileTurn) : filesRead x (files ++ [t]) =
    filesRead x files + readLengths x (.doSendFile (filesRead x files)) t.io
      (SendRun.start (.doSendFile (filesRead x files)) t.conn) t.es := by
  rw [filesRead, List.foldl_append]
  rfl

theorem filesRead_le (files later : List FileTurn) : filesRead x files ≤ filesRead x (files ++ later) := by
  induction later using List.reverseRecOn with
  | nil => rw [List.append_nil]
  | append_singleton later t ih =>
    rw [← List.append_assoc, filesRead_snoc]
    omega

/-- The sums of `do_send_file` over its files. -/
theorem files_inWord_iff {files : List FileTurn} (hfiles : ∀ t ∈ files, t.io.fileData.length < 2 ^ 63) :
    (∀ before t later, files = before ++ t :: later → ∀ es', es' <+: t.es →
        (t.run x (cumulativeSent x before) es').InWord (.doSendFile (cumulativeSent x before)) t.io) ↔
      filesRead x files < 2 ^ 64 := by
  constructor
  · intro h
    induction files using List.reverseRecOn with
    | nil => exact Nat.two_pow_pos 64
    | append_singleton files t _ =>
      have hlast := (h files t [] rfl t.es (List.prefix_refl _)).acked
      rw [FileTurn.run_acked, cumulativeSent_eq] at hlast
      rw [filesRead_snoc]
      exact hlast
  · rintro h before t later rfl es' hes'
    refine run_inWord t.conn (hfiles t (by simp)) hes' ?_ trivial
    have hle := filesRead_le (x := x) (before ++ [t]) later
    rw [List.append_assoc, List.singleton_append, filesRead_snoc, ← cumulativeSent_eq] at hle
    simp only [ChunkLoop.start]
    omega

/-- **The sums of the senders.** No sum of a loop is more than 64 bits hold when
the lengths it starts from and those in the CHUNK_ACKs it reads are together
below 2^64 and for each chunk the first range that holds it ends below 2^64;
and a loop that returned `Ok` has made one that is not, otherwise. Over the
files of `do_send_file` it is the lengths in all the CHUNK_ACKs read. -/
theorem sums_in_word (x : Ext) (loop : ChunkLoop) (io : Stream) (conn : NxfrConnection) (hlen : io.fileData.length < 2 ^ 63)
    (es : List SendInput) (files : List FileTurn) (hfiles : ∀ t ∈ files, t.io.fileData.length < 2 ^ 63) :
    (loop.start.ackedBytes + readLengths x loop io (SendRun.start loop conn) es < 2 ^ 64 ∧ loop.RangesEnd io.fileData →
        ∀ es', es' <+: es → (after (SendRun.step x loop io) (SendRun.start loop conn) es').InWord loop io) ∧
      ((after (SendRun.step x loop io) (SendRun.start loop conn) es).result = some (.ok ()) →
        (∀ es', es' <+: es → (after (SendRun.step x loop io) (SendRun.start loop conn) es').InWord loop io) →
          loop.start.ackedBytes + readLengths x loop io (SendRun.start loop conn) es < 2 ^ 64 ∧
            loop.RangesEnd io.fileData) ∧
      ((∀ before t later, files = before ++ t :: later → ∀ es', es' <+: t.es →
          (t.run x (cumulativeSent x before) es').InWord (.doSendFile (cumulativeSent x before)) t.io) ↔
        filesRead x files < 2 ^ 64) := by
  refine ⟨?_, ?_, files_inWord_iff hfiles⟩
  · intro h es' hes'
    exact run_inWord conn hlen hes' h.1 h.2
  · intro hok h
    refine ⟨?_, run_ranges conn hlen hok h⟩
    have hacked := (h es (List.prefix_refl es)).acked
    rw [run_acked] at hacked
    exact hacked

/-- A file of one byte, with ranges that fit; and the same file twice from a
phone. -/
theorem sums_in_word_byte :
    (∀ es', es' <+: sampleSending →
        (after (SendRun.step sampleExt (.sendFileResume [(0, 0), (5, 2)]) ⟨1, 1, [0x61]⟩)
          (SendRun.start (.sendFileResume [(0, 0), (5, 2)]) (.new none)) es').InWord
            (.sendFileResume [(0, 0), (5, 2)]) ⟨1, 1, [0x61]⟩) ∧
      filesRead sampleExt (List.replicate 2 ⟨⟨1, 1, [0x61]⟩, .new none, sampleSending⟩) < 2 ^ 64 :=
  have h := sums_in_word sampleExt (.sendFileResume [(0, 0), (5, 2)]) ⟨1, 1, [0x61]⟩ (.new none) (by decide) sampleSending
    (List.replicate 2 ⟨⟨1, 1, [0x61]⟩, .new none, sampleSending⟩) (by decide)
  ⟨h.1 ⟨by decide, fun k hk r hr => by
    have hzero : k = 0 := by
      have := lt_chunkCount_iff.mp hk
      simp only [chunkDataSize, List.length_singleton] at this
      omega
    subst hzero
    have hnone : firstHolding [(0, 0), (5, 2)] (0 * chunkDataSize) (chunkBytes [0x61] 0).length = none := by decide
    exact absurd (hnone.symm.trans hr) (by simp)⟩, by decide⟩

/-- A file whose only CHUNK_ACK is for half of what a word counts. -/
def halfWord : FileTurn :=
  ⟨⟨1, 1, [0x61]⟩, .new none, [.go, .frame (controlFrame 2 (.chunkAck 1 1 0 (2 ^ 63))), .go]⟩

/-- What a peer sends overflows each of the sums: the lengths of two ranges, the
lengths of a range and of a CHUNK_ACK, and those of the CHUNK_ACKs for two
files. -/
theorem sums_overflow :
    ¬ (SendRun.start (.sendFileResume [(0, 2 ^ 63), (0, 2 ^ 63)]) (.new none)).InWord
        (.sendFileResume [(0, 2 ^ 63), (0, 2 ^ 63)]) ⟨1, 1, [0x61]⟩ ∧
      ¬ (after (SendRun.step sampleExt (.sendFileResume [(5, 1)]) ⟨1, 1, [0x61]⟩)
          (SendRun.start (.sendFileResume [(5, 1)]) (.new none))
          [.go, .frame (controlFrame 2 (.chunkAck 1 1 0 (2 ^ 64 - 1)))]).InWord (.sendFileResume [(5, 1)]) ⟨1, 1, [0x61]⟩ ∧
      ¬ (halfWord.run sampleExt (cumulativeSent sampleExt [halfWord]) halfWord.es).InWord
          (.doSendFile (cumulativeSent sampleExt [halfWord])) halfWord.io :=
  ⟨fun h => absurd h.acked (by decide), fun h => absurd h.acked (by decide), fun h => absurd h.acked (by decide)⟩

end Nxfr

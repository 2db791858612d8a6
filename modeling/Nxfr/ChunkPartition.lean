/-
What a chunk loop has sent when it returns `Ok`: the chunks of the file, those
it leaves out apart, each once and in order, in frames the peer's parsers take
(`ChunkPayload`, `nxfr-core/src/chunk.rs`; `FrameHeader`, `frame.rs`).
-/
import Nxfr.DaemonPair
import Nxfr.FramingFacts
import Nxfr.SendLoop

namespace Nxfr

open History

structure ChunkPayload where
  offset : Nat
  chunkHash : Bytes
  data : Bytes
  deriving DecidableEq

/-- `ChunkPayload::parse`. -/
def ChunkPayload.parse (payload : Bytes) : Except FrameError ChunkPayload :=
  if payload.length < 41 then .error (.chunkPayloadTooSmall (UInt32.ofNat payload.length))
  else .ok ⟨fromBeBytes (payload.take 8), (payload.drop 8).take 32, payload.drop 40⟩

/-- The bytes of the `k`th chunk. -/
def chunkBytes (data : Bytes) (k : Nat) : Bytes :=
  slice data (k * chunkDataSize) (chunkStop data (k * chunkDataSize))

/-- The `k`th chunk as it is read back. -/
def chunkAt (x : Ext) (data : Bytes) (k : Nat) : ChunkPayload :=
  ⟨k * chunkDataSize, (x.sha256 (chunkBytes data k)).bytes, chunkBytes data k⟩

/-- A loop does not leave the `k`th chunk out. -/
def ChunkLoop.keeps (loop : ChunkLoop) (data : Bytes) (k : Nat) : Bool :=
  !loop.skips (k * chunkDataSize) (chunkStop data (k * chunkDataSize) - k * chunkDataSize)

variable {x : Ext} {loop : ChunkLoop} {io : Stream} {data : Bytes}

theorem ChunkPayload.parse_chunkPayload {offset : Nat} (hoffset : offset < 2 ^ 64) (hdata : data ≠ []) :
    ChunkPayload.parse (chunkPayload x offset data) = .ok ⟨offset, (x.sha256 data).bytes, data⟩ := by
  have hlen := List.length_pos_iff.mpr hdata
  rw [ChunkPayload.parse, if_neg (by rw [chunkPayload_length]; omega), chunkPayload_offset, chunkPayload_hash,
    chunkPayload_data, fromBeBytes_toBeBytes hoffset]

theorem chunkBytes_length (k : Nat) (h : k < chunkCount data) :
    (chunkBytes data k).length = chunkStop data (k * chunkDataSize) - k * chunkDataSize ∧
      0 < (chunkBytes data k).length ∧ (chunkBytes data k).length ≤ chunkDataSize := by
  rw [lt_chunkCount_iff] at h
  have hstop := chunkStop_bounds h
  have hlen : (chunkBytes data k).length = chunkStop data (k * chunkDataSize) - k * chunkDataSize :=
    slice_length (by omega) hstop.2
  refine ⟨hlen, by omega, ?_⟩
  rw [hlen]
  simp only [chunkStop]
  omega

theorem chunkBytes_flatten (k : Nat) (h : k ≤ chunkCount data) :
    ((List.range k).map (chunkBytes data)).flatten = data.take (k * chunkDataSize) := by
  induction k with
  | zero => simp
  | succ k ih =>
    have hk : k < chunkCount data := h
    rw [lt_chunkCount_iff] at hk
    rw [List.range_succ, List.map_append, List.flatten_append, ih (by omega)]
    simp only [List.map_cons, List.map_nil, List.flatten_cons, List.flatten_nil, List.append_nil, chunkBytes]
    rw [take_append_slice (by have := chunkStop_bounds hk; omega)]
    have hsucc : (k + 1) * chunkDataSize = k * chunkDataSize + chunkDataSize := by rw [Nat.succ_mul]
    rw [hsucc, chunkStop, List.take_eq_take_iff]
    omega

/-! ## Runs -/

/-- The chunks a loop keeps among the first `k`, with the flag of the last. -/
def keptChunks (x : Ext) (loop : ChunkLoop) (data : Bytes) (k : Nat) : List (UInt16 × Bytes) :=
  ((List.range k).filter (loop.keeps data)).map fun j =>
    (UInt16.ofNat (if chunkStop data (j * chunkDataSize) = data.length then 1 else 0),
      chunkPayload x (j * chunkDataSize) (chunkBytes data j))

/-- A run has gone past `k` chunks. -/
structure SendRun.Past (x : Ext) (loop : ChunkLoop) (io : Stream) (r : SendRun) (k : Nat) : Prop where
  offset : r.state.offset = min (k * chunkDataSize) io.fileData.length
  count : k ≤ chunkCount io.fileData
  chunks : r.chunks.map (fun f => (f.1.flags, f.2)) = keptChunks x loop io.fileData k
  headers : ∀ f ∈ r.chunks, f.1.kind = .chunk ∧ f.1.payloadLen = UInt32.ofNat f.2.length
  ended : r.result = some (.ok ()) → k = chunkCount io.fileData

theorem keptChunks_succ (k : Nat) : keptChunks x loop data (k + 1) = keptChunks x loop data k ++
    if loop.keeps data k then
      [(UInt16.ofNat (if chunkStop data (k * chunkDataSize) = data.length then 1 else 0),
        chunkPayload x (k * chunkDataSize) (chunkBytes data k))]
    else [] := by
  rw [keptChunks, List.range_succ, List.filter_append, List.map_append]
  cases h : loop.keeps data k <;> simp [keptChunks, h]

/-- A run that is not at the end is at the start of a chunk. -/
theorem SendRun.Past.at_chunk {r : SendRun} {k : Nat} (h : r.Past x loop io k) (hlt : r.state.offset < io.fileData.length) :
    r.state.offset = k * chunkDataSize ∧ k < chunkCount io.fileData ∧
      chunkStop io.fileData r.state.offset = min ((k + 1) * chunkDataSize) io.fileData.length := by
  have hoffset := h.offset
  have hat : r.state.offset = k * chunkDataSize := by omega
  refine ⟨hat, ?_, ?_⟩
  · rw [lt_chunkCount_iff]
    omega
  · rw [chunkStop, hat, Nat.succ_mul]

theorem SendRun.Past.at_end {r : SendRun} {k : Nat} (h : r.Past x loop io k) (hend : io.fileData.length ≤ r.state.offset) :
    k = chunkCount io.fileData := by
  have hoffset := h.offset
  have hcount := h.count
  by_contra hne
  have hlt : k < chunkCount io.fileData := by omega
  rw [lt_chunkCount_iff] at hlt
  omega

theorem SendRun.Steps.past {r r' : SendRun} {e : SendInput} (h : Steps x loop io r e r') {k : Nat}
    (hr : r.Past x loop io k) (hrun : r.result = none) : ∃ k', r'.Past x loop io k' := by
  cases h with
  | idle => exact ⟨k, hr⟩
  | skipped hlt hskip stop hstop =>
    obtain ⟨hat, hk, hnext⟩ := hr.at_chunk hlt
    refine ⟨k + 1, hstop.trans hnext, hk, ?_, hr.headers, fun hok => absurd (hrun.symm.trans hok) (by simp)⟩
    have hkeeps : loop.keeps io.fileData k = false := by rw [ChunkLoop.keeps, ← hat, hskip, Bool.not_true]
    rw [keptChunks_succ, hkeeps]
    simpa [SendRun.chunks] using hr.chunks
  | sent hresult hlt hflight hskip header hheader conn hconn stop hstop =>
    obtain ⟨hat, hk, hnext⟩ := hr.at_chunk hlt
    refine ⟨k + 1, hstop.trans hnext, hk, ?_, ?_, fun hok => absurd (hrun.symm.trans hok) (by simp)⟩
    · have hkeeps : loop.keeps io.fileData k = true := by rw [ChunkLoop.keeps, ← hat, hskip, Bool.not_false]
      have hchunks := hr.chunks
      simp only [SendRun.chunks] at hchunks ⊢
      rw [keptChunks_succ, hkeeps, hconn, List.map_append, hchunks, hheader, hat]
      rfl
    · intro f hf
      simp only [SendRun.chunks, hconn, List.mem_append, List.mem_singleton] at hf
      rcases hf with hf | rfl
      · exact hr.headers f hf
      · rw [hheader]
        exact ⟨rfl, rfl⟩
  | acked f hresult hmove hwait hflight hack length hlength =>
    exact ⟨k, hr.offset, hr.count, hr.chunks, hr.headers, hr.ended⟩
  | passed => exact ⟨k, hr⟩
  | failed e conn hconn error =>
    refine ⟨k, hr.offset, hr.count, ?_, ?_, fun hok => by cases hok⟩
    · simpa only [SendRun.chunks, hconn] using hr.chunks
    · simpa only [SendRun.chunks, hconn] using hr.headers
  | finished hresult hend hflight =>
    exact ⟨k, hr.offset, hr.count, hr.chunks, hr.headers, fun _ => hr.at_end hend⟩

theorem run_past (x : Ext) (loop : ChunkLoop) (io : Stream) (conn : NxfrConnection) (es : List SendInput) :
    ∃ k, (after (SendRun.step x loop io) (SendRun.start loop conn) es).Past x loop io k := by
  induction es using List.reverseRecOn with
  | nil =>
    refine ⟨0, ?_, Nat.zero_le _, rfl, ?_, fun h => by cases h⟩
    · cases loop <;> simp [after, SendRun.start, ChunkLoop.start, resumeStart]
    · intro f hf
      cases hf
  | append_singleton es e ih =>
    obtain ⟨k, hk⟩ := ih
    rw [after_snoc]
    generalize after (SendRun.step x loop io) (SendRun.start loop conn) es = r at *
    cases hresult : r.result with
    | none => exact (SendRun.step_spec x loop io r e).past hk hresult
    | some result =>
      refine ⟨k, ?_⟩
      rw [SendRun.step_ended hresult]
      exact hk

/-- What a run that ended well has sent. -/
theorem run_sent (conn : NxfrConnection) {es : List SendInput}
    (hok : (after (SendRun.step x loop io) (SendRun.start loop conn) es).result = some (.ok ())) :
    (after (SendRun.step x loop io) (SendRun.start loop conn) es).chunks.map (fun f => (f.1.flags, f.2)) =
        keptChunks x loop io.fileData (chunkCount io.fileData) ∧
      ∀ f ∈ (after (SendRun.step x loop io) (SendRun.start loop conn) es).chunks,
        f.1.kind = .chunk ∧ f.1.payloadLen = UInt32.ofNat f.2.length := by
  obtain ⟨k, hk⟩ := run_past x loop io conn es
  have hcount := hk.ended hok
  subst hcount
  exact ⟨hk.chunks, hk.headers⟩

/-! ## The whole file -/

/-- The frames are a file: their chunks are read back with contiguous offsets,
some data of at most 1 MiB and its hash, and make up the file; the flag is on
the last; and their headers are taken. -/
structure Partitioned (x : Ext) (data : Bytes) (frames : List NxfrFrame) : Prop where
  headers : ∀ f ∈ frames, f.1.kind = .chunk ∧ f.1.payloadLen.toNat = f.2.length ∧
    FrameHeader.parse f.1.serialize = .ok f.1
  parsed : ∃ chunks : List ChunkPayload, frames.map (fun f => ChunkPayload.parse f.2) = chunks.map .ok ∧
    (chunks.map (·.data)).flatten = data ∧
    ∀ before c later, chunks = before ++ c :: later →
      c.offset = (before.map (·.data)).flatten.length ∧ c.data ≠ [] ∧ c.data.length ≤ 1048576 ∧
        c.chunkHash = (x.sha256 c.data).bytes
  last : ∀ before f later, frames = before ++ f :: later → f.1.flags = if later = [] then 1 else 0

theorem FrameHeader.parse_chunk {h : FrameHeader} (hkind : h.kind = .chunk) (hmin : 41 ≤ h.payloadLen.toNat)
    (hmax : h.payloadLen.toNat ≤ 4194304) : FrameHeader.parse h.serialize = .ok h := by
  refine FrameHeader.parse_serialize (FrameHeader.validatePayloadLen_ok_iff.mpr ?_)
  simp only [FrameHeader.LenAllowed, hkind]
  exact ⟨hmin, hmax⟩

/-- The headers of chunk frames are taken. -/
theorem chunk_headers {frames : List NxfrFrame} {k : Nat} (hk : k ≤ chunkCount data)
    (hchunks : frames.map (fun f => (f.1.flags, f.2)) = keptChunks x loop data k)
    (hheaders : ∀ f ∈ frames, f.1.kind = .chunk ∧ f.1.payloadLen = UInt32.ofNat f.2.length) :
    ∀ f ∈ frames, f.1.kind = .chunk ∧ f.1.payloadLen.toNat = f.2.length ∧ FrameHeader.parse f.1.serialize = .ok f.1 := by
  intro f hf
  obtain ⟨hkind, hlen⟩ := hheaders f hf
  have hmem : (f.1.flags, f.2) ∈ keptChunks x loop data k := hchunks ▸ List.mem_map_of_mem hf
  simp only [keptChunks, List.mem_map, List.mem_filter, List.mem_range, Prod.mk.injEq] at hmem
  obtain ⟨j, ⟨hj, _⟩, _, hpayload⟩ := hmem
  obtain ⟨_, hpos, hmax⟩ := chunkBytes_length j (show j < chunkCount data by omega)
  have hsize : f.2.length = 40 + (chunkBytes data j).length := by rw [← hpayload, chunkPayload_length]
  have hnat : f.1.payloadLen.toNat = f.2.length := by
    rw [hlen, UInt32.toNat_ofNat']
    simp only [chunkDataSize] at hmax
    exact Nat.mod_eq_of_lt (by omega)
  refine ⟨hkind, hnat, FrameHeader.parse_chunk hkind (by omega) ?_⟩
  simp only [chunkDataSize] at hmax
  omega

/-- The chunks are read back as they are in the file. -/
theorem chunks_parsed {frames : List NxfrFrame} (hdata : data.length < 2 ^ 64) {k : Nat} (hk : k ≤ chunkCount data)
    (hchunks : frames.map (fun f => (f.1.flags, f.2)) = keptChunks x loop data k) :
    frames.map (fun f => ChunkPayload.parse f.2) =
      ((List.range k).filter (loop.keeps data)).map fun j => .ok (chunkAt x data j) := by
  have hmap : frames.map (fun f => ChunkPayload.parse f.2) =
      (frames.map (fun f => (f.1.flags, f.2))).map (fun p => ChunkPayload.parse p.2) := by
    rw [List.map_map]
    rfl
  rw [hmap, hchunks, keptChunks, List.map_map]
  refine List.map_congr_left ?_
  intro j hj
  have hj : j < chunkCount data := by
    have := List.mem_range.mp (List.mem_filter.mp hj).1
    omega
  have hoffset := lt_chunkCount_iff.mp hj
  obtain ⟨_, hpos, _⟩ := chunkBytes_length j hj
  exact ChunkPayload.parse_chunkPayload (by omega) (List.length_pos_iff.mp hpos)

theorem range_map_split {α : Type} {g : Nat → α} {n : Nat} {before later : List α} {c : α}
    (h : (List.range n).map g = before ++ c :: later) :
    before.length < n ∧ before = (List.range before.length).map g ∧ c = g before.length ∧
      (later = [] ↔ before.length + 1 = n) := by
  have hlen : n = before.length + (later.length + 1) := by
    have := congrArg List.length h
    simpa using this
  have hlt : before.length < n := by omega
  refine ⟨hlt, ?_, ?_, ?_⟩
  · have htake := congrArg (List.take before.length) h
    rw [List.take_left, ← List.map_take, List.take_range, Nat.min_eq_left (by omega)] at htake
    exact htake.symm
  · have hget := congrArg (·[before.length]?) h
    simp only [List.getElem?_map, List.getElem?_range hlt, Option.map_some, List.getElem?_append_right (Nat.le_refl _),
      Nat.sub_self, List.getElem?_cons_zero, Option.some.injEq] at hget
    exact hget.symm
  · rw [← List.length_eq_zero_iff]
    omega

theorem chunkStop_last {k : Nat} (h : k < chunkCount data) :
    chunkStop data (k * chunkDataSize) = data.length ↔ k + 1 = chunkCount data := by
  rw [lt_chunkCount_iff] at h
  simp only [chunkStop, chunkCount, chunkDataSize] at *
  omega

/-- **A whole file as chunks.** Whatever frames come, when `send_file` has
returned `Ok` the frames it has sent are the file. -/
theorem sent_partitioned (x : Ext) (io : Stream) (conn : NxfrConnection) (hlen : io.fileData.length < 2 ^ 63)
    {es : List SendInput}
    (hok : (after (SendRun.step x .sendFile io) (SendRun.start .sendFile conn) es).result = some (.ok ())) :
    Partitioned x io.fileData (after (SendRun.step x .sendFile io) (SendRun.start .sendFile conn) es).chunks := by
  obtain ⟨hchunks, hheaders⟩ := run_sent conn hok
  generalize (after (SendRun.step x .sendFile io) (SendRun.start .sendFile conn) es).chunks = frames at *
  have hall : (List.range (chunkCount io.fileData)).filter (ChunkLoop.sendFile.keeps io.fileData) =
      List.range (chunkCount io.fileData) := List.filter_eq_self.mpr fun k _ => rfl
  refine ⟨chunk_headers (Nat.le_refl _) hchunks hheaders, ?_, ?_⟩
  · refine ⟨(List.range (chunkCount io.fileData)).map (chunkAt x io.fileData), ?_, ?_, ?_⟩
    · rw [chunks_parsed (by omega) (Nat.le_refl _) hchunks, hall, List.map_map]
      rfl
    · rw [List.map_map]
      refine (chunkBytes_flatten _ (Nat.le_refl _)).trans (List.take_of_length_le ?_)
      simp only [chunkCount, chunkDataSize]
      omega
    · intro before c later hsplit
      obtain ⟨hlt, hbefore, hc, _⟩ := range_map_split hsplit
      obtain ⟨_, hpos, hmax⟩ := chunkBytes_length before.length hlt
      have hoffset := lt_chunkCount_iff.mp hlt
      refine ⟨?_, ?_, ?_, ?_⟩
      · have hbytes : before.map (·.data) = (List.range before.length).map (chunkBytes io.fileData) := by
          rw [hbefore, List.length_map, List.length_range, List.map_map]
          rfl
        rw [hbytes, chunkBytes_flatten _ (by omega), List.length_take, hc]
        simp only [chunkAt]
        omega
      · rw [hc]
        exact List.length_pos_iff.mp hpos
      · rw [hc]
        exact hmax
      · rw [hc]
        rfl
  · intro before f later hsplit
    have hflags := hchunks
    rw [keptChunks, hall, hsplit, List.map_append, List.map_cons] at hflags
    obtain ⟨hlt, _, hf, hlast⟩ := range_map_split hflags.symm
    simp only [List.length_map, Prod.mk.injEq, List.map_eq_nil_iff] at hlt hf hlast
    rw [hf.1]
    by_cases hlater : later = []
    · rw [if_pos hlater, if_pos ((chunkStop_last hlt).mpr (hlast.mp hlater))]
      rfl
    · rw [if_neg hlater, if_neg (fun h => hlater (hlast.mpr ((chunkStop_last hlt).mp h)))]
      rfl

/-- A chunk goes out, a keepalive comes in the drain wait, and the CHUNK_ACK. -/
def sampleSending : List SendInput :=
  [.go, .frame ⟨.keepalive, 0, 0, 1, [], .error .notAMap⟩, .frame (controlFrame 2 (.chunkAck 1 1 0 1)), .go]

/-- A file of one byte as it is sent. -/
theorem sent_partitioned_byte :
    (after (SendRun.step sampleExt .sendFile ⟨1, 1, [0x61]⟩) (SendRun.start .sendFile (.new none)) sampleSending).result
        = some (.ok ()) ∧
      Partitioned sampleExt [0x61]
        (after (SendRun.step sampleExt .sendFile ⟨1, 1, [0x61]⟩) (SendRun.start .sendFile (.new none)) sampleSending).chunks :=
  ⟨rfl, sent_partitioned sampleExt ⟨1, 1, [0x61]⟩ (.new none) (by decide) rfl⟩

/-! ## What a resume leaves out -/

/-- The `k`th chunk of a file lies wholly inside a single one of the ranges. -/
def insideOne (skipRanges : List (Nat × Nat)) (data : Bytes) (k : Nat) : Bool :=
  covered skipRanges (k * chunkDataSize) (chunkBytes data k).length

/-- What was read back as a chunk has the byte at position `p` of the file. -/
def hasByte (p : Nat) : Except FrameError ChunkPayload → Bool
  | .ok c => decide (c.offset ≤ p ∧ p < c.offset + c.data.length)
  | .error _ => false

/-- The frame's chunk has the byte at position `p` of the file. -/
def carries (p : Nat) (f : NxfrFrame) : Bool := hasByte p (ChunkPayload.parse f.2)

/-- The frames are the chunks of a file that lie in no range, each once and in
order, with the file's bytes; and the bytes outside the ranges are sent once. -/
structure Resumed (x : Ext) (skipRanges : List (Nat × Nat)) (data : Bytes) (frames : List NxfrFrame) : Prop where
  chunks : frames.map (fun f => ChunkPayload.parse f.2) =
    ((List.range (chunkCount data)).filter fun k => !insideOne skipRanges data k).map fun k => .ok (chunkAt x data k)
  true : ∀ f ∈ frames, ∀ c, ChunkPayload.parse f.2 = .ok c → ∀ i < c.data.length, c.data[i]? = data[c.offset + i]?
  once : ∀ p < data.length, (∀ r ∈ skipRanges, ¬ (r.1 ≤ p ∧ p < r.1 + r.2)) → frames.countP (carries p) = 1

theorem coveredWord_eq {skipRanges : List (Nat × Nat)} (hranges : ∀ r ∈ skipRanges, r.1 + r.2 < 2 ^ 64) {offset len : Nat}
    (h : offset + len < 2 ^ 64) : coveredWord skipRanges offset len = covered skipRanges offset len := by
  unfold coveredWord covered
  induction skipRanges with
  | nil => rfl
  | cons r ranges ih =>
    have hr := hranges r List.mem_cons_self
    rw [List.any_cons, List.any_cons, ih fun r hr => hranges r (List.mem_cons_of_mem _ hr), Nat.mod_eq_of_lt h,
      Nat.mod_eq_of_lt hr]

/-- The chunk that has a byte. -/
theorem mem_chunk_iff {k p : Nat} (hk : k < chunkCount data) (hp : p < data.length) :
    (k * chunkDataSize ≤ p ∧ p < k * chunkDataSize + (chunkBytes data k).length) ↔ k = p / chunkDataSize := by
  obtain ⟨hlen, _, _⟩ := chunkBytes_length k hk
  rw [hlen]
  simp only [chunkStop, chunkDataSize]
  omega

theorem chunkBytes_getElem? {k i : Nat} (hi : i < (chunkBytes data k).length) :
    (chunkBytes data k)[i]? = data[k * chunkDataSize + i]? := by
  simp only [chunkBytes, slice, List.length_take] at hi ⊢
  rw [List.getElem?_take_of_lt (by omega), List.getElem?_drop]

/-- A byte outside the ranges is in a chunk that lies in none. -/
theorem not_insideOne {skipRanges : List (Nat × Nat)} {p : Nat} (hp : p < data.length)
    (hout : ∀ r ∈ skipRanges, ¬ (r.1 ≤ p ∧ p < r.1 + r.2)) : insideOne skipRanges data (p / chunkDataSize) = false := by
  have hk : p / chunkDataSize < chunkCount data := by
    rw [lt_chunkCount_iff]
    simp only [chunkDataSize]
    omega
  have hin := (mem_chunk_iff hk hp).mpr rfl
  rw [insideOne, covered, List.any_eq_false]
  intro r hr hcov
  simp only [Bool.and_eq_true, decide_eq_true_eq, ge_iff_le] at hcov
  exact hout r hr (by omega)

theorem hasByte_ok {p : Nat} {c : ChunkPayload} :
    hasByte p (.ok c) = true ↔ c.offset ≤ p ∧ p < c.offset + c.data.length :=
  decide_eq_true_iff

/-- Of the chunks in no range, the one that has a byte outside the ranges. -/
theorem hasByte_chunkAt {skipRanges : List (Nat × Nat)} {p : Nat} (hp : p < data.length)
    (hout : ∀ r ∈ skipRanges, ¬ (r.1 ≤ p ∧ p < r.1 + r.2)) (k : Nat) (hk : k ∈ List.range (chunkCount data)) :
    ((hasByte p ∘ fun k => .ok (chunkAt x data k)) k && !insideOne skipRanges data k) = true ↔
      (k == p / chunkDataSize) = true := by
  have hmem : hasByte p (.ok (chunkAt x data k)) = true ↔ k = p / chunkDataSize :=
    hasByte_ok.trans (mem_chunk_iff (List.mem_range.mp hk) hp)
  have hkept := not_insideOne hp hout
  rw [Function.comp_apply, Bool.and_eq_true, hmem, Bool.not_eq_true', beq_iff_eq]
  constructor
  · intro h
    exact h.1
  · intro h
    rw [h]
    exact ⟨rfl, hkept⟩

/-- **A resume sends what is missing.** Whatever frames come, when
`send_file_resume` has returned `Ok`, the ends of the ranges being below 2^64,
it has sent the chunks that lie in no range, each once and in order, and so
every byte outside the ranges once. -/
theorem resumed_exactly (x : Ext) (io : Stream) (conn : NxfrConnection) (hlen : io.fileData.length < 2 ^ 63)
    {skipRanges : List (Nat × Nat)} (hranges : ∀ r ∈ skipRanges, r.1 + r.2 < 2 ^ 64) {es : List SendInput}
    (hok : (after (SendRun.step x (.sendFileResume skipRanges) io) (SendRun.start (.sendFileResume skipRanges) conn) es).result
      = some (.ok ())) :
    Resumed x skipRanges io.fileData
      (after (SendRun.step x (.sendFileResume skipRanges) io) (SendRun.start (.sendFileResume skipRanges) conn) es).chunks := by
  obtain ⟨hchunks, _⟩ := run_sent conn hok
  generalize (after (SendRun.step x (.sendFileResume skipRanges) io)
    (SendRun.start (.sendFileResume skipRanges) conn) es).chunks = frames at *
  have hkeeps : (List.range (chunkCount io.fileData)).filter ((ChunkLoop.sendFileResume skipRanges).keeps io.fileData) =
      (List.range (chunkCount io.fileData)).filter fun k => !insideOne skipRanges io.fileData k := by
    refine List.filter_congr ?_
    intro k hk
    rw [List.mem_range] at hk
    obtain ⟨hbytes, _, _⟩ := chunkBytes_length k hk
    have hoffset := lt_chunkCount_iff.mp hk
    have hstop := chunkStop_bounds hoffset
    rw [ChunkLoop.keeps, insideOne, hbytes]
    exact congrArg Bool.not (coveredWord_eq hranges (by omega))
  have hparsed := chunks_parsed (by omega) (Nat.le_refl _) hchunks
  rw [hkeeps] at hparsed
  refine ⟨hparsed, ?_, ?_⟩
  · intro f hf c hc i hi
    have hmem : ChunkPayload.parse f.2 ∈ frames.map (fun f => ChunkPayload.parse f.2) := List.mem_map_of_mem hf
    rw [hparsed, hc, List.mem_map] at hmem
    obtain ⟨k, _, hk⟩ := hmem
    cases hk
    exact chunkBytes_getElem? hi
  · intro p hp hout
    have hcount : frames.countP (carries p) =
        (frames.map (fun f => ChunkPayload.parse f.2)).countP (hasByte p) := by
      rw [List.countP_map]
      rfl
    rw [hcount, hparsed, List.countP_map, List.countP_filter, List.countP_congr (hasByte_chunkAt hp hout)]
    refine List.count_eq_one_of_mem List.nodup_range ?_
    rw [List.mem_range, lt_chunkCount_iff]
    simp only [chunkDataSize]
    omega

/-- A file of one byte that the ranges leave to be sent: one is empty, one lies
behind the end. -/
theorem resumed_exactly_byte :
    (after (SendRun.step sampleExt (.sendFileResume [(0, 0), (5, 2)]) ⟨1, 1, [0x61]⟩)
        (SendRun.start (.sendFileResume [(0, 0), (5, 2)]) (.new none)) sampleSending).result = some (.ok ()) ∧
      Resumed sampleExt [(0, 0), (5, 2)] [0x61]
        (after (SendRun.step sampleExt (.sendFileResume [(0, 0), (5, 2)]) ⟨1, 1, [0x61]⟩)
          (SendRun.start (.sendFileResume [(0, 0), (5, 2)]) (.new none)) sampleSending).chunks :=
  ⟨rfl, resumed_exactly sampleExt ⟨1, 1, [0x61]⟩ (.new none) (by decide) (by decide) rfl⟩

end Nxfr

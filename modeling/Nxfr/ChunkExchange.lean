/-
A chunk loop of either sender against a receiver that takes chunks in order
and acknowledges each (`exchange`).

The lemma picks one schedule: every chunk is read and answered as soon as it
is sent, so nothing is ever under way to the receiver and the answers that
wait for the sender are as many as it counts in flight.
-/
import Nxfr.Network
import Nxfr.WireFacts

namespace Nxfr

open Network

/-- The chunk a frame is. -/
def chunkId? (f : Frame) : Option Nat := if f.kind = .chunk then some f.messageId else none

/-- The chunk a frame acknowledges. -/
def ackedId? (f : Frame) : Option Nat := match f.control with
  | .ok (.chunkAck _ messageId _ _) => some messageId
  | _ => none

/-- The frame that ends a transfer well. -/
def IsSuccess (f : Frame) : Prop := ∃ transferId failed, f.control = .ok (.transferAck transferId .success failed)

/-- Every chunk the right side has read is acknowledged, once and in order,
and `next` is above all of them. -/
structure Answered {σ τ : Type} (n : Net Frame σ τ) (next : Nat) : Prop where
  acks : (n.gotLeft ++ n.toLeft).filterMap ackedId? = n.gotRight.filterMap chunkId?
  once : (n.gotRight.filterMap chunkId?).Nodup
  below : ∀ i ∈ n.gotRight.filterMap chunkId?, i < next

/-- The bytes of a file from `offset` to `stop`. -/
def slice (data : Bytes) (offset stop : Nat) : Bytes := (data.drop offset).take (stop - offset)

theorem slice_length {data : Bytes} {offset stop : Nat} (h : offset ≤ stop) (hs : stop ≤ data.length) :
    (slice data offset stop).length = stop - offset := by
  simp only [slice, List.length_take, List.length_drop]
  omega

theorem take_append_slice {data : Bytes} {offset stop : Nat} (h : offset ≤ stop) :
    data.take offset ++ slice data offset stop = data.take stop := by
  rw [slice, ← List.take_add]
  congr 1
  omega

/-- Where the chunk at `offset` stops. -/
def chunkStop (data : Bytes) (offset : Nat) : Nat := min (offset + chunkDataSize) data.length

theorem chunkStop_bounds {data : Bytes} {offset : Nat} (h : offset < data.length) :
    offset < chunkStop data offset ∧ chunkStop data offset ≤ data.length := by
  simp only [chunkStop, chunkDataSize]
  omega

/-- How many chunks a file has. -/
def chunkCount (data : Bytes) : Nat := (data.length + chunkDataSize - 1) / chunkDataSize

theorem lt_chunkCount_iff {data : Bytes} {k : Nat} : k < chunkCount data ↔ k * chunkDataSize < data.length := by
  unfold chunkCount
  rw [Nat.lt_iff_add_one_le, Nat.le_div_iff_mul_le (by decide), Nat.succ_mul]
  have : 0 < chunkDataSize := by decide
  omega

theorem chunkStop_lt_iff {data : Bytes} {offset : Nat} :
    chunkStop data offset < data.length ↔ offset + chunkDataSize < data.length := by
  unfold chunkStop
  generalize chunkDataSize = size
  omega

theorem chunkStop_eq_add {data : Bytes} {offset : Nat} (h : chunkStop data offset < data.length) :
    chunkStop data offset = offset + chunkDataSize :=
  Nat.min_eq_left (Nat.le_of_lt (chunkStop_lt_iff.mp h))

/-- The chunk of a file at `offset`, as frame `messageId`. -/
def fileChunk (x : Ext) (data : Bytes) (streamId offset messageId : Nat) : Frame :=
  chunkFrame messageId streamId (if chunkStop data offset = data.length then 1 else 0)
    (chunkPayload x offset (slice data offset (chunkStop data offset)))

theorem fileChunk_isLastChunk {x : Ext} {data : Bytes} {streamId offset messageId : Nat} :
    (fileChunk x data streamId offset messageId).isLastChunk = decide (chunkStop data offset = data.length) := by
  by_cases h : chunkStop data offset = data.length <;> simp [fileChunk, chunkFrame, Frame.isLastChunk, h]

section

variable {σ τ : Type}

/-- A party in a chunk loop over `data`: `at_ s c` is the loop with variables
`s`, the next frame being `c`; `done c` is what follows it. -/
structure ChunkSender (x : Ext) (p : σ → Act Frame σ) (skips : Nat → Nat → Bool) (data : Bytes) (streamId : Nat)
    (at_ : SendState → Nat → σ) (done : Nat → σ) : Prop where
  move : ∀ s c, match sendMove x skips data s with
    | .skip s' => p (at_ s c) = .tau (at_ s' c)
    | .send flags payload s' => p (at_ s c) = .send (chunkFrame c streamId flags payload) (at_ s' (c + 1))
    | .wait => ∃ k lost, p (at_ s c) = .recv k lost ∧
        ∀ id stream message offset length,
          k (controlFrame id (.chunkAck stream message offset length)) = at_ (s.acked length) c
    | .done => p (at_ s c) = .tau (done c)

/-- A party that takes the chunks of `data` in order: `Waits m` when it has
the first `m` bytes and waits, `Done` when it has answered the last chunk. -/
structure ChunkReceiver (x : Ext) (q : τ → Act Frame τ) (data : Bytes) (streamId : Nat) (Waits : Nat → τ → Prop)
    (Done : τ → Prop) : Prop where
  take : ∀ {m s}, Waits m s → m < data.length → ∀ c, ∃ k lost id s', q s = .recv k lost ∧
    q (k (fileChunk x data streamId m c)) =
      .send (controlFrame id (.chunkAck streamId c m (chunkStop data m - m))) s' ∧
    if chunkStop data m = data.length then Done s' else Waits (chunkStop data m) s'

variable {x : Ext} {p : σ → Act Frame σ} {q : τ → Act Frame τ} {skips : Nat → Nat → Bool} {data : Bytes}
  {streamId : Nat} {at_ : SendState → Nat → σ} {done : Nat → σ} {Waits : Nat → τ → Prop} {Done : τ → Prop}

/-- The two loops with every chunk sent so far answered: `s.inFlight`
answers wait for the sender, whose next frame is `c`. -/
structure InStep (at_ : SendState → Nat → σ) (n : Net Frame σ τ) (s : SendState) (c : Nat) : Prop where
  left : n.left = at_ s c
  sent : n.toRight = []
  waiting : n.toLeft.length = s.inFlight
  acks : ∀ f ∈ n.toLeft, ∃ id stream message offset length,
    f = controlFrame id (.chunkAck stream message offset length)
  answered : Answered n c
  early : ∀ f ∈ n.gotLeft, ¬ IsSuccess f

theorem InStep.silent {n : Net Frame σ τ} {s : SendState} {c : Nat} (h : InStep at_ n s c) :
    ∀ f ∈ n.gotLeft ++ n.toLeft, ¬ IsSuccess f := by
  intro f hf
  rcases List.mem_append.mp hf with hf | hf
  · exact h.early f hf
  · obtain ⟨id, stream, message, offset, length, rfl⟩ := h.acks f hf
    simp [IsSuccess, controlFrame]

/-- A receiver that is done and has not reported success never will. -/
theorem not_ends_of_halt {P : Net Frame σ τ → Prop} (hP : ∀ n, P n → ∃ f ∈ n.gotLeft, IsSuccess f)
    {n : Net Frame σ τ} {closes : Bool} (hh : q n.right = .halt closes)
    (hsilent : ∀ f ∈ n.gotLeft ++ n.toLeft, ¬ IsSuccess f) : ¬ Ends p q P n := by
  intro hends
  obtain ⟨t, ht, _, hPt⟩ := hends.stuck .refl
  obtain ⟨f, hf, hs⟩ := hP t hPt
  have hkeep := ht.right_silent hh
  exact hsilent f (hkeep ▸ List.mem_append_left _ hf) hs

/-- One chunk goes over and its answer comes back. -/
theorem InStep.answer {n : Net Frame σ τ} {s s' : SendState} {c stream flags : Nat} {payload : Bytes}
    (h : InStep at_ n s c) (hp : p (at_ s c) = .send (chunkFrame c stream flags payload) (at_ s' (c + 1)))
    (hs' : s'.inFlight = s.inFlight + 1) {k : Frame → τ} {lost r : τ} {id stream' offset length : Nat}
    (hrecv : q n.right = .recv k lost)
    (hsend : q (k (chunkFrame c stream flags payload)) = .send (controlFrame id (.chunkAck stream' c offset length)) r) :
    ∃ n', Reaches p q n n' ∧ InStep at_ n' s' (c + 1) ∧ n'.right = r ∧
      n'.gotRight = n.gotRight ++ [chunkFrame c stream flags payload] := by
  have hid : chunkId? (chunkFrame c stream flags payload) = some c := by simp [chunkId?, chunkFrame]
  have h₁ := Reaches.left_send (q := q) (n := n) (h.left ▸ hp)
  have h₂ := h₁.trans (Reaches.right_only (chunkFrame c stream flags payload) hrecv (by simp [h.sent]))
  have h₃ := h₂.trans (Reaches.right_send hsend)
  refine ⟨_, h₃, ⟨rfl, rfl, by simp [h.waiting, hs'], ?_, ?_, h.early⟩, rfl, rfl⟩
  · intro f hf
    simp only [List.mem_append, List.mem_singleton] at hf
    rcases hf with hf | rfl
    · exact h.acks f hf
    · exact ⟨_, _, _, _, _, rfl⟩
  · obtain ⟨hacks, honce, hbelow⟩ := h.answered
    refine ⟨?_, ?_, ?_⟩
    · rw [← List.append_assoc, List.filterMap_append, hacks, List.filterMap_append]
      simp [hid, ackedId?, controlFrame]
    · simp only [List.filterMap_append, List.filterMap_cons, hid, List.filterMap_nil]
      refine List.nodup_append.mpr ⟨honce, by simp, ?_⟩
      intro a ha b hb
      have := hbelow a ha
      simp only [List.mem_singleton] at hb
      omega
    · intro i hi
      simp only [List.filterMap_append, List.filterMap_cons, hid, List.filterMap_nil, List.mem_append,
        List.mem_singleton] at hi
      rcases hi with hi | rfl
      · exact Nat.lt_succ_of_lt (hbelow i hi)
      · exact Nat.lt_succ_self _

/-- The sender reads an answer. -/
theorem InStep.drain {n : Net Frame σ τ} {s : SendState} {c : Nat} (h : InStep at_ n s c) {k : Frame → σ} {lost : σ}
    (hp : p (at_ s c) = .recv k lost)
    (hk : ∀ id stream message offset length,
      k (controlFrame id (.chunkAck stream message offset length)) = at_ (s.acked length) c)
    (hpos : 0 < s.inFlight) :
    ∃ n' length, Reaches p q n n' ∧ InStep at_ n' (s.acked length) c ∧ n'.right = n.right ∧
      n'.gotRight = n.gotRight := by
  have hwait := h.waiting
  cases hl : n.toLeft with
  | nil => simp [hl] at hwait; omega
  | cons f fs =>
    obtain ⟨id, stream, message, offset, length, rfl⟩ := h.acks f (by simp [hl])
    refine ⟨_, length, Reaches.left_recv (h.left ▸ hp) hl, ⟨hk _ _ _ _ _, h.sent, ?_, ?_, ?_, ?_⟩, rfl, rfl⟩
    · simp only [hl, List.length_cons] at hwait
      simp only [SendState.acked]
      omega
    · intro f' hf'
      exact h.acks f' (by simp [hl, hf'])
    · obtain ⟨hacks, honce, hbelow⟩ := h.answered
      refine ⟨?_, honce, hbelow⟩
      simpa [hl] using hacks
    · intro f hf
      simp only [List.mem_append, List.mem_singleton] at hf
      rcases hf with hf | rfl
      · exact h.early f hf
      · rintro ⟨transferId, failed, hc⟩
        cases hc

/-- What the chunk loop does while it has bytes left and leaves none out. -/
theorem sendMove_inside {s : SendState} (hlt : s.offset < data.length)
    (hskip : skips s.offset (chunkStop data s.offset - s.offset) = false) :
    sendMove x skips data s =
      if s.inFlight ≥ maxInFlight then .wait
      else .send (if chunkStop data s.offset = data.length then 1 else 0)
        (chunkPayload x s.offset (slice data s.offset (chunkStop data s.offset)))
        { s with offset := chunkStop data s.offset, inFlight := s.inFlight + 1 } := by
  unfold sendMove
  rw [if_pos hlt]
  change (if skips s.offset (chunkStop data s.offset - s.offset) = true then _ else _) = _
  rw [hskip]
  rfl

/-- The answers still out, once every byte is sent. -/
theorem InStep.drained (hs : ChunkSender x p skips data streamId at_ done) {n : Net Frame σ τ} {s : SendState} {c : Nat}
    (h : InStep at_ n s c) (hoff : s.offset = data.length) :
    ∃ n', Reaches p q n n' ∧ n'.left = done c ∧ n'.right = n.right ∧ n'.toRight = [] ∧ n'.toLeft = [] ∧
      Answered n' c ∧ ∀ f ∈ n'.gotLeft, ¬ IsSuccess f := by
  induction hi : s.inFlight generalizing n s with
  | zero =>
    have hm := hs.move s c
    rw [show sendMove x skips data s = .done by simp [sendMove, hoff, hi]] at hm
    have hl : n.toLeft = [] := List.eq_nil_of_length_eq_zero (by rw [h.waiting, hi])
    exact ⟨_, Reaches.left_tau (h.left ▸ hm), rfl, rfl, h.sent, hl,
      ⟨h.answered.1, h.answered.2, h.answered.3⟩, h.early⟩
  | succ i ih =>
    have hm := hs.move s c
    rw [show sendMove x skips data s = .wait by simp [sendMove, hoff, hi]] at hm
    obtain ⟨k, lost, hp, hk⟩ := hm
    obtain ⟨n₁, length, hr₁, h₁, hright, _⟩ := h.drain (q := q) hp hk (by omega)
    obtain ⟨n₂, hr₂, h₂⟩ := ih h₁ hoff (by simp [SendState.acked, hi])
    exact ⟨n₂, hr₁.trans hr₂, hright ▸ h₂⟩

/-- Room for the next chunk, reading answers until there is some. -/
theorem InStep.room (hs : ChunkSender x p skips data streamId at_ done) {n : Net Frame σ τ} {s : SendState} {c : Nat}
    (h : InStep at_ n s c) (hlt : s.offset < data.length)
    (hskip : skips s.offset (chunkStop data s.offset - s.offset) = false) :
    ∃ n' s', Reaches p q n n' ∧ InStep at_ n' s' c ∧ n'.right = n.right ∧ n'.gotRight = n.gotRight ∧
      s'.offset = s.offset ∧ s'.inFlight < maxInFlight := by
  induction hi : s.inFlight generalizing n s with
  | zero => exact ⟨n, s, .refl, h, rfl, rfl, rfl, by simp [hi, maxInFlight]⟩
  | succ i ih =>
    by_cases hfull : s.inFlight ≥ maxInFlight
    · have hm := hs.move s c
      rw [sendMove_inside hlt hskip, if_pos hfull] at hm
      obtain ⟨k, lost, hp, hk⟩ := hm
      obtain ⟨n₁, length, hr₁, h₁, hright, hgot⟩ := h.drain (q := q) hp hk (by omega)
      obtain ⟨n₂, s₂, hr₂, h₂, hright₂, hgot₂, hoff₂, hroom⟩ := ih h₁ hlt hskip (by simp [SendState.acked, hi])
      exact ⟨n₂, s₂, hr₁.trans hr₂, h₂, hright₂.trans hright, hgot₂.trans hgot, hoff₂, hroom⟩
    · exact ⟨n, s, .refl, h, rfl, rfl, rfl, by omega⟩

/-- One chunk, answered as the receiver answers it. -/
theorem InStep.send (hs : ChunkSender x p skips data streamId at_ done) {n : Net Frame σ τ} {s : SendState} {c : Nat}
    (h : InStep at_ n s c) (hlt : s.offset < data.length)
    (hskip : skips s.offset (chunkStop data s.offset - s.offset) = false) {k : Frame → τ} {lost r : τ}
    {id stream offset length : Nat} (hrecv : q n.right = .recv k lost)
    (hsend : q (k (fileChunk x data streamId s.offset c)) = .send (controlFrame id (.chunkAck stream c offset length)) r) :
    ∃ n' s', Reaches p q n n' ∧ InStep at_ n' s' (c + 1) ∧ s'.offset = chunkStop data s.offset ∧ n'.right = r ∧
      n'.gotRight = n.gotRight ++ [fileChunk x data streamId s.offset c] := by
  obtain ⟨n₁, s₁, hr₁, h₁, hright, hgot, hoff, hroom⟩ := h.room (q := q) hs hlt hskip
  rw [← hoff] at hlt hskip hsend
  have hm := hs.move s₁ c
  rw [sendMove_inside hlt hskip, if_neg (by omega)] at hm
  obtain ⟨n₂, hr₂, h₂, hright₂, hgot₂⟩ := h₁.answer hm rfl (hright ▸ hrecv) hsend
  exact ⟨n₂, _, hr₁.trans hr₂, h₂, congrArg (chunkStop data) hoff, hright₂, by rw [hgot₂, hgot, ← hoff]; rfl⟩

/-- One chunk at the receiver's own position. -/
theorem InStep.next (hs : ChunkSender x p skips data streamId at_ done)
    (hr : ChunkReceiver x q data streamId Waits Done) {n : Net Frame σ τ} {s : SendState} {c : Nat}
    (h : InStep at_ n s c) (hw : Waits s.offset n.right) (hlt : s.offset < data.length)
    (hskip : skips s.offset (chunkStop data s.offset - s.offset) = false) :
    ∃ n' s', Reaches p q n n' ∧ InStep at_ n' s' (c + 1) ∧ s'.offset = chunkStop data s.offset ∧
      n'.gotRight = n.gotRight ++ [fileChunk x data streamId s.offset c] ∧
      if chunkStop data s.offset = data.length then Done n'.right else Waits (chunkStop data s.offset) n'.right := by
  obtain ⟨k, lost, id, r, hrecv, hsend, hthen⟩ := hr.take hw hlt c
  obtain ⟨n', s', hr', h', hoff, rfl, hgot⟩ := h.send hs hlt hskip hrecv hsend
  exact ⟨n', s', hr', h', hoff, hgot, hthen⟩

/-- **The exchange of a file.** From a receiver that has as many bytes as the
sender has sent, with bytes to go, both loops come to their ends: every chunk
was answered, and no frame is under way. -/
theorem exchange (hs : ChunkSender x p skips data streamId at_ done)
    (hr : ChunkReceiver x q data streamId Waits Done) {n : Net Frame σ τ} {s : SendState} {c : Nat}
    (h : InStep at_ n s c) (hw : Waits s.offset n.right) (hlt : s.offset < data.length)
    (hskip : ∀ offset, s.offset ≤ offset → offset < data.length →
      skips offset (chunkStop data offset - offset) = false) :
    ∃ n' c', Reaches p q n n' ∧ n'.left = done c' ∧ Done n'.right ∧ n'.toRight = [] ∧ n'.toLeft = [] ∧
      Answered n' c' ∧ ∀ f ∈ n'.gotLeft, ¬ IsSuccess f := by
  -- On the bytes still to send.
  induction hrest : data.length - s.offset using Nat.strongRecOn generalizing n s c with
  | ind rest ih =>
    obtain ⟨n₁, s₁, hr₁, h₁, hoff, _, hthen⟩ := h.next hs hr hw hlt (hskip _ (Nat.le_refl _) hlt)
    have hbounds := chunkStop_bounds hlt
    split at hthen
    · rename_i hstop
      obtain ⟨n₂, hr₂, hl, hright, h₂⟩ := h₁.drained (q := q) hs (hoff.trans hstop)
      exact ⟨n₂, _, hr₁.trans hr₂, hl, hright ▸ hthen, h₂⟩
    · rename_i hstop
      obtain ⟨n₂, c₂, hr₂, h₂⟩ := ih (data.length - s₁.offset) (by omega) h₁ (hoff ▸ hthen) (by omega)
        (fun offset ho => hskip offset (by omega)) rfl
      exact ⟨n₂, c₂, hr₁.trans hr₂, h₂⟩

/-- One chunk is read, and nothing said about its answer. -/
theorem InStep.push (hs : ChunkSender x p skips data streamId at_ done) {n : Net Frame σ τ} {s : SendState} {c : Nat}
    (h : InStep at_ n s c) (hflight : s.inFlight = 0) (hlt : s.offset < data.length)
    (hskip : skips s.offset (chunkStop data s.offset - s.offset) = false) {k : Frame → τ} {lost : τ}
    (hrecv : q n.right = .recv k lost) :
    Reaches p q n
      { left := at_ { s with offset := chunkStop data s.offset, inFlight := 1 } (c + 1)
        right := k (fileChunk x data streamId s.offset c)
        gotRight := n.gotRight ++ [fileChunk x data streamId s.offset c]
        gotLeft := n.gotLeft } := by
  have hm := hs.move s c
  rw [sendMove_inside hlt hskip, if_neg (by rw [hflight]; decide)] at hm
  dsimp only at hm
  rw [hflight] at hm
  have hL : n.toLeft = [] := List.eq_nil_of_length_eq_zero (h.waiting.trans hflight)
  have h₁ : Reaches p q n _ := .left_send (h.left ▸ hm)
  have h₂ := h₁.trans (.right_only (fileChunk x data streamId s.offset c) hrecv
    (by simp [h.sent, fileChunk]))
  simpa [hL] using h₂

/-- The chunks the sender leaves out, up to byte `m`. -/
theorem InStep.skipped (hs : ChunkSender x p skips data streamId at_ done) {n : Net Frame σ τ} {s : SendState}
    {c m : Nat} (h : InStep at_ n s c) (hle : s.offset ≤ m) (hm : m ≤ data.length)
    (haligned : chunkDataSize ∣ s.offset) (haligned' : chunkDataSize ∣ m ∨ m = data.length)
    (hskip : ∀ offset, offset < data.length → chunkStop data offset ≤ m →
      skips offset (chunkStop data offset - offset) = true) :
    ∃ n' s', Reaches p q n n' ∧ InStep at_ n' s' c ∧ s'.offset = m ∧ s'.inFlight = s.inFlight ∧
      n'.right = n.right := by
  -- On the bytes still to leave out.
  induction hrest : m - s.offset using Nat.strongRecOn generalizing n s with
  | ind rest ih =>
    rcases Nat.eq_or_lt_of_le hle with heq | hlt
    · exact ⟨n, s, .refl, h, heq, rfl, rfl⟩
    · have hlt' : s.offset < data.length := by omega
      have hstop : chunkStop data s.offset ≤ m := by
        obtain ⟨a, ha⟩ := haligned
        rcases haligned' with ⟨b, hb⟩ | hb
        · have hab : a + 1 ≤ b := by
            by_contra hba
            have : b ≤ a := by omega
            have := Nat.mul_le_mul_left chunkDataSize this
            omega
          have := Nat.mul_le_mul_left chunkDataSize hab
          rw [Nat.mul_add, Nat.mul_one, ← ha, ← hb] at this
          exact Nat.le_trans (Nat.min_le_left _ _) this
        · exact hb ▸ Nat.min_le_right _ _
      have hmove := hs.move s c
      rw [show sendMove x skips data s = .skip { s with offset := chunkStop data s.offset } by
        unfold sendMove
        rw [if_pos hlt']
        exact if_pos (hskip s.offset hlt' hstop)] at hmove
      obtain ⟨hlo, hhi⟩ := chunkStop_bounds hlt'
      have h₁ : InStep at_ { n with left := at_ { s with offset := chunkStop data s.offset } c }
          { s with offset := chunkStop data s.offset } c :=
        ⟨rfl, h.sent, h.waiting, h.acks, ⟨h.answered.1, h.answered.2, h.answered.3⟩, h.early⟩
      rcases Nat.eq_or_lt_of_le hstop with heq | hlt₂
      · exact ⟨_, _, .left_tau (h.left ▸ hmove), h₁, heq, rfl, rfl⟩
      · have hal : chunkDataSize ∣ chunkStop data s.offset := by
          rw [chunkStop_eq_add (by omega)]
          exact Nat.dvd_add haligned (Nat.dvd_refl _)
        obtain ⟨n₂, s₂, hr₂, h₂, hoff, hflight, hright⟩ :=
          ih (m - chunkStop data s.offset) (by omega) h₁ hstop hal rfl
        exact ⟨n₂, s₂, (Reaches.left_tau (h.left ▸ hmove)).trans hr₂, h₂, hoff, hflight, hright⟩

/-- The receiver at any chunk boundary inside the file. -/
theorem InStep.upto (hs : ChunkSender x p skips data streamId at_ done)
    (hr : ChunkReceiver x q data streamId Waits Done) {n : Net Frame σ τ} {s : SendState} {c : Nat}
    (h : InStep at_ n s c) (hw : Waits 0 n.right) (hoff : s.offset = 0) (hskip : ∀ offset length, skips offset length = false)
    {k : Nat} (hk : k * chunkDataSize < data.length) :
    ∃ n' s', Reaches p q n n' ∧ InStep at_ n' s' (c + k) ∧ s'.offset = k * chunkDataSize ∧
      Waits (k * chunkDataSize) n'.right ∧
      n'.gotRight = n.gotRight ++ (List.range k).map fun j => fileChunk x data streamId (j * chunkDataSize) (c + j) := by
  induction k with
  | zero => exact ⟨n, s, .refl, h, by simp [hoff], by simpa using hw, by simp⟩
  | succ k ih =>
    rw [Nat.succ_mul] at hk ⊢
    have hk' : k * chunkDataSize < data.length := Nat.lt_of_le_of_lt (Nat.le_add_right _ _) hk
    obtain ⟨n₁, s₁, hr₁, h₁, hoff₁, hw₁, hgot₁⟩ := ih hk'
    obtain ⟨n₂, s₂, hr₂, h₂, hoff₂, hgot₂, hthen⟩ := h₁.next hs hr (hoff₁ ▸ hw₁) (hoff₁ ▸ hk') (hskip _ _)
    have hstop : chunkStop data s₁.offset = k * chunkDataSize + chunkDataSize := by
      rw [hoff₁]
      exact chunkStop_eq_add (chunkStop_lt_iff.mpr hk)
    rw [hstop] at hthen hoff₂
    rw [if_neg (Nat.ne_of_lt hk)] at hthen
    refine ⟨n₂, s₂, hr₁.trans hr₂, h₂, hoff₂, hthen, ?_⟩
    rw [hgot₂, hgot₁, hoff₁, List.range_succ, List.map_append, List.append_assoc]
    rfl

end

end Nxfr

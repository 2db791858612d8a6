/-
Where a first attempt can be cut off: the disk and the journal of a receiver
inside `receive_file` are those of the chunks it has taken
(`ChunksTaken.right_eq`), whatever the sender and the connection have done.
-/
import Nxfr.DaemonPair

namespace Nxfr

open Network

/-- The ranges journaled when the first `m` bytes are here. -/
def ranges (m : Nat) : List (Nat × Nat) := if m = 0 then [] else [(0, m)]

/-- The journal state when the first `m` bytes are here. -/
def Outbound.journaled (x : Ext) (o : Outbound) (cfg : SessionConfig) (m : Nat) : ResumeState :=
  { freshResume (o.transfer x cfg) with files := AList.insert 1 ⟨m, ranges m, none, o.partPath cfg⟩ ∅ }

/-- `receive_file` has taken `k` chunks, answered them, and waits. -/
structure ChunksTaken (k : Nat) (n : Net Frame OutboundState Session) : Prop where
  inside : ∃ t st a relativePath l, n.right = .transfer t st ∧ st.phase = .receiving a relativePath l
  answered : n.right.conn.outbox = []
  count : (n.gotRight.filterMap chunkId?).length = k

section

variable (x : Ext) (o : Outbound) (cfg : SessionConfig)

theorem journaled_lookup (m : Nat) :
    (o.journaled x cfg m).files.lookup 1 = some ⟨m, ranges m, none, o.partPath cfg⟩ :=
  AList.lookup_insert _

theorem journaled_record (m : Nat) {m' : Nat} (hm : 0 < m') :
    (o.journaled x cfg m).record 1 m' = o.journaled x cfg m' := by
  simp only [ResumeState.record, journaled_lookup]
  simp only [Outbound.journaled, AList.insert_insert, ranges, if_neg (Nat.pos_iff_ne_zero.mp hm)]

theorem journaled_transferId (m : Nat) : (o.journaled x cfg m).transferId = hexEncode o.transferId.bytes := rfl

theorem save_journaled (j : Journal) (m : Nat) :
    j.save (o.journaled x cfg m) (hexEncode o.transferId.bytes) = some (o.journaled x cfg m) := by
  rw [← journaled_transferId x o cfg m]
  exact Journal.save_self j _

theorem journaled_hasPartial (m : Nat) : (o.journaled x cfg m).hasPartial 1 = decide (m > 0) := by
  simp [ResumeState.hasPartial, ResumeState.received, journaled_lookup]

variable {x o cfg}

theorem Journal.save_save {j : Journal} {s s' : ResumeState} (h : s.transferId = s'.transferId) :
    (j.save s).save s' = j.save s' := by
  funext id
  simp only [Journal.save, h]
  split <;> rfl

/-- The end of the stream stops the responder. -/
theorem responder_lost {s lost : Session} {k : Frame → Session} (h : responder x cfg s = .recv k lost) :
    ∃ c, responder x cfg lost = .halt c := by
  unfold responder at h
  split at h
  · cases h
  · rename_i hout
    split at h
    · cases h
    · cases h
    · rename_i s' hclosed hpairing
      cases h
      cases s with
      | idle fs j conn =>
        have hout : conn.outbox = [] := hout
        exact ⟨true, by simp [responder, sessionLost, Session.conn, hout]⟩
      | transfer t st =>
        have hout : st.recv.conn.outbox = [] := hout
        exact ⟨true, by simp [responder, sessionLost, Session.conn, hout]⟩
      | pairing fs j conn method => exact absurd rfl (hpairing fs j conn method)
      | closed fs j conn r => exact absurd rfl (hclosed fs j conn r)

theorem ChunksTaken.waits (x : Ext) (cfg : SessionConfig) {k : Nat} {n : Net Frame OutboundState Session} (h : ChunksTaken k n) :
    responder x cfg n.right = .recv (sessionStep x cfg n.right) (sessionLost n.right) := by
  obtain ⟨⟨t, st, a, rel, l, hright, _⟩, hout, _⟩ := h
  rw [hright] at hout ⊢
  simp [responder, hout]

variable {fs : Fs} {j : Journal} (h : Offered x o cfg fs j)
include h

/-- What the journal holds with `m` bytes here. -/
def Offered.Keeps (_ : Offered x o cfg fs j) (m : Nat) (resume : ResumeState) (journal : Journal) : Prop :=
  resume = o.journaled x cfg m ∧ journal = j.save (o.journaled x cfg m)

theorem Offered.records : h.first.Records h.Keeps where
  record := by
    rintro m resume journal ⟨rfl, rfl⟩ hm
    obtain ⟨hlo, _⟩ := chunkStop_bounds hm
    have hrec := journaled_record x o cfg m (Nat.lt_of_le_of_lt (Nat.zero_le m) hlo)
    have hid : h.first.fileId = 1 := rfl
    dsimp only
    rw [hid, hrec]
    exact ⟨rfl, Journal.save_save ((journaled_transferId _ _ _ _).trans (journaled_transferId _ _ _ _).symm)⟩

omit h in
/-- The end of the stream stops the initiator. -/
theorem initiator_lost {st lost : OutboundState} {k : Frame → OutboundState} (hp : initiator x o st = .recv k lost) :
    initiator x o lost = .halt true := by
  obtain ⟨pc, journal, c⟩ := st
  have hsend : ∀ {st : OutboundState} {m : ControlMessage} {pc : OutboundPc}, st.sendControl x m pc ≠ .recv k lost := by
    intro st m pc
    unfold OutboundState.sendControl
    split <;> simp
  cases pc <;> simp only [initiator] at hp
  case chunks skip s =>
    split at hp
    · cases hp
    · cases hp
    · cases hp; rfl
    · cases hp
  case awaitAccept | awaitStatus | awaitMetadataAck | awaitAck | awaitClose => cases hp; rfl
  case fresh | returned => cases hp
  all_goals exact absurd hp hsend

omit h in
/-- A sender that waits for a receiver that has closed gives up. -/
theorem wait_settles (cfg : SessionConfig) {n : Net Frame OutboundState Session} {fs' : Fs} {j' : Journal} {id : Nat} {e : Except Fail Unit}
    (hright : n.right = .closed fs' j' (quiet id) e) (hL : n.toLeft = []) {k : Frame → OutboundState}
    {lost : OutboundState} (hwait : initiator x o n.left = .recv k lost) :
    ∃ t, Settles (initiator x o) (responder x cfg) n t ∧ t.gotRight = n.gotRight := by
  have hclosed : responder x cfg n.right = .halt true := by simp [hright, responder, Session.conn, quiet]
  refine ⟨_, ⟨.left_lost hwait hL (by rw [hclosed]; rfl), ?_⟩, rfl⟩
  rintro (_ | _)
  · simp [step, initiator_lost hwait]
  · simp [step, hclosed]

omit h in
/-- So does one that has only the end of the transfer to send. -/
theorem sent_settles (cfg : SessionConfig) (hx : x.Compact) {n : Net Frame OutboundState Session} {fs' : Fs} {j' js : Journal}
    {c id : Nat} {e : Except Fail Unit} (hleft : n.left = chunksSent js c)
    (hright : n.right = .closed fs' j' (quiet id) e) (hL : n.toLeft = []) :
    ∃ t, Settles (initiator x o) (responder x cfg) n t ∧ t.gotRight = n.gotRight := by
  have hcomplete : initiator x o n.left = .send (controlFrame c (.transferComplete o.transferId))
      { pc := .awaitAck, journal := js, nextMessageId := c + 1 } := by
    rw [hleft]
    exact sendControl_act (encode_small hx (by simp [ControlMessage.volume]) (by simp))
  obtain ⟨t, ht, hgot⟩ := wait_settles (x := x) (o := o) cfg
    (n := { n with left := { pc := .awaitAck, journal := js, nextMessageId := c + 1 }
                   toRight := n.toRight ++ [controlFrame c (.transferComplete o.transferId)] }) hright hL rfl
  exact ⟨t, ⟨(Reaches.left_send hcomplete).trans ht.1, ht.2⟩, hgot⟩

omit h in
theorem sendMove_advances {skips : Nat → Nat → Bool} {data : Bytes} {s s' : SendState}
    (hm : sendMove x skips data s = .skip s' ∨ ∃ flags payload, sendMove x skips data s = .send flags payload s') :
    data.length - s'.offset < data.length - s.offset := by
  unfold sendMove at hm
  split at hm
  · rename_i hlt
    have hbounds := chunkStop_bounds hlt
    dsimp only at hm
    have hs' : s'.offset = chunkStop data s.offset := by
      split at hm
      · simp at hm; rw [← hm]; rfl
      split at hm
      · simp at hm
      · simp at hm; rw [← hm]; rfl
    omega
  · split at hm <;> simp at hm

omit h in
/-- So does one that has chunks to send. -/
theorem closed_settles (cfg : SessionConfig) (hx : x.Compact) {n : Net Frame OutboundState Session} {fs' : Fs} {j' js : Journal}
    {skip : Option (List (Nat × Nat))} {s : SendState} {c id : Nat} {e : Except Fail Unit}
    (hleft : n.left = inChunks js skip s c) (hright : n.right = .closed fs' j' (quiet id) e) (hL : n.toLeft = []) :
    ∃ t, Settles (initiator x o) (responder x cfg) n t ∧ t.gotRight = n.gotRight := by
  -- On the bytes still to send.
  induction hrest : o.fileData.length - s.offset using Nat.strongRecOn generalizing n s c with
  | ind rest ih =>
    have hm := (initiator_chunkSender x o js skip).move s c
    cases hmove : sendMove x (skipsOf skip) o.fileData s with
    | skip s' =>
      rw [hmove] at hm
      obtain ⟨t, ht, hgot⟩ := ih _ (hrest ▸ sendMove_advances (.inl hmove))
        (n := { n with left := inChunks js skip s' c }) rfl hright hL rfl
      exact ⟨t, ⟨(Reaches.left_tau (hleft ▸ hm)).trans ht.1, ht.2⟩, hgot⟩
    | send flags payload s' =>
      rw [hmove] at hm
      obtain ⟨t, ht, hgot⟩ := ih _ (hrest ▸ sendMove_advances (.inr ⟨_, _, hmove⟩))
        (n := { n with left := inChunks js skip s' (c + 1)
                       toRight := n.toRight ++ [chunkFrame c 1 flags payload] }) rfl hright hL rfl
      exact ⟨t, ⟨(Reaches.left_send (hleft ▸ hm)).trans ht.1, ht.2⟩, hgot⟩
    | wait =>
      rw [hmove] at hm
      obtain ⟨k, lost, hp, _⟩ := hm
      exact wait_settles cfg hright hL (hleft ▸ hp)
    | done =>
      rw [hmove] at hm
      obtain ⟨t, ht, hgot⟩ := sent_settles (o := o) cfg hx (n := { n with left := chunksSent js c }) rfl hright hL
      exact ⟨t, ⟨(Reaches.left_tau (hleft ▸ hm)).trans ht.1, ht.2⟩, hgot⟩

/-- A first attempt comes to an end, well or not. -/
theorem Offered.settles (hne : o.fileData ≠ []) (hpart : fs.Takes (o.partPath cfg)) (js : Journal) (c id : Nat) :
    ∃ t, Settles (initiator x o) (responder x cfg) (sendStart js c fs j id) t := by
  obtain ⟨n, c', hr, hl, hdone, hR, hL, _, _⟩ := chunks_exchanged h hne hpart js c id
  unfold Incoming.Done at hdone
  split at hdone
  · obtain ⟨resume, journal, id', _, hn⟩ := hdone
    obtain ⟨n', hsettles, _⟩ := complete_settles h.compact o cfg hl hn hR hL
    exact ⟨n', hr.trans hsettles.1, hsettles.2⟩
  · obtain ⟨fs', j', id', hn⟩ := hdone
    obtain ⟨t, ht, _⟩ := sent_settles cfg h.compact hl hn hL
    exact ⟨t, hr.trans ht.1, ht.2⟩

/-- The run that has each chunk answered before the next is sent, stopped
after `k` of them. -/
theorem Offered.scheduled (hpart : fs.Takes (o.partPath cfg)) (js : Journal) (c id : Nat) {k : Nat}
    (hk : k * chunkDataSize < o.fileData.length) :
    ∃ n s, Reaches (initiator x o) (responder x cfg) (sendStart js c fs j id) n ∧
      InStep (inChunks (js.save (o.journalEntry x)) none) n s (c + 2 + k) ∧ s.offset = k * chunkDataSize ∧
      h.first.Waits x h.Keeps (k * chunkDataSize) n.right ∧
      n.gotRight = [controlFrame c (o.requestMessage x), controlFrame (c + 1) (o.metadataMessage x)] ++
        (List.range k).map fun j => fileChunk x o.fileData 1 (j * chunkDataSize) (c + 2 + j) := by
  have h₁ := metadata_accepted h js c id
  rw [if_pos hpart] at h₁
  obtain ⟨n, s, hr, hin, hoff, hw, hgot⟩ := InStep.upto (initiator_chunkSender x o (js.save (o.journalEntry x)) none)
    (h.chunkReceiver _ h.records) (sendStart_inStep js c id) ⟨_, _, _, ⟨rfl, rfl⟩, rfl⟩ rfl (fun _ _ => rfl) hk
  exact ⟨n, s, h₁.trans hr, hin, hoff, hw, hgot⟩

omit h in
/-- The chunks among the frames of the schedule. -/
theorem schedule_count {c k : Nat} :
    (([controlFrame c (o.requestMessage x), controlFrame (c + 1) (o.metadataMessage x)] ++
      (List.range k).map fun j => fileChunk x o.fileData 1 (j * chunkDataSize) (c + 2 + j)).filterMap chunkId?).length =
        k := by
  have hchunks : ((List.range k).map fun j => fileChunk x o.fileData 1 (j * chunkDataSize) (c + 2 + j)).filterMap
      chunkId? = (List.range k).map (c + 2 + ·) := by
    rw [List.filterMap_map]
    exact List.filterMap_eq_map'.symm ▸ rfl
  rw [List.filterMap_append, hchunks]
  simp [chunkId?, controlFrame]

/-- Before the chunks the responder is not inside `receive_file`. -/
theorem early_not_inside {js : Journal} {c id : Nat} {n t : Net Frame OutboundState Session}
    (ht : Settles (initiator x o) (responder x cfg) (sendStart js c fs j id) t)
    (hr : Reaches (initiator x o) (responder x cfg) (sendStart js c fs j id) n) {k : Nat} (hn : ChunksTaken k n) :
    2 ≤ n.gotRight.length := by
  by_contra hlt
  obtain ⟨t', st, a, rel, l, hright, hphase⟩ := hn.inside
  rcases (show n.gotRight.length = 0 ∨ n.gotRight.length = 1 by omega) with h0 | h1
  · have := ht.right_unique responder_lost rfl hr .refl (hn.waits x cfg) (by
      simp [sendStart, initiator, sendControl_act h.encode_request, Act.closed]) rfl h0
    rw [hright] at this
    cases this
  · have hmeta : (initiator x o { pc := .metadata none, journal := js.save (o.journalEntry x)
                                  nextMessageId := c + 1 }).closed = false := by
      simp [initiator, sendControl_act h.encode_metadata, Act.closed]
    have := ht.right_unique responder_lost rfl hr (request_accepted h js c id) (hn.waits x cfg) hmeta rfl h1
    rw [hright] at this
    cases this
    cases hphase

omit h in
theorem inChunks_open {js : Journal} {skip : Option (List (Nat × Nat))} {s : SendState} {c : Nat} :
    (initiator x o (inChunks js skip s c)).closed = false := by
  simp only [initiator, inChunks]
  split <;> rfl

/-- A receiver inside `receive_file` could open the `.part` file. -/
theorem ChunksTaken.part_free {js : Journal} {c id k : Nat} {n : Net Frame OutboundState Session}
    (hr : Reaches (initiator x o) (responder x cfg) (sendStart js c fs j id) n) (hn : ChunksTaken k n) :
    fs.Takes (o.partPath cfg) := by
  by_contra htakes
  have h₁ := metadata_accepted h js c id
  rw [if_neg htakes] at h₁
  obtain ⟨t, ht, hgot⟩ := closed_settles (o := o) cfg h.compact (n := Net.mk _ _ [] [] _ _) rfl rfl rfl
  have hs := And.intro (h₁.trans ht.1) ht.2
  have hle : n.gotRight.length ≤ 2 := by
    have := (Settles.of_reaches hs hr).1.gotRight_grows.length_le
    rw [hgot] at this
    exact this
  have heq := Settles.right_unique responder_lost hs rfl hr h₁ (hn.waits x cfg) inChunks_open rfl
    (Nat.le_antisymm hle (early_not_inside h hs hr hn))
  obtain ⟨t', st, a, rel, l, hright, _⟩ := hn.inside
  rw [hright] at heq
  cases heq

/-- The chunks taken tell how many frames were read. -/
theorem ChunksTaken.length_eq {js : Journal} {c id k : Nat} {n : Net Frame OutboundState Session}
    (hr : Reaches (initiator x o) (responder x cfg) (sendStart js c fs j id) n) (hn : ChunksTaken k n)
    (hk : k * chunkDataSize < o.fileData.length) : n.gotRight.length = k + 2 := by
  have hpart := hn.part_free h hr
  have hne : o.fileData ≠ [] := by rintro hnil; simp [hnil] at hk
  obtain ⟨t, ht⟩ := h.settles hne hpart js c id
  have hcount : ∀ {l₁ l₂ : List Frame}, l₁ <+: l₂ → (l₁.filterMap chunkId?).length ≤ (l₂.filterMap chunkId?).length :=
    fun hp => (hp.filterMap _).length_le
  rcases Nat.lt_trichotomy n.gotRight.length (k + 2) with hlt | heq | hgt
  · -- Too few: the frames of the schedule up to the chunk before include them.
    have h2 := early_not_inside h ht hr hn
    obtain ⟨k, rfl⟩ : ∃ k', k = k' + 1 := ⟨k - 1, by omega⟩
    obtain ⟨n', s, hr', _, _, _, hgot⟩ := h.scheduled hpart js c id (k := k) (by
      rw [Nat.succ_mul] at hk
      omega)
    have := hcount (ht.gotRight_unique hr hr' (by rw [hgot]; simp; omega))
    rw [hn.count, hgot, schedule_count] at this
    omega
  · exact heq
  · -- Too many: they include the next chunk of the schedule.
    obtain ⟨n', s, hr', hin, hoff, hw, hgot⟩ := h.scheduled hpart js c id hk
    obtain ⟨n'', _, hr'', _, _, hgot'', _⟩ := hin.next (initiator_chunkSender x o _ none) (h.chunkReceiver _ h.records)
      (hoff ▸ hw) (hoff ▸ hk) rfl
    have := hcount (ht.gotRight_unique (hr'.trans hr'') hr (by rw [hgot'', hgot]; simp; omega))
    rw [hn.count, hgot'', List.filterMap_append, List.length_append, hgot, schedule_count] at this
    have hone : ([fileChunk x o.fileData 1 s.offset (c + 2 + k)].filterMap chunkId?).length = 1 := rfl
    omega

/-- **A receiver cut off after `k` chunks** has the bytes of those chunks in
the `.part` file and says so in the journal. -/
theorem ChunksTaken.right_eq {js : Journal} {c id k : Nat} {n : Net Frame OutboundState Session}
    (hr : Reaches (initiator x o) (responder x cfg) (sendStart js c fs j id) n) (hn : ChunksTaken k n)
    (hk : k * chunkDataSize < o.fileData.length) :
    ∃ id', n.right = h.first.waiting x (k * chunkDataSize) (o.journaled x cfg (k * chunkDataSize))
      (j.save (o.journaled x cfg (k * chunkDataSize))) (quiet id') := by
  have hpart := hn.part_free h hr
  have hne : o.fileData ≠ [] := by rintro hnil; simp [hnil] at hk
  obtain ⟨t, ht⟩ := h.settles hne hpart js c id
  obtain ⟨n', s, hr', hin, _, ⟨resume, journal, id', ⟨rfl, rfl⟩, hright⟩, hgot⟩ := h.scheduled hpart js c id hk
  refine ⟨id', hright ▸ ht.right_unique responder_lost rfl hr hr' (hn.waits x cfg) ?_ ?_ ?_⟩
  · rw [hin.left, inChunks_open]
  · rw [hright]
    rfl
  · rw [hn.length_eq h hr hk, hgot]
    simp only [List.length_append, List.length_cons, List.length_nil, List.length_map, List.length_range]
    omega

/-- The next frame it reads is the next chunk. -/
theorem ChunksTaken.next_eq {js : Journal} {c id k : Nat} {n : Net Frame OutboundState Session}
    (hr : Reaches (initiator x o) (responder x cfg) (sendStart js c fs j id) n) (hn : ChunksTaken k n)
    (hk : k * chunkDataSize < o.fileData.length) {f : Frame} {rest : List Frame} (hf : n.toRight = f :: rest) :
    f = fileChunk x o.fileData 1 (k * chunkDataSize) (c + 2 + k) := by
  have hpart := hn.part_free h hr
  have hne : o.fileData ≠ [] := by rintro hnil; simp [hnil] at hk
  obtain ⟨t, ht⟩ := h.settles hne hpart js c id
  have hlen := hn.length_eq h hr hk
  obtain ⟨n', s, hr', hin, hoff, hw, hgot⟩ := h.scheduled hpart js c id hk
  obtain ⟨n'', _, hr'', _, _, hgot'', _⟩ := hin.next (initiator_chunkSender x o _ none) (h.chunkReceiver _ h.records)
    (hoff ▸ hw) (hoff ▸ hk) rfl
  have hlen'' : n''.gotRight.length = k + 3 := by rw [hgot'', hgot]; simp
  have hread := hr.trans (.right_recv (hn.waits x cfg) hf)
  have heq := (ht.gotRight_unique hread (hr'.trans hr'') (by simp [hlen'', hlen])).eq_of_length (by simp [hlen'', hlen])
  rw [hgot''] at heq
  have := (List.append_inj' heq rfl).2
  simp only [List.cons.injEq, and_true] at this
  rw [this, hoff]

/-- Every cut can happen: some run has the next chunk under way to a receiver
that has taken `k`. -/
theorem Offered.chunk_underway (hpart : fs.Takes (o.partPath cfg)) (js : Journal) (c id : Nat) {k : Nat}
    (hk : k * chunkDataSize < o.fileData.length) :
    ∃ n f, Reaches (initiator x o) (responder x cfg) (sendStart js c fs j id) n ∧ ChunksTaken k n ∧ n.toRight = [f] := by
  obtain ⟨n, s, hr, hin, hoff, ⟨resume, journal, id', _, hright⟩, hgot⟩ := h.scheduled hpart js c id hk
  obtain ⟨n₁, s₁, hr₁, hin₁, hright₁, hgot₁, hoff₁, hroom⟩ := hin.room (q := responder x cfg)
    (initiator_chunkSender x o _ none) (hoff ▸ hk) rfl
  have hmove := (initiator_chunkSender x o (js.save (o.journalEntry x)) none).move s₁ (c + 2 + k)
  rw [sendMove_inside (by rw [hoff₁, hoff]; exact hk) rfl, if_neg (Nat.not_le_of_lt hroom)] at hmove
  have h₁ := (hr.trans hr₁).trans (.left_send (hin₁.left ▸ hmove))
  rw [hright₁, hright, hgot₁, hgot, hin₁.sent] at h₁
  exact ⟨_, _, h₁, ⟨⟨_, _, _, _, _, rfl, rfl⟩, rfl, schedule_count⟩, rfl⟩

end

end Nxfr

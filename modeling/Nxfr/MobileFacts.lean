/-
`do_send_file` against any receiver: the request, and one file after the
other. Between two files nothing is under way (`Between`); a receiver that
takes the metadata and then the chunks in order brings the sender to the next
file (`Between.file`).
-/
import Nxfr.ChunkExchange
import Nxfr.ScanFacts

namespace Nxfr

open Network

/-- `do_send_file` in the chunk loop of a file. -/
def sendingChunks (e : LocalSendEntry) (rest : List LocalSendEntry) (s : SendState) (c : Nat) : MobileSend :=
  { pc := .chunks e rest s, nextMessageId := c }

/-- `do_send_file` at the top of its loop. -/
def sendingFiles (rest : List LocalSendEntry) (c : Nat) : MobileSend := { pc := .files rest, nextMessageId := c }

theorem doSendFile_chunkSender (x : Ext) (o : SendTask) (e : LocalSendEntry) (rest : List LocalSendEntry) :
    ChunkSender x (doSendFile x o) (fun _ _ => false) e.data e.fileId (sendingChunks e rest) (sendingFiles rest) where
  move := by
    intro s c
    have hmove : sendFile x e.data s = sendMove x (fun _ _ => false) e.data s := rfl
    cases h : sendMove x (fun _ _ => false) e.data s with
    | skip s' => simp [doSendFile, sendingChunks, hmove, h]
    | send flags payload s' => simp [doSendFile, sendingChunks, hmove, h]
    | done => simp [doSendFile, sendingChunks, sendingFiles, hmove, h]
    | wait =>
      refine ⟨fun f => sendingChunks e rest (s.onAnyFrame f) c, (sendingChunks e rest s c).lost, ?_, ?_⟩
      · simp [doSendFile, sendingChunks, hmove, h]
      · intro id stream message offset length
        simp [SendState.onAnyFrame, controlFrame]

theorem mobileSend_act {x : Ext} {st : MobileSend} {m : ControlMessage} {pc : MobilePc}
    (he : encodeControl x m = .ok ()) :
    st.sendControl x m pc = .send (controlFrame st.nextMessageId m) { pc, nextMessageId := st.nextMessageId + 1 } := by
  simp [MobileSend.sendControl, he]

section

variable {τ : Type} {x : Ext} {o : SendTask} {q : τ → Act Frame τ} {n : Net Frame MobileSend τ}
  {e : LocalSendEntry} {rest : List LocalSendEntry} {c : Nat}

/-- The sender at the top of its loop, with every chunk so far answered. -/
structure Between (n : Net Frame MobileSend τ) (rest : List LocalSendEntry) (c : Nat) : Prop where
  left : n.left = sendingFiles rest c
  sent : n.toRight = []
  unread : n.toLeft = []
  answered : Answered n c
  early : ∀ f ∈ n.gotLeft, ¬ IsSuccess f

/-- The request is accepted. -/
theorem request_answered {name : String} {entries : List LocalSendEntry} {c id : Nat} {transferId : TransferId}
    {r₀ r : τ} {k : Frame → τ} {lost : τ} (hscan : scanSendPath x o.filePath = .ok (name, entries))
    (he : encodeControl x (o.requestMessage name entries) = .ok ()) (hrecv : q r₀ = .recv k lost)
    (hreply : q (k (controlFrame c (o.requestMessage name entries))) =
      .send (controlFrame id (.transferAccept transferId)) r) :
    ∃ n, Reaches (doSendFile x o) q { left := { pc := .scan, nextMessageId := c }, right := r₀ } n ∧ n.right = r ∧
      Between n (filesOf entries) (c + 1) := by
  have h₁ := Reaches.left_tau (p := doSendFile x o) (q := q)
    (n := { left := { pc := .scan, nextMessageId := c }, right := r₀ }) (k := { pc := .request name entries, nextMessageId := c })
    (by simp [doSendFile, hscan])
  have h₂ := h₁.trans (Reaches.call (mobileSend_act he) hrecv hreply rfl rfl rfl)
  refine ⟨_, h₂, rfl, ⟨rfl, rfl, rfl, ?_, ?_⟩⟩
  · constructor <;> simp [ackedId?, chunkId?, controlFrame]
  · simp [IsSuccess, controlFrame]

/-- The metadata of the next file is accepted. -/
theorem Between.metadata (h : Between n (e :: rest) c) (he : encodeControl x (o.metadataMessage e) = .ok ()) {id fileId
    streamId : Nat} {transferId : TransferId} {r : τ} {k : Frame → τ} {lost : τ} (hrecv : q n.right = .recv k lost)
    (hreply : q (k (controlFrame c (o.metadataMessage e))) =
      .send (controlFrame id (.fileMetadataAck transferId fileId streamId true)) r) :
    ∃ n', Reaches (doSendFile x o) q n n' ∧ n'.right = r ∧ InStep (sendingChunks e rest) n' {} (c + 1) := by
  have hsend : doSendFile x o n.left = .send (controlFrame c (o.metadataMessage e))
      { pc := .awaitMetadataAck e rest, nextMessageId := c + 1 } := by
    rw [h.left]
    exact mobileSend_act he
  refine ⟨_, Reaches.call hsend hrecv hreply rfl h.sent h.unread, rfl, ⟨rfl, rfl, rfl, by simp, ?_, ?_⟩⟩
  · obtain ⟨hacks, honce, hbelow⟩ := h.answered
    rw [h.unread, List.append_nil] at hacks
    refine ⟨?_, ?_, ?_⟩
    · rw [List.append_nil, List.filterMap_append, List.filterMap_append, hacks]
      simp [ackedId?, chunkId?, controlFrame]
    · simpa [chunkId?, controlFrame] using honce
    · intro i hi
      have := hbelow i (by simpa [chunkId?, controlFrame] using hi)
      omega
  · intro f hf
    simp only [List.mem_append, List.mem_singleton] at hf
    rcases hf with hf | rfl
    · exact h.early f hf
    · simp [IsSuccess, controlFrame]

/-- **One file.** From the metadata to the last answer. -/
theorem Between.file {Waits : Nat → τ → Prop} {Done : τ → Prop} (h : Between n (e :: rest) c)
    (he : encodeControl x (o.metadataMessage e) = .ok ()) {id fileId streamId : Nat} {transferId : TransferId} {r : τ}
    {k : Frame → τ} {lost : τ} (hrecv : q n.right = .recv k lost)
    (hreply : q (k (controlFrame c (o.metadataMessage e))) =
      .send (controlFrame id (.fileMetadataAck transferId fileId streamId true)) r)
    (hq : ChunkReceiver x q e.data e.fileId Waits Done) (hw : Waits 0 r) (hne : e.data ≠ []) :
    ∃ n' c', Reaches (doSendFile x o) q n n' ∧ Between n' rest c' ∧ Done n'.right := by
  obtain ⟨n₁, hr₁, hright, h₁⟩ := h.metadata he hrecv hreply
  obtain ⟨n₂, c₂, hr₂, hl, hdone, hR, hL, ha, hearly⟩ := exchange (doSendFile_chunkSender x o e rest) hq h₁
    (hright ▸ hw) (List.length_pos_iff.mpr hne) (fun _ _ _ => rfl)
  exact ⟨n₂, c₂, hr₁.trans hr₂, ⟨hl, hR, hL, ha, hearly⟩, hdone⟩

end

/-! ## The entries of a tree -/

section

variable {x : Ext} {o : SendTask} {n : TreeNode} {id : Nat}

theorem encode_metadata_entry (hx : x.Compact) (hs : sanitizePath (joinSlash n.path) = .ok (joinSlash n.path)) :
    encodeControl x (o.metadataMessage (entryOf x id n)) = .ok () := by
  obtain ⟨_, _, _, _, hsize⟩ := sanitizePath_kept hs
  refine encodeControl_ok hx ?_ (by simp [SendTask.metadataMessage])
  simp only [SendTask.metadataMessage, ControlMessage.volume, entryOf, Option.map_none, Option.getD_none]
  simp only [maxRelativePath] at hsize
  omega

theorem filesOf_cons_file {ns : List TreeNode} (h : n.content ≠ none) :
    filesOf (numbered x id (n :: ns)) = entryOf x id n :: filesOf (numbered x (id + 1) ns) := by
  obtain ⟨data, hdata⟩ := Option.ne_none_iff_exists'.mp h
  simp [filesOf, numbered, entryOf, hdata]

theorem filesOf_cons_dir {ns : List TreeNode} (h : n.content = none) :
    filesOf (numbered x id (n :: ns)) = filesOf (numbered x (id + 1) ns) := by
  simp [filesOf, numbered, entryOf, h]

theorem filesOf_eq_nil_iff {ns : List TreeNode} : filesOf (numbered x id ns) = [] ↔ fileNodes ns = [] := by
  induction ns generalizing id with
  | nil => simp [filesOf, numbered, fileNodes]
  | cons n ns ih =>
    cases hc : n.content with
    | none => rw [filesOf_cons_dir hc, fileNodes_cons_dir hc, ih]
    | some data => simp [filesOf_cons_file (show n.content ≠ none by simp [hc]), fileNodes, hc]

end

end Nxfr

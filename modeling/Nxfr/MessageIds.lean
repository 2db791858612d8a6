/-
The message ids of a connection.

Frames numbered from the counter get 1, 2, 3 and so on, whatever fails to be
encoded in between. A pong has the id 0, so the ids are in sequence exactly
when no keepalive is answered and the counter has not wrapped around.
-/
import Nxfr.Connection

namespace Nxfr

open Cbor (Format)
open History

variable {cbor : Format}

/-- The event is a keepalive that asks for an answer. -/
def Sending.answers : Sending → Bool
  | .keepalive _ frame => !frame.1.isPong
  | _ => false

/-- The event has a frame numbered from the counter. -/
def Sending.numbers (cbor : Format) : Sending → Bool
  | .control _ _ msg => (Codec.encodeControl cbor msg).isOk
  | .chunk _ _ _ _ => true
  | .keepalive _ _ => false

/-- On a connection that is not lost the event asks for no pong, and it is
numbered from a counter that has not wrapped around. -/
def Counted (cbor : Format) (c : NxfrConnection) (op : Sending) : Prop :=
  c.lost = false → op.answers = false ∧ (op.numbers cbor = true → c.nextMessageId ≠ 0)

/-- Message ids as the protocol wants them. -/
structure InSequence (ids : List UInt64) : Prop where
  increasing : ids.Pairwise (· < ·)
  start : ∀ id ∈ ids.head?, id = 1
  nonzero : 0 ∉ ids
  distinct : ids.Nodup

/-! ## One frame -/

theorem NxfrConnection.framedSend_lost {c : NxfrConnection} (h : c.lost = true) (frame : NxfrFrame) :
    c.framedSend frame = (.error .io, c) := by
  rw [framedSend, if_pos h]

theorem NxfrConnection.framedSend_live {c : NxfrConnection} (h : c.lost = false) (frame : NxfrFrame) :
    c.framedSend frame =
      (.ok (), { c with framed := c.framed ++ [frame], writesLeft := c.writesLeft.map (· - 1) }) := by
  rw [framedSend, if_neg (by simp [h])]

theorem NxfrConnection.sendNumbered_live {c : NxfrConnection} (h : c.lost = false) {kind : FrameKind} {flags : UInt16}
    {sessionId streamId : UInt32} {payload : Bytes} :
    (c.sendNumbered kind flags sessionId streamId payload).2.messageIds = c.messageIds ++ [c.nextMessageId] ∧
      (c.sendNumbered kind flags sessionId streamId payload).2.nextMessageId = c.nextMessageId + 1 := by
  simp [sendNumbered, framedSend_live h, messageIds]

theorem NxfrConnection.sendNumbered_lost {c : NxfrConnection} (h : c.lost = true) {kind : FrameKind} {flags : UInt16}
    {sessionId streamId : UInt32} {payload : Bytes} : (c.sendNumbered kind flags sessionId streamId payload).2 = c := by
  simp [sendNumbered, framedSend_lost h]

/-- What one event does on a connection that is not lost: nothing, a frame from
the counter, or a pong. -/
theorem NxfrConnection.perform_live (cbor : Format) {c : NxfrConnection} (hlive : c.lost = false) (op : Sending) :
    op.numbers cbor = false ∧ op.answers = false ∧ c.perform cbor op = c ∨
      op.numbers cbor = true ∧ op.answers = false ∧
        (c.perform cbor op).messageIds = c.messageIds ++ [c.nextMessageId] ∧
        (c.perform cbor op).nextMessageId = c.nextMessageId + 1 ∨
      op.answers = true ∧ (c.perform cbor op).messageIds = c.messageIds ++ [0] := by
  cases op with
  | control sessionId streamId msg =>
    cases hcode : Codec.encodeControl cbor msg with
    | error e =>
      refine .inl ⟨?_, rfl, by simp [perform, sendControl, hcode]⟩
      simp [Sending.numbers, hcode, Except.isOk, Except.toBool]
    | ok payload =>
      simp only [perform, sendControl, hcode]
      exact .inr (.inl ⟨by simp [Sending.numbers, hcode, Except.isOk, Except.toBool], rfl, sendNumbered_live hlive⟩)
  | chunk sessionId streamId flags payload => exact .inr (.inl ⟨rfl, rfl, sendNumbered_live hlive⟩)
  | keepalive sessionId frame =>
    cases hpong : frame.1.isPong with
    | true => exact .inl ⟨rfl, by simp [Sending.answers, hpong], by simp [perform, onKeepalive, hpong]⟩
    | false =>
      refine .inr (.inr ⟨by simp [Sending.answers, hpong], ?_⟩)
      simp [perform, onKeepalive, hpong, sendRaw, framedSend_live hlive, messageIds, pongFrame]

theorem NxfrConnection.perform_lost {c : NxfrConnection} (hlost : c.lost = true) (op : Sending) :
    c.perform cbor op = c := by
  cases op with
  | control sessionId streamId msg =>
    simp only [perform, sendControl]
    split
    · rfl
    · exact sendNumbered_lost hlost
  | chunk sessionId streamId flags payload => exact sendNumbered_lost hlost
  | keepalive sessionId frame =>
    simp only [perform, onKeepalive, sendRaw, framedSend_lost hlost]
    split <;> rfl

/-- Ids that were sent stay sent. -/
theorem NxfrConnection.perform_prefix (c : NxfrConnection) (op : Sending) :
    c.messageIds <+: (c.perform cbor op).messageIds := by
  cases hlost : c.lost with
  | true => rw [perform_lost hlost]
  | false =>
    rcases perform_live cbor hlost op with ⟨-, -, h⟩ | ⟨-, -, h, -⟩ | ⟨-, h⟩
    · rw [h]
    · exact ⟨_, h.symm⟩
    · exact ⟨_, h.symm⟩

/-! ## Runs -/

/-- After `n` frames the ids are 1 to `n` and the counter is one further. -/
structure CountedTo (c : NxfrConnection) (n : Nat) : Prop where
  ids : c.messageIds.map UInt64.toNat = List.range' 1 n
  bound : n < 2 ^ 64
  next : c.nextMessageId.toNat = (n + 1) % 2 ^ 64

theorem CountedTo.step {c : NxfrConnection} {n : Nat} {op : Sending} (h : CountedTo c n) (hcounted : Counted cbor c op) :
    ∃ n', CountedTo (c.perform cbor op) n' := by
  cases hlost : c.lost with
  | true =>
    rw [NxfrConnection.perform_lost hlost]
    exact ⟨n, h⟩
  | false =>
    obtain ⟨hanswers, hnext⟩ := hcounted hlost
    rcases NxfrConnection.perform_live cbor hlost op with ⟨-, -, hsame⟩ | ⟨hnumbers, -, hids, hcounter⟩ | ⟨ha, -⟩
    · rw [hsame]
      exact ⟨n, h⟩
    · have hne : c.nextMessageId.toNat ≠ 0 := by
        intro hzero
        exact hnext hnumbers (UInt64.toNat_inj.mp hzero)
      have hbound := h.bound
      have hlt : n + 1 < 2 ^ 64 := by
        have := h.next
        omega
      have hid : c.nextMessageId.toNat = n + 1 := by rw [h.next, Nat.mod_eq_of_lt hlt]
      refine ⟨n + 1, ?_, hlt, ?_⟩
      · rw [hids, List.map_append, h.ids, List.map_singleton, hid, List.range'_1_concat, Nat.add_comm 1 n]
      · rw [hcounter, UInt64.toNat_add, hid]
        rfl
    · rw [hanswers] at ha
      cases ha

theorem CountedTo.inSequence {c : NxfrConnection} {n : Nat} (h : CountedTo c n) : InSequence c.messageIds := by
  have hincreasing : c.messageIds.Pairwise (· < ·) := by
    have hrange := List.pairwise_lt_range' (s := 1) (n := n)
    rw [← h.ids, List.pairwise_map] at hrange
    exact hrange
  refine ⟨hincreasing, ?_, ?_, hincreasing.imp UInt64.ne_of_lt⟩
  · intro id hid
    have hhead := congrArg List.head? h.ids
    rw [List.head?_map, hid] at hhead
    cases n with
    | zero => cases hhead
    | succ n =>
      rw [List.range'_succ] at hhead
      exact UInt64.toNat_inj.mp (Option.some.inj hhead)
  · intro hzero
    have hmem : (0 : UInt64).toNat ∈ List.range' 1 n := h.ids ▸ List.mem_map_of_mem hzero
    have hpos := (List.mem_range'_1.mp hmem).1
    simp at hpos

theorem prefix_after (cbor : Format) (start : NxfrConnection) (ops₁ ops₂ : List Sending) :
    (after (NxfrConnection.perform cbor) start ops₁).messageIds <+:
      (after (NxfrConnection.perform cbor) start (ops₁ ++ ops₂)).messageIds := by
  induction ops₂ using List.reverseRecOn with
  | nil => rw [List.append_nil]
  | append_singleton ops₂ op ih =>
    rw [← List.append_assoc, after_snoc]
    exact ih.trans (NxfrConnection.perform_prefix _ op)

/-- **Message ids are in sequence exactly when no pong is sent.** Over any
control frames, chunks and keepalives, with any failures to encode between
them and the connection lost at any point, the ids sent are strictly
increasing, start at 1 and hold no zero and no repeat if and only if no
keepalive is answered and the counter does not wrap around. -/
theorem message_ids_in_sequence_iff (cbor : Format) (writesLeft : Option Nat) (ops : List Sending) :
    InSequence (after (NxfrConnection.perform cbor) (.new writesLeft) ops).messageIds ↔
      Always (NxfrConnection.perform cbor) (.new writesLeft) (Counted cbor) ops := by
  constructor
  · intro h ops₁ op ops₂ hops hlive
    subst hops
    have hsent := prefix_after cbor (.new writesLeft) (ops₁ ++ [op]) ops₂
    rw [List.append_assoc, List.singleton_append, after_snoc] at hsent
    have hzero : 0 ∉ ((after (NxfrConnection.perform cbor) (.new writesLeft) ops₁).perform cbor op).messageIds :=
      fun hmem => h.nonzero (hsent.subset hmem)
    rcases NxfrConnection.perform_live cbor hlive op with ⟨hn, ha, -⟩ | ⟨-, ha, hids, -⟩ | ⟨-, hids⟩
    · exact ⟨ha, fun hnumbers => absurd hnumbers (by simp [hn])⟩
    · refine ⟨ha, fun _ hnext => hzero ?_⟩
      rw [hids, hnext]
      simp
    · exact absurd (by rw [hids]; simp) hzero
  · intro h
    have hcounted := h.keeps (I := fun c => ∃ n, CountedTo c n) ⟨0, rfl, by decide, rfl⟩ ?_
    · obtain ⟨n, hn⟩ := hcounted
      exact hn.inSequence
    · intro c op hop ⟨n, hn⟩
      exact hn.step hop

/-- A chunk, and then a ping that is answered. -/
def answeredPing : List Sending :=
  [.chunk 7 2 0 [1], .keepalive 7 ({ kind := .keepalive, flags := 0, sessionId := 7, streamId := 0, messageId := 1
                                     payloadLen := 0 }, [])]

/-- The ids of the two frames are 1 and 0. -/
theorem pong_out_of_sequence :
    (after (NxfrConnection.perform ⟨fun _ => .error "", fun _ => .error ""⟩) (.new none) answeredPing).messageIds = [1, 0] ∧
      ¬ InSequence [1, 0] := by
  constructor
  · decide +kernel
  · intro h
    exact h.nonzero (by decide)

end Nxfr

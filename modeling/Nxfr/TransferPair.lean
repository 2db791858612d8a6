/-
The transfer machine in the sender's role joined to one in the receiver's.

The receiver sends TRANSFER_ACK as it enters Completing, when the whole-file
verification is still to come. From then on the sender may complete at any
time, so that the two agree on the outcome as long as the receiver does not
fail in Completing once its acknowledgement can be, or has been, heard.
-/
import Nxfr.Peers
import Nxfr.TransferMachine

namespace Nxfr.TransferMachine

open History Peers

/-- The machine, with what each message is to the other side. -/
def transferMachine : Machine TransferState TransferEvent TransferAction StateError where
  handle := transferHandleEvent
  sends
    | .sendTransferRequest => some .receiveTransferRequest
    | .sendTransferAccept => some .receiveTransferAccept
    | .sendTransferReject => some .receiveTransferReject
    | .sendTransferComplete => some .allChunksReceived
    | .sendTransferAck => some .ackSuccess
    | .sendTransferCancel => some .cancelReceived
    | .sendError _ => some .fatalError
    | _ => none

/-- What can happen on the sender's side alone: all but what only a message
brings and what the receiver's side does. -/
def TransferEvent.ofSender : TransferEvent → Bool
  | .receiveTransferRequest | .receiveTransferAccept | .receiveTransferReject | .ackSuccess => false
  | .userAccept | .userReject | .allChunksReceived | .ackSent => false
  | _ => true

/-- What can happen on the receiver's side alone. -/
def TransferEvent.ofReceiver : TransferEvent → Bool
  | .receiveTransferRequest | .receiveTransferAccept | .receiveTransferReject | .ackSuccess => false
  | .sendTransferRequest | .lastChunkSent | .transferCompleteSent | .ackPartialFailure => false
  | _ => true

abbrev TransferNet := Net TransferState TransferEvent
abbrev TransferMove := Move {e : TransferEvent // e.ofSender = true} {e : TransferEvent // e.ofReceiver = true}

/-- The sender is on the left. -/
def pairStep : TransferNet → TransferMove → TransferNet := transferMachine.step Subtype.val Subtype.val

/-- No transfer yet. -/
def bothIdle : TransferNet := ⟨.idle, .idle, [], []⟩

/-- The receiver's acknowledgement has completed the transfer for the sender,
or still can. -/
def Acknowledged (net : TransferNet) : Prop :=
  net.left = .complete ∨ TransferEvent.ackSuccess ∈ net.toLeft ∧ net.left.isTerminal = false

/-- What ends a transfer in Completing without success. -/
def TransferEvent.failsCompleting : TransferEvent → Bool
  | .checksumMismatch | .cancelReceived | .connectionLost | .fatalError | .timerFired .completion => true
  | _ => false

/-- The receiver does not fail on its own in Completing once it is
acknowledged. -/
def KeepsWord (net : TransferNet) : TransferMove → Prop
  | .right e => e.val.failsCompleting = true → net.right = .completing → ¬ Acknowledged net
  | _ => True

/-! ## One event -/

/-- What a message can be to the party that receives it. -/
def TransferEvent.isMessage : TransferEvent → Bool
  | .receiveTransferRequest | .receiveTransferAccept | .receiveTransferReject | .allChunksReceived | .ackSuccess
  | .cancelReceived | .fatalError => true
  | _ => false

/-- An outcome the sender's success agrees with. -/
def TransferState.succeeds : TransferState → Bool
  | .completing | .complete => true
  | _ => false

theorem take_messages (s : TransferState) (e : TransferEvent) :
    ∀ e' ∈ (transferMachine.take s e).2, e'.isMessage = true := by
  cases e with
  | timerFired t => cases s <;> cases t <;> decide
  | _ => cases s <;> decide

theorem take_terminal {s : TransferState} (h : s.isTerminal = true) (e : TransferEvent) :
    transferMachine.take s e = (s, []) := by
  have herr : transferMachine.handle s e = .error ⟨s.display, e.display⟩ := by
    simp only [transferMachine, transferHandleEvent, h, if_true]
  exact Machine.take_error herr

theorem take_giving_up (s : TransferState) (e : TransferEvent) :
    TransferEvent.cancelReceived ∈ (transferMachine.take s e).2 ∨ TransferEvent.fatalError ∈ (transferMachine.take s e).2 →
      (transferMachine.take s e).1 = .cancelled ∨ (transferMachine.take s e).1 = .failed := by
  cases e with
  | timerFired t => cases s <;> cases t <;> decide
  | _ => cases s <;> decide

theorem take_ack (s : TransferState) (e : TransferEvent) :
    TransferEvent.ackSuccess ∈ (transferMachine.take s e).2 → (transferMachine.take s e).1 = .completing := by
  cases e with
  | timerFired t => cases s <;> cases t <;> decide
  | _ => cases s <;> decide

theorem take_complete (s : TransferState) (e : TransferEvent) :
    (transferMachine.take s e).1 = .complete → s = .complete ∨ s = .completing ∧ (e = .ackSuccess ∨ e = .ackSent) := by
  cases e with
  | timerFired t => cases s <;> cases t <;> decide
  | _ => cases s <;> decide

theorem take_succeeds {s : TransferState} {e : TransferEvent} (hs : s.succeeds = true)
    (he : e.failsCompleting = false) (hack : e ≠ .ackPartialFailure) :
    (transferMachine.take s e).1.succeeds = true := by
  revert hs he hack
  cases e with
  | timerFired t => cases s <;> cases t <;> decide
  | _ => cases s <;> decide

/-! ## One move -/

/-- What every run keeps. -/
structure Agrees (net : TransferNet) : Prop where
  messages_right : ∀ e ∈ net.toRight, e.isMessage = true
  messages_left : ∀ e ∈ net.toLeft, e.isMessage = true
  /-- Whoever sends TRANSFER_CANCEL or ERROR has given up. -/
  given_up : TransferEvent.cancelReceived ∈ net.toRight ∨ TransferEvent.fatalError ∈ net.toRight →
    net.left = .cancelled ∨ net.left = .failed
  word : Acknowledged net → net.right.succeeds = true

theorem agrees_bothIdle : Agrees bothIdle where
  messages_right := nofun
  messages_left := nofun
  given_up := nofun
  word := nofun

/-- The sender takes an event, its own or a message. -/
theorem Agrees.sender {net : TransferNet} {e : TransferEvent} {rest : List TransferEvent} (h : Agrees net)
    (hrest : ∀ e' ∈ rest, e' ∈ net.toLeft) (hsent : e ≠ .ackSent) (hack : e = .ackSuccess → e ∈ net.toLeft) :
    Agrees ⟨(transferMachine.take net.left e).1, net.right, net.toRight ++ (transferMachine.take net.left e).2, rest⟩ where
  messages_right := by
    intro e' he'
    rcases List.mem_append.mp he' with he' | he'
    · exact h.messages_right e' he'
    · exact take_messages _ _ e' he'
  messages_left e' he' := h.messages_left e' (hrest e' he')
  given_up := by
    intro hmem
    simp only [List.mem_append] at hmem
    by_cases hnew : TransferEvent.cancelReceived ∈ (transferMachine.take net.left e).2 ∨
        TransferEvent.fatalError ∈ (transferMachine.take net.left e).2
    · exact take_giving_up _ _ hnew
    · have hold := h.given_up (by grind)
      have hterminal : net.left.isTerminal = true := by
        rcases hold with hold | hold <;> rw [hold] <;> rfl
      simpa only [take_terminal hterminal] using hold
  word := by
    intro hacked
    refine h.word ?_
    by_cases hterminal : net.left.isTerminal = true
    · simp only [Acknowledged, take_terminal hterminal, hterminal, Bool.true_eq_false, and_false, or_false] at hacked
      exact .inl hacked
    · rcases hacked with hdone | ⟨hmem, -⟩
      · rcases take_complete _ _ hdone with hdone | ⟨-, rfl | rfl⟩
        · exact .inl hdone
        · exact .inr ⟨hack rfl, by simpa using hterminal⟩
        · exact absurd rfl hsent
      · exact .inr ⟨hrest _ hmem, by simpa using hterminal⟩

/-- The receiver takes an event. -/
theorem Agrees.receiver {net : TransferNet} {e : TransferEvent} {rest : List TransferEvent} (h : Agrees net)
    (hrest : ∀ e' ∈ rest, e' ∈ net.toRight)
    (hkeeps : Acknowledged net → net.right.succeeds = true → (transferMachine.take net.right e).1.succeeds = true) :
    Agrees ⟨net.left, (transferMachine.take net.right e).1, rest, net.toLeft ++ (transferMachine.take net.right e).2⟩ where
  messages_right e' he' := h.messages_right e' (hrest e' he')
  messages_left := by
    intro e' he'
    rcases List.mem_append.mp he' with he' | he'
    · exact h.messages_left e' he'
    · exact take_messages _ _ e' he'
  given_up := by
    intro hmem
    exact h.given_up (hmem.imp (hrest _) (hrest _))
  word := by
    intro hacked
    by_cases hnew : TransferEvent.ackSuccess ∈ (transferMachine.take net.right e).2
    · simp only [take_ack _ _ hnew, TransferState.succeeds]
    · have hold : Acknowledged net := by
        simp only [Acknowledged, List.mem_append, hnew, or_false] at hacked
        exact hacked
      exact hkeeps hold (h.word hold)

theorem succeeds_cases {s : TransferState} (h : s.succeeds = true) : s = .completing ∨ s = .complete := by
  revert h
  cases s <;> decide

theorem Agrees.step {net : TransferNet} {mv : TransferMove} (h : Agrees net) (hkeeps : KeepsWord net mv) :
    Agrees (pairStep net mv) := by
  cases mv with
  | left e =>
    obtain ⟨e, he⟩ := e
    refine h.sender (fun _ h => h) ?_ ?_
    · rintro rfl
      cases he
    · rintro rfl
      cases he
  | right e =>
    refine h.receiver (fun _ h => h) ?_
    intro hacked hright
    obtain ⟨e, he⟩ := e
    rcases succeeds_cases hright with hcompleting | hcomplete
    · refine take_succeeds hright ?_ (by rintro rfl; cases he)
      by_contra hfails
      exact hkeeps (by simpa using hfails) hcompleting hacked
    · rw [take_terminal (by rw [hcomplete]; rfl)]
      exact hright
  | toLeft =>
    cases hto : net.toLeft with
    | nil => simpa only [pairStep, Machine.step, hto] using h
    | cons e rest =>
      have hmsg := h.messages_left e (by simp [hto])
      simp only [pairStep, Machine.step, hto]
      refine h.sender (by simp [hto]; tauto) ?_ (by simp [hto])
      rintro rfl
      cases hmsg
  | toRight =>
    cases hto : net.toRight with
    | nil => simpa only [pairStep, Machine.step, hto] using h
    | cons e rest =>
      have hmem : e ∈ net.toRight := by simp [hto]
      have hmsg := h.messages_right e hmem
      simp only [pairStep, Machine.step, hto]
      refine h.receiver (by simp [hto]; tauto) ?_
      intro hacked hright
      refine take_succeeds hright ?_ (by rintro rfl; cases hmsg)
      -- a message that fails Completing says that the sender has given up
      by_contra hfails
      have hgone : net.left = .cancelled ∨ net.left = .failed := by
        refine h.given_up ?_
        cases e <;> simp_all [TransferEvent.isMessage, TransferEvent.failsCompleting]
      rcases hgone with hgone | hgone <;> simp [Acknowledged, hgone, TransferState.isTerminal] at hacked

/-! ## Runs -/

theorem pairStep_complete {net : TransferNet} (h : net.left = .complete) (mv : TransferMove) :
    (pairStep net mv).left = .complete := by
  have hterminal : net.left.isTerminal = true := by rw [h]; rfl
  cases mv with
  | left e =>
    simp only [pairStep, Machine.step, take_terminal hterminal]
    exact h
  | right e => exact h
  | toRight =>
    simp only [pairStep, Machine.step]
    split
    · exact h
    · exact h
  | toLeft =>
    simp only [pairStep, Machine.step]
    split
    · exact h
    · simp only [take_terminal hterminal]
      exact h

theorem complete_after {ms₁ : List TransferMove} (h : (after pairStep bothIdle ms₁).left = .complete)
    (ms₂ : List TransferMove) : (after pairStep bothIdle (ms₁ ++ ms₂)).left = .complete := by
  induction ms₂ using List.reverseRecOn with
  | nil => simpa using h
  | append_singleton ms₂ mv ih =>
    rw [← List.append_assoc, after_snoc]
    exact pairStep_complete ih mv

/-- **The two sides agree on success as long as the receiver keeps its word.**
Over any order of local events and deliveries in which the receiver does not
fail in Completing once it is acknowledged, a sender in Complete has a receiver
in Completing or Complete, then and at every later point of the run. -/
theorem sender_complete_agreed {ms : List TransferMove} (h : Always pairStep bothIdle KeepsWord ms)
    {ms₁ ms₂ : List TransferMove} (hpre : ms₁ ++ ms₂ <+: ms) (hdone : (after pairStep bothIdle ms₁).left = .complete) :
    (after pairStep bothIdle (ms₁ ++ ms₂)).right = .completing ∨
      (after pairStep bothIdle (ms₁ ++ ms₂)).right = .complete := by
  obtain ⟨ms₃, rfl⟩ := hpre
  have hagrees := h.of_append.keeps agrees_bothIdle (fun _ _ hkeeps hnet => hnet.step hkeeps)
  exact succeeds_cases (hagrees.word (.inl (complete_after hdone ms₂)))

/-- A transfer up to the sender's success, with the receiver still verifying. -/
def acknowledgedRun : List TransferMove :=
  [.left ⟨.sendTransferRequest, rfl⟩, .toRight, .right ⟨.userAccept, rfl⟩, .toLeft, .left ⟨.allMetadataAcked, rfl⟩,
    .right ⟨.allMetadataAcked, rfl⟩, .left ⟨.lastChunkSent, rfl⟩, .toRight, .toLeft]

/-- The transfer ends well on both sides. -/
theorem sender_complete_agreed_verified :
    (after pairStep bothIdle (acknowledgedRun ++ [.right ⟨.ackSent, rfl⟩])).right = .completing ∨
      (after pairStep bothIdle (acknowledgedRun ++ [.right ⟨.ackSent, rfl⟩])).right = .complete := by
  refine sender_complete_agreed ?_ (List.prefix_refl (acknowledgedRun ++ [.right ⟨.ackSent, rfl⟩])) (by decide)
  refine Always.of_forall ?_
  intro mv hmv net
  simp only [acknowledgedRun, List.cons_append, List.nil_append, List.mem_cons, List.not_mem_nil, or_false] at hmv
  rcases hmv with rfl | rfl | rfl | rfl | rfl | rfl | rfl | rfl | rfl | rfl
  all_goals first | exact trivial | exact nofun

/-- The sender has completed when the receiver's verification fails. -/
theorem sender_complete_receiver_failed :
    after pairStep bothIdle acknowledgedRun = ⟨.complete, .completing, [], []⟩ ∧
      after pairStep bothIdle (acknowledgedRun ++ [.right ⟨.checksumMismatch, rfl⟩]) =
        ⟨.complete, .failed, [], [.fatalError]⟩ := by
  decide

end Nxfr.TransferMachine

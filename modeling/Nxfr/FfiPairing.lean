/-
Pairing over the C interface (`nxfr-ffi/src/lib.rs`): `nxfr_pair_begin`,
`nxfr_pair_confirm` and `nxfr_close` on one session, the reader task that
`nxfr_accept` spawns, and what the peer sends meanwhile.

The connection is an `Option` behind a mutex. The reader takes it out for the
one frame it reads and puts it back; a call looks the session up in the map
and then works under the mutex, so other steps come between the two. Sends
and the database fail or not as the event says.

`nxfr_pair_confirm` never looks at what the peer sent. It stores the peer
after PAIR_ACCEPT of the peer exactly when it is called after it.
-/
import Nxfr.History
import Nxfr.Messages

namespace Nxfr.FfiPairing

open History

/-- What the reader task pushes to the event queue. -/
inductive FfiEvent where
  | offer (displayName : String) (totalSize totalFiles : Nat) (peerName : String)
  | pairRequest (sasCode peerName : String)
  | error (msg : String)

/-- The reader task: not spawned (`nxfr_connect` spawns none), spawned, in
`recv_frame` with the connection, before it puts it back, done. -/
inductive Reader where
  | absent | spawned | reading | returning | done
  deriving DecidableEq

/-- A call past its look-up; of `nxfr_close` the task it spawns. -/
inductive Call where
  | pairBegin
  | pairConfirm (accepted : Bool)
  | close
  deriving DecidableEq

/-- What a call answers: `json_ok` with the SAS code or the status. -/
inductive Reply where
  | sasCode (code : String)
  | status (text : String)

structure Session where
  /-- The handle is in the map. -/
  isOpen : Bool
  /-- The `Option` behind the mutex is a connection. -/
  hasConn : Bool
  reader : Reader
  /-- All frames the peer has sent, and how many the reader has read. -/
  incoming : List Frame
  consumed : Nat
  sent : List ControlMessage
  calls : List Call
  events : List FfiEvent
  replies : List (Except String Reply)
  /-- The peer is in paired.db by this session. -/
  stored : Bool

/-- A session from `nxfr_connect` or from `nxfr_accept`. -/
inductive Role where
  | initiator | responder

def start (role : Role) : Session :=
  { isOpen := true
    hasConn := true
    reader := match role with
      | .initiator => .absent
      | .responder => .spawned
    incoming := []
    consumed := 0
    sent := []
    calls := []
    events := []
    replies := []
    stored := false }

inductive Event where
  /-- The peer sends a frame. -/
  | incoming (f : Frame)
  /-- A call looks the session up. -/
  | call (c : Call)
  /-- The `i`-th call under way works under the mutex: its send fails with a
  text or not, and `store_dir` is a text whose paired.db opens and takes the
  device, or not. -/
  | run (i : Nat) (send : Except String Unit) (stores : Bool)
  | readerTakes
  | readerReads
  /-- `recv_frame` fails. -/
  | readerFails
  | readerReturns

section

-- The peer's name, and the SAS code or why the TLS exporter failed.
variable (peerName : String) (sas : Except String String)

def Session.reply (s : Session) (r : Except String Reply) : Session := { s with replies := s.replies ++ [r] }

def Session.send (s : Session) (m : ControlMessage) : Session := { s with sent := s.sent ++ [m] }

/-- `nxfr_pair_begin` under the mutex. -/
def pairBegin (send : Except String Unit) (s : Session) : Session :=
  if s.hasConn then match send with
    | .error e => s.reply (.error ("send PairRequest: " ++ e))
    | .ok () => match sas with
      | .error e => (s.send (.pairRequest "numeric-6")).reply (.error e)
      | .ok code => (s.send (.pairRequest "numeric-6")).reply (.ok (.sasCode code))
  else s.reply (.error "connection not available")

/-- `nxfr_pair_confirm` under the mutex and after it. -/
def pairConfirm (accepted : Bool) (send : Except String Unit) (stores : Bool) (s : Session) : Session :=
  if s.hasConn then match send with
    | .error e => s.reply (.error ("send: " ++ e))
    | .ok () =>
      let s := s.send (if accepted then .pairAccept else .pairReject none)
      let s := if accepted ∧ stores then { s with stored := true } else s
      s.reply (.ok (.status (if accepted then "pair_confirmed" else "pair_rejected")))
  else s.reply (.error "connection not available")

/-- The task of `nxfr_close`. -/
def close (send : Except String Unit) (s : Session) : Session :=
  let s := match s.hasConn, send with
    | true, .ok () => s.send (.sessionClose none)
    | _, _ => s
  { s with hasConn := false }

def runCall (c : Call) (send : Except String Unit) (stores : Bool) (s : Session) : Session := match c with
  | .pairBegin => pairBegin sas send s
  | .pairConfirm accepted => pairConfirm accepted send stores s
  | .close => close send s

/-- A call looks the session up; `nxfr_close` takes it out of the map. -/
def enterCall (c : Call) (s : Session) : Session :=
  if s.isOpen then match c with
    | .close => { (s.reply (.ok (.status "closed"))) with isOpen := false, calls := s.calls ++ [.close] }
    | c => { s with calls := s.calls ++ [c] }
  else match c with
    | .close => s.reply (.ok (.status "closed"))
    | _ => s.reply (.error "invalid session handle")

/-- The frame the reader has read. A failed exporter drops the connection
with the task. -/
def readFrame (f : Frame) (s : Session) : Session := match f.kind, f.control with
  | .control, .ok (.transferRequest _ _ displayName totalFiles totalSize _) =>
    { s with reader := .returning, events := s.events ++ [.offer displayName totalSize totalFiles peerName] }
  | .control, .ok (.pairRequest _) => match sas with
    | .ok code => { s with reader := .returning, events := s.events ++ [.pairRequest code peerName] }
    | .error e => { s with reader := .done, events := s.events ++ [.error ("SAS derivation failed: " ++ e)] }
  | .control, _ => { s with reader := .returning }
  | _, _ => { s with reader := .returning, events := s.events ++ [.error "connection closed before offer"] }

def step (s : Session) : Event → Session
  | .incoming f => { s with incoming := s.incoming ++ [f] }
  | .call c => enterCall c s
  | .run i send stores => match s.calls[i]? with
    | some c => runCall sas c send stores { s with calls := s.calls.eraseIdx i }
    | none => s
  | .readerTakes => match s.reader with
    | .spawned => if s.hasConn then { s with hasConn := false, reader := .reading } else { s with reader := .done }
    | _ => s
  | .readerReads => match s.reader, s.incoming[s.consumed]? with
    | .reading, some f => readFrame peerName sas f { s with consumed := s.consumed + 1 }
    | _, _ => s
  | .readerFails => match s.reader with
    | .reading => { s with reader := .returning, events := s.events ++ [.error "connection closed before offer"] }
    | _ => s
  | .readerReturns => match s.reader with
    -- `strong_count` is 1: the session is gone from the map and no call has it.
    | .returning => if s.isOpen = false ∧ s.calls = [] then { s with reader := .done }
      else { s with reader := .done, hasConn := true }
    | _ => s

end

/-- The peer has sent PAIR_ACCEPT in the session. -/
def Session.peerAccepted (s : Session) : Prop := ∃ f ∈ s.incoming, f.kind = .control ∧ f.control = .ok .pairAccept

/-- The peer is stored only where it has accepted. -/
def Session.mutual (s : Session) : Prop := s.stored = true → s.peerAccepted

/-- A `nxfr_pair_confirm` with a yes, that finds the connection, can write to
it and can store, comes after PAIR_ACCEPT of the peer. -/
def InOrder (s : Session) (e : Event) : Prop :=
  ∀ i, e = .run i (.ok ()) true → s.calls[i]? = some (.pairConfirm true) → s.hasConn = true → s.peerAccepted

/-! ## What a step does to the store -/

section

variable {peerName : String} {sas : Except String String} {s : Session}

theorem Session.peerAccepted_mono {s' : Session} (h : s.incoming ⊆ s'.incoming) (ha : s.peerAccepted) : s'.peerAccepted := by
  obtain ⟨f, hf, hcontrol⟩ := ha
  exact ⟨f, h hf, hcontrol⟩

theorem runCall_incoming {c : Call} {send : Except String Unit} {stores : Bool} :
    (runCall sas c send stores s).incoming = s.incoming := by
  cases c with
  | pairBegin =>
    simp only [runCall, pairBegin]
    split
    · split
      · rfl
      · split <;> rfl
    · rfl
  | pairConfirm accepted =>
    simp only [runCall, pairConfirm]
    split
    · split
      · rfl
      · split <;> rfl
    · rfl
  | close =>
    simp only [runCall, close]
    split <;> rfl

theorem runCall_stored {c : Call} {send : Except String Unit} {stores : Bool}
    (h : (runCall sas c send stores s).stored = true) :
    s.stored = true ∨ (c = .pairConfirm true ∧ send = .ok () ∧ stores = true ∧ s.hasConn = true) := by
  cases c with
  | pairBegin =>
    simp only [runCall, pairBegin] at h
    split at h
    · split at h
      · exact .inl h
      · split at h <;> exact .inl h
    · exact .inl h
  | pairConfirm accepted =>
    simp only [runCall, pairConfirm] at h
    split at h
    · rename_i hconn
      split at h
      · exact .inl h
      · split at h
        · rename_i hyes
          exact .inr ⟨by rw [hyes.1], rfl, hyes.2, hconn⟩
        · exact .inl h
    · exact .inl h
  | close =>
    simp only [runCall, close] at h
    split at h <;> exact .inl h

theorem enterCall_frame {c : Call} : (enterCall c s).incoming = s.incoming ∧ (enterCall c s).stored = s.stored := by
  unfold enterCall
  split
  · split <;> exact ⟨rfl, rfl⟩
  · split <;> exact ⟨rfl, rfl⟩

theorem readFrame_frame {f : Frame} :
    (readFrame peerName sas f s).incoming = s.incoming ∧ (readFrame peerName sas f s).stored = s.stored := by
  unfold readFrame
  split
  · exact ⟨rfl, rfl⟩
  · split <;> exact ⟨rfl, rfl⟩
  · exact ⟨rfl, rfl⟩
  · exact ⟨rfl, rfl⟩

theorem step_incoming (e : Event) : s.incoming ⊆ (step peerName sas s e).incoming := by
  cases e with
  | incoming f => exact List.subset_append_left _ _
  | call c =>
    simp only [step, enterCall_frame.1]
    exact List.Subset.refl _
  | run i send stores =>
    simp only [step]
    split
    · rw [runCall_incoming]
      exact List.Subset.refl _
    · exact List.Subset.refl _
  | readerTakes =>
    simp only [step]
    split
    · split <;> exact List.Subset.refl _
    · exact List.Subset.refl _
  | readerReads =>
    simp only [step]
    split
    · rw [readFrame_frame.1]
      exact List.Subset.refl _
    · exact List.Subset.refl _
  | readerFails =>
    simp only [step]
    split <;> exact List.Subset.refl _
  | readerReturns =>
    simp only [step]
    split
    · split <;> exact List.Subset.refl _
    · exact List.Subset.refl _

/-- The peer comes into the store only by a `nxfr_pair_confirm` with a yes that
finds the connection and whose send and insertion are done. -/
theorem step_stored {e : Event} (h : (step peerName sas s e).stored = true) :
    s.stored = true ∨ ∃ i, e = .run i (.ok ()) true ∧ s.calls[i]? = some (.pairConfirm true) ∧ s.hasConn = true := by
  cases e with
  | incoming f => exact .inl h
  | call c => exact .inl (enterCall_frame.2 ▸ h)
  | run i send stores =>
    simp only [step] at h
    split at h
    · rename_i c hc
      rcases runCall_stored h with hs | ⟨rfl, rfl, rfl, hconn⟩
      · exact .inl hs
      · exact .inr ⟨i, rfl, hc, hconn⟩
    · exact .inl h
  | readerTakes =>
    simp only [step] at h
    split at h
    · split at h <;> exact .inl h
    · exact .inl h
  | readerReads =>
    simp only [step] at h
    split at h
    · rw [readFrame_frame.2] at h
      exact .inl h
    · exact .inl h
  | readerFails =>
    simp only [step] at h
    split at h <;> exact .inl h
  | readerReturns =>
    simp only [step] at h
    split at h
    · split at h <;> exact .inl h
    · exact .inl h

theorem Session.mutual_step {e : Event} (he : InOrder s e) (h : s.mutual) : (step peerName sas s e).mutual := by
  intro hstored
  refine Session.peerAccepted_mono (step_incoming e) ?_
  rcases step_stored hstored with hs | ⟨i, hi, hcall, hconn⟩
  · exact h hs
  · exact he i hi hcall hconn

/-- A confirmation that finds the connection stores the peer, whatever the
peer sent. -/
theorem step_confirms {i : Nat} (hcall : s.calls[i]? = some (.pairConfirm true)) (hconn : s.hasConn = true) :
    (step peerName sas s (.run i (.ok ()) true)).stored = true ∧
      (step peerName sas s (.run i (.ok ()) true)).incoming = s.incoming := by
  simp [step, hcall, runCall, pairConfirm, hconn, Session.send, Session.reply]

end

/-- **Who is stored has accepted, when the calls come in order.** In a session
of either role, after every part of a run the peer is stored only where it has
sent PAIR_ACCEPT, if and only if every `nxfr_pair_confirm` with a yes that finds
the connection and can send and store comes after PAIR_ACCEPT of the peer. -/
theorem stored_mutual_iff (peerName : String) (sas : Except String String) (role : Role) (es : List Event) :
    (∀ es₁, es₁ <+: es → (after (step peerName sas) (start role) es₁).mutual) ↔
      Always (step peerName sas) (start role) InOrder es := by
  constructor
  · intro h es₁ e es₂ hes i he hcall hconn
    subst he
    have hmutual := h (es₁ ++ [.run i (.ok ()) true]) ⟨es₂, by simp [hes]⟩
    rw [after_snoc] at hmutual
    obtain ⟨hstored, hincoming⟩ := step_confirms hcall hconn
    obtain ⟨f, hf, haccept⟩ := hmutual hstored
    exact ⟨f, hincoming ▸ hf, haccept⟩
  · intro h es₁ hpre
    obtain ⟨es₂, rfl⟩ := hpre
    exact h.of_append.keeps (fun hs => by cases role <;> cases hs) fun s e he hs => Session.mutual_step he hs

/-! ## A run -/

/-- A PAIR_REQUEST of the peer; the reader brings it in. -/
def requestFrame : Frame :=
  { kind := .control, flags := 0, streamId := 0, messageId := 0, payload := [], control := .ok (.pairRequest "numeric-6") }

/-- The user confirms before the peer has answered. -/
def hasty : List Event :=
  [.readerTakes, .incoming requestFrame, .readerReads, .readerReturns, .call (.pairConfirm true), .run 0 (.ok ()) true]

/-- The peer has only asked, and is stored. -/
theorem stored_unaccepted : ¬ (after (step "peer" (.ok "042857")) (start .responder) hasty).mutual := by
  intro h
  obtain ⟨f, hf, _, haccept⟩ := h rfl
  have hincoming : (after (step "peer" (.ok "042857")) (start .responder) hasty).incoming = [requestFrame] := rfl
  rw [hincoming, List.mem_singleton] at hf
  subst hf
  cases haccept

end Nxfr.FfiPairing

/-
Pairing between two daemons: the initiator is `cmd_pair_streaming` (`ipc.rs`)
from its PAIR_REQUEST on, the responder the PAIR_REQUEST branch of
`handle_incoming` (`handler.rs`) with the message loop around it.

Each side is at one of its await points and goes on from there by an event. A
send, a write to the IPC client, a read or an insertion succeeds or fails at
any time, so the connection may be lost anywhere; the two timers may fire at
any time. A side reads what the other sent, in order. The lines of the
initiator's IPC client wait from the `pair` command on until
`wait_for_pair_confirm` reads them. The responder's daemon has other tasks, and
among them other sessions of the same peer: they take any steps on the prompts,
and watchers come and go. Its user answers a prompt that was published, with a
command that has only the key of the prompt.

The frames of `send_control` decode as the messages they were made from, so
the messages themselves are on the connection.
-/
import Nxfr.Messages
import Nxfr.Prompts

namespace Nxfr.Pairing

/-- The fields of an `IpcRequest` that `wait_for_pair_confirm` reads. -/
structure IpcRequest where
  cmd : String
  accepted : Option Bool

/-- One turn of `wait_for_pair_confirm`: what a line answers, if it does.
`request` is what `serde_json` makes of a line once it is trimmed, and makes
nothing of an empty one. -/
def pairConfirm (request : String → Option IpcRequest) (line : String) : Option Bool := match request line with
  | some req => if req.cmd = "pair_confirm" then some (req.accepted.getD false) else none
  | none => none

/-- Where `cmd_pair_streaming` is: before PAIR_REQUEST, before the prompt is
pushed, in `wait_for_pair_confirm`, before PAIR_ACCEPT, in the wait for the
peer's, before the insertion, before PairSuccess, before PAIR_REJECT, before
PairFailed, before SESSION_CLOSE, returned. -/
inductive Initiator where
  | connected | requested | prompting | accepting | awaiting | storing | informing
  | rejecting | failing | closing | over
  deriving DecidableEq

/-- Where `handle_incoming` is: at the top of the message loop, before the
rejection of a method, before the look at the watchers, before the prompt is
published, in the wait for consent, before PAIR_ACCEPT, in the wait for the
peer's, before the insertion, before PAIR_REJECT, before its SESSION_CLOSE,
returned, or in a transfer. -/
inductive Responder where
  | listening | unsupported | asked | publishing | waiting (w : Nat) | accepting | awaiting | storing
  | rejecting | closing | over | elsewhere
  deriving DecidableEq

/-- Both sides with all they have sent and how much of it was read, whether
each has inserted the other, the lines of the initiator's IPC client that are
still to be read, and the responder's watchers and prompts. -/
structure System where
  initiator : Initiator
  responder : Responder
  initiatorSent : List ControlMessage
  responderRead : Nat
  responderSent : List ControlMessage
  initiatorRead : Nat
  initiatorPaired : Bool
  responderPaired : Bool
  lines : List String
  watchers : Nat
  prompts : Prompts.State

def start (watchers now : Nat) : System :=
  { initiator := .connected
    responder := .listening
    initiatorSent := []
    responderRead := 0
    responderSent := []
    initiatorRead := 0
    initiatorPaired := false
    responderPaired := false
    lines := []
    watchers
    prompts := Prompts.start now }

/-- What happens to the initiator: its next send, write or insertion is done
or fails, or its read fails; its IPC client writes a line; the next line is
read; the lines end or cannot be read; the timer; the next frame. -/
inductive InitiatorEvent where
  | proceed
  | fail
  | line (text : String)
  | nextLine
  | linesEnd
  | timeout
  | receive

/-- The same for the responder; it publishes its prompt as waiter `w`. -/
inductive ResponderEvent where
  | proceed
  | fail
  | receive
  | publish (w : Nat)

/-- What happens next. `answer w c accepted`: the responder's user answers the
prompt of waiter `w`, with command `c`. -/
inductive Event where
  | initiator (e : InitiatorEvent)
  | responder (e : ResponderEvent)
  | prompts (e : Prompts.Event)
  | answer (w c : Nat) (accepted : Bool)
  | watchers (n : Nat)

def System.sendInitiator (s : System) (m : ControlMessage) (next : Initiator) : System :=
  { s with initiator := next, initiatorSent := s.initiatorSent ++ [m] }

def System.sendResponder (s : System) (m : ControlMessage) (next : Responder) : System :=
  { s with responder := next, responderSent := s.responderSent ++ [m] }

/-- What a send, a write or an insertion of the initiator that is done leads
to. -/
def initiatorProceeds (s : System) : System := match s.initiator with
  | .connected => s.sendInitiator (.pairRequest "numeric-6") .requested
  | .requested => { s with initiator := .prompting }
  | .accepting => s.sendInitiator .pairAccept .awaiting
  | .storing => { s with initiator := .informing, initiatorPaired := true }
  | .informing => { s with initiator := .closing }
  | .rejecting => s.sendInitiator (.pairReject (some "user_rejected")) .failing
  | .failing => { s with initiator := .closing }
  | .closing => s.sendInitiator (.sessionClose (some "pairing_complete")) .over
  | .prompting | .awaiting | .over => s

/-- A failed insertion is only logged; any other failure returns. -/
def initiatorFails (s : System) : System := match s.initiator with
  | .storing => { s with initiator := .informing }
  | .prompting => s
  | _ => { s with initiator := .over }

def initiatorStep (request : String → Option IpcRequest) (s : System) : InitiatorEvent → System
  | .proceed => initiatorProceeds s
  | .fail => initiatorFails s
  | .line text => { s with lines := s.lines ++ [text] }
  | .nextLine => match s.initiator, s.lines with
    | .prompting, text :: rest => match pairConfirm request text with
      | some true => { s with initiator := .accepting, lines := rest }
      | some false => { s with initiator := .rejecting, lines := rest }
      | none => { s with lines := rest }
    | _, _ => s
  | .linesEnd | .timeout => match s.initiator with
    | .prompting => { s with initiator := .rejecting }
    | _ => s
  | .receive => match s.initiator, s.responderSent[s.initiatorRead]? with
    | .awaiting, some m =>
      let next := if m = .pairAccept then .storing else .over
      { s with initiator := next, initiatorRead := s.initiatorRead + 1 }
    | _, _ => s

/-- A message in the message loop. -/
def onMessage : ControlMessage → Responder
  | .pairRequest sasMethod => if sasMethod ≠ "numeric-6" ∧ sasMethod ≠ "sas-v0" then .unsupported else .asked
  | .sessionClose _ => .closing
  | .transferRequest .. | .resumeQuery .. => .elsewhere
  | _ => .listening

/-- `matches!(consent_result, Ok(Ok(true)))`. -/
def isConsent : Prompts.Ending → Bool
  | .answered _ accepted => accepted
  | _ => false

/-- What a send or an insertion of the responder that is done, the look at the
watchers, or the end of its wait for consent leads to. -/
def responderProceeds (s : System) : System := match s.responder with
  | .unsupported => s.sendResponder (.pairReject (some "unsupported_sas_method")) .listening
  -- With no watchers attached it accepts directly.
  | .asked => { s with responder := if s.watchers = 0 then .accepting else .publishing }
  | .waiting w => match s.prompts.waiters w with
    | some { stage := .over e, .. } => { s with responder := if isConsent e then .accepting else .rejecting }
    | _ => s
  | .accepting => s.sendResponder .pairAccept .awaiting
  | .storing => { s with responder := .listening, responderPaired := true }
  | .rejecting => s.sendResponder (.pairReject (some "user_declined")) .listening
  | .closing => s.sendResponder (.sessionClose (some "normal")) .over
  | .listening | .publishing | .awaiting | .over | .elsewhere => s

/-- The result of the insertion is dropped; any other failure returns. -/
def responderFails (s : System) : System := match s.responder with
  | .storing => { s with responder := .listening }
  | .waiting _ | .publishing | .elsewhere => s
  | _ => { s with responder := .over }

def responderStep (peerIdHex : String) (s : System) : ResponderEvent → System
  | .proceed => responderProceeds s
  | .fail => responderFails s
  | .receive => match s.responder, s.initiatorSent[s.responderRead]? with
    | .listening, some m => { s with responder := onMessage m, responderRead := s.responderRead + 1 }
    | .awaiting, some m =>
      let next := if m = .pairAccept then .storing else .listening
      { s with responder := next, responderRead := s.responderRead + 1 }
    | _, _ => s
  | .publish w => match s.responder, s.prompts.waiters w with
    | .publishing, none =>
      { s with responder := .waiting w, prompts := Prompts.step s.prompts (.publish w (.pair peerIdHex)) }
    | _, _ => s

/-- `transfer_confirm` for a prompt that a watcher was shown. -/
def answerStep (s : System) (w c : Nat) (accepted : Bool) : System := match s.prompts.waiters w with
  | some r => { s with prompts := Prompts.step s.prompts (.confirm c r.ask.key accepted) }
  | none => s

/-- One event; `peerIdHex` is the initiator's identity as the responder has
it from the certificate. -/
def step (request : String → Option IpcRequest) (peerIdHex : String) (s : System) : Event → System
  | .initiator e => initiatorStep request s e
  | .responder e => responderStep peerIdHex s e
  | .prompts e => { s with prompts := Prompts.step s.prompts e }
  | .answer w c accepted => answerStep s w c accepted
  | .watchers n => { s with watchers := n }

end Nxfr.Pairing

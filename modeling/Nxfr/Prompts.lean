/-
The prompts of the daemon: `pending_offers` and what four places do with it.
A connection publishes an offer or a pairing prompt and waits for the answer
(`handle_incoming`), `transfer_confirm` answers one by its key (`ipc.rs`), and
a task rejects those that are too old (`main.rs`).

The tasks take the lock for one statement or two at a time, so a step of the
system is what one task does under one lock, or between two. A waiter is one
round of publishing and waiting; a command is one `transfer_confirm` past its
first lock with the sender in its hands. An offer leaves the map with its
sender, if it still has it, and a sender that is dropped ends the wait of its
receiver. The clock counts nanoseconds.
-/
import Nxfr.Journal

namespace Nxfr.Prompts

/-- What a connection asks the user. -/
inductive Ask where
  | transfer (transferId : TransferId)
  | pair (peerIdHex : String)

/-- The key in `pending_offers`. -/
def Ask.key : Ask → String
  | .transfer transferId => hexEncode transferId.bytes
  | .pair peerIdHex => "pair-" ++ peerIdHex

/-- How long the user has. -/
def Ask.lifetime : Ask → Nat
  | .transfer _ => 120 * 1000000000
  | .pair _ => 60 * 1000000000

/-- How a wait comes to its end: by a command's answer, by the expiry task's
`false`, by the loss of the sender, or by the timer. -/
inductive Ending where
  | answered (command : Nat) (accepted : Bool)
  | expired
  | senderLost
  | timeout
  deriving DecidableEq

/-- Where a waiter is: on `consent_rx`, with the channel still silent or
already ended; past it, with its entry still to be removed; past that. -/
inductive Stage where
  | waiting
  | notified (e : Ending)
  | resolved (e : Ending)
  | over (e : Ending)
  deriving DecidableEq

def Stage.ending : Stage → Option Ending
  | .waiting => none
  | .notified e | .resolved e | .over e => some e

def Stage.isOver : Stage → Bool
  | .over _ => true
  | _ => false

structure Waiter where
  ask : Ask
  expiresAt : Nat
  stage : Stage

/-- A `PendingOffer`: whose sender it has or had, and whether it still has
it. -/
structure Offer where
  owner : Nat
  hasSender : Bool
  expiresAt : Nat

/-- A command that took a sender: before the send, before the second lock,
and after it. -/
inductive CommandStage where
  | holding | sent | finished
  deriving DecidableEq

structure Command where
  key : String
  accepted : Bool
  owner : Nat
  stage : CommandStage

structure State where
  now : Nat
  offers : String → Option Offer
  waiters : Nat → Option Waiter
  commands : Nat → Option Command

def start (now : Nat) : State :=
  { now, offers := fun _ => none, waiters := fun _ => none, commands := fun _ => none }

namespace State

def setOffer (s : State) (key : String) (o : Option Offer) : State :=
  { s with offers := fun k => if k = key then o else s.offers k }

def setStage (s : State) (w : Nat) (stage : Stage) : State :=
  { s with waiters := fun v => if v = w then (s.waiters v).map fun r => { r with stage } else s.waiters v }

def setCommand (s : State) (c : Nat) (command : Command) : State :=
  { s with commands := fun d => if d = c then some command else s.commands d }

/-- The channel of a waiter ends, where it is still waiting. -/
def notify (s : State) (w : Nat) (e : Ending) : State := match s.waiters w with
  | some { stage := .waiting, .. } => s.setStage w (.notified e)
  | _ => s

/-- The entry under a key leaves the map, and its sender with it. -/
def dropOffer (s : State) (key : String) : State := match s.offers key with
  | some o => if o.hasSender then (s.setOffer key none).notify o.owner .senderLost else s.setOffer key none
  | none => s

/-- The entry of a waiter is its own, has its sender, and is too old. -/
def expiredOwn (s : State) (w : Nat) (r : Waiter) : Bool := match s.offers r.ask.key with
  | some o => o.owner == w && o.hasSender && decide (o.expiresAt ≤ s.now)
  | none => false

end State

/-- What happens next. -/
inductive Event where
  /-- A connection publishes, under the lock. -/
  | publish (w : Nat) (ask : Ask)
  /-- A waiter finds its channel ended. -/
  | wake (w : Nat)
  /-- The timer of a waiter ends first. -/
  | timeout (w : Nat)
  /-- A waiter removes its entry. -/
  | cleanup (w : Nat)
  /-- `transfer_confirm` takes the sender, under its first lock. -/
  | confirm (c : Nat) (key : String) (accepted : Bool)
  /-- It sends the answer. -/
  | confirmSend (c : Nat)
  /-- It removes the entry, under its second lock. -/
  | confirmRemove (c : Nat)
  /-- The expiry task removes what is too old, under the lock. -/
  | expire
  | tick (elapsed : Nat)

/-- One step; an event whose task is not there leaves everything as it is. -/
def step (s : State) : Event → State
  | .publish w ask => match s.waiters w with
    | some _ => s
    | none =>
      let expiresAt := s.now + ask.lifetime
      let s := s.dropOffer ask.key
      let s := s.setOffer ask.key (some { owner := w, hasSender := true, expiresAt })
      { s with waiters := fun v => if v = w then some { ask, expiresAt, stage := .waiting } else s.waiters v }
  | .wake w => match s.waiters w with
    | some { stage := .notified e, .. } => s.setStage w (.resolved e)
    | _ => s
  | .timeout w => match s.waiters w with
    | some { stage := .waiting, expiresAt, .. } => if expiresAt ≤ s.now then s.setStage w (.resolved .timeout) else s
    | _ => s
  | .cleanup w => match s.waiters w with
    | some { stage := .resolved e, ask, .. } => (s.dropOffer ask.key).setStage w (.over e)
    | _ => s
  | .confirm c key accepted => match s.commands c, s.offers key with
    | none, some o =>
      if o.hasSender then
        (s.setOffer key (some { o with hasSender := false })).setCommand c { key, accepted, owner := o.owner, stage := .holding }
      else s
    | _, _ => s
  | .confirmSend c => match s.commands c with
    | some k => if k.stage = .holding then (s.notify k.owner (.answered c k.accepted)).setCommand c { k with stage := .sent } else s
    | none => s
  | .confirmRemove c => match s.commands c with
    | some k => if k.stage = .sent then (s.dropOffer k.key).setCommand c { k with stage := .finished } else s
    | none => s
  | .expire =>
    { s with
      offers := fun key => (s.offers key).filter fun o => decide (s.now < o.expiresAt)
      waiters := fun w => (s.waiters w).map fun r =>
        if r.stage = .waiting ∧ s.expiredOwn w r = true then { r with stage := .notified .expired } else r }
  | .tick elapsed => { s with now := s.now + elapsed }

end Nxfr.Prompts

/-
The watchers of the daemon: how an offer in `pending_offers` comes before the
clients that watch.

A connection inserts its offer under the lock of `pending_offers` and then
sends it to every channel in `watchers`, under that lock (`handle_incoming`,
`broadcast_to_watchers`). A client that comes to watch adds its channel to
`watchers`, under that lock, and then writes out the offers that still have
their sender, under the other (`cmd_watch`); from then on its task writes what
arrives on the channel. Neither holds both locks. The prompts themselves are
those of `Nxfr.Prompts`; here a step may also be one of the watchers'.

That a connection publishes only where `watchers` is not empty is left out:
without the check there are only more runs.
-/
import Nxfr.Prompts

namespace Nxfr.Watchers

open Prompts (Ask Offer)

/-- What a watcher is told: the offer of a waiter, or something else. -/
inductive Notice where
  | offer (waiter : Nat)
  | other
  deriving DecidableEq

/-- The capacity of a watcher's channel. -/
def channelCapacity : Nat := 64

/-- A `watch` command: whether it has replayed the pending offers, what waits
in its channel, what it has written to its client, and whether it has ended
and dropped the receiver. -/
structure Client where
  replayed : Bool
  inbox : List Notice
  shown : List Notice
  gone : Bool
  deriving DecidableEq

/-- `try_send` succeeds: the channel is neither full nor closed. -/
def Client.accepts (k : Client) : Bool := !k.gone && decide (k.inbox.length < channelCapacity)

/-- The response to `transfer_confirm`. -/
inductive Reply where
  | ok (transferId : String) (accepted : Bool)
  | err (error : String)
  deriving DecidableEq

def alreadyResolved : Reply := .err "offer already resolved or not found"

/-- `keys` are those that offers were ever published under, `publishing` the
waiters between their insertion and their broadcast, `used` the answer
channels that were sent on, by their waiters. -/
structure State where
  prompts : Prompts.State
  keys : List String
  publishing : List Nat
  watchers : List Nat
  clients : Nat → Option Client
  used : List Nat
  replies : Nat → Option Reply

def start (now : Nat) : State :=
  { prompts := Prompts.start now, keys := [], publishing := [], watchers := [], clients := fun _ => none, used := [],
    replies := fun _ => none }

namespace State

/-- Whose sender the entry under a key has. -/
def respondTo (s : State) (key : String) : Option Nat := match s.prompts.offers key with
  | some o => if o.hasSender then some o.owner else none
  | none => none

/-- Whose sender the expiry task finds under a key. -/
def expired (s : State) (key : String) : Option Nat := match s.prompts.offers key with
  | some o => if o.hasSender && decide (o.expiresAt ≤ s.prompts.now) then some o.owner else none
  | none => none

def setClient (s : State) (c : Nat) (k : Client) : State :=
  { s with clients := fun d => if d = c then some k else s.clients d }

/-- `try_send` to a client's channel succeeds. -/
def canSend (s : State) (c : Nat) : Bool := match s.clients c with
  | some k => k.accepts
  | none => false

def broadcastToWatchers (s : State) (n : Notice) : State :=
  { s with
    watchers := s.watchers.filter s.canSend
    clients := fun c =>
      if s.watchers.contains c && s.canSend c then (s.clients c).map fun k => { k with inbox := k.inbox ++ [n] }
      else s.clients c }

/-- The answer channels that a step sends on. -/
def sends (s : State) : Prompts.Event → List Nat
  | .confirmSend c => match s.prompts.commands c with
    | some k => if k.stage = .holding then [k.owner] else []
    | none => []
  | .expire => s.keys.filterMap s.expired
  | _ => []

/-- The response that a step of `transfer_confirm` gives. -/
def reply (s : State) : Prompts.Event → Option (Nat × Reply)
  | .confirm c key _ => match s.prompts.commands c, s.respondTo key with
    | none, none => some (c, alreadyResolved)
    | _, _ => none
  | .confirmRemove c => match s.prompts.commands c with
    | some k => if k.stage = .sent then some (c, .ok k.key k.accepted) else none
    | none => none
  | _ => none

/-- A connection waits only after its broadcast, and a command that has its
response does not start again. -/
def mayHappen (s : State) : Prompts.Event → Bool
  | .wake w | .timeout w => !s.publishing.contains w
  | .confirm c _ _ => (s.replies c).isNone
  | _ => true

/-- The keys and the unfinished publications after a step of the prompts. -/
def published (s : State) : Prompts.Event → State
  | .publish w ask => match s.prompts.waiters w with
    | some _ => s
    | none => { s with keys := s.keys.insert ask.key, publishing := s.publishing ++ [w] }
  | _ => s

def replied (s : State) (r : Option (Nat × Reply)) : State := match r with
  | some (c, reply) => { s with replies := fun d => if d = c then some reply else s.replies d }
  | none => s

end State

/-- What happens next. -/
inductive Event where
  /-- A step of a connection, a command or the expiry task. -/
  | prompt (e : Prompts.Event)
  /-- A connection sends its offer to the watchers. -/
  | broadcast (w : Nat)
  /-- Somebody sends the watchers something else. -/
  | tell
  /-- `watch` adds its channel. -/
  | register (c : Nat)
  /-- `watch` writes out the pending offers. -/
  | replay (c : Nat)
  /-- The task of a watcher writes what comes next in its channel. -/
  | forward (c : Nat)
  /-- A watcher ends. -/
  | leave (c : Nat)

/-- One step; an event whose task is not there leaves everything as it is. -/
def step (s : State) : Event → State
  | .prompt e =>
    if s.mayHappen e then
      { (s.published e).replied (s.reply e) with prompts := Prompts.step s.prompts e, used := s.used ++ s.sends e }
    else s
  | .broadcast w =>
    if s.publishing.contains w then { s.broadcastToWatchers (.offer w) with publishing := s.publishing.erase w } else s
  | .tell => s.broadcastToWatchers .other
  | .register c => match s.clients c with
    | some _ => s
    | none => { s.setClient c { replayed := false, inbox := [], shown := [], gone := false } with watchers := s.watchers ++ [c] }
  | .replay c => match s.clients c with
    | some k =>
      if !k.replayed && !k.gone then
        s.setClient c { k with replayed := true, shown := k.shown ++ (s.keys.filterMap s.respondTo).map .offer }
      else s
    | none => s
  | .forward c => match s.clients c with
    | some k => match k.inbox with
      | n :: inbox => if k.replayed && !k.gone then s.setClient c { k with inbox, shown := k.shown ++ [n] } else s
      | [] => s
    | none => s
  | .leave c => match s.clients c with
    | some k => s.setClient c { k with gone := true }
    | none => s

end Nxfr.Watchers

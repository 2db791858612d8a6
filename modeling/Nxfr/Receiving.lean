/-
Turning receiving on and off: the flag `receiving_enabled` of the config and
the mDNS service, while clients send `set_receiving` (`ipc.rs`, `manager.rs`).

A command reads the flag, changes the advertisement under the lock of the
discovery manager, and writes the flag, with no lock held from one to the
next; any number of clients have one such command under way. What the mDNS
daemon answers is an input of the step that asks it.
-/
import Mathlib.Data.List.Basic

namespace Nxfr.Receiving

/-- What the mDNS daemon answers: to `ServiceInfo::new` and `register` the full
name of the service or an error, to `unregister` an error or none. -/
structure Answers where
  register : Except String String
  unregister : Except String Unit

/-- The part of `DiscoveryManager` that advertises, and the services that its
mDNS daemon has. -/
structure DiscoveryManager where
  registeredFullname : Option String
  services : List String
  deriving DecidableEq

def DiscoveryManager.startAdvertising (dm : DiscoveryManager) (register : Except String String) :
    Except String DiscoveryManager := match dm.registeredFullname with
  | some _ => .ok dm
  | none => match register with
    | .ok fullname => .ok { registeredFullname := some fullname, services := dm.services.insert fullname }
    | .error e => .error ("mDNS error: " ++ e)

/-- An error of `unregister` is logged and forgotten. -/
def DiscoveryManager.stopAdvertising (dm : DiscoveryManager) (unregister : Except String Unit) : DiscoveryManager :=
  match dm.registeredFullname with
  | some fullname => match unregister with
    | .ok () => { registeredFullname := none, services := dm.services.filter (· ≠ fullname) }
    | .error _ => { dm with registeredFullname := none }
  | none => dm

inductive Reply where
  | ok (receivingEnabled : Bool)
  | err (error : String)
  deriving DecidableEq

/-- Where a command is: before the lock of the discovery manager, before the
lock of the config, or answered. -/
inductive Stage where
  | advertise
  | write
  | answered (reply : Reply)
  deriving DecidableEq

structure Command where
  enabled : Bool
  stage : Stage
  deriving DecidableEq

def Command.inProgress (k : Command) : Bool := match k.stage with
  | .answered _ => false
  | _ => true

/-- `discovery` is `none` where mDNS failed at boot. -/
structure State where
  receivingEnabled : Bool
  discovery : Option DiscoveryManager
  commands : Nat → Option Command

def start (receivingEnabled : Bool) (discovery : Option DiscoveryManager) : State :=
  { receivingEnabled, discovery, commands := fun _ => none }

namespace State

def setCommand (s : State) (c : Nat) (k : Command) : State :=
  { s with commands := fun d => if d = c then some k else s.commands d }

/-- The manager has the service registered. -/
def registered (s : State) : Bool := s.discovery.any fun dm => dm.registeredFullname.isSome

/-- The mDNS daemon has a service. -/
def announced (s : State) : Bool := s.discovery.any fun dm => !dm.services.isEmpty

/-- No command is in progress. -/
def Idle (s : State) : Prop := ∀ c k, s.commands c = some k → k.inProgress = false

end State

/-- What happens next: a request is taken up and reads the flag, a command
changes the advertisement, a command writes the flag. -/
inductive Event where
  | read (c : Nat) (enabled : Option Bool)
  | advertise (c : Nat) (answers : Answers)
  | write (c : Nat)

def Event.command : Event → Nat
  | .read c _ | .advertise c _ | .write c => c

/-- The change of the advertisement, or the text of the error response. -/
def advertise (enabled : Bool) (answers : Answers) : Option DiscoveryManager → Except String (Option DiscoveryManager)
  | some dm =>
    if enabled then match dm.startAdvertising answers.register with
      | .ok dm => .ok (some dm)
      | .error e => .error ("mDNS advertising failed: " ++ e)
    else .ok (some (dm.stopAdvertising answers.unregister))
  | none => if enabled then .error "mDNS unavailable: discovery failed to initialize at startup" else .ok none

/-- One step of `cmd_set_receiving`; an event whose command is not there, or
elsewhere, leaves everything as it is. -/
def step (s : State) : Event → State
  | .read c enabled => match s.commands c, enabled with
    | none, none => s.setCommand c { enabled := false, stage := .answered (.err "missing 'enabled' field") }
    | none, some enabled =>
      if enabled = s.receivingEnabled then s.setCommand c { enabled, stage := .answered (.ok enabled) }
      else s.setCommand c { enabled, stage := .advertise }
    | some _, _ => s
  | .advertise c answers => match s.commands c with
    | some { enabled, stage := .advertise } => match Receiving.advertise enabled answers s.discovery with
      | .ok discovery => { s.setCommand c { enabled, stage := .write } with discovery }
      | .error e => s.setCommand c { enabled, stage := .answered (.err e) }
    | _ => s
  | .write c => match s.commands c with
    | some { enabled, stage := .write } =>
      { s.setCommand c { enabled, stage := .answered (.ok enabled) } with receivingEnabled := enabled }
    | _ => s

end Nxfr.Receiving

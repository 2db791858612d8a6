/-
The session state machine (`nxfr-core/src/session.rs`), a function from a
state and an event to the next state and the actions to take, or an error.
-/
import Nxfr.Messages

namespace Nxfr

/-- `StateError::InvalidTransition`. -/
structure StateError where
  fromState : String
  event : String
  deriving DecidableEq

namespace SessionMachine

inductive SessionState where
  | disconnected | connecting | helloWait | established | pairing | active | closing | closed
  deriving DecidableEq

def SessionState.display : SessionState → String
  | .disconnected => "Disconnected"
  | .connecting => "Connecting"
  | .helloWait => "HelloWait"
  | .established => "Established"
  | .pairing => "Pairing"
  | .active => "Active"
  | .closing => "Closing"
  | .closed => "Closed"

inductive SessionTimer where
  | tlsHandshake | helloExchange | pairingSas | closeGrace | keepaliveTimeout
  deriving DecidableEq

def SessionTimer.debug : SessionTimer → String
  | .tlsHandshake => "TlsHandshake"
  | .helloExchange => "HelloExchange"
  | .pairingSas => "PairingSas"
  | .closeGrace => "CloseGrace"
  | .keepaliveTimeout => "KeepaliveTimeout"

inductive SessionEvent where
  | userConnect
  | tlsEstablished
  | tlsFailed
  | helloReceived (deviceId : DeviceId) (isPaired : Bool)
  | helloAckReceived (deviceId : DeviceId) (sessionId : Nat) (isPaired : Bool)
  | incompatibleVersion
  | pairRequestSent
  | pairAcceptReceived
  | pairRejectReceived
  | unpairedSessionAccepted
  | mutuallyPaired
  | sessionCloseSent
  | sessionCloseReceived
  | connectionLost
  | fatalErrorReceived
  | timerFired (t : SessionTimer)
  deriving DecidableEq

def SessionEvent.display : SessionEvent → String
  | .userConnect => "UserConnect"
  | .tlsEstablished => "TlsEstablished"
  | .tlsFailed => "TlsFailed"
  | .helloReceived _ _ => "HelloReceived"
  | .helloAckReceived _ _ _ => "HelloAckReceived"
  | .incompatibleVersion => "IncompatibleVersion"
  | .pairRequestSent => "PairRequestSent"
  | .pairAcceptReceived => "PairAcceptReceived"
  | .pairRejectReceived => "PairRejectReceived"
  | .unpairedSessionAccepted => "UnpairedSessionAccepted"
  | .mutuallyPaired => "MutuallyPaired"
  | .sessionCloseSent => "SessionCloseSent"
  | .sessionCloseReceived => "SessionCloseReceived"
  | .connectionLost => "ConnectionLost"
  | .fatalErrorReceived => "FatalErrorReceived"
  | .timerFired t => "TimerFired(" ++ t.debug ++ ")"

inductive SessionAction where
  | openConnection
  | sendHello
  | sendHelloAck (sessionId : Nat)
  | recordSessionId (sessionId : Nat)
  | displaySas
  | pinPeerIdentity (deviceId : DeviceId)
  | sendError (code : String)
  | sendSessionClose
  | closeConnection
  | releaseResources
  | startTimer (t : SessionTimer)
  | cancelTimer (t : SessionTimer)
  | log (message : String)
  deriving DecidableEq

theorem zeros_size : (List.replicate 32 (0 : UInt8)).length = 32 := List.length_replicate

/-- `DeviceId([0; 32])`. -/
def zeroDeviceId : DeviceId := ⟨List.replicate 32 0, zeros_size⟩

/-- `session_handle_event`. -/
def sessionHandleEvent (state : SessionState) (event : SessionEvent) :
    Except StateError (SessionState × List SessionAction) :=
  match state, event with
  | .disconnected, .userConnect => .ok (.connecting, [.openConnection, .startTimer .tlsHandshake])
  | .connecting, .tlsEstablished =>
    .ok (.helloWait, [.cancelTimer .tlsHandshake, .sendHello, .startTimer .helloExchange])
  | .connecting, .tlsFailed | .connecting, .timerFired .tlsHandshake =>
    .ok (.closed, [.cancelTimer .tlsHandshake, .log "TLS handshake failed or timed out", .releaseResources])
  | .helloWait, .helloReceived _ _ => .ok (.established, [.cancelTimer .helloExchange, .sendHelloAck 0])
  | .helloWait, .helloAckReceived _ sessionId _ =>
    .ok (.established, [.cancelTimer .helloExchange, .recordSessionId sessionId])
  | .helloWait, .timerFired .helloExchange => .ok (.closed, [.log "HELLO exchange timed out", .releaseResources])
  | .helloWait, .incompatibleVersion => .ok (.closed, [.sendError "unsupported_version", .releaseResources])
  | .established, .pairRequestSent => .ok (.pairing, [.displaySas, .startTimer .pairingSas])
  | .established, .mutuallyPaired => .ok (.active, [])
  | .established, .unpairedSessionAccepted => .ok (.active, [])
  | .pairing, .pairAcceptReceived => .ok (.active, [.cancelTimer .pairingSas, .pinPeerIdentity zeroDeviceId])
  | .pairing, .pairRejectReceived => .ok (.established, [.cancelTimer .pairingSas, .log "Pairing rejected by peer"])
  | .pairing, .timerFired .pairingSas =>
    .ok (.closed, [.log "Pairing SAS confirmation timed out", .closeConnection, .releaseResources])
  | .active, .sessionCloseSent => .ok (.closing, [.sendSessionClose, .startTimer .closeGrace])
  | .active, .connectionLost | .active, .fatalErrorReceived =>
    .ok (.closed, [.log "Connection lost or fatal error in ACTIVE state", .releaseResources])
  | .closing, .sessionCloseReceived | .closing, .timerFired .closeGrace =>
    .ok (.closed, [.cancelTimer .closeGrace, .closeConnection, .releaseResources])
  | state, .fatalErrorReceived =>
    if state ≠ .closed ∧ state ≠ .disconnected then
      .ok (.closed, [.sendError "internal_error", .closeConnection, .releaseResources])
    else .error ⟨state.display, SessionEvent.fatalErrorReceived.display⟩
  | state, .connectionLost =>
    if state ≠ .closed ∧ state ≠ .disconnected then .ok (.closed, [.releaseResources])
    else .error ⟨state.display, SessionEvent.connectionLost.display⟩
  | .active, .timerFired .keepaliveTimeout =>
    .ok (.closed, [.sendError "session_timeout", .closeConnection, .releaseResources])
  | state, event => .error ⟨state.display, event.display⟩

end SessionMachine

end Nxfr

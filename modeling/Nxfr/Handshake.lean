/-
The hello exchange: the start of `handle_incoming` and `connect_to_peer`
(`nxfr-daemon/src/handler.rs`) and of `nxfr_accept` (`nxfr-ffi/src/lib.rs`), up
to the point where the session is there.

A path has the peer's certificate from TLS and a device id in the peer's HELLO
or HELLO_ACK. It takes the identity from the certificate: the SHA-256 of the
SPKI that `extract_spki`, a parameter, finds in it. No path looks at the id in
the message.
-/
import Nxfr.DaemonPair
import Nxfr.PairedDevices

namespace Nxfr.Handshake

open Storage

/-! ## The three paths -/

/-- `ProtocolVersion::is_supported`. -/
def isSupported (v : ProtocolVersion) : Bool := (v.major == 1 && v.minor == 0) || (v.major == 0 && v.minor == 1)

/-- What TLS gives for the other end: its certificates, and the exporter. -/
structure Tls where
  certificates : Option (List Bytes)
  exportKeyingMaterial : Bytes → Except String Bytes

/-- What a device says of itself. -/
structure Own where
  deviceId : DeviceId
  deviceName : String

/-- What comes of the wait for a frame. -/
inductive Arrival where
  | frame (f : Frame)
  | timedOut
  | lost

/-- The texts that values of other crates are written as. -/
structure Texts where
  io : String
  codec : CodecError → String
  debug : ControlMessage → String

/-- The session that a path goes on with. -/
structure Peer where
  deviceId : DeviceId
  name : String
  sessionId : Nat
  isPaired : Bool
  exporter : Bytes
  deriving DecidableEq

/-- What a path has written and how it ended: with a session, without one, or
with an error. -/
structure Outcome where
  conn : Conn
  result : Except Fail (Option Peer)

def fails (conn : Conn) (text : String) : Outcome := ⟨conn, .error (.text text)⟩

section

variable (x : Ext) (extractSpki : Bytes → Except String Bytes) (texts : Texts) (own : Own)

/-- `device_id_from_cert`. -/
def deviceIdFromCert (cert : Bytes) : Except String DeviceId := (extractSpki cert).map x.sha256

/-- `peer_certificates().ok_or(..)?.first().ok_or(..)?`. -/
def peerCert (tls : Tls) (missing empty : String) : Except String Bytes := match tls.certificates with
  | none => .error missing
  | some [] => .error empty
  | some (cert :: _) => .ok cert

/-- The context of the SAS: the two ids in order. -/
def sasContext (a b : DeviceId) : Bytes := if a.bytes < b.bytes then a.bytes ++ b.bytes else b.bytes ++ a.bytes

/-- `handle_incoming` from the wait for HELLO to the HELLO_ACK. -/
def awaitHello (peerId : DeviceId) (isPaired : Bool) (sessionId : Nat) (conn : Conn) : Arrival → Outcome
  | .timedOut => fails conn "HELLO exchange timed out (10s)"
  | .lost => ⟨conn, .error .io⟩
  | .frame f =>
    if f.kind ≠ .control then fails conn "expected CONTROL frame for HELLO"
    else match f.control with
      | .error e => ⟨conn, .error (.codec e)⟩
      | .ok (.hello version _ name _ _ _) =>
        if !isSupported version then
          let text := "unsupported version " ++ toString version.major ++ "." ++ toString version.minor
          match conn.sendControl x (.error .unsupportedVersion (some text) true none) with
          | none => ⟨conn, .error .io⟩
          | some conn => fails conn "unsupported version"
        else match conn.sendControl x (.helloAck ⟨1, 0⟩ own.deviceId own.deviceName .linux [] isPaired sessionId) with
          | none => ⟨conn, .error .io⟩
          | some conn => ⟨conn, .ok (some ⟨peerId, name, sessionId, isPaired, []⟩)⟩
      | .ok m => fails conn ("expected HELLO, got " ++ texts.debug m)

/-- `verify_identity` of the database, which gives an answer or an error. -/
def identityCheck (db : Option PairedDeviceDb) (peerId : DeviceId) (spki : Bytes) : Option IdentityCheck :=
  db.map fun db => db.verifyIdentity (fun key => (extractSpki key).toOption) (hexEncode peerId.bytes) spki

/-- `handle_incoming` up to its message loop. An error of the database
is logged. -/
def handleIncoming (receivingEnabled : Bool) (db : Option PairedDeviceDb) (sessionId : Nat) (tls : Tls) (arrival : Arrival)
    (conn : Conn) : Outcome :=
  if !receivingEnabled then
    ⟨(conn.sendControl x (.sessionClose (some "receiving_disabled"))).getD conn, .ok none⟩
  else match peerCert tls "no peer certificates" "empty peer cert chain" with
    | .error e => fails conn e
    | .ok cert => match deviceIdFromCert x extractSpki cert with
      | .error e => fails conn ("device_id extraction failed: " ++ e)
      | .ok peerId => match extractSpki cert with
        | .error e => fails conn ("SPKI extraction failed: " ++ e)
        | .ok spki => match identityCheck extractSpki db peerId spki with
          | some .changed =>
            let error := .error .identityChanged (some "SPKI does not match pinned identity") true none
            fails ((conn.sendControl x error).getD conn) "identity_changed: SPKI mismatch for known peer"
          | some .matched => awaitHello x texts own peerId true sessionId conn arrival
          | some .unknown | none => awaitHello x texts own peerId false sessionId conn arrival

/-- `connect_to_peer` from the end of the TLS handshake on. The kind of the frame
it reads is not looked at. -/
def connectToPeer (targetDeviceId : String) (db : Option PairedDeviceDb) (tls : Tls) (arrival : Arrival) (conn : Conn) :
    Outcome :=
  match peerCert tls "no peer certs" "empty peer cert chain" with
  | .error e => fails conn e
  | .ok cert => match deviceIdFromCert x extractSpki cert with
    | .error e => fails conn e
    | .ok peerId =>
      let peerIdHex := hexEncode peerId.bytes
      if peerIdHex ≠ targetDeviceId then
        fails conn ("connected device's identity does not match the requested target (expected " ++ targetDeviceId ++
          ", got " ++ peerIdHex ++ "; wrong address or possible MITM)")
      else match tls.exportKeyingMaterial (sasContext own.deviceId peerId) with
        | .error e => fails conn ("TLS exporter failed: " ++ e)
        | .ok exporter =>
          let isPaired := (db.bind fun db => db.lookup targetDeviceId).isSome
          match conn.sendControl x (.hello ⟨1, 0⟩ own.deviceId own.deviceName .linux [] isPaired) with
          | none => ⟨conn, .error .io⟩
          | some conn => match arrival with
            | .timedOut => fails conn "HELLO_ACK exchange timed out (10s)"
            | .lost => ⟨conn, .error .io⟩
            | .frame f => match f.control with
              | .error e => ⟨conn, .error (.codec e)⟩
              | .ok (.helloAck version _ name _ _ _ sessionId) =>
                if !isSupported version then
                  fails conn ("peer returned unsupported protocol version " ++ toString version.major ++ "." ++
                    toString version.minor)
                else ⟨conn, .ok (some ⟨peerId, name, sessionId, isPaired, exporter⟩)⟩
              | .ok m => fails conn ("expected HELLO_ACK, got " ++ texts.debug m)

/-- `nxfr_accept` from an accepted connection to the session. -/
def nxfrAccept (sessionId : Nat) (tls : Tls) (arrival : Arrival) (conn : Conn) : Outcome :=
  match peerCert tls "no peer certs" "empty peer cert" with
  | .error e => fails conn e
  | .ok cert => match deviceIdFromCert x extractSpki cert with
    | .error e => fails conn ("peer device_id: " ++ e)
    | .ok peerId => match arrival with
      | .timedOut => fails conn "HELLO exchange timed out (10s)"
      | .lost => fails conn ("recv HELLO: " ++ texts.io)
      | .frame f =>
        if f.kind ≠ .control then fails conn "expected CONTROL for HELLO"
        else match f.control with
          | .error e => fails conn ("decode: " ++ texts.codec e)
          | .ok (.hello version _ name _ _ _) =>
            if !isSupported version then
              fails conn ("unsupported protocol version " ++ toString version.major ++ "." ++ toString version.minor)
            else match conn.sendControl x (.helloAck ⟨1, 0⟩ own.deviceId own.deviceName .android [] false sessionId) with
              | none => fails conn ("send HELLO_ACK: " ++ texts.io)
              | some conn => ⟨conn, .ok (some ⟨peerId, name, sessionId, false, []⟩)⟩
          | .ok m => fails conn ("expected HELLO, got " ++ texts.debug m)

end

/-! ## Whose id it is -/

/-- The message with another device id in it. -/
def claiming (id : DeviceId) : ControlMessage → ControlMessage
  | .hello version _ name platform capabilities isPaired => .hello version id name platform capabilities isPaired
  | .helloAck version _ name platform capabilities isPaired sessionId =>
    .helloAck version id name platform capabilities isPaired sessionId
  | m => m

def Arrival.claiming (id : DeviceId) : Arrival → Arrival
  | .frame f => .frame { f with control := f.control.map (Handshake.claiming id) }
  | .timedOut => .timedOut
  | .lost => .lost

/-- The id of the peer's certificate. -/
def certifiedId (x : Ext) (extractSpki : Bytes → Except String Bytes) (tls : Tls) : Option DeviceId :=
  match tls.certificates with
  | some (cert :: _) => (extractSpki cert).toOption.map x.sha256
  | _ => none

section

variable {x : Ext} {extractSpki : Bytes → Except String Bytes} {texts : Texts} {own : Own} {db : Option PairedDeviceDb}
  {tls : Tls} {arrival : Arrival} {conn : Conn} {peer : Peer} {sessionId : Nat}

theorem awaitHello_peer {peerId : DeviceId} {isPaired : Bool}
    (h : (awaitHello x texts own peerId isPaired sessionId conn arrival).result = .ok (some peer)) (id : DeviceId) :
    peer.deviceId = peerId ∧
      (awaitHello x texts own peerId isPaired sessionId conn (arrival.claiming id)).result = .ok (some peer) := by
  cases arrival with
  | timedOut => cases h
  | lost => cases h
  | frame f =>
    simp only [awaitHello, Arrival.claiming] at h ⊢
    split at h
    · cases h
    · rename_i hkind
      rw [if_neg hkind]
      split at h
      · cases h
      · rename_i version _ name _ _ _ hcontrol
        simp only [hcontrol, Except.map, claiming]
        split at h
        · split at h <;> cases h
        · rename_i hversion
          rw [if_neg hversion]
          split at h
          · cases h
          · rename_i conn' hsend
            cases h
            exact ⟨rfl, rfl⟩
      · cases h

theorem peerCert_ok {missing empty : String} {cert : Bytes} (h : peerCert tls missing empty = .ok cert) :
    certifiedId x extractSpki tls = (extractSpki cert).toOption.map x.sha256 := by
  unfold peerCert at h
  split at h
  · cases h
  · cases h
  · rename_i hcerts
    cases h
    rw [certifiedId, hcerts]

theorem deviceIdFromCert_ok {cert : Bytes} {id : DeviceId} (h : deviceIdFromCert x extractSpki cert = .ok id) :
    (extractSpki cert).toOption.map x.sha256 = some id := by
  unfold deviceIdFromCert at h
  cases hspki : extractSpki cert with
  | error e =>
    rw [hspki] at h
    cases h
  | ok spki =>
    rw [hspki] at h
    cases h
    rfl

theorem handleIncoming_peer {receivingEnabled : Bool}
    (h : (handleIncoming x extractSpki texts own receivingEnabled db sessionId tls arrival conn).result = .ok (some peer))
    (id : DeviceId) :
    certifiedId x extractSpki tls = some peer.deviceId ∧
      (handleIncoming x extractSpki texts own receivingEnabled db sessionId tls (arrival.claiming id) conn).result =
        .ok (some peer) := by
  unfold handleIncoming at h ⊢
  split at h
  · cases h
  · rename_i henabled
    rw [if_neg henabled]
    split at h
    · cases h
    · rename_i cert hcert
      split at h
      · cases h
      · rename_i peerId hid
        split at h
        · cases h
        · rename_i spki hspki
          have hpeer : certifiedId x extractSpki tls = some peerId := (peerCert_ok hcert).trans (deviceIdFromCert_ok hid)
          split at h
          · cases h
          all_goals
            obtain ⟨heq, hclaiming⟩ := awaitHello_peer h id
            rw [heq]
            exact ⟨hpeer, hclaiming⟩

theorem connectToPeer_peer {targetDeviceId : String}
    (h : (connectToPeer x extractSpki texts own targetDeviceId db tls arrival conn).result = .ok (some peer)) (id : DeviceId) :
    certifiedId x extractSpki tls = some peer.deviceId ∧ hexEncode peer.deviceId.bytes = targetDeviceId ∧
      (connectToPeer x extractSpki texts own targetDeviceId db tls (arrival.claiming id) conn).result = .ok (some peer) := by
  unfold connectToPeer at h ⊢
  split at h
  · cases h
  · rename_i cert hcert
    split at h
    · cases h
    · rename_i peerId hid
      have hpeer : certifiedId x extractSpki tls = some peerId := (peerCert_ok hcert).trans (deviceIdFromCert_ok hid)
      dsimp only at h ⊢
      split at h
      · cases h
      · rename_i htarget
        rw [if_neg htarget]
        split at h
        · cases h
        · split at h
          · cases h
          · cases arrival with
            | timedOut => cases h
            | lost => cases h
            | frame f =>
              dsimp only [Arrival.claiming] at h ⊢
              split at h
              · cases h
              · rename_i version _ name _ _ _ sessionId hcontrol
                simp only [hcontrol, Except.map, claiming]
                split at h
                · cases h
                · rename_i hversion
                  rw [if_neg hversion]
                  cases h
                  exact ⟨hpeer, not_not.mp htarget, rfl⟩
              · cases h

theorem nxfrAccept_peer (h : (nxfrAccept x extractSpki texts own sessionId tls arrival conn).result = .ok (some peer))
    (id : DeviceId) :
    certifiedId x extractSpki tls = some peer.deviceId ∧
      (nxfrAccept x extractSpki texts own sessionId tls (arrival.claiming id) conn).result = .ok (some peer) := by
  unfold nxfrAccept at h ⊢
  split at h
  · cases h
  · rename_i cert hcert
    split at h
    · cases h
    · rename_i peerId hid
      have hpeer : certifiedId x extractSpki tls = some peerId := (peerCert_ok hcert).trans (deviceIdFromCert_ok hid)
      cases arrival with
      | timedOut => cases h
      | lost => cases h
      | frame f =>
        dsimp only [Arrival.claiming] at h ⊢
        split at h
        · cases h
        · rename_i hkind
          rw [if_neg hkind]
          split at h
          · cases h
          · rename_i version _ name _ _ _ hcontrol
            simp only [hcontrol, Except.map, claiming]
            split at h
            · cases h
            · rename_i hversion
              rw [if_neg hversion]
              split at h
              · cases h
              · cases h
                exact ⟨hpeer, rfl⟩
          · cases h

end

/-- **Whose session it is.** Each path takes the identity of the peer from its
certificate: when it goes on past the hello exchange, it goes on with the
SHA-256 of the certificate's SPKI, and does so whatever device id the HELLO or
HELLO_ACK has. `connect_to_peer` goes on only with the identity it was to
connect to. -/
theorem identity_from_certificate (x : Ext) (extractSpki : Bytes → Except String Bytes) (texts : Texts) (own : Own)
    (receivingEnabled : Bool) (db : Option PairedDeviceDb) (sessionId : Nat) (targetDeviceId : String) (tls : Tls)
    (arrival : Arrival) (conn : Conn) (peer : Peer) (id : DeviceId) :
    ((handleIncoming x extractSpki texts own receivingEnabled db sessionId tls arrival conn).result = .ok (some peer) →
      certifiedId x extractSpki tls = some peer.deviceId ∧
        (handleIncoming x extractSpki texts own receivingEnabled db sessionId tls (arrival.claiming id) conn).result =
          .ok (some peer)) ∧
    ((connectToPeer x extractSpki texts own targetDeviceId db tls arrival conn).result = .ok (some peer) →
      certifiedId x extractSpki tls = some peer.deviceId ∧ hexEncode peer.deviceId.bytes = targetDeviceId ∧
        (connectToPeer x extractSpki texts own targetDeviceId db tls (arrival.claiming id) conn).result = .ok (some peer)) ∧
    ((nxfrAccept x extractSpki texts own sessionId tls arrival conn).result = .ok (some peer) →
      certifiedId x extractSpki tls = some peer.deviceId ∧
        (nxfrAccept x extractSpki texts own sessionId tls (arrival.claiming id) conn).result = .ok (some peer)) :=
  ⟨fun h => handleIncoming_peer h id, fun h => connectToPeer_peer h id, fun h => nxfrAccept_peer h id⟩


/-! ## A peer that claims to be another -/

/-- The SPKI of a P-256 key. -/
def sampleSpki : Bytes :=
  [0x30, 0x59, 0x30, 0x13, 0x06, 0x07, 0x2a, 0x86, 0x48, 0xce, 0x3d, 0x02, 0x01, 0x06, 0x08, 0x2a, 0x86, 0x48,
   0xce, 0x3d, 0x03, 0x01, 0x07, 0x03, 0x42, 0x00, 0x04, 0xfb, 0x64, 0x69, 0x62, 0xac, 0xc6, 0x79, 0x72, 0x94,
   0x95, 0x0a, 0x3f, 0x4f, 0x27, 0x0d, 0xab, 0xfb, 0x98, 0x10, 0x14, 0xc3, 0xc3, 0x81, 0x59, 0x05, 0x6a, 0xd0,
   0xe1, 0x51, 0x35, 0x0a, 0x05, 0xf2, 0x54, 0xff, 0xee, 0xfd, 0x9e, 0xd8, 0x4b, 0xd9, 0xeb, 0x22, 0xa5, 0x62,
   0xc5, 0x52, 0xa1, 0xf0, 0x42, 0x1c, 0x87, 0xee, 0x74, 0xdd, 0x9c, 0xe2, 0x7c, 0xb4, 0xfb, 0xbb, 0xbb, 0x39,
   0x45]

/-- A self-signed certificate of that key, for `nxfr-node`. -/
def sampleCert : Bytes :=
  [0x30, 0x82, 0x01, 0x93, 0x30, 0x82, 0x01, 0x39, 0xa0, 0x03, 0x02, 0x01, 0x02, 0x02, 0x14, 0x38, 0xf9, 0xde,
   0x68, 0x23, 0x56, 0x4e, 0x1f, 0x0e, 0x91, 0xf1, 0xff, 0x34, 0x4f, 0x1c, 0x8b, 0xc0, 0xcc, 0xe6, 0x5a, 0x30,
   0x0a, 0x06, 0x08, 0x2a, 0x86, 0x48, 0xce, 0x3d, 0x04, 0x03, 0x02, 0x30, 0x14, 0x31, 0x12, 0x30, 0x10, 0x06,
   0x03, 0x55, 0x04, 0x03, 0x0c, 0x09, 0x6e, 0x78, 0x66, 0x72, 0x2d, 0x6e, 0x6f, 0x64, 0x65, 0x30, 0x1e, 0x17,
   0x0d, 0x32, 0x36, 0x31, 0x31, 0x31, 0x38, 0x31, 0x31, 0x35, 0x39, 0x34, 0x30, 0x5a, 0x17, 0x0d, 0x33, 0x36,
   0x31, 0x31, 0x31, 0x35, 0x31, 0x31, 0x35, 0x39, 0x34, 0x30, 0x5a, 0x30, 0x14, 0x31, 0x12, 0x30, 0x10, 0x06,
   0x03, 0x55, 0x04, 0x03, 0x0c, 0x09, 0x6e, 0x78, 0x66, 0x72, 0x2d, 0x6e, 0x6f, 0x64, 0x65] ++ sampleSpki ++
  [0xa3, 0x69, 0x30, 0x67, 0x30, 0x1d, 0x06, 0x03, 0x55, 0x1d, 0x0e, 0x04, 0x16, 0x04, 0x14, 0xf6, 0x55, 0xb9,
   0xbb, 0xba, 0x50, 0x0e, 0xd4, 0x91, 0xad, 0x17, 0x87, 0x1c, 0xe8, 0x1b, 0x5b, 0xb0, 0xd9, 0xae, 0xd8, 0x30,
   0x1f, 0x06, 0x03, 0x55, 0x1d, 0x23, 0x04, 0x18, 0x30, 0x16, 0x80, 0x14, 0xf6, 0x55, 0xb9, 0xbb, 0xba, 0x50,
   0x0e, 0xd4, 0x91, 0xad, 0x17, 0x87, 0x1c, 0xe8, 0x1b, 0x5b, 0xb0, 0xd9, 0xae, 0xd8, 0x30, 0x0f, 0x06, 0x03,
   0x55, 0x1d, 0x13, 0x01, 0x01, 0xff, 0x04, 0x05, 0x30, 0x03, 0x01, 0x01, 0xff, 0x30, 0x14, 0x06, 0x03, 0x55,
   0x1d, 0x11, 0x04, 0x0d, 0x30, 0x0b, 0x82, 0x09, 0x6e, 0x78, 0x66, 0x72, 0x2d, 0x6e, 0x6f, 0x64, 0x65, 0x30,
   0x0a, 0x06, 0x08, 0x2a, 0x86, 0x48, 0xce, 0x3d, 0x04, 0x03, 0x02, 0x03, 0x48, 0x00, 0x30, 0x45, 0x02, 0x21,
   0x00, 0x96, 0xaa, 0xca, 0x31, 0xb5, 0x5c, 0x81, 0xf7, 0x53, 0x1a, 0x73, 0x70, 0x0e, 0x48, 0xd2, 0x69, 0xe5,
   0xb3, 0x95, 0x12, 0x54, 0x6f, 0xa0, 0xd1, 0x2f, 0xb1, 0x69, 0x01, 0x64, 0xb1, 0xc7, 0xdd, 0x02, 0x20, 0x6c,
   0x88, 0x11, 0x28, 0xe2, 0x94, 0xce, 0x13, 0x7d, 0xc4, 0xf7, 0x6e, 0x29, 0x74, 0x34, 0xbb, 0xee, 0x52, 0xc6,
   0x1e, 0x92, 0xe8, 0xe2, 0x5c, 0xf6, 0x55, 0xf4, 0x6f, 0xa1, 0xb5, 0x3a, 0xcc]

def sampleExtractSpki (cert : Bytes) : Except String Bytes :=
  if cert = sampleCert then .ok sampleSpki else .error "X.509 parse failed"

def sampleDeviceId : DeviceId :=
  ⟨[0xda, 0x6f, 0xa0, 0x9b, 0x88, 0xfb, 0x84, 0x36, 0x08, 0xe1, 0xde, 0xe1, 0xe9, 0x30, 0x20, 0x8a, 0xed, 0x54,
    0x2f, 0x3b, 0xac, 0xa4, 0xa7, 0x0c, 0x3c, 0xd9, 0xc3, 0x19, 0x53, 0x70, 0x63, 0x91], rfl⟩

def samplePeers : Ext := { sampleExt with sha256 := fun bs => if bs = sampleSpki then sampleDeviceId else sampleHash bs }

def sampleTexts : Texts := ⟨"connection reset", fun _ => "codec error", fun _ => "message"⟩

def sampleOwn : Own := ⟨sampleHash [], "desk"⟩

def sampleTls : Tls := ⟨some [sampleCert], fun _ => .ok [1, 2, 3, 4]⟩

/-- HELLO and HELLO_ACK of the peer, with the id of another device. -/
def sampleHello : Arrival := .frame (controlFrame 1 (.hello ⟨1, 0⟩ (sampleHash [0x61]) "phone" .android [] false))

def sampleHelloAck : Arrival :=
  .frame (controlFrame 1 (.helloAck ⟨1, 0⟩ (sampleHash [0x61]) "phone" .android [] false 7))

theorem sampleTls_certified : certifiedId samplePeers sampleExtractSpki sampleTls = some sampleDeviceId := by
  simp only [certifiedId, sampleTls, sampleExtractSpki, samplePeers, if_true, Except.toOption, Option.map_some]

theorem sampleCert_id : deviceIdFromCert samplePeers sampleExtractSpki sampleCert = .ok sampleDeviceId := by
  simp only [deviceIdFromCert, sampleExtractSpki, samplePeers, if_true, Except.map]

theorem sample_handleIncoming :
    (handleIncoming samplePeers sampleExtractSpki sampleTexts sampleOwn true (some ⟨[]⟩) 7 sampleTls sampleHello {}).result =
      .ok (some ⟨sampleDeviceId, "phone", 7, false, []⟩) := by
  have hspki : sampleExtractSpki sampleCert = .ok sampleSpki := if_pos rfl
  simp only [handleIncoming, peerCert, sampleTls, sampleCert_id, hspki]
  rfl

theorem sample_connectToPeer :
    (connectToPeer samplePeers sampleExtractSpki sampleTexts sampleOwn (hexEncode sampleDeviceId.bytes) none sampleTls
      sampleHelloAck {}).result = .ok (some ⟨sampleDeviceId, "phone", 7, false, [1, 2, 3, 4]⟩) := by
  simp only [connectToPeer, peerCert, sampleTls, sampleCert_id, ne_eq, not_true_eq_false, if_false]
  rfl

theorem sample_nxfrAccept :
    (nxfrAccept samplePeers sampleExtractSpki sampleTexts sampleOwn 7 sampleTls sampleHello {}).result =
      .ok (some ⟨sampleDeviceId, "phone", 7, false, []⟩) := by
  simp only [nxfrAccept, peerCert, sampleTls, sampleCert_id]
  rfl

/-- The peer is taken for who it is, and may claim to be another. -/
theorem identity_from_certificate_sample :
    certifiedId samplePeers sampleExtractSpki sampleTls = some sampleDeviceId ∧
      (connectToPeer samplePeers sampleExtractSpki sampleTexts sampleOwn (hexEncode sampleDeviceId.bytes) none sampleTls
        (sampleHelloAck.claiming (sampleHash [])) {}).result =
          .ok (some ⟨sampleDeviceId, "phone", 7, false, [1, 2, 3, 4]⟩) :=
  have h := (identity_from_certificate samplePeers sampleExtractSpki sampleTexts sampleOwn true none 7
    (hexEncode sampleDeviceId.bytes) sampleTls sampleHelloAck {} ⟨sampleDeviceId, "phone", 7, false, [1, 2, 3, 4]⟩
    (sampleHash [])).2.1 sample_connectToPeer
  ⟨h.1, h.2.2⟩

/-- All three paths go on with a peer that claims an id its certificate does not
have. -/
theorem claimed_identity_unchecked :
    (certifiedId samplePeers sampleExtractSpki sampleTls = some sampleDeviceId ∧ sampleHash [0x61] ≠ sampleDeviceId) ∧
      (handleIncoming samplePeers sampleExtractSpki sampleTexts sampleOwn true (some ⟨[]⟩) 7 sampleTls sampleHello {}).result =
        .ok (some ⟨sampleDeviceId, "phone", 7, false, []⟩) ∧
      (connectToPeer samplePeers sampleExtractSpki sampleTexts sampleOwn (hexEncode sampleDeviceId.bytes) none sampleTls
        sampleHelloAck {}).result = .ok (some ⟨sampleDeviceId, "phone", 7, false, [1, 2, 3, 4]⟩) ∧
      (nxfrAccept samplePeers sampleExtractSpki sampleTexts sampleOwn 7 sampleTls sampleHello {}).result =
        .ok (some ⟨sampleDeviceId, "phone", 7, false, []⟩) :=
  ⟨⟨sampleTls_certified, by decide⟩, sample_handleIncoming, sample_connectToPeer, sample_nxfrAccept⟩

end Nxfr.Handshake

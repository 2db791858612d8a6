/-
The code that two devices show when they pair: `derive_sas`
(`nxfr-core/src/sas.rs`) and its callers, which are `handle_incoming` and
`connect_to_peer` with `cmd_pair_streaming` (`nxfr-daemon/src/handler.rs`,
`ipc.rs`) and `nxfr_accept` and `nxfr_pair_begin` (`nxfr-ffi/src/lib.rs`).

The code is four bytes of the TLS exporter, taken for a context that holds the
two ids in order. The daemon has the context from `derive_sas`, the library
puts it together itself, once for each of its two callers. The exporter is a
parameter, one for a session: it gives both ends equal bytes for equal label
and context. Each end has its own id from its own certificate, and the other
end's from the one TLS gives it.
-/
import Nxfr.Handshake
import Nxfr.HexFacts
import Nxfr.Advertising

namespace Nxfr.Sas

open Handshake

/-- `[u8; 4]` -/
structure Exporter where
  bytes : Bytes
  size : bytes.length = 4

/-- `[0u8; 4]` -/
def zeroExporter : Exporter := ⟨[0, 0, 0, 0], rfl⟩

/-- `buf[start..start + src.len()].copy_from_slice(src)` -/
def copyFromSlice (buf : Bytes) (start : Nat) (src : Bytes) : Bytes :=
  buf.take start ++ src ++ buf.drop (start + src.length)

theorem zeros_length : (List.replicate 32 (0 : UInt8)).length = 32 := rfl

def deriveSas (deviceIdA deviceIdB : DeviceId) (exporterBytes : Exporter) : String × Bytes :=
  let context := List.replicate 64 0
  let context :=
    if deviceIdA.bytes < deviceIdB.bytes then
      copyFromSlice (copyFromSlice context 0 deviceIdA.bytes) 32 deviceIdB.bytes
    else copyFromSlice (copyFromSlice context 0 deviceIdB.bytes) 32 deviceIdA.bytes
  let value := BigEndian.value exporterBytes.bytes % 1000000
  (Discovery.pad 6 value, context)

/-- The context in `nxfr_accept`. -/
def acceptContext (localId peerId : DeviceId) : Bytes :=
  let sasCtx := List.replicate 64 0
  if localId.bytes < peerId.bytes then copyFromSlice (copyFromSlice sasCtx 0 localId.bytes) 32 peerId.bytes
  else copyFromSlice (copyFromSlice sasCtx 0 peerId.bytes) 32 localId.bytes

/-- The context in `nxfr_pair_begin`. -/
def pairBeginContext (localId peerId : DeviceId) : Bytes :=
  let sasContext := List.replicate 64 0
  if localId.bytes < peerId.bytes then copyFromSlice (copyFromSlice sasContext 0 localId.bytes) 32 peerId.bytes
  else copyFromSlice (copyFromSlice sasContext 0 peerId.bytes) 32 localId.bytes

/-! ## The ends of a session -/

/-- What TLS gives an end. -/
structure TlsEnd where
  certificates : Option (List Bytes)
  exportKeyingMaterial : String → Bytes → Except String Exporter

section

variable (x : Ext) (extractSpki : Bytes → Except String Bytes)

/-- A certificate and the id from it. -/
structure Identity where
  cert : Bytes
  deviceId : DeviceId
  derived : deviceIdFromCert x extractSpki cert = .ok deviceId

/-- A TLS session: the two identities, what follows them in their chains, and the
exporter. -/
structure TlsSession where
  client : Identity x extractSpki
  server : Identity x extractSpki
  clientChain : List Bytes
  serverChain : List Bytes
  exporter : String → Bytes → Except String Exporter

variable {x extractSpki} in
def TlsSession.atClient (s : TlsSession x extractSpki) : TlsEnd :=
  ⟨some (s.server.cert :: s.serverChain), s.exporter⟩

variable {x extractSpki} in
def TlsSession.atServer (s : TlsSession x extractSpki) : TlsEnd :=
  ⟨some (s.client.cert :: s.clientChain), s.exporter⟩

/-- The id of the other end's certificate, as the library takes it. -/
def peerDeviceId (missing empty : String) (tls : TlsEnd) : Except String DeviceId := match tls.certificates with
  | none => .error missing
  | some [] => .error empty
  | some (cert :: _) => (deviceIdFromCert x extractSpki cert).mapError ("peer device_id: " ++ ·)

/-- The `peer_device_id` of a session of `nxfr_connect`. -/
def nxfrConnectPeer (tls : TlsEnd) : Except String DeviceId :=
  peerDeviceId x extractSpki "no peer certificates" "empty peer cert chain" tls

/-- The `peer_device_id` of a session of `nxfr_accept`. -/
def nxfrAcceptPeer (tls : TlsEnd) : Except String DeviceId :=
  peerDeviceId x extractSpki "no peer certs" "empty peer cert" tls

/-- `handle_incoming`, at a PAIR_REQUEST. -/
def handleIncomingCode (own : DeviceId) (tls : TlsEnd) : Except String String :=
  let peerCertDer := (tls.certificates.getD []).head?.getD []
  let peerId := (deviceIdFromCert x extractSpki peerCertDer).toOption.getD ⟨List.replicate 32 0, zeros_length⟩
  let sasContext := (deriveSas own peerId zeroExporter).2
  match tls.exportKeyingMaterial "NXFR-SAS-v0" sasContext with
  | .error e => .error ("export_keying_material failed: " ++ e)
  | .ok exporterBytes => .ok (deriveSas own peerId exporterBytes).1

/-- `connect_to_peer` and, with the exporter bytes it returns,
`cmd_pair_streaming`. -/
def cmdPairCode (deviceId : String) (own : DeviceId) (tls : TlsEnd) : Except String String :=
  match tls.certificates with
  | none => .error "no peer certs"
  | some [] => .error "empty peer cert chain"
  | some (cert :: _) => match deviceIdFromCert x extractSpki cert with
    | .error e => .error e
    | .ok peerId =>
      if hexEncode peerId.bytes ≠ deviceId then
        .error ("connected device's identity does not match the requested target (expected " ++ deviceId ++ ", got " ++
          hexEncode peerId.bytes ++ "; wrong address or possible MITM)")
      else
        let sasContext := (deriveSas own peerId zeroExporter).2
        match tls.exportKeyingMaterial "NXFR-SAS-v0" sasContext with
        | .error e => .error ("TLS exporter failed: " ++ e)
        | .ok exporterBytes =>
          let peerIdBytes : DeviceId := match hexDecode deviceId with
            | some decoded => if h : decoded.length = 32 then ⟨decoded, h⟩ else ⟨List.replicate 32 0, zeros_length⟩
            | none => ⟨List.replicate 32 0, zeros_length⟩
          .ok (deriveSas own peerIdBytes exporterBytes).1

/-- The reader of `nxfr_accept`, at a PAIR_REQUEST. -/
def nxfrAcceptCode (own : DeviceId) (tls : TlsEnd) : Except String String :=
  match nxfrAcceptPeer x extractSpki tls with
  | .error e => .error e
  | .ok peerId => match tls.exportKeyingMaterial "NXFR-SAS-v0" (acceptContext own peerId) with
    | .error e => .error ("SAS derivation failed: " ++ e)
    | .ok exp => .ok (deriveSas own peerId exp).1

/-- `nxfr_pair_begin`, on a session with the peer of `nxfr_connect` or `nxfr_accept`. -/
def nxfrPairBeginCode (peer : Except String DeviceId) (own : DeviceId) (tls : TlsEnd) : Except String String :=
  match peer with
  | .error e => .error e
  | .ok peerId => match tls.exportKeyingMaterial "NXFR-SAS-v0" (pairBeginContext own peerId) with
    | .error e => .error e
    | .ok exporter => .ok (deriveSas own peerId exporter).1

/-- What shows a code at the end that connected. -/
inductive ClientProgram
  | cmdPair
  | nxfrPairBegin

/-- What shows a code at the end that was connected to. -/
inductive ServerProgram
  | handleIncoming
  | nxfrAccept
  | nxfrPairBegin

variable {x extractSpki} (s : TlsSession x extractSpki)

/-- The code at the client; `cmd_pair_streaming` is for the server's id. -/
def ClientProgram.code : ClientProgram → Option String
  | .cmdPair => (cmdPairCode x extractSpki (hexEncode s.server.deviceId.bytes) s.client.deviceId s.atClient).toOption
  | .nxfrPairBegin =>
    (nxfrPairBeginCode (nxfrConnectPeer x extractSpki s.atClient) s.client.deviceId s.atClient).toOption

/-- The code at the server. -/
def ServerProgram.code : ServerProgram → Option String
  | .handleIncoming => (handleIncomingCode x extractSpki s.server.deviceId s.atServer).toOption
  | .nxfrAccept => (nxfrAcceptCode x extractSpki s.server.deviceId s.atServer).toOption
  | .nxfrPairBegin =>
    (nxfrPairBeginCode (nxfrAcceptPeer x extractSpki s.atServer) s.server.deviceId s.atServer).toOption

end

/-! ## The context and the code -/

section

variable {a b : DeviceId} {e : Exporter}

theorem two_copies (a b : DeviceId) :
    copyFromSlice (copyFromSlice (List.replicate 64 0) 0 a.bytes) 32 b.bytes = a.bytes ++ b.bytes := by
  have ha := a.size
  have hb := b.size
  simp [copyFromSlice, ha, hb, List.drop_append]

theorem deriveSas_context (a b : DeviceId) (e : Exporter) :
    (deriveSas a b e).2 = if a.bytes < b.bytes then a.bytes ++ b.bytes else b.bytes ++ a.bytes := by
  simp only [deriveSas, two_copies]

/-- The context of the handshake. -/
theorem sasContext_eq (a b : DeviceId) (e : Exporter) : sasContext a b = (deriveSas a b e).2 :=
  (deriveSas_context a b e).symm

/-- The copies of the library are the context. -/
theorem acceptContext_eq (a b : DeviceId) (e : Exporter) : acceptContext a b = (deriveSas a b e).2 := rfl

theorem pairBeginContext_eq (a b : DeviceId) (e : Exporter) : pairBeginContext a b = (deriveSas a b e).2 := rfl

theorem bytes_lt_asymm {bs bs' : Bytes} (h : bs < bs') : ¬ bs' < bs := List.lex_asymm UInt8.lt_asymm h

theorem bytes_eq_of_not_lt {bs bs' : Bytes} (h : ¬ bs < bs') (h' : ¬ bs' < bs) : bs = bs' :=
  List.lex_trichotomous (fun _ _ hxy hyx => UInt8.le_antisymm (UInt8.not_lt.mp hyx) (UInt8.not_lt.mp hxy)) h' h

/-- The order the ids are passed in does not matter. -/
theorem deriveSas_comm (a b : DeviceId) (e : Exporter) : deriveSas a b e = deriveSas b a e := by
  have hcontext : (deriveSas a b e).2 = (deriveSas b a e).2 := by
    rw [deriveSas_context, deriveSas_context]
    by_cases hab : a.bytes < b.bytes
    · rw [if_pos hab, if_neg (bytes_lt_asymm hab)]
    · by_cases hba : b.bytes < a.bytes
      · rw [if_neg hab, if_pos hba]
      · rw [bytes_eq_of_not_lt hab hba]
  exact Prod.ext rfl hcontext

theorem context_length (a b : DeviceId) (e : Exporter) : (deriveSas a b e).2.length = 64 := by
  rw [deriveSas_context]
  split <;> rw [List.length_append, a.size, b.size]

/-- A number below 10 ^ `width` is written in `width` digits. -/
theorem pad_digits {width n : Nat} (hwidth : 0 < width) (h : n < 10 ^ width) :
    (Discovery.pad width n).toList.length = width ∧ ∀ c ∈ (Discovery.pad width n).toList, c.isDigit = true := by
  have hlen := Nat.toDigits_length 10 n width hwidth h
  rw [Discovery.pad, String.toList_ofList]
  refine ⟨?_, fun c hc => ?_⟩
  · rw [List.length_append, List.length_replicate]
    omega
  · rcases List.mem_append.mp hc with hc | hc
    · rw [List.eq_of_mem_replicate hc]
      rfl
    · exact Nat.isDigit_of_mem_toDigits (by decide) (by decide) hc

theorem code_digits (a b : DeviceId) (e : Exporter) :
    (deriveSas a b e).1.toList.length = 6 ∧ ∀ c ∈ (deriveSas a b e).1.toList, c.isDigit = true :=
  pad_digits (by decide) (Nat.mod_lt _ (by decide))

end

/-! ## The two ends -/

section

variable {x : Ext} {extractSpki : Bytes → Except String Bytes} (s : TlsSession x extractSpki)

/-- The code of a session: the one both ends come to. -/
def TlsSession.code : Option String :=
  (s.exporter "NXFR-SAS-v0" (deriveSas s.client.deviceId s.server.deviceId zeroExporter).2).toOption.map fun e =>
    (deriveSas s.client.deviceId s.server.deviceId e).1

theorem nxfrConnectPeer_eq : nxfrConnectPeer x extractSpki s.atClient = .ok s.server.deviceId := by
  simp [nxfrConnectPeer, peerDeviceId, TlsSession.atClient, s.server.derived, Except.mapError]

theorem nxfrAcceptPeer_eq : nxfrAcceptPeer x extractSpki s.atServer = .ok s.client.deviceId := by
  simp [nxfrAcceptPeer, peerDeviceId, TlsSession.atServer, s.client.derived, Except.mapError]

@[simp] theorem atClient_export : s.atClient.exportKeyingMaterial = s.exporter := rfl

@[simp] theorem atServer_export : s.atServer.exportKeyingMaterial = s.exporter := rfl

theorem client_code (p : ClientProgram) : p.code s = s.code := by
  cases p with
  | cmdPair =>
    simp only [ClientProgram.code, cmdPairCode, TlsSession.atClient, s.server.derived, ne_eq, not_true_eq_false, if_false,
      hexDecode_encode, s.server.deviceId.size, dite_true, TlsSession.code, deriveSas_context]
    cases s.exporter "NXFR-SAS-v0" _ with
    | error e => rfl
    | ok e => rfl
  | nxfrPairBegin =>
    simp only [ClientProgram.code, nxfrPairBeginCode, nxfrConnectPeer_eq, atClient_export, TlsSession.code,
      pairBeginContext_eq _ _ zeroExporter]
    cases s.exporter "NXFR-SAS-v0" _ with
    | error e => rfl
    | ok e => rfl

theorem server_code (p : ServerProgram) : p.code s = s.code := by
  have hcert : (s.atServer.certificates.getD []).head?.getD [] = s.client.cert := rfl
  rw [TlsSession.code, deriveSas_comm s.client.deviceId s.server.deviceId zeroExporter]
  simp only [deriveSas_comm s.client.deviceId s.server.deviceId]
  cases p with
  | handleIncoming =>
    simp only [ServerProgram.code, handleIncomingCode, hcert, s.client.derived, atServer_export, Except.toOption,
      Option.getD_some]
    cases s.exporter "NXFR-SAS-v0" _ with
    | error e => rfl
    | ok e => rfl
  | nxfrAccept =>
    simp only [ServerProgram.code, nxfrAcceptCode, nxfrAcceptPeer_eq, atServer_export,
      acceptContext_eq _ _ zeroExporter]
    cases s.exporter "NXFR-SAS-v0" _ with
    | error e => rfl
    | ok e => rfl
  | nxfrPairBegin =>
    simp only [ServerProgram.code, nxfrPairBeginCode, nxfrAcceptPeer_eq, atServer_export,
      pairBeginContext_eq _ _ zeroExporter]
    cases s.exporter "NXFR-SAS-v0" _ with
    | error e => rfl
    | ok e => rfl

/-- A pairing with another id than the server's shows no code. -/
theorem cmdPairCode_other {deviceId : String} (h : hexEncode s.server.deviceId.bytes ≠ deviceId) :
    (cmdPairCode x extractSpki deviceId s.client.deviceId s.atClient).toOption = none := by
  simp only [cmdPairCode, TlsSession.atClient, s.server.derived, if_pos h]
  rfl

/-- **Both devices show one code.** The order of the ids does not matter to
`derive_sas`, whose code has six digits and whose context 64 bytes; the contexts
the library puts together are that context; and whichever programs are at the
two ends of a session, they show the same code, or none. -/
theorem sas_agreement :
    (∀ a b e, deriveSas a b e = deriveSas b a e ∧ (deriveSas a b e).1.toList.length = 6 ∧
      (∀ c ∈ (deriveSas a b e).1.toList, c.isDigit = true) ∧ (deriveSas a b e).2.length = 64) ∧
    (∀ a b e, acceptContext a b = (deriveSas a b e).2 ∧ pairBeginContext a b = (deriveSas a b e).2) ∧
    ∀ (x : Ext) (extractSpki : Bytes → Except String Bytes) (s : TlsSession x extractSpki) (p : ClientProgram)
      (q : ServerProgram), p.code s = q.code s := by
  refine ⟨fun a b e => ?_, fun a b e => ⟨acceptContext_eq a b e, pairBeginContext_eq a b e⟩, fun x extractSpki s p q => ?_⟩
  · obtain ⟨hlen, hdigits⟩ := code_digits a b e
    exact ⟨deriveSas_comm a b e, hlen, hdigits, context_length a b e⟩
  · rw [client_code, server_code]

end

/-! ## A session -/

/-- A key of P-256 as a SubjectPublicKeyInfo. -/
def samplePeerSpki : Bytes :=
  [0x30, 0x59, 0x30, 0x13, 0x06, 0x07, 0x2a, 0x86, 0x48, 0xce, 0x3d, 0x02, 0x01, 0x06, 0x08, 0x2a, 0x86, 0x48,
   0xce, 0x3d, 0x03, 0x01, 0x07, 0x03, 0x42, 0x00, 0x04, 0x47, 0xd6, 0x47, 0x7e, 0xd6, 0x4f, 0x21, 0x8a, 0x3e,
   0x65, 0xda, 0x6e, 0x0c, 0x73, 0x99, 0xbd, 0x5f, 0x0d, 0x13, 0x2e, 0x2e, 0xfd, 0xbf, 0x88, 0x26, 0x0e, 0x21,
   0xc9, 0x78, 0x53, 0xe3, 0x8c, 0x38, 0x36, 0xbc, 0xa2, 0x2d, 0xba, 0x56, 0x80, 0x1c, 0x79, 0x97, 0xd1, 0x79,
   0xd0, 0x76, 0xda, 0x7d, 0x31, 0x14, 0xaa, 0xca, 0x07, 0x72, 0xcc, 0xcf, 0x9e, 0xda, 0xa7, 0x11, 0xf0, 0x3d,
   0x81]

/-- A self-signed certificate of that key, for `nxfr-node`. -/
def samplePeerCert : Bytes :=
  [0x30, 0x82, 0x01, 0x92, 0x30, 0x82, 0x01, 0x39, 0xa0, 0x03, 0x02, 0x01, 0x02, 0x02, 0x14, 0x7c, 0xcd, 0x5c,
   0x9d, 0xb9, 0x7d, 0x23, 0xc2, 0x11, 0x1b, 0x00, 0xa4, 0x90, 0x98, 0x9b, 0xec, 0x5f, 0x22, 0x90, 0xae, 0x30,
   0x0a, 0x06, 0x08, 0x2a, 0x86, 0x48, 0xce, 0x3d, 0x04, 0x03, 0x02, 0x30, 0x14, 0x31, 0x12, 0x30, 0x10, 0x06,
   0x03, 0x55, 0x04, 0x03, 0x0c, 0x09, 0x6e, 0x78, 0x66, 0x72, 0x2d, 0x6e, 0x6f, 0x64, 0x65, 0x30, 0x1e, 0x17,
   0x0d, 0x32, 0x36, 0x31, 0x31, 0x31, 0x39, 0x30, 0x36, 0x32, 0x37, 0x33, 0x30, 0x5a, 0x17, 0x0d, 0x33, 0x36,
   0x31, 0x31, 0x31, 0x36, 0x30, 0x36, 0x32, 0x37, 0x33, 0x30, 0x5a, 0x30, 0x14, 0x31, 0x12, 0x30, 0x10, 0x06,
   0x03, 0x55, 0x04, 0x03, 0x0c, 0x09, 0x6e, 0x78, 0x66, 0x72, 0x2d, 0x6e, 0x6f, 0x64, 0x65] ++ samplePeerSpki ++
  [0xa3, 0x69, 0x30, 0x67, 0x30, 0x1d, 0x06, 0x03, 0x55, 0x1d, 0x0e, 0x04, 0x16, 0x04, 0x14, 0x54, 0x1e, 0x24,
   0x08, 0xe4, 0x16, 0x5c, 0xd7, 0x5c, 0xbf, 0x2e, 0x85, 0xc4, 0x84, 0x38, 0xc2, 0xef, 0xae, 0xc8, 0xd0, 0x30,
   0x1f, 0x06, 0x03, 0x55, 0x1d, 0x23, 0x04, 0x18, 0x30, 0x16, 0x80, 0x14, 0x54, 0x1e, 0x24, 0x08, 0xe4, 0x16,
   0x5c, 0xd7, 0x5c, 0xbf, 0x2e, 0x85, 0xc4, 0x84, 0x38, 0xc2, 0xef, 0xae, 0xc8, 0xd0, 0x30, 0x0f, 0x06, 0x03,
   0x55, 0x1d, 0x13, 0x01, 0x01, 0xff, 0x04, 0x05, 0x30, 0x03, 0x01, 0x01, 0xff, 0x30, 0x14, 0x06, 0x03, 0x55,
   0x1d, 0x11, 0x04, 0x0d, 0x30, 0x0b, 0x82, 0x09, 0x6e, 0x78, 0x66, 0x72, 0x2d, 0x6e, 0x6f, 0x64, 0x65, 0x30,
   0x0a, 0x06, 0x08, 0x2a, 0x86, 0x48, 0xce, 0x3d, 0x04, 0x03, 0x02, 0x03, 0x47, 0x00, 0x30, 0x44, 0x02, 0x20,
   0x55, 0xbb, 0x3f, 0xe7, 0xa2, 0x2a, 0x7b, 0xea, 0x71, 0x9a, 0x34, 0x71, 0x78, 0x51, 0x42, 0x29, 0x13, 0xa4,
   0x64, 0x49, 0x0c, 0x4d, 0xca, 0xe8, 0x1b, 0x26, 0x36, 0xb0, 0x11, 0xe8, 0x18, 0x58, 0x02, 0x20, 0x52, 0xa4,
   0xfa, 0x9c, 0x91, 0x46, 0x31, 0xeb, 0xac, 0xec, 0xf7, 0x3a, 0xb1, 0xd5, 0x5d, 0x68, 0x2b, 0x7e, 0x4a, 0xd9,
   0x7f, 0xfb, 0xc9, 0xf7, 0xc9, 0x62, 0x08, 0x15, 0x71, 0x38, 0x6d, 0x55]

def samplePeerId : DeviceId :=
  ⟨[0x78, 0xc5, 0x3c, 0x85, 0xde, 0x4c, 0x1e, 0xe0, 0x69, 0xc1, 0xf2, 0xc2, 0x17, 0x6c, 0x54, 0xa0, 0xc8, 0xc0,
    0x65, 0x07, 0x00, 0x3d, 0x16, 0xac, 0x94, 0xcb, 0x83, 0x7a, 0x01, 0xaa, 0xde, 0x44], rfl⟩

/-- The hash and the parser, on these two devices. -/
def pairExt : Ext := { samplePeers with sha256 := fun bs => if bs = samplePeerSpki then samplePeerId else samplePeers.sha256 bs }

def pairExtractSpki (cert : Bytes) : Except String Bytes :=
  if cert = samplePeerCert then .ok samplePeerSpki else sampleExtractSpki cert

theorem deviceIdFromCert_sample : deviceIdFromCert pairExt pairExtractSpki sampleCert = .ok sampleDeviceId := by
  have hcert : sampleCert ≠ samplePeerCert := by decide +kernel
  have hspki : sampleSpki ≠ samplePeerSpki := by decide +kernel
  rw [← sampleCert_id]
  simp only [deviceIdFromCert, pairExtractSpki, if_neg hcert, sampleExtractSpki, if_true, Except.map, pairExt, if_neg hspki]

theorem deviceIdFromCert_samplePeer : deviceIdFromCert pairExt pairExtractSpki samplePeerCert = .ok samplePeerId := by
  simp only [deviceIdFromCert, pairExtractSpki, if_true, Except.map, pairExt]

/-- One connects to the other. -/
def sampleSession : TlsSession pairExt pairExtractSpki where
  client := ⟨sampleCert, sampleDeviceId, deviceIdFromCert_sample⟩
  server := ⟨samplePeerCert, samplePeerId, deviceIdFromCert_samplePeer⟩
  clientChain := []
  serverChain := []
  exporter _ _ := .ok ⟨[1, 2, 3, 4], rfl⟩

/-- The daemon and the library show the same code. -/
theorem sas_agreement_sample :
    ClientProgram.cmdPair.code sampleSession = some "909060" ∧
      ServerProgram.nxfrAccept.code sampleSession = some "909060" := by
  have hcode : ClientProgram.cmdPair.code sampleSession = some "909060" := by
    rw [client_code]
    decide +kernel
  exact ⟨hcode, (sas_agreement.2.2 pairExt pairExtractSpki sampleSession .cmdPair .nxfrAccept).symm.trans hcode⟩

end Nxfr.Sas

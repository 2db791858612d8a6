/-
The responder of the daemon (`nxfr-daemon/src/handler.rs`):
`handle_incoming_transfer`, and around it the message loop of
`handle_incoming` from the HELLO_ACK on.

Each loop is a function of the frame it reads. `TransferState` is a transfer
under way, `Session` a connection; a return of the inner function with an
error ends the connection, one without goes back to the message loop. What
the user answers to an offer is a parameter of the session, and a PAIR_REQUEST
hands the connection over to the pairing exchange. The clock stands still
within a session.
-/
import Nxfr.Network
import Nxfr.Receiver

namespace Nxfr

/-- The parameters of `handle_incoming_transfer` that stay fixed. -/
structure Transfer where
  transferId : TransferId
  peerIdHex : String
  displayName : String
  manifest : List ManifestEntry
  receiveDir : Path
  now : Nat

/-- A file `receive_file` has put in place, as its FILE_METADATA announced
it, with the destination and the bytes there. -/
structure StoredFile where
  fileId : Nat
  relativePath : String
  size : Nat
  sha256 : Digest
  dest : Path
  content : Bytes

/-- Where `handle_incoming_transfer` waits for a frame: at the top of its
loop, or in `receive_file` for the file of `relativePath`. -/
inductive Phase where
  | negotiate
  | receiving (a : RecvArgs) (relativePath : String) (l : RecvLocals)
  | returned (r : Except Fail Unit)

/-- The variables of `handle_incoming_transfer`. `stored` records what was
put in place so far; no branch reads it. -/
structure TransferState where
  recv : RecvState
  receivedFiles : Nat
  phase : Phase
  stored : List StoredFile

/-- `conn.send_control(..).await?`, then the rest. -/
def TransferState.send (x : Ext) (st : TransferState) (m : ControlMessage)
    (k : TransferState → TransferState) : TransferState :=
  match st.recv.conn.sendControl x m with
  | none => { st with phase := .returned (.error .io) }
  | some conn => k { st with recv := { st.recv with conn } }

section

variable (x : Ext) (t : Transfer)

/-- The directories of the manifest, those that can be made. -/
def createDirs (fs : Fs) : Fs :=
  t.manifest.foldl (fun fs e => match e.entryType, sanitizePath e.relativePath with
    | .dir, .ok sanitized => (fs.createDirAll (joinPath t.receiveDir sanitized)).getD fs
    | _, _ => fs) fs

/-- The journal state of a transfer that has none yet. -/
def freshResume : ResumeState :=
  { transferId := hexEncode t.transferId.bytes
    peerDeviceId := t.peerIdHex
    displayName := t.displayName
    manifest := t.manifest.map fun e =>
      { fileId := e.fileId
        relativePath := e.relativePath
        size := e.size.getD 0
        sha256 := (e.sha256.map fun h => hexEncode h.bytes).getD "" }
    files := ∅
    createdAt := t.now
    expiresAt := t.now + 86400
    version := 1 }

/-- The saved state, where it has files, or a fresh one. -/
def loadResume (j : Journal) : ResumeState := match j (hexEncode t.transferId.bytes) with
  | some existing => if existing.files.keys = [] then freshResume t else existing
  | none => freshResume t

/-- `handle_incoming_transfer` up to its loop. -/
def startTransfer (fs : Fs) (j : Journal) (conn : Conn) : TransferState :=
  { recv := { fs := createDirs t fs, journal := j, resume := loadResume t j, conn }
    receivedFiles := 0
    phase := .negotiate
    stored := [] }

/-- §13.6: part of the file is here, and it was part of another content. -/
def isModified (resume : ResumeState) (fileId : Nat) (sha256 : Digest) : Bool :=
  let manifestSha := ((resume.manifest.find? (·.fileId == fileId)).map (·.sha256)).getD ""
  resume.hasPartial fileId && manifestSha != "" && manifestSha != hexEncode sha256.bytes

/-- What follows a piece of `receive_file`. -/
def afterReceive (a : RecvArgs) (relativePath : String) (st : TransferState) :
    Flow RecvLocals × RecvState → TransferState
  | (.next l, recv) => { st with recv, phase := .receiving a relativePath l }
  | (.ret (.error e), recv) => { st with recv, phase := .returned (.error e) }
  | (.ret (.ok dest), recv) =>
    let file := { fileId := a.fileId, relativePath, size := a.expectedSize, sha256 := a.expectedHash, dest
                  content := (recv.fs.read dest).getD [] }
    { recv, receivedFiles := st.receivedFiles + 1, phase := .negotiate, stored := st.stored ++ [file] }

/-- The journal entry a file starts with, unless part of it is here. -/
def ResumeState.begin (resume : ResumeState) (fileId : Nat) (part : Path) : ResumeState :=
  if resume.hasPartial fileId then resume
  else { resume with files := resume.files.insert fileId ⟨0, [], none, part⟩ }

/-- An accepted FILE_METADATA, after its acknowledgement. -/
def beginFile (fileId streamId : Nat) (relativePath sanitized : String) (size : Nat) (sha256 : Digest)
    (st : TransferState) : TransferState :=
  match resolveSafePath st.recv.fs t.receiveDir sanitized with
  | .error e =>
    st.send x (.error .pathRejected (some ("PathTraversalAttempt: " ++ e.display x)) false none) id
  | .ok dest => match st.recv.fs.createDirAll dest.dropLast with
    | none => { st with phase := .returned (.error .io) }
    | some fs =>
      let resume := st.recv.resume.begin fileId (partPath dest)
      let recv := { st.recv with fs, resume, journal := st.recv.journal.save resume }
      let a := { fileId, streamId, expectedSize := size, expectedHash := sha256, partPath := partPath dest,
                 finalPath := dest }
      afterReceive a relativePath st (receiveOpen x t.now a recv)

/-- A FILE_METADATA message. -/
def onMetadata (fileId streamId : Nat) (relativePath : String) (size : Nat) (sha256 : Digest)
    (st : TransferState) : TransferState :=
  match sanitizePath relativePath with
  | .error e =>
    st.send x (.error .pathRejected (some ("path rejected: " ++ e.display x)) false none) fun st =>
      st.send x (.fileMetadataAck t.transferId fileId streamId false) id
  | .ok sanitized =>
    if isModified st.recv.resume fileId sha256 then
      let recv := st.recv.removeFile (partPath (joinPath t.receiveDir sanitized))
      let resume := { recv.resume with files := recv.resume.files.erase fileId }
      let st := { st with recv := { recv with resume, journal := recv.journal.save resume } }
      st.send x (.fileMetadataAck t.transferId fileId streamId false) id
    else
      st.send x (.fileMetadataAck t.transferId fileId streamId true)
        (beginFile x t fileId streamId relativePath sanitized size sha256)

/-- A control message at the top of the loop. -/
def onTransferMessage (m : ControlMessage) (st : TransferState) : TransferState :=
  match m with
  | .fileMetadata _ fileId streamId relativePath size sha256 _ _ =>
    onMetadata x t fileId streamId relativePath size sha256 st
  | .transferComplete _ =>
    st.send x (.transferAck t.transferId .success none) fun st =>
      { st with
        recv := { st.recv with journal := st.recv.journal.delete (hexEncode t.transferId.bytes) }
        phase := .returned (.ok ()) }
  | .transferCancel _ _ => { st with phase := .returned (.ok ()) }
  | .sessionClose _ =>
    st.send x (.sessionClose (some "normal")) fun st => { st with phase := .returned (.ok ()) }
  | _ => st

/-- The frame `handle_incoming_transfer` reads, in whichever loop it is. -/
def transferStep (f : Frame) (st : TransferState) : TransferState :=
  match st.phase with
  | .negotiate => match f.kind, f.control with
    | .control, .error e => { st with phase := .returned (.error (.codec e)) }
    | .control, .ok m => onTransferMessage x t m st
    | _, _ => st
  | .receiving a relativePath l => afterReceive a relativePath st (receiveStep x t.now a l f st.recv)
  | .returned _ => st

end

/-! ## The connection -/

/-- What a connection is configured with: the peer's identity, the receive
directory, the clock, and the user's answer to an offer (`none`: yes; a
reason: no). -/
structure SessionConfig where
  peerIdHex : String
  receiveDir : Path
  now : Nat
  declined : Option String

inductive Session where
  | idle (fs : Fs) (journal : Journal) (conn : Conn)
  | transfer (t : Transfer) (st : TransferState)
  | pairing (fs : Fs) (journal : Journal) (conn : Conn) (sasMethod : String)
  | closed (fs : Fs) (journal : Journal) (conn : Conn) (r : Except Fail Unit)

namespace Session

def fs : Session → Fs
  | .idle fs _ _ | .pairing fs _ _ _ | .closed fs _ _ _ => fs
  | .transfer _ st => st.recv.fs

def journal : Session → Journal
  | .idle _ j _ | .pairing _ j _ _ | .closed _ j _ _ => j
  | .transfer _ st => st.recv.journal

def conn : Session → Conn
  | .idle _ _ c | .pairing _ _ c _ | .closed _ _ c _ => c
  | .transfer _ st => st.recv.conn

def withConn (c : Conn) : Session → Session
  | .idle fs j _ => .idle fs j c
  | .pairing fs j _ method => .pairing fs j c method
  | .closed fs j _ r => .closed fs j c r
  | .transfer t st => .transfer t { st with recv := { st.recv with conn := c } }

/-- Where the connection is after a step of its transfer. -/
def ofTransfer (t : Transfer) (st : TransferState) : Session := match st.phase with
  | .returned (.ok ()) => .idle st.recv.fs st.recv.journal st.recv.conn
  | .returned (.error e) => .closed st.recv.fs st.recv.journal st.recv.conn (.error e)
  | _ => .transfer t st

end Session

section

variable (x : Ext) (cfg : SessionConfig)

/-- `conn.send_control(..).await?` of the message loop, then the rest. -/
def sendIdle (fs : Fs) (j : Journal) (conn : Conn) (m : ControlMessage) (k : Conn → Session) : Session :=
  match conn.sendControl x m with
  | none => .closed fs j conn (.error .io)
  | some conn => k conn

/-- The answer to a RESUME_QUERY. -/
def resumeStatus (j : Journal) (transferId : TransferId) (fileIds : Option (List Nat)) : ControlMessage :=
  match j (hexEncode transferId.bytes) with
  | none => .resumeStatus transferId false none none
  | some rs =>
    if rs.peerDeviceId ≠ cfg.peerIdHex then .resumeStatus transferId false none none
    else if rs.expiresAt < cfg.now then .resumeStatus transferId false none none
    else
      let wanted := rs.files.entries.filter fun e => fileIds.all (·.contains e.1)
      let files := wanted.map fun e =>
        { fileId := e.1, receivedBytes := e.2.receivedBytes, receivedRanges := e.2.receivedRanges
          partialSha256 := none }
      .resumeStatus transferId true (some files) (some rs.expiresAt.toNat)

/-- The manifest of a resumed transfer, back from its journal. -/
def resumeManifest (rs : ResumeState) : List ManifestEntry :=
  rs.manifest.map fun m =>
    { fileId := m.fileId
      relativePath := m.relativePath
      size := some m.size
      sha256 := (hexDecode m.sha256).bind fun bs => if h : bs.length = 32 then some ⟨bs, h⟩ else none
      entryType := .file }

/-- `handle_incoming_transfer` is called. -/
def enterTransfer (fs : Fs) (j : Journal) (conn : Conn) (transferId : TransferId) (displayName : String)
    (manifest : List ManifestEntry) : Session :=
  let t := { transferId, peerIdHex := cfg.peerIdHex, displayName, manifest, receiveDir := cfg.receiveDir
             now := cfg.now }
  .transfer t (startTransfer t fs j conn)

/-- A control message in the message loop. -/
def onSessionMessage (fs : Fs) (j : Journal) (conn : Conn) (m : ControlMessage) : Session :=
  match m with
  | .transferRequest transferId _ displayName _ _ manifest => match cfg.declined with
    | some reason =>
      sendIdle x fs j conn (.transferReject transferId (some reason)) (.idle fs j)
    | none => match conn.sendControl x (.transferAccept transferId) with
      | none => .idle fs j conn
      | some conn => enterTransfer cfg fs j conn transferId displayName manifest
  | .resumeQuery transferId fileIds =>
    let status := resumeStatus cfg j transferId fileIds
    sendIdle x fs j conn status fun conn => match status, j (hexEncode transferId.bytes) with
      | .resumeStatus _ true _ _, some rs =>
        enterTransfer cfg fs j conn transferId rs.displayName (resumeManifest rs)
      | _, _ => .idle fs j conn
  | .pairRequest sasMethod => .pairing fs j conn sasMethod
  | .sessionClose _ =>
    sendIdle x fs j conn (.sessionClose (some "normal")) fun conn => .closed fs j conn (.ok ())
  | _ => .idle fs j conn

/-- The answer to a keepalive: its payload back. -/
def pong (ping : Frame) : Frame :=
  { kind := .keepalive, flags := 1, streamId := 0, messageId := 0, payload := ping.payload
    control := ping.control }

/-- The frame the connection reads. -/
def sessionStep (s : Session) (f : Frame) : Session :=
  match s with
  | .idle fs j conn => match f.kind, f.control with
    | .control, .error e => .closed fs j conn (.error (.codec e))
    | .control, .ok m => onSessionMessage x cfg fs j conn m
    | .keepalive, _ =>
      if f.isPong then .idle fs j conn
      else match conn.write (pong f) with
        | none => .closed fs j conn (.error .io)
        | some conn => .idle fs j conn
    | .chunk, _ => .idle fs j conn
  | .transfer t st => .ofTransfer t (transferStep x t f st)
  | s => s

/-- The connection is lost while it waits for a frame. -/
def sessionLost : Session → Session
  | .idle fs j conn => .closed fs j conn (.ok ())
  | .transfer _ st => .closed st.recv.fs st.recv.journal st.recv.conn (.error .io)
  | s => s

open Network in
/-- The responder as a party: it writes what it has to write, then waits. -/
def responder (s : Session) : Act Frame Session :=
  match s.conn.outbox with
  | f :: fs => .send f (s.withConn { s.conn with outbox := fs })
  | [] => match s with
    | .closed _ _ _ _ => .halt true
    | .pairing _ _ _ _ => .halt false
    | s => .recv (sessionStep x cfg s) (sessionLost s)

end

end Nxfr

/-
The receiving side of the mobile library (`nxfr-ffi/src/lib.rs`): the reader
task that takes the offer, `nxfr_confirm`, and `do_receive_file`.

As with the daemon each loop is a function of the frame it reads.
`MobileState` is a transfer under way, `MobileSession` a connection. The
file's `expected_offset` and `file_received_bytes` are one number, and
`canonicalize` leaves the receive directory as it is. Progress events are
left out; the clock stands still within a session.
-/
import Nxfr.Handler

namespace Nxfr

/-- What `do_receive_file` reads of a `PendingOffer`. -/
structure PendingOffer where
  transferId : TransferId
  manifest : List ManifestEntry

/-- `[u8; 8]`, filled from `SystemRandom`. -/
structure RandBytes where
  bytes : Bytes
  size : bytes.length = 8

/-- What a connection is configured with: the receive directory, the clock,
the user's answer to the offer, and the bytes of each draw. -/
structure MobileConfig where
  receiveDir : Path
  now : Nat
  accept : Bool
  rand : Nat → RandBytes

/-- The name of the temporary file beside a destination. -/
def tmpName (transferId : TransferId) (randBytes : RandBytes) (name : String) : String :=
  "." ++ name ++ "." ++ hexEncode transferId.bytes ++ "_" ++ hexEncode randBytes.bytes ++ ".nxfr_tmp"

/-- The file of a turn of the outer loop. -/
structure MobileFile where
  fileId : Nat
  streamId : Nat
  relativePath : String
  expectedSize : Nat
  expectedHash : Digest
  finalPath : Path
  tmpPath : Path

/-- Where `do_receive_file` waits for a frame. -/
inductive MobilePhase where
  | files
  | chunks (a : MobileFile) (l : RecvLocals)
  | returned (r : Except Fail Unit)

/-- The variables of `do_receive_file`. `stored` records what was put in
place so far; no branch reads it. -/
structure MobileState where
  fs : Fs
  conn : Conn
  draws : Nat
  receivedFiles : Nat
  phase : MobilePhase
  stored : List StoredFile

/-- `expected_files_count`. -/
def PendingOffer.expectedFiles (offer : PendingOffer) : Nat :=
  max (offer.manifest.filter fun e => e.entryType == .file).length 1

namespace MobileState

/-- `return Err(..)`. -/
def ret (st : MobileState) (e : Fail) : MobileState := { st with phase := .returned (.error e) }

/-- The same with a `TmpFileGuard` not committed. -/
def dropTmp (st : MobileState) (a : MobileFile) (e : Fail) : MobileState :=
  { st with fs := (st.fs.removeFile a.tmpPath).getD st.fs, phase := .returned (.error e) }

/-- `conn.send_control(..).await?`, then the rest. -/
def send (x : Ext) (st : MobileState) (m : ControlMessage) (k : MobileState → MobileState) : MobileState :=
  match st.conn.sendControl x m with
  | none => st.ret .io
  | some conn => k { st with conn }

end MobileState

section

variable (x : Ext) (cfg : MobileConfig) (offer : PendingOffer)

/-- The directories of the manifest. A path that is refused ends the
transfer, a directory that cannot be made does not. -/
def precreateDirs : List ManifestEntry → Fs → Fs × Option Fail
  | [], fs => (fs, none)
  | e :: es, fs =>
    if e.entryType = .dir then
      match resolveSafePath fs cfg.receiveDir e.relativePath with
      | .error err => (fs, some (.text ("unsafe directory path '" ++ e.relativePath ++ "': " ++ err.display x)))
      | .ok dir => precreateDirs es ((fs.createDirAll dir).getD fs)
    else precreateDirs es fs

/-- `do_receive_file` up to its loop. -/
def startReceive (fs : Fs) (conn : Conn) : MobileState :=
  let st := { fs, conn, draws := 0, receivedFiles := 0, phase := .files, stored := [] }
  MobileState.send x st (.transferAccept offer.transferId) fun st =>
    match st.fs.createDirAll cfg.receiveDir with
    | none => st.ret .io
    | some fs => match precreateDirs x cfg offer.manifest fs with
      | (fs, some e) => { st with fs }.ret e
      | (fs, none) => { st with fs }

/-- `do_receive_file` after its loop. -/
def sendTransferAck (st : MobileState) : MobileState :=
  st.send x (.transferAck offer.transferId .success none) fun st => { st with phase := .returned (.ok ()) }

/-- The test of the outer loop. -/
def nextFile (st : MobileState) : MobileState :=
  if st.receivedFiles < offer.expectedFiles then { st with phase := .files } else sendTransferAck x offer st

/-- A file after the acknowledgement of its metadata, up to its chunk loop. -/
def openTmp (fileId streamId : Nat) (relativePath : String) (size : Nat) (sha256 : Digest) (st : MobileState) :
    MobileState :=
  match resolveSafePath st.fs cfg.receiveDir relativePath with
  | .error err => st.ret (.text ("unsafe file path '" ++ relativePath ++ "': " ++ err.display x))
  | .ok finalPath =>
    let fs := (st.fs.createDirAll finalPath.dropLast).getD st.fs
    let tmpPath := renameLast (tmpName offer.transferId (cfg.rand st.draws)) finalPath
    let st := { st with fs, draws := st.draws + 1 }
    match fs.create tmpPath with
    | none => st.ret .io
    | some fs =>
      let a := { fileId, streamId, relativePath, expectedSize := size, expectedHash := sha256, finalPath, tmpPath }
      { st with fs, phase := .chunks a ⟨0, []⟩ }

/-- A FILE_METADATA message, which is always acknowledged. -/
def mobileMetadata (fileId streamId : Nat) (relativePath : String) (size : Nat) (sha256 : Digest) (st : MobileState) :
    MobileState :=
  st.send x (.fileMetadataAck offer.transferId fileId streamId true)
    (openTmp x cfg offer fileId streamId relativePath size sha256)

/-- A file after its chunk loop. -/
def finishMobile (a : MobileFile) (l : RecvLocals) (st : MobileState) : MobileState :=
  if x.sha256 l.hasher ≠ a.expectedHash then
    st.dropTmp a (.text ("file hash mismatch for " ++ a.relativePath ++ ": expected " ++
      hexEncode a.expectedHash.bytes ++ ", got " ++ hexEncode (x.sha256 l.hasher).bytes))
  else
    let finalDest := resolveCollision cfg.now st.fs a.finalPath
    match st.fs.rename a.tmpPath finalDest with
    | none => st.dropTmp a .io
    | some fs =>
      let file := { fileId := a.fileId, relativePath := a.relativePath, size := a.expectedSize
                    sha256 := a.expectedHash, dest := finalDest, content := (fs.read finalDest).getD [] }
      nextFile x offer { st with fs, receivedFiles := st.receivedFiles + 1, stored := st.stored ++ [file] }

/-- A CHUNK frame of the chunk loop, which does not look at the stream. -/
def mobileChunk (a : MobileFile) (l : RecvLocals) (f : Frame) (st : MobileState) : MobileState :=
  if f.payload.length < 41 then st.dropTmp a (.text "chunk too small")
  else
    let chunkOffset := fromBeBytes (f.payload.take 8)
    let chunkHash := (f.payload.drop 8).take 32
    let data := f.payload.drop 40
    if chunkOffset ≠ l.receivedBytes then
      st.dropTmp a (.text ("chunk offset mismatch: expected " ++ toString l.receivedBytes ++ ", got " ++
        toString chunkOffset))
    else if (x.sha256 data).bytes ≠ chunkHash then
      st.dropTmp a (.text ("chunk hash mismatch at offset " ++ toString chunkOffset))
    else match st.fs.append a.tmpPath data with
      | none => st.dropTmp a .io
      | some fs =>
        let l := ⟨l.receivedBytes + data.length, l.hasher ++ data⟩
        let st := { st with fs }
        match st.conn.sendControl x (.chunkAck a.streamId f.messageId chunkOffset data.length) with
        | none => st.dropTmp a .io
        | some conn =>
          let st := { st with conn }
          if f.isLastChunk || l.receivedBytes ≥ a.expectedSize then finishMobile x cfg offer a l st
          else { st with phase := .chunks a l }

/-- The frame `do_receive_file` reads, in whichever loop it is. -/
def mobileStep (f : Frame) (st : MobileState) : MobileState :=
  match st.phase with
  | .files => match f.kind, f.control with
    | .control, .error e => st.ret (.codec e)
    | .control, .ok (.fileMetadata _ fileId streamId relativePath size sha256 _ _) =>
      mobileMetadata x cfg offer fileId streamId relativePath size sha256 st
    | .control, .ok (.transferCancel _ _) => st.ret (.text "transfer cancelled by peer")
    | .control, .ok (.transferComplete _) => sendTransferAck x offer st
    | _, _ => st
  | .chunks a l => match f.kind, f.control with
    | .control, .error e => st.dropTmp a (.codec e)
    | .control, .ok (.transferComplete _) => finishMobile x cfg offer a l st
    | .control, .ok (.transferCancel _ _) => st.dropTmp a (.text "transfer cancelled by peer")
    | .chunk, _ => mobileChunk x cfg offer a l f st
    | _, _ => st
  | .returned _ => st

/-- The connection is lost while `do_receive_file` waits for a frame. -/
def mobileLost (st : MobileState) : MobileState := match st.phase with
  | .files => st.ret .io
  | .chunks a _ => st.dropTmp a .io
  | .returned _ => st

end

/-! ## The connection -/

/-- The reader task waits for the offer; no task has the connection; or
`do_receive_file` has it. -/
inductive MobileSession where
  | reading (fs : Fs) (conn : Conn)
  | idle (fs : Fs) (conn : Conn)
  | receiving (offer : PendingOffer) (st : MobileState)

namespace MobileSession

def fs : MobileSession → Fs
  | .reading fs _ | .idle fs _ => fs
  | .receiving _ st => st.fs

def conn : MobileSession → Conn
  | .reading _ c | .idle _ c => c
  | .receiving _ st => st.conn

def withConn (c : Conn) : MobileSession → MobileSession
  | .reading fs _ => .reading fs c
  | .idle fs _ => .idle fs c
  | .receiving offer st => .receiving offer { st with conn := c }

/-- What `do_receive_file` has put in place. -/
def stored : MobileSession → List StoredFile
  | .reading _ _ | .idle _ _ => []
  | .receiving _ st => st.stored

end MobileSession

section

variable (x : Ext) (cfg : MobileConfig)

/-- The frame the connection reads. The reader task takes one; the answer to
an offer is `nxfr_confirm`'s. -/
def mobileSessionStep (s : MobileSession) (f : Frame) : MobileSession :=
  match s with
  | .reading fs conn => match f.kind, f.control with
    | .control, .ok (.transferRequest transferId _ _ _ _ manifest) =>
      let offer := { transferId, manifest }
      if cfg.accept then .receiving offer (startReceive x cfg offer fs conn)
      else .idle fs ((conn.sendControl x (.transferReject transferId (some "user_rejected"))).getD conn)
    | _, _ => .idle fs conn
  | .idle fs conn => .idle fs conn
  | .receiving offer st => .receiving offer (mobileStep x cfg offer f st)

def mobileSessionLost : MobileSession → MobileSession
  | .reading fs conn => .idle fs conn
  | .idle fs conn => .idle fs conn
  | .receiving offer st => .receiving offer (mobileLost st)

open Network in
/-- The receiver as a party: it writes what it has to write, then waits. The
connection stays with the session when a task ends. -/
def mobileReceiver (s : MobileSession) : Act Frame MobileSession :=
  match s.conn.outbox with
  | f :: fs => .send f (s.withConn { s.conn with outbox := fs })
  | [] => match s with
    | .idle _ _ | .receiving _ { phase := .returned _, .. } => .halt false
    | s => .recv (mobileSessionStep x cfg s) (mobileSessionLost s)

end

end Nxfr

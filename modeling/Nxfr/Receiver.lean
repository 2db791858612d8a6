/-
`receive_file` (`nxfr-daemon/src/receiver.rs`): chunks into a `.part` file,
journal after each, hash and size at the end, one rename.

The loop is one function of the frame it reads (`receiveStep`); a run
(`receiveFile`) feeds it the frames the connection delivers and ends with a
connection error when they run out. The hasher is the bytes it was fed.
Reads and writes of files and of the journal succeed where the paths allow
them; writes to the connection fail once it is lost.
-/
import Nxfr.Journal

namespace Nxfr

/-- The parameters of `receive_file` that stay fixed. -/
structure RecvArgs where
  fileId : Nat
  streamId : Nat
  expectedSize : Nat
  expectedHash : Digest
  partPath : Path
  finalPath : Path

/-- What `receive_file` reads and changes outside itself. -/
structure RecvState where
  fs : Fs
  journal : Journal
  resume : ResumeState
  conn : Conn

/-- The variables of the loop. -/
structure RecvLocals where
  receivedBytes : Nat
  hasher : Bytes

/-- A piece of the function goes on with its loop, or the function returns.
An `Ok` carries the destination, which the source logs. -/
inductive Flow (α : Type) where
  | next (a : α)
  | ret (r : Except Fail Path)

/-- `conn.send_control(..).await?`, then the rest. -/
def RecvState.send {α : Type} (x : Ext) (s : RecvState) (m : ControlMessage)
    (k : RecvState → Flow α × RecvState) : Flow α × RecvState :=
  match s.conn.sendControl x m with
  | none => (.ret (.error .io), s)
  | some conn => k { s with conn }

/-- `let _ = std::fs::remove_file(path)`. -/
def RecvState.removeFile (s : RecvState) (p : Path) : RecvState :=
  { s with fs := (s.fs.removeFile p).getD s.fs }

/-- `resume_state.files.get(&file_id).is_some_and(|fs| fs.received_bytes > 0)`. -/
def ResumeState.hasPartial (s : ResumeState) (fileId : Nat) : Bool := s.received fileId > 0

section

variable (x : Ext) (now : Nat) (a : RecvArgs)

/-- The rename to the collision-resolved destination. -/
def renameFinal {α : Type} (s : RecvState) : Flow α × RecvState :=
  let finalDest := resolveCollision now s.fs a.finalPath
  match s.fs.rename a.partPath finalDest with
  | none => (.ret (.error .io), s)
  | some fs => (.ret (.ok finalDest), { s with fs })

/-- `receive_file` up to its loop: append to what an earlier run left, or
start the `.part` file over. -/
def receiveOpen (s : RecvState) : Flow RecvLocals × RecvState :=
  if s.resume.hasPartial a.fileId && s.fs.exists? a.partPath then
    match s.fs.read a.partPath with
    | none => (.ret (.error .io), s)
    | some existing =>
      if existing.length = a.expectedSize ∧ x.sha256 existing = a.expectedHash then renameFinal now a s
      else (.next ⟨existing.length, existing⟩, s)
  else
    match s.fs.create a.partPath with
    | none => (.ret (.error .io), s)
    | some fs => (.next ⟨0, []⟩, { s with fs })

/-- `receive_file` after its loop. -/
def finishFile {α : Type} (l : RecvLocals) (s : RecvState) : Flow α × RecvState :=
  if x.sha256 l.hasher ≠ a.expectedHash then
    (.ret (.error (.text "whole-file hash mismatch")), s.removeFile a.partPath)
  else if l.receivedBytes ≠ a.expectedSize then
    (.ret (.error (.text "file size mismatch")), s.removeFile a.partPath)
  else renameFinal now a s

/-- The acknowledgement of a chunk and the test for the last one. -/
def ackChunk (l : RecvLocals) (f : Frame) (offset length : Nat) (s : RecvState) :
    Flow RecvLocals × RecvState :=
  s.send x (.chunkAck a.streamId f.messageId offset length) fun s =>
    if f.isLastChunk || l.receivedBytes == a.expectedSize then finishFile x now a l s else (.next l, s)

/-- A chunk that continues the file: `.part`, then the journal. -/
def storeChunk (total : Nat) (data : Bytes) (s : RecvState) : Option RecvState :=
  (s.fs.append a.partPath data).map fun fs =>
    let resume := s.resume.record a.fileId total
    { s with fs, resume, journal := s.journal.save resume }

/-- An Error frame with `fatal` set, then the error. -/
def refuse {α : Type} (code : ErrorCode) (message : String) (failure : String) (cleanup : RecvState → RecvState)
    (s : RecvState) : Flow α × RecvState :=
  s.send x (.error code (some message) true none) fun s => (.ret (.error (.text failure)), cleanup s)

/-- A CHUNK frame of the loop. -/
def receiveChunk (l : RecvLocals) (f : Frame) (s : RecvState) : Flow RecvLocals × RecvState :=
  if f.streamId ≠ a.streamId then (.next l, s)
  else if f.payload.length < 41 then (.next l, s)
  else
    let offset := fromBeBytes (f.payload.take 8)
    let chunkHash := (f.payload.drop 8).take 32
    let data := f.payload.drop 40
    if chunkHash ≠ (x.sha256 data).bytes then
      refuse x .checksumMismatch ("chunk hash mismatch at offset " ++ toString offset) "chunk hash mismatch"
        (·.removeFile a.partPath) s
    else if offset = l.receivedBytes then
      let newTotal := l.receivedBytes + data.length
      if newTotal > a.expectedSize then
        refuse x .invalidFrame "chunk exceeds expected file size" "chunk exceeds expected file size"
          (·.removeFile a.partPath) s
      else match storeChunk a newTotal data s with
        | none => (.ret (.error .io), s)
        | some s => ackChunk x now a ⟨newTotal, l.hasher ++ data⟩ f offset data.length s
    else if offset < l.receivedBytes then
      if offset + data.length ≤ l.receivedBytes then ackChunk x now a l f offset data.length s
      else refuse x .invalidFrame "overlapping chunk offset" "overlapping chunk offset" id s
    else
      refuse x .invalidFrame
        ("gap in chunk stream: expected " ++ toString l.receivedBytes ++ ", got " ++ toString offset)
        "out-of-order chunk received" id s

/-- One turn of the loop: the frame it reads decides. -/
def receiveStep (l : RecvLocals) (f : Frame) (s : RecvState) : Flow RecvLocals × RecvState :=
  match f.kind with
  | .chunk => receiveChunk x now a l f s
  | .control => match f.control with
    | .error e => (.ret (.error (.codec e)), s)
    | .ok (.transferCancel _ _) => (.ret (.error (.text "transfer cancelled")), s.removeFile a.partPath)
    | .ok (.sessionClose _) => (.ret (.error (.text "session closed during receive")), s)
    | .ok _ => (.next l, s)
  | .keepalive => (.next l, s)

def receiveLoop (l : RecvLocals) : List Frame → RecvState → Except Fail Path × RecvState
  | [], s => (.error .io, s)
  | f :: fs, s => match receiveStep x now a l f s with
    | (.ret r, s) => (r, s)
    | (.next l, s) => receiveLoop l fs s

/-- `receive_file` on the frames the connection delivers before it is lost. -/
def receiveFile (frames : List Frame) (s : RecvState) : Except Fail Path × RecvState :=
  match receiveOpen x now a s with
  | (.ret r, s) => (r, s)
  | (.next l, s) => receiveLoop x now a l frames s

end

end Nxfr

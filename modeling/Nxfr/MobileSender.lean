/-
The sending side of the mobile library (`nxfr-ffi/src/lib.rs`):
`scan_send_path`, and `do_send_file` from the call on.

The chunk loop is the daemon's with its constants written out again; it
counts any frame that decodes to a CHUNK_ACK and passes over every other one.
What is read while sending is what the scan read. Progress events and the
time limit of the first wait are left out.
-/
import Nxfr.Sender

namespace Nxfr

/-- What `read_dir` lists of a directory, in its order. What is neither a
file nor a directory the scan passes over. -/
inductive Listing where
  | nil
  | file (name : String) (data : Bytes) (rest : Listing)
  | dir (name : String) (inside rest : Listing)
  deriving DecidableEq

/-- What is at the path to send. -/
inductive SendPath where
  | missing (path : String)
  | file (name : String) (data : Bytes)
  | dir (name : String) (listing : Listing)
  deriving DecidableEq

/-- `LocalSendEntry`, with the bytes at its `full_path`. -/
structure LocalSendEntry where
  fileId : Nat
  relativePath : String
  data : Bytes
  size : Nat
  sha256 : Digest
  isDir : Bool
  deriving DecidableEq

/-- `[0u8; 32]`. -/
def zeroDigest : Digest := ⟨List.replicate 32 0, rfl⟩

section

variable (x : Ext)

/-- `walk_directory`: `current` is the path from the root of the walk. -/
def walkDirectory (current : List String) : Listing → List LocalSendEntry × Nat → List LocalSendEntry × Nat
  | .nil, acc => acc
  | .file name data rest, (entries, nextId) =>
    let entry := { fileId := nextId, relativePath := joinSlash (current ++ [name]), data, size := data.length
                   sha256 := x.sha256 data, isDir := false }
    walkDirectory current rest (entries ++ [entry], nextId + 1)
  | .dir name inside rest, (entries, nextId) =>
    let entry := { fileId := nextId, relativePath := joinSlash (current ++ [name]), data := [], size := 0
                   sha256 := zeroDigest, isDir := true }
    walkDirectory current rest (walkDirectory (current ++ [name]) inside (entries ++ [entry], nextId + 1))

/-- `scan_send_path`: the display name and the entries. -/
def scanSendPath : SendPath → Except String (String × List LocalSendEntry)
  | .missing path => .error ("path does not exist: " ++ path)
  | .file name data =>
    .ok (name, [{ fileId := 1, relativePath := name, data, size := data.length, sha256 := x.sha256 data
                  isDir := false }])
  | .dir name listing =>
    let entries := (walkDirectory x [] listing ([], 1)).1
    if entries = [] then .error "directory is empty" else .ok (name, entries)

end

def LocalSendEntry.manifestEntry (e : LocalSendEntry) : ManifestEntry :=
  { fileId := e.fileId
    relativePath := e.relativePath
    size := if e.isDir then none else some e.size
    sha256 := if e.isDir then none else some e.sha256
    entryType := if e.isDir then .dir else .file }

/-- The entries the loop of `do_send_file` goes through. -/
def filesOf (entries : List LocalSendEntry) : List LocalSendEntry := entries.filter fun e => !e.isDir

/-- What `do_send_file` is about; the id is `rand_transfer_id`'s. -/
structure SendTask where
  transferId : TransferId
  filePath : SendPath

/-- The event `do_send_file` ends with when it returns `Ok`. -/
inductive SendEvent where
  | complete
  | partialFailures
  | unexpectedResponse
  deriving DecidableEq

/-- Where `do_send_file` is; `rest` are the files after the present one. -/
inductive MobilePc where
  | scan
  | request (displayName : String) (entries : List LocalSendEntry)
  | awaitAccept (entries : List LocalSendEntry)
  | files (rest : List LocalSendEntry)
  | awaitMetadataAck (entry : LocalSendEntry) (rest : List LocalSendEntry)
  | chunks (entry : LocalSendEntry) (rest : List LocalSendEntry) (s : SendState)
  | awaitAck
  | returned (r : Except Fail SendEvent)

structure MobileSend where
  pc : MobilePc
  nextMessageId : Nat := 1

section

variable (x : Ext) (o : SendTask)

def SendTask.requestMessage (displayName : String) (entries : List LocalSendEntry) : ControlMessage :=
  .transferRequest o.transferId .files displayName (filesOf entries).length ((filesOf entries).map (·.size)).sum
    (entries.map (·.manifestEntry))

/-- The stream of a file has the number of the file. -/
def SendTask.metadataMessage (e : LocalSendEntry) : ControlMessage :=
  .fileMetadata o.transferId e.fileId e.fileId e.relativePath e.size e.sha256 none none

/-- `conn.send_control(..).await?`. -/
def MobileSend.sendControl (st : MobileSend) (m : ControlMessage) (pc : MobilePc) : Network.Act Frame MobileSend :=
  match encodeControl x m with
  | .ok () => .send (controlFrame st.nextMessageId m) { pc, nextMessageId := st.nextMessageId + 1 }
  | .error _ => .tau { st with pc := .returned (.error .io) }

/-- The reply to the request. -/
def mobileAccept (entries : List LocalSendEntry) (st : MobileSend) (f : Frame) : MobileSend := match f.control with
  | .error e => { st with pc := .returned (.error (.codec e)) }
  | .ok (.transferAccept _) => { st with pc := .files (filesOf entries) }
  | .ok (.transferReject _ reason) => { st with pc := .returned (.error (.text ("rejected: " ++ reason.getD ""))) }
  | .ok _ => { st with pc := .returned (.error (.text "expected Accept/Reject")) }

/-- The reply to the metadata. -/
def mobileMetadataAck (e : LocalSendEntry) (rest : List LocalSendEntry) (st : MobileSend) (f : Frame) : MobileSend :=
  match f.control with
  | .error e => { st with pc := .returned (.error (.codec e)) }
  | .ok (.fileMetadataAck _ _ _ true) => { st with pc := .chunks e rest {} }
  | .ok _ => { st with pc := .returned (.error (.text ("file metadata rejected for " ++ e.relativePath))) }

/-- What the chunk loop makes of a frame it waited for. -/
def SendState.onAnyFrame (s : SendState) (f : Frame) : SendState := match f.control with
  | .ok (.chunkAck _ _ _ length) => s.acked length
  | _ => s

/-- The reply to TRANSFER_COMPLETE. -/
def mobileTransferAck (st : MobileSend) (f : Frame) : MobileSend := match f.control with
  | .error e => { st with pc := .returned (.error (.codec e)) }
  | .ok (.transferAck _ .success _) => { st with pc := .returned (.ok .complete) }
  | .ok (.transferAck _ .partialFailure _) => { st with pc := .returned (.ok .partialFailures) }
  | .ok _ => { st with pc := .returned (.ok .unexpectedResponse) }

def MobileSend.lost (st : MobileSend) : MobileSend := { st with pc := .returned (.error .io) }

open Network in
/-- `do_send_file` as a party. The connection stays with the session when it
returns. -/
def doSendFile (st : MobileSend) : Act Frame MobileSend := match st.pc with
  | .scan => match scanSendPath x o.filePath with
    | .error e => .tau { st with pc := .returned (.error (.text e)) }
    | .ok (displayName, entries) => .tau { st with pc := .request displayName entries }
  | .request displayName entries => st.sendControl x (o.requestMessage displayName entries) (.awaitAccept entries)
  | .awaitAccept entries => .recv (mobileAccept entries st) st.lost
  | .files (e :: rest) => st.sendControl x (o.metadataMessage e) (.awaitMetadataAck e rest)
  | .files [] => st.sendControl x (.transferComplete o.transferId) .awaitAck
  | .awaitMetadataAck e rest => .recv (mobileMetadataAck e rest st) st.lost
  | .chunks e rest s => match sendFile x e.data s with
    | .skip s => .tau { st with pc := .chunks e rest s }
    | .send flags payload s => .send (chunkFrame st.nextMessageId e.fileId flags payload)
        { pc := .chunks e rest s, nextMessageId := st.nextMessageId + 1 }
    | .wait => .recv (fun f => { st with pc := .chunks e rest (s.onAnyFrame f) }) st.lost
    | .done => .tau { st with pc := .files rest }
  | .awaitAck => .recv (mobileTransferAck st) st.lost
  | .returned _ => .halt false

end

end Nxfr

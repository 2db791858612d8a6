/-
The daemon's sending side: `send_file` and `send_file_resume`
(`nxfr-daemon/src/sender.rs`), and `handle_outbound_send` and
`handle_outbound_resume` around them (`handler.rs`), from the TLS session on.

The two chunk loops differ in the chunks they leave out; `sendMove` is one
turn of either. The mobile sender's loop is the same but for the frames it
counts as acknowledgements. Progress events and the time limits of the waits
are left out.
-/
import Nxfr.Handler

namespace Nxfr

/-- `MAX_IN_FLIGHT`. -/
def maxInFlight : Nat := 8

/-- `CHUNK_DATA_SIZE`: 1 MiB. -/
def chunkDataSize : Nat := 1024 * 1024

/-- The variables of a chunk loop. -/
structure SendState where
  offset : Nat := 0
  inFlight : Nat := 0
  ackedBytes : Nat := 0
  deriving DecidableEq

/-- One turn of a chunk loop: it leaves a chunk out, sends one, waits for an
acknowledgement, or is done. -/
inductive SendMove where
  | skip (s : SendState)
  | send (flags : Nat) (payload : Bytes) (s : SendState)
  | wait
  | done

section

variable (x : Ext)

/-- 8 bytes offset, 32 bytes hash, data. -/
def chunkPayload (offset : Nat) (data : Bytes) : Bytes := toBeBytes offset ++ (x.sha256 data).bytes ++ data

def sendMove (skips : Nat → Nat → Bool) (fileData : Bytes) (s : SendState) : SendMove :=
  if s.offset < fileData.length then
    let stop := min (s.offset + chunkDataSize) fileData.length
    if skips s.offset (stop - s.offset) then .skip { s with offset := stop }
    else if s.inFlight ≥ maxInFlight then .wait
    else
      let data := (fileData.drop s.offset).take (stop - s.offset)
      .send (if stop = fileData.length then 1 else 0) (chunkPayload x s.offset data)
        { s with offset := stop, inFlight := s.inFlight + 1 }
  else if s.inFlight > 0 then .wait
  else .done

/-- `send_file`. -/
def sendFile (fileData : Bytes) : SendState → SendMove := sendMove x (fun _ _ => false) fileData

/-- The chunk lies wholly inside one of the ranges. -/
def covered (skipRanges : List (Nat × Nat)) (offset len : Nat) : Bool :=
  skipRanges.any fun r => offset ≥ r.1 && offset + len ≤ r.1 + r.2

/-- `send_file_resume`. -/
def sendFileResume (skipRanges : List (Nat × Nat)) (fileData : Bytes) : SendState → SendMove :=
  sendMove x (covered skipRanges) fileData

end

/-- Where `send_file_resume` starts. -/
def resumeStart (skipRanges : List (Nat × Nat)) : SendState := { ackedBytes := (skipRanges.map (·.2)).sum }

def SendState.acked (s : SendState) (length : Nat) : SendState :=
  { s with inFlight := s.inFlight - 1, ackedBytes := s.ackedBytes + length }

/-- What a chunk loop makes of a frame it waited for. -/
def SendState.onFrame (s : SendState) (f : Frame) : Except Fail SendState :=
  if f.kind = .control then match f.control with
    | .error e => .error (.codec e)
    | .ok (.chunkAck _ _ _ length) => .ok (s.acked length)
    | .ok _ => .ok s
  else .ok s

/-! ## The outbound transfer -/

/-- What an outbound transfer is about. -/
structure Outbound where
  transferId : TransferId
  targetDeviceId : String
  fileName : String
  fileData : Bytes
  now : Nat

/-- Where the initiator is. `handle_outbound_send` starts at `request`,
`handle_outbound_resume` at `query`; from the metadata on the two go the same
way, the second with the ranges to leave out. -/
inductive OutboundPc where
  | request
  | awaitAccept
  | rejectClose (reason : String)
  | query
  | awaitStatus
  | metadata (skip : Option (List (Nat × Nat)))
  | awaitMetadataAck (skip : Option (List (Nat × Nat)))
  | resumeClose
  | chunks (skip : Option (List (Nat × Nat))) (s : SendState)
  | complete
  | awaitAck
  | close
  | awaitClose
  /-- `handle_outbound_resume` goes on as a `handle_outbound_send` of the
  file, on a new connection. -/
  | fresh
  | returned (r : Except Fail String)

structure OutboundState where
  pc : OutboundPc
  journal : Journal
  nextMessageId : Nat := 1

section

variable (x : Ext) (o : Outbound)

def Outbound.requestMessage : ControlMessage :=
  .transferRequest o.transferId .files o.fileName 1 o.fileData.length
    [{ fileId := 1, relativePath := o.fileName, size := some o.fileData.length
       sha256 := some (x.sha256 o.fileData), entryType := .file }]

def Outbound.metadataMessage : ControlMessage :=
  .fileMetadata o.transferId 1 1 o.fileName o.fileData.length (x.sha256 o.fileData) none none

def Outbound.outboundId : String := "outbound-" ++ hexEncode o.transferId.bytes

/-- The journal entry of a transfer the peer has accepted. -/
def Outbound.journalEntry : ResumeState :=
  { transferId := o.outboundId
    peerDeviceId := o.targetDeviceId
    displayName := o.fileName
    manifest := [{ fileId := 1, relativePath := o.fileName, size := o.fileData.length
                   sha256 := hexEncode (x.sha256 o.fileData).bytes }]
    files := ∅
    createdAt := o.now
    expiresAt := o.now + 86400
    version := 1 }

/-- One turn of the chunk loop of a transfer. -/
def outboundMove (skip : Option (List (Nat × Nat))) (s : SendState) : SendMove := match skip with
  | none => sendFile x o.fileData s
  | some ranges => sendFileResume x ranges o.fileData s

/-- `send_control` of a message: a message the encoder refuses is an error. -/
def OutboundState.sendControl (st : OutboundState) (m : ControlMessage) (pc : OutboundPc) :
    Network.Act Frame OutboundState :=
  match encodeControl x m with
  | .ok () => .send (controlFrame st.nextMessageId m) { st with pc, nextMessageId := st.nextMessageId + 1 }
  | .error _ => .tau { st with pc := .returned (.error .io) }

/-- The reply to the request. -/
def onReply (st : OutboundState) (f : Frame) : OutboundState := match f.control with
  | .error e => { st with pc := .returned (.error (.codec e)) }
  | .ok (.transferAccept _) =>
    { st with pc := .metadata none, journal := st.journal.save (o.journalEntry x) }
  | .ok (.transferReject _ reason) => { st with pc := .rejectClose (reason.getD "unknown") }
  | .ok _ => { st with pc := .returned (.error (.text "unexpected response to TRANSFER_REQUEST")) }

/-- The reply to the query. -/
def onStatus (st : OutboundState) (f : Frame) : OutboundState := match f.control with
  | .error e => { st with pc := .returned (.error (.codec e)) }
  | .ok (.resumeStatus _ true (some files) _) =>
    { st with pc := .metadata (some ((files.head?.map (·.receivedRanges)).getD [])) }
  | .ok (.resumeStatus _ false _ _) => { st with pc := .fresh }
  | .ok _ => { st with pc := .returned (.error (.text "expected RESUME_STATUS")) }

/-- The reply to the metadata. -/
def onMetadataAck (skip : Option (List (Nat × Nat))) (st : OutboundState) (f : Frame) : OutboundState :=
  match f.control with
  | .error e => { st with pc := .returned (.error (.codec e)) }
  | .ok (.fileMetadataAck _ _ _ true) => { st with pc := .chunks skip ((skip.map resumeStart).getD {}) }
  | .ok (.fileMetadataAck _ _ _ false) => match skip with
    | none => { st with pc := .returned (.error (.text "FILE_METADATA_ACK accepted=false")) }
    | some _ => { st with pc := .resumeClose }
  | .ok _ => { st with pc := .returned (.error (.text "expected FILE_METADATA_ACK")) }

/-- A frame in the chunk loop. -/
def onChunkAck (skip : Option (List (Nat × Nat))) (s : SendState) (st : OutboundState) (f : Frame) :
    OutboundState :=
  match s.onFrame f with
  | .error e => { st with pc := .returned (.error e) }
  | .ok s => { st with pc := .chunks skip s }

/-- The reply to TRANSFER_COMPLETE, which is only logged. -/
def onTransferAck (st : OutboundState) (f : Frame) : OutboundState := match f.control with
  | .error e => { st with pc := .returned (.error (.codec e)) }
  | .ok _ => { st with pc := .close, journal := st.journal.delete o.outboundId }

def OutboundState.lost (st : OutboundState) : OutboundState := { st with pc := .returned (.error .io) }

open Network in
/-- The initiator as a party. -/
def initiator (st : OutboundState) : Act Frame OutboundState := match st.pc with
  | .request => st.sendControl x (o.requestMessage x) .awaitAccept
  | .awaitAccept => .recv (onReply x o st) st.lost
  | .rejectClose reason => st.sendControl x (.sessionClose (some "transfer_rejected"))
      (.returned (.error (.text ("transfer rejected: " ++ reason))))
  | .query => st.sendControl x (.resumeQuery o.transferId none) .awaitStatus
  | .awaitStatus => .recv (onStatus st) st.lost
  | .metadata skip => st.sendControl x (o.metadataMessage x) (.awaitMetadataAck skip)
  | .awaitMetadataAck skip => .recv (onMetadataAck skip st) st.lost
  | .resumeClose => st.sendControl x (.sessionClose (some "resume_metadata_rejected")) .fresh
  | .chunks skip s => match outboundMove x o skip s with
    | .skip s => .tau { st with pc := .chunks skip s }
    | .send flags payload s => .send (chunkFrame st.nextMessageId 1 flags payload)
        { st with pc := .chunks skip s, nextMessageId := st.nextMessageId + 1 }
    | .wait => .recv (onChunkAck skip s st) st.lost
    | .done => .tau { st with pc := .complete }
  | .complete => st.sendControl x (.transferComplete o.transferId) .awaitAck
  | .awaitAck => .recv (onTransferAck o st) st.lost
  | .close => st.sendControl x (.sessionClose (some "normal")) .awaitClose
  | .awaitClose =>
    let done := { st with pc := .returned (.ok (hexEncode o.transferId.bytes)) }
    .recv (fun _ => done) done
  | .fresh | .returned _ => .halt true

end

end Nxfr

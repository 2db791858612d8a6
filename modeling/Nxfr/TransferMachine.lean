/-
The transfer state machine (`nxfr-core/src/transfer.rs`), a function from a
state and an event to the next state and the actions to take, or an error. The
same function serves the sender and the receiver.
-/
import Nxfr.SessionMachine

namespace Nxfr.TransferMachine

inductive TransferState where
  | idle | offered | pending | negotiating | streaming | paused | completing | complete | cancelled | failed
  deriving DecidableEq

namespace TransferState

def isTerminal : TransferState → Bool
  | .complete | .cancelled | .failed => true
  | _ => false

def isActive : TransferState → Bool
  | .offered | .pending | .negotiating | .streaming | .paused | .completing => true
  | _ => false

def display : TransferState → String
  | .idle => "Idle"
  | .offered => "Offered"
  | .pending => "Pending"
  | .negotiating => "Negotiating"
  | .streaming => "Streaming"
  | .paused => "Paused"
  | .completing => "Completing"
  | .complete => "Complete"
  | .cancelled => "Cancelled"
  | .failed => "Failed"

end TransferState

inductive TransferTimer where
  | consent | negotiation | chunkAck | pause | completion
  deriving DecidableEq

def TransferTimer.debug : TransferTimer → String
  | .consent => "Consent"
  | .negotiation => "Negotiation"
  | .chunkAck => "ChunkAck"
  | .pause => "Pause"
  | .completion => "Completion"

inductive TransferEvent where
  | sendTransferRequest
  | receiveTransferRequest
  | userAccept
  | userReject
  | receiveTransferAccept
  | receiveTransferReject
  | allMetadataAcked
  | allFilesRejected
  | pauseReceived
  | resumeReceived
  | lastChunkSent
  | allChunksReceived
  | cancelReceived
  | transferCompleteSent
  | ackSent
  | ackSuccess
  | ackPartialFailure
  | checksumMismatch
  | diskFull
  | connectionLost
  | fatalError
  | timerFired (t : TransferTimer)
  deriving DecidableEq

def TransferEvent.display : TransferEvent → String
  | .sendTransferRequest => "SendTransferRequest"
  | .receiveTransferRequest => "ReceiveTransferRequest"
  | .userAccept => "UserAccept"
  | .userReject => "UserReject"
  | .receiveTransferAccept => "ReceiveTransferAccept"
  | .receiveTransferReject => "ReceiveTransferReject"
  | .allMetadataAcked => "AllMetadataAcked"
  | .allFilesRejected => "AllFilesRejected"
  | .pauseReceived => "PauseReceived"
  | .resumeReceived => "ResumeReceived"
  | .lastChunkSent => "LastChunkSent"
  | .allChunksReceived => "AllChunksReceived"
  | .cancelReceived => "CancelReceived"
  | .transferCompleteSent => "TransferCompleteSent"
  | .ackSent => "AckSent"
  | .ackSuccess => "AckSuccess"
  | .ackPartialFailure => "AckPartialFailure"
  | .checksumMismatch => "ChecksumMismatch"
  | .diskFull => "DiskFull"
  | .connectionLost => "ConnectionLost"
  | .fatalError => "FatalError"
  | .timerFired t => "TimerFired(" ++ t.debug ++ ")"

inductive TransferAction where
  | sendTransferRequest
  | displayConsentUi
  | sendTransferAccept
  | sendTransferReject
  | beginMetadataExchange
  | beginChunkTransmission
  | stopChunkTransmission
  | resumeChunkTransmission
  | sendTransferComplete
  | sendTransferAck
  | sendTransferCancel
  | sendError (code : String)
  | notifyUser (message : String)
  | cleanupPartialFiles
  | preserveResumeState
  | startTimer (t : TransferTimer)
  | cancelTimer (t : TransferTimer)
  deriving DecidableEq

/-- The transitions of `transfer_handle_event` after its three early
returns. -/
def transferTransition (state : TransferState) (event : TransferEvent) :
    Except StateError (TransferState × List TransferAction) :=
  match state, event with
  | .idle, .sendTransferRequest => .ok (.offered, [.sendTransferRequest, .startTimer .consent])
  | .idle, .receiveTransferRequest => .ok (.pending, [.displayConsentUi, .startTimer .consent])
  | .pending, .userAccept =>
    .ok (.negotiating, [.cancelTimer .consent, .sendTransferAccept, .beginMetadataExchange, .startTimer .negotiation])
  | .pending, .userReject =>
    .ok (.cancelled, [.cancelTimer .consent, .sendTransferReject, .notifyUser "Transfer rejected by user"])
  | .offered, .receiveTransferAccept =>
    .ok (.negotiating, [.cancelTimer .consent, .beginMetadataExchange, .startTimer .negotiation])
  | .offered, .receiveTransferReject =>
    .ok (.cancelled, [.cancelTimer .consent, .notifyUser "Transfer rejected by peer"])
  | .offered, .timerFired .consent => .ok (.failed, [.notifyUser "Transfer consent timed out"])
  | .pending, .timerFired .consent => .ok (.failed, [.sendTransferReject, .notifyUser "Transfer consent timed out"])
  | .negotiating, .allMetadataAcked =>
    .ok (.streaming, [.cancelTimer .negotiation, .beginChunkTransmission, .startTimer .chunkAck])
  | .negotiating, .allFilesRejected =>
    .ok (.failed, [.cancelTimer .negotiation, .notifyUser "All files rejected during negotiation"])
  | .negotiating, .timerFired .negotiation => .ok (.failed, [.notifyUser "Metadata negotiation timed out"])
  | .streaming, .pauseReceived =>
    .ok (.paused, [.cancelTimer .chunkAck, .stopChunkTransmission, .startTimer .pause])
  | .streaming, .lastChunkSent =>
    .ok (.completing, [.cancelTimer .chunkAck, .sendTransferComplete, .startTimer .completion])
  | .streaming, .allChunksReceived =>
    .ok (.completing, [.cancelTimer .chunkAck, .sendTransferAck, .startTimer .completion])
  | .streaming, .checksumMismatch =>
    .ok (.failed, [.cancelTimer .chunkAck, .sendError "checksum_mismatch", .cleanupPartialFiles, .preserveResumeState])
  | .streaming, .diskFull => .ok (.failed, [.cancelTimer .chunkAck, .sendError "disk_full", .preserveResumeState])
  | .streaming, .timerFired .chunkAck => .ok (.failed, [.notifyUser "Chunk ACK timed out", .preserveResumeState])
  | .paused, .resumeReceived =>
    .ok (.streaming, [.cancelTimer .pause, .resumeChunkTransmission, .startTimer .chunkAck])
  | .paused, .timerFired .pause =>
    .ok (.failed, [.sendTransferCancel, .notifyUser "Transfer auto-cancelled after pause timeout", .preserveResumeState])
  | .completing, .ackSuccess =>
    .ok (.complete, [.cancelTimer .completion, .notifyUser "Transfer completed successfully"])
  | .completing, .ackSent => .ok (.complete, [.cancelTimer .completion, .notifyUser "Transfer received successfully"])
  | .completing, .ackPartialFailure =>
    .ok (.failed, [.cancelTimer .completion, .notifyUser "Transfer completed with partial failures"])
  | .completing, .checksumMismatch =>
    .ok (.failed, [.cancelTimer .completion, .sendError "checksum_mismatch",
      .notifyUser "Final checksum verification failed"])
  | .completing, .timerFired .completion => .ok (.failed, [.notifyUser "Transfer completion timed out"])
  | state, event => .error ⟨state.display, event.display⟩

/-- `transfer_handle_event`. -/
def transferHandleEvent (state : TransferState) (event : TransferEvent) :
    Except StateError (TransferState × List TransferAction) :=
  if state.isTerminal then .error ⟨state.display, event.display⟩
  else if event = .cancelReceived ∧ state.isActive then
    .ok (.cancelled, [.sendTransferCancel, .cleanupPartialFiles, .notifyUser "Transfer cancelled"])
  else if (event = .fatalError ∨ event = .connectionLost) ∧ state.isActive then
    .ok (.failed, [.preserveResumeState, .notifyUser "Transfer failed due to error or connection loss"])
  else transferTransition state event

end Nxfr.TransferMachine

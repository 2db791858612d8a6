/-
One web server (`nxfr-web/src/lib.rs`) with its connections and its host:
`handle_connection` from the look at the cancel token to the answer, over every
route, `is_valid_token`, and the calls of `WebServerHandle`.

A connection brings one request and goes on in steps, each up to the next
`await`; the steps of the connections, of the host and of the clock come in any
order. A request is what its header lines were read as. What is streamed is in
`Zip` and `WebInbox`; here a stream is finished or it is not. Times are in
nanoseconds of one clock that never goes back.
-/
import Mathlib.Data.List.AList
import Nxfr.WebInbox

namespace Nxfr.Web.Share

def maxFailedAttempts : Nat := 5

def rateLimitWindow : Nat := 60000000000

def blockDuration : Nat := 300000000000

inductive IpAddr where
  | v4 (bits : BitVec 32)
  | v6 (bits : BitVec 128)
  deriving DecidableEq

/-! ## Requests -/

/-- What the disk holds where an item of the manifest is looked for. -/
inductive OnDisk where
  | readable
  | missing
  | unreadable

/-- What follows `/dl/`: the archive, or a file, with the number in the path (if
it is one), and the range header as `parse_range_header` reads it for a size. -/
inductive Target where
  | allZip
  | file (id : Option Nat) (disk : OnDisk) (range : Option (Nat → Option (Nat × Nat)))

inductive Route where
  | apiRequest
  | requestStatus (session : String)
  | pending
  | page
  | auth
  | dl (target : Target)
  | upload
  | other

/-- A request as it is read: the credential is the one its route looks for. -/
structure Request where
  ip : IpAddr
  userAgent : String
  unixTime : Nat
  route : Route
  credential : Option String

/-! ## The approval gate -/

inductive RequestStatus where
  | pending
  | accepted
  | rejected
  deriving DecidableEq

structure PendingRequest where
  sessionId : String
  ip : IpAddr
  userAgent : String
  timestamp : Nat
  status : RequestStatus
  sessionToken : Option String
  deriving DecidableEq

structure ShareItem where
  id : Nat
  size : Nat

/-- What is fixed when the server starts. -/
structure Config where
  token : String
  pin : Option String
  shareManifest : Option (List ShareItem)
  maxDownloads : Option UInt32

/-- What the connections and the host share. `draws` counts the tokens drawn. -/
structure Server where
  now : Nat
  cancelled : Bool
  failedAttempts : IpAddr → Option (Nat × Nat)
  autoAccept : Bool
  pendingRequests : AList fun _ : String => PendingRequest
  downloadCount : Nat
  draws : Nat

/-- A connection is answered, or ends without an answer: `closed` where the
server is shutting down, `dropped` where it fails. -/
inductive Reply where
  | error (status message : String)
  | accepted (sessionId token : String)
  | pending (sessionId : String)
  | status (status : RequestStatus) (token : Option String)
  | requests (pending : List PendingRequest)
  | waitingPage
  | mainPage
  | authenticated
  | uploading
  | served
  | closed
  | dropped
  deriving DecidableEq

/-- The sixteen bytes of each draw are the system's. -/
def generateToken (rand : Nat → List UInt8) (draw : Nat) : String := hexEncode (rand draw)

def Server.requestList (srv : Server) : List PendingRequest := srv.pendingRequests.entries.map (·.2)

/-- An accepted request whose session token this is. -/
def PendingRequest.grants (r : PendingRequest) (token : String) : Bool :=
  r.status == .accepted && r.sessionToken == some token

section

variable (cfg : Config) (rand : Nat → List UInt8)

def isValidToken (srv : Server) (token : String) : Bool :=
  token == cfg.token || cfg.pin == some token || srv.requestList.any (·.grants token)

def checkCredential (srv : Server) : Option String → Bool
  | some token => isValidToken cfg srv token
  | none => false

def Server.insertRequest (srv : Server) (r : PendingRequest) : Server :=
  { srv with pendingRequests := srv.pendingRequests.insert r.sessionId r }

/-- `POST /api/request`, its credential judged. -/
def apiRequest (srv : Server) (r : Request) (auto valid : Bool) : Server × Reply :=
  let sessionId := generateToken rand srv.draws
  if valid then
    let sessionToken := generateToken rand (srv.draws + 1)
    let req := ⟨sessionId, r.ip, r.userAgent, r.unixTime, .accepted, some sessionToken⟩
    ({ srv.insertRequest req with draws := srv.draws + 2 }, .accepted sessionId sessionToken)
  else if !auto && cfg.pin.isNone then
    let req := ⟨sessionId, r.ip, r.userAgent, r.unixTime, .pending, none⟩
    ({ srv.insertRequest req with draws := srv.draws + 1 }, .pending sessionId)
  else ({ srv with draws := srv.draws + 1 }, .error "403 Forbidden" "Authentication required")

/-- `GET /api/request-status` -/
def requestStatus (srv : Server) (session : String) : Reply :=
  if session = "" then .error "400 Bad Request" "missing session id"
  else match srv.pendingRequests.lookup session with
    | some req => .status req.status (if req.status = .accepted then req.sessionToken else none)
    | none => .error "404 Not Found" "unknown session"

def Server.getPendingRequests (srv : Server) : List PendingRequest :=
  srv.requestList.filter (·.status = .pending)

/-- `GET /`: under the gate the main page is for the holder of a session token. -/
def mainPage (srv : Server) (auto : Bool) (token : Option String) : Reply :=
  let needsGate := cfg.shareManifest.isSome && cfg.pin.isNone && !auto
  let hasValidSession := match token with
    | some token => srv.requestList.any (·.grants token)
    | none => false
  if needsGate && !hasValidSession then .waitingPage else .mainPage

/-- The error leaves the requests as they are. -/
def respondToRequest (srv : Server) (sessionId : String) (accepted : Bool) : Except String Server :=
  match srv.pendingRequests.lookup sessionId with
  | some req =>
    if req.status = .pending then
      if accepted then
        let req := { req with status := .accepted, sessionToken := some (generateToken rand srv.draws) }
        .ok { srv with pendingRequests := srv.pendingRequests.insert sessionId req, draws := srv.draws + 1 }
      else
        let req := { req with status := .rejected }
        .ok { srv with pendingRequests := srv.pendingRequests.insert sessionId req }
    else .error "Request already responded to"
  | none => .error ("No pending request with id '" ++ sessionId ++ "'")

/-! ## The failure limit -/

/-- The check at the start of a connection: `none` where its address is
blocked, else the entry that is left. -/
def rateCheck (now : Nat) : Option (Nat × Nat) → Option (Option (Nat × Nat))
  | none => some none
  | some (count, lastFail) =>
    if count ≥ maxFailedAttempts then
      if now - lastFail < blockDuration then none else some none
    else some (some (count, lastFail))

/-- The record of a failure, on `/auth` and on `/upload`. -/
def recordFailure (now : Nat) (entry : Option (Nat × Nat)) : Nat × Nat :=
  let (count, last) := entry.getD (0, now)
  if now - last > rateLimitWindow then (1, now) else ((count + 1) % 2 ^ 32, now)

def Server.setAttempts (srv : Server) (ip : IpAddr) (entry : Option (Nat × Nat)) : Server :=
  { srv with failedAttempts := Function.update srv.failedAttempts ip entry }

def Server.fail (srv : Server) (ip : IpAddr) : Server :=
  srv.setAttempts ip (some (recordFailure srv.now (srv.failedAttempts ip)))

/-! ## Connections -/

/-- Where a connection is: before the failure limit; reading its request; with
the request read, and what `auto_accept` was; with its credential judged, and
when; streaming a download; done with the stream; counted; ended. -/
inductive Stage where
  | connected
  | checked
  | asked (auto : Bool)
  | judged (auto valid : Bool) (time : Nat)
  | streaming
  | streamed
  | counted (count : Nat)
  | ended (reply : Reply)
  deriving DecidableEq

/-- What a download with a valid credential comes to. -/
def download : Target → Stage
  | .allZip => match cfg.shareManifest with
    | some _ => .streaming
    | none => .ended (.error "404 Not Found" "Download mode not active")
  | .file none _ _ => .ended (.error "404 Not Found" "Invalid file id format")
  | .file (some id) disk range => match cfg.shareManifest with
    | none => .ended (.error "404 Not Found" "Download mode not active")
    | some manifest => match manifest.find? (·.id == id) with
      | none => .ended (.error "404 Not Found" "File not found in manifest")
      | some item => match disk with
        | .missing => .ended (.error "404 Not Found" "File missing on disk")
        | .unreadable => .ended (.error "500 Internal Error" "Failed to read file from storage")
        | .readable => match range with
          | none => .streaming
          | some parse => match parse item.size with
            | some _ => .streaming
            | none => .ended (.error "416 Range Not Satisfiable" "")

/-- The quota, after a download has been counted. -/
def quotaCheck (srv : Server) (count : Nat) : Server :=
  match cfg.maxDownloads with
  | some max => if count % 2 ^ 32 ≥ max.toNat then { srv with cancelled := true } else srv
  | none => srv

/-- The next step of a connection. -/
def advance (srv : Server) (r : Request) : Stage → Server × Stage
  | .connected => match rateCheck srv.now (srv.failedAttempts r.ip) with
    | none => (srv, .ended (.error "403 Forbidden" "Too many failed attempts. Temporarily blocked."))
    | some entry => (srv.setAttempts r.ip entry, .checked)
  | .checked => (srv, .asked srv.autoAccept)
  | .asked auto => match r.route with
    | .requestStatus session => (srv, .ended (requestStatus srv session))
    | .page => (srv, .ended (mainPage cfg srv auto r.credential))
    | .other => (srv, .ended (.error "404 Not Found" "Not Found"))
    | .apiRequest | .pending | .auth | .dl _ | .upload =>
      (srv, .judged auto (checkCredential cfg srv r.credential) srv.now)
  | .judged auto valid time => match r.route with
    | .apiRequest =>
      let (srv, reply) := apiRequest cfg rand srv r auto valid
      (srv, .ended reply)
    | .pending =>
      if valid then (srv, .ended (.requests srv.getPendingRequests))
      else (srv, .ended (.error "403 Forbidden" "Authentication required"))
    | .auth =>
      if valid then (srv, .ended .authenticated)
      else (srv.fail r.ip, .ended (.error "403 Forbidden" "Invalid PIN"))
    | .dl target =>
      if valid then (srv, download cfg target)
      else (srv, .ended (.error "403 Forbidden" "Invalid token or PIN"))
    | .upload =>
      if valid then (srv, .ended .uploading)
      else (srv.fail r.ip, .ended (.error "403 Forbidden" "Invalid token or PIN"))
    | .requestStatus _ | .page | .other => (srv, .judged auto valid time)
  | .streaming => (srv, .streamed)
  | .streamed =>
    -- `fetch_add` answers the count before it
    let count := (srv.downloadCount + 1) % 2 ^ 64
    ({ srv with downloadCount := count }, .counted count)
  | .counted count => (quotaCheck cfg srv count, .ended .served)
  | .ended reply => (srv, .ended reply)

/-- A connection fails while its request is read or while it streams. -/
def dropped : Stage → Stage
  | .checked | .streaming => .ended .dropped
  | stage => stage

/-! ## The system -/

structure Conn where
  request : Request
  stage : Stage

structure System where
  server : Server
  conns : List Conn

inductive Event where
  | wait (d : Nat)
  | connect (r : Request)
  | go (i : Nat)
  | drop (i : Nat)
  | respond (sessionId : String) (accepted : Bool)
  | setAutoAccept (enabled : Bool)
  | stop

def System.setStage (sys : System) (i : Nat) (c : Conn) (srv : Server) (stage : Stage) : System :=
  ⟨srv, sys.conns.set i { c with stage }⟩

def System.step (sys : System) : Event → System
  | .wait d => { sys with server := { sys.server with now := sys.server.now + d } }
  | .connect r =>
    let stage := if sys.server.cancelled then .ended .closed else .connected
    { sys with conns := sys.conns ++ [⟨r, stage⟩] }
  | .go i => match sys.conns[i]? with
    | some c =>
      let (srv, stage) := advance cfg rand sys.server c.request c.stage
      sys.setStage i c srv stage
    | none => sys
  | .drop i => match sys.conns[i]? with
    | some c => sys.setStage i c sys.server (dropped c.stage)
    | none => sys
  | .respond sessionId accepted => match respondToRequest rand sys.server sessionId accepted with
    | .ok srv => { sys with server := srv }
    | .error _ => sys
  | .setAutoAccept enabled => { sys with server := { sys.server with autoAccept := enabled } }
  | .stop => { sys with server := { sys.server with cancelled := true } }

end

/-- A server that has just started; one that shares files has `auto` false. -/
def System.start (auto : Bool) : System :=
  ⟨⟨0, false, fun _ => none, auto, ∅, 0, 0⟩, []⟩

end Nxfr.Web.Share

/-
What a step of the web server can do, said once: `Advances` for a connection
that goes on, and `System.step_go` for its place among the others. Each result
about the server's runs reads its steps off these.
-/
import Nxfr.WebServer

namespace Nxfr.Web.Share

/-- The routes that check a credential. -/
def Route.checks : Route → Bool
  | .apiRequest | .pending | .auth | .dl _ | .upload => true
  | .requestStatus _ | .page | .other => false

/-- The routes that record a failure. -/
def Route.records : Route → Bool
  | .auth | .upload => true
  | .apiRequest | .pending | .dl _ | .requestStatus _ | .page | .other => false

/-- The stage a connection with a request goes on from, and the server and the
stage it leaves. -/
inductive Advances (cfg : Config) (rand : Nat → List UInt8) (srv : Server) (r : Request) : Stage → Server → Stage → Prop
  | blocked (message : String) (h : rateCheck srv.now (srv.failedAttempts r.ip) = none) :
    Advances cfg rand srv r .connected srv (.ended (.error "403 Forbidden" message))
  | admitted (entry : Option (Nat × Nat)) (h : rateCheck srv.now (srv.failedAttempts r.ip) = some entry) :
    Advances cfg rand srv r .connected (srv.setAttempts r.ip entry) .checked
  | read : Advances cfg rand srv r .checked srv (.asked srv.autoAccept)
  | polled (auto : Bool) (session : String) (h : r.route = .requestStatus session) :
    Advances cfg rand srv r (.asked auto) srv (.ended (requestStatus srv session))
  | shown (auto : Bool) (h : r.route = .page) :
    Advances cfg rand srv r (.asked auto) srv (.ended (mainPage cfg srv auto r.credential))
  | unknown (auto : Bool) (h : r.route = .other) :
    Advances cfg rand srv r (.asked auto) srv (.ended (.error "404 Not Found" "Not Found"))
  | judged (auto : Bool) (h : r.route.checks = true) :
    Advances cfg rand srv r (.asked auto) srv (.judged auto (checkCredential cfg srv r.credential) srv.now)
  | requested (auto valid : Bool) (time : Nat) (h : r.route = .apiRequest) :
    Advances cfg rand srv r (.judged auto valid time) (apiRequest cfg rand srv r auto valid).1
      (.ended (apiRequest cfg rand srv r auto valid).2)
  | listed (auto : Bool) (time : Nat) (h : r.route = .pending) :
    Advances cfg rand srv r (.judged auto true time) srv (.ended (.requests srv.getPendingRequests))
  | letIn (auto : Bool) (time : Nat) (reply : Reply) (h : r.route.records = true)
    (hreply : reply = .authenticated ∨ reply = .uploading) :
    Advances cfg rand srv r (.judged auto true time) srv (.ended reply)
  | failed (auto : Bool) (time : Nat) (message : String) (h : r.route.records = true) :
    Advances cfg rand srv r (.judged auto false time) (srv.fail r.ip) (.ended (.error "403 Forbidden" message))
  | refused (auto : Bool) (time : Nat) (message : String) (h : r.route.records = false) :
    Advances cfg rand srv r (.judged auto false time) srv (.ended (.error "403 Forbidden" message))
  | downloading (auto : Bool) (time : Nat) (target : Target) (h : r.route = .dl target) :
    Advances cfg rand srv r (.judged auto true time) srv (download cfg target)
  | stuck (auto valid : Bool) (time : Nat) (h : r.route.checks = false) :
    Advances cfg rand srv r (.judged auto valid time) srv (.judged auto valid time)
  | streamed : Advances cfg rand srv r .streaming srv .streamed
  | counted (count : Nat) (h : count = (srv.downloadCount + 1) % 2 ^ 64) :
    Advances cfg rand srv r .streamed { srv with downloadCount := count } (.counted count)
  | served (count : Nat) : Advances cfg rand srv r (.counted count) (quotaCheck cfg srv count) (.ended .served)
  | stays (reply : Reply) : Advances cfg rand srv r (.ended reply) srv (.ended reply)

variable {cfg : Config} {rand : Nat → List UInt8}

theorem advance_spec (srv : Server) (r : Request) (stage : Stage) :
    Advances cfg rand srv r stage (advance cfg rand srv r stage).1 (advance cfg rand srv r stage).2 := by
  cases stage with
  | connected =>
    simp only [advance]
    split
    · exact .blocked _ ‹_›
    · exact .admitted _ ‹_›
  | checked => exact .read
  | asked auto =>
    cases hroute : r.route <;> simp only [advance, hroute]
    case requestStatus session => exact .polled auto session hroute
    case page => exact .shown auto hroute
    case other => exact .unknown auto hroute
    all_goals exact .judged auto (by rw [hroute]; rfl)
  | judged auto valid time =>
    cases hroute : r.route <;> simp only [advance, hroute]
    case apiRequest => exact .requested auto valid time hroute
    case pending =>
      cases valid with
      | true => exact .listed auto time hroute
      | false => exact .refused auto time _ (by rw [hroute]; rfl)
    case auth =>
      cases valid with
      | true => exact .letIn auto time _ (by rw [hroute]; rfl) (.inl rfl)
      | false => exact .failed auto time _ (by rw [hroute]; rfl)
    case dl target =>
      cases valid with
      | true => exact .downloading auto time target hroute
      | false => exact .refused auto time _ (by rw [hroute]; rfl)
    case upload =>
      cases valid with
      | true => exact .letIn auto time _ (by rw [hroute]; rfl) (.inr rfl)
      | false => exact .failed auto time _ (by rw [hroute]; rfl)
    all_goals exact .stuck auto valid time (by rw [hroute]; rfl)
  | streaming => exact .streamed
  | streamed => exact .counted _ rfl
  | counted count => exact .served count
  | ended reply => exact .stays reply

/-- A connection that goes on takes one of its steps, in its place. -/
theorem System.step_go (cfg : Config) (rand : Nat → List UInt8) {sys : System} {i : Nat} {c : Conn} (h : sys.conns[i]? = some c) :
    ∃ srv stage, Advances cfg rand sys.server c.request c.stage srv stage ∧
      sys.step cfg rand (.go i) = ⟨srv, sys.conns.set i { c with stage }⟩ := by
  refine ⟨_, _, advance_spec sys.server c.request c.stage, ?_⟩
  simp only [System.step, h, System.setStage]

theorem System.step_drop {sys : System} {i : Nat} {c : Conn} (h : sys.conns[i]? = some c) :
    sys.step cfg rand (.drop i) = ⟨sys.server, sys.conns.set i { c with stage := dropped c.stage }⟩ := by
  simp only [System.step, h, System.setStage]

theorem System.step_absent {sys : System} {i : Nat} (h : sys.conns[i]? = none) :
    sys.step cfg rand (.go i) = sys ∧ sys.step cfg rand (.drop i) = sys := by
  simp only [System.step, h, and_self]

theorem apiRequest_keeps (cfg : Config) (rand : Nat → List UInt8) (srv : Server) (r : Request) (auto valid : Bool) :
    (apiRequest cfg rand srv r auto valid).1.now = srv.now ∧
      (apiRequest cfg rand srv r auto valid).1.failedAttempts = srv.failedAttempts ∧
      (apiRequest cfg rand srv r auto valid).1.cancelled = srv.cancelled ∧
      (apiRequest cfg rand srv r auto valid).1.downloadCount = srv.downloadCount := by
  unfold apiRequest
  split
  · exact ⟨rfl, rfl, rfl, rfl⟩
  · split <;> exact ⟨rfl, rfl, rfl, rfl⟩

theorem quotaCheck_keeps (cfg : Config) (srv : Server) (count : Nat) :
    (quotaCheck cfg srv count).now = srv.now ∧ (quotaCheck cfg srv count).failedAttempts = srv.failedAttempts ∧
      (quotaCheck cfg srv count).pendingRequests = srv.pendingRequests ∧
      (quotaCheck cfg srv count).draws = srv.draws ∧
      (quotaCheck cfg srv count).downloadCount = srv.downloadCount := by
  unfold quotaCheck
  split
  · split <;> exact ⟨rfl, rfl, rfl, rfl, rfl⟩
  · exact ⟨rfl, rfl, rfl, rfl, rfl⟩

theorem respondToRequest_keeps {srv srv' : Server} {sessionId : String} {accepted : Bool}
    (h : respondToRequest rand srv sessionId accepted = .ok srv') :
    srv'.now = srv.now ∧ srv'.failedAttempts = srv.failedAttempts ∧ srv'.cancelled = srv.cancelled ∧
      srv'.downloadCount = srv.downloadCount := by
  unfold respondToRequest at h
  repeat' split at h
  all_goals cases h
  all_goals exact ⟨rfl, rfl, rfl, rfl⟩

/-- A download that is let in streams, or is answered with an error. -/
theorem download_cases (cfg : Config) (target : Target) :
    download cfg target = .streaming ∨ ∃ status message, download cfg target = .ended (.error status message) := by
  unfold download
  repeat' split
  all_goals first | exact .inl rfl | exact .inr ⟨_, _, rfl⟩

end Nxfr.Web.Share

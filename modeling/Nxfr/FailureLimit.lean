/-
The limit on wrong credentials of one address, over every route that checks
one and every order of the steps of its connections.

The check is made when a connection starts and the failure is recorded when it
ends, on two of the five routes only. What keeps the limit is that the
connections between the two have room: `Lockout` has the argument, and each of
them holds one of its tickets.
-/
import Nxfr.Lockout
import Nxfr.WebServerFacts

namespace Nxfr.Web.Share

open History Lockout

theorem Route.records_checks {route : Route} (h : route.records = true) : route.checks = true := by
  cases route <;> first | rfl | cases h

/-- A request that has a credential evaluated, or a failure recorded. -/
def Request.tries (r : Request) : Bool := r.route.checks && (r.credential.isSome || r.route.records)

def failureLimit : Rule := ⟨maxFailedAttempts, rateLimitWindow, blockDuration, by decide⟩

section

variable (cfg : Config) (rand : Nat → List UInt8) (ip : IpAddr)

/-- The credential of the address that a connection has evaluated when it goes
on, if it does. -/
def Conn.attempt (srv : Server) (c : Conn) : List Attempt :=
  match c.stage with
  | .asked _ =>
    if c.request.ip = ip ∧ c.request.route.checks = true then
      match c.request.credential with
      | some token => [⟨srv.now, isValidToken cfg srv token⟩]
      | none => []
    else []
  | _ => []

def System.attempt (sys : System) : Event → List Attempt
  | .go i => match sys.conns[i]? with
    | some c => c.attempt cfg ip sys.server
    | none => []
  | .wait _ | .connect _ | .drop _ | .respond _ _ | .setAutoAccept _ | .stop => []

/-- The credentials of the address that are evaluated, in order. -/
def attempts (sys : System) : List Event → List Attempt
  | [] => []
  | e :: es => sys.attempt cfg ip e ++ attempts (sys.step cfg rand e) es

/-- A connection of the address that is past the check and may still fail, or
has failed at a time and is not recorded. -/
def Conn.ticket (c : Conn) : Option (Option Nat) :=
  if c.request.ip = ip ∧ c.request.tries = true then
    match c.stage with
    | .checked | .asked _ => some none
    | .judged _ false time =>
      if c.request.route.records then some (c.request.credential.map fun _ => time) else none
    | .judged _ true _ | .connected | .streaming | .streamed | .counted _ | .ended _ => none
  else none

def System.tickets (sys : System) : List (Option Nat) := sys.conns.filterMap (Conn.ticket ip)

/-- A connection that passes the check while others are under way finds that
the failures counted and those others are fewer than the limit. -/
def hasRoom (srv : Server) (tickets : List (Option Nat)) : Bool :=
  match rateCheck srv.now (srv.failedAttempts ip) with
  | some entry => tickets.isEmpty || decide (count entry + tickets.length < maxFailedAttempts)
  | none => true

/-- A wrong credential comes on a route that records it. -/
def isRecorded (srv : Server) (r : Request) : Bool :=
  r.credential.isNone || checkCredential cfg srv r.credential || r.route.records

/-- A count that starts over when a failure is recorded had also run out when
the credential was evaluated. -/
def inTime (srv : Server) (time : Nat) : Bool :=
  match srv.failedAttempts ip with
  | some (_, last) => decide (srv.now - last ≤ rateLimitWindow) || decide (time - last > rateLimitWindow)
  | none => true

/-- What a connection of the address has to meet when it goes on. -/
def Conn.guarded (srv : Server) (tickets : List (Option Nat)) (c : Conn) : Bool :=
  c.request.ip != ip || !c.request.tries || match c.stage with
    | .connected => hasRoom ip srv tickets
    | .asked _ => isRecorded cfg srv c.request
    | .judged _ false time => c.request.credential.isNone || inTime ip srv time
    | _ => true

def System.guarded (sys : System) : Event → Bool
  | .go i => match sys.conns[i]? with
    | some c => c.guarded cfg ip sys.server (sys.tickets ip)
    | none => true
  | .wait _ | .connect _ | .drop _ | .respond _ _ | .setAutoAccept _ | .stop => true

end

variable {cfg : Config} {rand : Nat → List UInt8} {ip : IpAddr}

theorem attempts_snoc {sys : System} {es : List Event} {e : Event} :
    attempts cfg rand ip sys (es ++ [e]) =
      attempts cfg rand ip sys es ++ (after (System.step cfg rand) sys es).attempt cfg ip e := by
  induction es generalizing sys with
  | nil => simp [attempts, after]
  | cons e' es ih => simp only [List.cons_append, attempts, ih, after, List.foldl_cons, List.append_assoc]

/-! ## Tickets -/

theorem Conn.ticket_other {c : Conn} (h : ¬ (c.request.ip = ip ∧ c.request.tries = true)) : c.ticket ip = none :=
  if_neg h

theorem Conn.ticket_ended {r : Request} {reply : Reply} : Conn.ticket ip ⟨r, .ended reply⟩ = none := by
  simp [Conn.ticket]

theorem filterMap_set_perm {α β : Type} (f : α → Option β) {xs : List α} {i : Nat} {x : α} (h : xs[i]? = some x) :
    ∃ rest, (xs.filterMap f).Perm ((f x).toList ++ rest) ∧
      ∀ y, ((xs.set i y).filterMap f).Perm ((f y).toList ++ rest) := by
  obtain ⟨hi, rfl⟩ := List.getElem?_eq_some_iff.mp h
  have hset : ∀ y, ((xs.set i y).filterMap f).Perm
      ((f y).toList ++ ((xs.take i).filterMap f ++ (xs.drop (i + 1)).filterMap f)) := by
    intro y
    rw [List.set_eq_take_append_cons_drop, if_pos hi, List.filterMap_append]
    cases hy : f y with
    | none => rw [List.filterMap_cons_none hy, Option.toList_none, List.nil_append]
    | some b =>
      rw [List.filterMap_cons_some hy]
      exact List.perm_middle
  refine ⟨_, ?_, hset⟩
  have := hset xs[i]
  rwa [List.set_getElem_self] at this

/-! ## One step -/

theorem rateCheck_tracks {log : List Attempt} {entry entry' : Entry} {tickets : List (Option Nat)} {now : Nat}
    (h : Tracks failureLimit log entry tickets now) (hcheck : rateCheck now entry = some entry') :
    Tracks failureLimit log entry' tickets now ∧ count entry' < maxFailedAttempts := by
  cases entry with
  | none =>
    cases hcheck
    exact ⟨h, by decide⟩
  | some e =>
    obtain ⟨k, last⟩ := e
    simp only [rateCheck] at hcheck
    split at hcheck
    · rename_i hk
      split at hcheck
      · cases hcheck
      · rename_i hlast
        cases hcheck
        refine ⟨h.expire hk ?_, by decide⟩
        simp only [failureLimit, blockDuration] at hlast ⊢
        omega
    · rename_i hk
      cases hcheck
      exact ⟨h, Nat.not_le.mp hk⟩

theorem recordFailure_counts (now time : Nat) {entry : Entry} (hroom : count entry < maxFailedAttempts)
    (htime : ∀ k last, entry = some (k, last) → now - last ≤ rateLimitWindow ∨ time - last > rateLimitWindow) :
    ∃ k, recordFailure now entry = (k, now) ∧ failureLimit.Counts entry time k := by
  have hwrap : (count entry + 1) % 2 ^ 32 = count entry + 1 := by
    simp only [maxFailedAttempts] at hroom
    omega
  cases entry with
  | none =>
    refine ⟨1, ?_, .inl rfl⟩
    simp [recordFailure]
  | some e =>
    obtain ⟨k, last⟩ := e
    by_cases hold : now - last > rateLimitWindow
    · refine ⟨1, by simp [recordFailure, hold], .inr ⟨rfl, k, last, rfl, ?_⟩⟩
      have := htime k last rfl
      simp only [failureLimit]
      omega
    · refine ⟨k + 1, ?_, .inl rfl⟩
      simp only [recordFailure, Option.getD_some, if_neg hold]
      exact congrArg (·, now) hwrap

section

variable {srv : Server} {r : Request} {log : List Attempt} {rest : List (Option Nat)}

/-- A connection passes the check. -/
theorem tracks_admitted {tickets : List (Option Nat)} {entry : Entry}
    (htracks : Tracks failureLimit log (srv.failedAttempts ip) ((Conn.ticket ip ⟨r, .connected⟩).toList ++ rest) srv.now)
    (hcheck : rateCheck srv.now (srv.failedAttempts r.ip) = some entry)
    (hguarded : Conn.guarded cfg ip srv tickets ⟨r, .connected⟩ = true)
    (hlen : tickets.length = ((Conn.ticket ip ⟨r, .connected⟩).toList ++ rest).length) :
    Tracks failureLimit log ((srv.setAttempts r.ip entry).failedAttempts ip)
      ((Conn.ticket ip ⟨r, .checked⟩).toList ++ rest) srv.now := by
  have hnone : (Conn.ticket ip ⟨r, .connected⟩) = none := by simp [Conn.ticket]
  rw [hnone, Option.toList_none, List.nil_append] at htracks hlen
  by_cases hip : r.ip = ip
  · subst hip
    obtain ⟨hentry, hroom⟩ := rateCheck_tracks htracks hcheck
    have hset : (srv.setAttempts r.ip entry).failedAttempts r.ip = entry := by simp [Server.setAttempts]
    rw [hset]
    by_cases htries : r.tries = true
    · have hticket : Conn.ticket r.ip ⟨r, .checked⟩ = some none := by simp [Conn.ticket, htries]
      rw [hticket]
      refine hentry.admit ?_
      simp only [Conn.guarded, bne_self_eq_false, htries, Bool.not_true, Bool.false_or, hasRoom, hcheck, Bool.or_eq_true,
        List.isEmpty_iff, decide_eq_true_eq] at hguarded
      rcases hguarded with hempty | hlt
      · rw [hempty, List.length_nil] at hlen
        rw [← hlen]
        exact hroom
      · rwa [hlen] at hlt
    · rw [Conn.ticket_other (by simp [htries])]
      exact hentry
  · have hset : (srv.setAttempts r.ip entry).failedAttempts ip = srv.failedAttempts ip :=
      Function.update_of_ne (Ne.symm hip) _ _
    rw [hset, Conn.ticket_other (by simp [hip])]
    exact htracks

/-- The credential of a connection is judged. -/
theorem tracks_judged {tickets : List (Option Nat)} {auto : Bool} (hroute : r.route.checks = true)
    (htracks : Tracks failureLimit log (srv.failedAttempts ip) ((Conn.ticket ip ⟨r, .asked auto⟩).toList ++ rest) srv.now)
    (hguarded : Conn.guarded cfg ip srv tickets ⟨r, .asked auto⟩ = true) :
    Tracks failureLimit (log ++ Conn.attempt cfg ip srv ⟨r, .asked auto⟩) (srv.failedAttempts ip)
      ((Conn.ticket ip ⟨r, .judged auto (checkCredential cfg srv r.credential) srv.now⟩).toList ++ rest) srv.now := by
  by_cases hother : r.ip = ip ∧ r.tries = true
  · obtain ⟨rfl, htries⟩ := hother
    have hticket : Conn.ticket r.ip ⟨r, .asked auto⟩ = some none := by simp [Conn.ticket, htries]
    rw [hticket] at htracks
    cases hcred : r.credential with
    | none =>
      -- nothing is evaluated, and the failure is recorded: the ticket is kept
      have hrecords : r.route.records = true := by simpa [Request.tries, hcred, hroute] using htries
      simpa [Conn.attempt, Conn.ticket, checkCredential, hcred, hrecords, htries] using htracks
    | some token =>
      have hattempt : Conn.attempt cfg r.ip srv ⟨r, .asked auto⟩ = [⟨srv.now, isValidToken cfg srv token⟩] := by
        simp [Conn.attempt, hroute, hcred]
      rw [hattempt, checkCredential]
      cases hvalid : isValidToken cfg srv token with
      | true => simpa [Conn.ticket] using htracks.right.leave
      | false =>
        have hrecords : r.route.records = true := by
          simpa [Conn.guarded, htries, isRecorded, hcred, checkCredential, hvalid] using hguarded
        simpa [Conn.ticket, htries, hrecords, hcred] using htracks.wrong
  · rw [Conn.ticket_other hother] at htracks ⊢
    have hattempt : Conn.attempt cfg ip srv ⟨r, .asked auto⟩ = [] := by
      by_cases hip : r.ip = ip
      · have hcred : r.credential = none := by
          have htries : r.tries ≠ true := fun h => hother ⟨hip, h⟩
          simp only [Request.tries, hroute, Bool.true_and, Bool.or_eq_true, not_or, Option.isSome_iff_ne_none, ne_eq,
            not_not] at htries
          exact htries.1
        simp [Conn.attempt, hcred]
      · simp [Conn.attempt, hip]
    rw [hattempt, List.append_nil]
    exact htracks

/-- A failure is recorded. -/
theorem tracks_failed {tickets : List (Option Nat)} {auto : Bool} {time : Nat} (hroute : r.route.records = true)
    (htracks : Tracks failureLimit log (srv.failedAttempts ip)
      ((Conn.ticket ip ⟨r, .judged auto false time⟩).toList ++ rest) srv.now)
    (hguarded : Conn.guarded cfg ip srv tickets ⟨r, .judged auto false time⟩ = true) :
    Tracks failureLimit log ((srv.fail r.ip).failedAttempts ip) rest srv.now := by
  by_cases hip : r.ip = ip
  · subst hip
    have htries : r.tries = true := by simp [Request.tries, hroute, Route.records_checks hroute]
    have hticket : Conn.ticket r.ip ⟨r, .judged auto false time⟩ = some (r.credential.map fun _ => time) := by
      simp [Conn.ticket, htries, hroute]
    rw [hticket] at htracks
    have hroom : count (srv.failedAttempts r.ip) < maxFailedAttempts := by
      have := htracks.room
      simp only [Option.toList_some, List.singleton_append, List.length_cons, failureLimit] at this
      omega
    have hentry : (srv.fail r.ip).failedAttempts r.ip = some (recordFailure srv.now (srv.failedAttempts r.ip)) := by
      simp [Server.fail, Server.setAttempts]
    rw [hentry]
    cases hcred : r.credential with
    | none =>
      rw [hcred] at htracks
      obtain ⟨k, hk, hcounts⟩ := recordFailure_counts srv.now srv.now hroom (by intro k last _; omega)
      rw [hk]
      exact htracks.blank hcounts
    | some token =>
      rw [hcred] at htracks
      have htime : inTime r.ip srv time = true := by simpa [Conn.guarded, htries, hcred] using hguarded
      obtain ⟨k, hk, hcounts⟩ := recordFailure_counts srv.now time hroom (by
        intro k last hlast
        simpa [inTime, hlast] using htime)
      rw [hk]
      exact htracks.recorded hcounts
  · have hset : (srv.fail r.ip).failedAttempts ip = srv.failedAttempts ip := Function.update_of_ne (Ne.symm hip) _ _
    rw [Conn.ticket_other (by simp [hip])] at htracks
    rw [hset]
    exact htracks

end

/-- A connection goes on, the others keeping their tickets. -/
theorem Advances.tracks {srv srv' : Server} {r : Request} {stage stage' : Stage}
    (h : Advances cfg rand srv r stage srv' stage') {log : List Attempt} {rest tickets : List (Option Nat)}
    (hguarded : Conn.guarded cfg ip srv tickets ⟨r, stage⟩ = true)
    (hlen : tickets.length = ((Conn.ticket ip ⟨r, stage⟩).toList ++ rest).length)
    (htracks : Tracks failureLimit log (srv.failedAttempts ip) ((Conn.ticket ip ⟨r, stage⟩).toList ++ rest) srv.now) :
    Tracks failureLimit (log ++ Conn.attempt cfg ip srv ⟨r, stage⟩) (srv'.failedAttempts ip)
      ((Conn.ticket ip ⟨r, stage'⟩).toList ++ rest) srv'.now := by
  cases h with
  | blocked message hcheck => simpa [Conn.ticket, Conn.attempt] using htracks
  | admitted entry hcheck =>
    rw [Conn.attempt, List.append_nil]
    exact tracks_admitted htracks hcheck hguarded hlen
  | read => simpa [Conn.ticket, Conn.attempt] using htracks
  | polled auto session hroute => simpa [Conn.ticket, Conn.attempt, hroute, Route.checks, Request.tries] using htracks
  | shown auto hroute => simpa [Conn.ticket, Conn.attempt, hroute, Route.checks, Request.tries] using htracks
  | unknown auto hroute => simpa [Conn.ticket, Conn.attempt, hroute, Route.checks, Request.tries] using htracks
  | judged auto hroute => exact tracks_judged hroute htracks hguarded
  | requested auto valid time hroute =>
    obtain ⟨hnow, hentry, _, _⟩ := apiRequest_keeps cfg rand srv r auto valid
    rw [hnow, hentry]
    cases valid <;> simpa [Conn.ticket, Conn.attempt, hroute, Route.records] using htracks
  | listed auto time hroute => simpa [Conn.ticket, Conn.attempt] using htracks
  | letIn auto time reply hroute hreply => simpa [Conn.ticket, Conn.attempt] using htracks
  | failed auto time message hroute =>
    rw [Conn.attempt, List.append_nil, Conn.ticket_ended]
    exact tracks_failed hroute htracks hguarded
  | refused auto time message hroute => simpa [Conn.ticket, Conn.attempt, hroute] using htracks
  | downloading auto time target hroute =>
    rcases download_cases cfg target with hd | ⟨status, message, hd⟩
    · simpa [hd, Conn.ticket, Conn.attempt] using htracks
    · simpa [hd, Conn.ticket, Conn.attempt] using htracks
  | stuck auto valid time hroute => simpa [Conn.ticket, Conn.attempt] using htracks
  | streamed => simpa [Conn.ticket, Conn.attempt] using htracks
  | counted count hcount => simpa [Conn.ticket, Conn.attempt] using htracks
  | served count =>
    obtain ⟨hnow, hentry, _, _⟩ := quotaCheck_keeps cfg srv count
    rw [hnow, hentry]
    simpa [Conn.ticket, Conn.attempt] using htracks
  | stays reply => simpa [Conn.ticket, Conn.attempt] using htracks

/-! ## Runs -/

theorem tickets_set (ip : IpAddr) {sys : System} {i : Nat} {c : Conn} (h : sys.conns[i]? = some c) (srv : Server) :
    ∃ rest, (sys.tickets ip).Perm ((c.ticket ip).toList ++ rest) ∧
      ∀ c', (System.tickets ip ⟨srv, sys.conns.set i c'⟩).Perm ((c'.ticket ip).toList ++ rest) :=
  filterMap_set_perm (Conn.ticket ip) h

theorem dropped_ticket (ip : IpAddr) (r : Request) (stage : Stage) :
    Conn.ticket ip ⟨r, dropped stage⟩ = Conn.ticket ip ⟨r, stage⟩ ∨
      (Conn.ticket ip ⟨r, stage⟩ = some none ∧ Conn.ticket ip ⟨r, dropped stage⟩ = none) := by
  cases stage
  case checked =>
    by_cases h : r.ip = ip ∧ r.tries = true
    · exact .inr ⟨by simp [Conn.ticket, h], by simp [dropped, Conn.ticket]⟩
    · exact .inl (by rw [Conn.ticket_other h, Conn.ticket_other h])
  case streaming => exact .inl (by simp [dropped, Conn.ticket])
  all_goals exact .inl rfl

theorem step_tracks {sys : System} {log : List Attempt} {e : Event} (hguarded : sys.guarded cfg ip e = true)
    (h : Tracks failureLimit log (sys.server.failedAttempts ip) (sys.tickets ip) sys.server.now) :
    Tracks failureLimit (log ++ sys.attempt cfg ip e) ((sys.step cfg rand e).server.failedAttempts ip)
      ((sys.step cfg rand e).tickets ip) (sys.step cfg rand e).server.now := by
  cases e with
  | wait d =>
    rw [System.attempt, List.append_nil]
    exact h.wait (Nat.le_add_right _ d)
  | connect r =>
    rw [System.attempt, List.append_nil]
    have htickets : (sys.step cfg rand (.connect r)).tickets ip = sys.tickets ip := by
      simp only [System.step, System.tickets, List.filterMap_append]
      split <;> simp [Conn.ticket]
    rw [htickets]
    exact h
  | go i =>
    cases hi : sys.conns[i]? with
    | none =>
      rw [(System.step_absent hi).1]
      simpa [System.attempt, hi] using h
    | some c =>
      obtain ⟨srv, stage, hadv, hstep⟩ := System.step_go cfg rand hi
      obtain ⟨rest, hperm, hset⟩ := tickets_set ip hi srv
      rw [hstep]
      simp only [System.guarded, hi] at hguarded
      simp only [System.attempt, hi]
      exact (hadv.tracks hguarded hperm.length_eq (h.perm hperm)).perm (hset _).symm
  | drop i =>
    rw [System.attempt, List.append_nil]
    cases hi : sys.conns[i]? with
    | none =>
      rw [(System.step_absent hi).2]
      exact h
    | some c =>
      obtain ⟨rest, hperm, hset⟩ := tickets_set ip hi sys.server
      rw [System.step_drop hi]
      refine Tracks.perm ?_ (hset _).symm
      have h := h.perm hperm
      rcases dropped_ticket ip c.request c.stage with hsame | ⟨hticket, hnone⟩
      · rw [hsame]
        exact h
      · rw [hnone]
        rw [hticket] at h
        exact h.leave
  | respond sessionId accepted =>
    rw [System.attempt, List.append_nil]
    simp only [System.step]
    split
    · rename_i srv hok
      obtain ⟨hnow, hentry, _, _⟩ := respondToRequest_keeps hok
      simp only [hnow, hentry]
      exact h
    · exact h
  | setAutoAccept enabled =>
    rw [System.attempt, List.append_nil]
    exact h
  | stop =>
    rw [System.attempt, List.append_nil]
    exact h

theorem run_tracks {auto : Bool} {es : List Event}
    (h : Always (System.step cfg rand) (System.start auto) (fun sys e => sys.guarded cfg ip e = true) es) :
    Tracks failureLimit (attempts cfg rand ip (System.start auto) es)
      ((after (System.step cfg rand) (System.start auto) es).server.failedAttempts ip)
      ((after (System.step cfg rand) (System.start auto) es).tickets ip)
      (after (System.step cfg rand) (System.start auto) es).server.now := by
  induction es using List.reverseRecOn with
  | nil => exact Tracks.start
  | append_singleton es e ih =>
    rw [attempts_snoc, after_snoc]
    exact step_tracks h.last (ih h.of_append)

/-- **The limit on wrong credentials.** In every run in which, at every step of
a connection of the address, those past the check have room, a wrong credential
comes on `/auth` or `/upload`, and a count that starts over had run out when
the credential was evaluated, no window of a minute holds more than five wrong
credentials of the address, and after the fifth none is evaluated for five
minutes. -/
theorem wrong_credentials_limited (auto : Bool) {es : List Event}
    (h : Always (System.step cfg rand) (System.start auto) (fun sys e => sys.guarded cfg ip e = true) es) :
    failureLimit.Limits (attempts cfg rand ip (System.start auto) es) := by
  exact (run_tracks h).limits

/-! ## Runs that keep the limit, and runs that do not -/

def homeServer : Config := ⟨"8f4c", some "482913", some [⟨0, 5⟩], none⟩

/-- A guess at the PIN. -/
def guess (route : Route) : Request := ⟨.v4 0xC0A80107, "curl", 0, route, some "000000"⟩

/-- A connection that does nothing but its own steps, to its answer. -/
def inTurn (i : Nat) (r : Request) : List Event := [.connect r, .go i, .go i, .go i, .go i]

/-- Two guesses at once, three more, and one that is turned away. -/
def guessingRun : List Event :=
  [.connect (guess .auth), .connect (guess .upload), .go 0, .go 1, .go 1, .go 0, .go 0, .go 1, .wait 1000000000, .go 1, .go 0]
    ++ inTurn 2 (guess .auth) ++ inTurn 3 (guess .upload) ++ inTurn 4 (guess .auth) ++ inTurn 5 (guess .auth)

theorem wrong_credentials_limited_guessing :
    (attempts homeServer (fun _ => []) (guess .auth).ip (System.start false) guessingRun).length = 5 ∧
      failureLimit.Limits (attempts homeServer (fun _ => []) (guess .auth).ip (System.start false) guessingRun) :=
  ⟨by decide +kernel, wrong_credentials_limited false (Always.of_holds (fun _ _ h => h) (by decide +kernel))⟩

/-- Six guesses by downloads, one after the other. -/
def guessingDownloads : List Event :=
  (List.range 6).flatMap fun i => inTurn i (guess (.dl (.file (some 0) .readable none)))

/-- Six guesses on `/auth`, each past the check before one is recorded. -/
def guessingTogether : List Event :=
  List.replicate 6 (.connect (guess .auth)) ++ (List.replicate 4 ((List.range 6).map .go)).flatten

/-- Five guesses on `/auth`, the fifth recorded a minute late, and one more. -/
def guessingLate : List Event :=
  (List.range 4).flatMap (fun i => inTurn i (guess .auth)) ++
    [.connect (guess .auth), .go 4, .go 4, .go 4, .wait 61000000000, .go 4] ++ inTurn 5 (guess .auth)

/-- What the limit does not see: a route that does not record, connections that
overlap, and a record that comes late. -/
theorem wrong_credentials_unlimited :
    ¬ failureLimit.Limits (attempts homeServer (fun _ => []) (guess .auth).ip (System.start false) guessingDownloads) ∧
      ¬ failureLimit.Limits (attempts homeServer (fun _ => []) (guess .auth).ip (System.start false) guessingTogether) ∧
      ¬ failureLimit.Limits (attempts homeServer (fun _ => []) (guess .auth).ip (System.start false) guessingLate) := by
  have hdownloads : attempts homeServer (fun _ => []) (guess .auth).ip (System.start false) guessingDownloads =
      List.replicate 6 ⟨0, false⟩ := by decide +kernel
  have htogether : attempts homeServer (fun _ => []) (guess .auth).ip (System.start false) guessingTogether =
      List.replicate 6 ⟨0, false⟩ := by decide +kernel
  have hlate : attempts homeServer (fun _ => []) (guess .auth).ip (System.start false) guessingLate =
      List.replicate 4 ⟨0, false⟩ ++ ⟨0, false⟩ :: [⟨61000000000, false⟩] := by decide +kernel
  refine ⟨?_, ?_, ?_⟩
  · intro h
    exact absurd (hdownloads ▸ h.window 0) (by decide)
  · intro h
    exact absurd (htogether ▸ h.window 0) (by decide)
  · intro h
    exact absurd (h.block _ _ _ hlate ⟨rfl, by decide⟩ _ (List.mem_singleton_self _)) (by decide)

end Nxfr.Web.Share

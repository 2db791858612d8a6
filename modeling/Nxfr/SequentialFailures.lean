/-
The failure limit on the requests of one address that come one at a time:
each is answered, or has ended otherwise, before the next one connects. The
other addresses, the host and the clock do as they like meanwhile.

What is logged here are the failures the server records, with the count it
records, not the credentials: the count goes by the last failure, and
`Lockout.Rule.Books` has the argument for the window.
-/
import Nxfr.FailureLimit

namespace Nxfr.Web.Share

open History Lockout

def Stage.isEnded : Stage → Bool
  | .ended _ => true
  | .connected | .checked | .asked _ | .judged _ _ _ | .streaming | .streamed | .counted _ => false

/-- Past the check, with a failure still to come. -/
def Stage.mayFail : Stage → Bool
  | .checked | .asked _ | .judged _ _ _ => true
  | .connected | .streaming | .streamed | .counted _ | .ended _ => false

section

variable (cfg : Config) (rand : Nat → List UInt8) (ip : IpAddr)

/-- A request of the address comes when those before it have ended. -/
def System.oneAtATime (sys : System) : Event → Bool
  | .connect r => r.ip != ip || sys.conns.all fun c => c.request.ip != ip || c.stage.isEnded
  | .wait _ | .go _ | .drop _ | .respond _ _ | .setAutoAccept _ | .stop => true

/-- What is recorded of the address when a connection goes on: the count with
this failure in it, and when. -/
def Conn.recorded (srv : Server) (c : Conn) : List (Nat × Nat) :=
  match c.stage with
  | .judged _ false _ =>
    if c.request.ip = ip ∧ c.request.route.records = true then [recordFailure srv.now (srv.failedAttempts ip)] else []
  | _ => []

def System.recorded (sys : System) : Event → List (Nat × Nat)
  | .go i => match sys.conns[i]? with
    | some c => c.recorded ip sys.server
    | none => []
  | .wait _ | .connect _ | .drop _ | .respond _ _ | .setAutoAccept _ | .stop => []

/-- The failures recorded of the address, in order. -/
def recordedFailures (sys : System) : List Event → List (Nat × Nat)
  | [] => []
  | e :: es => sys.recorded ip e ++ recordedFailures (sys.step cfg rand e) es

end

variable {cfg : Config} {rand : Nat → List UInt8} {ip : IpAddr}

theorem recordedFailures_snoc {sys : System} {es : List Event} {e : Event} :
    recordedFailures cfg rand ip sys (es ++ [e]) =
      recordedFailures cfg rand ip sys es ++ (after (System.step cfg rand) sys es).recorded ip e := by
  induction es generalizing sys with
  | nil => simp [recordedFailures, after]
  | cons e' es ih => simp only [List.cons_append, recordedFailures, ih, after, List.foldl_cons, List.append_assoc]

/-! ## One step -/

/-- What a step of a connection does to the entries: it passes the check; it
records a failure and ends; or it leaves them as they are. -/
inductive Limiter (srv : Server) (r : Request) : Stage → Server → Stage → Prop
  | admitted (entry : Entry) (h : rateCheck srv.now (srv.failedAttempts r.ip) = some entry) :
    Limiter srv r .connected (srv.setAttempts r.ip entry) .checked
  | failed (auto : Bool) (time : Nat) (reply : Reply) (h : r.route.records = true) :
    Limiter srv r (.judged auto false time) (srv.fail r.ip) (.ended reply)
  | keeps {srv' : Server} {stage stage' : Stage} (hentries : srv'.failedAttempts = srv.failedAttempts)
    (hnow : srv'.now = srv.now) (hmay : stage'.mayFail = true → stage.mayFail = true)
    (hended : stage.isEnded = true → stage'.isEnded = true) (hnone : ∀ ip, Conn.recorded ip srv ⟨r, stage⟩ = []) :
    Limiter srv r stage srv' stage'

theorem Advances.limiter {srv srv' : Server} {r : Request} {stage stage' : Stage}
    (h : Advances cfg rand srv r stage srv' stage') : Limiter srv r stage srv' stage' := by
  cases h
  case admitted entry h => exact .admitted entry h
  case failed auto time message h => exact .failed auto time _ h
  case requested auto valid time h =>
    obtain ⟨hnow, hentries, _, _⟩ := apiRequest_keeps cfg rand srv r auto valid
    refine .keeps hentries hnow (by simp [Stage.mayFail]) (by simp [Stage.isEnded]) ?_
    intro ip
    cases valid <;> simp [Conn.recorded, h, Route.records]
  case refused auto time message h =>
    exact .keeps rfl rfl (by simp [Stage.mayFail]) (by simp [Stage.isEnded]) (by simp [Conn.recorded, h])
  case downloading auto time target h =>
    rcases download_cases cfg target with hd | ⟨status, message, hd⟩
    · exact hd ▸ .keeps rfl rfl (by simp [Stage.mayFail]) (by simp [Stage.isEnded]) (by simp [Conn.recorded])
    · exact hd ▸ .keeps rfl rfl (by simp [Stage.mayFail]) (by simp [Stage.isEnded]) (by simp [Conn.recorded])
  case stuck auto valid time h =>
    refine .keeps rfl rfl id id ?_
    intro ip
    have hrecords : r.route.records = false := by
      cases hr : r.route.records with
      | false => rfl
      | true => rw [Route.records_checks hr] at h; cases h
    cases valid <;> simp [Conn.recorded, hrecords]
  case served count =>
    obtain ⟨hnow, hentries, _, _⟩ := quotaCheck_keeps cfg srv count
    exact .keeps hentries hnow (by simp [Stage.mayFail]) (by simp [Stage.isEnded]) (by simp [Conn.recorded])
  case stays reply => exact .keeps rfl rfl id id (by simp [Conn.recorded])
  all_goals exact .keeps rfl rfl (by simp [Stage.mayFail]) (by simp [Stage.isEnded]) (by simp [Conn.recorded])

theorem rateCheck_books {log : List (Nat × Nat)} {entry entry' : Entry} {now : Nat}
    (h : failureLimit.Books log entry now) (hcheck : rateCheck now entry = some entry') :
    failureLimit.Books log entry' now ∧ count entry' < maxFailedAttempts := by
  cases entry with
  | none =>
    cases hcheck
    exact ⟨h, by decide⟩
  | some e =>
    obtain ⟨k, last⟩ := e
    simp only [rateCheck] at hcheck
    split at hcheck
    · rename_i hk
      split at hcheck
      · cases hcheck
      · rename_i hlast
        cases hcheck
        refine ⟨h.expire hk ?_, by decide⟩
        simp only [failureLimit, blockDuration] at hlast ⊢
        omega
    · rename_i hk
      cases hcheck
      exact ⟨h, Nat.not_le.mp hk⟩

theorem recordFailure_books {log : List (Nat × Nat)} {entry : Entry} {now : Nat} (h : failureLimit.Books log entry now)
    (hroom : count entry < maxFailedAttempts) :
    failureLimit.Books (log ++ [recordFailure now entry]) (some (recordFailure now entry)) now := by
  obtain ⟨k, hk, hcounts⟩ := recordFailure_counts now now hroom (by intro k last _; omega)
  rw [hk]
  exact h.record hroom hcounts

/-! ## Runs -/

theorem Stage.mayFail_not_ended {stage : Stage} (h : stage.mayFail = true) : stage.isEnded = false := by
  cases stage <;> first | rfl | cases h

/-- At most one connection of the address is under way, and one that may still
fail has found room. -/
structure InTurn (ip : IpAddr) (sys : System) (log : List (Nat × Nat)) : Prop where
  books : failureLimit.Books log (sys.server.failedAttempts ip) sys.server.now
  single : ∀ (i j : Nat) (c c' : Conn), sys.conns[i]? = some c → sys.conns[j]? = some c' → c.request.ip = ip → c'.request.ip = ip →
    c.stage.isEnded = false → c'.stage.isEnded = false → i = j
  room : ∀ (i : Nat) (c : Conn), sys.conns[i]? = some c → c.request.ip = ip → c.stage.mayFail = true →
    count (sys.server.failedAttempts ip) < maxFailedAttempts

section

variable {sys : System} {log : List (Nat × Nat)}

theorem InTurn.single_set (h : InTurn ip sys log) {i : Nat} {c : Conn} (hi : sys.conns[i]? = some c) {stage : Stage}
    (hended : stage.isEnded = false → c.stage.isEnded = false) :
    ∀ (j k : Nat) (c₁ c₂ : Conn), (sys.conns.set i { c with stage })[j]? = some c₁ →
      (sys.conns.set i { c with stage })[k]? = some c₂ → c₁.request.ip = ip → c₂.request.ip = ip → c₁.stage.isEnded = false → c₂.stage.isEnded = false → j = k := by
  -- whoever is under way after the step was under way before it, in the same place
  have hbefore : ∀ (j : Nat) (c₁ : Conn), (sys.conns.set i { c with stage })[j]? = some c₁ → c₁.stage.isEnded = false →
      ∃ c₀, sys.conns[j]? = some c₀ ∧ c₀.request = c₁.request ∧ c₀.stage.isEnded = false := by
    intro j c₁ hj h₁
    by_cases hij : i = j
    · subst hij
      rw [List.getElem?_set_self (List.getElem?_eq_some_iff.mp hi).1, Option.some.injEq] at hj
      subst hj
      exact ⟨c, hi, rfl, hended h₁⟩
    · rw [List.getElem?_set_ne hij] at hj
      exact ⟨c₁, hj, rfl, h₁⟩
  intro j k c₁ c₂ hj hk hip₁ hip₂ h₁ h₂
  obtain ⟨d₁, hd₁, hr₁, he₁⟩ := hbefore j c₁ hj h₁
  obtain ⟨d₂, hd₂, hr₂, he₂⟩ := hbefore k c₂ hk h₂
  exact h.single j k d₁ d₂ hd₁ hd₂ (hr₁ ▸ hip₁) (hr₂ ▸ hip₂) he₁ he₂

/-- A connection goes on that leaves the entry of the address as it is. -/
theorem InTurn.kept (h : InTurn ip sys log) {i : Nat} {c : Conn} (hi : sys.conns[i]? = some c) {srv : Server}
    {stage : Stage} (hentry : srv.failedAttempts ip = sys.server.failedAttempts ip) (hnow : srv.now = sys.server.now)
    (hmay : c.request.ip = ip → stage.mayFail = true → c.stage.mayFail = true)
    (hended : stage.isEnded = false → c.stage.isEnded = false) :
    InTurn ip ⟨srv, sys.conns.set i { c with stage }⟩ log := by
  refine ⟨by simpa only [hentry, hnow] using h.books, h.single_set hi hended, ?_⟩
  intro j c₁ hj hip₁ hmay₁
  simp only [hentry]
  by_cases hij : i = j
  · subst hij
    simp only [List.getElem?_set_self (List.getElem?_eq_some_iff.mp hi).1, Option.some.injEq] at hj
    subst hj
    exact h.room i c hi hip₁ (hmay hip₁ hmay₁)
  · simp only [List.getElem?_set_ne hij] at hj
    exact h.room j c₁ hj hip₁ hmay₁

theorem InTurn.go (h : InTurn ip sys log) {i : Nat} {c : Conn} (hi : sys.conns[i]? = some c) {srv : Server}
    {stage : Stage} (hlimiter : Limiter sys.server c.request c.stage srv stage) :
    InTurn ip ⟨srv, sys.conns.set i { c with stage }⟩ (log ++ c.recorded ip sys.server) := by
  obtain ⟨r, stage₀⟩ := c
  cases hlimiter with
  | keeps hentries hnow hmay hended hnone =>
    rw [hnone ip, List.append_nil]
    refine h.kept hi (by rw [hentries]) hnow (fun _ => hmay) ?_
    intro hs
    cases hs₀ : stage₀.isEnded with
    | false => rfl
    | true => rw [hended hs₀] at hs; cases hs
  | admitted entry hcheck =>
    rw [Conn.recorded, List.append_nil]
    by_cases hip : r.ip = ip
    · subst hip
      obtain ⟨hbooks, hroom⟩ := rateCheck_books h.books hcheck
      have hset : (sys.server.setAttempts r.ip entry).failedAttempts r.ip = entry := by simp [Server.setAttempts]
      refine ⟨by rw [hset]; exact hbooks, h.single_set hi (fun _ => rfl), ?_⟩
      intro j c₁ hj hip₁ hmay₁
      rw [hset]
      exact hroom
    · have hset : (sys.server.setAttempts r.ip entry).failedAttempts ip = sys.server.failedAttempts ip :=
        Function.update_of_ne (Ne.symm hip) _ _
      exact h.kept hi hset rfl (fun hip' => absurd hip' hip) (fun _ => rfl)
  | failed auto time reply hroute =>
    by_cases hip : r.ip = ip
    · subst hip
      have hrecorded : Conn.recorded r.ip sys.server ⟨r, .judged auto false time⟩ =
          [recordFailure sys.server.now (sys.server.failedAttempts r.ip)] := by
        simp [Conn.recorded, hroute]
      have hset : (sys.server.fail r.ip).failedAttempts r.ip =
          some (recordFailure sys.server.now (sys.server.failedAttempts r.ip)) := by
        simp [Server.fail, Server.setAttempts]
      rw [hrecorded]
      refine ⟨by rw [hset]; exact recordFailure_books h.books (h.room i _ hi rfl rfl),
        h.single_set hi (by simp [Stage.isEnded]), ?_⟩
      -- no other connection of the address is under way, and this one has ended
      intro j c₁ hj hip₁ hmay₁
      by_cases hij : i = j
      · subst hij
        simp only [List.getElem?_set_self (List.getElem?_eq_some_iff.mp hi).1, Option.some.injEq] at hj
        subst hj
        cases hmay₁
      · simp only [List.getElem?_set_ne hij] at hj
        exact absurd (h.single i j _ c₁ hi hj rfl hip₁ rfl (Stage.mayFail_not_ended hmay₁)) hij
    · have hset : (sys.server.fail r.ip).failedAttempts ip = sys.server.failedAttempts ip :=
        Function.update_of_ne (Ne.symm hip) _ _
      have hrecorded : Conn.recorded ip sys.server ⟨r, .judged auto false time⟩ = [] := by
        simp [Conn.recorded, hip]
      rw [hrecorded, List.append_nil]
      exact h.kept hi hset rfl (fun hip' => absurd hip' hip) (by simp [Stage.isEnded])

end

theorem Stage.dropped_spec (stage : Stage) :
    ((dropped stage).mayFail = true → stage.mayFail = true) ∧
      ((dropped stage).isEnded = false → stage.isEnded = false) := by
  cases stage <;> simp [dropped, Stage.mayFail, Stage.isEnded]

/-- A request of the address that connects is then the only one under way. -/
theorem InTurn.connected {sys : System} {log : List (Nat × Nat)} (h : InTurn ip sys log) {r : Request} {stage : Stage}
    (hmay : stage.mayFail = false) (hturn : sys.oneAtATime ip (.connect r) = true) :
    InTurn ip ⟨sys.server, sys.conns ++ [⟨r, stage⟩]⟩ log := by
  -- whoever is not the newcomer was there before
  have hbefore : ∀ (j : Nat) (c : Conn), (sys.conns ++ [⟨r, stage⟩])[j]? = some c →
      sys.conns[j]? = some c ∨ (j = sys.conns.length ∧ c = ⟨r, stage⟩) := by
    intro j c hj
    by_cases hlt : j < sys.conns.length
    · rw [List.getElem?_append_left hlt] at hj
      exact .inl hj
    · rw [List.getElem?_append_right (by omega), List.getElem?_singleton] at hj
      split at hj
      · cases hj
        exact .inr ⟨by omega, rfl⟩
      · cases hj
  have hothers : ∀ (j : Nat) (c : Conn), sys.conns[j]? = some c → c.request.ip = ip → r.ip = ip → c.stage.isEnded = true := by
    intro j c hj hip hr
    simp only [System.oneAtATime, hr, bne_self_eq_false, Bool.false_or, List.all_eq_true] at hturn
    simpa [hip] using hturn c (List.mem_of_getElem? hj)
  refine ⟨h.books, ?_, ?_⟩
  · intro i j c c' hi hj hip hip' hc hc'
    rcases hbefore i c hi with hi | ⟨rfl, rfl⟩
    · rcases hbefore j c' hj with hj | ⟨rfl, rfl⟩
      · exact h.single i j c c' hi hj hip hip' hc hc'
      · rw [hothers i c hi hip hip'] at hc
        cases hc
    · rcases hbefore j c' hj with hj | ⟨rfl, rfl⟩
      · rw [hothers j c' hj hip' hip] at hc'
        cases hc'
      · rfl
  · intro i c hi hip hc
    rcases hbefore i c hi with hi | ⟨rfl, rfl⟩
    · exact h.room i c hi hip hc
    · rw [hmay] at hc
      cases hc

theorem InTurn.step {sys : System} {log : List (Nat × Nat)} (h : InTurn ip sys log) {e : Event}
    (hturn : sys.oneAtATime ip e = true) : InTurn ip (sys.step cfg rand e) (log ++ sys.recorded ip e) := by
  cases e with
  | wait d =>
    rw [System.recorded, List.append_nil]
    exact ⟨h.books.wait (Nat.le_add_right _ d), h.single, h.room⟩
  | connect r =>
    rw [System.recorded, List.append_nil]
    refine h.connected ?_ hturn
    split <;> rfl
  | go i =>
    cases hi : sys.conns[i]? with
    | none =>
      rw [(System.step_absent hi).1]
      simpa [System.recorded, hi] using h
    | some c =>
      obtain ⟨srv, stage, hadv, hstep⟩ := System.step_go cfg rand hi
      rw [hstep]
      simp only [System.recorded, hi]
      exact h.go hi hadv.limiter
  | drop i =>
    rw [System.recorded, List.append_nil]
    cases hi : sys.conns[i]? with
    | none =>
      rw [(System.step_absent hi).2]
      exact h
    | some c =>
      rw [System.step_drop hi]
      exact h.kept hi rfl rfl (fun _ => (Stage.dropped_spec c.stage).1) (Stage.dropped_spec c.stage).2
  | respond sessionId accepted =>
    rw [System.recorded, List.append_nil]
    simp only [System.step]
    split
    · rename_i srv hok
      obtain ⟨hnow, hentries, _, _⟩ := respondToRequest_keeps hok
      refine ⟨?_, h.single, ?_⟩
      · simpa only [hnow, hentries] using h.books
      · simpa only [hentries] using h.room
    · exact h
  | setAutoAccept enabled =>
    rw [System.recorded, List.append_nil]
    exact ⟨h.books, h.single, h.room⟩
  | stop =>
    rw [System.recorded, List.append_nil]
    exact ⟨h.books, h.single, h.room⟩

theorem run_inTurn {auto : Bool} {es : List Event}
    (h : Always (System.step cfg rand) (System.start auto) (fun sys e => sys.oneAtATime ip e = true) es) :
    InTurn ip (after (System.step cfg rand) (System.start auto) es)
      (recordedFailures cfg rand ip (System.start auto) es) := by
  induction es using List.reverseRecOn with
  | nil => exact ⟨.start _, by simp [after, System.start], by simp [after, System.start]⟩
  | append_singleton es e ih =>
    rw [recordedFailures_snoc, after_snoc]
    exact (ih h.of_append).step h.last

/-- The answer to a request of an address that is blocked. -/
def blockedReply : Reply := .error "403 Forbidden" "Too many failed attempts. Temporarily blocked."

/-- After a count that is full, a request that comes before the block is over
is turned away as it comes, and one that comes later goes in and finds no
count. -/
theorem InTurn.full {sys : System} {log : List (Nat × Nat)} (h : InTurn ip sys log) {count last : Nat}
    (hlast : log.getLast? = some (count, last)) (hfull : maxFailedAttempts ≤ count) {i : Nat} {c : Conn}
    (hi : sys.conns[i]? = some c) (hip : c.request.ip = ip) (hstage : c.stage = .connected) :
    (sys.server.now < last + blockDuration →
      sys.step cfg rand (.go i) = sys.setStage i c sys.server (.ended blockedReply)) ∧
    (last + blockDuration ≤ sys.server.now →
      sys.step cfg rand (.go i) = sys.setStage i c (sys.server.setAttempts ip none) .checked) := by
  subst hip
  have hstep : sys.step cfg rand (.go i) = sys.setStage i c (advance cfg rand sys.server c.request .connected).1
      (advance cfg rand sys.server c.request .connected).2 := by
    simp only [System.step, hi, hstage]
  cases hentry : sys.server.failedAttempts c.request.ip with
  | none =>
    have hover : last + blockDuration ≤ sys.server.now := (hentry ▸ h.books).forgotten hlast
    have hcheck : rateCheck sys.server.now (sys.server.failedAttempts c.request.ip) = some none := by
      rw [hentry, rateCheck]
    refine ⟨fun hlt => absurd hlt (by omega), fun _ => ?_⟩
    rw [hstep, advance, hcheck]
  | some entry =>
    obtain ⟨k, t⟩ := entry
    have hsame := (h.books.getLast_eq hentry).1
    rw [hlast] at hsame
    cases hsame
    have hcheck : rateCheck sys.server.now (sys.server.failedAttempts c.request.ip) =
        if sys.server.now - last < blockDuration then none else some none := by
      rw [hentry, rateCheck, if_pos hfull]
    constructor
    · intro hlt
      have hblocked : sys.server.now - last < blockDuration := by
        simp only [blockDuration] at hlt ⊢
        omega
      rw [hstep, advance, hcheck, if_pos hblocked, blockedReply]
    · intro hle
      rw [hstep, advance, hcheck, if_neg (by omega)]

/-- **The failure limit on requests that come one at a time.** In every run in
which each request of the address ends before its next one connects, no window
of a minute holds more than five recorded failures; and once a recorded count
has reached five, a request of the address is answered 403 unread until five
minutes after that failure, and one that comes later is let in with the count
gone. -/
theorem sequential_failures_limited (auto : Bool) {es : List Event}
    (h : Always (System.step cfg rand) (System.start auto) (fun sys e => sys.oneAtATime ip e = true) es) :
    (∀ t, (recordedFailures cfg rand ip (System.start auto) es).countP
        (fun r => decide (t ≤ r.2 ∧ r.2 ≤ t + rateLimitWindow)) ≤ maxFailedAttempts) ∧
      ∀ sys, sys = after (System.step cfg rand) (System.start auto) es → ∀ count last,
        (recordedFailures cfg rand ip (System.start auto) es).getLast? = some (count, last) → maxFailedAttempts ≤ count →
        ∀ i c, sys.conns[i]? = some c → c.request.ip = ip → c.stage = .connected →
          (sys.server.now < last + blockDuration →
            sys.step cfg rand (.go i) = sys.setStage i c sys.server (.ended blockedReply)) ∧
          (last + blockDuration ≤ sys.server.now →
            sys.step cfg rand (.go i) = sys.setStage i c (sys.server.setAttempts ip none) .checked) := by
  have hturn := run_inTurn h
  refine ⟨hturn.books.window_le, ?_⟩
  intro sys hsys count last hlast hfull i c hi hip hstage
  subst hsys
  exact hturn.full hlast hfull hi hip hstage

/-- Five guesses, on `/auth` and on `/upload`, and a sixth request. -/
def sixthRequest : List Event :=
  inTurn 0 (guess .auth) ++ [.wait 50000000000] ++ inTurn 1 (guess .upload) ++ inTurn 2 (guess .auth) ++
    [.wait 50000000000] ++ inTurn 3 (guess .upload) ++ inTurn 4 (guess .auth) ++ [.connect (guess .page)]

def sixthSystem : System := after (System.step homeServer fun _ => []) (System.start false) sixthRequest

/-- The sixth is turned away, however it comes, and five minutes later it is
let in. -/
theorem sequential_failures_limited_sixth :
    sixthSystem.step homeServer (fun _ => []) (.go 5) =
        sixthSystem.setStage 5 ⟨guess .page, .connected⟩ sixthSystem.server (.ended blockedReply) ∧
      ∀ sys, sys = after (System.step homeServer fun _ => []) (System.start false) (sixthRequest ++ [.wait 300000000000]) →
        sys.step homeServer (fun _ => []) (.go 5) =
          sys.setStage 5 ⟨guess .page, .connected⟩ (sys.server.setAttempts (guess .page).ip none) .checked := by
  constructor
  · have hturn : Always (System.step homeServer fun _ => []) (System.start false)
        (fun sys e => sys.oneAtATime (guess .page).ip e = true) sixthRequest :=
      Always.of_holds (fun _ _ h => h) (by decide +kernel)
    exact ((sequential_failures_limited false hturn).2 sixthSystem rfl 5 100000000000 (by decide +kernel)
      (by decide) 5 _ rfl rfl rfl).1 (by decide +kernel)
  · intro sys hsys
    have hturn : Always (System.step homeServer fun _ => []) (System.start false)
        (fun sys e => sys.oneAtATime (guess .page).ip e = true) (sixthRequest ++ [.wait 300000000000]) :=
      Always.of_holds (fun _ _ h => h) (by decide +kernel)
    exact ((sequential_failures_limited false hturn).2 sys hsys 5 100000000000 (by decide +kernel)
      (by decide) 5 _ (by rw [hsys]; rfl) rfl rfl).2 (by rw [hsys]; decide +kernel)

end Nxfr.Web.Share

/-
The approval gate of a server: whom it gives session tokens, and what a token
is good for, over every run.

A token comes with an accepted request, and a request is accepted on arrival,
for a caller with a valid credential, or later, by the host. Tokens are
credentials themselves, so where a token comes from is a fact about the run
(`Once`), not about the state. What is needed of the random tokens is that no
two draws of the run agree.
-/
import Nxfr.WebServerFacts

namespace Nxfr.Web.Share

open History

/-- The first `n` tokens drawn are distinct. -/
def Fresh (rand : Nat → List UInt8) (n : Nat) : Prop :=
  ∀ i < n, ∀ j < n, generateToken rand i = generateToken rand j → i = j

/-- How a request may change: not at all, or from pending, once. -/
inductive PendingRequest.Becomes (r : PendingRequest) : PendingRequest → Prop
  | same : Becomes r r
  | accepted (token : String) (h : r.status = .pending) :
    Becomes r { r with status := .accepted, sessionToken := some token }
  | rejected (h : r.status = .pending) : Becomes r { r with status := .rejected }

section

variable (cfg : Config) (rand : Nat → List UInt8) (auto : Bool)

abbrev reached (es : List Event) : System := after (System.step cfg rand) (System.start auto) es

def System.request? (sys : System) (id : String) : Option PendingRequest := sys.server.pendingRequests.lookup id

/-- The credential of connection `i` is judged, and valid. -/
def Presents (i : Nat) (token : String) (sys : System) (e : Event) : Prop :=
  e = .go i ∧ ∃ c auto, sys.conns[i]? = some c ∧ c.stage = .asked auto ∧ c.request.credential = some token ∧
    isValidToken cfg sys.server token = true

/-- The host accepts a pending request. -/
def Accepts (id : String) (sys : System) (e : Event) : Prop :=
  e = .respond id true ∧ ∃ r, sys.request? id = some r ∧ r.status = .pending

/-- A session token was issued to a caller who had presented a valid
credential, or when the host accepted its request. -/
def Issued (es : List Event) (id token : String) : Prop :=
  (∃ i c presented, (reached cfg rand auto es).conns[i]? = some c ∧ c.request.route = .apiRequest ∧
      c.stage = .ended (.accepted id token) ∧
      Once (System.step cfg rand) (System.start auto) (Presents cfg i presented) es) ∨
    Once (System.step cfg rand) (System.start auto) (Accepts id) es

/-- The session token of an accepted request. -/
def System.Grants (sys : System) (id token : String) : Prop :=
  ∃ r, sys.request? id = some r ∧ r.status = .accepted ∧ r.sessionToken = some token

/-- What a run of the gate keeps to. -/
structure Gated (es : List Event) : Prop where
  /-- A request leaves its pending state once, and is never changed after. -/
  settled : ∀ before later, es = before ++ later → ∀ id r, (reached cfg rand auto before).request? id = some r →
    ∃ r', (reached cfg rand auto es).request? id = some r' ∧ r.Becomes r'
  /-- A request has a token when it is accepted, and only then. -/
  token_iff : ∀ id r, (reached cfg rand auto es).request? id = some r → (r.sessionToken.isSome ↔ r.status = .accepted)
  /-- A poll reveals the token of an accepted request only. -/
  polled : ∀ c ∈ (reached cfg rand auto es).conns, ∀ session status token, c.request.route = .requestStatus session →
    c.stage = .ended (.status status (some token)) → (reached cfg rand auto es).Grants session token
  /-- So does the answer to a request, and a list of requests has none. -/
  answered : ∀ c ∈ (reached cfg rand auto es).conns, ∀ id token, c.stage = .ended (.accepted id token) →
    (reached cfg rand auto es).Grants id token
  listed : ∀ c ∈ (reached cfg rand auto es).conns, ∀ requests, c.stage = .ended (.requests requests) →
    ∀ r ∈ requests, r.status = .pending ∧ r.sessionToken = none
  /-- The valid credentials. -/
  valid_iff : ∀ token, isValidToken cfg (reached cfg rand auto es).server token = true ↔
    token = cfg.token ∨ cfg.pin = some token ∨ ∃ id, (reached cfg rand auto es).Grants id token
  issued : ∀ id token, (reached cfg rand auto es).Grants id token → Issued cfg rand auto es id token

end

variable {cfg : Config} {rand : Nat → List UInt8} {auto : Bool}

theorem Fresh.mono {m n : Nat} (h : Fresh rand n) (hle : m ≤ n) : Fresh rand m := by
  intro i hi j hj
  exact h i (by omega) j (by omega)

theorem PendingRequest.Becomes.settled {r r' : PendingRequest} (h : r.Becomes r') (hr : r.status ≠ .pending) : r' = r := by
  cases h with
  | same => rfl
  | accepted token h => exact absurd h hr
  | rejected h => exact absurd h hr

theorem PendingRequest.Becomes.trans {r r' r'' : PendingRequest} (h : r.Becomes r') (h' : r'.Becomes r'') :
    r.Becomes r'' := by
  cases h with
  | same => exact h'
  | accepted token hr =>
    rw [h'.settled (by simp)]
    exact .accepted token hr
  | rejected hr =>
    rw [h'.settled (by simp)]
    exact .rejected hr

theorem mem_requestList {srv : Server} {r : PendingRequest} :
    r ∈ srv.requestList ↔ ∃ id, srv.pendingRequests.lookup id = some r := by
  simp only [Server.requestList, List.mem_map, Sigma.exists, ← AList.mem_lookup_iff, Option.mem_def]
  constructor
  · intro h
    obtain ⟨id, r', h, rfl⟩ := h
    exact ⟨id, h⟩
  · intro h
    obtain ⟨id, h⟩ := h
    exact ⟨id, r, h, rfl⟩

theorem PendingRequest.grants_iff {r : PendingRequest} {token : String} :
    r.grants token = true ↔ r.status = .accepted ∧ r.sessionToken = some token := by
  simp [PendingRequest.grants]

/-- `is_valid_token`, exactly. -/
theorem isValidToken_iff {sys : System} {token : String} :
    isValidToken cfg sys.server token = true ↔
      token = cfg.token ∨ cfg.pin = some token ∨ ∃ id, sys.Grants id token := by
  simp only [isValidToken, Bool.or_eq_true, beq_iff_eq, List.any_eq_true, mem_requestList, PendingRequest.grants_iff,
    System.Grants, System.request?]
  constructor
  · intro h
    rcases h with (h | h) | ⟨r, ⟨id, hid⟩, hr⟩
    · exact .inl h
    · exact .inr (.inl h)
    · exact .inr (.inr ⟨id, r, hid, hr⟩)
  · intro h
    rcases h with h | h | ⟨id, r, hid, hr⟩
    · exact .inl (.inl h)
    · exact .inl (.inr h)
    · exact .inr ⟨r, ⟨id, hid⟩, hr⟩

/-! ## What a step does to the requests -/

/-- A request that a connection brings: accepted with a token where its
credential was valid, else pending. -/
def NewRequest (valid : Bool) (r : PendingRequest) (reply : Reply) : Prop :=
  (valid = true ∧ r.status = .accepted ∧ ∃ token, r.sessionToken = some token ∧ reply = .accepted r.sessionId token) ∨
    (r.status = .pending ∧ r.sessionToken = none ∧ reply = .pending r.sessionId)

theorem apiRequest_cases (cfg : Config) (rand : Nat → List UInt8) (srv : Server) (r : Request) (auto valid : Bool) :
    ((apiRequest cfg rand srv r auto valid).1.pendingRequests = srv.pendingRequests ∧
        srv.draws ≤ (apiRequest cfg rand srv r auto valid).1.draws ∧
        ∃ status message, (apiRequest cfg rand srv r auto valid).2 = .error status message) ∨
      ∃ req, req.sessionId = generateToken rand srv.draws ∧
        (apiRequest cfg rand srv r auto valid).1.pendingRequests = srv.pendingRequests.insert req.sessionId req ∧
        srv.draws < (apiRequest cfg rand srv r auto valid).1.draws ∧
        NewRequest valid req (apiRequest cfg rand srv r auto valid).2 := by
  unfold apiRequest
  dsimp only
  split
  · rename_i hvalid
    refine .inr ⟨_, rfl, rfl, ?_, .inl ⟨hvalid, rfl, _, rfl, rfl⟩⟩
    exact Nat.lt_add_of_pos_right (by decide)
  · split
    · exact .inr ⟨_, rfl, rfl, Nat.lt_succ_self _, .inr ⟨rfl, rfl, rfl⟩⟩
    · exact .inl ⟨rfl, Nat.le_succ _, _, _, rfl⟩

theorem Advances.requests {srv srv' : Server} {r : Request} {stage stage' : Stage}
    (h : Advances cfg rand srv r stage srv' stage') :
    (srv'.pendingRequests = srv.pendingRequests ∧ srv'.draws = srv.draws) ∨
      (r.route = .apiRequest ∧ ∃ auto valid time, stage = .judged auto valid time ∧
        srv' = (apiRequest cfg rand srv r auto valid).1 ∧ stage' = .ended (apiRequest cfg rand srv r auto valid).2) := by
  cases h
  case requested auto valid time hroute => exact .inr ⟨hroute, auto, valid, time, rfl, rfl, rfl⟩
  case served count =>
    obtain ⟨_, _, hpending, hdraws, _⟩ := quotaCheck_keeps cfg srv count
    exact .inl ⟨hpending, hdraws⟩
  all_goals exact .inl ⟨rfl, rfl⟩

/-- What a step does to the requests: nothing; it brings a new one, under an id
just drawn; or the host answers a pending one. -/
inductive Revises (cfg : Config) (rand : Nat → List UInt8) (sys : System) (e : Event) : Prop
  | kept (h : (sys.step cfg rand e).server.pendingRequests = sys.server.pendingRequests)
    (hdraws : sys.server.draws ≤ (sys.step cfg rand e).server.draws)
  | brought (i : Nat) (c : Conn) (auto valid : Bool) (time : Nat) (r : PendingRequest) (reply : Reply) (he : e = .go i)
    (hi : sys.conns[i]? = some c) (hroute : c.request.route = .apiRequest) (hstage : c.stage = .judged auto valid time)
    (hid : r.sessionId = generateToken rand sys.server.draws) (hnew : NewRequest valid r reply)
    (h : (sys.step cfg rand e).server.pendingRequests = sys.server.pendingRequests.insert r.sessionId r)
    (hreply : (sys.step cfg rand e).conns[i]? = some { c with stage := .ended reply })
    (hdraws : sys.server.draws < (sys.step cfg rand e).server.draws)
  | answered (id : String) (accepted : Bool) (r r' : PendingRequest) (he : e = .respond id accepted)
    (hr : sys.request? id = some r) (hpending : r.status = .pending)
    (hr' : r' = { r with status := .accepted, sessionToken := some (generateToken rand sys.server.draws) } ∧
      accepted = true ∨ r' = { r with status := .rejected })
    (h : (sys.step cfg rand e).server.pendingRequests = sys.server.pendingRequests.insert id r')
    (hdraws : sys.server.draws ≤ (sys.step cfg rand e).server.draws)

theorem getElem?_set_of_some {α : Type} {xs : List α} {i : Nat} {x y : α} (h : xs[i]? = some x) :
    (xs.set i y)[i]? = some y :=
  List.getElem?_set_self (List.getElem?_eq_some_iff.mp h).1

theorem step_revises (cfg : Config) (rand : Nat → List UInt8) (sys : System) (e : Event) : Revises cfg rand sys e := by
  cases e with
  | wait d => exact .kept rfl (Nat.le_refl _)
  | connect r => exact .kept rfl (Nat.le_refl _)
  | go i =>
    cases hi : sys.conns[i]? with
    | none => exact .kept (by rw [(System.step_absent hi).1]) (by rw [(System.step_absent hi).1])
    | some c =>
      obtain ⟨srv, stage, hadv, hstep⟩ := System.step_go cfg rand hi
      rcases hadv.requests with ⟨hpending, hdraws⟩ | ⟨hroute, auto, valid, time, hstage, rfl, rfl⟩
      · exact .kept (by rw [hstep]; exact hpending) (by rw [hstep]; exact hdraws.ge)
      · rcases apiRequest_cases cfg rand sys.server c.request auto valid with ⟨hpending, hdraws, _⟩ |
          ⟨r, hid, hpending, hdraws, hnew⟩
        · exact .kept (by rw [hstep]; exact hpending) (by rw [hstep]; exact hdraws)
        · refine .brought i c auto valid time r _ rfl hi hroute hstage hid hnew ?_ ?_ ?_
          · rw [hstep]
            exact hpending
          · rw [hstep]
            exact getElem?_set_of_some hi
          · rw [hstep]
            exact hdraws
  | drop i =>
    cases hi : sys.conns[i]? with
    | none => exact .kept (by rw [(System.step_absent hi).2]) (by rw [(System.step_absent hi).2])
    | some c => exact .kept (by rw [System.step_drop hi]) (by rw [System.step_drop hi])
  | respond id accepted =>
    cases hok : respondToRequest rand sys.server id accepted with
    | error message => exact .kept (by simp only [System.step, hok]) (by simp only [System.step, hok, Nat.le_refl])
    | ok srv =>
      have hstep : sys.step cfg rand (.respond id accepted) = { sys with server := srv } := by
        simp only [System.step, hok]
      unfold respondToRequest at hok
      split at hok
      · rename_i r hr
        split at hok
        · rename_i hpending
          split at hok
          · rename_i haccepted
            cases hok
            exact .answered id accepted r _ rfl hr hpending (.inl ⟨rfl, haccepted⟩) (by rw [hstep])
              (by rw [hstep]; exact Nat.le_succ _)
          · cases hok
            exact .answered id accepted r _ rfl hr hpending (.inr rfl) (by rw [hstep]) (by rw [hstep])
        · cases hok
      · cases hok
  | setAutoAccept enabled => exact .kept rfl (Nat.le_refl _)
  | stop => exact .kept rfl (Nat.le_refl _)

theorem Revises.draws_le {sys : System} {e : Event} (h : Revises cfg rand sys e) :
    sys.server.draws ≤ (sys.step cfg rand e).server.draws := by
  cases h <;> omega

/-- A connection stays as it is, goes on, or starts or ends without an answer. -/
theorem step_conn {sys : System} {e : Event} {i : Nat} {c' : Conn} (h : (sys.step cfg rand e).conns[i]? = some c') :
    sys.conns[i]? = some c' ∨
      (∃ c, sys.conns[i]? = some c ∧ e = .go i ∧ c'.request = c.request ∧
        Advances cfg rand sys.server c.request c.stage (sys.step cfg rand e).server c'.stage) ∨
      c'.stage = .connected ∨ c'.stage = .ended .closed ∨ c'.stage = .ended .dropped := by
  cases e with
  | wait d => exact .inl h
  | connect r =>
    simp only [System.step] at h
    rcases Nat.lt_trichotomy i sys.conns.length with hlt | rfl | hgt
    · rw [List.getElem?_append_left hlt] at h
      exact .inl h
    · rw [List.getElem?_append_right (Nat.le_refl _), Nat.sub_self, List.getElem?_cons_zero, Option.some.injEq] at h
      subst h
      cases sys.server.cancelled
      · exact .inr (.inr (.inl rfl))
      · exact .inr (.inr (.inr (.inl rfl)))
    · rw [List.getElem?_eq_none (by simp only [List.length_append, List.length_singleton]; omega)] at h
      cases h
  | go j =>
    cases hj : sys.conns[j]? with
    | none =>
      rw [(System.step_absent hj).1] at h
      exact .inl h
    | some c =>
      obtain ⟨srv, stage, hadv, hstep⟩ := System.step_go cfg rand hj
      rw [hstep] at h ⊢
      by_cases hij : j = i
      · subst hij
        rw [getElem?_set_of_some hj, Option.some.injEq] at h
        subst h
        exact .inr (.inl ⟨c, hj, rfl, rfl, hadv⟩)
      · rw [List.getElem?_set_ne hij] at h
        exact .inl h
  | drop j =>
    cases hj : sys.conns[j]? with
    | none =>
      rw [(System.step_absent hj).2] at h
      exact .inl h
    | some c =>
      rw [System.step_drop hj] at h
      by_cases hij : j = i
      · subst hij
        rw [getElem?_set_of_some hj, Option.some.injEq] at h
        obtain ⟨r, stage⟩ := c
        subst h
        cases stage
        case checked => exact .inr (.inr (.inr (.inr rfl)))
        case streaming => exact .inr (.inr (.inr (.inr rfl)))
        all_goals exact .inl hj
      · rw [List.getElem?_set_ne hij] at h
        exact .inl h
  | respond id accepted =>
    simp only [System.step] at h
    split at h <;> exact .inl h
  | setAutoAccept enabled => exact .inl h
  | stop => exact .inl h

theorem Advances.ended {srv srv' : Server} {r : Request} {reply : Reply} {stage' : Stage}
    (h : Advances cfg rand srv r (.ended reply) srv' stage') : stage' = .ended reply := by
  cases h
  rfl

/-- An answer is final. -/
theorem step_ended {sys : System} {i : Nat} {c : Conn} {reply : Reply} (hi : sys.conns[i]? = some c)
    (hc : c.stage = .ended reply) (e : Event) : (sys.step cfg rand e).conns[i]? = some c := by
  obtain ⟨r, stage⟩ := c
  subst hc
  cases e with
  | wait d => exact hi
  | connect r' =>
    simp only [System.step]
    rw [List.getElem?_append_left (List.getElem?_eq_some_iff.mp hi).1]
    exact hi
  | go j =>
    cases hj : sys.conns[j]? with
    | none =>
      rw [(System.step_absent hj).1]
      exact hi
    | some c' =>
      obtain ⟨srv, stage, hadv, hstep⟩ := System.step_go cfg rand hj
      rw [hstep]
      by_cases hij : j = i
      · subst hij
        rw [hi, Option.some.injEq] at hj
        subst hj
        rw [hadv.ended]
        exact getElem?_set_of_some hi
      · rw [List.getElem?_set_ne hij]
        exact hi
  | drop j =>
    cases hj : sys.conns[j]? with
    | none =>
      rw [(System.step_absent hj).2]
      exact hi
    | some c' =>
      rw [System.step_drop hj]
      by_cases hij : j = i
      · subst hij
        rw [hi, Option.some.injEq] at hj
        subst hj
        exact getElem?_set_of_some hi
      · rw [List.getElem?_set_ne hij]
        exact hi
  | respond id accepted =>
    simp only [System.step]
    split <;> exact hi
  | setAutoAccept enabled => exact hi
  | stop => exact hi

/-! ## The invariant -/

/-- Every id was drawn. -/
def System.Drawn (rand : Nat → List UInt8) (sys : System) : Prop :=
  ∀ id r, sys.request? id = some r → ∃ k < sys.server.draws, id = generateToken rand k

theorem step_becomes {sys : System} {e : Event} (hdrawn : sys.Drawn rand)
    (hfresh : Fresh rand (sys.step cfg rand e).server.draws) {id : String} {r : PendingRequest}
    (hr : sys.request? id = some r) : ∃ r', (sys.step cfg rand e).request? id = some r' ∧ r.Becomes r' := by
  cases step_revises cfg rand sys e with
  | kept h hdraws => exact ⟨r, by rw [System.request?, h]; exact hr, .same⟩
  | brought i c auto valid time new reply he hi hroute hstage hid hnew h hreply hdraws =>
    refine ⟨r, ?_, .same⟩
    obtain ⟨k, hk, rfl⟩ := hdrawn id r hr
    have hne : generateToken rand k ≠ new.sessionId := by
      intro heq
      have := hfresh k (by omega) sys.server.draws hdraws (heq.trans hid)
      omega
    rw [System.request?, h, AList.lookup_insert_ne hne]
    exact hr
  | answered id' accepted old new he hold hpending hnew h hdraws =>
    by_cases hid : id = id'
    · subst hid
      rw [hr, Option.some.injEq] at hold
      subst hold
      refine ⟨new, by rw [System.request?, h, AList.lookup_insert], ?_⟩
      rcases hnew with ⟨rfl, _⟩ | rfl
      · exact .accepted _ hpending
      · exact .rejected hpending
    · exact ⟨r, by rw [System.request?, h, AList.lookup_insert_ne hid]; exact hr, .same⟩

theorem step_grants {sys : System} {e : Event} (hdrawn : sys.Drawn rand)
    (hfresh : Fresh rand (sys.step cfg rand e).server.draws) {id token : String} (h : sys.Grants id token) :
    (sys.step cfg rand e).Grants id token := by
  obtain ⟨r, hr, hstatus, htoken⟩ := h
  obtain ⟨r', hr', hbecomes⟩ := step_becomes hdrawn hfresh hr
  rw [hbecomes.settled (by simp [hstatus])] at hr'
  exact ⟨r, hr', hstatus, htoken⟩

theorem step_drawn {sys : System} {e : Event} (h : sys.Drawn rand) : (sys.step cfg rand e).Drawn rand := by
  intro id r hr
  cases step_revises cfg rand sys e with
  | kept hsame hdraws =>
    rw [System.request?, hsame] at hr
    obtain ⟨k, hk, hid⟩ := h id r hr
    exact ⟨k, by omega, hid⟩
  | brought i c auto valid time new reply he hi hroute hstage hid hnew hmap hreply hdraws =>
    by_cases heq : id = new.sessionId
    · exact ⟨sys.server.draws, hdraws, heq.trans hid⟩
    · rw [System.request?, hmap, AList.lookup_insert_ne heq] at hr
      obtain ⟨k, hk, hid⟩ := h id r hr
      exact ⟨k, by omega, hid⟩
  | answered id' accepted old new he hold hpending hnew hmap hdraws =>
    by_cases heq : id = id'
    · subst heq
      obtain ⟨k, hk, hid⟩ := h id old hold
      exact ⟨k, by omega, hid⟩
    · rw [System.request?, hmap, AList.lookup_insert_ne heq] at hr
      obtain ⟨k, hk, hid⟩ := h id r hr
      exact ⟨k, by omega, hid⟩

def TokenIff (sys : System) : Prop :=
  ∀ id r, sys.request? id = some r → (r.sessionToken.isSome ↔ r.status = .accepted)

theorem TokenIff.pending {sys : System} (h : TokenIff sys) {id : String} {r : PendingRequest}
    (hr : sys.request? id = some r) (hpending : r.status = .pending) : r.sessionToken = none := by
  cases htoken : r.sessionToken with
  | none => rfl
  | some token =>
    have := (h id r hr).mp (by rw [htoken]; rfl)
    rw [hpending] at this
    cases this

theorem step_tokenIff {sys : System} {e : Event} (h : TokenIff sys) : TokenIff (sys.step cfg rand e) := by
  intro id r hr
  cases step_revises cfg rand sys e with
  | kept hsame hdraws =>
    rw [System.request?, hsame] at hr
    exact h id r hr
  | brought i c auto valid time new reply he hi hroute hstage hid hnew hmap hreply hdraws =>
    by_cases heq : id = new.sessionId
    · subst heq
      rw [System.request?, hmap, AList.lookup_insert, Option.some.injEq] at hr
      subst hr
      rcases hnew with ⟨_, hstatus, token, htoken, _⟩ | ⟨hstatus, htoken, _⟩
      · simp [hstatus, htoken]
      · simp [hstatus, htoken]
    · rw [System.request?, hmap, AList.lookup_insert_ne heq] at hr
      exact h id r hr
  | answered id' accepted old new he hold hpending hnew hmap hdraws =>
    by_cases heq : id = id'
    · subst heq
      rw [System.request?, hmap, AList.lookup_insert, Option.some.injEq] at hr
      subst hr
      rcases hnew with ⟨rfl, _⟩ | rfl
      · simp
      · simp [h.pending hold hpending]
    · rw [System.request?, hmap, AList.lookup_insert_ne heq] at hr
      exact h id r hr

section

variable (cfg rand auto)

/-- What a connection knows, it knows by right. -/
def Honest (es : List Event) (i : Nat) (c : Conn) : Prop :=
  match c.stage with
  | .judged _ true _ => ∃ presented, Once (System.step cfg rand) (System.start auto) (Presents cfg i presented) es
  | .ended (.accepted id token) => c.request.route = .apiRequest ∧
      (∃ presented, Once (System.step cfg rand) (System.start auto) (Presents cfg i presented) es) ∧
      (reached cfg rand auto es).Grants id token
  | .ended (.status _ (some token)) =>
      ∀ session, c.request.route = .requestStatus session → (reached cfg rand auto es).Grants session token
  | .ended (.requests requests) => ∀ r ∈ requests, r.status = .pending ∧ r.sessionToken = none
  | _ => True

structure Kept (es : List Event) : Prop where
  drawn : (reached cfg rand auto es).Drawn rand
  tokenIff : TokenIff (reached cfg rand auto es)
  honest : ∀ i c, (reached cfg rand auto es).conns[i]? = some c → Honest cfg rand auto es i c
  issued : ∀ id token, (reached cfg rand auto es).Grants id token → Issued cfg rand auto es id token

end

theorem reached_snoc {es : List Event} {e : Event} :
    reached cfg rand auto (es ++ [e]) = (reached cfg rand auto es).step cfg rand e := after_snoc

theorem Honest.snoc {es : List Event} {i : Nat} {c : Conn} (h : Honest cfg rand auto es i c) {e : Event}
    (hgrants : ∀ id token, (reached cfg rand auto es).Grants id token → (reached cfg rand auto (es ++ [e])).Grants id token) :
    Honest cfg rand auto (es ++ [e]) i c := by
  unfold Honest at h ⊢
  split at h
  · obtain ⟨presented, h⟩ := h
    exact ⟨presented, h.snoc e⟩
  · obtain ⟨hroute, ⟨presented, h⟩, hg⟩ := h
    exact ⟨hroute, ⟨presented, h.snoc e⟩, hgrants _ _ hg⟩
  · intro session hroute
    exact hgrants _ _ (h session hroute)
  · exact h
  · trivial

/-- A poll reveals the token of an accepted request only. -/
theorem requestStatus_reveals {sys : System} {session token : String} {status : RequestStatus}
    (h : requestStatus sys.server session = .status status (some token)) : sys.Grants session token := by
  unfold requestStatus at h
  split at h
  · cases h
  · split at h
    · rename_i r hr
      simp only [Reply.status.injEq] at h
      obtain ⟨_, h⟩ := h
      split at h
      · rename_i haccepted
        exact ⟨r, hr, haccepted, h⟩
      · cases h
    · cases h

theorem getPendingRequests_bare {sys : System} (h : TokenIff sys) {r : PendingRequest}
    (hr : r ∈ sys.server.getPendingRequests) : r.status = .pending ∧ r.sessionToken = none := by
  simp only [Server.getPendingRequests, List.mem_filter, decide_eq_true_eq, mem_requestList] at hr
  obtain ⟨⟨id, hid⟩, hpending⟩ := hr
  exact ⟨hpending, h.pending hid hpending⟩

theorem requestStatus_cases (srv : Server) (session : String) :
    (∃ status token, requestStatus srv session = .status status token) ∨
      ∃ status message, requestStatus srv session = .error status message := by
  unfold requestStatus
  split
  · exact .inr ⟨_, _, rfl⟩
  · split
    · exact .inl ⟨_, _, rfl⟩
    · exact .inr ⟨_, _, rfl⟩

theorem mainPage_cases (cfg : Config) (srv : Server) (auto : Bool) (token : Option String) :
    mainPage cfg srv auto token = .waitingPage ∨ mainPage cfg srv auto token = .mainPage := by
  simp only [mainPage]
  generalize (_ && _ : Bool) = waits
  cases waits
  · exact .inr rfl
  · exact .inl rfl

/-- A connection that goes on stays honest. -/
theorem Kept.goes {es : List Event} (h : Kept cfg rand auto es) {i : Nat} {c c' : Conn}
    (hfresh : Fresh rand (reached cfg rand auto (es ++ [.go i])).server.draws)
    (hi : (reached cfg rand auto es).conns[i]? = some c) (hrequest : c'.request = c.request)
    (hadv : Advances cfg rand (reached cfg rand auto es).server c.request c.stage
      (reached cfg rand auto (es ++ [.go i])).server c'.stage) : Honest cfg rand auto (es ++ [.go i]) i c' := by
  have hgrants : ∀ id token, (reached cfg rand auto es).Grants id token →
      (reached cfg rand auto (es ++ [.go i])).Grants id token := by
    rw [reached_snoc] at hfresh ⊢
    exact fun _ _ => step_grants h.drawn hfresh
  have hc := h.honest i c hi
  obtain ⟨r, stage⟩ := c
  obtain ⟨r', stage'⟩ := c'
  simp only at hrequest
  subst hrequest
  simp only at hadv
  generalize hsrv : (reached cfg rand auto (es ++ [.go i])).server = srv' at hadv
  cases hadv with
  | polled auto' session hroute =>
    rcases requestStatus_cases (reached cfg rand auto es).server session with ⟨status, token, hreply⟩ | ⟨status, message, hreply⟩
    · rw [hreply]
      cases token with
      | none => trivial
      | some token =>
        intro session' hroute'
        have hsession : session' = session := by
          have := hroute'.symm.trans hroute
          simpa using this
        subst hsession
        exact hgrants _ _ (requestStatus_reveals hreply)
    · rw [hreply]
      trivial
  | shown auto' hroute =>
    rcases mainPage_cases cfg (reached cfg rand auto es).server auto' r'.credential with hreply | hreply <;>
      · rw [hreply]
        trivial
  | judged auto' hroute =>
    cases hvalid : checkCredential cfg (reached cfg rand auto es).server r'.credential with
    | false => trivial
    | true =>
      cases hcred : r'.credential with
      | none =>
        rw [hcred] at hvalid
        cases hvalid
      | some token =>
        rw [hcred] at hvalid
        exact ⟨token, Once.now ⟨rfl, _, auto', hi, rfl, hcred, hvalid⟩⟩
  | requested auto' valid time hroute =>
    rcases apiRequest_cases cfg rand (reached cfg rand auto es).server r' auto' valid with
      ⟨_, _, status, message, hreply⟩ | ⟨new, hid, hmap, hdraws, hnew⟩
    · rw [hreply]
      trivial
    · rcases hnew with ⟨rfl, hstatus, token, htoken, hreply⟩ | ⟨_, _, hreply⟩
      · rw [hreply]
        obtain ⟨presented, hpresented⟩ := hc
        refine ⟨hroute, ⟨presented, hpresented.snoc _⟩, new, ?_, hstatus, htoken⟩
        rw [System.request?, hsrv, hmap, AList.lookup_insert]
      · rw [hreply]
        trivial
  | listed auto' time hroute => exact fun r hr => getPendingRequests_bare h.tokenIff hr
  | letIn auto' time reply hroute hreply =>
    rcases hreply with rfl | rfl <;> trivial
  | downloading auto' time target hroute =>
    rcases download_cases cfg target with hd | ⟨status, message, hd⟩ <;>
      · rw [hd]
        trivial
  | stuck auto' valid time hroute => exact hc.snoc hgrants
  | stays reply => exact hc.snoc hgrants
  | blocked | admitted | read | unknown | failed | refused | streamed | counted | served => trivial

theorem Kept.honest_snoc {es : List Event} (h : Kept cfg rand auto es) {e : Event}
    (hfresh : Fresh rand (reached cfg rand auto (es ++ [e])).server.draws) {i : Nat} {c : Conn}
    (hi : (reached cfg rand auto (es ++ [e])).conns[i]? = some c) : Honest cfg rand auto (es ++ [e]) i c := by
  have hstep := hi
  rw [reached_snoc] at hstep
  rcases step_conn hstep with hsame | ⟨c₀, hi₀, rfl, hrequest, hadv⟩ | hquiet
  · refine (h.honest i c hsame).snoc ?_
    intro id token hg
    rw [reached_snoc] at hfresh ⊢
    exact step_grants h.drawn hfresh hg
  · refine h.goes hfresh hi₀ hrequest ?_
    rw [reached_snoc]
    exact hadv
  · obtain ⟨r, stage⟩ := c
    rcases hquiet with rfl | rfl | rfl <;> trivial

theorem Issued.snoc {es : List Event} {id token : String} (h : Issued cfg rand auto es id token) (e : Event) :
    Issued cfg rand auto (es ++ [e]) id token := by
  rcases h with ⟨i, c, presented, hi, hroute, hc, honce⟩ | honce
  · refine .inl ⟨i, c, presented, ?_, hroute, hc, honce.snoc e⟩
    rw [reached_snoc]
    exact step_ended hi hc e
  · exact .inr (honce.snoc e)

theorem Kept.issued_snoc {es : List Event} (h : Kept cfg rand auto es) {e : Event} {id token : String}
    (hg : (reached cfg rand auto (es ++ [e])).Grants id token) : Issued cfg rand auto (es ++ [e]) id token := by
  obtain ⟨r, hr, hstatus, htoken⟩ := hg
  rw [reached_snoc] at hr
  cases step_revises cfg rand (reached cfg rand auto es) e with
  | kept hsame hdraws =>
    rw [System.request?, hsame] at hr
    exact (h.issued id token ⟨r, hr, hstatus, htoken⟩).snoc e
  | brought i c auto' valid time new reply he hi hroute hstage hid hnew hmap hreply hdraws =>
    by_cases heq : id = new.sessionId
    · subst heq
      rw [System.request?, hmap, AList.lookup_insert, Option.some.injEq] at hr
      subst hr
      rcases hnew with ⟨rfl, _, token', htoken', rfl⟩ | ⟨hpending, _, _⟩
      · rw [htoken', Option.some.injEq] at htoken
        subst htoken
        have hc := h.honest i c hi
        simp only [Honest, hstage] at hc
        obtain ⟨presented, hpresented⟩ := hc
        refine .inl ⟨i, { c with stage := .ended (.accepted new.sessionId token') }, presented, ?_, ?_, rfl, hpresented.snoc e⟩
        · rw [reached_snoc]
          exact hreply
        · exact hroute
      · rw [hpending] at hstatus
        cases hstatus
    · rw [System.request?, hmap, AList.lookup_insert_ne heq] at hr
      exact (h.issued id token ⟨r, hr, hstatus, htoken⟩).snoc e
  | answered id' accepted old new he hold hpending hnew hmap hdraws =>
    by_cases heq : id = id'
    · subst heq
      rw [System.request?, hmap, AList.lookup_insert, Option.some.injEq] at hr
      subst hr
      rcases hnew with ⟨rfl, rfl⟩ | rfl
      · exact .inr (Once.now ⟨he, old, hold, hpending⟩)
      · cases hstatus
    · rw [System.request?, hmap, AList.lookup_insert_ne heq] at hr
      exact (h.issued id token ⟨r, hr, hstatus, htoken⟩).snoc e

theorem reached_draws_le {es : List Event} {e : Event} :
    (reached cfg rand auto es).server.draws ≤ (reached cfg rand auto (es ++ [e])).server.draws := by
  rw [reached_snoc]
  exact (step_revises cfg rand _ e).draws_le

theorem kept_run (es : List Event) (hfresh : Fresh rand (reached cfg rand auto es).server.draws) :
    Kept cfg rand auto es := by
  induction es using List.reverseRecOn with
  | nil =>
    refine ⟨?_, ?_, ?_, ?_⟩
    · intro id r hr
      cases hr
    · intro id r hr
      cases hr
    · intro i c hi
      cases hi
    · intro id token hg
      obtain ⟨r, hr, _⟩ := hg
      cases hr
  | append_singleton es e ih =>
    have h := ih (hfresh.mono reached_draws_le)
    refine ⟨?_, ?_, fun i c => h.honest_snoc hfresh, fun id token => h.issued_snoc⟩
    · rw [reached_snoc]
      exact step_drawn h.drawn
    · rw [reached_snoc]
      exact step_tokenIff h.tokenIff

theorem settled_run (before later : List Event)
    (hfresh : Fresh rand (reached cfg rand auto (before ++ later)).server.draws) {id : String} {r : PendingRequest}
    (hr : (reached cfg rand auto before).request? id = some r) :
    ∃ r', (reached cfg rand auto (before ++ later)).request? id = some r' ∧ r.Becomes r' := by
  induction later using List.reverseRecOn with
  | nil => exact ⟨r, by rw [List.append_nil]; exact hr, .same⟩
  | append_singleton later e ih =>
    rw [← List.append_assoc] at hfresh ⊢
    have hfresh' := hfresh.mono reached_draws_le
    obtain ⟨r', hr', hbecomes⟩ := ih hfresh'
    have hdrawn := (kept_run _ hfresh').drawn
    rw [reached_snoc] at hfresh ⊢
    obtain ⟨r'', hr'', hbecomes'⟩ := step_becomes hdrawn hfresh hr'
    exact ⟨r'', hr'', hbecomes.trans hbecomes'⟩

/-- **The approval gate.** In every run, of any number of connections and calls
of the host in any order, the tokens drawn being distinct: a request leaves its
pending state at most once, and has a token exactly when it is accepted; a poll
or an answer reveals none but the token of an accepted request; the valid
credentials are the master token, the PIN, and the tokens of accepted requests;
and each of these was issued to a caller who had presented a valid credential
or by the host. -/
theorem gate_kept (cfg : Config) (rand : Nat → List UInt8) (auto : Bool) (es : List Event)
    (hfresh : Fresh rand (reached cfg rand auto es).server.draws) : Gated cfg rand auto es := by
  have h := kept_run es hfresh
  have hmem : ∀ c ∈ (reached cfg rand auto es).conns, ∃ i, Honest cfg rand auto es i c := by
    intro c hc
    obtain ⟨i, hi⟩ := List.mem_iff_getElem?.mp hc
    exact ⟨i, h.honest i c hi⟩
  refine ⟨?_, h.tokenIff, ?_, ?_, ?_, fun token => isValidToken_iff, h.issued⟩
  · intro before later hes id r hr
    subst hes
    exact settled_run before later hfresh hr
  · intro c hc session status token hroute hstage
    obtain ⟨i, hi⟩ := hmem c hc
    simp only [Honest, hstage] at hi
    exact hi session hroute
  · intro c hc id token hstage
    obtain ⟨i, hi⟩ := hmem c hc
    simp only [Honest, hstage] at hi
    exact hi.2.2
  · intro c hc requests hstage
    obtain ⟨i, hi⟩ := hmem c hc
    simp only [Honest, hstage] at hi
    exact hi

def openServer : Config := ⟨"8f4c", none, some [⟨0, 5⟩], none⟩

def numbered (n : Nat) : List UInt8 := List.replicate 15 0 ++ [UInt8.ofNat n]

def ask (route : Route) (credential : Option String) : Request := ⟨.v4 0xC0A80107, "curl", 0, route, credential⟩

/-- Two callers wait; the host accepts one and rejects the other; the first
polls, and its token gets it a second one. -/
def approvalRun : List Event :=
  [.connect (ask .apiRequest none), .go 0, .go 0, .go 0, .go 0, .connect (ask .apiRequest none), .go 1, .go 1, .go 1, .go 1,
    .respond (generateToken numbered 0) true, .respond (generateToken numbered 1) false,
    .respond (generateToken numbered 1) true, .connect (ask (.requestStatus (generateToken numbered 0)) none), .go 2, .go 2,
    .go 2, .connect (ask .apiRequest (some (generateToken numbered 2))), .go 3, .go 3, .go 3, .go 3]

theorem gate_kept_approval :
    (reached openServer numbered false approvalRun).conns.map (·.stage) =
        [.ended (.pending (generateToken numbered 0)), .ended (.pending (generateToken numbered 1)),
          .ended (.status .accepted (some (generateToken numbered 2))),
          .ended (.accepted (generateToken numbered 3) (generateToken numbered 4))] ∧
      Gated openServer numbered false approvalRun :=
  ⟨by decide +kernel, gate_kept openServer numbered false approvalRun (by unfold Fresh; decide +kernel)⟩

end Nxfr.Web.Share

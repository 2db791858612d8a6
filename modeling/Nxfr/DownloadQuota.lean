/-
The download quota: a server that was started for `n` downloads shuts down
when the `n`th has been counted.

The cancel token is looked at when a connection starts, and a download is
counted when it has been streamed. In between nothing stops it, so the quota is
kept by those runs in which the downloads under way, with those that are done,
leave room for one that starts while others are under way. One that starts
alone is the code's own business: the counter has to have room for it.
-/
import Nxfr.WebServerFacts

namespace Nxfr.Web.Share

open History

def Request.isDownload (r : Request) : Bool := match r.route with
  | .dl _ => true
  | _ => false

/-- A download that has not ended, from the look at the cancel token on. -/
def Conn.inFlight (c : Conn) : Bool := match c.stage with
  | .ended _ => false
  | _ => c.request.isDownload

def Conn.finished (c : Conn) : Bool := match c.stage with
  | .ended .served => true
  | _ => false

/-- A download whose whole response has been streamed. -/
def Conn.served (c : Conn) : Bool := match c.stage with
  | .streamed | .counted _ | .ended .served => true
  | _ => false

def Conn.isCounted (c : Conn) : Bool := match c.stage with
  | .counted _ => true
  | _ => false

def System.inFlight (sys : System) : Nat := sys.conns.countP Conn.inFlight

def System.finished (sys : System) : Nat := sys.conns.countP Conn.finished

def System.served (sys : System) : Nat := sys.conns.countP Conn.served

/-- A download that connects while others are under way finds room for itself,
for them and for those that are done. -/
def System.leavesRoom (n : Nat) (sys : System) : Event → Bool
  | .connect r => sys.server.cancelled || !r.isDownload || sys.inFlight == 0 || decide (sys.finished + sys.inFlight < n)
  | .wait _ | .go _ | .drop _ | .respond _ _ | .setAutoAccept _ | .stop => true

/-- No more than `n` downloads are served, and once `n` are done every further
connection is closed. -/
structure QuotaKept (cfg : Config) (rand : Nat → List UInt8) (n : Nat) (sys : System) : Prop where
  served_le : sys.served ≤ n
  refuses : n ≤ sys.finished → ∀ r, (sys.step cfg rand (.connect r)).conns = sys.conns ++ [⟨r, .ended .closed⟩]

variable {cfg : Config} {rand : Nat → List UInt8}

/-! ## Counting connections -/

theorem countP_set_eq {α : Type} (p : α → Bool) {xs : List α} {i : Nat} {x : α} (h : xs[i]? = some x) :
    ∃ rest, xs.countP p = (p x).toNat + rest ∧ ∀ y, (xs.set i y).countP p = (p y).toNat + rest := by
  obtain ⟨hi, rfl⟩ := List.getElem?_eq_some_iff.mp h
  have hset : ∀ y, (xs.set i y).countP p = (p y).toNat + (xs.countP p - (p xs[i]).toNat) := by
    intro y
    rw [List.countP_set hi]
    cases p y <;> cases p xs[i] <;> simp <;> omega
  refine ⟨_, ?_, hset⟩
  have := hset xs[i]
  rwa [List.set_getElem_self] at this

theorem countP_le_add {α : Type} {p q r : α → Bool} (xs : List α)
    (h : ∀ x ∈ xs, p x = true → q x = true ∨ r x = true) : xs.countP p ≤ xs.countP q + xs.countP r := by
  induction xs with
  | nil => simp
  | cons x xs ih =>
    have ih := ih fun y hy => h y (List.mem_cons_of_mem x hy)
    have hx := h x List.mem_cons_self
    simp only [List.countP_cons]
    cases hp : p x <;> cases hq : q x <;> cases hr : r x <;> simp_all <;> omega

theorem mem_set_of_ne {α : Type} {xs : List α} {i : Nat} {x y z : α} (hi : xs[i]? = some x) (hz : z ∈ xs) (hne : z ≠ x) :
    z ∈ xs.set i y := by
  obtain ⟨j, hj⟩ := List.mem_iff_getElem?.mp hz
  refine List.mem_iff_getElem?.mpr ⟨j, ?_⟩
  have hij : i ≠ j := by
    intro he
    subst he
    rw [hi] at hj
    exact hne (Option.some.inj hj).symm
  rw [List.getElem?_set_ne hij]
  exact hj

/-! ## The invariant -/

/-- Only a download streams, and is counted. -/
def Conn.Streams (c : Conn) : Prop :=
  c.served = true ∨ c.stage = .streaming → c.finished = true ∨ c.request.isDownload = true

/-- Those that are done or under way have room; the counter has counted those
that are done and those at the quota check; and when the quota is reached the
server is cancelled, or the one who will cancel it is at its check. -/
structure Metered (n : Nat) (sys : System) : Prop where
  streams : ∀ c ∈ sys.conns, c.Streams
  room : sys.finished + sys.inFlight ≤ n
  count : sys.server.downloadCount = sys.finished + sys.conns.countP Conn.isCounted
  bounded : ∀ c ∈ sys.conns, ∀ k, c.stage = .counted k → k ≤ sys.server.downloadCount
  closing : n ≤ sys.server.downloadCount →
    sys.server.cancelled = true ∨ ∃ c ∈ sys.conns, ∃ k, c.stage = .counted k ∧ n ≤ k

theorem Conn.Streams.counted {c : Conn} (h : c.Streams) (hc : c.isCounted = true) : c.inFlight = true := by
  obtain ⟨r, stage⟩ := c
  cases stage <;> simp_all [Conn.Streams, Conn.isCounted, Conn.inFlight, Conn.served, Conn.finished]

theorem Conn.Streams.served {c : Conn} (h : c.Streams) (hc : c.served = true) :
    c.finished = true ∨ c.inFlight = true := by
  rcases h (.inl hc) with hf | hd
  · exact .inl hf
  · obtain ⟨r, stage⟩ := c
    cases stage <;> simp_all [Conn.inFlight, Conn.served, Conn.finished]
    rename_i reply
    cases reply <;> simp_all

theorem Metered.served_le {n : Nat} {sys : System} (h : Metered n sys) : sys.served ≤ n := by
  have := countP_le_add sys.conns fun c hc => (h.streams c hc).served
  have := h.room
  simp only [System.served, System.finished, System.inFlight] at *
  omega

theorem Metered.downloadCount_le {n : Nat} {sys : System} (h : Metered n sys) : sys.server.downloadCount ≤ n := by
  have := List.countP_mono_left fun c hc => (h.streams c hc).counted
  have := h.room
  have := h.count
  simp only [System.finished, System.inFlight] at *
  omega

/-- With none under way the counter has reached the quota only if the server
is cancelled. -/
theorem Metered.cancelled {n : Nat} {sys : System} (h : Metered n sys) (hnone : sys.inFlight = 0)
    (hfull : n ≤ sys.finished) : sys.server.cancelled = true := by
  have hcount := h.count
  rcases h.closing (by omega) with hc | ⟨c, hc, k, hk, _⟩
  · exact hc
  · have hfly := (h.streams c hc).counted (by simp [Conn.isCounted, hk])
    have := List.countP_eq_zero.mp hnone c hc
    exact absurd hfly this

/-! ## One step -/

/-- A step of a connection that the meter does not see. -/
structure Passes (c c' : Conn) : Prop where
  counted : c.isCounted = false
  counted' : c'.isCounted = false
  finished : c'.finished = c.finished
  inFlight : c'.inFlight = true → c.inFlight = true
  streams : c.Streams → c'.Streams

theorem Metered.pass {n : Nat} {sys : System} (h : Metered n sys) {i : Nat} {c c' : Conn} (hi : sys.conns[i]? = some c)
    (hpass : Passes c c') {srv : Server} (hcount : srv.downloadCount = sys.server.downloadCount)
    (hcancel : srv.cancelled = sys.server.cancelled) : Metered n ⟨srv, sys.conns.set i c'⟩ := by
  have hmem : c ∈ sys.conns := List.mem_of_getElem? hi
  obtain ⟨f, hf, hf'⟩ := countP_set_eq Conn.finished hi
  obtain ⟨g, hg, hg'⟩ := countP_set_eq Conn.inFlight hi
  obtain ⟨d, hd, hd'⟩ := countP_set_eq Conn.isCounted hi
  have hfly : c'.inFlight.toNat ≤ c.inFlight.toNat := by
    have := hpass.inFlight
    cases hc' : c'.inFlight <;> simp_all
  have hroom := h.room
  have hcnt := h.count
  refine ⟨?_, ?_, ?_, ?_, ?_⟩
  · intro x hx
    rcases List.mem_or_eq_of_mem_set hx with hx | rfl
    · exact h.streams x hx
    · exact hpass.streams (h.streams c hmem)
  · simp only [System.finished, System.inFlight, hf, hf', hg, hg', hpass.finished] at hroom ⊢
    omega
  · simp only [System.finished, hf, hf', hd, hd', hpass.finished, hpass.counted, hpass.counted', hcount] at hcnt ⊢
    exact hcnt
  · intro x hx k hk
    rcases List.mem_or_eq_of_mem_set hx with hx | rfl
    · exact hcount ▸ h.bounded x hx k hk
    · have := hpass.counted'
      simp [Conn.isCounted, hk] at this
  · intro hn
    rcases h.closing (hcount ▸ hn) with hc | ⟨x, hx, k, hk, hnk⟩
    · exact .inl (hcancel ▸ hc)
    · refine .inr ⟨x, mem_set_of_ne hi hx ?_, k, hk, hnk⟩
      intro he
      subst he
      have := hpass.counted
      simp [Conn.isCounted, hk] at this

theorem Metered.joined {n : Nat} {sys : System} (h : Metered n sys) {c : Conn} (hcounted : c.isCounted = false)
    (hfinished : c.finished = false) (hstreams : c.Streams) (hroom : sys.finished + sys.inFlight + c.inFlight.toNat ≤ n) :
    Metered n { sys with conns := sys.conns ++ [c] } := by
  have hf : System.finished { sys with conns := sys.conns ++ [c] } = sys.finished := by
    simp [System.finished, List.countP_append, hfinished]
  have hg : System.inFlight { sys with conns := sys.conns ++ [c] } = sys.inFlight + c.inFlight.toNat := by
    cases hc : c.inFlight <;> simp [System.inFlight, List.countP_append, hc]
  refine ⟨?_, by omega, ?_, ?_, ?_⟩
  · intro x hx
    rcases List.mem_append.mp hx with hx | hx
    · exact h.streams x hx
    · rw [List.mem_singleton] at hx
      exact hx ▸ hstreams
  · rw [hf, List.countP_append, List.countP_singleton, hcounted]
    exact h.count
  · intro x hx k hk
    rcases List.mem_append.mp hx with hx | hx
    · exact h.bounded x hx k hk
    · rw [List.mem_singleton] at hx
      subst hx
      simp [Conn.isCounted, hk] at hcounted
  · intro hn
    rcases h.closing hn with hc | ⟨x, hx, k, hk, hnk⟩
    · exact .inl hc
    · exact .inr ⟨x, List.mem_append_left _ hx, k, hk, hnk⟩

/-- A stream that is done is counted. -/
theorem Metered.fetchAdd {n : Nat} {sys : System} (h : Metered n sys) (hn : n < 2 ^ 32) {i : Nat} {r : Request}
    (hi : sys.conns[i]? = some ⟨r, .streamed⟩) {count : Nat} (hcount : count = (sys.server.downloadCount + 1) % 2 ^ 64) :
    Metered n ⟨{ sys.server with downloadCount := count }, sys.conns.set i ⟨r, .counted count⟩⟩ := by
  let c : Conn := ⟨r, .counted count⟩
  let srv : Server := { sys.server with downloadCount := count }
  have hmem := List.mem_of_getElem? hi
  obtain ⟨f, hf, hf'⟩ := countP_set_eq Conn.finished hi
  obtain ⟨g, hg, hg'⟩ := countP_set_eq Conn.inFlight hi
  obtain ⟨d, hd, hd'⟩ := countP_set_eq Conn.isCounted hi
  have hf : sys.finished = 0 + f := hf
  have hf' : System.finished ⟨srv, sys.conns.set i c⟩ = 0 + f := hf' c
  have hg : sys.inFlight = r.isDownload.toNat + g := hg
  have hg' : System.inFlight ⟨srv, sys.conns.set i c⟩ = r.isDownload.toNat + g := hg' c
  have hd : sys.conns.countP Conn.isCounted = 0 + d := hd
  have hd' : (sys.conns.set i c).countP Conn.isCounted = 1 + d := hd' c
  have hle := h.downloadCount_le
  have hcount : count = sys.server.downloadCount + 1 := by omega
  have hdl : r.isDownload = true := by simpa [Conn.Streams, Conn.served, Conn.finished] using h.streams _ hmem
  have hroom := h.room
  have hcnt := h.count
  refine ⟨?_, ?_, ?_, ?_, ?_⟩
  · intro x hx
    rcases List.mem_or_eq_of_mem_set hx with hx | rfl
    · exact h.streams x hx
    · exact fun _ => .inr hdl
  · show System.finished ⟨srv, sys.conns.set i c⟩ + System.inFlight ⟨srv, sys.conns.set i c⟩ ≤ n
    omega
  · show count = System.finished ⟨srv, sys.conns.set i c⟩ + (sys.conns.set i c).countP Conn.isCounted
    omega
  · intro x hx k hk
    rcases List.mem_or_eq_of_mem_set hx with hx | rfl
    · have := h.bounded x hx k hk
      simp only
      omega
    · simp only [Stage.counted.injEq] at hk
      simp only
      omega
  · intro hfull
    exact .inr ⟨c, List.mem_set (List.getElem?_eq_some_iff.mp hi).1 c, count, rfl, hfull⟩

/-- A download that has been counted checks the quota. -/
theorem Metered.quota {n : UInt32} (hmax : cfg.maxDownloads = some n) {sys : System} (h : Metered n.toNat sys) {i : Nat}
    {r : Request} {k : Nat} (hi : sys.conns[i]? = some ⟨r, .counted k⟩) :
    Metered n.toNat ⟨quotaCheck cfg sys.server k, sys.conns.set i ⟨r, .ended .served⟩⟩ := by
  let c : Conn := ⟨r, .ended .served⟩
  let srv := quotaCheck cfg sys.server k
  have hmem := List.mem_of_getElem? hi
  obtain ⟨f, hf, hf'⟩ := countP_set_eq Conn.finished hi
  obtain ⟨g, hg, hg'⟩ := countP_set_eq Conn.inFlight hi
  obtain ⟨d, hd, hd'⟩ := countP_set_eq Conn.isCounted hi
  have hdl : r.isDownload = true := by simpa [Conn.Streams, Conn.served, Conn.finished] using h.streams _ hmem
  have hf : sys.finished = 0 + f := hf
  have hf' : System.finished ⟨srv, sys.conns.set i c⟩ = 1 + f := hf' c
  have hg : sys.inFlight = r.isDownload.toNat + g := hg
  have hg' : System.inFlight ⟨srv, sys.conns.set i c⟩ = 0 + g := hg' c
  have hd : sys.conns.countP Conn.isCounted = 1 + d := hd
  have hd' : (sys.conns.set i c).countP Conn.isCounted = 0 + d := hd' c
  rw [hdl, Bool.toNat_true] at hg
  have hle := h.downloadCount_le
  have hn := n.toNat_lt
  have hk := h.bounded _ hmem k rfl
  have hroom := h.room
  have hcnt := h.count
  have hsame : srv.downloadCount = sys.server.downloadCount := (quotaCheck_keeps cfg sys.server k).2.2.2.2
  refine ⟨?_, ?_, ?_, ?_, ?_⟩
  · intro x hx
    rcases List.mem_or_eq_of_mem_set hx with hx | rfl
    · exact h.streams x hx
    · exact fun _ => .inl rfl
  · show System.finished ⟨srv, sys.conns.set i c⟩ + System.inFlight ⟨srv, sys.conns.set i c⟩ ≤ n.toNat
    omega
  · show srv.downloadCount = System.finished ⟨srv, sys.conns.set i c⟩ + (sys.conns.set i c).countP Conn.isCounted
    omega
  · intro x hx j hj
    rcases List.mem_or_eq_of_mem_set hx with hx | rfl
    · exact hsame ▸ h.bounded x hx j hj
    · cases hj
  · intro hfull
    by_cases hlast : n.toNat ≤ k
    · left
      have hmod : k % 2 ^ 32 = k := Nat.mod_eq_of_lt (by omega)
      simp only [quotaCheck, hmax, hmod, ge_iff_le, if_pos hlast]
    · have hfull : n.toNat ≤ sys.server.downloadCount := hsame ▸ hfull
      rcases h.closing hfull with hc | ⟨x, hx, j, hj, hnj⟩
      · left
        simp only [quotaCheck, hmax]
        split <;> first | rfl | exact hc
      · refine .inr ⟨x, mem_set_of_ne hi hx ?_, j, hj, hnj⟩
        intro he
        subst he
        cases hj
        exact hlast hnj

theorem requestStatus_not_served (srv : Server) (session : String) : requestStatus srv session ≠ .served := by
  unfold requestStatus
  split
  · simp
  · split <;> simp

theorem mainPage_not_served (srv : Server) (auto : Bool) (token : Option String) : mainPage cfg srv auto token ≠ .served := by
  simp only [mainPage]
  generalize (_ && _ : Bool) = waits
  cases waits <;> simp

theorem apiRequest_not_served (srv : Server) (r : Request) (auto valid : Bool) :
    (apiRequest cfg rand srv r auto valid).2 ≠ .served := by
  unfold apiRequest
  dsimp only
  split
  · simp
  · split <;> simp

/-- A connection that ends otherwise than served. -/
theorem Passes.ended {r : Request} {stage : Stage} {reply : Reply} (hcounted : Conn.isCounted ⟨r, stage⟩ = false)
    (hfinished : Conn.finished ⟨r, stage⟩ = false) (hreply : reply ≠ .served) : Passes ⟨r, stage⟩ ⟨r, .ended reply⟩ := by
  have hf : Conn.finished ⟨r, .ended reply⟩ = false := by
    cases reply <;> first | rfl | exact absurd rfl hreply
  have hs : Conn.served ⟨r, .ended reply⟩ = false := by
    cases reply <;> first | rfl | exact absurd rfl hreply
  refine ⟨hcounted, rfl, by rw [hf, hfinished], by simp [Conn.inFlight], ?_⟩
  intro _ h
  simp [hs] at h

/-- A connection goes on: the meter does not see it, or it counts, or it
checks the quota. -/
theorem Advances.metered {n : UInt32} (hmax : cfg.maxDownloads = some n) {sys : System} (h : Metered n.toNat sys)
    {i : Nat} {r : Request} {stage stage' : Stage} {srv : Server} (hi : sys.conns[i]? = some ⟨r, stage⟩)
    (hadv : Advances cfg rand sys.server r stage srv stage') : Metered n.toNat ⟨srv, sys.conns.set i ⟨r, stage'⟩⟩ := by
  cases hadv with
  | blocked message hcheck => exact h.pass hi (.ended rfl rfl (by simp)) rfl rfl
  | admitted entry hcheck =>
    refine h.pass hi ?_ rfl rfl
    exact ⟨rfl, rfl, rfl, fun h => h, by simp [Conn.Streams, Conn.served]⟩
  | read =>
    refine h.pass hi ?_ rfl rfl
    exact ⟨rfl, rfl, rfl, fun h => h, by simp [Conn.Streams, Conn.served]⟩
  | polled auto session hroute => exact h.pass hi (.ended rfl rfl (requestStatus_not_served _ _)) rfl rfl
  | shown auto hroute => exact h.pass hi (.ended rfl rfl (mainPage_not_served _ _ _)) rfl rfl
  | unknown auto hroute => exact h.pass hi (.ended rfl rfl (by simp)) rfl rfl
  | judged auto hroute =>
    refine h.pass hi ?_ rfl rfl
    exact ⟨rfl, rfl, rfl, fun h => h, by simp [Conn.Streams, Conn.served]⟩
  | requested auto valid time hroute =>
    obtain ⟨_, _, hcancel, hcount⟩ := apiRequest_keeps cfg rand sys.server r auto valid
    exact h.pass hi (.ended rfl rfl (apiRequest_not_served _ _ _ _)) hcount hcancel
  | listed auto time hroute => exact h.pass hi (.ended rfl rfl (by simp)) rfl rfl
  | letIn auto time reply hroute hreply =>
    refine h.pass hi (.ended rfl rfl ?_) rfl rfl
    rcases hreply with rfl | rfl <;> simp
  | failed auto time message hroute => exact h.pass hi (.ended rfl rfl (by simp)) rfl rfl
  | refused auto time message hroute => exact h.pass hi (.ended rfl rfl (by simp)) rfl rfl
  | downloading auto time target hroute =>
    rcases download_cases cfg target with hd | ⟨status, message, hd⟩
    · rw [hd]
      refine h.pass hi ?_ rfl rfl
      exact ⟨rfl, rfl, rfl, fun h => h, fun _ _ => .inr (by simp [Request.isDownload, hroute])⟩
    · rw [hd]
      exact h.pass hi (.ended rfl rfl (by simp)) rfl rfl
  | stuck auto valid time hroute => exact h.pass hi ⟨rfl, rfl, rfl, id, id⟩ rfl rfl
  | streamed =>
    refine h.pass hi ?_ rfl rfl
    exact ⟨rfl, rfl, rfl, fun h => h, fun hs _ => hs (.inr rfl)⟩
  | counted count hcount => exact h.fetchAdd n.toNat_lt hi hcount
  | served count => exact h.quota hmax hi
  | stays reply => exact h.pass hi ⟨rfl, rfl, rfl, id, id⟩ rfl rfl

/-- A connection starts; one that is let in as a download finds room. -/
theorem Metered.connect {n : Nat} {sys : System} (h : Metered n sys) {r : Request}
    (hroom : sys.leavesRoom n (.connect r) = true) : Metered n (sys.step cfg rand (.connect r)) := by
  simp only [System.step]
  cases hcancel : sys.server.cancelled with
  | true => exact h.joined rfl rfl (by simp [Conn.Streams, Conn.served]) (by simpa [Conn.inFlight] using h.room)
  | false =>
    refine h.joined rfl rfl (by simp [Conn.Streams, Conn.served]) ?_
    cases hdl : r.isDownload with
    | false => simpa [Conn.inFlight, hdl] using h.room
    | true =>
      simp only [System.leavesRoom, hcancel, hdl, Bool.not_true, Bool.false_or, Bool.or_eq_true, beq_iff_eq,
        decide_eq_true_eq] at hroom
      simp only [Conn.inFlight, hdl, Bool.toNat_true, Bool.false_eq_true, if_false]
      rcases hroom with hnone | hlt
      · -- alone: the code itself has not let the count reach the quota
        have hlt : ¬ n ≤ sys.finished := by
          intro hfull
          have := h.cancelled hnone hfull
          rw [hcancel] at this
          cases this
        omega
      · omega

theorem Metered.step {n : UInt32} (hmax : cfg.maxDownloads = some n) {sys : System} (h : Metered n.toNat sys) {e : Event}
    (hroom : sys.leavesRoom n.toNat e = true) : Metered n.toNat (sys.step cfg rand e) := by
  cases e with
  | wait d => exact ⟨h.streams, h.room, h.count, h.bounded, h.closing⟩
  | connect r => exact h.connect hroom
  | go i =>
    cases hi : sys.conns[i]? with
    | none =>
      rw [(System.step_absent hi).1]
      exact h
    | some c =>
      obtain ⟨srv, stage, hadv, hstep⟩ := System.step_go cfg rand hi
      rw [hstep]
      exact Advances.metered hmax h hi hadv
  | drop i =>
    cases hi : sys.conns[i]? with
    | none =>
      rw [(System.step_absent hi).2]
      exact h
    | some c =>
      rw [System.step_drop hi]
      obtain ⟨r, stage⟩ := c
      by_cases hdrop : stage = .checked ∨ stage = .streaming
      · rcases hdrop with rfl | rfl <;> exact h.pass hi (.ended rfl rfl (by simp)) rfl rfl
      · have hsame : dropped stage = stage := by
          cases stage <;> first | rfl | simp at hdrop
        have hset : sys.conns.set i ⟨r, stage⟩ = sys.conns := by
          obtain ⟨hlt, hget⟩ := List.getElem?_eq_some_iff.mp hi
          rw [← hget, List.set_getElem_self]
        simp only [hsame, hset]
        exact h
  | respond sessionId accepted =>
    simp only [System.step]
    split
    · rename_i srv hok
      obtain ⟨_, _, hcancel, hcount⟩ := respondToRequest_keeps hok
      exact ⟨h.streams, h.room, hcount ▸ h.count, hcount ▸ h.bounded, by simpa only [hcount, hcancel] using h.closing⟩
    · exact h
  | setAutoAccept enabled => exact ⟨h.streams, h.room, h.count, h.bounded, h.closing⟩
  | stop => exact ⟨h.streams, h.room, h.count, h.bounded, fun _ => .inl rfl⟩

theorem metered_start (auto : Bool) (n : Nat) (hpos : 0 < n) : Metered n (System.start auto) := by
  refine ⟨by simp [System.start], by simp [System.start, System.finished, System.inFlight],
    by simp [System.start, System.finished], by simp [System.start], ?_⟩
  intro h
  simp only [System.start] at h
  omega

/-- **The download quota.** With a quota of at least one, in every run in which
a download that connects while others are under way finds room for itself, for
them and for those that are done, at most `n` downloads are served, and when
`n` are done every further connection is closed. -/
theorem quota_kept {n : UInt32} (hmax : cfg.maxDownloads = some n) (hpos : 0 < n.toNat) (auto : Bool) {es : List Event}
    (h : Always (System.step cfg rand) (System.start auto) (fun sys e => sys.leavesRoom n.toNat e = true) es) :
    QuotaKept cfg rand n.toNat (after (System.step cfg rand) (System.start auto) es) := by
  have hmetered : Metered n.toNat (after (System.step cfg rand) (System.start auto) es) :=
    h.keeps (metered_start auto n.toNat hpos) fun sys e hroom hsys => hsys.step hmax hroom
  refine ⟨hmetered.served_le, ?_⟩
  intro hfull r
  have hnone : (after (System.step cfg rand) (System.start auto) es).inFlight = 0 := by
    have := hmetered.room
    omega
  simp only [System.step, hmetered.cancelled hnone hfull, if_true]

/-- A server that shares one file, once. -/
def oneDownload : Config := ⟨"8f4c", none, some [⟨0, 5⟩], some 1⟩

def fetch (target : Target) : Request := ⟨.v4 0xC0A80107, "curl", 0, .dl target, some "8f4c"⟩

/-- A wrong range, then the archive, then one more. -/
def downloadRun : List Event :=
  [.connect (fetch (.file (some 0) .readable (some fun _ => none))), .go 0, .go 0, .go 0, .go 0,
    .connect (fetch .allZip), .go 1, .go 1, .go 1, .go 1, .go 1, .go 1, .go 1, .connect (fetch .allZip), .go 2]

theorem quota_kept_once :
    (after (System.step oneDownload fun _ => []) (System.start false) downloadRun).served = 1 ∧
      QuotaKept oneDownload (fun _ => []) 1 (after (System.step oneDownload fun _ => []) (System.start false) downloadRun) :=
  ⟨by decide +kernel, quota_kept (n := 1) rfl (by decide) false (Always.of_holds (fun _ _ h => h) (by decide +kernel))⟩

/-- Two downloads, each past the look at the cancel token before the other is counted. -/
def downloadsTogether : List Event :=
  [.connect (fetch .allZip), .connect (fetch (.file (some 0) .readable none))] ++
    (List.replicate 7 [Event.go 0, Event.go 1]).flatten

/-- Two downloads at once are both served where one was to be; and with a quota
of none one is served. -/
theorem quota_exceeded :
    ¬ QuotaKept oneDownload (fun _ => []) 1
        (after (System.step oneDownload fun _ => []) (System.start false) downloadsTogether) ∧
      ¬ QuotaKept { oneDownload with maxDownloads := some 0 } (fun _ => []) 0
        (after (System.step { oneDownload with maxDownloads := some 0 } fun _ => []) (System.start false) downloadRun) := by
  refine ⟨fun h => absurd h.served_le (by decide +kernel), fun h => absurd h.served_le (by decide +kernel)⟩

end Nxfr.Web.Share

/-
Two deterministic parties joined by a lossless FIFO connection.

A party says what it does next (`Act`): an internal step, one send, a wait
for the next message, or nothing more. Two of them and the messages between
them are a `Net`; a run is a list of the sides that move. The parties are
deterministic and the queues are FIFO, so moves of the two sides commute
(`diamond`), and one run that stops tells about all of them: every other run
is no longer, and goes on to the same end (`Settles.ends_iff`). A proof may
therefore pick the schedule that is easiest to follow.
-/

namespace Network

/-- What a party in some state does next. A wait carries the state to go to
when the other end has closed and nothing is left to read; a party that is
done says whether it closes its end of the connection. -/
inductive Act (M σ : Type) where
  | tau (k : σ)
  | send (m : M) (k : σ)
  | recv (k : M → σ) (lost : σ)
  | halt (closes : Bool)

def Act.closed {M σ : Type} : Act M σ → Bool
  | .halt closes => closes
  | _ => false

/-- It moves no more of its own accord. -/
def Act.resting {M σ : Type} : Act M σ → Bool
  | .recv _ _ => true
  | .halt _ => true
  | _ => false

/-- The two parties, the messages under way, and those each has read. -/
structure Net (M σ τ : Type) where
  left : σ
  right : τ
  toRight : List M := []
  toLeft : List M := []
  gotRight : List M := []
  gotLeft : List M := []

inductive Side where
  | left
  | right

variable {M σ τ : Type} (p : σ → Act M σ) (q : τ → Act M τ)

/-- The move of one side, when it has one. -/
def step : Side → Net M σ τ → Option (Net M σ τ)
  | .left, n => match p n.left with
    | .tau k => some { n with left := k }
    | .send m k => some { n with left := k, toRight := n.toRight ++ [m] }
    | .recv k lost => match n.toLeft with
      | m :: ms => some { n with left := k m, toLeft := ms, gotLeft := n.gotLeft ++ [m] }
      | [] => if (q n.right).closed then some { n with left := lost } else none
    | .halt _ => none
  | .right, n => match q n.right with
    | .tau k => some { n with right := k }
    | .send m k => some { n with right := k, toLeft := n.toLeft ++ [m] }
    | .recv k lost => match n.toRight with
      | m :: ms => some { n with right := k m, toRight := ms, gotRight := n.gotRight ++ [m] }
      | [] => if (p n.left).closed then some { n with right := lost } else none
    | .halt _ => none

/-- A run: the sides that move, in order. -/
def run : List Side → Net M σ τ → Option (Net M σ τ)
  | [], n => some n
  | s :: ss, n => (step p q s n).bind (run ss)

def Reaches (n n' : Net M σ τ) : Prop := ∃ ss, run p q ss n = some n'

/-- Neither side can move. -/
def Stuck (n : Net M σ τ) : Prop := ∀ s, step p q s n = none

/-- Some run from `n` stops at `t`. -/
def Settles (n t : Net M σ τ) : Prop := Reaches p q n t ∧ Stuck p q t

/-- Every run from `n` is finite, and wherever one stops `P` holds. -/
def Ends (P : Net M σ τ → Prop) (n : Net M σ τ) : Prop :=
  (∃ bound, ∀ ss n', run p q ss n = some n' → ss.length ≤ bound) ∧
    ∀ n', Reaches p q n n' → Stuck p q n' → P n'

variable {p q}

/-! ## Building runs -/

theorem run_append {ss₁ ss₂ : List Side} {n : Net M σ τ} :
    run p q (ss₁ ++ ss₂) n = (run p q ss₁ n).bind (run p q ss₂) := by
  induction ss₁ generalizing n with
  | nil => rfl
  | cons s ss₁ ih =>
    simp only [List.cons_append, run]
    cases step p q s n with
    | none => rfl
    | some n' => exact ih

theorem Reaches.refl {n : Net M σ τ} : Reaches p q n n := ⟨[], rfl⟩

theorem Reaches.trans {n₁ n₂ n₃ : Net M σ τ} (h₁ : Reaches p q n₁ n₂) (h₂ : Reaches p q n₂ n₃) :
    Reaches p q n₁ n₃ := by
  obtain ⟨ss₁, h₁⟩ := h₁
  obtain ⟨ss₂, h₂⟩ := h₂
  exact ⟨ss₁ ++ ss₂, by simp [run_append, h₁, h₂]⟩

theorem Reaches.one {n n' : Net M σ τ} (s : Side) (h : step p q s n = some n') : Reaches p q n n' :=
  ⟨[s], by simp [run, h]⟩

theorem Reaches.left_tau {n : Net M σ τ} {k : σ} (h : p n.left = .tau k) :
    Reaches p q n { n with left := k } :=
  .one .left (by simp [step, h])

theorem Reaches.left_send {n : Net M σ τ} {m : M} {k : σ} (h : p n.left = .send m k) :
    Reaches p q n { n with left := k, toRight := n.toRight ++ [m] } :=
  .one .left (by simp [step, h])

theorem Reaches.left_recv {n : Net M σ τ} {k : M → σ} {lost : σ} {m : M} {ms : List M}
    (h : p n.left = .recv k lost) (hm : n.toLeft = m :: ms) :
    Reaches p q n { n with left := k m, toLeft := ms, gotLeft := n.gotLeft ++ [m] } :=
  .one .left (by simp [step, h, hm])

theorem Reaches.left_lost {n : Net M σ τ} {k : M → σ} {lost : σ} (h : p n.left = .recv k lost)
    (hm : n.toLeft = []) (hc : (q n.right).closed = true) : Reaches p q n { n with left := lost } :=
  .one .left (by simp [step, h, hm, hc])

theorem Reaches.right_send {n : Net M σ τ} {m : M} {k : τ} (h : q n.right = .send m k) :
    Reaches p q n { n with right := k, toLeft := n.toLeft ++ [m] } :=
  .one .right (by simp [step, h])

theorem Reaches.right_recv {n : Net M σ τ} {k : M → τ} {lost : τ} {m : M} {ms : List M}
    (h : q n.right = .recv k lost) (hm : n.toRight = m :: ms) :
    Reaches p q n { n with right := k m, toRight := ms, gotRight := n.gotRight ++ [m] } :=
  .one .right (by simp [step, h, hm])

/-- The right side reads the one message under way. -/
theorem Reaches.right_only {n : Net M σ τ} {k : M → τ} {lost : τ} (m : M) (h : q n.right = .recv k lost)
    (hm : n.toRight = [m]) : Reaches p q n { n with right := k m, toRight := [], gotRight := n.gotRight ++ [m] } :=
  .right_recv h hm

theorem Reaches.left_only {n : Net M σ τ} {k : M → σ} {lost : σ} (m : M) (h : p n.left = .recv k lost)
    (hm : n.toLeft = [m]) : Reaches p q n { n with left := k m, toLeft := [], gotLeft := n.gotLeft ++ [m] } :=
  .left_recv h hm

/-- The left side asks and the right side answers, nothing else being under
way. -/
theorem Reaches.call {n : Net M σ τ} {m m' : M} {l : σ} {r : τ} {k : M → τ} {k' : M → σ} {lost : τ} {lost' : σ}
    (hsend : p n.left = .send m l) (hrecv : q n.right = .recv k lost) (hreply : q (k m) = .send m' r)
    (hwait : p l = .recv k' lost') (hR : n.toRight = []) (hL : n.toLeft = []) :
    Reaches p q n { left := k' m', right := r, gotRight := n.gotRight ++ [m], gotLeft := n.gotLeft ++ [m'] } := by
  have h₁ : Reaches p q n _ := .left_send hsend
  have h₂ := h₁.trans (.right_only m hrecv (by simp [hR]))
  have h₃ := h₂.trans (.right_send hreply)
  exact h₃.trans (.left_only m' hwait (by simp [hL]))

/-! ## Moves of the two sides commute -/

/-- Each side can still make its move after the other has, and the order
does not matter: a send only adds behind what is waiting, and a side that
reads the end of the stream reads it from a side that no longer moves. -/
theorem diamond {n a b : Net M σ τ} (ha : step p q .left n = some a) (hb : step p q .right n = some b) :
    ∃ d, step p q .right a = some d ∧ step p q .left b = some d := by
  obtain ⟨l, r, toR, toL, gotR, gotL⟩ := n
  simp only [step] at ha hb
  cases hp : p l with
  | halt c => simp [hp] at ha
  | tau k =>
    cases hq : q r with
    | halt c => simp [hq] at hb
    | tau k' => simp_all [step]; subst ha hb; simp [hp, hq]
    | send m' k' => simp_all [step]; subst ha hb; simp [hp, hq]
    | recv k' lost' => cases toR <;> simp_all [step, Act.closed] <;> subst ha hb <;> simp [hp, hq]
  | send m k =>
    cases hq : q r with
    | halt c => simp [hq] at hb
    | tau k' => simp_all [step]; subst ha hb; simp [hp, hq]
    | send m' k' => simp_all [step]; subst ha hb; simp [hp, hq]
    | recv k' lost' => cases toR <;> simp_all [step, Act.closed] <;> subst ha hb <;> simp [hp, hq]
  | recv k lost =>
    cases hq : q r with
    | halt c => simp [hq] at hb
    | tau k' => cases toL <;> simp_all [step, Act.closed] <;> subst ha hb <;> simp [hp, hq]
    | send m' k' => cases toL <;> simp_all [step, Act.closed] <;> subst ha hb <;> simp [hp, hq]
    | recv k' lost' =>
      cases toL <;> cases toR <;> simp_all [step, Act.closed] <;> subst ha hb <;> simp [hp, hq]

/-- A run that stops can start with any possible move. -/
theorem run_move {ss : List Side} {n n' t : Net M σ τ} {s : Side} (h : run p q ss n = some t)
    (ht : Stuck p q t) (hs : step p q s n = some n') :
    ∃ ss', run p q ss' n' = some t ∧ ss'.length + 1 = ss.length := by
  induction ss generalizing n n' with
  | nil =>
    simp only [run, Option.some.injEq] at h
    rw [h, ht s] at hs
    cases hs
  | cons s₀ ss ih =>
    simp only [run, Option.bind_eq_some_iff] at h
    obtain ⟨n₀, h₀, h⟩ := h
    -- The same side moves first, or the two moves are swapped.
    have swapped : ∀ {d}, step p q s n₀ = some d → step p q s₀ n' = some d →
        ∃ ss', run p q ss' n' = some t ∧ ss'.length + 1 = (s₀ :: ss).length := by
      intro d hd hd'
      obtain ⟨ss', hr, hl⟩ := ih h hd
      exact ⟨s₀ :: ss', by simp [run, hd', hr], by simp [hl]⟩
    have same : n₀ = n' → ∃ ss', run p q ss' n' = some t ∧ ss'.length + 1 = (s₀ :: ss).length := by
      intro he
      exact ⟨ss, he ▸ h, by simp⟩
    cases s₀ <;> cases s
    · exact same (Option.some.inj (h₀.symm.trans hs))
    · obtain ⟨d, hd, hd'⟩ := diamond h₀ hs
      exact swapped hd hd'
    · obtain ⟨d, hd, hd'⟩ := diamond hs h₀
      exact swapped hd' hd
    · exact same (Option.some.inj (h₀.symm.trans hs))

/-- A run that stops is what any other run from there goes on to be. -/
theorem run_extends {ss ss₁ : List Side} {n n' t : Net M σ τ} (h : run p q ss n = some t)
    (ht : Stuck p q t) (h₁ : run p q ss₁ n = some n') :
    ∃ ss₂, run p q ss₂ n' = some t ∧ ss₁.length + ss₂.length = ss.length := by
  induction ss₁ generalizing n ss with
  | nil =>
    simp only [run, Option.some.injEq] at h₁
    exact ⟨ss, h₁ ▸ h, by simp⟩
  | cons s ss₁ ih =>
    simp only [run, Option.bind_eq_some_iff] at h₁
    obtain ⟨n₁, hs, h₁⟩ := h₁
    obtain ⟨ss', hr, hl⟩ := run_move h ht hs
    obtain ⟨ss₂, hr₂, hl₂⟩ := ih hr h₁
    exact ⟨ss₂, hr₂, by simp only [List.length_cons]; omega⟩

/-- Both sides wait and nothing is under way. -/
theorem Stuck.of_recv {n : Net M σ τ} {k : M → σ} {lost : σ} {k' : M → τ} {lost' : τ} (hl : p n.left = .recv k lost)
    (hr : q n.right = .recv k' lost') (hR : n.toRight = []) (hL : n.toLeft = []) : Stuck p q n := by
  rintro (_ | _)
  · simp [step, hl, hL, hr, Act.closed]
  · simp [step, hr, hR, hl, Act.closed]

theorem Stuck.run_eq {ss : List Side} {n n' : Net M σ τ} (hn : Stuck p q n) (h : run p q ss n = some n') :
    n' = n := by
  cases ss with
  | nil => exact (Option.some.inj h).symm
  | cons s ss => simp [run, hn s] at h

theorem Settles.of_reaches {n n' t : Net M σ τ} (h : Settles p q n t) (hr : Reaches p q n n') :
    Settles p q n' t := by
  obtain ⟨⟨ss, hs⟩, ht⟩ := h
  obtain ⟨ss₁, h₁⟩ := hr
  obtain ⟨ss₂, h₂, _⟩ := run_extends hs ht h₁
  exact ⟨⟨ss₂, h₂⟩, ht⟩

/-- **One run decides.** When some run from `n` stops at `t`, every run from
`n` is finite and ends at `t`, so all of them end well exactly when `t` is
a good end. -/
theorem Settles.ends_iff {n t : Net M σ τ} (h : Settles p q n t) {P : Net M σ τ → Prop} :
    Ends p q P n ↔ P t := by
  constructor
  · intro he
    exact he.2 t h.1 h.2
  · intro hP
    obtain ⟨⟨ss, hs⟩, ht⟩ := h
    refine ⟨⟨ss.length, fun ss₁ n' h₁ => ?_⟩, fun n' hr hn' => ?_⟩
    · obtain ⟨ss₂, _, hl⟩ := run_extends hs ht h₁
      omega
    · obtain ⟨⟨ss₂, h₂⟩, _⟩ := Settles.of_reaches ⟨⟨ss, hs⟩, ht⟩ hr
      exact hn'.run_eq h₂ ▸ hP

/-- A run that all runs end after goes on to an end. -/
theorem Ends.stuck {P : Net M σ τ → Prop} {n n' : Net M σ τ} (h : Ends p q P n) (hr : Reaches p q n n') :
    ∃ t, Reaches p q n' t ∧ Stuck p q t ∧ P t := by
  obtain ⟨⟨bound, hb⟩, hP⟩ := h
  obtain ⟨ss, hs⟩ := hr
  -- On the moves the bound leaves.
  induction hleft : bound - ss.length using Nat.strongRecOn generalizing ss n' with
  | ind left ih =>
    by_cases hst : Stuck p q n'
    · exact ⟨n', .refl, hst, hP n' ⟨ss, hs⟩ hst⟩
    · simp only [Stuck, Classical.not_forall] at hst
      obtain ⟨s, hstep⟩ := hst
      obtain ⟨n₁, h₁⟩ := Option.ne_none_iff_exists'.mp hstep
      have hrun : run p q (ss ++ [s]) n = some n₁ := by simp [run_append, hs, run, h₁]
      have hlen := hb _ _ hrun
      simp only [List.length_append, List.length_singleton] at hlen
      obtain ⟨t, ht, hst⟩ := ih (bound - (ss ++ [s]).length) (by simp; omega) _ hrun rfl
      exact ⟨t, (Reaches.one s h₁).trans ht, hst⟩

/-- What every move keeps, a run keeps. -/
theorem Reaches.keeps {I : Net M σ τ → Prop} (hI : ∀ {s n n'}, step p q s n = some n' → I n → I n')
    {n n' : Net M σ τ} (hr : Reaches p q n n') (h : I n) : I n' := by
  obtain ⟨ss, hs⟩ := hr
  induction ss generalizing n with
  | nil => exact Option.some.inj hs ▸ h
  | cons s ss ih =>
    simp only [run, Option.bind_eq_some_iff] at hs
    obtain ⟨n₁, h₁, hs⟩ := hs
    exact ih (hI h₁ h) hs

/-- Where a run can go on, it ends well from there exactly when it does from
the start. -/
theorem Reaches.ends_iff {P : Net M σ τ → Prop} {n n' : Net M σ τ} (hr : Reaches p q n n') :
    Ends p q P n ↔ Ends p q P n' := by
  constructor
  · intro h
    obtain ⟨t, ht, hst, hP⟩ := h.stuck hr
    exact (Settles.ends_iff ⟨ht, hst⟩).mpr hP
  · intro h
    obtain ⟨t, ht, hst, hP⟩ := h.stuck .refl
    exact (Settles.ends_iff ⟨hr.trans ht, hst⟩).mpr hP

/-- What no move of the right side breaks. -/
def Act.Keeps (I : τ → Prop) : Act M τ → Prop
  | .tau k => I k
  | .send _ k => I k
  | .recv k lost => (∀ m, I (k m)) ∧ I lost
  | .halt _ => True

/-- What every move of the right side keeps, a run keeps. -/
theorem Reaches.right_keeps {I : τ → Prop} (hI : ∀ {s}, I s → (q s).Keeps I) {n n' : Net M σ τ}
    (hr : Reaches p q n n') (h : I n.right) : I n'.right := by
  refine hr.keeps (I := fun n => I n.right) ?_ h
  intro s n₁ n₂ hs h₁
  cases s with
  | left =>
    simp only [step] at hs
    split at hs
    · cases hs; exact h₁
    · cases hs; exact h₁
    · split at hs
      · cases hs; exact h₁
      · split at hs
        · cases hs; exact h₁
        · cases hs
    · cases hs
  | right =>
    have hkeep := hI h₁
    simp only [step] at hs
    split at hs
    · rename_i hq
      rw [hq] at hkeep
      cases hs
      exact hkeep
    · rename_i hq
      rw [hq] at hkeep
      cases hs
      exact hkeep
    · rename_i hq
      rw [hq] at hkeep
      split at hs
      · cases hs
        exact hkeep.1 _
      · split at hs
        · cases hs
          exact hkeep.2
        · cases hs
    · cases hs

/-- A side that is done sends nothing more. -/
theorem Reaches.right_silent {c : Bool} {n n' : Net M σ τ} (hr : Reaches p q n n') (hh : q n.right = .halt c) :
    n'.gotLeft ++ n'.toLeft = n.gotLeft ++ n.toLeft := by
  have hkeep : n'.right = n.right ∧ n'.gotLeft ++ n'.toLeft = n.gotLeft ++ n.toLeft := by
    refine hr.keeps (I := fun n' => n'.right = n.right ∧ n'.gotLeft ++ n'.toLeft = n.gotLeft ++ n.toLeft) ?_
      ⟨rfl, rfl⟩
    rintro (_ | _) n₁ n₂ hs ⟨h₁, h₂⟩
    · simp only [step] at hs
      split at hs
      · cases hs; exact ⟨h₁, h₂⟩
      · cases hs; exact ⟨h₁, h₂⟩
      · split at hs
        · rename_i hl
          cases hs
          exact ⟨h₁, by simpa [hl] using h₂⟩
        · split at hs
          · cases hs; exact ⟨h₁, h₂⟩
          · cases hs
      · cases hs
    · simp [step, h₁, hh] at hs
  exact hkeep.2

/-! ## A party and what it reads -/

/-- `s'` is where `q` gets from `s` on the messages `ms`, with no end of the
stream on the way. -/
inductive Fed (q : τ → Act M τ) : τ → List M → τ → Prop
  | done {s : τ} : Fed q s [] s
  | tau {s k s' : τ} {ms : List M} : q s = .tau k → Fed q k ms s' → Fed q s ms s'
  | send {s k s' : τ} {m : M} {ms : List M} : q s = .send m k → Fed q k ms s' → Fed q s ms s'
  | recv {s s' lost : τ} {k : M → τ} {m : M} {ms : List M} :
      q s = .recv k lost → Fed q (k m) ms s' → Fed q s (m :: ms) s'

theorem Fed.trans {s₁ s₂ s₃ : τ} {ms₁ ms₂ : List M} (h₁ : Fed q s₁ ms₁ s₂) (h₂ : Fed q s₂ ms₂ s₃) :
    Fed q s₁ (ms₁ ++ ms₂) s₃ := by
  induction h₁ with
  | done => exact h₂
  | tau hq _ ih => exact .tau hq (ih h₂)
  | send hq _ ih => exact .send hq (ih h₂)
  | recv hq _ ih => exact .recv hq (ih h₂)

/-- The messages read decide where a party comes to rest. -/
theorem Fed.unique {s s₁ s₂ : τ} {ms : List M} (h₁ : Fed q s ms s₁) (h₂ : Fed q s ms s₂)
    (hw₁ : (q s₁).resting = true) (hw₂ : (q s₂).resting = true) : s₁ = s₂ := by
  induction h₁ with
  | done =>
    cases h₂ with
    | done => rfl
    | tau hq _ => rw [hq] at hw₁; cases hw₁
    | send hq _ => rw [hq] at hw₁; cases hw₁
  | tau hq _ ih =>
    cases h₂ with
    | done => rw [hq] at hw₂; cases hw₂
    | tau hq' h => rw [hq] at hq'; cases hq'; exact ih h hw₁
    | send hq' _ => rw [hq] at hq'; cases hq'
    | recv hq' _ => rw [hq] at hq'; cases hq'
  | send hq _ ih =>
    cases h₂ with
    | done => rw [hq] at hw₂; cases hw₂
    | tau hq' _ => rw [hq] at hq'; cases hq'
    | send hq' h => rw [hq] at hq'; cases hq'; exact ih h hw₁
    | recv hq' _ => rw [hq] at hq'; cases hq'
  | recv hq _ ih =>
    cases h₂ with
    | tau hq' _ => rw [hq] at hq'; cases hq'
    | send hq' _ => rw [hq] at hq'; cases hq'
    | recv hq' h => rw [hq] at hq'; cases hq'; exact ih h hw₁

theorem step_gotRight {s : Side} {n n' : Net M σ τ} (h : step p q s n = some n') : n.gotRight <+: n'.gotRight := by
  cases s with
  | left =>
    simp only [step] at h
    split at h
    · cases h; exact List.prefix_rfl
    · cases h; exact List.prefix_rfl
    · split at h
      · cases h; exact List.prefix_rfl
      · split at h
        · cases h; exact List.prefix_rfl
        · cases h
    · cases h
  | right =>
    simp only [step] at h
    split at h
    · cases h; exact List.prefix_rfl
    · cases h; exact List.prefix_rfl
    · split at h
      · cases h; exact List.prefix_append _ _
      · split at h
        · cases h; exact List.prefix_rfl
        · cases h
    · cases h

theorem Reaches.gotRight_grows {n n' : Net M σ τ} (hr : Reaches p q n n') : n.gotRight <+: n'.gotRight :=
  hr.keeps (I := fun n' => n.gotRight <+: n'.gotRight) (fun hs h => h.trans (step_gotRight hs)) List.prefix_rfl

/-- The right side has been fed what it read, or the left side has closed
and the right side has seen it and stopped. -/
theorem Reaches.fed (hlost : ∀ {s k lost}, q s = .recv k lost → ∃ c, q lost = .halt c) {n n' : Net M σ τ}
    (hr : Reaches p q n n') (hn : n.gotRight = []) :
    Fed q n.right n'.gotRight n'.right ∨ ((p n'.left).closed = true ∧ ∃ c, q n'.right = .halt c) := by
  refine hr.keeps (I := fun n' => Fed q n.right n'.gotRight n'.right ∨
    ((p n'.left).closed = true ∧ ∃ c, q n'.right = .halt c)) ?_ (.inl (hn ▸ .done))
  rintro (_ | _) n₁ n₂ hs h
  · rcases h with h | ⟨hc, _⟩
    · refine .inl ?_
      simp only [step] at hs
      split at hs
      · cases hs; exact h
      · cases hs; exact h
      · split at hs
        · cases hs; exact h
        · split at hs
          · cases hs; exact h
          · cases hs
      · cases hs
    · -- A side that has closed does not move.
      cases hp : p n₁.left <;> simp [hp, Act.closed] at hc
      simp [step, hp] at hs
  · rcases h with h | ⟨_, c, h⟩
    · simp only [step] at hs
      split at hs
      · rename_i hq
        cases hs
        exact .inl (by simpa using h.trans (.tau hq .done))
      · rename_i hq
        cases hs
        exact .inl (by simpa using h.trans (.send hq .done))
      · rename_i hq
        split at hs
        · cases hs
          exact .inl (h.trans (.recv hq .done))
        · split at hs
          · rename_i hc
            cases hs
            exact .inr ⟨hc, hlost hq⟩
          · cases hs
      · cases hs
    · simp [step, h] at hs

theorem Settles.gotRight_unique {n t n₁ n₂ : Net M σ τ} (h : Settles p q n t) (h₁ : Reaches p q n n₁)
    (h₂ : Reaches p q n n₂) (hlen : n₁.gotRight.length ≤ n₂.gotRight.length) : n₁.gotRight <+: n₂.gotRight :=
  List.prefix_of_prefix_length_le (h.of_reaches h₁).1.gotRight_grows (h.of_reaches h₂).1.gotRight_grows hlen

/-- **Where a party rests depends on how much it has read.** Two runs of
which some run is the end, with as many messages read by the right side,
leave it in the same state, where it waits in the one and the left side has
not closed in the other. -/
theorem Settles.right_unique (hlost : ∀ {s k lost}, q s = .recv k lost → ∃ c, q lost = .halt c)
    {n t n₁ n₂ : Net M σ τ} (h : Settles p q n t) (hn : n.gotRight = []) (h₁ : Reaches p q n n₁)
    (h₂ : Reaches p q n n₂) {k : M → τ} {lost : τ} (hw : q n₁.right = .recv k lost)
    (hopen : (p n₂.left).closed = false) (hrest : (q n₂.right).resting = true)
    (hlen : n₁.gotRight.length = n₂.gotRight.length) : n₁.right = n₂.right := by
  have hgot : n₁.gotRight = n₂.gotRight :=
    (h.gotRight_unique h₁ h₂ (Nat.le_of_eq hlen)).eq_of_length hlen
  rcases h₁.fed hlost hn with hf₁ | ⟨_, c, hc⟩
  · rcases h₂.fed hlost hn with hf₂ | ⟨hc, _⟩
    · exact hf₁.unique (hgot ▸ hf₂) (by rw [hw]; rfl) hrest
    · rw [hopen] at hc; cases hc
  · rw [hw] at hc; cases hc

end Network

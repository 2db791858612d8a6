/-
How the web server ends (`nxfr-web/src/lib.rs`): the loop of
`start_with_expiry` and `start_share_with_expiry`, which accepts connections
until nothing has happened for `expiry_duration` or the token is cancelled, and
then waits for the transfers in flight.

The handlers run beside the loop. They note activity and hold an
`ActiveTransferGuard` for each transfer, and the loop reads the two one after
the other, so that a handler may come between. Times are in milliseconds, and
any time may pass between two events.
-/
import Nxfr.History

namespace Nxfr.WebExpiry

open History

/-! ## The loop -/

/-- Why the loop was left. -/
inductive Closing where
  | expired | cancelled
  deriving DecidableEq

/-- Where the task of the server is: about to look, having read the last
activity, in `select!`, draining (since when, and asleep until when), or at its
end, with transfers in flight or without. -/
inductive Phase where
  | checking
  | sawLast (elapsed : Nat)
  | waiting (wakeAt : Nat)
  | draining (why : Closing) (drainStart wakeAt : Nat)
  | stopped (why : Closing) (forced : Bool)
  deriving DecidableEq

/-- The clock, what the handlers share with the loop, the guards that are alive,
and the loop. -/
structure Server where
  now : Nat
  lastActivity : Nat
  guards : List Nat
  activeTransfers : Nat
  cancel : Bool
  phase : Phase
  deriving DecidableEq

/-- A server that is started. -/
def start (now : Nat) : Server :=
  { now, lastActivity := now, guards := [], activeTransfers := 0, cancel := false, phase := .checking }

inductive Event where
  /-- Time passes. -/
  | pass (ms : Nat)
  /-- `bump_activity`. -/
  | bumpActivity
  /-- `ActiveTransferGuard::new` and its `drop`. -/
  | newGuard (id : Nat)
  | dropGuard (id : Nat)
  /-- The token is cancelled, by a user or for the quota. -/
  | cancelToken
  /-- The loop reads `last_activity`, and then `active_transfers`. -/
  | readLast
  | readActive
  /-- The branches of `select!`. -/
  | wake
  | accept
  | seeCancel
  /-- The loop that drains looks at `active_transfers`. -/
  | drainCheck
  deriving DecidableEq

/-- `(time_to_wait, active_count)`. -/
def timeToWait (expiryDuration elapsed active : Nat) : Nat × Nat :=
  if active > 0 then (250, active)
  else if elapsed ≥ expiryDuration then (0, 0)
  else (expiryDuration - elapsed, 0)

/-- The loop acts. -/
def turn (expiryDuration : Nat) (s : Server) (e : Event) : Server := match s.phase, e with
  | .checking, .readLast => { s with phase := .sawLast (s.now - s.lastActivity) }
  | .sawLast elapsed, .readActive =>
    let wait := timeToWait expiryDuration elapsed s.activeTransfers
    if wait.1 = 0 ∧ wait.2 = 0 then { s with phase := .draining .expired s.now s.now }
    else { s with phase := .waiting (s.now + wait.1) }
  | .waiting wakeAt, .wake => if wakeAt ≤ s.now then { s with phase := .checking } else s
  | .waiting _, .accept => { s with phase := .checking }
  | .waiting _, .seeCancel => if s.cancel then { s with phase := .draining .cancelled s.now s.now } else s
  | .draining why drainStart wakeAt, .drainCheck =>
    if s.now < wakeAt then s
    else if s.activeTransfers = 0 then { s with phase := .stopped why false, cancel := true }
    else if s.now - drainStart > 300000 then { s with phase := .stopped why true, cancel := true }
    else { s with phase := .draining why drainStart (s.now + 50) }
  | _, _ => s

/-- One event. A guard is dropped once. -/
def step (expiryDuration : Nat) (s : Server) : Event → Server
  | .pass ms => { s with now := s.now + ms }
  | .bumpActivity => { s with lastActivity := s.now }
  | .newGuard id => { s with guards := id :: s.guards, activeTransfers := s.activeTransfers + 1 }
  | .dropGuard id =>
    if id ∈ s.guards then { s with guards := s.guards.erase id, activeTransfers := s.activeTransfers - 1 } else s
  | .cancelToken => { s with cancel := true }
  | e => turn expiryDuration s e

/-! ## What a turn does -/

variable {expiryDuration : Nat}

/-- The loop leaves the clock and the transfers alone. -/
theorem turn_shared (expiryDuration : Nat) (s : Server) (e : Event) :
    (turn expiryDuration s e).now = s.now ∧ (turn expiryDuration s e).lastActivity = s.lastActivity ∧
      (turn expiryDuration s e).guards = s.guards ∧
      (turn expiryDuration s e).activeTransfers = s.activeTransfers := by
  unfold turn
  dsimp only
  repeat' split
  all_goals exact ⟨rfl, rfl, rfl, rfl⟩

/-- There is nothing to wait for when the time is over and no transfer is in
flight. -/
theorem timeToWait_zero {elapsed active : Nat} :
    (timeToWait expiryDuration elapsed active).1 = 0 ∧ (timeToWait expiryDuration elapsed active).2 = 0 ↔
      active = 0 ∧ expiryDuration ≤ elapsed := by
  unfold timeToWait
  split
  · simp only
    omega
  · rename_i hidle
    split
    · rename_i hover
      exact ⟨fun _ => ⟨by omega, hover⟩, fun _ => ⟨rfl, rfl⟩⟩
    · simp only
      omega

/-- The moves of the loop, and what each saw. -/
inductive Moves (expiryDuration : Nat) (s : Server) : Event → Phase → Prop where
  | stays {e} : (∀ elapsed, s.phase = .sawLast elapsed → e ≠ .readActive) → Moves expiryDuration s e s.phase
  | look : s.phase = .checking → Moves expiryDuration s .readLast (.sawLast (s.now - s.lastActivity))
  | expires {elapsed} : s.phase = .sawLast elapsed → s.activeTransfers = 0 → expiryDuration ≤ elapsed →
      Moves expiryDuration s .readActive (.draining .expired s.now s.now)
  | waits {e wakeAt} : Moves expiryDuration s e (.waiting wakeAt)
  | returns {e} : Moves expiryDuration s e .checking
  | cancels {wakeAt} : s.phase = .waiting wakeAt → s.cancel = true →
      Moves expiryDuration s .seeCancel (.draining .cancelled s.now s.now)
  | sleeps {e why drainStart wakeAt wakeAt'} : s.phase = .draining why drainStart wakeAt →
      Moves expiryDuration s e (.draining why drainStart wakeAt')
  | drained {why drainStart wakeAt} : s.phase = .draining why drainStart wakeAt → s.activeTransfers = 0 →
      Moves expiryDuration s .drainCheck (.stopped why false)
  | forced {why drainStart wakeAt} : s.phase = .draining why drainStart wakeAt → drainStart + 300000 < s.now →
      Moves expiryDuration s .drainCheck (.stopped why true)

theorem turn_moves (s : Server) (e : Event) : Moves expiryDuration s e (turn expiryDuration s e).phase := by
  unfold turn
  split
  · rename_i hphase
    exact .look hphase
  · rename_i elapsed hphase
    dsimp only
    split
    · rename_i hzero
      obtain ⟨hactive, helapsed⟩ := timeToWait_zero.mp hzero
      exact .expires hphase hactive helapsed
    · exact .waits
  · split
    · exact .returns
    · exact .stays fun _ _ => by simp
  · exact .returns
  · rename_i hphase
    split
    · rename_i hcancel
      exact .cancels hphase hcancel
    · exact .stays fun _ _ => by simp
  · rename_i why drainStart wakeAt hphase
    split
    · exact .stays fun _ _ => by simp
    · split
      · rename_i hactive
        exact .drained hphase hactive
      · split
        · rename_i hlong
          exact .forced hphase (by omega)
        · exact .sleeps hphase
  · rename_i hsaw _ _ _ _
    exact .stays fun elapsed hphase he => hsaw elapsed hphase he

theorem step_moves (expiryDuration : Nat) (s : Server) (e : Event) : Moves expiryDuration s e (step expiryDuration s e).phase := by
  cases e with
  | dropGuard id =>
    rw [step]
    split
    · exact .stays fun _ _ => by simp
    · exact .stays fun _ _ => by simp
  | pass ms => exact .stays fun _ _ => by simp
  | bumpActivity => exact .stays fun _ _ => by simp
  | newGuard id => exact .stays fun _ _ => by simp
  | cancelToken => exact .stays fun _ _ => by simp
  | readLast => exact turn_moves s _
  | readActive => exact turn_moves s _
  | wake => exact turn_moves s _
  | accept => exact turn_moves s _
  | seeCancel => exact turn_moves s _
  | drainCheck => exact turn_moves s _

/-! ## Runs -/

/-- The counter counts the guards, and no activity lies ahead. -/
structure Kept (s : Server) : Prop where
  counter : s.activeTransfers = s.guards.length
  clock : s.lastActivity ≤ s.now

theorem Kept.step {s : Server} (h : Kept s) (e : Event) : Kept (step expiryDuration s e) := by
  obtain ⟨hcounter, hclock⟩ := h
  have hturn : ∀ e, Kept (turn expiryDuration s e) := by
    intro e
    obtain ⟨hnow, hlast, hguards, hactive⟩ := turn_shared expiryDuration s e
    refine ⟨?_, ?_⟩
    · rw [hactive, hguards, hcounter]
    · rw [hlast, hnow]
      exact hclock
  cases e with
  | pass ms => exact ⟨hcounter, Nat.le_trans hclock (Nat.le_add_right _ _)⟩
  | bumpActivity => exact ⟨hcounter, Nat.le_refl _⟩
  | newGuard id => exact ⟨congrArg (· + 1) hcounter, hclock⟩
  | dropGuard id =>
    rw [WebExpiry.step]
    split
    · rename_i hmem
      refine ⟨?_, hclock⟩
      rw [List.length_erase_of_mem hmem, ← hcounter]
    · exact ⟨hcounter, hclock⟩
  | cancelToken => exact ⟨hcounter, hclock⟩
  | readLast => exact hturn _
  | readActive => exact hturn _
  | wake => exact hturn _
  | accept => exact hturn _
  | seeCancel => exact hturn _
  | drainCheck => exact hturn _

theorem Kept.guards_nil {s : Server} (h : Kept s) (hactive : s.activeTransfers = 0) : s.guards = [] :=
  List.eq_nil_of_length_eq_zero (h.counter ▸ hactive)

/-- The loop is in a look: it has read an activity that lay so long back, and not yet
read the transfers. -/
def Looking (expiryDuration now : Nat) (es : List Event) (elapsed : Nat) : Prop :=
  ∃ es₁ es₂, es = es₁ ++ .readLast :: es₂ ∧ .readActive ∉ es₂ ∧
    (after (step expiryDuration) (start now) es₁).phase = .checking ∧
    (after (step expiryDuration) (start now) es₁).lastActivity + elapsed =
      (after (step expiryDuration) (start now) es₁).now

/-- The loop was left at this time: in one look it had read an activity that lay
`expiry_duration` back and then found no transfer in flight, or it saw that the
token was cancelled. -/
def Left (expiryDuration now : Nat) (es : List Event) : Closing → Nat → Prop
  | .expired, drainStart =>
    ∃ look rest elapsed, es = look ++ .readActive :: rest ∧ Looking expiryDuration now look elapsed ∧
      expiryDuration ≤ elapsed ∧ (after (step expiryDuration) (start now) look).phase = .sawLast elapsed ∧
      (after (step expiryDuration) (start now) look).guards = [] ∧
      (after (step expiryDuration) (start now) look).now = drainStart
  | .cancelled, drainStart =>
    Once (step expiryDuration) (start now) (fun s e => e = .seeCancel ∧ (∃ wakeAt, s.phase = .waiting wakeAt) ∧
      s.cancel = true ∧ s.now = drainStart) es

/-- What must have happened for the loop to be where it is. -/
def Reason (expiryDuration now : Nat) (es : List Event) : Phase → Prop
  | .sawLast elapsed => Looking expiryDuration now es elapsed
  | .draining why drainStart _ => Left expiryDuration now es why drainStart
  | .stopped why false => (∃ drainStart, Left expiryDuration now es why drainStart) ∧
      Once (step expiryDuration) (start now) (fun s e => e = .drainCheck ∧ s.guards = []) es
  | .stopped why true => ∃ drainStart, Left expiryDuration now es why drainStart ∧
      Once (step expiryDuration) (start now) (fun s e => e = .drainCheck ∧ drainStart + 300000 < s.now) es
  | _ => True

variable {now : Nat} {es : List Event}

theorem Left.snoc {why : Closing} {drainStart : Nat} (h : Left expiryDuration now es why drainStart) (e : Event) :
    Left expiryDuration now (es ++ [e]) why drainStart := by
  cases why with
  | expired =>
    obtain ⟨look, rest, elapsed, rfl, hlooking, hover, hlook⟩ := h
    exact ⟨look, rest ++ [e], elapsed, by simp, hlooking, hover, hlook⟩
  | cancelled =>
    simp only [Left] at h ⊢
    exact h.snoc e

theorem Reason.snoc {p : Phase} (h : Reason expiryDuration now es p) {e : Event}
    (he : ∀ elapsed, p = .sawLast elapsed → e ≠ .readActive) : Reason expiryDuration now (es ++ [e]) p := by
  cases p with
  | sawLast elapsed =>
    obtain ⟨es₁, es₂, rfl, hnot, hlook⟩ := h
    refine ⟨es₁, es₂ ++ [e], by simp, fun hmem => ?_, hlook⟩
    rcases List.mem_append.mp hmem with hmem | hmem
    · exact hnot hmem
    · exact he elapsed rfl (List.mem_singleton.mp hmem).symm
  | draining why drainStart wakeAt => exact Left.snoc h e
  | stopped why forced =>
    cases forced with
    | false =>
      obtain ⟨⟨drainStart, hleft⟩, hdrained⟩ := h
      exact ⟨⟨drainStart, hleft.snoc e⟩, hdrained.snoc e⟩
    | true =>
      obtain ⟨drainStart, hleft, hlong⟩ := h
      exact ⟨drainStart, hleft.snoc e, hlong.snoc e⟩
  | checking => trivial
  | waiting wakeAt => trivial

/-- An event leaves a reason for where the loop is. -/
theorem reason_step (e : Event) (hkept : Kept (after (step expiryDuration) (start now) es))
    (h : Reason expiryDuration now es (after (step expiryDuration) (start now) es).phase) :
    Reason expiryDuration now (es ++ [e])
      (step expiryDuration (after (step expiryDuration) (start now) es) e).phase := by
  have hmoves := step_moves expiryDuration (after (step expiryDuration) (start now) es) e
  generalize (step expiryDuration (after (step expiryDuration) (start now) es) e).phase = p at hmoves ⊢
  cases hmoves with
  | stays hstays => exact h.snoc hstays
  | look hphase => exact ⟨es, [], rfl, List.not_mem_nil, hphase, Nat.add_sub_cancel' hkept.clock⟩
  | @expires elapsed hphase hactive hover =>
    have hlooking : Looking expiryDuration now es elapsed := by
      rw [hphase] at h
      exact h
    exact ⟨es, [], elapsed, rfl, hlooking, hover, hphase, hkept.guards_nil hactive, rfl⟩
  | waits => trivial
  | returns => trivial
  | cancels hphase hcancel =>
    simp only [Reason, Left]
    exact Once.now ⟨rfl, ⟨_, hphase⟩, hcancel, rfl⟩
  | sleeps hphase =>
    rw [hphase] at h
    exact Left.snoc h e
  | drained hphase hactive =>
    rw [hphase] at h
    exact ⟨⟨_, Left.snoc h _⟩, Once.now ⟨rfl, hkept.guards_nil hactive⟩⟩
  | forced hphase hlong =>
    rw [hphase] at h
    exact ⟨_, Left.snoc h _, Once.now ⟨rfl, hlong⟩⟩

theorem run_reason (expiryDuration now : Nat) (es : List Event) :
    Kept (after (step expiryDuration) (start now) es) ∧
      Reason expiryDuration now es (after (step expiryDuration) (start now) es).phase := by
  refine after_induction (I := fun es s => Kept s ∧ Reason expiryDuration now es s.phase) ?_ ?_ es
  · exact ⟨⟨rfl, Nat.le_refl _⟩, trivial⟩
  · intro es e ⟨hkept, h⟩
    exact ⟨hkept.step e, reason_step e hkept h⟩

/-! ## A server left alone -/

/-- A look at a server without transfers, before its time is over. -/
theorem look_early {s : Server} (hclock : s.lastActivity ≤ s.now) (hphase : s.phase = .checking)
    (hactive : s.activeTransfers = 0) (hearly : s.now < s.lastActivity + expiryDuration) :
    step expiryDuration (step expiryDuration s .readLast) .readActive =
      { s with phase := .waiting (s.lastActivity + expiryDuration) } := by
  have hwait :
      timeToWait expiryDuration (s.now - s.lastActivity) 0 = (expiryDuration - (s.now - s.lastActivity), 0) := by
    rw [timeToWait, if_neg (by omega), if_neg (by omega)]
  have hwakeAt : s.now + (expiryDuration - (s.now - s.lastActivity)) = s.lastActivity + expiryDuration := by omega
  simp only [step, turn, hphase, hactive, hwait]
  rw [if_neg (by omega), hwakeAt]

/-- A look after it. -/
theorem look_late {s : Server} (hphase : s.phase = .checking) (hactive : s.activeTransfers = 0)
    (hlate : s.lastActivity + expiryDuration ≤ s.now) :
    step expiryDuration (step expiryDuration s .readLast) .readActive =
      { s with phase := .draining .expired s.now s.now } := by
  have hwait : timeToWait expiryDuration (s.now - s.lastActivity) 0 = (0, 0) := by
    rw [timeToWait, if_neg (by omega), if_pos (by omega)]
  simp only [step, turn, hphase, hactive, hwait, and_self, if_true]

/-- The events of a server that is left alone for so long: it looks, sleeps, and
looks again. -/
def leftAlone (ms : Nat) : List Event := [.readLast, .readActive, .pass ms, .wake, .readLast, .readActive]

/-- Without transfers and activity it goes on until the time is over, and no
longer. -/
theorem leftAlone_phase {s : Server} (hkept : Kept s) (hphase : s.phase = .checking) (hguards : s.guards = [])
    (hearly : s.now < s.lastActivity + expiryDuration) (ms : Nat) :
    (after (step expiryDuration) s (leftAlone ms)).phase =
      if s.lastActivity + expiryDuration ≤ s.now + ms then .draining .expired (s.now + ms) (s.now + ms)
      else .waiting (s.lastActivity + expiryDuration) := by
  have hactive : s.activeTransfers = 0 := by rw [hkept.counter, hguards, List.length_nil]
  simp only [leftAlone, after, List.foldl_cons, List.foldl_nil]
  rw [look_early hkept.clock hphase hactive hearly]
  by_cases hover : s.lastActivity + expiryDuration ≤ s.now + ms
  · have hwake : step expiryDuration
        (step expiryDuration { s with phase := .waiting (s.lastActivity + expiryDuration) } (.pass ms)) .wake =
          { s with now := s.now + ms, phase := .checking } := by
      simp only [step, turn]
      exact if_pos hover
    have hlate := look_late (s := { s with now := s.now + ms, phase := .checking }) rfl hactive hover
    rw [hwake, if_pos hover, hlate]
  · have hsleep : step expiryDuration
        (step expiryDuration { s with phase := .waiting (s.lastActivity + expiryDuration) } (.pass ms)) .wake =
          { s with now := s.now + ms, phase := .waiting (s.lastActivity + expiryDuration) } := by
      simp only [step, turn]
      exact if_neg hover
    rw [hsleep, if_neg hover]
    rfl

/-- **The server ends when it is idle, and not before.** Over any interleaving
of the loop with the handlers: `active_transfers` counts the guards alive; where
the loop was left for inactivity it had in that look read an activity that lay
`expiry_duration` back and then found no transfer in flight, and where it was
left for the token the token was cancelled; the task ends when no transfer is in
flight, or after more than 300 s of draining. And a server that is left alone
goes on waiting until `expiry_duration` after its last activity, and leaves the
loop at its first look after that. -/
theorem ends_when_idle (expiryDuration now : Nat) (es : List Event) :
    (after (step expiryDuration) (start now) es).activeTransfers =
        (after (step expiryDuration) (start now) es).guards.length ∧
      (∀ why drainStart wakeAt, (after (step expiryDuration) (start now) es).phase = .draining why drainStart wakeAt →
        Left expiryDuration now es why drainStart) ∧
      (∀ why forced, (after (step expiryDuration) (start now) es).phase = .stopped why forced →
        ∃ drainStart, Left expiryDuration now es why drainStart ∧
          Once (step expiryDuration) (start now) (fun s e => e = .drainCheck ∧
            if forced = true then drainStart + 300000 < s.now else s.guards = []) es) ∧
      ∀ s ms, s = after (step expiryDuration) (start now) es → s.phase = .checking → s.guards = [] →
        s.now < s.lastActivity + expiryDuration →
        (after (step expiryDuration) s (leftAlone ms)).phase =
          if s.lastActivity + expiryDuration ≤ s.now + ms then .draining .expired (s.now + ms) (s.now + ms)
          else .waiting (s.lastActivity + expiryDuration) := by
  obtain ⟨hkept, hreason⟩ := run_reason expiryDuration now es
  refine ⟨hkept.counter, ?_, ?_, ?_⟩
  · intro why drainStart wakeAt hphase
    rw [hphase] at hreason
    exact hreason
  · intro why forced hphase
    rw [hphase] at hreason
    cases forced with
    | false =>
      obtain ⟨⟨drainStart, hleft⟩, hdrained⟩ := hreason
      exact ⟨drainStart, hleft, hdrained.imp fun s e h => ⟨h.1, by simpa using h.2⟩⟩
    | true =>
      obtain ⟨drainStart, hleft, hlong⟩ := hreason
      exact ⟨drainStart, hleft, hlong.imp fun s e h => ⟨h.1, by simpa using h.2⟩⟩
  · intro s ms hs hphase hguards hearly
    subst hs
    exact leftAlone_phase hkept hphase hguards hearly ms

/-- The loop reads the activity first: a transfer that begins and ends before it
reads the counter does not keep the server up. -/
example : (after (step 1000) (start 0)
    [.pass 1000, .readLast, .bumpActivity, .newGuard 1, .pass 5, .dropGuard 1, .readActive]).phase =
      .draining .expired 1005 1005 := by decide

end Nxfr.WebExpiry

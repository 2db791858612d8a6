/-
A limit on wrong attempts, seen from the log of the attempts.

A counter that starts over when its last failure is old, and that shuts the
door for a while when it is full, is to keep the failures of any window below
a maximum. The counter is not the log: a failure is counted some time after
the attempt, and others may be under way. `Ledger` says how the two agree: the
failures of the log are old ones, ones the counter knows, and ones still to be
counted, and all who are under way have room.
-/
import Mathlib.Data.List.ReduceOption
import Mathlib.Data.List.Perm.Basic

namespace Lockout

/-- At most `max` failures within `window`, then none let in for `block`. -/
structure Rule where
  max : Nat
  window : Nat
  block : Nat
  window_lt : window < block

structure Attempt where
  time : Nat
  right : Bool
  deriving DecidableEq

/-- The times of the wrong attempts. -/
def failures (log : List Attempt) : List Nat := (log.filter (!·.right)).map (·.time)

@[simp] theorem failures_right {log : List Attempt} {t : Nat} : failures (log ++ [⟨t, true⟩]) = failures log := by
  simp [failures]

@[simp] theorem failures_wrong {log : List Attempt} {t : Nat} :
    failures (log ++ [⟨t, false⟩]) = failures log ++ [t] := by
  simp [failures]

/-- A wrong attempt with which a window that ends there is full. -/
def Rule.Fills (rule : Rule) (before : List Attempt) (a : Attempt) : Prop :=
  a.right = false ∧ rule.max ≤ (failures (before ++ [a])).countP fun t => decide (a.time ≤ t + rule.window)

/-- No window holds more than `max` failures, and an attempt that fills one is
followed by none for `block`. -/
structure Rule.Limits (rule : Rule) (log : List Attempt) : Prop where
  window : ∀ t, (failures log).countP (fun s => decide (t ≤ s ∧ s ≤ t + rule.window)) ≤ rule.max
  block : ∀ before a later, log = before ++ a :: later → rule.Fills before a → ∀ b ∈ later, a.time + rule.block ≤ b.time

/-- The count of an entry and the time of its last failure. -/
abbrev Entry := Option (Nat × Nat)

def count (entry : Entry) : Nat := (entry.map (·.1)).getD 0

/-- The log, and the entry that is kept of it. A ticket is held by whoever was
let in and may still fail (`none`), or has failed and is not counted yet (the
time of the attempt). -/
structure Ledger (rule : Rule) (log : List Attempt) (entry : Entry) (tickets : List (Option Nat)) (now : Nat)
    (old counted : List Nat) : Prop where
  limits : rule.Limits log
  past : ∀ a ∈ log, a.time ≤ now
  room : count entry + tickets.length ≤ rule.max
  failures_perm : (failures log).Perm (old ++ (counted ++ tickets.reduceOption))
  old_lt : ∀ t ∈ old, t + rule.window < now
  counted_le : counted.length ≤ count entry
  counted_last : ∀ t ∈ counted, ∀ k last, entry = some (k, last) → t ≤ last
  full : ∀ before a later, log = before ++ a :: later → rule.Fills before a →
    a.time + rule.block ≤ now ∨
      (rule.max ≤ (counted ++ tickets.reduceOption).length ∧ a.time ∈ counted ++ tickets.reduceOption ∧
        ∀ t ∈ counted ++ tickets.reduceOption, t ≤ a.time ∧ a.time ≤ t + rule.window)

/-- The log and the entry agree. -/
def Tracks (rule : Rule) (log : List Attempt) (entry : Entry) (tickets : List (Option Nat)) (now : Nat) : Prop :=
  ∃ old counted, Ledger rule log entry tickets now old counted

variable {rule : Rule} {log : List Attempt} {entry : Entry} {tickets : List (Option Nat)} {now : Nat}
  {old counted : List Nat}

theorem Tracks.limits (h : Tracks rule log entry tickets now) : rule.Limits log := by
  obtain ⟨_, _, h⟩ := h
  exact h.limits

theorem Tracks.room (h : Tracks rule log entry tickets now) : count entry + tickets.length ≤ rule.max := by
  obtain ⟨_, _, h⟩ := h
  exact h.room

theorem Tracks.start : Tracks rule [] none [] now := by
  refine ⟨[], [], ⟨?_, ?_⟩, by simp, by simp [count], by simp [failures], by simp, by simp, by simp, ?_⟩
  · simp [failures]
  · intro before a later h
    simp at h
  · intro before a later h
    simp at h

theorem Tracks.perm {tickets' : List (Option Nat)} (h : Tracks rule log entry tickets now)
    (hperm : tickets.Perm tickets') : Tracks rule log entry tickets' now := by
  obtain ⟨old, counted, h⟩ := h
  have hred : (counted ++ tickets.reduceOption).Perm (counted ++ tickets'.reduceOption) :=
    (hperm.filterMap id).append_left counted
  refine ⟨old, counted, h.limits, h.past, hperm.length_eq ▸ h.room, h.failures_perm.trans (hred.append_left old),
    h.old_lt, h.counted_le, h.counted_last, ?_⟩
  intro before a later hlog hfills
  rcases h.full before a later hlog hfills with hpast | ⟨hmax, hmem, hwin⟩
  · exact .inl hpast
  · refine .inr ⟨hred.length_eq ▸ hmax, hred.mem_iff.mp hmem, ?_⟩
    intro t ht
    exact hwin t (hred.mem_iff.mpr ht)

theorem Tracks.wait {now' : Nat} (h : Tracks rule log entry tickets now) (hle : now ≤ now') :
    Tracks rule log entry tickets now' := by
  obtain ⟨old, counted, h⟩ := h
  refine ⟨old, counted, h.limits, ?_, h.room, h.failures_perm, ?_, h.counted_le, h.counted_last, ?_⟩
  · intro a ha
    have := h.past a ha
    omega
  · intro t ht
    have := h.old_lt t ht
    omega
  · intro before a later hlog hfills
    rcases h.full before a later hlog hfills with hpast | hfull
    · exact .inl (by omega)
    · exact .inr hfull

/-! ## Who comes and goes -/

/-- Whoever finds room is let in. -/
theorem Tracks.admit (h : Tracks rule log entry tickets now) (hroom : count entry + tickets.length < rule.max) :
    Tracks rule log entry (none :: tickets) now := by
  obtain ⟨old, counted, h⟩ := h
  refine ⟨old, counted, h.limits, h.past, ?_, ?_, h.old_lt, h.counted_le, h.counted_last, ?_⟩
  · rw [List.length_cons]
    omega
  · simpa using h.failures_perm
  · simpa using h.full

/-- Whoever may still fail can leave. -/
theorem Tracks.leave (h : Tracks rule log entry (none :: tickets) now) : Tracks rule log entry tickets now := by
  obtain ⟨old, counted, h⟩ := h
  have hroom := h.room
  rw [List.length_cons] at hroom
  exact ⟨old, counted, h.limits, h.past, by omega, by simpa using h.failures_perm, h.old_lt, h.counted_le,
    h.counted_last, by simpa using h.full⟩

/-- The entry of a full counter is forgotten after the block. -/
theorem Tracks.expire {k last : Nat} (h : Tracks rule log (some (k, last)) tickets now) (hk : rule.max ≤ k)
    (hlast : last + rule.block ≤ now) : Tracks rule log none tickets now := by
  obtain ⟨old, counted, h⟩ := h
  have hroom : k + tickets.length ≤ rule.max := h.room
  have hnone : tickets = [] := List.eq_nil_of_length_eq_zero (by omega)
  subst hnone
  have hw := rule.window_lt
  have hcounted : ∀ t ∈ counted, t ≤ last := fun t ht => h.counted_last t ht k last rfl
  have hperm : (failures log).Perm (old ++ counted) := by simpa using h.failures_perm
  refine ⟨old ++ counted, [], h.limits, h.past, by simp [count], by simpa using hperm, ?_, by simp, by simp, ?_⟩
  · intro t ht
    rcases List.mem_append.mp ht with ht | ht
    · exact h.old_lt t ht
    · have := hcounted t ht
      omega
  · intro before a later hlog hfills
    rcases h.full before a later hlog hfills with hpast | ⟨_, hmem, _⟩
    · exact .inl hpast
    · have := hcounted a.time (by simpa using hmem)
      exact .inl (by omega)

/-! ## Attempts -/

theorem Ledger.failure_past (h : Ledger rule log entry tickets now old counted) {t : Nat} (ht : t ∈ failures log) :
    t ≤ now := by
  simp only [failures, List.mem_map, List.mem_filter] at ht
  obtain ⟨a, ⟨ha, _⟩, rfl⟩ := ht
  exact h.past a ha

theorem Ledger.old_not_recent (h : Ledger rule log entry tickets now old counted) :
    old.countP (fun t => decide (now ≤ t + rule.window)) = 0 := by
  rw [List.countP_eq_zero]
  intro t ht
  have := h.old_lt t ht
  rw [decide_eq_true_eq]
  omega

/-- The failures of the window that ends now are known or still to be counted. -/
theorem Ledger.recent_le (h : Ledger rule log entry tickets now old counted) :
    (failures log).countP (fun t => decide (now ≤ t + rule.window)) ≤ (counted ++ tickets.reduceOption).length := by
  rw [h.failures_perm.countP_eq, List.countP_append, h.old_not_recent]
  have := List.countP_le_length (p := fun t => decide (now ≤ t + rule.window)) (l := counted ++ tickets.reduceOption)
  omega

theorem Ledger.known_lt (h : Ledger rule log entry (none :: tickets) now old counted) :
    (counted ++ tickets.reduceOption).length < rule.max := by
  have hroom := h.room
  have hcounted := h.counted_le
  have htickets := List.reduceOption_length_le tickets
  rw [List.length_cons] at hroom
  rw [List.length_append]
  omega

/-- Where someone may still fail, no window has been filled for the block. -/
theorem Ledger.filled_long_ago (h : Ledger rule log entry (none :: tickets) now old counted) {before later : List Attempt}
    {a : Attempt} (hlog : log = before ++ a :: later) (hfills : rule.Fills before a) : a.time + rule.block ≤ now := by
  rcases h.full before a later hlog hfills with hpast | ⟨hmax, _, _⟩
  · exact hpast
  · have := h.known_lt
    rw [List.reduceOption_cons_of_none] at hmax
    omega

theorem snoc_eq_middle {α : Type} {xs : List α} {x y : α} {before later : List α}
    (h : xs ++ [x] = before ++ y :: later) :
    (later = [] ∧ before = xs ∧ y = x) ∨ ∃ later', later = later' ++ [x] ∧ xs = before ++ y :: later' := by
  rcases List.eq_nil_or_concat later with rfl | ⟨later', z, rfl⟩
  · have := List.append_inj' h rfl
    simp only [List.cons.injEq, and_true] at this
    exact .inl ⟨rfl, this.1.symm, this.2.symm⟩
  · have h' : xs ++ [x] = (before ++ y :: later') ++ [z] := by simpa using h
    have := List.append_inj' h' rfl
    simp only [List.cons.injEq, and_true] at this
    exact .inr ⟨later', by rw [this.2, List.concat_eq_append], this.1⟩

theorem Ledger.block_snoc (h : Ledger rule log entry (none :: tickets) now old counted) {right : Bool}
    {before later : List Attempt} {a : Attempt} (hlog : log ++ [⟨now, right⟩] = before ++ a :: later)
    (hfills : rule.Fills before a) : ∀ b ∈ later, a.time + rule.block ≤ b.time := by
  intro b hb
  rcases snoc_eq_middle hlog with ⟨rfl, _, _⟩ | ⟨later', rfl, hlog'⟩
  · simp at hb
  · rcases List.mem_append.mp hb with hb | hb
    · exact h.limits.block before a later' hlog' hfills b hb
    · rw [List.mem_singleton] at hb
      subst hb
      exact h.filled_long_ago hlog' hfills

theorem Ledger.past_snoc (h : Ledger rule log entry tickets now old counted) {right : Bool} :
    ∀ a ∈ log ++ [⟨now, right⟩], a.time ≤ now := by
  intro a ha
  rcases List.mem_append.mp ha with ha | ha
  · exact h.past a ha
  · rw [List.mem_singleton] at ha
    subst ha
    exact Nat.le_refl _

/-- A right attempt, by one who was let in. -/
theorem Tracks.right (h : Tracks rule log entry (none :: tickets) now) :
    Tracks rule (log ++ [⟨now, true⟩]) entry (none :: tickets) now := by
  obtain ⟨old, counted, h⟩ := h
  refine ⟨old, counted, ⟨?_, fun _ _ _ => h.block_snoc⟩, h.past_snoc, h.room, by simpa using h.failures_perm, h.old_lt,
    h.counted_le, h.counted_last, ?_⟩
  · simpa using h.limits.window
  · intro before a later hlog hfills
    rcases snoc_eq_middle hlog with ⟨_, _, rfl⟩ | ⟨later', _, hlog⟩
    · exact absurd hfills.1 (by simp)
    · exact .inl (h.filled_long_ago hlog hfills)

/-- A window that a failure fills now has in it every failure that is known. -/
theorem Ledger.full_now (h : Ledger rule log entry (none :: tickets) now old counted)
    (hfills : rule.Fills log ⟨now, false⟩) :
    rule.max ≤ (counted ++ (some now :: tickets).reduceOption).length ∧
      now ∈ counted ++ (some now :: tickets).reduceOption ∧
      ∀ t ∈ counted ++ (some now :: tickets).reduceOption, t ≤ now ∧ now ≤ t + rule.window := by
  have hfailures : (failures log).Perm (old ++ (counted ++ tickets.reduceOption)) := by simpa using h.failures_perm
  have hmax : rule.max ≤ (failures (log ++ [⟨now, false⟩])).countP (fun t => decide (now ≤ t + rule.window)) := hfills.2
  have hold := h.old_not_recent
  have hknown := h.known_lt
  rw [failures_wrong, List.countP_append, hfailures.countP_eq, List.countP_append, hold] at hmax
  have hone : [now].countP (fun t => decide (now ≤ t + rule.window)) ≤ 1 := List.countP_le_length
  have hle := List.countP_le_length (p := fun t => decide (now ≤ t + rule.window)) (l := counted ++ tickets.reduceOption)
  have hall := List.countP_eq_length.mp (Nat.le_antisymm hle (by omega))
  rw [List.reduceOption_cons_of_some]
  refine ⟨?_, by simp, ?_⟩
  · rw [List.length_append, List.length_cons]
    rw [List.length_append] at hle
    omega
  · intro t ht
    rw [List.perm_middle.mem_iff, List.mem_cons] at ht
    rcases ht with rfl | ht
    · omega
    · have hmem : t ∈ failures log := hfailures.mem_iff.mpr (List.mem_append_right old ht)
      have hin := hall t ht
      rw [decide_eq_true_eq] at hin
      exact ⟨h.failure_past hmem, hin⟩

/-- A wrong attempt, by one who was let in; it is to be counted. -/
theorem Tracks.wrong (h : Tracks rule log entry (none :: tickets) now) :
    Tracks rule (log ++ [⟨now, false⟩]) entry (some now :: tickets) now := by
  obtain ⟨old, counted, h⟩ := h
  have hknown := h.known_lt
  have hrecent := h.recent_le
  rw [List.reduceOption_cons_of_none] at hrecent
  have hperm : (counted ++ (some now :: tickets).reduceOption).Perm (now :: (counted ++ tickets.reduceOption)) := by
    rw [List.reduceOption_cons_of_some]
    exact List.perm_middle
  have hfailures : (failures log).Perm (old ++ (counted ++ tickets.reduceOption)) := by simpa using h.failures_perm
  refine ⟨old, counted, ⟨?_, fun _ _ _ => h.block_snoc⟩, h.past_snoc, by simpa using h.room, ?_, h.old_lt, h.counted_le,
    h.counted_last, ?_⟩
  · intro t
    rw [failures_wrong, List.countP_append]
    by_cases hin : t ≤ now ∧ now ≤ t + rule.window
    · -- the failures of this window are also in the one that ends now
      have hle : (failures log).countP (fun s => decide (t ≤ s ∧ s ≤ t + rule.window)) ≤
          (failures log).countP (fun s => decide (now ≤ s + rule.window)) := by
        refine List.countP_mono_left ?_
        intro s _ hs
        simp only [decide_eq_true_eq] at hs ⊢
        omega
      have hone : [now].countP (fun s => decide (t ≤ s ∧ s ≤ t + rule.window)) ≤ 1 := List.countP_le_length
      omega
    · have hzero : [now].countP (fun s => decide (t ≤ s ∧ s ≤ t + rule.window)) = 0 := by simpa using hin
      have := h.limits.window t
      omega
  · rw [failures_wrong]
    refine ((hfailures.append_right [now]).trans ?_).trans (hperm.symm.append_left old)
    rw [List.append_assoc]
    exact (List.perm_append_singleton now _).append_left old
  · intro before a later hlog hfills
    rcases snoc_eq_middle hlog with ⟨rfl, rfl, rfl⟩ | ⟨later', _, hlog⟩
    · exact .inr (h.full_now hfills)
    · exact .inl (h.filled_long_ago hlog hfills)

/-! ## Counting -/

/-- The count goes on, or, the last failure being older than the window at
time `t`, it starts over. -/
def Rule.Counts (rule : Rule) (entry : Entry) (t k : Nat) : Prop :=
  k = count entry + 1 ∨ (k = 1 ∧ ∃ j last, entry = some (j, last) ∧ last + rule.window < t)

theorem Rule.Counts.le {t k : Nat} (hk : rule.Counts entry t k) : k ≤ count entry + 1 := by
  rcases hk with rfl | ⟨rfl, _⟩ <;> omega

/-- A failure is counted, as of the time of its attempt. -/
theorem Tracks.recorded {t k : Nat} (h : Tracks rule log entry (some t :: tickets) now) (hk : rule.Counts entry t k) :
    Tracks rule log (some (k, now)) tickets now := by
  obtain ⟨old, counted, h⟩ := h
  have hroom : k + tickets.length ≤ rule.max := by
    have := h.room
    have := hk.le
    rw [List.length_cons] at *
    omega
  have hperm : (counted ++ (some t :: tickets).reduceOption).Perm ((t :: counted) ++ tickets.reduceOption) := by
    rw [List.reduceOption_cons_of_some]
    exact List.perm_middle
  have hfailures := h.failures_perm.trans (hperm.append_left old)
  have hpast : ∀ s ∈ t :: counted, s ≤ now := by
    intro s hs
    exact h.failure_past (hfailures.mem_iff.mpr (by simp only [List.mem_append, hs, true_or, or_true]))
  rcases hk with rfl | ⟨rfl, j, last, rfl, hlast⟩
  · refine ⟨old, t :: counted, h.limits, h.past, hroom, hfailures, h.old_lt, ?_, ?_, ?_⟩
    · exact Nat.succ_le_succ h.counted_le
    · intro s hs k last hentry
      simp only [Option.some.injEq, Prod.mk.injEq] at hentry
      exact hentry.2 ▸ hpast s hs
    · intro before a later hlog hfills
      rcases h.full before a later hlog hfills with hp | ⟨hmax, hmem, hwin⟩
      · exact .inl hp
      · refine .inr ⟨hperm.length_eq ▸ hmax, hperm.mem_iff.mp hmem, ?_⟩
        intro s hs
        exact hwin s (hperm.mem_iff.mpr hs)
  · have ht := hpast t (by simp)
    have hstale : ∀ s ∈ counted, s ≤ last := fun s hs => h.counted_last s hs j last rfl
    refine ⟨old ++ counted, [t], h.limits, h.past, hroom, ?_, ?_, by simp [count], ?_, ?_⟩
    · refine hfailures.trans ?_
      rw [List.append_assoc]
      exact List.perm_middle.symm.append_left old
    · intro s hs
      rcases List.mem_append.mp hs with hs | hs
      · exact h.old_lt s hs
      · have := hstale s hs
        omega
    · intro s hs k last hentry
      simp only [Option.some.injEq, Prod.mk.injEq] at hentry
      rw [List.mem_singleton] at hs
      omega
    · intro before a later hlog hfills
      rcases h.full before a later hlog hfills with hp | ⟨hmax, hmem, hwin⟩
      · exact .inl hp
      · -- a window with this failure in it has none of the stale ones
        have hnone : counted = [] := by
          refine List.eq_nil_iff_forall_not_mem.mpr ?_
          intro s hs
          have := hstale s hs
          have := hwin s (by simp [hs])
          have := hwin t (by simp [List.reduceOption_cons_of_some])
          omega
        subst hnone
        refine .inr ⟨hperm.length_eq ▸ hmax, hperm.mem_iff.mp hmem, ?_⟩
        intro s hs
        exact hwin s (hperm.mem_iff.mpr hs)

/-- A failure without an attempt is counted. -/
theorem Tracks.blank {k : Nat} (h : Tracks rule log entry (none :: tickets) now) (hk : rule.Counts entry now k) :
    Tracks rule log (some (k, now)) tickets now := by
  obtain ⟨old, counted, h⟩ := h
  have hroom : k + tickets.length ≤ rule.max := by
    have := h.room
    have := hk.le
    rw [List.length_cons] at *
    omega
  have hfailures : (failures log).Perm (old ++ (counted ++ tickets.reduceOption)) := by simpa using h.failures_perm
  have hfull : ∀ before a later, log = before ++ a :: later → rule.Fills before a → a.time + rule.block ≤ now :=
    fun before a later => h.filled_long_ago
  rcases hk with rfl | ⟨rfl, j, last, rfl, hstale⟩
  · refine ⟨old, counted, h.limits, h.past, hroom, hfailures, h.old_lt, Nat.le_succ_of_le h.counted_le, ?_, ?_⟩
    · intro s hs k last hentry
      simp only [Option.some.injEq, Prod.mk.injEq] at hentry
      have : s ≤ now := h.failure_past (hfailures.mem_iff.mpr (by simp [hs]))
      omega
    · intro before a later hlog hfills
      exact .inl (hfull before a later hlog hfills)
  · refine ⟨old ++ counted, [], h.limits, h.past, hroom, by simpa using hfailures, ?_, by simp, by simp, ?_⟩
    · intro s hs
      rcases List.mem_append.mp hs with hs | hs
      · exact h.old_lt s hs
      · have := h.counted_last s hs j last rfl
        omega
    · intro before a later hlog hfills
      exact .inl (hfull before a later hlog hfills)

/-! ## One at a time -/

/-- The counts a counter has recorded and when, the entry that is kept and the
time, where nobody comes while another is under way: a failure is recorded only
by one who found room, and a full entry is forgotten after the block. -/
inductive Rule.Books (rule : Rule) : List (Nat × Nat) → Entry → Nat → Prop
  | start (now : Nat) : Books rule [] none now
  | wait {log : List (Nat × Nat)} {entry : Entry} {now now' : Nat} (h : Books rule log entry now) (hle : now ≤ now') :
    Books rule log entry now'
  | record {log : List (Nat × Nat)} {entry : Entry} {now k : Nat} (h : Books rule log entry now)
    (hroom : count entry < rule.max) (hk : rule.Counts entry now k) :
    Books rule (log ++ [(k, now)]) (some (k, now)) now
  | expire {log : List (Nat × Nat)} {k last now : Nat} (h : Books rule log (some (k, last)) now) (hk : rule.max ≤ k)
    (hlast : last + rule.block ≤ now) : Books rule log none now

namespace Rule.Books

variable {log : List (Nat × Nat)} {entry : Entry} {now : Nat}

theorem past (h : rule.Books log entry now) : ∀ r ∈ log, r.2 ≤ now := by
  induction h with
  | start now => simp
  | wait _ hle ih =>
    intro r hr
    have := ih r hr
    omega
  | record _ _ _ ih =>
    intro r hr
    rcases List.mem_append.mp hr with hr | hr
    · exact ih r hr
    · rw [List.mem_singleton] at hr
      subst hr
      exact Nat.le_refl _
  | expire _ _ _ ih => exact ih

/-- The entry that is kept is the last one recorded. -/
theorem getLast_eq (h : rule.Books log entry now) {k last : Nat} (hentry : entry = some (k, last)) :
    log.getLast? = some (k, last) ∧ ∀ r ∈ log, r.2 ≤ last := by
  induction h with
  | start now => cases hentry
  | wait _ _ ih => exact ih hentry
  | record h _ _ _ =>
    cases hentry
    exact ⟨by simp, (h.record ‹_› ‹_›).past⟩
  | expire _ _ _ _ => cases hentry

/-- Where no entry is kept, the last one recorded was full and is forgotten. -/
theorem forgotten (h : rule.Books log none now) {k last : Nat} (hlog : log.getLast? = some (k, last)) :
    last + rule.block ≤ now := by
  generalize hentry : (none : Entry) = entry at h
  induction h with
  | start now => simp at hlog
  | wait _ hle ih =>
    have := ih hlog hentry
    omega
  | record _ _ _ _ => cases hentry
  | expire h _ hlast _ =>
    rw [(h.getLast_eq rfl).1] at hlog
    cases hlog
    exact hlast

theorem stale (h : rule.Books log entry now) {k last : Nat} (hentry : entry = some (k, last))
    (hlast : last + rule.window < now) : log.countP (fun r => decide (now ≤ r.2 + rule.window)) = 0 := by
  rw [List.countP_eq_zero]
  intro r hr
  have := (h.getLast_eq hentry).2 r hr
  rw [decide_eq_true_eq]
  omega

/-- The entry has counted every failure of the window that ends now. -/
theorem recent_le (h : rule.Books log entry now) :
    log.countP (fun r => decide (now ≤ r.2 + rule.window)) ≤ count entry := by
  induction h with
  | start now => simp
  | wait _ hle ih =>
    refine Nat.le_trans (List.countP_mono_left ?_) ih
    intro r _ hr
    rw [decide_eq_true_eq] at hr ⊢
    omega
  | @record log entry now k h _ hk ih =>
    have hone : [(k, now)].countP (fun r => decide (now ≤ r.2 + rule.window)) ≤ 1 := List.countP_le_length
    rw [List.countP_append]
    change _ ≤ k
    rcases hk with rfl | ⟨rfl, j, last, hentry, hlast⟩
    · omega
    · have := h.stale hentry hlast
      omega
  | expire h _ hlast _ =>
    have hw := rule.window_lt
    have := h.stale rfl (by omega)
    omega

/-- **No window holds more failures than the limit.** -/
theorem window_le (h : rule.Books log entry now) (t : Nat) :
    log.countP (fun r => decide (t ≤ r.2 ∧ r.2 ≤ t + rule.window)) ≤ rule.max := by
  induction h with
  | start now => simp
  | wait _ _ ih => exact ih
  | @record log entry now k h hroom _ ih =>
    have hrecent := h.recent_le
    rw [List.countP_append]
    by_cases hin : t ≤ now ∧ now ≤ t + rule.window
    · -- the failures of this window are also in the one that ends now
      have hle : log.countP (fun r => decide (t ≤ r.2 ∧ r.2 ≤ t + rule.window)) ≤
          log.countP (fun r => decide (now ≤ r.2 + rule.window)) := by
        refine List.countP_mono_left ?_
        intro r _ hr
        simp only [decide_eq_true_eq] at hr ⊢
        omega
      have hone : [(k, now)].countP (fun r => decide (t ≤ r.2 ∧ r.2 ≤ t + rule.window)) ≤ 1 := List.countP_le_length
      omega
    · have hzero : [(k, now)].countP (fun r => decide (t ≤ r.2 ∧ r.2 ≤ t + rule.window)) = 0 := by simpa using hin
      omega
  | expire _ _ _ ih => exact ih

end Rule.Books

end Lockout

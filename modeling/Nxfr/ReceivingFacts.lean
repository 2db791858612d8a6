/-
When `receiving_enabled` says whether the mDNS service is registered.

Commands that want the same do each other no harm: whoever comes second finds
the service as it wants it. A command that turns receiving off reads the flag
that one of two commands to turn it on has written, while the other is still
on its way; their changes and their writes can then come in different orders.
`Consistent` is what holds of every state where that does not happen.
-/
import Nxfr.Receiving
import Nxfr.History

namespace Nxfr.Receiving

open History

/-! ## What a step can do -/

/-- The steps that do something: the flag and the manager before and after,
and the command that takes the step. -/
inductive Move (s : State) : Event → State → Prop
  | missing {c : Nat} (hc : s.commands c = none) : Move s (.read c none)
      (s.setCommand c { enabled := false, stage := .answered (.err "missing 'enabled' field") })
  | same {c : Nat} {enabled : Bool} (hc : s.commands c = none) (h : enabled = s.receivingEnabled) : Move s (.read c (some enabled))
      (s.setCommand c { enabled, stage := .answered (.ok enabled) })
  | begin {c : Nat} {enabled : Bool} (hc : s.commands c = none) (h : enabled ≠ s.receivingEnabled) :
      Move s (.read c (some enabled)) (s.setCommand c { enabled, stage := .advertise })
  | changed {c : Nat} {enabled : Bool} {answers : Answers} {discovery : Option DiscoveryManager}
      (hc : s.commands c = some { enabled, stage := .advertise })
      (h : Receiving.advertise enabled answers s.discovery = .ok discovery) :
      Move s (.advertise c answers) { s.setCommand c { enabled, stage := .write } with discovery }
  | failed {c : Nat} {enabled : Bool} {answers : Answers} {e : String}
      (hc : s.commands c = some { enabled, stage := .advertise })
      (h : Receiving.advertise enabled answers s.discovery = .error e) :
      Move s (.advertise c answers) (s.setCommand c { enabled, stage := .answered (.err e) })
  | wrote {c : Nat} {enabled : Bool} (hc : s.commands c = some { enabled, stage := .write }) : Move s (.write c)
      { s.setCommand c { enabled, stage := .answered (.ok enabled) } with receivingEnabled := enabled }

theorem step_move (s : State) (e : Event) : step s e = s ∨ Move s e (step s e) := by
  cases e with
  | read c enabled =>
    simp only [step]
    split
    · rename_i hc
      exact .inr (.missing hc)
    · rename_i hc
      split
      · rename_i h
        exact .inr (.same hc h)
      · rename_i h
        exact .inr (.begin hc h)
    · exact .inl rfl
  | advertise c answers =>
    simp only [step]
    split
    · rename_i hc
      split
      · rename_i h
        exact .inr (.changed hc h)
      · rename_i h
        exact .inr (.failed hc h)
    · exact .inl rfl
  | write c =>
    simp only [step]
    split
    · rename_i hc
      exact .inr (.wrote hc)
    · exact .inl rfl

/-- A successful change leaves the service registered as the command wants
it. -/
theorem advertise_registered {enabled : Bool} {answers : Answers} {discovery discovery' : Option DiscoveryManager}
    (h : advertise enabled answers discovery = .ok discovery') :
    discovery'.any (fun dm => dm.registeredFullname.isSome) = enabled := by
  unfold advertise at h
  split at h
  · rename_i dm
    split at h
    · rename_i henabled
      unfold DiscoveryManager.startAdvertising at h
      split at h
      · rename_i dm' hdm
        cases h
        split at hdm
        · rename_i fullname hfull
          cases hdm
          simp [hfull, henabled]
        · split at hdm
          · cases hdm
            simp [henabled]
          · cases hdm
      · cases h
    · rename_i henabled
      cases h
      unfold DiscoveryManager.stopAdvertising
      split
      · split <;> simpa using henabled
      · rename_i hfull
        simpa [hfull] using henabled
  · split at h
    · cases h
    · rename_i henabled
      cases h
      simpa using henabled

/-! ## The flag and the service -/

/-- No command goes on from its read while one that wants the opposite is in
progress. -/
def NoOpposite (s : State) : Event → Prop
  | .read _ (some enabled) => enabled ≠ s.receivingEnabled →
      ∀ d k, s.commands d = some k → k.inProgress = true → k.enabled = enabled
  | _ => True

/-- What holds in every state: all commands in progress want the same, and
between its change and its write a command has the service as it wants it;
where no command is there, the flag agrees. -/
structure Consistent (s : State) : Prop where
  same : ∀ {c d k l}, s.commands c = some k → s.commands d = some l → k.inProgress = true → l.inProgress = true →
    k.enabled = l.enabled
  changed : ∀ {c k}, s.commands c = some k → k.stage = .write → s.registered = k.enabled
  agrees : (∀ c k, s.commands c = some k → k.stage ≠ .write) → s.receivingEnabled = s.registered

section

variable {s s' : State} {c d : Nat} {k l : Command}

theorem setCommand_some (h : (s.setCommand c k).commands d = some l) : (d = c ∧ l = k) ∨ (d ≠ c ∧ s.commands d = some l) := by
  simp only [State.setCommand] at h
  split at h
  · rename_i hd
    exact .inl ⟨hd, (Option.some.inj h).symm⟩
  · rename_i hd
    exact .inr ⟨hd, h⟩

theorem inProgress_write (h : k.stage = .write) : k.inProgress = true := by simp [Command.inProgress, h]

/-- A command that has its answer, and one that is no longer about to write,
does not matter. -/
theorem Consistent.answer (h : Consistent s) {enabled : Bool} {reply : Reply}
    (hc : ∀ k, s.commands c = some k → k.stage ≠ .write) :
    Consistent (s.setCommand c { enabled, stage := .answered reply }) := by
  refine ⟨?_, ?_, ?_⟩
  · intro d d' l l' hd hd' hl hl'
    rcases setCommand_some hd with ⟨_, rfl⟩ | ⟨_, hd⟩
    · cases hl
    · rcases setCommand_some hd' with ⟨_, rfl⟩ | ⟨_, hd'⟩
      · cases hl'
      · exact h.same hd hd' hl hl'
  · intro d l hd hl
    rcases setCommand_some hd with ⟨_, rfl⟩ | ⟨_, hd⟩
    · cases hl
    · exact h.changed hd hl
  · intro hnone
    refine h.agrees ?_
    intro d l hd
    by_cases hdc : d = c
    · subst hdc
      exact hc l hd
    · exact hnone d l (by simpa [State.setCommand, hdc] using hd)

theorem Consistent.begin (h : Consistent s) {enabled : Bool} (hc : s.commands c = none)
    (hsame : ∀ d k, s.commands d = some k → k.inProgress = true → k.enabled = enabled) :
    Consistent (s.setCommand c { enabled, stage := .advertise }) := by
  refine ⟨?_, ?_, ?_⟩
  · intro d d' l l' hd hd' hl hl'
    rcases setCommand_some hd with ⟨_, rfl⟩ | ⟨_, hd⟩
    · rcases setCommand_some hd' with ⟨_, rfl⟩ | ⟨_, hd'⟩
      · rfl
      · exact (hsame _ _ hd' hl').symm
    · rcases setCommand_some hd' with ⟨_, rfl⟩ | ⟨_, hd'⟩
      · exact hsame _ _ hd hl
      · exact h.same hd hd' hl hl'
  · intro d l hd hl
    rcases setCommand_some hd with ⟨_, rfl⟩ | ⟨_, hd⟩
    · cases hl
    · exact h.changed hd hl
  · intro hnone
    refine h.agrees ?_
    intro d l hd
    have hdc : d ≠ c := by
      intro hdc
      simp [hdc, hc] at hd
    exact hnone d l (by simpa [State.setCommand, hdc] using hd)

theorem Consistent.change (h : Consistent s) {enabled : Bool} {discovery : Option DiscoveryManager}
    (hc : s.commands c = some { enabled, stage := .advertise })
    (hreg : discovery.any (fun dm => dm.registeredFullname.isSome) = enabled) :
    Consistent { s.setCommand c { enabled, stage := .write } with discovery } := by
  refine ⟨?_, ?_, ?_⟩
  · intro d d' l l' hd hd' hl hl'
    rcases setCommand_some hd with ⟨_, rfl⟩ | ⟨_, hd⟩
    · rcases setCommand_some hd' with ⟨_, rfl⟩ | ⟨_, hd'⟩
      · rfl
      · have hsame := h.same hc hd' rfl hl'
        exact hsame
    · rcases setCommand_some hd' with ⟨_, rfl⟩ | ⟨_, hd'⟩
      · have hsame := h.same hd hc hl rfl
        exact hsame
      · exact h.same hd hd' hl hl'
  · intro d l hd hl
    rcases setCommand_some hd with ⟨_, rfl⟩ | ⟨_, hd⟩
    · exact hreg
    · exact hreg.trans (h.same hc hd rfl (inProgress_write hl))
  · intro hnone
    exact absurd rfl (hnone c { enabled, stage := .write } (if_pos rfl))

theorem Consistent.write (h : Consistent s) {enabled : Bool} (hc : s.commands c = some { enabled, stage := .write }) :
    Consistent { s.setCommand c { enabled, stage := .answered (.ok enabled) } with receivingEnabled := enabled } := by
  refine ⟨?_, ?_, ?_⟩
  · intro d d' l l' hd hd' hl hl'
    rcases setCommand_some hd with ⟨_, rfl⟩ | ⟨_, hd⟩
    · cases hl
    · rcases setCommand_some hd' with ⟨_, rfl⟩ | ⟨_, hd'⟩
      · cases hl'
      · exact h.same hd hd' hl hl'
  · intro d l hd hl
    rcases setCommand_some hd with ⟨_, rfl⟩ | ⟨_, hd⟩
    · cases hl
    · exact h.changed hd hl
  · intro _
    exact (h.changed hc rfl).symm

theorem Consistent.step (h : Consistent s) (e : Event) (he : NoOpposite s e) : Consistent (step s e) := by
  rcases step_move s e with heq | hmove
  · rw [heq]
    exact h
  · generalize Receiving.step s e = s' at hmove
    cases hmove with
    | missing hc => exact h.answer (by simp [hc])
    | same hc _ => exact h.answer (by simp [hc])
    | begin hc hne => exact h.begin hc (he hne)
    | changed hc hadv => exact h.change hc (advertise_registered hadv)
    | failed hc _ => exact h.answer (by simp [hc])
    | wrote hc => exact h.write hc

/-! ## The mDNS daemon -/

/-- Where `unregister` does not fail, the mDNS daemon has the service the
manager knows of, and no other. -/
def State.Clean (s : State) : Prop := ∀ dm, s.discovery = some dm → dm.services = dm.registeredFullname.toList

def Unregisters (_ : State) : Event → Prop
  | .advertise _ answers => answers.unregister = .ok ()
  | _ => True

theorem advertise_clean {enabled : Bool} {answers : Answers} {discovery : Option DiscoveryManager}
    {dm : DiscoveryManager} (hclean : ∀ dm, discovery = some dm → dm.services = dm.registeredFullname.toList)
    (hun : answers.unregister = .ok ()) (h : advertise enabled answers discovery = .ok (some dm)) :
    dm.services = dm.registeredFullname.toList := by
  unfold advertise at h
  split at h
  · rename_i dm₀
    have hclean₀ := hclean dm₀ rfl
    split at h
    · unfold DiscoveryManager.startAdvertising at h
      split at h
      · rename_i dm' hdm
        cases h
        split at hdm
        · cases hdm
          exact hclean₀
        · rename_i hfull
          split at hdm
          · cases hdm
            simp [hclean₀, hfull]
          · cases hdm
      · cases h
    · simp only [Except.ok.injEq, Option.some.injEq] at h
      subst h
      unfold DiscoveryManager.stopAdvertising
      split
      · rename_i fullname hfull
        simp [hun, hclean₀, hfull]
      · exact hclean₀
  · split at h
    · cases h
    · cases h

theorem State.Clean.step (h : s.Clean) (e : Event) (he : Unregisters s e) : (step s e).Clean := by
  rcases step_move s e with heq | hmove
  · rw [heq]
    exact h
  · generalize Receiving.step s e = s' at hmove
    cases hmove with
    | missing _ => exact h
    | same _ _ => exact h
    | begin _ _ => exact h
    | changed _ hadv =>
      intro dm hdm
      simp only at hdm
      subst hdm
      exact advertise_clean h he hadv
    | failed _ _ => exact h
    | wrote _ => exact h

theorem State.Clean.announced (h : s.Clean) : s.announced = s.registered := by
  unfold State.announced State.registered
  cases hd : s.discovery with
  | none => rfl
  | some dm =>
    simp only [Option.any_some, h dm hd]
    cases dm.registeredFullname <;> rfl

/-! ## Error responses -/

/-- A command that has changed something and does not end with an error. -/
def Command.Succeeds (k : Command) : Prop := k.stage = .write ∨ ∃ b, k.stage = .answered (.ok b)

theorem succeeds_step (hc : s.commands c = some k) (hk : k.Succeeds) (e : Event) :
    ∃ k', (step s e).commands c = some k' ∧ k'.Succeeds := by
  rcases step_move s e with heq | hmove
  · exact ⟨k, by rw [heq, hc], hk⟩
  · generalize Receiving.step s e = s' at hmove
    by_cases hce : c = e.command
    · subst hce
      cases hmove with
      | missing hnone => simp [Event.command, hnone] at hc
      | same hnone _ => simp [Event.command, hnone] at hc
      | begin hnone _ => simp [Event.command, hnone] at hc
      | changed hc' _ =>
        have hkc := Option.some.inj (hc.symm.trans hc')
        simp [Command.Succeeds, hkc] at hk
      | failed hc' _ =>
        have hkc := Option.some.inj (hc.symm.trans hc')
        simp [Command.Succeeds, hkc] at hk
      | wrote hc' => exact ⟨_, if_pos rfl, .inr ⟨_, rfl⟩⟩
    · refine ⟨k, ?_, hk⟩
      cases hmove <;> exact (if_neg hce).trans hc

theorem succeeds_after (hc : s.commands c = some k) (hk : k.Succeeds) (es : List Event) :
    ∃ k', (after Receiving.step s es).commands c = some k' ∧ k'.Succeeds := by
  refine after_induction (I := fun _ (s : State) => ∃ k', s.commands c = some k' ∧ k'.Succeeds) ⟨k, hc, hk⟩ ?_ es
  intro es e ih
  obtain ⟨k', hc', hk'⟩ := ih
  exact succeeds_step hc' hk' e

/-- A step that changes the flag or the manager is one of a command that does
not end with an error. -/
theorem step_changes (s : State) (e : Event) :
    ((step s e).receivingEnabled = s.receivingEnabled ∧ (step s e).discovery = s.discovery) ∨
      ∃ k, (step s e).commands e.command = some k ∧ k.Succeeds := by
  rcases step_move s e with heq | hmove
  · rw [heq]
    exact .inl ⟨rfl, rfl⟩
  · generalize hs' : Receiving.step s e = s' at hmove
    cases hmove with
    | missing _ => exact .inl ⟨rfl, rfl⟩
    | same _ _ => exact .inl ⟨rfl, rfl⟩
    | begin _ _ => exact .inl ⟨rfl, rfl⟩
    | changed _ _ => exact .inr ⟨_, if_pos rfl, .inl rfl⟩
    | failed _ _ => exact .inl ⟨rfl, rfl⟩
    | wrote _ => exact .inr ⟨_, if_pos rfl, .inr ⟨_, rfl⟩⟩

end

/-! ## The result -/

/-- **The flag agrees with the service where opposite commands do not meet.**
In every run that starts with the two in agreement and in which no command
goes on from its read while one that wants the opposite is in progress,
`receiving_enabled` says whether the service is registered whenever no command
is in progress; it says whether the mDNS daemon has the service, too, as long
as `unregister` does not fail. A command that is answered with an error, in
whatever run, has changed neither. -/
theorem receiving_agrees {s₀ : State} {es : List Event} (hidle : ∀ c, s₀.commands c = none)
    (hstart : s₀.receivingEnabled = s₀.registered) :
    (Always step s₀ NoOpposite es → (after step s₀ es).Idle →
      (after step s₀ es).receivingEnabled = (after step s₀ es).registered ∧
      (s₀.Clean → Always step s₀ Unregisters es →
        (after step s₀ es).receivingEnabled = (after step s₀ es).announced)) ∧
    ∀ (es₁ es₂ : List Event) (e : Event) (k : Command) (error : String), es = es₁ ++ e :: es₂ →
      (after step s₀ es).commands e.command = some k → k.stage = .answered (.err error) →
      (after step s₀ (es₁ ++ [e])).receivingEnabled = (after step s₀ es₁).receivingEnabled ∧
        (after step s₀ (es₁ ++ [e])).discovery = (after step s₀ es₁).discovery := by
  constructor
  · intro hno hquiet
    have hcons : Consistent (after step s₀ es) := by
      refine Always.keeps (I := Consistent) ?_ (fun s e he h => h.step e he) hno
      refine ⟨?_, ?_, fun _ => hstart⟩
      · intro c d k l hc
        simp [hidle] at hc
      · intro c k hc
        simp [hidle] at hc
    have hagrees := hcons.agrees (by
      intro c k hc hk
      have hprogress := inProgress_write hk
      simp [hquiet c k hc] at hprogress)
    refine ⟨hagrees, ?_⟩
    intro hclean hun
    have hend : (after step s₀ es).Clean := Always.keeps (I := State.Clean) hclean (fun s e he h => h.step e he) hun
    rw [hend.announced]
    exact hagrees
  · intro es₁ es₂ e k error hes hk herr
    rw [after_snoc]
    rcases step_changes (after step s₀ es₁) e with hsame | ⟨k₁, hk₁, hsucc⟩
    · exact hsame
    · obtain ⟨k₂, hk₂, hsucc₂⟩ := succeeds_after hk₁ hsucc es₂
      rw [← after_middle, ← hes, hk, Option.some.injEq] at hk₂
      simp [← hk₂, Command.Succeeds, herr] at hsucc₂

/-- What a working mDNS daemon answers. -/
def workingMdns : Answers := { register := .ok "desk._nxfr._tcp.local.", unregister := .ok () }

def off : State := start false (some { registeredFullname := none, services := [] })

/-- Two clients turn receiving on at once, and one turns it off later. -/
def onAndOff : List Event :=
  [.read 0 (some true), .read 1 (some true), .advertise 0 workingMdns, .advertise 1 workingMdns, .write 1, .write 0,
    .read 2 (some false), .advertise 2 workingMdns, .write 2]

/-- Two clients turn receiving on; when one of them is done a third turns it
off, and the other, who found the service registered, writes last. -/
def crossing : List Event :=
  [.read 0 (some true), .read 1 (some true), .advertise 1 workingMdns, .write 1, .read 2 (some false),
    .advertise 0 workingMdns, .advertise 2 workingMdns, .write 2, .write 0]

theorem commands_none {s : State} {d : Nat} {es : List Event} (hd : s.commands d = none) (hes : ∀ e ∈ es, e.command ≠ d) :
    (after step s es).commands d = none := by
  refine after_induction (I := fun es (s : State) => (∀ e ∈ es, e.command ≠ d) → s.commands d = none) (fun _ => hd) ?_ es hes
  intro es e ih hes
  have hold := ih fun e he => hes e (by simp [he])
  have hne : d ≠ e.command := fun hde => hes e (by simp) hde.symm
  rcases step_move (after step s es) e with heq | hmove
  · rw [heq]
    exact hold
  · generalize step (after step s es) e = s' at hmove
    cases hmove <;> exact (if_neg hne).trans hold

/-- `NoOpposite`, computed for three commands. -/
def noOppositeOfThree (s : State) : Event → Bool
  | .read _ (some enabled) => enabled == s.receivingEnabled ||
      (List.range 3).all fun d => (s.commands d).all fun k => !k.inProgress || k.enabled == enabled
  | _ => true

theorem command_lt {s : State} {es : List Event} {n c : Nat} {k : Command} (hs : ∀ c, s.commands c = none)
    (hes : ∀ e ∈ es, e.command < n) (hc : (after step s es).commands c = some k) : c < n := by
  by_contra hge
  have hnone : (after step s es).commands c = none := by
    refine commands_none (hs c) ?_
    intro e he
    have hlt := hes e he
    omega
  simp [hnone] at hc

theorem onAndOff_noOpposite : Always step off NoOpposite onAndOff := by
  have hholds : Always step off (fun s e => noOppositeOfThree s e = true) onAndOff :=
    .of_holds (fun _ _ h => h) (by decide +kernel)
  intro es₁ e es₂ hes
  have hnow := hholds es₁ e es₂ hes
  cases e with
  | read c enabled =>
    cases enabled with
    | none => trivial
    | some enabled =>
      intro hne d k hd hk
      have hbound : ∀ e ∈ onAndOff, e.command < 3 := by decide
      have hlt : d < 3 := command_lt (fun _ => rfl) (fun e he => hbound e (by simp [hes, he])) hd
      simp only [noOppositeOfThree, Bool.or_eq_true, beq_iff_eq, hne, false_or, List.all_eq_true, List.mem_range] at hnow
      have hall := hnow d hlt
      simpa [hd, hk] using hall
  | advertise c answers => trivial
  | write c => trivial

theorem idle_of_three {s : State} {es : List Event} (hs : ∀ c, s.commands c = none) (hes : ∀ e ∈ es, e.command < 3)
    (h : (List.range 3).all (fun c => ((after step s es).commands c).all fun k => !k.inProgress) = true) :
    (after step s es).Idle := by
  intro c k hc
  have hlt : c < 3 := command_lt hs hes hc
  simp only [List.all_eq_true, List.mem_range] at h
  have hall := h c hlt
  simpa [hc] using hall

theorem receiving_agrees_onAndOff :
    (after step off onAndOff).Idle ∧ (after step off onAndOff).receivingEnabled = (after step off onAndOff).registered := by
  have hidle : (after step off onAndOff).Idle := idle_of_three (fun _ => rfl) (by decide) (by decide +kernel)
  exact ⟨hidle, ((@receiving_agrees off onAndOff (fun _ => rfl) rfl).1 onAndOff_noOpposite hidle).1⟩

/-- Three commands that cross leave receiving enabled and no service. -/
theorem receiving_disagrees :
    ¬ ∀ (s₀ : State) (es : List Event), (∀ c, s₀.commands c = none) → s₀.receivingEnabled = s₀.registered →
      (after step s₀ es).Idle → (after step s₀ es).receivingEnabled = (after step s₀ es).registered := by
  intro h
  have hidle : (after step off crossing).Idle := idle_of_three (fun _ => rfl) (by decide) (by decide +kernel)
  have hagrees := h off crossing (fun _ => rfl) rfl hidle
  revert hagrees
  decide +kernel

end Nxfr.Receiving

/-
Whose prompt is resolved by what, over any interleaving of connections,
commands and timers.

`pending_offers` has one entry for a key, and the peer chooses the key of an
offer: a second offer under the same id replaces the first, and the cleanup of
one removes the other. As long as nobody publishes under a key that is in use
(`Unshared`), every unresolved prompt stands in the map or in the hands of the
command that answers it, and every wait ends by an answer given to it or by
its own time (`Standing`).
-/
import Nxfr.Prompts

namespace Nxfr.Prompts

/-- A waiter that is still waiting has its offer in the map, with its sender,
or a command has taken the sender to answer it. -/
def State.Pending (s : State) (w : Nat) (r : Waiter) : Prop :=
  (∃ o, s.offers r.ask.key = some o ∧ o.owner = w ∧ o.hasSender = true) ∨
    ∃ c k, s.commands c = some k ∧ k.stage = .holding ∧ k.owner = w

/-- The end of a wait is the waiter's own: the answer of a command for its
key, or its own time. -/
def State.Own (s : State) (r : Waiter) : Ending → Prop
  | .answered c accepted => ∃ k, s.commands c = some k ∧ k.key = r.ask.key ∧ k.accepted = accepted
  | .expired | .timeout => r.expiresAt ≤ s.now
  | .senderLost => False

/-- What holds in every state: beside the two results, an entry belongs to
the one waiter of its key that is not over, and a command under way is about
it. -/
structure Standing (s : State) : Prop where
  owned : ∀ {key o}, s.offers key = some o →
    ∃ r, s.waiters o.owner = some r ∧ r.ask.key = key ∧ r.expiresAt = o.expiresAt ∧ r.stage.isOver = false
  sole : ∀ {v w r q}, s.waiters v = some r → s.waiters w = some q → r.stage.isOver = false → q.stage.isOver = false →
    r.ask.key = q.ask.key → v = w
  held : ∀ {c k}, s.commands c = some k → k.stage ≠ .finished →
    ∃ r, s.waiters k.owner = some r ∧ r.ask.key = k.key
  about : ∀ {c k w r}, s.commands c = some k → k.stage ≠ .finished → s.waiters w = some r → r.stage.isOver = false →
    r.ask.key = k.key → w = k.owner
  sent : ∀ {c k r}, s.commands c = some k → k.stage = .sent → s.waiters k.owner = some r → r.stage ≠ .waiting
  stands : ∀ {w r}, s.waiters w = some r → r.stage = .waiting → s.Pending w r
  ended : ∀ {w r e}, s.waiters w = some r → r.stage.ending = some e → s.Own r e

/-- Nobody publishes under a key while another waiter of that key is not over
or a command for it is under way. -/
def Unshared (s : State) : Event → Prop
  | .publish _ ask => (∀ v r, s.waiters v = some r → r.ask.key = ask.key → r.stage.isOver = true) ∧
      ∀ c k, s.commands c = some k → k.key = ask.key → k.stage = .finished
  | _ => True

/-- The states reached in runs whose every event may happen. -/
inductive Run (now : Nat) (may : State → Event → Prop) : State → Prop
  | start : Run now may (start now)
  | step {s : State} (h : Run now may s) (e : Event) (he : may s e) : Run now may (step s e)

/-! ## The pieces of a step -/

section

variable {s : State} {w v c : Nat} {r q : Waiter} {key : String}

theorem setStage_some {stage : Stage} (h : (s.setStage w stage).waiters v = some q) :
    ∃ r, s.waiters v = some r ∧ q.ask = r.ask ∧ q.expiresAt = r.expiresAt ∧
      ((v = w ∧ q.stage = stage) ∨ (v ≠ w ∧ q = r)) := by
  simp only [State.setStage] at h
  split at h
  · rename_i hv
    obtain ⟨r, hr, rfl⟩ := Option.map_eq_some_iff.mp h
    exact ⟨r, hr, rfl, rfl, .inl ⟨hv, rfl⟩⟩
  · rename_i hv
    exact ⟨q, h, rfl, rfl, .inr ⟨hv, rfl⟩⟩

theorem setStage_self {stage : Stage} (h : s.waiters w = some r) : (s.setStage w stage).waiters w = some { r with stage } := by
  simp [State.setStage, h]

theorem setStage_other {stage : Stage} (h : v ≠ w) : (s.setStage w stage).waiters v = s.waiters v := by
  simp [State.setStage, h]

theorem setOffer_none (h : s.offers key = none) : s.setOffer key none = s := by
  simp only [State.setOffer]
  congr 1
  funext k
  split
  · rename_i hk
    rw [hk, h]
  · rfl

theorem notify_waiting {e : Ending} (h : s.waiters w = some r) (hr : r.stage = .waiting) :
    s.notify w e = s.setStage w (.notified e) := by
  obtain ⟨ask, expiresAt, stage⟩ := r
  simp only at hr
  subst hr
  simp [State.notify, h]

theorem notify_ended {e : Ending} (h : ∀ r, s.waiters w = some r → r.stage ≠ .waiting) : s.notify w e = s := by
  unfold State.notify
  split
  · rename_i hr
    exact absurd rfl (h _ hr)
  · rfl

/-- An entry that leaves the map does no harm where its waiter has stopped
waiting. -/
theorem dropOffer_ended (h : ∀ o r, s.offers key = some o → s.waiters o.owner = some r → r.stage ≠ .waiting) :
    s.dropOffer key = s.setOffer key none := by
  unfold State.dropOffer
  split
  · rename_i o ho
    split
    · exact notify_ended fun r hr => h o r ho hr
    · rfl
  · rename_i ho
    exact (setOffer_none ho).symm

end

/-! ## What each piece keeps -/

section

variable {s : State}

/-- A waiter goes on: past its wait, with an end of its own, and out of the
map before it is over. -/
theorem Standing.setStage (hs : Standing s) {w : Nat} {r : Waiter} {stage : Stage} (hw : s.waiters w = some r)
    (hback : r.stage.isOver = true → stage.isOver = true) (hne : stage ≠ .waiting)
    (hown : ∀ e, stage.ending = some e → s.Own r e)
    (hout : stage.isOver = true → ∀ key o, s.offers key = some o → o.owner ≠ w) : Standing (s.setStage w stage) := by
  -- A waiter that is not over now was not over before.
  have hlive : ∀ {v q}, (s.setStage w stage).waiters v = some q → q.stage.isOver = false →
      ∃ p, s.waiters v = some p ∧ p.ask = q.ask ∧ p.stage.isOver = false := by
    intro v q hq hover
    obtain ⟨p, hp, hask, _, ⟨rfl, hstage⟩ | ⟨hv, rfl⟩⟩ := setStage_some hq
    · refine ⟨p, hp, hask.symm, ?_⟩
      rw [hw, Option.some.injEq] at hp
      subst hp
      rw [hstage] at hover
      cases hr : r.stage.isOver with
      | false => rfl
      | true => rw [hback hr] at hover; cases hover
    · exact ⟨q, hp, rfl, hover⟩
  refine ⟨?_, ?_, ?_, ?_, ?_, ?_, ?_⟩
  · intro key o ho
    obtain ⟨p, hp, hkey, hexp, hover⟩ := hs.owned ho
    by_cases hv : o.owner = w
    · refine ⟨{ p with stage }, ?_, hkey, hexp, ?_⟩
      · rw [hv] at hp ⊢
        exact setStage_self hp
      · cases hst : stage.isOver with
        | false => rfl
        | true => exact absurd hv (hout hst key o ho)
    · exact ⟨p, (setStage_other hv).trans hp, hkey, hexp, hover⟩
  · intro v v' q q' hq hq' hover hover' hkey
    obtain ⟨p, hp, hask, hpo⟩ := hlive hq hover
    obtain ⟨p', hp', hask', hpo'⟩ := hlive hq' hover'
    exact hs.sole hp hp' hpo hpo' (by rw [hask, hask', hkey])
  · intro c k hc hfin
    obtain ⟨p, hp, hkey⟩ := hs.held hc hfin
    by_cases hv : k.owner = w
    · rw [hv] at hp ⊢
      exact ⟨{ p with stage }, setStage_self hp, hkey⟩
    · exact ⟨p, (setStage_other hv).trans hp, hkey⟩
  · intro c k v q hc hfin hq hover hkey
    obtain ⟨p, hp, hask, hpo⟩ := hlive hq hover
    exact hs.about hc hfin hp hpo (by rw [hask, hkey])
  · intro c k q hc hsent hq
    obtain ⟨p, hp, _, _, ⟨_, hstage⟩ | ⟨_, rfl⟩⟩ := setStage_some hq
    · rwa [hstage]
    · exact hs.sent hc hsent hp
  · intro v q hq hwait
    obtain ⟨p, hp, _, _, ⟨_, hstage⟩ | ⟨_, rfl⟩⟩ := setStage_some hq
    · exact absurd (hstage.symm.trans hwait) hne
    · exact hs.stands hp hwait
  · intro v q e hq he
    obtain ⟨p, hp, hask, hexp, ⟨rfl, hstage⟩ | ⟨_, rfl⟩⟩ := setStage_some hq
    · rw [hw, Option.some.injEq] at hp
      subst hp
      have := hown e (hstage ▸ he)
      revert this
      cases e <;> simp [State.Own, hask, hexp, State.setStage]
    · exact hs.ended hp he

/-- An entry leaves the map, nobody waiting under its key. -/
theorem Standing.removeOffer (hs : Standing s) {key : String}
    (hq : ∀ w r, s.waiters w = some r → r.ask.key = key → r.stage ≠ .waiting) : Standing (s.setOffer key none) := by
  refine ⟨?_, hs.sole, hs.held, hs.about, hs.sent, ?_, hs.ended⟩
  · intro k o ho
    simp only [State.setOffer] at ho
    split at ho
    · cases ho
    · exact hs.owned ho
  · intro w r hw hwait
    rcases hs.stands hw hwait with ⟨o, ho, howner, hsender⟩ | hcommand
    · refine .inl ⟨o, ?_, howner, hsender⟩
      have hne : r.ask.key ≠ key := fun hk => hq w r hw hk hwait
      simp [State.setOffer, hne, ho]
    · exact .inr hcommand

/-- A waiter's channel ends by an end of its own. -/
theorem Standing.notify (hs : Standing s) {w : Nat} {e : Ending} (hown : ∀ r, s.waiters w = some r → s.Own r e) :
    Standing (s.notify w e) := by
  by_cases hw : ∃ r, s.waiters w = some r ∧ r.stage = .waiting
  · obtain ⟨r, hr, hwait⟩ := hw
    rw [notify_waiting hr hwait]
    refine hs.setStage hr ?_ nofun ?_ nofun
    · intro hover
      rw [hwait] at hover
      cases hover
    · intro e' he'
      cases he'
      exact hown r hr
  · rw [notify_ended]
    · exact hs
    · exact fun r hr hwait => hw ⟨r, hr, hwait⟩

/-- A command goes on, its waiter having stopped waiting. -/
theorem Standing.setCommand (hs : Standing s) {c : Nat} {k : Command} {stage : CommandStage} (hc : s.commands c = some k)
    (hback : k.stage = .finished → stage = .finished)
    (hq : ∀ r, s.waiters k.owner = some r → r.stage ≠ .waiting) : Standing (s.setCommand c { k with stage }) := by
  -- A command that is under way now was under way before, about the same waiter.
  have hbefore : ∀ {d m}, (s.setCommand c { k with stage }).commands d = some m → m.stage ≠ .finished →
      ∃ m', s.commands d = some m' ∧ m'.key = m.key ∧ m'.owner = m.owner ∧ m'.stage ≠ .finished := by
    intro d m hm hfin
    simp only [State.setCommand] at hm
    split at hm
    · rename_i hd
      cases hm
      exact ⟨k, hd ▸ hc, rfl, rfl, fun hk => hfin (hback hk)⟩
    · exact ⟨m, hm, rfl, rfl, hfin⟩
  refine ⟨hs.owned, hs.sole, ?_, ?_, ?_, ?_, ?_⟩
  · intro d m hm hfin
    obtain ⟨m', hm', hkey, howner, hfin'⟩ := hbefore hm hfin
    rw [← hkey, ← howner]
    exact hs.held hm' hfin'
  · intro d m w r hm hfin hw hover hkey
    obtain ⟨m', hm', hkey', howner, hfin'⟩ := hbefore hm hfin
    rw [← howner]
    exact hs.about hm' hfin' hw hover (hkey.trans hkey'.symm)
  · intro d m r hm hsent hw
    simp only [State.setCommand] at hm
    split at hm
    · cases hm
      exact hq r hw
    · exact hs.sent hm hsent hw
  · intro w r hw hwait
    rcases hs.stands hw hwait with hoffer | ⟨d, m, hm, hholding, howner⟩
    · exact .inl hoffer
    · have hd : d ≠ c := by
        rintro rfl
        rw [hc, Option.some.injEq] at hm
        subst hm
        exact hq r (howner ▸ hw) hwait
      exact .inr ⟨d, m, by simp [State.setCommand, hd, hm], hholding, howner⟩
  · intro w r e hw he
    have hown := hs.ended hw he
    cases e with
    | answered d accepted =>
      obtain ⟨m, hm, hkey, haccepted⟩ := hown
      by_cases hd : d = c
      · subst hd
        rw [hc, Option.some.injEq] at hm
        subst hm
        exact ⟨{ k with stage }, by simp [State.setCommand], hkey, haccepted⟩
      · exact ⟨m, by simp [State.setCommand, hd, hm], hkey, haccepted⟩
    | expired => exact hown
    | senderLost => exact hown
    | timeout => exact hown

/-! ## Each event -/

theorem Standing.publish (hs : Standing s) {w : Nat} {ask : Ask} (he : Unshared s (.publish w ask)) :
    Standing (step s (.publish w ask)) := by
  obtain ⟨hover, hfinished⟩ := he
  simp only [step]
  split
  · exact hs
  rename_i hw
  have hfree : s.offers ask.key = none := by
    cases ho : s.offers ask.key with
    | none => rfl
    | some o =>
      obtain ⟨r, hr, hkey, _, hlive⟩ := hs.owned ho
      rw [hover _ r hr hkey] at hlive
      cases hlive
  have hdrop : s.dropOffer ask.key = s := by simp [State.dropOffer, hfree]
  rw [hdrop]
  -- The new waiter has a number of its own.
  have hnew : ∀ {v r}, s.waiters v = some r → v ≠ w := by
    rintro v r hv rfl
    rw [hw] at hv
    cases hv
  refine ⟨?_, ?_, ?_, ?_, ?_, ?_, ?_⟩
  · intro key o ho
    simp only [State.setOffer] at ho
    split at ho
    · rename_i hk
      cases ho
      exact ⟨_, if_pos rfl, hk.symm, rfl, rfl⟩
    · obtain ⟨r, hr, hkey⟩ := hs.owned ho
      exact ⟨r, (if_neg (hnew hr)).trans hr, hkey⟩
  · intro v v' r q hv hv' hlive hlive' hkey
    simp only [State.setOffer] at hv hv'
    split at hv <;> split at hv'
    · rename_i h h'
      rw [h, h']
    · cases hv
      rw [hover _ q hv' hkey.symm] at hlive'
      cases hlive'
    · cases hv'
      rw [hover _ r hv hkey] at hlive
      cases hlive
    · exact hs.sole hv hv' hlive hlive' hkey
  · intro c k hc hfin
    obtain ⟨r, hr, hkey⟩ := hs.held hc hfin
    exact ⟨r, (if_neg (hnew hr)).trans hr, hkey⟩
  · intro c k v r hc hfin hv hlive hkey
    simp only [State.setOffer] at hv
    split at hv
    · cases hv
      exact absurd (hfinished c k hc hkey.symm) hfin
    · exact hs.about hc hfin hv hlive hkey
  · intro c k r hc hsent hv
    simp only [State.setOffer] at hv hc
    obtain ⟨q, hq, _⟩ := hs.held hc (by simp [hsent])
    rw [if_neg (hnew hq)] at hv
    exact hs.sent hc hsent hv
  · intro v r hv hwait
    simp only [State.setOffer] at hv
    split at hv
    · rename_i hvw
      cases hv
      exact .inl ⟨_, if_pos rfl, hvw.symm, rfl⟩
    · rcases hs.stands hv hwait with ⟨o, ho, howner, hsender⟩ | hcommand
      · refine .inl ⟨o, ?_, howner, hsender⟩
        have hne : r.ask.key ≠ ask.key := by
          intro hk
          have := hover _ r hv hk
          rw [hwait] at this
          cases this
        simp [State.setOffer, hne, ho]
      · exact .inr hcommand
  · intro v r e hv hend
    simp only [State.setOffer] at hv
    split at hv
    · cases hv
      cases hend
    · exact hs.ended hv hend

theorem Standing.confirm (hs : Standing s) (c : Nat) (key : String) (accepted : Bool) :
    Standing (step s (.confirm c key accepted)) := by
  simp only [step]
  split
  case h_2 => exact hs
  rename_i o hc ho
  split
  case isFalse => exact hs
  rename_i hsender
  obtain ⟨p, hp, hpkey, hpexp, hplive⟩ := hs.owned ho
  have hother : ∀ {d k}, s.commands d = some k → d ≠ c := by
    rintro d k hd rfl
    rw [hc] at hd
    cases hd
  refine ⟨?_, hs.sole, ?_, ?_, ?_, ?_, ?_⟩
  · intro key' o' ho'
    simp only [State.setOffer, State.setCommand] at ho'
    split at ho'
    · rename_i hk
      cases ho'
      exact ⟨p, hp, hpkey.trans hk.symm, hpexp, hplive⟩
    · exact hs.owned ho'
  · intro d k hd hfin
    simp only [State.setCommand] at hd
    split at hd
    · cases hd
      exact ⟨p, hp, hpkey⟩
    · exact hs.held hd hfin
  · intro d k w r hd hfin hw hlive hkey
    simp only [State.setCommand] at hd
    split at hd
    · cases hd
      exact hs.sole hw hp hlive hplive (hkey.trans hpkey.symm)
    · exact hs.about hd hfin hw hlive hkey
  · intro d k r hd hsent hw
    simp only [State.setCommand] at hd
    split at hd
    · cases hd
      cases hsent
    · exact hs.sent hd hsent hw
  · intro w r hw hwait
    rcases hs.stands hw hwait with ⟨o', ho', howner, hsender'⟩ | ⟨d, k, hd, hholding, howner⟩
    · by_cases hk : r.ask.key = key
      · rw [hk, ho, Option.some.injEq] at ho'
        subst ho'
        exact .inr ⟨c, _, if_pos rfl, rfl, howner⟩
      · exact .inl ⟨o', by simp [State.setOffer, State.setCommand, hk, ho'], howner, hsender'⟩
    · exact .inr ⟨d, k, (if_neg (hother hd)).trans hd, hholding, howner⟩
  · intro w r e hw hend
    have hown := hs.ended hw hend
    cases e with
    | answered d b =>
      obtain ⟨k, hd, hk⟩ := hown
      exact ⟨k, (if_neg (hother hd)).trans hd, hk⟩
    | expired => exact hown
    | senderLost => exact hown
    | timeout => exact hown

theorem Standing.confirmSend (hs : Standing s) (c : Nat) : Standing (step s (.confirmSend c)) := by
  simp only [step]
  split
  · rename_i k hc
    split
    · rename_i hholding
      have hn : Standing (s.notify k.owner (.answered c k.accepted)) := by
        refine hs.notify fun r hr => ?_
        obtain ⟨p, hp, hkey⟩ := hs.held hc (by simp [hholding])
        rw [hp, Option.some.injEq] at hr
        subst hr
        exact ⟨k, hc, hkey.symm, rfl⟩
      refine hn.setCommand ?_ (by simp [hholding]) ?_
      · unfold State.notify
        split <;> exact hc
      · intro r hr hwait
        by_cases hw : ∃ p, s.waiters k.owner = some p ∧ p.stage = .waiting
        · obtain ⟨p, hp, hpw⟩ := hw
          rw [notify_waiting hp hpw, setStage_self hp, Option.some.injEq] at hr
          subst hr
          cases hwait
        · rw [notify_ended fun p hp hpw => hw ⟨p, hp, hpw⟩] at hr
          exact hw ⟨r, hr, hwait⟩
    · exact hs
  · exact hs

/-- What leaves the map under a key, where its waiter that is not over has
stopped waiting. -/
theorem Standing.dropOffer (hs : Standing s) (key : String) {w : Nat} {r : Waiter} (hw : s.waiters w = some r)
    (hstop : r.stage ≠ .waiting)
    (hsole : ∀ v q, s.waiters v = some q → q.stage.isOver = false → q.ask.key = key → v = w) :
    s.dropOffer key = s.setOffer key none ∧ Standing (s.setOffer key none) := by
  refine ⟨dropOffer_ended fun o q ho hq hwait => ?_, hs.removeOffer fun v q hv hkey hwait => ?_⟩
  · obtain ⟨p, hp, hkey, _, hlive⟩ := hs.owned ho
    rw [hsole _ p hp hlive hkey, hw, Option.some.injEq] at hq
    exact hstop (hq ▸ hwait)
  · have hv' := hsole v q hv (by simp [hwait, Stage.isOver]) hkey
    rw [hv', hw, Option.some.injEq] at hv
    exact hstop (hv ▸ hwait)

theorem Standing.confirmRemove (hs : Standing s) (c : Nat) : Standing (step s (.confirmRemove c)) := by
  simp only [step]
  split
  · rename_i k hc
    split
    · rename_i hsent
      have hfin : k.stage ≠ .finished := by simp [hsent]
      obtain ⟨r, hr, _⟩ := hs.held hc hfin
      obtain ⟨hdrop, hs'⟩ := hs.dropOffer k.key hr (hs.sent hc hsent hr) fun v q hv hlive hkey => hs.about hc hfin hv hlive hkey
      rw [hdrop]
      exact hs'.setCommand hc (fun _ => rfl) fun q hq => hs.sent hc hsent hq
    · exact hs
  · exact hs

theorem Standing.cleanup (hs : Standing s) (w : Nat) : Standing (step s (.cleanup w)) := by
  simp only [step]
  split
  · rename_i ask expiresAt e hw
    obtain ⟨hdrop, hs'⟩ := hs.dropOffer ask.key hw nofun fun v q hv hlive hkey => hs.sole hv hw hlive rfl hkey
    rw [hdrop]
    refine hs'.setStage hw (fun _ => rfl) nofun (fun e' he' => ?_) fun _ key o ho howner => ?_
    · cases he'
      exact hs.ended hw rfl
    · -- The entry of this waiter was under its key, and is gone.
      simp only [State.setOffer] at ho
      split at ho
      · cases ho
      · rename_i hne
        obtain ⟨p, hp, hkey, _⟩ := hs.owned ho
        rw [howner, hw, Option.some.injEq] at hp
        subst hp
        exact hne hkey.symm
  · exact hs

theorem Standing.wake (hs : Standing s) (w : Nat) : Standing (step s (.wake w)) := by
  simp only [step]
  split
  · rename_i hw
    refine hs.setStage hw nofun nofun (fun e' he' => ?_) nofun
    cases he'
    exact hs.ended hw rfl
  · exact hs

theorem Standing.timeout (hs : Standing s) (w : Nat) : Standing (step s (.timeout w)) := by
  simp only [step]
  split
  · rename_i hw
    split
    · rename_i hlate
      refine hs.setStage hw nofun nofun (fun e' he' => ?_) nofun
      cases he'
      exact hlate
    · exact hs
  · exact hs

theorem Standing.tick (hs : Standing s) (elapsed : Nat) : Standing (step s (.tick elapsed)) := by
  refine ⟨hs.owned, hs.sole, hs.held, hs.about, hs.sent, hs.stands, ?_⟩
  intro w r e hw he
  have hown := hs.ended hw he
  cases e with
  | answered c accepted => exact hown
  | expired => exact Nat.le_add_right_of_le hown
  | senderLost => exact hown
  | timeout => exact Nat.le_add_right_of_le hown

/-- A waiter after the expiry task: as it was, or rejected in its own time. -/
theorem expire_some {w : Nat} {q : Waiter} (h : (step s .expire).waiters w = some q) :
    ∃ r, s.waiters w = some r ∧ r.ask = q.ask ∧ r.expiresAt = q.expiresAt ∧ r.stage.isOver = q.stage.isOver ∧
      ((q = r ∧ ¬ (r.stage = .waiting ∧ s.expiredOwn w r = true)) ∨
        (s.expiredOwn w r = true ∧ q.stage = .notified .expired)) := by
  simp only [step, Option.map_eq_some_iff] at h
  obtain ⟨r, hr, hq⟩ := h
  split at hq
  · rename_i hexp
    subst hq
    exact ⟨r, hr, rfl, rfl, by simp [hexp.1, Stage.isOver], .inr ⟨hexp.2, rfl⟩⟩
  · rename_i hexp
    subst hq
    exact ⟨r, hr, rfl, rfl, rfl, .inl ⟨rfl, hexp⟩⟩

theorem expire_waiters {w : Nat} {r : Waiter} (h : s.waiters w = some r) :
    ∃ q, (step s .expire).waiters w = some q ∧ q.ask = r.ask ∧ q.expiresAt = r.expiresAt ∧
      q.stage.isOver = r.stage.isOver := by
  simp only [step, h, Option.map_some, Option.some.injEq, exists_eq_left']
  split
  · rename_i hexp
    exact ⟨rfl, rfl, by simp [hexp.1, Stage.isOver]⟩
  · exact ⟨rfl, rfl, rfl⟩

theorem Standing.expire (hs : Standing s) : Standing (step s .expire) := by
  refine ⟨?_, ?_, ?_, ?_, ?_, ?_, ?_⟩
  · intro key o ho
    simp only [step, Option.filter_eq_some_iff] at ho
    obtain ⟨r, hr, hkey, hexp, hlive⟩ := hs.owned ho.1
    obtain ⟨q, hq, hask, hexp', hover⟩ := expire_waiters hr
    exact ⟨q, hq, by rw [hask, hkey], by rw [hexp', hexp], by rw [hover, hlive]⟩
  · intro v w r q hv hw hr hq hkey
    obtain ⟨r', hv', hask, _, hover, _⟩ := expire_some hv
    obtain ⟨q', hw', hask', _, hover', _⟩ := expire_some hw
    exact hs.sole hv' hw' (hover.trans hr) (hover'.trans hq) (by rw [hask, hask', hkey])
  · intro c k hc hfin
    obtain ⟨r, hr, hkey⟩ := hs.held hc hfin
    obtain ⟨q, hq, hask, _⟩ := expire_waiters hr
    exact ⟨q, hq, by rw [hask, hkey]⟩
  · intro c k w r hc hfin hw hlive hkey
    obtain ⟨r', hw', hask, _, hover, _⟩ := expire_some hw
    exact hs.about hc hfin hw' (hover.trans hlive) (by rw [hask, hkey])
  · intro c k r hc hsent hw
    obtain ⟨r', hw', _, _, _, ⟨rfl, _⟩ | ⟨_, hstage⟩⟩ := expire_some hw
    · exact hs.sent hc hsent hw'
    · simp [hstage]
  · intro w r hw hwait
    obtain ⟨r', hw', _, _, _, ⟨rfl, hfresh⟩ | ⟨_, hstage⟩⟩ := expire_some hw
    · rcases hs.stands hw' hwait with ⟨o, ho, howner, hsender⟩ | hcommand
      · have hlater : s.now < o.expiresAt := by
          simp only [hwait, true_and, State.expiredOwn, ho, howner, hsender, beq_self_eq_true, Bool.and_true,
            Bool.true_and, decide_eq_true_eq] at hfresh
          omega
        exact .inl ⟨o, by simp [step, ho, hlater], howner, hsender⟩
      · exact .inr hcommand
    · rw [hstage] at hwait
      cases hwait
  · intro w r e hw he
    obtain ⟨r', hw', hask, hexp, _, ⟨rfl, _⟩ | ⟨hown, hstage⟩⟩ := expire_some hw
    · exact hs.ended hw' he
    · rw [hstage] at he
      cases he
      -- The entry that expired is the waiter's own, of the same age.
      simp only [State.expiredOwn] at hown
      split at hown
      · rename_i o ho
        simp only [Bool.and_eq_true, beq_iff_eq, decide_eq_true_eq] at hown
        obtain ⟨p, hp, _, hpexp, _⟩ := hs.owned ho
        rw [hown.1.1, hw', Option.some.injEq] at hp
        subst hp
        show r.expiresAt ≤ s.now
        omega
      · cases hown

/-- One step keeps every prompt standing. -/
theorem Standing.step (hs : Standing s) (e : Event) (he : Unshared s e) : Standing (step s e) := by
  cases e with
  | publish w ask => exact hs.publish he
  | wake w => exact hs.wake w
  | timeout w => exact hs.timeout w
  | cleanup w => exact hs.cleanup w
  | confirm c key accepted => exact hs.confirm c key accepted
  | confirmSend c => exact hs.confirmSend c
  | confirmRemove c => exact hs.confirmRemove c
  | expire => exact hs.expire
  | tick elapsed => exact hs.tick elapsed

end

theorem Standing.start (now : Nat) : Standing (start now) := by
  refine ⟨?_, ?_, ?_, ?_, ?_, ?_, ?_⟩ <;> intros <;> contradiction

/-- **A prompt is resolved by its own answer or in its own time.** In every
run where nobody publishes under a key while another waiter of that key is
not over or a command for it is under way, every prompt that is not resolved
stands in the map with its sender, or a command holds the sender to answer it;
and every wait that has ended was ended by a command for its key or when its
time was up. -/
theorem prompts_stand {now : Nat} {s : State} (h : Run now Unshared s) {w : Nat} {r : Waiter} (hw : s.waiters w = some r) :
    (r.stage = .waiting → s.Pending w r) ∧ ∀ e, r.stage.ending = some e → s.Own r e := by
  have hs : Standing s := by
    clear hw
    induction h with
    | start => exact .start now
    | step _ e he ih => exact ih.step e he
  exact ⟨hs.stands hw, fun e he => hs.ended hw he⟩

/-! ## Who answers whom

Whatever is published under which key, an entry and a command are about the
waiter whose sender they have or had. -/

/-- What each waiter asked. -/
def State.asks (s : State) (w : Nat) : Option Ask := (s.waiters w).map (·.ask)

/-- How the wait of each waiter ended, where it has. -/
def State.endings (s : State) (w : Nat) : Option Ending := (s.waiters w).bind (·.stage.ending)

structure Addressed (s : State) : Prop where
  offered : ∀ {key o}, s.offers key = some o → ∃ ask, s.asks o.owner = some ask ∧ ask.key = key
  taken : ∀ {c k}, s.commands c = some k → ∃ ask, s.asks k.owner = some ask ∧ ask.key = k.key
  answered : ∀ {w c b}, s.endings w = some (.answered c b) → ∃ k, s.commands c = some k ∧ k.owner = w ∧ k.accepted = b

section

variable {s : State}

theorem setStage_asks {w : Nat} {stage : Stage} : (s.setStage w stage).asks = s.asks := by
  funext v
  simp only [State.asks, State.setStage]
  split
  · cases s.waiters v <;> rfl
  · rfl

theorem setStage_endings {w v : Nat} {stage : Stage} {e : Ending} (h : (s.setStage w stage).endings v = some e) :
    s.endings v = some e ∨ (v = w ∧ stage.ending = some e) := by
  simp only [State.endings, State.setStage] at h
  split at h
  · rename_i hv
    cases hw : s.waiters v with
    | none => simp [hw] at h
    | some r => exact .inr ⟨hv, by simpa [hw] using h⟩
  · exact .inl h

theorem notify_asks {w : Nat} {e : Ending} : (s.notify w e).asks = s.asks := by
  unfold State.notify
  split
  · exact setStage_asks
  · rfl

theorem notify_endings {w v : Nat} {e e' : Ending} (h : (s.notify w e).endings v = some e') :
    s.endings v = some e' ∨ (v = w ∧ e' = e) := by
  unfold State.notify at h
  split at h
  · rcases setStage_endings h with h | ⟨hv, he⟩
    · exact .inl h
    · exact .inr ⟨hv, by cases he; rfl⟩
  · exact .inl h

theorem notify_offers {w : Nat} {e : Ending} : (s.notify w e).offers = s.offers := by
  unfold State.notify
  split <;> rfl

theorem notify_commands {w : Nat} {e : Ending} : (s.notify w e).commands = s.commands := by
  unfold State.notify
  split <;> rfl

theorem dropOffer_asks {key : String} : (s.dropOffer key).asks = s.asks := by
  unfold State.dropOffer
  split
  · split
    · exact notify_asks
    · rfl
  · rfl

theorem dropOffer_endings {key : String} {v : Nat} {e : Ending} (h : (s.dropOffer key).endings v = some e)
    (hne : e ≠ .senderLost) : s.endings v = some e := by
  unfold State.dropOffer at h
  split at h
  · split at h
    · rcases notify_endings h with h | ⟨_, he⟩
      · exact h
      · exact absurd he hne
    · exact h
  · exact h

theorem dropOffer_commands {key : String} : (s.dropOffer key).commands = s.commands := by
  unfold State.dropOffer
  split
  · split
    · exact notify_commands
    · rfl
  · rfl

theorem dropOffer_offers {key key' : String} {o : Offer} (h : (s.dropOffer key).offers key' = some o) :
    s.offers key' = some o := by
  unfold State.dropOffer at h
  split at h
  · split at h
    all_goals
      first | rw [notify_offers] at h | skip
      simp only [State.setOffer] at h
      split at h
      · cases h
      · exact h
  · exact h

/-- Only a publication adds a waiter, and no waiter changes what it asks. -/
theorem step_asks (s : State) (e : Event) :
    (step s e).asks = s.asks ∨ ∃ w ask, e = .publish w ask ∧ s.waiters w = none ∧
      (step s e).asks = fun v => if v = w then some ask else s.asks v := by
  cases e with
  | publish w ask =>
    simp only [step]
    split
    · exact .inl rfl
    · rename_i hw
      refine .inr ⟨w, ask, rfl, hw, ?_⟩
      funext v
      simp only [State.asks]
      split
      · rfl
      · exact congrFun dropOffer_asks v
  | wake w =>
    simp only [step]
    split
    · exact .inl setStage_asks
    · exact .inl rfl
  | timeout w =>
    simp only [step]
    split
    · split
      · exact .inl setStage_asks
      · exact .inl rfl
    · exact .inl rfl
  | cleanup w =>
    simp only [step]
    split
    · exact .inl (setStage_asks.trans dropOffer_asks)
    · exact .inl rfl
  | confirm c key accepted =>
    simp only [step]
    split
    · split <;> exact .inl rfl
    · exact .inl rfl
  | confirmSend c =>
    simp only [step]
    split
    · split
      · exact .inl notify_asks
      · exact .inl rfl
    · exact .inl rfl
  | confirmRemove c =>
    simp only [step]
    split
    · split
      · exact .inl dropOffer_asks
      · exact .inl rfl
    · exact .inl rfl
  | expire =>
    refine .inl ?_
    funext v
    simp only [step, State.asks, Option.map_map]
    congr 1
    funext r
    simp only [Function.comp]
    split <;> rfl
  | tick elapsed => exact .inl rfl

theorem step_asks_some {w : Nat} {ask : Ask} (e : Event) (h : s.asks w = some ask) : (step s e).asks w = some ask := by
  rcases step_asks s e with heq | ⟨v, a, _, hv, heq⟩
  · rw [heq]
    exact h
  · rw [heq]
    have hne : w ≠ v := by
      intro hwv
      simp [State.asks, hwv, hv] at h
    simp only [if_neg hne]
    exact h

/-- What a step does to the command under `c`: `transfer_confirm` takes the
sender of an entry, sends the answer, or removes the entry. -/
inductive CommandMove (s : State) (c : Nat) : Event → Command → Prop
  | took {o : Offer} {key : String} {accepted : Bool} (hc : s.commands c = none) (ho : s.offers key = some o)
      (hsender : o.hasSender = true) :
      CommandMove s c (.confirm c key accepted) { key, accepted, owner := o.owner, stage := .holding }
  | sent {k : Command} (hc : s.commands c = some k) (hk : k.stage = .holding) :
      CommandMove s c (.confirmSend c) { k with stage := .sent }
  | finished {k : Command} (hc : s.commands c = some k) (hk : k.stage = .sent) :
      CommandMove s c (.confirmRemove c) { k with stage := .finished }

/-- A step moves one command, or none. -/
theorem step_commands_eq (s : State) (e : Event) :
    (step s e).commands = s.commands ∨ ∃ c k, CommandMove s c e k ∧
      (step s e).commands = fun d => if d = c then some k else s.commands d := by
  cases e with
  | publish w ask =>
    simp only [step]
    split
    · exact .inl rfl
    · exact .inl dropOffer_commands
  | wake w =>
    simp only [step]
    split <;> exact .inl rfl
  | timeout w =>
    simp only [step]
    split
    · split <;> exact .inl rfl
    · exact .inl rfl
  | cleanup w =>
    simp only [step]
    split
    · exact .inl dropOffer_commands
    · exact .inl rfl
  | confirm c key accepted =>
    simp only [step]
    split
    · rename_i o hc ho
      split
      · rename_i hsender
        exact .inr ⟨c, _, .took hc ho hsender, rfl⟩
      · exact .inl rfl
    · exact .inl rfl
  | confirmSend c =>
    simp only [step]
    split
    · rename_i k hc
      split
      · rename_i hk
        exact .inr ⟨c, _, .sent hc hk, by simp only [State.setCommand, notify_commands]⟩
      · exact .inl rfl
    · exact .inl rfl
  | confirmRemove c =>
    simp only [step]
    split
    · rename_i k hc
      split
      · rename_i hk
        exact .inr ⟨c, _, .finished hc hk, by simp only [State.setCommand, dropOffer_commands]⟩
      · exact .inl rfl
    · exact .inl rfl
  | expire => exact .inl rfl
  | tick elapsed => exact .inl rfl

/-- A command comes from `transfer_confirm` with the sender of an entry, and
stays about it. -/
theorem step_commands {e : Event} {c : Nat} {k : Command} (h : (step s e).commands c = some k) :
    (∃ k', s.commands c = some k' ∧ k'.key = k.key ∧ k'.accepted = k.accepted ∧ k'.owner = k.owner) ∨
      ∃ o, e = .confirm c k.key k.accepted ∧ s.commands c = none ∧ s.offers k.key = some o ∧ o.hasSender = true ∧
        o.owner = k.owner := by
  rcases step_commands_eq s e with heq | ⟨d, l, hmove, heq⟩
  · rw [heq] at h
    exact .inl ⟨k, h, rfl, rfl, rfl⟩
  · rw [heq] at h
    by_cases hcd : c = d
    · subst hcd
      simp only [if_true, Option.some.injEq] at h
      subst h
      cases hmove with
      | took hc ho hsender => exact .inr ⟨_, rfl, hc, ho, hsender, rfl⟩
      | sent hc _ => exact .inl ⟨_, hc, rfl, rfl, rfl⟩
      | finished hc _ => exact .inl ⟨_, hc, rfl, rfl, rfl⟩
    · simp only [if_neg hcd] at h
      exact .inl ⟨k, h, rfl, rfl, rfl⟩

/-- A command that is there stays, with its answer. -/
theorem step_commands_some {e : Event} {c : Nat} {k : Command} (h : s.commands c = some k) :
    ∃ k', (step s e).commands c = some k' ∧ k'.key = k.key ∧ k'.accepted = k.accepted ∧ k'.owner = k.owner := by
  rcases step_commands_eq s e with heq | ⟨d, l, hmove, heq⟩
  · exact ⟨k, by rw [heq, h], rfl, rfl, rfl⟩
  · by_cases hcd : c = d
    · subst hcd
      refine ⟨l, by simp [heq], ?_⟩
      cases hmove with
      | took hc _ _ => simp [h] at hc
      | sent hc _ =>
        rw [h, Option.some.injEq] at hc
        subst hc
        exact ⟨rfl, rfl, rfl⟩
      | finished hc _ =>
        rw [h, Option.some.injEq] at hc
        subst hc
        exact ⟨rfl, rfl, rfl⟩
    · exact ⟨k, by simp [heq, hcd, h], rfl, rfl, rfl⟩

/-- A command that holds a sender has just taken it, or held it before and is
not the one that sends. -/
theorem step_holding {e : Event} {c : Nat} {k : Command} (h : (step s e).commands c = some k) (hk : k.stage = .holding) :
    (s.commands c = some k ∧ e ≠ .confirmSend c) ∨ s.commands c = none := by
  rcases step_commands_eq s e with heq | ⟨d, l, hmove, heq⟩
  · rw [heq] at h
    refine .inl ⟨h, ?_⟩
    intro he
    subst he
    simp only [step, h, if_pos hk, State.setCommand] at heq
    have hc := congrFun heq c
    simp only [if_true, h, Option.some.injEq] at hc
    rw [← hc] at hk
    cases hk
  · rw [heq] at h
    by_cases hcd : c = d
    · subst hcd
      simp only [if_true, Option.some.injEq] at h
      subst h
      cases hmove with
      | took hc _ _ => exact .inr hc
      | sent _ _ => cases hk
      | finished _ _ => cases hk
    · simp only [if_neg hcd] at h
      refine .inl ⟨h, ?_⟩
      intro he
      subst he
      cases hmove
      exact hcd rfl

/-- An entry comes from a publication under its key, keeps its owner, and does
not get its sender back. -/
theorem step_offers {e : Event} {key : String} {o : Offer} (h : (step s e).offers key = some o) :
    (∃ o', s.offers key = some o' ∧ o'.owner = o.owner ∧ (o.hasSender = true → o' = o)) ∨
      ∃ ask, e = .publish o.owner ask ∧ s.waiters o.owner = none ∧ ask.key = key := by
  cases e with
  | publish w ask =>
    simp only [step] at h
    split at h
    · exact .inl ⟨o, h, rfl, fun _ => rfl⟩
    · rename_i hw
      simp only [State.setOffer] at h
      split at h
      · rename_i hkey
        cases h
        exact .inr ⟨ask, rfl, hw, hkey.symm⟩
      · exact .inl ⟨o, dropOffer_offers h, rfl, fun _ => rfl⟩
  | wake w =>
    simp only [step] at h
    split at h <;> exact .inl ⟨o, h, rfl, fun _ => rfl⟩
  | timeout w =>
    simp only [step] at h
    split at h
    · split at h <;> exact .inl ⟨o, h, rfl, fun _ => rfl⟩
    · exact .inl ⟨o, h, rfl, fun _ => rfl⟩
  | cleanup w =>
    simp only [step] at h
    split at h
    · exact .inl ⟨o, dropOffer_offers h, rfl, fun _ => rfl⟩
    · exact .inl ⟨o, h, rfl, fun _ => rfl⟩
  | confirm c key' accepted =>
    simp only [step] at h
    split at h
    · rename_i o' _ ho'
      split at h
      · simp only [State.setCommand, State.setOffer] at h
        split at h
        · rename_i hkey
          cases h
          exact .inl ⟨o', hkey ▸ ho', rfl, nofun⟩
        · exact .inl ⟨o, h, rfl, fun _ => rfl⟩
      · exact .inl ⟨o, h, rfl, fun _ => rfl⟩
    · exact .inl ⟨o, h, rfl, fun _ => rfl⟩
  | confirmSend c =>
    simp only [step] at h
    split at h
    · split at h
      · exact .inl ⟨o, by simpa only [State.setCommand, notify_offers] using h, rfl, fun _ => rfl⟩
      · exact .inl ⟨o, h, rfl, fun _ => rfl⟩
    · exact .inl ⟨o, h, rfl, fun _ => rfl⟩
  | confirmRemove c =>
    simp only [step] at h
    split at h
    · split at h
      · exact .inl ⟨o, dropOffer_offers h, rfl, fun _ => rfl⟩
      · exact .inl ⟨o, h, rfl, fun _ => rfl⟩
    · exact .inl ⟨o, h, rfl, fun _ => rfl⟩
  | expire =>
    simp only [step, Option.filter_eq_some_iff] at h
    exact .inl ⟨o, h.1, rfl, fun _ => rfl⟩
  | tick elapsed => exact .inl ⟨o, h, rfl, fun _ => rfl⟩

/-- A wait that ends by an answer is ended by the command that took its
sender. -/
theorem step_endings {e : Event} {w c : Nat} {b : Bool} (h : (step s e).endings w = some (.answered c b)) :
    s.endings w = some (.answered c b) ∨ ∃ k, s.commands c = some k ∧ k.owner = w ∧ k.accepted = b := by
  cases e with
  | publish v ask =>
    simp only [step] at h
    split at h
    · exact .inl h
    · simp only [State.endings] at h
      split at h
      · cases h
      · exact .inl (dropOffer_endings h nofun)
  | wake v =>
    simp only [step] at h
    split at h
    · rename_i e' hv
      rcases setStage_endings h with h | ⟨rfl, he⟩
      · exact .inl h
      · exact .inl (by simpa [State.endings, hv, Stage.ending] using he)
    · exact .inl h
  | timeout v =>
    simp only [step] at h
    split at h
    · split at h
      · rcases setStage_endings h with h | ⟨_, he⟩
        · exact .inl h
        · cases he
      · exact .inl h
    · exact .inl h
  | cleanup v =>
    simp only [step] at h
    split at h
    · rename_i e' hv
      rcases setStage_endings h with h | ⟨rfl, he⟩
      · exact .inl (dropOffer_endings h nofun)
      · exact .inl (by simpa [State.endings, hv, Stage.ending] using he)
    · exact .inl h
  | confirm d key accepted =>
    simp only [step] at h
    split at h
    · split at h <;> exact .inl h
    · exact .inl h
  | confirmSend d =>
    simp only [step] at h
    split at h
    · rename_i k hk
      split at h
      · rcases notify_endings h with h | ⟨hw, he⟩
        · exact .inl h
        · cases he
          exact .inr ⟨k, hk, hw.symm, rfl⟩
      · exact .inl h
    · exact .inl h
  | confirmRemove d =>
    simp only [step] at h
    split at h
    · split at h
      · exact .inl (dropOffer_endings h nofun)
      · exact .inl h
    · exact .inl h
  | expire =>
    obtain ⟨q, hq, he⟩ := Option.bind_eq_some_iff.mp h
    obtain ⟨r, hr, _, _, _, ⟨rfl, _⟩ | ⟨_, hstage⟩⟩ := expire_some hq
    · exact .inl (by simpa [State.endings, hr] using he)
    · rw [hstage] at he
      cases he
  | tick elapsed => exact .inl h

theorem Addressed.step (hs : Addressed s) (e : Event) : Addressed (step s e) := by
  refine ⟨?_, ?_, ?_⟩
  · intro key o ho
    rcases step_offers ho with ⟨o', ho', howner, _⟩ | ⟨ask, rfl, hw, hkey⟩
    · obtain ⟨ask, hask, hkey⟩ := hs.offered ho'
      exact ⟨ask, step_asks_some e (howner ▸ hask), hkey⟩
    · exact ⟨ask, by simp [Prompts.step, hw, State.asks], hkey⟩
  · intro c k hk
    rcases step_commands hk with ⟨k', hk', hkey, _, howner⟩ | ⟨o, rfl, _, ho, _, howner⟩
    · obtain ⟨ask, hask, hkey'⟩ := hs.taken hk'
      exact ⟨ask, step_asks_some e (howner ▸ hask), hkey'.trans hkey⟩
    · obtain ⟨ask, hask, hkey⟩ := hs.offered ho
      exact ⟨ask, step_asks_some _ (howner ▸ hask), hkey⟩
  · intro w c b hend
    have hcommand : ∃ k, s.commands c = some k ∧ k.owner = w ∧ k.accepted = b := by
      rcases step_endings hend with hend | hcommand
      · exact hs.answered hend
      · exact hcommand
    obtain ⟨k, hk, howner, haccepted⟩ := hcommand
    obtain ⟨k', hk', _, haccepted', howner'⟩ := step_commands_some (e := e) hk
    exact ⟨k', hk', howner'.trans howner, haccepted'.trans haccepted⟩

end

theorem Addressed.start (now : Nat) : Addressed (start now) := by
  refine ⟨?_, ?_, ?_⟩ <;> intros <;> contradiction

/-! ## An example -/

def sampleBytes : Bytes := List.replicate 16 7

def sampleAsk : Ask := .transfer ⟨sampleBytes, rfl⟩

theorem Run.events {now : Nat} {may : State → Event → Prop} {s : State} (h : Run now may s) (es : List Event)
    (hes : ∀ e ∈ es, ∀ s, may s e) : Run now may (es.foldl Prompts.step s) := by
  induction es generalizing s with
  | nil => exact h
  | cons e es ih => exact ih (h.step e (hes e (by simp) s)) fun e' he' => hes e' (by simp [he'])

/-- A connection offers and the user says yes. -/
theorem prompts_stand_answered :
    ∃ s r, Run 0 Unshared s ∧ s.waiters 0 = some r ∧ r.stage = .over (.answered 0 true) ∧ s.Own r (.answered 0 true) := by
  have hpublished : Run 0 Unshared (step (start 0) (.publish 0 sampleAsk)) := .step .start _ ⟨nofun, nofun⟩
  have hrun := hpublished.events
    [.tick 5, .confirm 0 sampleAsk.key true, .confirmSend 0, .confirmRemove 0, .wake 0, .cleanup 0] (by simp [Unshared])
  refine ⟨_, { ask := sampleAsk, expiresAt := sampleAsk.lifetime, stage := .over (.answered 0 true) }, hrun, ?_, rfl, ?_⟩
  · rfl
  · exact (prompts_stand hrun (w := 0) (r := ⟨sampleAsk, sampleAsk.lifetime, .over (.answered 0 true)⟩) rfl).2 _ rfl

/-- Of two connections that offer under the same id, the first loses its
offer to the second; and an offer that comes again under the same id, after
the user declined it, is lost to the second lock of that answer. -/
theorem shared_key_loses_prompt :
    (∃ s r, Run 0 (fun _ _ => True) s ∧ s.waiters 0 = some r ∧ ¬ ∀ e, r.stage.ending = some e → s.Own r e) ∧
      ∃ s r, Run 0 (fun _ _ => True) s ∧ s.waiters 1 = some r ∧ ¬ ∀ e, r.stage.ending = some e → s.Own r e := by
  constructor
  · have hrun : Run 0 (fun _ _ => True) _ := Run.start.events [.publish 0 sampleAsk, .publish 1 sampleAsk] (by simp)
    refine ⟨_, { ask := sampleAsk, expiresAt := sampleAsk.lifetime, stage := .notified .senderLost }, hrun, rfl, fun h => ?_⟩
    exact h .senderLost rfl
  · have hrun : Run 0 (fun _ _ => True) _ := Run.start.events
      [.publish 0 sampleAsk, .confirm 0 sampleAsk.key false, .confirmSend 0, .wake 0, .cleanup 0, .publish 1 sampleAsk,
        .confirmRemove 0] (by simp)
    refine ⟨_, { ask := sampleAsk, expiresAt := sampleAsk.lifetime, stage := .notified .senderLost }, hrun, rfl, fun h => ?_⟩
    exact h .senderLost rfl

end Nxfr.Prompts

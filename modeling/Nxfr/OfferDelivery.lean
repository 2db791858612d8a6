/-
Which offers a watcher is shown and how often an offer is answered, over any
interleaving of publications, registrations, commands and timers.

A publisher inserts and then broadcasts; a watcher adds its channel and then
replays. So an offer that a watcher does not find when it replays is inserted
later, and then the watcher's channel is already there when the offer is
broadcast (`Informed`). A sender is taken out of the map once, by the command
that answers it or by the expiry task (`Single`).
-/
import Nxfr.PromptFacts
import Nxfr.Watchers
import Nxfr.History

namespace Nxfr.Watchers

open History

/-- The id an offer is published under. -/
def Event.publishes : Event → Option String
  | .prompt (.publish _ ask) => some ask.key
  | _ => none

/-- Whether an event sends something to the watchers. -/
def Event.broadcasts : Event → Bool
  | .broadcast _ | .tell => true
  | _ => false

/-- Whenever something is sent to the watchers, the channel of this one is
neither full nor closed. -/
def Accepts (c : Nat) (s : State) (e : Event) : Prop :=
  e.broadcasts = true → ∀ k, s.clients c = some k → k.accepts = true

/-- A client that has added its channel and not yet replayed the offers. -/
def State.Registering (s : State) (c : Nat) : Prop :=
  ∃ k, s.clients c = some k ∧ k.replayed = false ∧ k.gone = false

/-- An offer nobody has answered: its connection waits, and no command has
its sender. -/
def State.Unresolved (s : State) (w : Nat) : Prop :=
  (∃ r, s.prompts.waiters w = some r ∧ r.stage = .waiting) ∧
    ∀ d k, s.prompts.commands d = some k → k.owner = w → k.stage ≠ .holding

/-- What a client was shown. -/
def State.shownTo (s : State) (c : Nat) : List Notice := match s.clients c with
  | some k => k.shown
  | none => []

/-! ## The sender of an offer -/

section

variable {s : State} {key : String} {w c : Nat}

theorem respondTo_some : s.respondTo key = some w ↔ ∃ o, s.prompts.offers key = some o ∧ o.hasSender = true ∧ o.owner = w := by
  unfold State.respondTo
  split
  · rename_i o ho
    by_cases hsender : o.hasSender = true
    · simp [ho, hsender]
    · simp [ho, hsender]
  · rename_i ho
    simp [ho]

theorem expired_some (h : s.expired key = some w) :
    s.respondTo key = some w ∧ ∀ o, s.prompts.offers key = some o → o.expiresAt ≤ s.prompts.now := by
  unfold State.expired at h
  split at h
  · rename_i o ho
    split at h
    · rename_i hexp
      simp only [Bool.and_eq_true, decide_eq_true_eq] at hexp
      simp only [Option.some.injEq] at h
      refine ⟨respondTo_some.mpr ⟨o, ho, hexp.1, h⟩, ?_⟩
      intro o' ho'
      rw [ho, Option.some.injEq] at ho'
      exact ho' ▸ hexp.2
    · cases h
  · cases h

/-- Only a step of the prompts touches what is remembered about them. -/
theorem step_other {e : Event} (h : ∀ pe, e ≠ .prompt pe) :
    (step s e).prompts = s.prompts ∧ (step s e).keys = s.keys ∧ (step s e).used = s.used ∧
      (step s e).replies = s.replies := by
  cases e with
  | prompt pe => exact absurd rfl (h pe)
  | broadcast v =>
    simp only [step]
    split <;> exact ⟨rfl, rfl, rfl, rfl⟩
  | tell => exact ⟨rfl, rfl, rfl, rfl⟩
  | register d =>
    simp only [step]
    split <;> exact ⟨rfl, rfl, rfl, rfl⟩
  | replay d =>
    simp only [step]
    split
    · split <;> exact ⟨rfl, rfl, rfl, rfl⟩
    · exact ⟨rfl, rfl, rfl, rfl⟩
  | forward d =>
    simp only [step]
    split
    · split
      · split <;> exact ⟨rfl, rfl, rfl, rfl⟩
      · exact ⟨rfl, rfl, rfl, rfl⟩
    · exact ⟨rfl, rfl, rfl, rfl⟩
  | leave d =>
    simp only [step]
    split <;> exact ⟨rfl, rfl, rfl, rfl⟩

theorem step_prompt {pe : Prompts.Event} (h : s.mayHappen pe = true) :
    (step s (.prompt pe)).prompts = Prompts.step s.prompts pe ∧ (step s (.prompt pe)).used = s.used ++ s.sends pe ∧
      (step s (.prompt pe)).keys = (s.published pe).keys := by
  refine ⟨by simp [step, h], by simp [step, h], ?_⟩
  simp only [step, h, if_true, State.replied]
  split <;> rfl

theorem published_replies {pe : Prompts.Event} : (s.published pe).replies = s.replies := by
  unfold State.published
  split
  · split <;> rfl
  · rfl

theorem published_keys {pe : Prompts.Event} (h : key ∈ s.keys) : key ∈ (s.published pe).keys := by
  unfold State.published
  split
  · split
    · exact h
    · exact List.mem_insert_of_mem h
  · exact h

theorem published_keys_nodup {pe : Prompts.Event} (h : s.keys.Nodup) : (s.published pe).keys.Nodup := by
  unfold State.published
  split
  · split
    · exact h
    · exact h.insert
  · exact h

/-- A sender in the map was there before, or is that of a new offer. -/
theorem respondTo_step {s' : State} {pe : Prompts.Event} (hs' : s'.prompts = Prompts.step s.prompts pe)
    (h : s'.respondTo key = some w) : s.respondTo key = some w ∨ s.prompts.asks w = none := by
  obtain ⟨o, ho, hsender, howner⟩ := respondTo_some.mp h
  rw [hs'] at ho
  rcases Prompts.step_offers ho with ⟨o', ho', _, hsame⟩ | ⟨ask, _, hw, _⟩
  · rw [hsame hsender] at ho'
    exact .inl (respondTo_some.mpr ⟨o, ho', hsender, howner⟩)
  · rw [howner] at hw
    exact .inr (by simp [Prompts.State.asks, hw])

theorem respondTo_confirm {s' : State} {accepted : Bool}
    (hs' : s'.prompts = Prompts.step s.prompts (.confirm c key accepted)) (hc : s.prompts.commands c = none)
    (h : s.respondTo key = some w) : s'.respondTo key = none := by
  obtain ⟨o, ho, hsender, _⟩ := respondTo_some.mp h
  have hoffer : s'.prompts.offers key = some { o with hasSender := false } := by
    simp [hs', Prompts.step, hc, ho, hsender, Prompts.State.setOffer, Prompts.State.setCommand]
  simp [State.respondTo, hoffer]

theorem respondTo_expire {s' : State} (hs' : s'.prompts = Prompts.step s.prompts .expire) (h : s.expired key = some w) :
    s'.respondTo key = none := by
  obtain ⟨hw, hold⟩ := expired_some h
  obtain ⟨o, ho, _, _⟩ := respondTo_some.mp hw
  have hexp := hold o ho
  have hoffer : s'.prompts.offers key = none := by
    simp only [hs', Prompts.step, ho, Option.filter_some]
    rw [if_neg]
    simp only [decide_eq_true_eq]
    omega
  simp [State.respondTo, hoffer]

/-- Whoever's channel a step sends on, its sender was held by a command that
stops holding it, or was in the map and leaves it. -/
theorem mem_sends {pe : Prompts.Event} (hw : w ∈ s.sends pe) :
    (∃ c k, pe = .confirmSend c ∧ s.prompts.commands c = some k ∧ k.stage = .holding ∧ k.owner = w) ∨
      ∃ key, pe = .expire ∧ s.expired key = some w := by
  unfold State.sends at hw
  split at hw
  · rename_i c
    split at hw
    · rename_i k hc
      split at hw
      · rename_i hk
        exact .inl ⟨c, k, rfl, hc, hk, (List.mem_singleton.mp hw).symm⟩
      · simp at hw
    · simp at hw
  · obtain ⟨key, _, hkey⟩ := List.mem_filterMap.mp hw
    exact .inr ⟨key, rfl, hkey⟩
  · simp at hw

end

/-- A sender is in one place: in the map, or taken by one command, or used;
`keys` has every key of the map. -/
structure Single (s : State) : Prop where
  addressed : Prompts.Addressed s.prompts
  known : ∀ {key o}, s.prompts.offers key = some o → key ∈ s.keys
  keys : s.keys.Nodup
  sole : ∀ {c d k l}, s.prompts.commands c = some k → s.prompts.commands d = some l → k.owner = l.owner → c = d
  taken : ∀ {c k key}, s.prompts.commands c = some k → s.respondTo key ≠ some k.owner
  spent : ∀ {w key}, w ∈ s.used → s.respondTo key ≠ some w
  sent : ∀ {w c k}, w ∈ s.used → s.prompts.commands c = some k → k.owner = w → k.stage ≠ .holding
  asked : ∀ {w}, w ∈ s.used → s.prompts.asks w ≠ none
  nodup : s.used.Nodup

namespace Single

variable {s s' : State} {pe : Prompts.Event}

theorem unique (h : Single s) {key key' : String} {w : Nat} (hkey : s.respondTo key = some w)
    (hkey' : s.respondTo key' = some w) : key = key' := by
  obtain ⟨o, ho, _, howner⟩ := respondTo_some.mp hkey
  obtain ⟨o', ho', _, howner'⟩ := respondTo_some.mp hkey'
  obtain ⟨ask, hask, hk⟩ := h.addressed.offered ho
  obtain ⟨ask', hask', hk'⟩ := h.addressed.offered ho'
  rw [howner, ← howner', hask', Option.some.injEq] at hask
  rw [← hk, ← hk', hask]

theorem asks_respondTo (h : Single s) {key : String} {w : Nat} (hkey : s.respondTo key = some w) : s.prompts.asks w ≠ none := by
  obtain ⟨o, ho, _, howner⟩ := respondTo_some.mp hkey
  obtain ⟨ask, hask, _⟩ := h.addressed.offered ho
  rw [← howner, hask]
  simp

theorem asks_command (h : Single s) {c : Nat} {k : Prompts.Command} (hc : s.prompts.commands c = some k) :
    s.prompts.asks k.owner ≠ none := by
  obtain ⟨ask, hask, _⟩ := h.addressed.taken hc
  rw [hask]
  simp

theorem sends_nodup (h : Single s) : (s.sends pe).Nodup := by
  unfold State.sends
  split
  · split
    · split <;> simp
    · simp
  · refine h.keys.filterMap ?_
    intro key key' w hw hw'
    exact h.unique (expired_some hw).1 (expired_some hw').1
  · simp

theorem sends_fresh (h : Single s) {w : Nat} (hw : w ∈ s.sends pe) : w ∉ s.used := by
  intro hused
  rcases mem_sends hw with ⟨c, k, _, hc, hk, howner⟩ | ⟨key, _, hkey⟩
  · exact h.sent hused hc howner hk
  · exact h.spent hused (expired_some hkey).1

theorem asks_sends (h : Single s) {w : Nat} (hw : w ∈ s.sends pe) : s.prompts.asks w ≠ none := by
  rcases mem_sends hw with ⟨c, k, _, hc, _, rfl⟩ | ⟨key, _, hkey⟩
  · exact h.asks_command hc
  · exact h.asks_respondTo (expired_some hkey).1

/-- A step of the prompts. -/
theorem prompt (h : Single s) (hprompts : s'.prompts = Prompts.step s.prompts pe) (hused : s'.used = s.used ++ s.sends pe)
    (hkeys : s'.keys = (s.published pe).keys) : Single s' := by
  have asks : ∀ {w}, s.prompts.asks w ≠ none → s'.prompts.asks w ≠ none := by
    intro w hw
    obtain ⟨ask, hask⟩ := Option.ne_none_iff_exists'.mp hw
    rw [hprompts, Prompts.step_asks_some pe hask]
    simp
  refine ⟨?_, ?_, ?_, ?_, ?_, ?_, ?_, ?_, ?_⟩
  · rw [hprompts]
    exact h.addressed.step pe
  · intro key o ho
    rw [hprompts] at ho
    rw [hkeys]
    rcases Prompts.step_offers ho with ⟨o', ho', _, _⟩ | ⟨ask, rfl, hw, rfl⟩
    · exact published_keys (h.known ho')
    · simp [State.published, hw]
  · rw [hkeys]
    exact published_keys_nodup h.keys
  · intro c d k l hc hd howner
    rw [hprompts] at hc hd
    rcases Prompts.step_commands hc with ⟨k', hc', _, _, hk⟩ | ⟨o, rfl, hnone, ho, hsender, hk⟩
    · rcases Prompts.step_commands hd with ⟨l', hd', _, _, hl⟩ | ⟨o, rfl, _, ho, hsender, hl⟩
      · exact h.sole hc' hd' (by rw [hk, hl, howner])
      · exact absurd (respondTo_some.mpr ⟨o, ho, hsender, by rw [hl, ← howner, hk]⟩) (h.taken hc')
    · rcases Prompts.step_commands hd with ⟨l', hd', _, _, hl⟩ | ⟨_, heq, _⟩
      · exact absurd (respondTo_some.mpr ⟨o, ho, hsender, by rw [hk, howner, hl]⟩) (h.taken hd')
      · exact (Prompts.Event.confirm.inj heq).1
  · intro c k key hc hkey
    rw [hprompts] at hc
    rcases Prompts.step_commands hc with ⟨k', hc', _, _, hk⟩ | ⟨o, rfl, hnone, ho, hsender, hk⟩
    · rw [← hk] at hkey
      rcases respondTo_step hprompts hkey with hold | hnew
      · exact h.taken hc' hold
      · exact h.asks_command hc' hnew
    · have htaken : s.respondTo k.key = some k.owner := respondTo_some.mpr ⟨o, ho, hsender, hk⟩
      rcases respondTo_step hprompts hkey with hold | hnew
      · rw [h.unique hold htaken, respondTo_confirm hprompts hnone htaken] at hkey
        cases hkey
      · exact h.asks_respondTo htaken hnew
  · intro w key hw hkey
    rw [hused, List.mem_append] at hw
    rcases respondTo_step hprompts hkey with hold | hnew
    · rcases hw with hw | hw
      · exact h.spent hw hold
      · rcases mem_sends hw with ⟨c, k, _, hc, _, rfl⟩ | ⟨key', rfl, hexp⟩
        · exact h.taken hc hold
        · rw [h.unique hold (expired_some hexp).1, respondTo_expire hprompts hexp] at hkey
          cases hkey
    · rcases hw with hw | hw
      · exact h.asked hw hnew
      · exact h.asks_sends hw hnew
  · intro w c k hw hc howner hk
    rw [hused, List.mem_append] at hw
    rw [hprompts] at hc
    rcases Prompts.step_holding hc hk with ⟨hc', hne⟩ | hnone
    · rcases hw with hw | hw
      · exact h.sent hw hc' howner hk
      · rcases mem_sends hw with ⟨d, l, rfl, hd, _, hl⟩ | ⟨key, _, hexp⟩
        · exact hne (by rw [h.sole hc' hd (by rw [howner, hl])])
        · exact h.taken hc' (howner ▸ (expired_some hexp).1)
    · rcases Prompts.step_commands hc with ⟨k', hc', _⟩ | ⟨o, rfl, _, ho, hsender, ho'⟩
      · simp [hnone] at hc'
      · rcases hw with hw | hw
        · exact h.spent hw (respondTo_some.mpr ⟨o, ho, hsender, ho'.trans howner⟩)
        · simp [State.sends] at hw
  · intro w hw
    rw [hused, List.mem_append] at hw
    rcases hw with hw | hw
    · exact asks (h.asked hw)
    · exact asks (h.asks_sends hw)
  · rw [hused]
    refine h.nodup.append h.sends_nodup ?_
    intro w hw hsends
    exact h.sends_fresh hsends hw

theorem congr (h : Single s) (hprompts : s'.prompts = s.prompts) (hkeys : s'.keys = s.keys) (hused : s'.used = s.used) :
    Single s' := by
  have hrespond : ∀ key, s'.respondTo key = s.respondTo key := by
    intro key
    simp only [State.respondTo, hprompts]
  refine ⟨?_, ?_, ?_, ?_, ?_, ?_, ?_, ?_, ?_⟩
  · exact hprompts ▸ h.addressed
  · intro key o ho
    rw [hprompts] at ho
    exact hkeys ▸ h.known ho
  · exact hkeys ▸ h.keys
  · intro c d k l hc hd
    rw [hprompts] at hc hd
    exact h.sole hc hd
  · intro c k key hc
    rw [hprompts] at hc
    exact hrespond key ▸ h.taken hc
  · intro w key hw
    exact hrespond key ▸ h.spent (hused ▸ hw)
  · intro w c k hw hc
    rw [hprompts] at hc
    exact h.sent (hused ▸ hw) hc
  · intro w hw
    exact hprompts ▸ h.asked (hused ▸ hw)
  · exact hused ▸ h.nodup

theorem step (h : Single s) (e : Event) : Single (step s e) := by
  by_cases he : ∃ pe, e = .prompt pe
  · obtain ⟨pe, rfl⟩ := he
    by_cases hmay : s.mayHappen pe = true
    · obtain ⟨hprompts, hused, hkeys⟩ := step_prompt hmay
      exact h.prompt hprompts hused hkeys
    · simpa [Watchers.step, hmay] using h
  · obtain ⟨hprompts, hkeys, hused, _⟩ := step_other (s := s) fun pe hpe => he ⟨pe, hpe⟩
    exact h.congr hprompts hkeys hused

theorem start (now : Nat) : Single (start now) := by
  refine ⟨.start now, ?_, .nil, ?_, ?_, ?_, ?_, ?_, .nil⟩
  · intro key o ho
    cases ho
  · intro c d k l hc
    cases hc
  · intro c k key hc
    cases hc
  · intro w key hw
    cases hw
  · intro w c k hw
    cases hw
  · intro w hw
    cases hw

end Single

/-! ## Distinct ids -/

/-- What distinct ids give: every wait has an id of the run, no two the same,
and every prompt stands. -/
structure Distinct (es : List Event) (s : State) : Prop where
  named : ∀ {w ask}, s.prompts.asks w = some ask → ask.key ∈ es.filterMap Event.publishes
  distinct : ∀ {v w a b}, s.prompts.asks v = some a → s.prompts.asks w = some b → a.key = b.key → v = w
  standing : Prompts.Standing s.prompts

theorem key_new {es : List Event} {w : Nat} {ask : Prompts.Ask}
    (hids : ((es ++ [Event.prompt (.publish w ask)]).filterMap Event.publishes).Nodup) :
    ask.key ∉ es.filterMap Event.publishes := by
  simp only [List.filterMap_append, List.nodup_append] at hids
  intro hmem
  exact hids.2.2 _ hmem _ (by simp [Event.publishes]) rfl

theorem Distinct.unshared {es : List Event} {s : State} (h : Distinct es s) (hsingle : Single s) {pe : Prompts.Event}
    (hids : ((es ++ [Event.prompt pe]).filterMap Event.publishes).Nodup) : Prompts.Unshared s.prompts pe := by
  cases pe with
  | publish w ask =>
    have hnew := key_new hids
    constructor
    · intro v r hv hkey
      have hasks : s.prompts.asks v = some r.ask := by simp [Prompts.State.asks, hv]
      exact absurd (hkey ▸ h.named hasks) hnew
    · intro c k hc hkey
      obtain ⟨ask', hask', hk⟩ := hsingle.addressed.taken hc
      exact absurd ((hk.trans hkey) ▸ h.named hask') hnew
  | _ => trivial

/-- A step of the prompts where its id is new. -/
theorem Distinct.prompt {es : List Event} {s : State} {pe : Prompts.Event} (h : Distinct es s) (hsingle : Single s)
    (hids : ((es ++ [Event.prompt pe]).filterMap Event.publishes).Nodup) {s' : State}
    (hs' : s'.prompts = Prompts.step s.prompts pe) : Distinct (es ++ [.prompt pe]) s' := by
  have hstanding : Prompts.Standing s'.prompts := hs' ▸ h.standing.step pe (h.unshared hsingle hids)
  rcases Prompts.step_asks s.prompts pe with heq | ⟨w, ask, rfl, _, heq⟩
  · refine ⟨?_, ?_, hstanding⟩
    · intro v a ha
      rw [hs', heq] at ha
      simp only [List.filterMap_append, List.mem_append]
      exact .inl (h.named ha)
    · intro u v a b ha hb
      rw [hs', heq] at ha hb
      exact h.distinct ha hb
  · have hnew := key_new hids
    refine ⟨?_, ?_, hstanding⟩
    · intro v a ha
      simp only [hs', heq] at ha
      simp only [List.filterMap_append, List.mem_append]
      split at ha
      · cases ha
        exact .inr (by simp [Event.publishes])
      · exact .inl (h.named ha)
    · intro u v a b ha hb hkey
      simp only [hs', heq] at ha hb
      split at ha <;> split at hb
      · rename_i hu hv
        exact hu.trans hv.symm
      · cases ha
        exact absurd (hkey ▸ h.named hb) hnew
      · cases hb
        exact absurd (hkey ▸ h.named ha) hnew
      · exact h.distinct ha hb hkey

theorem Distinct.congr {es : List Event} {s s' : State} (h : Distinct es s) (hs' : s'.prompts = s.prompts) (e : Event) :
    Distinct (es ++ [e]) s' := by
  refine ⟨?_, ?_, hs' ▸ h.standing⟩
  · intro w ask hask
    rw [hs'] at hask
    simp only [List.filterMap_append, List.mem_append]
    exact .inl (h.named hask)
  · intro v w a b ha hb
    rw [hs'] at ha hb
    exact h.distinct ha hb

theorem single_after (now : Nat) (es : List Event) : Single (after step (start now) es) := by
  refine after_induction (I := fun _ s => Single s) (.start now) ?_ es
  intro es e h
  exact h.step e

theorem distinct_after {now : Nat} {es : List Event} (hids : (es.filterMap Event.publishes).Nodup) :
    Distinct es (after step (start now) es) := by
  refine after_induction (I := fun es s => (es.filterMap Event.publishes).Nodup → Distinct es s) ?_ ?_ es hids
  · intro _
    exact ⟨nofun, nofun, .start now⟩
  · intro es e ih hids
    have h : Distinct es (after step (start now) es) := by
      refine ih ?_
      simp only [List.filterMap_append, List.nodup_append] at hids
      exact hids.1
    by_cases he : ∃ pe, e = .prompt pe
    · obtain ⟨pe, rfl⟩ := he
      by_cases hmay : (after step (start now) es).mayHappen pe = true
      · exact h.prompt (single_after now es) hids (step_prompt hmay).1
      · exact h.congr (by simp [step, hmay]) _
    · exact h.congr (step_other fun pe hpe => he ⟨pe, hpe⟩).1 e

/-! ## The responses to `transfer_confirm` -/

/-- A command has its response when it found no sender, or when it is
finished. -/
def Replied (s : State) : Prop :=
  ∀ c r, s.replies c = some r → (s.prompts.commands c = none ∧ r = alreadyResolved) ∨
    ∃ k, s.prompts.commands c = some k ∧ k.stage = .finished ∧ r = .ok k.key k.accepted

section

variable {s : State} {pe : Prompts.Event} {c : Nat} {r : Reply}

theorem step_replies (hmay : s.mayHappen pe = true) :
    (step s (.prompt pe)).replies c = some r ↔
      s.reply pe = some (c, r) ∨ s.replies c = some r ∧ ∀ r', s.reply pe ≠ some (c, r') := by
  have heq : (step s (.prompt pe)).replies = (s.replied (s.reply pe)).replies := by
    simp only [step, hmay, if_true, State.replied]
    split
    · simp only [published_replies]
    · exact published_replies
  rw [heq]
  unfold State.replied
  split
  · rename_i d r' hreply
    by_cases hcd : c = d
    · subst hcd
      simp only [hreply, if_true, Option.some.injEq, Prod.mk.injEq, true_and]
      grind
    · simp only [hreply, if_neg hcd, Option.some.injEq, Prod.mk.injEq]
      grind
  · rename_i hreply
    simp [hreply]

/-- A response is given to a command that found no sender, or that removes
its entry. -/
theorem reply_some (h : s.reply pe = some (c, r)) :
    (∃ key accepted, pe = .confirm c key accepted ∧ s.prompts.commands c = none ∧ s.respondTo key = none ∧
        r = alreadyResolved) ∨
      ∃ k, pe = .confirmRemove c ∧ s.prompts.commands c = some k ∧ k.stage = .sent ∧ r = .ok k.key k.accepted := by
  unfold State.reply at h
  split at h
  · rename_i d key accepted
    split at h
    · rename_i hc hkey
      simp only [Option.some.injEq, Prod.mk.injEq] at h
      obtain ⟨rfl, rfl⟩ := h
      exact .inl ⟨key, accepted, rfl, hc, hkey, rfl⟩
    · cases h
  · rename_i d
    split at h
    · rename_i k hc
      split at h
      · rename_i hk
        simp only [Option.some.injEq, Prod.mk.injEq] at h
        obtain ⟨rfl, rfl⟩ := h
        exact .inr ⟨k, rfl, hc, hk, rfl⟩
      · cases h
    · cases h
  · cases h

/-- A command that has its response gets no other. -/
theorem Replied.once (h : Replied s) (hmay : s.mayHappen pe = true) (hr : s.replies c = some r) (r' : Reply) :
    s.reply pe ≠ some (c, r') := by
  intro hreply
  rcases reply_some hreply with ⟨key, accepted, rfl, _, _, _⟩ | ⟨k, rfl, hc, hk, _⟩
  · simp [State.mayHappen, hr] at hmay
  · rcases h c r hr with ⟨hnone, _⟩ | ⟨k', hc', hk', _⟩
    · simp [hnone] at hc
    · rw [hc, Option.some.injEq] at hc'
      rw [← hc', hk] at hk'
      cases hk'

theorem Replied.prompt (h : Replied s) (hmay : s.mayHappen pe = true) : Replied (step s (.prompt pe)) := by
  intro c r hr
  rw [(step_prompt hmay).1]
  rcases (step_replies hmay).mp hr with hreply | ⟨hold, _⟩
  · rcases reply_some hreply with ⟨key, accepted, rfl, hc, hkey, rfl⟩ | ⟨k, rfl, hc, hk, rfl⟩
    · refine .inl ⟨?_, rfl⟩
      rcases Prompts.step_commands_eq s.prompts (.confirm c key accepted) with heq | ⟨d, l, hmove, _⟩
      · rw [heq, hc]
      · cases hmove with
        | took _ ho hsender => simp [respondTo_some.mpr ⟨_, ho, hsender, rfl⟩] at hkey
    · exact .inr ⟨{ k with stage := .finished }, by simp [Prompts.step, hc, hk, Prompts.State.setCommand], rfl, rfl⟩
  · -- A command with its response does not move.
    have hstays : (Prompts.step s.prompts pe).commands c = s.prompts.commands c := by
      rcases Prompts.step_commands_eq s.prompts pe with heq | ⟨d, l, hmove, heq⟩
      · rw [heq]
      · rw [heq]
        by_cases hcd : c = d
        · subst hcd
          rcases h c r hold with ⟨hnone, _⟩ | ⟨k, hc, hk, _⟩
          · cases hmove with
            | took _ _ _ => simp [State.mayHappen, hold] at hmay
            | sent hc _ => simp [hnone] at hc
            | finished hc _ => simp [hnone] at hc
          · cases hmove with
            | took hc' _ _ => simp [hc] at hc'
            | sent hc' hk' =>
              rw [hc, Option.some.injEq] at hc'
              simp [← hc', hk] at hk'
            | finished hc' hk' =>
              rw [hc, Option.some.injEq] at hc'
              simp [← hc', hk] at hk'
        · simp only [if_neg hcd]
    rw [hstays]
    exact h c r hold

theorem Replied.step (h : Replied s) (e : Event) : Replied (step s e) := by
  by_cases he : ∃ pe, e = .prompt pe
  · obtain ⟨pe, rfl⟩ := he
    by_cases hmay : s.mayHappen pe = true
    · exact h.prompt hmay
    · simpa [Watchers.step, hmay] using h
  · obtain ⟨hprompts, _, _, hreplies⟩ := step_other (s := s) fun pe hpe => he ⟨pe, hpe⟩
    intro c r hr
    rw [hreplies] at hr
    rw [hprompts]
    exact h c r hr

/-- A response that was given stays. -/
theorem Replied.keeps (h : Replied s) (e : Event) (hr : s.replies c = some r) : (Watchers.step s e).replies c = some r := by
  by_cases he : ∃ pe, e = .prompt pe
  · obtain ⟨pe, rfl⟩ := he
    by_cases hmay : s.mayHappen pe = true
    · exact (step_replies hmay).mpr (.inr ⟨hr, h.once hmay hr⟩)
    · simpa [Watchers.step, hmay] using hr
  · rw [(step_other (s := s) fun pe hpe => he ⟨pe, hpe⟩).2.2.2]
    exact hr

end

theorem replied_after (now : Nat) (es : List Event) : Replied (after step (start now) es) := by
  refine after_induction (I := fun _ s => Replied s) ?_ ?_ es
  · intro c r hr
    cases hr
  · intro es e h
    exact h.step e

/-! ## The watchers -/

section

variable {s : State} {c : Nat} {k : Client}

/-- A step of the prompts does not touch the watchers, and every new waiter
has its broadcast before it. -/
theorem step_prompt_watchers (pe : Prompts.Event) :
    (step s (.prompt pe)).clients = s.clients ∧ (step s (.prompt pe)).watchers = s.watchers ∧
      (∀ w ∈ s.publishing, w ∈ (step s (.prompt pe)).publishing) ∧
      ∀ w, (step s (.prompt pe)).prompts.asks w ≠ none → s.prompts.asks w ≠ none ∨ w ∈ (step s (.prompt pe)).publishing := by
  by_cases hmay : s.mayHappen pe = true
  · have heq : (step s (.prompt pe)).clients = (s.published pe).clients ∧
        (step s (.prompt pe)).watchers = (s.published pe).watchers ∧
        (step s (.prompt pe)).publishing = (s.published pe).publishing := by
      simp only [step, hmay, if_true, State.replied]
      split <;> exact ⟨rfl, rfl, rfl⟩
    rw [heq.1, heq.2.1, heq.2.2, (step_prompt hmay).1]
    rcases Prompts.step_asks s.prompts pe with hasks | ⟨w, ask, rfl, hw, hasks⟩
    · rw [hasks]
      unfold State.published
      split
      · split
        · exact ⟨rfl, rfl, fun _ h => h, fun _ h => .inl h⟩
        · exact ⟨rfl, rfl, fun _ h => List.mem_append_left _ h, fun _ h => .inl h⟩
      · exact ⟨rfl, rfl, fun _ h => h, fun _ h => .inl h⟩
    · simp only [State.published, hw, hasks]
      refine ⟨trivial, trivial, fun _ h => List.mem_append_left _ h, ?_⟩
      intro v hv
      by_cases hvw : v = w
      · exact .inr (by simp [hvw])
      · simp only [if_neg hvw] at hv
        exact .inl hv
  · simp only [step, hmay]
    exact ⟨rfl, rfl, fun _ h => h, fun _ h => .inl h⟩

theorem broadcast_accepted {n : Notice} (hc : s.clients c = some k) (hk : k.accepts = true) (hw : c ∈ s.watchers) :
    (s.broadcastToWatchers n).clients c = some { k with inbox := k.inbox ++ [n] } ∧
      c ∈ (s.broadcastToWatchers n).watchers := by
  have hcan : s.canSend c = true := by simp [State.canSend, hc, hk]
  constructor
  · simp [State.broadcastToWatchers, hcan, hc, hw]
  · simp [State.broadcastToWatchers, hcan, hw]

theorem broadcast_none {n : Notice} (hc : s.clients c = none) : (s.broadcastToWatchers n).clients c = none := by
  simp [State.broadcastToWatchers, hc]

theorem setClient_other {d : Nat} (h : c ≠ d) : (s.setClient d k).clients c = s.clients c := if_neg h

theorem setClient_self : (s.setClient c k).clients c = some k := if_pos rfl

end

/-- What a watcher has been told that replayed the offers in the state `s₀`:
it was shown those that were unresolved, and every offer since has come to its
channel, unless it is still to be broadcast. -/
structure Informed (c : Nat) (s₀ s : State) (k : Client) : Prop where
  client : s.clients c = some k
  replayed : k.replayed = true
  watching : c ∈ s.watchers
  seen : ∀ w, s₀.Unresolved w → .offer w ∈ k.shown
  told : ∀ w, s.prompts.asks w ≠ none → s₀.prompts.asks w = none →
    w ∈ s.publishing ∨ .offer w ∈ k.shown ∨ .offer w ∈ k.inbox

namespace Informed

variable {c : Nat} {s₀ s s' : State} {k k' : Client}

/-- A step that only adds to what the client was told. -/
theorem more (h : Informed c s₀ s k) (hprompts : s'.prompts = s.prompts) (hpublishing : s'.publishing = s.publishing)
    (hwatchers : c ∈ s'.watchers) (hclient : s'.clients c = some k') (hreplayed : k'.replayed = true)
    (hshown : ∀ n ∈ k.shown, n ∈ k'.shown) (htold : ∀ n, n ∈ k.shown ∨ n ∈ k.inbox → n ∈ k'.shown ∨ n ∈ k'.inbox) : Informed c s₀ s' k' := by
  refine ⟨hclient, hreplayed, hwatchers, fun w hw => hshown _ (h.seen w hw), ?_⟩
  intro w hw hnew
  rw [hprompts] at hw
  rw [hpublishing]
  rcases h.told w hw hnew with hpub | hn
  · exact .inl hpub
  · exact .inr (htold _ hn)

theorem broadcast (h : Informed c s₀ s k) (n : Notice) (hk : k.accepts = true) :
    Informed c s₀ (s.broadcastToWatchers n) { k with inbox := k.inbox ++ [n] } := by
  obtain ⟨hclient, hwatching⟩ := broadcast_accepted (n := n) h.client hk h.watching
  refine h.more rfl rfl hwatching hclient h.replayed (fun _ hm => hm) ?_
  intro m hm
  simp only [List.mem_append]
  tauto

/-- A step about one client, this one or another. -/
theorem setClient (h : Informed c s₀ s k) {d : Nat} {l l' : Client} (hd : s.clients d = some l)
    (hreplayed : l.replayed = true → l'.replayed = true) (hshown : ∀ n ∈ l.shown, n ∈ l'.shown)
    (htold : ∀ n, n ∈ l.shown ∨ n ∈ l.inbox → n ∈ l'.shown ∨ n ∈ l'.inbox) : ∃ k', Informed c s₀ (s.setClient d l') k' := by
  by_cases hcd : c = d
  · subst hcd
    rw [h.client, Option.some.injEq] at hd
    subst hd
    exact ⟨l', h.more rfl rfl h.watching setClient_self (hreplayed h.replayed) hshown htold⟩
  · exact ⟨k, h.more rfl rfl h.watching ((setClient_other hcd).trans h.client) h.replayed (fun _ hn => hn) fun _ hn => hn⟩

theorem step (h : Informed c s₀ s k) (e : Event) (hacc : Accepts c s e) : ∃ k', Informed c s₀ (step s e) k' := by
  cases e with
  | prompt pe =>
    obtain ⟨hclients, hwatchers, hpublishing, hasks⟩ := step_prompt_watchers (s := s) pe
    refine ⟨k, hclients ▸ h.client, h.replayed, hwatchers ▸ h.watching, h.seen, ?_⟩
    intro w hw hnew
    rcases hasks w hw with hold | hpub
    · rcases h.told w hold hnew with hpub | hn
      · exact .inl (hpublishing w hpub)
      · exact .inr hn
    · exact .inl hpub
  | broadcast v =>
    have hsent := h.broadcast (.offer v) (hacc rfl k h.client)
    simp only [Watchers.step]
    split
    · refine ⟨_, hsent.client, hsent.replayed, hsent.watching, hsent.seen, ?_⟩
      intro w hw hnew
      rcases hsent.told w hw hnew with hpub | hn
      · by_cases hwv : w = v
        · subst hwv
          exact .inr (.inr (by simp))
        · exact .inl ((List.mem_erase_of_ne hwv).mpr hpub)
      · exact .inr hn
    · exact ⟨k, h⟩
  | tell => exact ⟨_, h.broadcast .other (hacc rfl k h.client)⟩
  | register d =>
    simp only [Watchers.step]
    split
    · exact ⟨k, h⟩
    · rename_i hd
      have hcd : c ≠ d := by
        intro hcd
        rw [← hcd, h.client] at hd
        cases hd
      refine ⟨k, h.more rfl rfl ?_ ((setClient_other hcd).trans h.client) h.replayed (fun _ hn => hn) fun _ hn => hn⟩
      exact List.mem_append_left _ h.watching
  | replay d =>
    simp only [Watchers.step]
    split
    · rename_i l hd
      split
      · refine h.setClient hd (fun _ => rfl) (fun _ hn => List.mem_append_left _ hn) ?_
        intro n hn
        simp only [List.mem_append]
        tauto
      · exact ⟨k, h⟩
    · exact ⟨k, h⟩
  | forward d =>
    simp only [Watchers.step]
    split
    · rename_i l hd
      split
      · rename_i n inbox hinbox
        split
        · refine h.setClient hd (fun hr => hr) (fun _ hm => List.mem_append_left _ hm) ?_
          intro m hm
          simp only [hinbox, List.mem_cons] at hm
          simp only [List.mem_append, List.mem_singleton]
          tauto
        · exact ⟨k, h⟩
      · exact ⟨k, h⟩
    · exact ⟨k, h⟩
  | leave d =>
    simp only [Watchers.step]
    split
    · rename_i l hd
      exact h.setClient hd (fun hr => hr) (fun _ hn => hn) fun _ hn => hn
    · exact ⟨k, h⟩

end Informed

/-- A client whose channel takes what it is sent stays in `watchers`. -/
theorem step_watchers {c : Nat} {s : State} {k : Client} (hk : s.clients c = some k) (hw : c ∈ s.watchers) (e : Event)
    (hacc : Accepts c s e) : c ∈ (step s e).watchers := by
  cases e with
  | prompt pe =>
    rw [(step_prompt_watchers pe).2.1]
    exact hw
  | broadcast v =>
    simp only [step]
    split
    · exact (broadcast_accepted (n := .offer v) hk (hacc rfl k hk) hw).2
    · exact hw
  | tell => exact (broadcast_accepted (n := .other) hk (hacc rfl k hk) hw).2
  | register d =>
    simp only [step]
    split
    · exact hw
    · exact List.mem_append_left _ hw
  | replay d =>
    simp only [step]
    split
    · split <;> exact hw
    · exact hw
  | forward d =>
    simp only [step]
    split
    · split
      · split <;> exact hw
      · exact hw
    · exact hw
  | leave d =>
    simp only [step]
    split <;> exact hw

/-- A client comes to be by adding its channel. -/
theorem step_clients_none {c : Nat} {s : State} (hc : s.clients c = none) (e : Event) :
    (step s e).clients c = none ∨ c ∈ (step s e).watchers := by
  have other : ∀ {d l k}, s.clients d = some l → (s.setClient d k).clients c = none := by
    intro d l k hd
    have hcd : c ≠ d := by
      intro hcd
      simp [← hcd, hc] at hd
    rw [setClient_other hcd, hc]
  cases e with
  | prompt pe =>
    rw [(step_prompt_watchers pe).1]
    exact .inl hc
  | broadcast v =>
    simp only [step]
    split
    · exact .inl (broadcast_none hc)
    · exact .inl hc
  | tell => exact .inl (broadcast_none hc)
  | register d =>
    simp only [step]
    split
    · exact .inl hc
    · by_cases hcd : c = d
      · exact .inr (by simp [hcd])
      · exact .inl ((setClient_other hcd).trans hc)
  | replay d =>
    simp only [step]
    split
    · rename_i l hd
      split
      · exact .inl (other hd)
      · exact .inl hc
    · exact .inl hc
  | forward d =>
    simp only [step]
    split
    · rename_i l hd
      split
      · split
        · exact .inl (other hd)
        · exact .inl hc
      · exact .inl hc
    · exact .inl hc
  | leave d =>
    simp only [step]
    split
    · rename_i l hd
      exact .inl (other hd)
    · exact .inl hc

theorem watching_after {now c : Nat} {es : List Event} (h : Always step (start now) (Accepts c) es) :
    ∀ k, (after step (start now) es).clients c = some k → c ∈ (after step (start now) es).watchers := by
  refine Always.keeps (I := fun s => ∀ k, s.clients c = some k → c ∈ s.watchers) nofun ?_ h
  intro s e hacc hs k hk
  cases hc : s.clients c with
  | some k' => exact step_watchers hc (hs k' hc) e hacc
  | none =>
    rcases step_clients_none hc e with hnone | hw
    · simp [hnone] at hk
    · exact hw

/-! ## What a watcher is shown -/

section

variable {s : State} {c w : Nat} {k : Client}

/-- An offer nobody has answered is in the map with its sender. -/
theorem Single.replays (h : Single s) (hstanding : Prompts.Standing s.prompts) (hw : s.Unresolved w) :
    w ∈ s.keys.filterMap s.respondTo := by
  obtain ⟨⟨r, hr, hwaiting⟩, hfree⟩ := hw
  rcases hstanding.stands hr hwaiting with ⟨o, ho, howner, hsender⟩ | ⟨d, k, hd, hk, howner⟩
  · exact List.mem_filterMap.mpr ⟨r.ask.key, h.known ho, respondTo_some.mpr ⟨o, ho, hsender, howner⟩⟩
  · exact absurd hk (hfree d k hd howner)

/-- A watcher that replays the offers is shown those that are unresolved. -/
theorem Informed.replay (h : Single s) (hstanding : Prompts.Standing s.prompts) (hc : s.Registering c)
    (hw : c ∈ s.watchers) : ∃ k, Informed c s (Watchers.step s (.replay c)) k := by
  obtain ⟨k, hk, hreplayed, hgone⟩ := hc
  have hstep : Watchers.step s (.replay c) =
      s.setClient c { k with replayed := true, shown := k.shown ++ (s.keys.filterMap s.respondTo).map .offer } := by
    simp [Watchers.step, hk, hreplayed, hgone]
  rw [hstep]
  refine ⟨_, setClient_self, rfl, hw, ?_, ?_⟩
  · intro v hv
    exact List.mem_append_right _ (List.mem_map_of_mem (h.replays hstanding hv))
  · intro v hv hnew
    exact absurd hnew hv

theorem informed_after {s₀ : State} {es : List Event} (hs : ∃ k, Informed c s₀ s k)
    (h : Always step s (Accepts c) es) : ∃ k, Informed c s₀ (after step s es) k := by
  refine Always.keeps (I := fun s => ∃ k, Informed c s₀ s k) hs ?_ h
  intro s e hacc hk
  obtain ⟨k, hk⟩ := hk
  exact hk.step e hacc

/-- The task of a watcher writes all that is in its channel. -/
theorem forwards_shown (hk : s.clients c = some k) (hreplayed : k.replayed = true) (hgone : k.gone = false) :
    (after step s (List.replicate k.inbox.length (.forward c))).shownTo c = k.shown ++ k.inbox := by
  obtain ⟨replayed, inbox, shown, gone⟩ := k
  simp only at hreplayed hgone
  subst hreplayed hgone
  induction inbox generalizing s shown with
  | nil => simp [after, State.shownTo, hk]
  | cons n inbox ih =>
    have hstep : step s (.forward c) = s.setClient c { replayed := true, inbox, shown := shown ++ [n], gone := false } := by
      simp [step, hk]
    have hrest := ih (shown ++ [n]) (s := step s (.forward c)) (by rw [hstep]; exact setClient_self)
    simpa [after, List.replicate_succ] using hrest

end

/-! ## Who answers an offer -/

/-- A `transfer_confirm` that is still to come. -/
def State.Fresh (s : State) (c : Nat) : Prop := s.prompts.commands c = none ∧ s.replies c = none

section

variable {s : State} {c w : Nat}

theorem commands_after {k : Prompts.Command} (hc : s.prompts.commands c = some k) (es : List Event) :
    ∃ k', (after step s es).prompts.commands c = some k' ∧ k'.key = k.key ∧ k'.accepted = k.accepted ∧
      k'.owner = k.owner := by
  refine after_induction
    (I := fun _ (s : State) => ∃ k', s.prompts.commands c = some k' ∧ k'.key = k.key ∧ k'.accepted = k.accepted ∧ k'.owner = k.owner)
    ⟨k, hc, rfl, rfl, rfl⟩ ?_ es
  intro es e ih
  obtain ⟨k', hc', hkey, haccepted, howner⟩ := ih
  by_cases he : ∃ pe, e = .prompt pe
  · obtain ⟨pe, rfl⟩ := he
    by_cases hmay : (after step s es).mayHappen pe = true
    · rw [(step_prompt hmay).1]
      obtain ⟨k'', hc'', hkey', haccepted', howner'⟩ := Prompts.step_commands_some (e := pe) hc'
      exact ⟨k'', hc'', hkey'.trans hkey, haccepted'.trans haccepted, howner'.trans howner⟩
    · simp only [step, hmay]
      exact ⟨k', hc', hkey, haccepted, howner⟩
  · rw [(step_other fun pe hpe => he ⟨pe, hpe⟩).1]
    exact ⟨k', hc', hkey, haccepted, howner⟩

theorem replies_after {r : Reply} (h : Replied s) (hr : s.replies c = some r) (es : List Event) :
    (after step s es).replies c = some r := by
  refine (after_induction (I := fun _ s => Replied s ∧ s.replies c = some r) ⟨h, hr⟩ ?_ es).2
  intro es e ih
  exact ⟨ih.1.step e, ih.1.keeps e ih.2⟩

/-- The first `transfer_confirm` for an offer takes its sender. -/
theorem confirm_unresolved {r : Prompts.Waiter} {accepted : Bool} (hstanding : Prompts.Standing s.prompts)
    (hc : s.Fresh c) (hw : s.Unresolved w) (hr : s.prompts.waiters w = some r) :
    (step s (.prompt (.confirm c r.ask.key accepted))).prompts.commands c =
      some { key := r.ask.key, accepted, owner := w, stage := .holding } := by
  obtain ⟨⟨r', hr', hwaiting⟩, hfree⟩ := hw
  rw [hr, Option.some.injEq] at hr'
  subst hr'
  have hmay : s.mayHappen (.confirm c r.ask.key accepted) = true := by simp [State.mayHappen, hc.2]
  rw [(step_prompt hmay).1]
  rcases hstanding.stands hr hwaiting with ⟨o, ho, howner, hsender⟩ | ⟨d, k, hd, hk, howner⟩
  · simp [Prompts.step, hc.1, ho, hsender, howner, Prompts.State.setCommand]
  · exact absurd hk (hfree d k hd howner)

/-- A later `transfer_confirm` for the same id is refused. -/
theorem confirm_taken {es : List Event} {key : String} {accepted : Bool} {d : Nat} {k : Prompts.Command} (h : Single s)
    (hdistinct : Distinct es s) (hc : s.Fresh c) (hd : s.prompts.commands d = some k) (hkey : k.key = key) :
    (step s (.prompt (.confirm c key accepted))).replies c = some alreadyResolved := by
  have hmay : s.mayHappen (.confirm c key accepted) = true := by simp [State.mayHappen, hc.2]
  have hnone : s.respondTo key = none := by
    rw [Option.eq_none_iff_forall_ne_some]
    intro v hv
    obtain ⟨o, ho, hsender, howner⟩ := respondTo_some.mp hv
    obtain ⟨ask, hask, haskKey⟩ := h.addressed.offered ho
    obtain ⟨ask', hask', haskKey'⟩ := h.addressed.taken hd
    have hsame := hdistinct.distinct hask hask' (by rw [haskKey, haskKey', hkey])
    exact h.taken hd (respondTo_some.mpr ⟨o, ho, hsender, hsame⟩)
  exact (step_replies hmay).mpr (.inl (by simp [State.reply, hc.1, hnone]))

end

/-- The state after the events, in a daemon that starts at `now`. -/
abbrev run (now : Nat) (es : List Event) : State := after step (start now) es

theorem run_middle {now : Nat} {es es₁ es₂ : List Event} {e : Event} (hes : es = es₁ ++ e :: es₂) :
    run now es = after step (step (run now es₁) e) es₂ := by
  rw [hes]
  exact after_middle

theorem distinct_front {now : Nat} {es es₁ es₂ : List Event} (hids : (es.filterMap Event.publishes).Nodup)
    (hes : es = es₁ ++ es₂) : Distinct es₁ (run now es₁) := by
  refine distinct_after ?_
  rw [hes, List.filterMap_append, List.nodup_append] at hids
  exact hids.1

/-- A watcher that replayed the offers on the way is informed at the end. -/
theorem informed_run {now c : Nat} {es es₁ es₂ : List Event} (hids : (es.filterMap Event.publishes).Nodup)
    (hes : es = es₁ ++ .replay c :: es₂) (hc : (run now es₁).Registering c)
    (hacc : Always step (start now) (Accepts c) es) : ∃ k, Informed c (run now es₁) (run now es) k := by
  rw [run_middle hes]
  subst hes
  refine informed_after ?_ ?_
  · obtain ⟨k, hk, _⟩ := id hc
    exact Informed.replay (single_after now es₁) (distinct_front hids rfl).standing hc (watching_after hacc.of_append k hk)
  · rw [← List.singleton_append, ← List.append_assoc] at hacc
    simpa only [after_snoc] using hacc.rest

/-- **Every offer reaches every watcher and is answered once.** In every run
whose offers have distinct ids: a watcher whose channel is never full or
closed is shown, once its task has written what is in its channel, every offer
that was unresolved when it replayed the offers and every offer published
since; no answer channel is used twice; the first command for an unresolved
offer has it, and a command for an offer that another command has taken gets
an error. -/
theorem offers_delivered {now : Nat} {es : List Event} (hids : (es.filterMap Event.publishes).Nodup) :
    (∀ (c : Nat) (es₁ es₂ : List Event) (w : Nat), es = es₁ ++ .replay c :: es₂ → (run now es₁).Registering c →
      Always step (start now) (Accepts c) es → (∀ k, (run now es).clients c = some k → k.gone = false) →
      ((run now es₁).Unresolved w ∨
        (run now es₁).prompts.waiters w = none ∧ (run now es).prompts.waiters w ≠ none ∧ w ∉ (run now es).publishing) →
      ∃ n : Nat, .offer w ∈ (run now (es ++ List.replicate n (.forward c))).shownTo c) ∧
    (run now es).used.Nodup ∧
    ∀ (c : Nat) (es₁ es₂ : List Event) (key : String) (accepted : Bool),
      es = es₁ ++ .prompt (.confirm c key accepted) :: es₂ → (run now es₁).Fresh c →
      (∀ (w : Nat) (r : Prompts.Waiter), (run now es₁).Unresolved w → (run now es₁).prompts.waiters w = some r →
        r.ask.key = key →
        (∃ k, (run now es).prompts.commands c = some k ∧ k.owner = w ∧ k.accepted = accepted) ∧
          ∀ reply, (run now es).replies c = some reply → reply = .ok key accepted) ∧
      ∀ (d : Nat) (k : Prompts.Command), (run now es₁).prompts.commands d = some k → k.key = key →
        (run now es).replies c = some alreadyResolved := by
  refine ⟨?_, (single_after now es).nodup, ?_⟩
  · intro c es₁ es₂ w hes hc hacc hopen hw
    obtain ⟨k, hk⟩ := informed_run hids hes hc hacc
    refine ⟨k.inbox.length, ?_⟩
    rw [run, after_append, forwards_shown hk.client hk.replayed (hopen k hk.client), List.mem_append]
    rcases hw with hun | ⟨hnew, hpublished, hdone⟩
    · exact .inl (hk.seen w hun)
    · rcases hk.told w (by simpa [Prompts.State.asks] using hpublished) (by simp [Prompts.State.asks, hnew]) with hpub | hn
      · exact absurd hpub hdone
      · exact hn
  · intro c es₁ es₂ key accepted hes hfresh
    have hfront : Distinct es₁ (run now es₁) := distinct_front hids hes
    constructor
    · intro w r hun hr hkey
      subst hkey
      have htook := @confirm_unresolved _ c w r accepted hfront.standing hfresh hun hr
      obtain ⟨k, hk, hkkey, haccepted, howner⟩ := commands_after htook es₂
      rw [← run_middle hes] at hk
      refine ⟨⟨k, hk, howner, haccepted⟩, ?_⟩
      intro reply hreply
      rcases replied_after now es c reply hreply with ⟨hnone, _⟩ | ⟨k', hk', _, rfl⟩
      · simp [hk] at hnone
      · rw [hk, Option.some.injEq] at hk'
        rw [← hk', hkkey, haccepted]
    · intro d k hd hkey
      rw [run_middle hes]
      refine replies_after ((replied_after now es₁).step _) ?_ es₂
      exact confirm_taken (single_after now es₁) hfront hfresh hd hkey

def sampleAsk (n : UInt8) : Prompts.Ask := .transfer ⟨List.replicate 16 n, rfl⟩

/-- A client starts to watch while an offer is published and before another
is; the user answers the first twice. -/
def sampleEvents : List Event :=
  [.prompt (.publish 0 (sampleAsk 1)), .register 0, .replay 0, .prompt (.publish 1 (sampleAsk 2)), .broadcast 0,
    .broadcast 1, .forward 0, .prompt (.confirm 0 (sampleAsk 1).key true), .prompt (.confirm 1 (sampleAsk 1).key false),
    .prompt (.confirmSend 0)]

def acceptsNow (s : State) (e : Event) : Bool := !e.broadcasts || match s.clients 0 with
  | some k => k.accepts
  | none => true

theorem accepts_of_acceptsNow (s : State) (e : Event) (h : acceptsNow s e = true) : Accepts 0 s e := by
  intro he k hk
  simpa [acceptsNow, he, hk] using h

theorem offers_delivered_twice :
    (∃ n, .offer 0 ∈ (run 0 (sampleEvents ++ List.replicate n (.forward 0))).shownTo 0) ∧
      (∃ n, .offer 1 ∈ (run 0 (sampleEvents ++ List.replicate n (.forward 0))).shownTo 0) ∧
      (run 0 sampleEvents).used = [0] ∧ (run 0 sampleEvents).used.Nodup ∧
      (run 0 sampleEvents).replies 1 = some alreadyResolved := by
  have hids : (sampleEvents.filterMap Event.publishes).Nodup := by decide +kernel
  have hacc : Always step (start 0) (Accepts 0) sampleEvents := .of_holds accepts_of_acceptsNow (by decide +kernel)
  have hopen : ∀ k, (run 0 sampleEvents).clients 0 = some k → k.gone = false := by
    have hall : ((run 0 sampleEvents).clients 0).all (fun k => !k.gone) = true := by decide +kernel
    intro k hk
    simpa [hk] using hall
  obtain ⟨hshown, hused, hconfirm⟩ := @offers_delivered 0 _ hids
  have hc : (run 0 (sampleEvents.take 2)).Registering 0 := ⟨_, rfl, rfl, rfl⟩
  refine ⟨?_, ?_, by decide +kernel, hused, ?_⟩
  · exact hshown 0 (sampleEvents.take 2) _ 0 rfl hc hacc hopen (.inl ⟨⟨_, rfl, rfl⟩, nofun⟩)
  · refine hshown 0 (sampleEvents.take 2) _ 1 rfl hc hacc hopen (.inr ⟨rfl, ?_, by decide +kernel⟩)
    exact Option.isSome_iff_ne_none.mp (by decide +kernel)
  · exact (hconfirm 1 (sampleEvents.take 8) _ _ _ rfl ⟨rfl, rfl⟩).2 0 _ rfl rfl

end Nxfr.Watchers

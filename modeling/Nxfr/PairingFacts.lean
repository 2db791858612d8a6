/-
Who has said yes when a device is inserted, over every order of decisions,
failures and watchers.

A side inserts the other after it has sent PAIR_ACCEPT and read the other's,
and sends PAIR_ACCEPT after a yes of its own: the initiator after a line of
its IPC client, the responder after the command that took the sender of the
prompt it published, or with no prompt at all where nobody watches. The line may
be there before the prompt is, and the command may answer the prompt of another
session with the same key (`paired_unasked`).
-/
import Nxfr.History
import Nxfr.Pairing
import Nxfr.PromptFacts

namespace Nxfr.Pairing

open History

section

variable (request : String → Option IpcRequest) (peerIdHex : String) (watchers now : Nat)

/-- The state after some events. -/
def reached (es : List Event) : System := after (step request peerIdHex) (start watchers now) es

/-- At some point of the run `P` held of the state and of the next event. -/
def Did (P : System → Event → Prop) (es : List Event) : Prop :=
  Once (step request peerIdHex) (start watchers now) P es

/-- Not past `wait_for_pair_confirm`. -/
def Initiator.early : Initiator → Bool
  | .connected | .requested | .prompting => true
  | _ => false

/-- The initiator's user says yes: a line with a `pair_confirm` that accepts comes
from the IPC client before the end of the wait for it. -/
def InitiatorYes (s : System) (e : Event) : Prop :=
  s.initiator.early = true ∧ ∃ text, e = .initiator (.line text) ∧ pairConfirm request text = some true

/-- The initiator's user says yes to the prompt: it is there when the line comes. -/
def InitiatorAnswers (s : System) (e : Event) : Prop :=
  s.initiator = .prompting ∧ ∃ text, e = .initiator (.line text) ∧ pairConfirm request text = some true

/-- The responder asks: it publishes the prompt of the session as waiter
`w`. -/
def Publishes (w : Nat) (s : System) (e : Event) : Prop :=
  s.responder = .publishing ∧ s.prompts.waiters w = none ∧ e = .responder (.publish w)

/-- `transfer_confirm` comes as command `c`, for a prompt that was shown or for none. -/
def Confirms (c : Nat) (key : String) (accepted : Bool) (s : System) (e : Event) : Prop :=
  e = .prompts (.confirm c key accepted) ∨
    ∃ w r, e = .answer w c accepted ∧ s.prompts.waiters w = some r ∧ r.ask.key = key

/-- Waiter `w` is answered yes: a `transfer_confirm` that accepts takes the
sender of its entry. -/
def AnswersYes (w : Nat) (s : System) (e : Event) : Prop :=
  ∃ c o, Confirms c (Prompts.Ask.pair peerIdHex).key true s e ∧ s.prompts.commands c = none ∧
    s.prompts.offers (Prompts.Ask.pair peerIdHex).key = some o ∧ o.hasSender = true ∧ o.owner = w

/-- The responder looks at its watchers and there are none. -/
def Unattended (s : System) (e : Event) : Prop :=
  s.responder = .asked ∧ s.watchers = 0 ∧ e = .responder .proceed

/-- A yes has taken the sender of the prompt of the session. -/
def ResponderYes (es : List Event) : Prop :=
  ∃ w, Did request peerIdHex watchers now (Publishes w) es ∧ Did request peerIdHex watchers now (AnswersYes peerIdHex w) es

/-- The responder's user has answered yes to the prompt of the session. -/
def ResponderAnswers (es : List Event) : Prop :=
  ∃ w c, Did request peerIdHex watchers now (Publishes w) es ∧ .answer w c true ∈ es

end

/-! ## What a side can do -/

/-- Neither accepting nor past it. -/
def Initiator.calm : Initiator → Bool
  | .accepting | .awaiting | .storing => false
  | _ => true

def Responder.calm : Responder → Bool
  | .waiting _ | .accepting | .awaiting | .storing => false
  | _ => true

theorem Initiator.calm_ne {i : Initiator} (h : i.calm = true) : i ≠ .accepting ∧ i ≠ .awaiting ∧ i ≠ .storing := by
  cases i <;> simp_all [Initiator.calm]

theorem Responder.calm_ne {r : Responder} (h : r.calm = true) :
    r ≠ .accepting ∧ r ≠ .awaiting ∧ r ≠ .storing ∧ ∀ w, r ≠ .waiting w := by
  cases r <;> simp_all [Responder.calm]

/-- The moves of the initiator: none; a line that is written; a quiet one, which
sends no PAIR_ACCEPT, leads to a calm state and adds no line; and the four that
lead to an insertion. -/
inductive InitiatorMove (request : String → Option IpcRequest) (s : System) : InitiatorEvent → System → Prop
  | none (e : InitiatorEvent) : InitiatorMove request s e s
  | writes (text : String) : InitiatorMove request s (.line text) { s with lines := s.lines ++ [text] }
  | quiet (e : InitiatorEvent) (i : Initiator) (ms : List ControlMessage) (n : Nat) (lines : List String)
      (hi : i.calm = true) (hearly : i.early = true → s.initiator.early = true) (hlines : lines ⊆ s.lines)
      (hms : .pairAccept ∉ ms) : InitiatorMove request s e
        { s with initiator := i, initiatorSent := s.initiatorSent ++ ms, initiatorRead := n, lines }
  | confirmed (text : String) (lines : List String) (hs : s.initiator = .prompting) (htext : text ∈ s.lines)
      (hyes : pairConfirm request text = some true) :
      InitiatorMove request s .nextLine { s with initiator := .accepting, lines }
  | accepts (e : InitiatorEvent) (hs : s.initiator = .accepting) :
      InitiatorMove request s e (s.sendInitiator .pairAccept .awaiting)
  | hears (e : InitiatorEvent) (n : Nat) (hs : s.initiator = .awaiting) (hm : .pairAccept ∈ s.responderSent) :
      InitiatorMove request s e { s with initiator := .storing, initiatorRead := n }
  | inserts (e : InitiatorEvent) (hs : s.initiator = .storing) :
      InitiatorMove request s e { s with initiator := .informing, initiatorPaired := true }

/-- The moves of the responder, in the same way; it accepts with nobody there
or after its wait. -/
inductive ResponderMove (peerIdHex : String) (s : System) : ResponderEvent → System → Prop
  | none (e : ResponderEvent) : ResponderMove peerIdHex s e s
  | quiet (e : ResponderEvent) (r : Responder) (ms : List ControlMessage) (n : Nat) (hr : r.calm = true)
      (hms : .pairAccept ∉ ms) : ResponderMove peerIdHex s e
        { s with responder := r, responderSent := s.responderSent ++ ms, responderRead := n }
  | unattended (hs : s.responder = .asked) (hw : s.watchers = 0) :
      ResponderMove peerIdHex s .proceed { s with responder := .accepting }
  | publishes (w : Nat) (hs : s.responder = .publishing) (hw : s.prompts.waiters w = none) :
      ResponderMove peerIdHex s (.publish w)
        { s with responder := .waiting w, prompts := Prompts.step s.prompts (.publish w (.pair peerIdHex)) }
  | consents (e : ResponderEvent) (w c : Nat) (hs : s.responder = .waiting w)
      (hw : s.prompts.endings w = some (.answered c true)) :
      ResponderMove peerIdHex s e { s with responder := .accepting }
  | accepts (e : ResponderEvent) (hs : s.responder = .accepting) :
      ResponderMove peerIdHex s e (s.sendResponder .pairAccept .awaiting)
  | hears (e : ResponderEvent) (n : Nat) (hs : s.responder = .awaiting) (hm : .pairAccept ∈ s.initiatorSent) :
      ResponderMove peerIdHex s e { s with responder := .storing, responderRead := n }
  | inserts (e : ResponderEvent) (hs : s.responder = .storing) :
      ResponderMove peerIdHex s e { s with responder := .listening, responderPaired := true }

section

variable {request : String → Option IpcRequest} {peerIdHex : String} {s : System}

theorem InitiatorMove.speaks {e : InitiatorEvent} (i : Initiator) (m : ControlMessage) (hi : i.calm = true)
    (hearly : i.early = true → s.initiator.early = true) (hm : m ≠ .pairAccept) :
    InitiatorMove request s e (s.sendInitiator m i) :=
  .quiet e i [m] s.initiatorRead s.lines hi hearly (List.Subset.refl _) (by simpa using hm.symm)

theorem InitiatorMove.goes {e : InitiatorEvent} (i : Initiator) (n : Nat) (lines : List String) (hi : i.calm = true)
    (hearly : i.early = true → s.initiator.early = true) (hlines : lines ⊆ s.lines) :
    InitiatorMove request s e { s with initiator := i, initiatorRead := n, lines } := by
  have h : InitiatorMove request s e _ := .quiet e i [] n lines hi hearly hlines (by simp)
  rwa [List.append_nil] at h

theorem ResponderMove.speaks {e : ResponderEvent} (r : Responder) (m : ControlMessage) (hr : r.calm = true)
    (hm : m ≠ .pairAccept) : ResponderMove peerIdHex s e (s.sendResponder m r) :=
  .quiet e r [m] s.responderRead hr (by simpa using hm.symm)

theorem ResponderMove.goes {e : ResponderEvent} (r : Responder) (n : Nat) (hr : r.calm = true) :
    ResponderMove peerIdHex s e { s with responder := r, responderRead := n } := by
  have h : ResponderMove peerIdHex s e _ := .quiet e r [] n hr (by simp)
  rwa [List.append_nil] at h

theorem initiatorStep_move (e : InitiatorEvent) : InitiatorMove request s e (initiatorStep request s e) := by
  have hrefl : s.lines ⊆ s.lines := List.Subset.refl _
  cases e with
  | proceed =>
    simp only [initiatorStep, initiatorProceeds]
    split
    · rename_i hs
      exact .speaks _ _ rfl (fun _ => by rw [hs]; rfl) nofun
    · rename_i hs
      exact .goes _ _ _ rfl (fun _ => by rw [hs]; rfl) hrefl
    · exact .accepts _ ‹_›
    · exact .inserts _ ‹_›
    · exact .goes _ _ _ rfl nofun hrefl
    · exact .speaks _ _ rfl nofun nofun
    · exact .goes _ _ _ rfl nofun hrefl
    · exact .speaks _ _ rfl nofun nofun
    all_goals exact .none _
  | fail =>
    simp only [initiatorStep, initiatorFails]
    split
    · exact .goes _ _ _ rfl nofun hrefl
    · exact .none _
    · exact .goes _ _ _ rfl nofun hrefl
  | line text => exact .writes text
  | nextLine =>
    simp only [initiatorStep]
    split
    · rename_i text rest hs hlines
      have hrest : rest ⊆ s.lines := by
        rw [hlines]
        exact List.subset_cons_self text rest
      split
      · rename_i hyes
        exact .confirmed text rest hs (by simp [hlines]) hyes
      · exact .goes _ _ _ rfl nofun hrest
      · exact .goes s.initiator _ _ (by rw [hs]; rfl) id hrest
    · exact .none _
  | linesEnd =>
    simp only [initiatorStep]
    split
    · exact .goes _ _ _ rfl nofun hrefl
    · exact .none _
  | timeout =>
    simp only [initiatorStep]
    split
    · exact .goes _ _ _ rfl nofun hrefl
    · exact .none _
  | receive =>
    simp only [initiatorStep]
    split
    · rename_i m hs hm
      by_cases haccept : m = .pairAccept
      · subst haccept
        simp only [if_pos]
        exact .hears _ _ hs (List.mem_of_getElem? hm)
      · simp only [if_neg haccept]
        exact .goes _ _ _ rfl nofun hrefl
    · exact .none _

theorem onMessage_calm (m : ControlMessage) : (onMessage m).calm = true := by
  unfold onMessage
  split
  · split <;> rfl
  all_goals rfl

theorem responderStep_move (e : ResponderEvent) : ResponderMove peerIdHex s e (responderStep peerIdHex s e) := by
  cases e with
  | proceed =>
    simp only [responderStep, responderProceeds]
    split
    · exact .speaks _ _ rfl (by simp)
    · rename_i hs
      by_cases hw : s.watchers = 0
      · simp only [if_pos hw]
        exact .unattended hs hw
      · simp only [if_neg hw]
        exact .goes _ _ rfl
    · rename_i w hs
      split
      · rename_i e hw
        cases e with
        | answered c accepted =>
          cases accepted with
          | true => exact .consents _ w c hs (by simp [Prompts.State.endings, hw, Prompts.Stage.ending])
          | false => exact .goes _ _ rfl
        | expired => exact .goes _ _ rfl
        | senderLost => exact .goes _ _ rfl
        | timeout => exact .goes _ _ rfl
      · exact .none _
    · exact .accepts _ ‹_›
    · exact .inserts _ ‹_›
    · exact .speaks _ _ rfl (by simp)
    · exact .speaks _ _ rfl (by simp)
    all_goals exact .none _
  | fail =>
    simp only [responderStep, responderFails]
    split
    · exact .goes _ _ rfl
    · exact .none _
    · exact .none _
    · exact .none _
    · exact .goes _ _ rfl
  | receive =>
    simp only [responderStep]
    split
    · exact .goes _ _ (onMessage_calm _)
    · rename_i m hs hm
      by_cases haccept : m = .pairAccept
      · subst haccept
        simp only [if_pos]
        exact .hears _ _ hs (List.mem_of_getElem? hm)
      · simp only [if_neg haccept]
        exact .goes _ _ rfl
    · exact .none _
  | publish w =>
    simp only [responderStep]
    split
    · rename_i hs hw
      exact .publishes w hs hw
    · exact .none _

end

/-! ## Both have said yes -/

section

variable (request : String → Option IpcRequest) (peerIdHex : String) (watchers now : Nat)

/-- Command `c` took the sender of an entry, with the key, answer and owner
of `k`. -/
def Takes (c : Nat) (k : Prompts.Command) (s : System) (e : Event) : Prop :=
  ∃ o, Confirms c k.key k.accepted s e ∧ s.prompts.commands c = none ∧
    s.prompts.offers k.key = some o ∧ o.hasSender = true ∧ o.owner = k.owner

/-- The prompts of the responder, and where their commands come from. -/
structure Answered (es : List Event) (s : System) : Prop where
  addressed : Prompts.Addressed s.prompts
  took : ∀ {c k}, s.prompts.commands c = some k → Did request peerIdHex watchers now (Takes c k) es

/-- What holds of the initiator: a yes among the lines to be read was said in time,
it accepts after its user's yes, waits and inserts after it has accepted, and
inserts after the responder has. -/
structure InitiatorSide (es : List Event) (s : System) : Prop where
  written : s.initiator.early = true → ∀ text ∈ s.lines, pairConfirm request text = some true →
    Did request peerIdHex watchers now (InitiatorYes request) es
  yes : s.initiator = .accepting ∨ .pairAccept ∈ s.initiatorSent →
    Did request peerIdHex watchers now (InitiatorYes request) es
  sent : s.initiator = .awaiting ∨ s.initiator = .storing ∨ s.initiatorPaired = true → .pairAccept ∈ s.initiatorSent
  heard : s.initiator = .storing ∨ s.initiatorPaired = true → .pairAccept ∈ s.responderSent

/-- What holds of the responder, the same with the two ways to its yes. -/
structure ResponderSide (es : List Event) (s : System) : Prop where
  asked : ∀ {w}, s.responder = .waiting w →
    Did request peerIdHex watchers now (Publishes w) es ∧ s.prompts.asks w = some (.pair peerIdHex)
  yes : s.responder = .accepting ∨ .pairAccept ∈ s.responderSent →
    Did request peerIdHex watchers now Unattended es ∨ ResponderYes request peerIdHex watchers now es
  sent : s.responder = .awaiting ∨ s.responder = .storing ∨ s.responderPaired = true → .pairAccept ∈ s.responderSent
  heard : s.responder = .storing ∨ s.responderPaired = true → .pairAccept ∈ s.initiatorSent

end

section

variable {request : String → Option IpcRequest} {peerIdHex : String} {watchers now : Nat} {es : List Event} {s : System}

theorem Answered.later (h : Answered request peerIdHex watchers now es s) (e : Event) :
    Answered request peerIdHex watchers now (es ++ [e]) s :=
  ⟨h.addressed, fun hk => (h.took hk).snoc e⟩

theorem InitiatorSide.later (h : InitiatorSide request peerIdHex watchers now es s) (e : Event) :
    InitiatorSide request peerIdHex watchers now (es ++ [e]) s :=
  ⟨fun hs text htext hyes => (h.written hs text htext hyes).snoc e, fun hs => (h.yes hs).snoc e, h.sent, h.heard⟩

theorem ResponderSide.later (h : ResponderSide request peerIdHex watchers now es s) (e : Event) :
    ResponderSide request peerIdHex watchers now (es ++ [e]) s := by
  refine ⟨fun hs => ⟨(h.asked hs).1.snoc e, (h.asked hs).2⟩, fun hs => ?_, h.sent, h.heard⟩
  rcases h.yes hs with hun | ⟨w, hpub, hans⟩
  · exact .inl (hun.snoc e)
  · exact .inr ⟨w, hpub.snoc e, hans.snoc e⟩

/-- A step of the prompts, whoever takes it; a command it adds is one that
`Takes`. -/
theorem Answered.prompts (h : Answered request peerIdHex watchers now es s) {e : Event} {pe : Prompts.Event}
    (htakes : ∀ c k, (∃ o, pe = .confirm c k.key k.accepted ∧ s.prompts.commands c = none ∧
        s.prompts.offers k.key = some o ∧ o.hasSender = true ∧ o.owner = k.owner) →
      Did request peerIdHex watchers now (Takes c k) (es ++ [e])) :
    Answered request peerIdHex watchers now (es ++ [e]) { s with prompts := Prompts.step s.prompts pe } := by
  refine ⟨h.addressed.step pe, fun {c k} hk => ?_⟩
  rcases Prompts.step_commands hk with ⟨k', hk', hkey, haccepted, howner⟩ | ⟨o, rfl, hnone, ho, hsender, howner⟩
  · refine ((h.took hk').snoc e).imp fun s' e' htook => ?_
    simpa only [Takes, hkey, haccepted, howner] using htook
  · exact htakes c k ⟨o, rfl, hnone, ho, hsender, howner⟩

/-- The wait of the session's own prompt ends with a yes only by a command
that took its sender. -/
theorem Answered.yes (h : Answered request peerIdHex watchers now es s) {w c : Nat}
    (hask : s.prompts.asks w = some (.pair peerIdHex)) (hend : s.prompts.endings w = some (.answered c true)) :
    Did request peerIdHex watchers now (AnswersYes peerIdHex w) es := by
  obtain ⟨k, hk, howner, haccepted⟩ := h.addressed.answered hend
  obtain ⟨ask, hask', hkey⟩ := h.addressed.taken hk
  rw [howner, hask, Option.some.injEq] at hask'
  subst hask'
  refine (h.took hk).imp fun s' e' htook => ?_
  obtain ⟨o, he, hnone, ho, hsender, howner'⟩ := htook
  rw [haccepted, ← hkey] at he
  exact ⟨c, o, he, hnone, by rw [hkey, ho], hsender, howner'.trans howner⟩

/-- Nothing new to show of a side that is not past its PAIR_ACCEPT. -/
theorem InitiatorSide.before (h : InitiatorSide request peerIdHex watchers now es s) {i : Initiator}
    (hawait : i ≠ .awaiting) (hstore : i ≠ .storing) :
    (i = .awaiting ∨ i = .storing ∨ s.initiatorPaired = true → .pairAccept ∈ s.initiatorSent) ∧
      (i = .storing ∨ s.initiatorPaired = true → .pairAccept ∈ s.responderSent) := by
  constructor
  · intro hi
    rcases hi with hi | hi | hpaired
    · exact absurd hi hawait
    · exact absurd hi hstore
    · exact h.sent (.inr (.inr hpaired))
  · intro hi
    rcases hi with hi | hpaired
    · exact absurd hi hstore
    · exact h.heard (.inr hpaired)

theorem ResponderSide.before (h : ResponderSide request peerIdHex watchers now es s) {r : Responder}
    (hawait : r ≠ .awaiting) (hstore : r ≠ .storing) :
    (r = .awaiting ∨ r = .storing ∨ s.responderPaired = true → .pairAccept ∈ s.responderSent) ∧
      (r = .storing ∨ s.responderPaired = true → .pairAccept ∈ s.initiatorSent) := by
  constructor
  · intro hr
    rcases hr with hr | hr | hpaired
    · exact absurd hr hawait
    · exact absurd hr hstore
    · exact h.sent (.inr (.inr hpaired))
  · intro hr
    rcases hr with hr | hpaired
    · exact absurd hr hstore
    · exact h.heard (.inr hpaired)

theorem InitiatorSide.move (h : InitiatorSide request peerIdHex watchers now es s) {e : InitiatorEvent} {s' : System}
    (hm : InitiatorMove request s e s') (hnow : InitiatorYes request s (.initiator e) →
      Did request peerIdHex watchers now (InitiatorYes request) (es ++ [.initiator e])) :
    InitiatorSide request peerIdHex watchers now (es ++ [.initiator e]) s' := by
  have h := h.later (.initiator e)
  cases hm with
  | none => exact h
  | writes text =>
    refine ⟨fun hs line hline hyes => ?_, h.yes, h.sent, h.heard⟩
    rcases List.mem_append.mp hline with hline | hline
    · exact h.written hs line hline hyes
    · rw [List.mem_singleton.mp hline] at hyes
      exact hnow ⟨hs, text, rfl, hyes⟩
  | quiet _ i ms n lines hi hearly hlines hms =>
    obtain ⟨hacc, hawait, hstore⟩ := Initiator.calm_ne hi
    obtain ⟨hsent, hheard⟩ := h.before hawait hstore
    refine ⟨fun hs line hline => h.written (hearly hs) line (hlines hline), fun hs => h.yes ?_,
      fun hs => List.mem_append_left _ (hsent hs), hheard⟩
    rcases hs with hs | hmem
    · exact absurd hs hacc
    · rcases List.mem_append.mp hmem with hmem | hmem
      · exact .inr hmem
      · exact absurd hmem hms
  | confirmed text lines hs htext hyes =>
    obtain ⟨hsent, hheard⟩ := h.before (i := .accepting) nofun nofun
    exact ⟨nofun, fun _ => h.written (by rw [hs]; rfl) text htext hyes, hsent, hheard⟩
  | accepts _ hs =>
    refine ⟨nofun, fun _ => h.yes (.inl hs), fun _ => by simp [System.sendInitiator], fun hs' => h.heard ?_⟩
    rcases hs' with hs' | hpaired
    · cases hs'
    · exact .inr hpaired
  | hears _ n hs hm =>
    have hsent := h.sent (.inl hs)
    exact ⟨nofun, fun _ => h.yes (.inr hsent), fun _ => hsent, fun _ => hm⟩
  | inserts _ hs =>
    have hsent := h.sent (.inr (.inl hs))
    exact ⟨nofun, fun _ => h.yes (.inr hsent), fun _ => hsent, fun _ => h.heard (.inl hs)⟩

/-- The initiator's side where the other only sends. -/
theorem InitiatorSide.frame (h : InitiatorSide request peerIdHex watchers now es s) {s' : System}
    (hi : s'.initiator = s.initiator) (hsent : s'.initiatorSent = s.initiatorSent) (hlines : s'.lines = s.lines)
    (hpaired : s'.initiatorPaired = s.initiatorPaired) (hsub : s.responderSent ⊆ s'.responderSent) :
    InitiatorSide request peerIdHex watchers now es s' := by
  refine ⟨?_, ?_, ?_, ?_⟩
  · rw [hi, hlines]
    exact h.written
  · rw [hi, hsent]
    exact h.yes
  · rw [hi, hsent, hpaired]
    exact h.sent
  · rw [hi, hpaired]
    exact fun hs => hsub (h.heard hs)

theorem ResponderSide.frame (h : ResponderSide request peerIdHex watchers now es s) {s' : System}
    (hr : s'.responder = s.responder) (hsent : s'.responderSent = s.responderSent)
    (hpaired : s'.responderPaired = s.responderPaired) (hsub : s.initiatorSent ⊆ s'.initiatorSent)
    (hasks : ∀ {w ask}, s.prompts.asks w = some ask → s'.prompts.asks w = some ask) :
    ResponderSide request peerIdHex watchers now es s' := by
  refine ⟨?_, ?_, ?_, ?_⟩
  · intro w hw
    obtain ⟨hpub, hask⟩ := h.asked (hr ▸ hw)
    exact ⟨hpub, hasks hask⟩
  · rw [hr, hsent]
    exact h.yes
  · rw [hr, hsent, hpaired]
    exact h.sent
  · rw [hr, hpaired]
    exact fun hs => hsub (h.heard hs)

/-- The moves of the responder keep its side; they find what its user
answered among the prompts. -/
theorem ResponderSide.move (h : ResponderSide request peerIdHex watchers now es s)
    (ha : Answered request peerIdHex watchers now es s) {e : ResponderEvent} {s' : System}
    (hm : ResponderMove peerIdHex s e s')
    (hun : Unattended s (.responder e) → Did request peerIdHex watchers now Unattended (es ++ [.responder e]))
    (hpub : ∀ w, Publishes w s (.responder e) → Did request peerIdHex watchers now (Publishes w) (es ++ [.responder e])) :
    ResponderSide request peerIdHex watchers now (es ++ [.responder e]) s' := by
  have hl := h.later (.responder e)
  cases hm with
  | none => exact hl
  | quiet _ r ms n hr hms =>
    obtain ⟨hacc, hawait, hstore, hwait⟩ := Responder.calm_ne hr
    obtain ⟨hsent, hheard⟩ := hl.before hawait hstore
    refine ⟨fun {w} hs => absurd hs (hwait w), fun hs => hl.yes ?_, fun hs => List.mem_append_left _ (hsent hs), hheard⟩
    rcases hs with hs | hmem
    · exact absurd hs hacc
    · rcases List.mem_append.mp hmem with hmem | hmem
      · exact .inr hmem
      · exact absurd hmem hms
  | unattended hs hw =>
    obtain ⟨hsent, hheard⟩ := hl.before (r := .accepting) (by simp) (by simp)
    exact ⟨by simp, fun _ => .inl (hun ⟨hs, hw, rfl⟩), hsent, hheard⟩
  | publishes w hs hw =>
    obtain ⟨hsent, hheard⟩ := hl.before (r := .waiting w) (by simp) (by simp)
    refine ⟨fun {v} hv => ?_, fun hs' => hl.yes ?_, hsent, hheard⟩
    · cases hv
      exact ⟨hpub w ⟨hs, hw, rfl⟩, by simp [Prompts.step, hw, Prompts.State.asks]⟩
    · rcases hs' with hs' | hmem
      · cases hs'
      · exact .inr hmem
  | consents _ w c hs hw =>
    obtain ⟨hdid, hask⟩ := h.asked hs
    have hyes := ha.yes hask hw
    obtain ⟨hsent, hheard⟩ := hl.before (r := .accepting) (by simp) (by simp)
    exact ⟨by simp, fun _ => .inr ⟨w, hdid.snoc _, hyes.snoc _⟩, hsent, hheard⟩
  | accepts _ hs =>
    refine ⟨?_, fun _ => hl.yes (.inl hs), fun _ => by simp [System.sendResponder], fun hs' => hl.heard ?_⟩
    · intro w hw
      cases hw
    · rcases hs' with hs' | hpaired
      · cases hs'
      · exact .inr hpaired
  | hears _ n hs hm =>
    have hsent := hl.sent (.inl hs)
    exact ⟨by simp, fun _ => hl.yes (.inr hsent), fun _ => hsent, fun _ => hm⟩
  | inserts _ hs =>
    have hsent := hl.sent (.inr (.inl hs))
    exact ⟨by simp, fun _ => hl.yes (.inr hsent), fun _ => hsent, fun _ => hl.heard (.inl hs)⟩

theorem InitiatorMove.responder {e : InitiatorEvent} {s' : System} (h : InitiatorMove request s e s') :
    s'.responder = s.responder ∧ s'.responderSent = s.responderSent ∧ s'.responderPaired = s.responderPaired ∧
      s'.prompts = s.prompts ∧ s.initiatorSent ⊆ s'.initiatorSent := by
  cases h <;> simp [System.sendInitiator]

theorem ResponderMove.initiator {e : ResponderEvent} {s' : System} (h : ResponderMove peerIdHex s e s') :
    s'.initiator = s.initiator ∧ s'.initiatorSent = s.initiatorSent ∧ s'.lines = s.lines ∧
      s'.initiatorPaired = s.initiatorPaired ∧ s.responderSent ⊆ s'.responderSent := by
  cases h <;> simp [System.sendResponder]

theorem Answered.responderMove (h : Answered request peerIdHex watchers now es s) {e : ResponderEvent} {s' : System}
    (hm : ResponderMove peerIdHex s e s') : Answered request peerIdHex watchers now (es ++ [.responder e]) s' := by
  have hl := h.later (.responder e)
  cases hm with
  | publishes w hs hw =>
    -- A publication takes no sender.
    refine Answered.prompts (s := { s with responder := .waiting w }) ⟨h.addressed, h.took⟩ fun c k htakes => ?_
    obtain ⟨o, he, _⟩ := htakes
    cases he
  | none => exact hl
  | quiet => exact ⟨hl.addressed, hl.took⟩
  | unattended => exact ⟨hl.addressed, hl.took⟩
  | consents => exact ⟨hl.addressed, hl.took⟩
  | accepts => exact ⟨hl.addressed, hl.took⟩
  | hears => exact ⟨hl.addressed, hl.took⟩
  | inserts => exact ⟨hl.addressed, hl.took⟩

/-- The two sides and the prompts together. -/
def Mutual (request : String → Option IpcRequest) (peerIdHex : String) (watchers now : Nat) (es : List Event)
    (s : System) : Prop :=
  InitiatorSide request peerIdHex watchers now es s ∧ ResponderSide request peerIdHex watchers now es s ∧
    Answered request peerIdHex watchers now es s

theorem Mutual.start : Mutual request peerIdHex watchers now [] (start watchers now) := by
  refine ⟨⟨?_, ?_, ?_, ?_⟩, ⟨?_, ?_, ?_, ?_⟩, ⟨Prompts.Addressed.start now, ?_⟩⟩
  all_goals simp [Pairing.start, Prompts.start]

/-- One event keeps both sides. -/
theorem Mutual.step (e : Event) (h : Mutual request peerIdHex watchers now es (reached request peerIdHex watchers now es)) :
    Mutual request peerIdHex watchers now (es ++ [e])
      (step request peerIdHex (reached request peerIdHex watchers now es) e) := by
  obtain ⟨hi, hr, ha⟩ := h
  cases e with
  | initiator e =>
    have hm : InitiatorMove request _ e _ := initiatorStep_move (s := reached request peerIdHex watchers now es) e
    obtain ⟨hresponder, hsent, hpaired, hprompts, hsub⟩ := hm.responder
    refine ⟨hi.move hm fun hyes => .now hyes, ?_, ?_⟩
    · refine (hr.later _).frame hresponder hsent hpaired hsub ?_
      intro w ask hask
      exact (congrArg (·.asks w) hprompts).trans hask
    · refine ⟨?_, fun {c k} hk => (ha.took ?_).snoc _⟩
      · exact hprompts ▸ ha.addressed
      · exact (congrArg (·.commands c) hprompts).symm.trans hk
  | responder e =>
    have hm : ResponderMove peerIdHex _ e _ := responderStep_move (s := reached request peerIdHex watchers now es) e
    obtain ⟨hinitiator, hsent, hlines, hpaired, hsub⟩ := hm.initiator
    refine ⟨(hi.later _).frame hinitiator hsent hlines hpaired hsub, ?_, ha.responderMove hm⟩
    exact hr.move ha hm (fun hun => .now hun) fun w hpub => .now hpub
  | prompts e =>
    refine ⟨(hi.later _).frame rfl rfl rfl rfl (List.Subset.refl _), ?_, ?_⟩
    · exact (hr.later _).frame rfl rfl rfl (List.Subset.refl _) fun hask => Prompts.step_asks_some e hask
    · refine ha.prompts fun c k htakes => ?_
      obtain ⟨o, he, htakes⟩ := htakes
      exact .now ⟨o, .inl (by rw [he]), htakes⟩
  | answer w c accepted =>
    cases hw : (reached request peerIdHex watchers now es).prompts.waiters w with
    | none =>
      have hstep : Pairing.step request peerIdHex (reached request peerIdHex watchers now es) (.answer w c accepted) =
          reached request peerIdHex watchers now es := by simp only [Pairing.step, answerStep, hw]
      rw [hstep]
      exact ⟨hi.later _, hr.later _, ha.later _⟩
    | some r =>
      have hstep : Pairing.step request peerIdHex (reached request peerIdHex watchers now es) (.answer w c accepted) =
          { reached request peerIdHex watchers now es with
            prompts := Prompts.step (reached request peerIdHex watchers now es).prompts (.confirm c r.ask.key accepted) } := by
        simp only [Pairing.step, answerStep, hw]
      rw [hstep]
      refine ⟨(hi.later _).frame rfl rfl rfl rfl (List.Subset.refl _), ?_, ?_⟩
      · exact (hr.later _).frame rfl rfl rfl (List.Subset.refl _) fun hask => Prompts.step_asks_some _ hask
      · refine ha.prompts fun c' k htakes => ?_
        obtain ⟨o, he, htakes⟩ := htakes
        injection he with hc hkey haccepted
        refine .now ⟨o, .inr ⟨w, r, ?_, hw, hkey⟩, htakes⟩
        rw [hc, haccepted]
  | watchers n =>
    refine ⟨(hi.later _).frame rfl rfl rfl rfl (List.Subset.refl _), ?_, ?_⟩
    · exact (hr.later _).frame rfl rfl rfl (List.Subset.refl _) id
    · exact ⟨ha.addressed, fun hk => (ha.took hk).snoc _⟩

end

def yesLine : String := "\x7b\"cmd\":\"pair_confirm\",\"accepted\":true\x7d"

def sampleRequest (line : String) : Option IpcRequest :=
  if line = yesLine then some ⟨"pair_confirm", some true⟩ else none

def samplePeer : String := hexEncode (List.replicate 32 7)

/-- The initiator asks its user, and the responder hears of it. -/
def begun : List Event :=
  [.initiator .proceed, .initiator .proceed, .responder .receive, .responder .proceed]

/-- The line is read. Both accept, read each other's PAIR_ACCEPT and insert. -/
def completed : List Event :=
  [.initiator .nextLine, .initiator .proceed, .responder .proceed, .initiator .receive, .responder .receive,
    .initiator .proceed, .responder .proceed]

/-- The answer to the prompt of waiter `w` is sent, and the session of waiter 0 goes on. -/
def answered (w : Nat) : List Event :=
  [.answer w 0 true, .prompts (.confirmSend 0), .prompts (.wake 0), .prompts (.cleanup 0), .responder .proceed]

/-- A watcher shows the prompt and its user says yes. -/
def askedRun : List Event :=
  begun ++ [.initiator (.line yesLine), .responder (.publish 0)] ++ answered 0 ++ completed

/-- Nobody watches. -/
def unattendedRun : List Event := begun ++ [.initiator (.line yesLine)] ++ completed

/-- The initiator's client says yes before the prompt is there. -/
def earlyRun : List Event := .initiator (.line yesLine) :: begun ++ completed

/-- Another session of the peer has published its prompt as waiter 1 before this one
does; the user answers that one. -/
def crossedRun : List Event :=
  begun ++ [.initiator (.line yesLine), .prompts (.publish 1 (.pair samplePeer)), .responder (.publish 0)] ++
    answered 1 ++ completed

end Nxfr.Pairing

/-
Copying files and trees over what is there, as Kotlin's `File.copyTo` and
`File.copyRecursively` do with `overwrite`.

What stands in the way of an entry is removed, a directory with all it holds
(`copyRecursively`) or only if it is empty (`copyTo`); a directory that is to be a
directory stays. A copy may be refused before it changes anything, fail when the
target is to be opened, or be cut with so many of its elements written. `Copied`
says where the disk stands when some of the entries of a walk have been copied.
-/
import Mathlib.Data.List.Basic
import Nxfr.Layout

namespace Disk

variable {ν β : Type}

/-- What an entry is on a disk. -/
def Entry.node (e : Entry ν β) : Node β := match e.content with
  | none => .dir
  | some c => .file c

/-- How the copy of an entry fails. -/
inductive CopyFault
  | refused
  | unopened
  | cut (n : Nat)
  deriving DecidableEq

/-- What the copy of an entry leaves at its place. -/
def Entry.left (e : Entry ν β) (fault : Option CopyFault) : Option (Node β) := match e.content, fault with
  | none, _ => some .dir
  | some _, some .unopened => none
  | some c, some (.cut n) => some (.file (c.take n))
  | some c, _ => some (.file c)

namespace Fs

variable [DecidableEq ν]

def removeTree (d : Fs ν β) (p : Path ν) : Fs ν β := fun q => if p <+: q then none else d q

/-- Something stands in the way of an entry. -/
def blocked (d : Fs ν β) (dst : Path ν) (e : Entry ν β) : Bool :=
  d.exists? dst && !(e.content.isNone && d.isDir dst)

/-- What stands in the way, taken away. -/
def cleared (d : Fs ν β) (dst : Path ν) (e : Entry ν β) : Fs ν β :=
  if d.blocked dst e then d.removeTree dst else d

/-- One entry of `copyRecursively`, and whether it is copied as a whole. -/
def copyEntry (d : Fs ν β) (root : Path ν) (e : Entry ν β) (fault : Option CopyFault) : Fs ν β × Bool :=
  if fault = some .refused then (d, false)
  else match e.content with
    | none =>
      (((d.cleared (root ++ e.path) e).addDirs (root ++ e.path)).getD (d.cleared (root ++ e.path) e), true)
    | some _ => match (d.cleared (root ++ e.path) e).addDirs (root ++ e.path).dropLast with
      | none => (d.cleared (root ++ e.path) e, false)
      | some made => (made.set (root ++ e.path) (e.left fault), fault.isNone)

/-- `copyRecursively`, entry by entry, until one fails. -/
def copyRecursively (d : Fs ν β) (root : Path ν) (fault : Entry ν β → Option CopyFault) : List (Entry ν β) → Fs ν β × Bool
  | [] => (d, true)
  | e :: es => match d.copyEntry root e (fault e) with
    | (d, true) => d.copyRecursively root fault es
    | (d, false) => (d, false)

/-- `copyTo` of a file, where a target that is there can be deleted or not. -/
def copyTo (d : Fs ν β) (dst : Path ν) (c : List β) (deletes : Bool) (fault : Option CopyFault) : Fs ν β × Bool :=
  if d.exists? dst ∧ deletes = false then (d, false)
  else d.copyEntry dst ⟨[], some c⟩ fault

/-- A node put at a path, with the directories above it, over what was there. -/
def put (d : Fs ν β) (dst : Path ν) (node : Option (Node β)) (clear : Bool) : Fs ν β := fun q =>
  if q = dst then node
  else if dst <+: q then if clear then none else d q
  else if q <+: dst ∧ d q = none then some .dir
  else d q

/-- No file lies above a path. -/
def Open (d : Fs ν β) (dst : Path ν) : Prop := ∀ q, q <+: dst → q ≠ dst → d.isFile q = false

end Fs

/-- What the copy of the entries of a walk leaves at their places, until one fails. -/
def attempted (fault : Entry ν β → Option CopyFault) : List (Entry ν β) → List (Path ν × Option (Node β))
  | [] => []
  | e :: es => match fault e, e.content with
    | some .refused, _ => []
    | some _, some _ => [(e.path, e.left (fault e))]
    | _, _ => (e.path, some e.node) :: attempted fault es

section

variable {d : Fs ν β} {dst p q : Path ν}

theorem prefix_antisymm (hpq : p <+: q) (hqp : q <+: p) : p = q :=
  hpq.eq_of_length (Nat.le_antisymm hpq.length_le hqp.length_le)

theorem prefix_dropLast_iff (hne : dst ≠ []) : q <+: dst.dropLast ↔ q <+: dst ∧ q ≠ dst := by
  constructor
  · intro hq
    refine ⟨hq.trans (List.dropLast_prefix dst), fun heq => ?_⟩
    have hlen := (heq ▸ hq).length_le
    have hpos := List.length_pos_iff.mpr hne
    rw [List.length_dropLast] at hlen
    omega
  · intro ⟨hq, hqne⟩
    rcases List.eq_nil_or_concat dst with rfl | ⟨init, a, rfl⟩
    · exact absurd rfl hne
    · rw [List.concat_eq_append] at hq hqne ⊢
      rw [List.dropLast_concat]
      exact (List.prefix_concat_iff.mp hq).resolve_left hqne

theorem Fs.Sound.nothing_below (h : d.Sound) (hdst : d dst ≠ some .dir) (hq : dst <+: q) (hne : q ≠ dst) : d q = none := by
  by_contra hsome
  exact hdst (h dst q hq (Ne.symm hne) hsome)

theorem Fs.isFile_eq_false : d.isFile p = false ↔ ∀ c, d p ≠ some (.file c) := by
  unfold Fs.isFile
  split
  · rename_i c hc
    simp [hc]
  · rename_i hno
    simpa using hno

/-- Above an open path there are directories, or nothing. -/
theorem Fs.Open.dir (h : d.Open dst) (hq : q <+: dst) (hne : q ≠ dst) : d q = some .dir ∨ d q = none := by
  have hfile := Fs.isFile_eq_false.mp (h q hq hne)
  cases hd : d q with
  | none => exact .inr rfl
  | some node =>
    cases node with
    | file c => exact absurd hd (hfile c)
    | dir => exact .inl rfl

/-- A directory is open above what is right below it. -/
theorem Fs.Sound.open_of_parent (h : d.Sound) (hparent : d dst.dropLast = some .dir) : d.Open dst := by
  intro q hq hne
  have hdst : dst ≠ [] := by
    rintro rfl
    exact hne (List.prefix_nil.mp hq)
  simp [Fs.isFile, h.grounded hparent q ((prefix_dropLast_iff hdst).mpr ⟨hq, hne⟩)]

theorem Entry.left_dir {e : Entry ν β} {fault : Option CopyFault} (he : e.content = none) : e.left fault = some e.node := by
  simp only [Entry.left, Entry.node, he]

theorem Entry.left_whole {e : Entry ν β} : e.left none = some e.node := by
  unfold Entry.left Entry.node
  split <;> simp_all

theorem Entry.left_file {e : Entry ν β} {fault : Option CopyFault} {c : List β} (he : e.content = some c) :
    e.left fault ≠ some .dir := by
  rcases fault with - | - | - | n <;> simp [Entry.left, he]

theorem Fs.not_blocked {e : Entry ν β} (hblocked : d.blocked dst e = false) (hdir : d dst = some .dir) : e.content = none := by
  simpa [Fs.blocked, Fs.exists?, Fs.isDir, hdir] using hblocked

end

section

variable [DecidableEq ν] {d d₀ : Fs ν β} {root dst p q : Path ν} {e : Entry ν β} {es : List (Entry ν β)}
  {done : List (Path ν × Option (Node β))} {fault : Option CopyFault} {node : Option (Node β)} {clear : Bool}

theorem Fs.put_self : d.put dst node clear dst = node := if_pos rfl

theorem Fs.put_above (hq : q <+: dst) (hne : q ≠ dst) :
    d.put dst node clear q = if d q = none then some .dir else d q := by
  have hbelow : ¬ dst <+: q := fun h => hne (prefix_antisymm hq h)
  simp only [Fs.put, if_neg hne, if_neg hbelow, hq, true_and]

theorem Fs.put_aside (hdst : ¬ dst <+: q) (hq : ¬ q <+: dst) : d.put dst node clear q = d q := by
  have hne : q ≠ dst := fun h => hq (h ▸ List.prefix_rfl)
  simp only [Fs.put, if_neg hne, if_neg hdst, hq, false_and, if_false]

theorem Fs.put_below (hq : dst <+: q) (hne : q ≠ dst) : d.put dst node clear q = if clear then none else d q := by
  simp only [Fs.put, if_neg hne, if_pos hq]

theorem Fs.Sound.put (h : d.Sound) (hopen : d.Open dst) (hnode : clear = false → d dst = some .dir → node = some .dir) :
    (d.put dst node clear).Sound := by
  have habove : ∀ {p}, p <+: dst → p ≠ dst → d.put dst node clear p = some .dir := by
    intro p hp hne
    rw [Fs.put_above hp hne]
    split
    · rfl
    · rename_i hsome
      exact (hopen.dir hp hne).resolve_right hsome
  intro p q hpq hne hq
  by_cases hqdst : q <+: dst
  · by_cases hself : q = dst
    · subst hself
      exact habove hpq hne
    · exact habove (hpq.trans hqdst) fun heq => hself (prefix_antisymm hqdst (heq ▸ hpq))
  · by_cases hbelow : dst <+: q
    · have hqne : q ≠ dst := fun heq => hqdst (heq ▸ List.prefix_rfl)
      rw [Fs.put_below hbelow hqne] at hq
      split at hq
      · exact absurd rfl hq
      · rename_i hclear
        have hdir := h dst q hbelow (Ne.symm hqne) hq
        rcases List.prefix_or_prefix_of_prefix hpq hbelow with hp | hp
        · by_cases hself : p = dst
          · rw [hself, Fs.put_self, hnode (by simpa using hclear) hdir]
          · exact habove hp hself
        · by_cases hself : p = dst
          · rw [hself, Fs.put_self, hnode (by simpa using hclear) hdir]
          · rw [Fs.put_below hp hself, if_neg hclear]
            exact h p q hpq hne hq
    · rw [Fs.put_aside hbelow hqdst] at hq
      have hdir := h p q hpq hne hq
      by_cases hp : p <+: dst
      · exact habove hp fun heq => hbelow (heq ▸ hpq)
      · rw [Fs.put_aside (fun hp' => hbelow (hp'.trans hpq)) hp]
        exact hdir

theorem Fs.cleared_above (hq : ¬ dst <+: q) : d.cleared dst e q = d q := by
  unfold Fs.cleared Fs.removeTree
  split
  · exact if_neg hq
  · rfl

theorem Fs.cleared_below (hq : dst <+: q) : d.cleared dst e q = if d.blocked dst e then none else d q := by
  unfold Fs.cleared Fs.removeTree
  split
  · exact if_pos hq
  · rfl

theorem Fs.cleared_not_file (d : Fs ν β) (dst : Path ν) (e : Entry ν β) : (d.cleared dst e).isFile dst = false := by
  rw [Fs.isFile_eq_false]
  intro c hc
  rw [Fs.cleared_below List.prefix_rfl] at hc
  split at hc
  · cases hc
  · rename_i hblocked
    simp [Fs.blocked, Fs.exists?, Fs.isDir, hc] at hblocked

/-- What is cleared for an entry is open as before. -/
theorem Fs.Open.cleared (h : d.Open dst) (e : Entry ν β) : (d.cleared dst e).Open dst := by
  intro q hq hne
  have hsame : d.cleared dst e q = d q := Fs.cleared_above fun hbelow => hne (prefix_antisymm hq hbelow)
  rw [Fs.isFile, hsame]
  exact h q hq hne

/-- **What a copy does.** It puts the entry, or what is written of it, at its place
over what stood in the way. -/
theorem copyEntry_eq (hopen : d.Open (root ++ e.path)) (hne : root ++ e.path ≠ []) (hfault : fault ≠ some .refused) :
    d.copyEntry root e fault =
      (d.put (root ++ e.path) (e.left fault) (d.blocked (root ++ e.path) e),
        e.content.isNone || fault.isNone) := by
  have hcleared := hopen.cleared e
  generalize hdst : root ++ e.path = dst at hopen hne hcleared
  rw [Fs.copyEntry, if_neg hfault, hdst]
  cases hc : e.content with
  | none =>
    have hnode : e.left fault = some .dir := by simp only [Entry.left, hc]
    obtain ⟨made, hmade⟩ := Fs.addDirs_isSome (d := d.cleared dst e) (p := dst) fun q hq => by
      by_cases hself : q = dst
      · rw [hself]
        exact Fs.cleared_not_file d dst e
      · exact hcleared q hq hself
    obtain ⟨-, hmade'⟩ := Fs.addDirs_eq hmade
    simp only [hmade, Option.getD_some, hnode, Option.isNone_none, Bool.true_or, Prod.mk.injEq, and_true]
    funext q
    rw [hmade']
    by_cases hq : q <+: dst
    · by_cases hself : q = dst
      · subst hself
        rw [Fs.put_self]
        split
        · rfl
        · rename_i hsome
          have hfile := Fs.isFile_eq_false.mp (d.cleared_not_file q e)
          cases hnode' : d.cleared q e q with
          | none => exact absurd ⟨hq, hnode'⟩ hsome
          | some node => cases node with
            | file c => exact absurd hnode' (hfile c)
            | dir => rfl
      · have habove : ¬ dst <+: q := fun h => hself (prefix_antisymm hq h)
        rw [Fs.put_above hq hself, Fs.cleared_above habove]
        simp only [hq, true_and]
    · simp only [hq, false_and, if_false]
      by_cases hbelow : dst <+: q
      · rw [Fs.cleared_below hbelow, Fs.put_below hbelow fun heq => hq (heq ▸ List.prefix_rfl)]
      · rw [Fs.cleared_above hbelow, Fs.put_aside hbelow hq]
  | some c =>
    obtain ⟨made, hmade⟩ := Fs.addDirs_isSome (d := d.cleared dst e) (p := dst.dropLast) fun q hq => by
      obtain ⟨hq, hself⟩ := (prefix_dropLast_iff hne).mp hq
      exact hcleared q hq hself
    obtain ⟨-, hmade'⟩ := Fs.addDirs_eq hmade
    simp only [hmade, Option.isNone_some, Bool.false_or, Prod.mk.injEq, and_true]
    funext q
    by_cases hself : q = dst
    · rw [hself, Fs.put_self, Fs.set, if_pos rfl]
    · rw [Fs.set, if_neg hself, hmade']
      simp only [prefix_dropLast_iff hne]
      by_cases hq : q <+: dst
      · have habove : ¬ dst <+: q := fun h => hself (prefix_antisymm hq h)
        rw [Fs.put_above hq hself, Fs.cleared_above habove]
        simp only [hq, hself, ne_eq, not_false_eq_true, and_self, true_and]
      · simp only [hq, false_and, if_false]
        by_cases hbelow : dst <+: q
        · rw [Fs.cleared_below hbelow, Fs.put_below hbelow hself]
        · rw [Fs.cleared_above hbelow, Fs.put_aside hbelow hq]

/-- What is not below the place of an entry stays. -/
theorem Fs.put_keeps (hbelow : ¬ dst <+: q) (hq : d q ≠ none) : d.put dst node clear q = d q := by
  by_cases habove : q <+: dst
  · rw [Fs.put_above habove fun heq => hbelow (heq ▸ List.prefix_rfl), if_neg hq]
  · exact Fs.put_aside hbelow habove

/-- Every entry is the root or in a directory before it. -/
def Closed : List (Path ν × Option (Node β)) → List (Entry ν β) → Prop
  | _, [] => True
  | done, e :: es =>
    (e.path = [] ∨ (e.path.dropLast, some .dir) ∈ done) ∧ Closed (done ++ [(e.path, some e.node)]) es

/-- The disk when some entries have been copied below a root. What was there below
the root is the same if this is what was at their places already. -/
structure Copied (d₀ : Fs ν β) (root : Path ν) (done : List (Path ν × Option (Node β))) (d : Fs ν β) : Prop where
  sound : d.Sound
  rootOpen : d.Open root
  placed : ∀ x ∈ done, d (root ++ x.1) = x.2
  others : ∀ q, ¬ root <+: q → d q = d₀ q ∨ (q <+: root ∧ d₀ q = none ∧ d q = some .dir)
  same : (∀ x ∈ done, d₀ (root ++ x.1) = x.2) → ∀ p, d (root ++ p) = d₀ (root ++ p)

omit [DecidableEq ν] in
theorem Copied.start (hs : d.Sound) (hopen : d.Open root) : Copied d root [] d :=
  ⟨hs, hopen, fun e he => (by cases he), fun _ _ => .inl rfl, fun _ _ => rfl⟩

/-- One more entry. -/
theorem Copied.copyEntry (h : Copied d₀ root done d) (hroot : root ≠ []) (hwhole : ∀ x ∈ done, x.2 ≠ none)
    (hwalk : ∀ x ∈ done, ¬ e.path <+: x.1)
    (hparent : e.path = [] ∨ (e.path.dropLast, some .dir) ∈ done) (hfault : fault ≠ some .refused) :
    Copied d₀ root (done ++ [(e.path, e.left fault)]) (d.copyEntry root e fault).1 ∧
      (d.copyEntry root e fault).2 = (e.content.isNone || fault.isNone) := by
  have hopen : d.Open (root ++ e.path) := by
    rcases hparent with hnil | hdir
    · rw [hnil, List.append_nil]
      exact h.rootOpen
    · by_cases hnil : e.path = []
      · rw [hnil, List.append_nil]
        exact h.rootOpen
      · refine h.sound.open_of_parent ?_
        rw [List.dropLast_append_of_ne_nil hnil]
        exact h.placed _ hdir
  rw [copyEntry_eq hopen (by simp [hroot]) hfault]
  refine ⟨?_, rfl⟩
  change Copied d₀ root _ (d.put _ _ _)
  refine ⟨h.sound.put hopen ?_, ?_, ?_, ?_, ?_⟩
  · intro hblocked hdir
    exact (Entry.left_dir (Fs.not_blocked hblocked hdir)).trans (by rw [Entry.node, Fs.not_blocked hblocked hdir])
  · intro q hq hne
    have hbelow : ¬ root ++ e.path <+: q := by
      intro hdst
      exact hne (prefix_antisymm hq ((List.prefix_append root e.path).trans hdst))
    have hdir := h.rootOpen.dir hq hne
    have habove : q <+: root ++ e.path := hq.trans (List.prefix_append root e.path)
    have hqne : q ≠ root ++ e.path := fun heq => hbelow (heq ▸ List.prefix_rfl)
    rw [Fs.isFile, Fs.put_above habove hqne]
    rcases hdir with hdir | hdir <;> simp [hdir]
  · intro x hx
    rcases List.mem_append.mp hx with hx | hx
    · have hplaced := h.placed x hx
      have hbelow : ¬ root ++ e.path <+: root ++ x.1 :=
        fun hbelow => hwalk x hx ((List.prefix_append_right_inj root).mp hbelow)
      rw [Fs.put_keeps hbelow (by rw [hplaced]; exact hwhole x hx), hplaced]
    · rw [List.mem_singleton.mp hx]
      exact Fs.put_self
  · intro q hq
    have hbelow : ¬ root ++ e.path <+: q := fun hdst => hq ((List.prefix_append root e.path).trans hdst)
    by_cases habove : q <+: root ++ e.path
    · have hqroot : q <+: root := (List.prefix_or_prefix_of_prefix habove (List.prefix_append root e.path)).resolve_right hq
      rw [Fs.put_above habove fun heq => hbelow (heq ▸ List.prefix_rfl)]
      split
      · rename_i hnone
        rcases h.others q hq with hsame | hmade
        · exact .inr ⟨hqroot, hsame.symm.trans hnone, rfl⟩
        · exact .inr ⟨hqroot, hmade.2.1, rfl⟩
      · exact h.others q hq
    · rw [Fs.put_aside hbelow habove]
      exact h.others q hq
  · intro hall p
    have hsame := h.same fun x hx => hall x (by simp [hx])
    have hdst : d (root ++ e.path) = e.left fault := by
      rw [hsame]
      exact hall (e.path, e.left fault) (by simp)
    by_cases hself : root ++ p = root ++ e.path
    · rw [hself, Fs.put_self, ← hdst, hsame]
    · by_cases hbelow : root ++ e.path <+: root ++ p
      · rw [Fs.put_below hbelow hself]
        split
        · rename_i hblocked
          refine Eq.trans (Eq.symm (h.sound.nothing_below ?_ hbelow hself)) (hsame p)
          intro hdir
          have hcontent : e.content ≠ none := by
            intro hnone
            simp [Fs.blocked, Fs.isDir, hdir, hnone] at hblocked
          obtain ⟨c, hc⟩ := Option.ne_none_iff_exists'.mp hcontent
          exact Entry.left_file hc (hdst.symm.trans hdir)
        · exact hsame p
      · by_cases habove : root ++ p <+: root ++ e.path
        · have hp := (List.prefix_append_right_inj root).mp habove
          have hne : e.path ≠ [] := by
            intro hnil
            rw [hnil, List.prefix_nil] at hp
            exact hself (by rw [hp, hnil])
          have hdir := h.placed _ (hparent.resolve_left hne)
          have hp' := (prefix_dropLast_iff hne).mpr ⟨hp, fun heq => hself (by rw [heq])⟩
          have hq := h.sound.grounded hdir _ ((List.prefix_append_right_inj root).mpr hp')
          rw [Fs.put_keeps hbelow (by simp [hq]), hsame]
        · rw [Fs.put_aside hbelow habove, hsame]

theorem Fs.copyRecursively_next {faults : Entry ν β → Option CopyFault} (h : (d.copyEntry root e (faults e)).2 = true) :
    d.copyRecursively root faults (e :: es) = (d.copyEntry root e (faults e)).1.copyRecursively root faults es := by
  unfold Fs.copyRecursively
  split
  · rename_i d' heq
    rw [heq]
    cases es <;> rfl
  · rename_i d' heq
    rw [heq] at h
    cases h

theorem Fs.copyRecursively_fails {faults : Entry ν β → Option CopyFault}
    (h : (d.copyEntry root e (faults e)).2 = false) :
    d.copyRecursively root faults (e :: es) = ((d.copyEntry root e (faults e)).1, false) := by
  unfold Fs.copyRecursively
  split
  · rename_i d' heq
    rw [heq] at h
    cases h
  · rename_i d' heq
    rw [heq]

/-- The entries of a walk, as far as they are copied. -/
theorem Copied.copyRecursively (faults : Entry ν β → Option CopyFault) (h : Copied d₀ root done d) (hroot : root ≠ [])
    (hwhole : ∀ x ∈ done, x.2 ≠ none) (hwalk : ∀ e ∈ es, ∀ x ∈ done, ¬ e.path <+: x.1)
    (hpair : es.Pairwise fun a b => ¬ b.path <+: a.path) (hclosed : Closed done es) :
    Copied d₀ root (done ++ attempted faults es) (d.copyRecursively root faults es).1 ∧
      ((d.copyRecursively root faults es).2 = true → attempted faults es = es.map fun e => (e.path, some e.node)) := by
  induction es generalizing d done with
  | nil => exact ⟨by rw [attempted, List.append_nil]; exact h, fun _ => rfl⟩
  | cons e es ih =>
    obtain ⟨hparent, hrest⟩ := hclosed
    obtain ⟨hafter, hpair⟩ := List.pairwise_cons.mp hpair
    -- The rest, when the entry is copied as a whole.
    have hgo : e.left (faults e) = some e.node → faults e ≠ some .refused → (e.content.isNone || (faults e).isNone) = true →
        Copied d₀ root (done ++ (e.path, some e.node) :: attempted faults es) (d.copyRecursively root faults (e :: es)).1 ∧
          ((d.copyRecursively root faults (e :: es)).2 = true →
            (e.path, some e.node) :: attempted faults es = (e :: es).map fun e => (e.path, some e.node)) := by
      intro hleft hfault hok'
      obtain ⟨hstep, hok⟩ := h.copyEntry hroot hwhole (hwalk e (by simp)) hparent hfault
      rw [hleft] at hstep
      rw [hok'] at hok
      have hlater := ih hstep (fun x hx => ?_) (fun x hx y hy => ?_) hpair hrest
      · rw [List.append_assoc, List.singleton_append] at hlater
        rw [Fs.copyRecursively_next hok]
        exact ⟨hlater.1, fun h => by rw [hlater.2 h, List.map_cons]⟩
      · rcases List.mem_append.mp hx with hx | hx
        · exact hwhole x hx
        · simp [List.mem_singleton.mp hx]
      · rcases List.mem_append.mp hy with hy | hy
        · exact hwalk x (by simp [hx]) y hy
        · rw [List.mem_singleton.mp hy]
          exact hafter x hx
    -- The last, when what is left of it is no whole entry.
    have hlast : ∀ c, e.content = some c → faults e ≠ none → faults e ≠ some .refused →
        Copied d₀ root (done ++ [(e.path, e.left (faults e))]) (d.copyRecursively root faults (e :: es)).1 ∧
          (d.copyRecursively root faults (e :: es)).2 = false := by
      intro c hc hsome hfault
      obtain ⟨hstep, hok⟩ := h.copyEntry hroot hwhole (hwalk e (by simp)) hparent hfault
      have hfails : (d.copyEntry root e (faults e)).2 = false := by
        rw [hok, hc]
        simpa using Option.isSome_iff_ne_none.mpr hsome
      rw [Fs.copyRecursively_fails hfails]
      exact ⟨hstep, rfl⟩
    rcases hf : faults e with - | - | - | n
    · simp only [attempted, hf]
      exact hgo (by rw [hf]; exact Entry.left_whole) (by simp [hf]) (by simp [hf])
    · have hentry : d.copyEntry root e (faults e) = (d, false) := by
        rw [hf]
        exact if_pos rfl
      rw [Fs.copyRecursively_fails (by rw [hentry]), hentry]
      simp only [attempted, hf, List.append_nil]
      exact ⟨h, fun h => by cases h⟩
    · cases hc : e.content with
      | none =>
        simp only [attempted, hf, hc]
        exact hgo (Entry.left_dir hc) (by simp [hf]) (by simp [hc])
      | some c =>
        obtain ⟨hcopied, hfails⟩ := hlast c hc (by simp [hf]) (by simp [hf])
        simp only [attempted, hf, hc, hfails]
        rw [hf] at hcopied
        exact ⟨hcopied, fun h => by cases h⟩
    · cases hc : e.content with
      | none =>
        simp only [attempted, hf, hc]
        exact hgo (Entry.left_dir hc) (by simp [hf]) (by simp [hc])
      | some c =>
        obtain ⟨hcopied, hfails⟩ := hlast c hc (by simp [hf]) (by simp [hf])
        simp only [attempted, hf, hc, hfails]
        rw [hf] at hcopied
        exact ⟨hcopied, fun h => by cases h⟩

end

end Disk

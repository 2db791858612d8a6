/-
A file system with symbolic links, and where a path leads in it.

A tree says what is at each real path: a file, a directory or a link, each in
a directory. A path is followed name by name; at a link the walk goes on with
the link's target, from the root or from the directory the link is in, at most
a given number of times. `resolve_append` says that a path can be followed in
two parts, and `createDirAll_made` what making the missing directories of a
path does to a tree.
-/
import Mathlib.Data.List.Induction
import Mathlib.Data.List.Infix

namespace Links

/-- A component of a path. -/
inductive Step (ν : Type) where
  | name (c : ν)
  | up
  deriving DecidableEq

/-- What a link says: a path from the root or from the directory it is in. -/
structure Target (ν : Type) where
  absolute : Bool
  steps : List (Step ν)
  deriving DecidableEq

inductive Node (ν : Type) where
  | file
  | dir
  | link (target : Target ν)
  deriving DecidableEq

/-- What is at each real path. -/
structure Tree (ν : Type) where
  entry : List ν → Option (Node ν)
  root : entry [] = some .dir
  inDirs : ∀ p c, entry (p ++ [c]) ≠ none → entry p = some .dir

variable {ν : Type} [DecidableEq ν]

/-- Every path of the list is in a directory of the list, or in the root. -/
def listed (l : List (List ν × Node ν)) : Bool :=
  l.all fun e => e.1 != [] && (e.1.dropLast == [] || l.lookup e.1.dropLast == some .dir)

/-- The tree with these entries below the root. -/
def Tree.ofList (l : List (List ν × Node ν)) (h : listed l = true) : Tree ν where
  entry p := if p = [] then some .dir else l.lookup p
  root := if_pos rfl
  inDirs := by
    intro p c hentry
    rw [if_neg (by simp)] at hentry
    obtain ⟨node, hnode⟩ := Option.ne_none_iff_exists'.mp hentry
    have hmem : (p ++ [c], node) ∈ l := by
      obtain ⟨l₁, l₂, rfl, -⟩ := List.lookup_eq_some_iff.mp hnode
      simp
    have hlisted := List.all_eq_true.mp h _ hmem
    simp only [List.dropLast_concat, Bool.and_eq_true, Bool.or_eq_true, beq_iff_eq] at hlisted
    split
    · rfl
    · rename_i hne
      exact hlisted.2.resolve_left hne

def Target.base (target : Target ν) (dir : List ν) : List ν := if target.absolute then [] else dir

/-! ## Where a path leads -/

/-- How far a path can be followed without a link. -/
inductive Stride (ν : Type) where
  | arrived (p : List ν)
  | missing (dir : List ν) (c : ν) (rest : List (Step ν))
  | notDir
  | follow (dir : List ν) (target : Target ν) (rest : List (Step ν))

/-- Where a path leads: to something that exists, to a name that is missing in
a directory with what is left of the path, or nowhere. The number is how many
more links may be followed. -/
inductive Outcome (ν : Type) where
  | found (left : Nat) (p : List ν)
  | missing (left : Nat) (dir : List ν) (c : ν) (rest : List (Step ν))
  | notDir
  | loop
  deriving DecidableEq

namespace Tree

variable (t : Tree ν)

def stride (cur : List ν) : List (Step ν) → Stride ν
  | [] => .arrived cur
  | s :: rest =>
    if t.entry cur = some .dir then
      match s with
      | .up => stride cur.dropLast rest
      | .name c => match t.entry (cur ++ [c]) with
        | none => .missing cur c rest
        | some (.link target) => .follow cur target rest
        | some _ => stride (cur ++ [c]) rest
    else .notDir

def resolve : Nat → List ν → List (Step ν) → Outcome ν
  | 0, cur, steps => match t.stride cur steps with
    | .arrived p => .found 0 p
    | .missing dir c rest => .missing 0 dir c rest
    | .notDir => .notDir
    | .follow _ _ _ => .loop
  | k + 1, cur, steps => match t.stride cur steps with
    | .arrived p => .found (k + 1) p
    | .missing dir c rest => .missing (k + 1) dir c rest
    | .notDir => .notDir
    | .follow dir target rest => resolve k (target.base dir) (target.steps ++ rest)

end Tree

/-- The walk goes on from where it got. -/
def Outcome.bind (o : Outcome ν) (f : Nat → List ν → Outcome ν) (more : List (Step ν)) : Outcome ν := match o with
  | .found left p => f left p
  | .missing left dir c rest => .missing left dir c (rest ++ more)
  | .notDir => .notDir
  | .loop => .loop

/-- Where a file opened for writing is, or is made: links are followed, and
only the last name may be missing. -/
def Outcome.location : Outcome ν → Option (List ν)
  | .found _ p => some p
  | .missing _ dir c [] => some (dir ++ [c])
  | _ => none

def Stride.bind (w : Stride ν) (f : List ν → Stride ν) (more : List (Step ν)) : Stride ν := match w with
  | .arrived p => f p
  | .missing dir c rest => .missing dir c (rest ++ more)
  | .notDir => .notDir
  | .follow dir target rest => .follow dir target (rest ++ more)

namespace Tree

variable {t t' : Tree ν}

theorem stride_append (cur : List ν) (xs ys : List (Step ν)) :
    t.stride cur (xs ++ ys) = (t.stride cur xs).bind (fun p => t.stride p ys) ys := by
  induction xs generalizing cur with
  | nil => rfl
  | cons s xs ih =>
    simp only [List.cons_append, stride]
    by_cases hdir : t.entry cur = some .dir
    · simp only [if_pos hdir]
      cases s with
      | up => exact ih _
      | name c =>
        simp only
        split
        · rfl
        · rfl
        · exact ih _
    · simp only [if_neg hdir]
      rfl

/-- A path can be followed in two parts. -/
theorem resolve_append (k : Nat) (cur : List ν) (xs ys : List (Step ν)) :
    t.resolve k cur (xs ++ ys) = (t.resolve k cur xs).bind (fun left p => t.resolve left p ys) ys := by
  induction k generalizing cur xs with
  | zero =>
    simp only [resolve, stride_append]
    cases hw : t.stride cur xs with
    | arrived p => simp [Stride.bind, Outcome.bind, resolve]
    | missing dir c rest => simp [Stride.bind, Outcome.bind]
    | notDir => simp [Stride.bind, Outcome.bind]
    | follow dir target rest => simp [Stride.bind, Outcome.bind]
  | succ k ih =>
    simp only [resolve, stride_append]
    cases hw : t.stride cur xs with
    | arrived p => simp [Stride.bind, Outcome.bind, resolve]
    | missing dir c rest => simp [Stride.bind, Outcome.bind]
    | notDir => simp [Stride.bind, Outcome.bind]
    | follow dir target rest =>
      simp only [Stride.bind]
      rw [← List.append_assoc, ih]

/-! ## Trees that grow -/

/-- Everything in `t` is in `t'` too. -/
def Extends (t t' : Tree ν) : Prop := ∀ p, t.entry p ≠ none → t'.entry p = t.entry p

/-- The walk over what is there does not change. -/
theorem Extends.stride (h : t.Extends t') (cur : List ν) (steps : List (Step ν)) :
    (∃ dir c rest, t.stride cur steps = .missing dir c rest) ∨ t.stride cur steps = .notDir ∨
      t'.stride cur steps = t.stride cur steps := by
  induction steps generalizing cur with
  | nil => exact .inr (.inr rfl)
  | cons s rest ih =>
    simp only [Tree.stride]
    by_cases hdir : t.entry cur = some .dir
    · have hdir' : t'.entry cur = some .dir := by rw [h cur (by simp [hdir]), hdir]
      simp only [if_pos hdir, if_pos hdir']
      cases s with
      | up => exact ih _
      | name c =>
        cases hentry : t.entry (cur ++ [c]) with
        | none =>
          simp only [hentry]
          exact .inl ⟨cur, c, rest, rfl⟩
        | some node =>
          have hentry' : t'.entry (cur ++ [c]) = some node := by rw [h _ (by simp [hentry]), hentry]
          simp only [hentry, hentry']
          cases node with
          | link target => exact .inr (.inr rfl)
          | file => exact ih _
          | dir => exact ih _
    · simp only [if_neg hdir]
      exact .inr (.inl trivial)

theorem Extends.resolve_found (h : t.Extends t') {k left : Nat} {cur p : List ν} {steps : List (Step ν)}
    (hfound : t.resolve k cur steps = .found left p) : t'.resolve k cur steps = .found left p := by
  induction k generalizing cur steps with
  | zero =>
    simp only [resolve] at hfound ⊢
    rcases h.stride cur steps with ⟨dir, c, rest, hw⟩ | hw | hw
    · simp [hw] at hfound
    · simp [hw] at hfound
    · rw [hw]
      exact hfound
  | succ k ih =>
    simp only [resolve] at hfound ⊢
    rcases h.stride cur steps with ⟨dir, c, rest, hw⟩ | hw | hw
    · simp [hw] at hfound
    · simp [hw] at hfound
    · rw [hw]
      split at hfound
      · exact hfound
      · cases hfound
      · cases hfound
      · exact ih hfound

/-- Directories one below the other are followed by name. -/
theorem resolve_dirs {k : Nat} {cur : List ν} {cs : List ν} (h : ∀ ds, ds <+: cs → t.entry (cur ++ ds) = some .dir) :
    t.resolve k cur (cs.map .name) = .found k (cur ++ cs) := by
  have hstride : t.stride cur (cs.map .name) = .arrived (cur ++ cs) := by
    induction cs generalizing cur with
    | nil => simp [stride]
    | cons c cs ih =>
      have hcur : t.entry cur = some .dir := by simpa using h [] (List.nil_prefix)
      have hnext : t.entry (cur ++ [c]) = some .dir := h [c] (by simp)
      simp only [List.map_cons, stride, if_pos hcur, hnext]
      rw [ih, List.append_assoc, List.singleton_append]
      intro ds hds
      rw [List.append_assoc, List.singleton_append]
      exact h (c :: ds) (List.cons_prefix_cons.mpr ⟨rfl, hds⟩)
  cases k <;> simp only [resolve, hstride]

omit [DecidableEq ν] in
/-- What is above an entry is a directory. -/
theorem entry_above (t : Tree ν) {p q : List ν} (hq : t.entry (p ++ q) ≠ none) (hne : q ≠ []) : t.entry p = some .dir := by
  induction q using List.reverseRecOn with
  | nil => exact absurd rfl hne
  | append_singleton q c ih =>
    rw [← List.append_assoc] at hq
    have hdir := t.inDirs _ c hq
    by_cases hnil : q = []
    · subst hnil
      simpa using hdir
    · exact ih (by simp [hdir]) hnil

theorem stride_entry {cur : List ν} {steps : List (Step ν)} (hcur : t.entry cur ≠ none) :
    (∀ p, t.stride cur steps = .arrived p → t.entry p ≠ none) ∧
      ∀ dir target rest, t.stride cur steps = .follow dir target rest → t.entry dir = some .dir := by
  induction steps generalizing cur with
  | nil =>
    refine ⟨?_, nofun⟩
    intro p h
    cases h
    exact hcur
  | cons s rest ih =>
    simp only [stride]
    by_cases hdir : t.entry cur = some .dir
    · simp only [if_pos hdir]
      cases s with
      | up =>
        refine ih ?_
        rcases List.eq_nil_or_concat cur with rfl | ⟨init, c, rfl⟩
        · simp [t.root]
        · rw [List.concat_eq_append, List.dropLast_concat, t.inDirs init c (by simpa using hcur)]
          simp
      | name c =>
        cases hentry : t.entry (cur ++ [c]) with
        | none =>
          simp only [hentry]
          exact ⟨nofun, nofun⟩
        | some node =>
          have hnext : t.entry (cur ++ [c]) ≠ none := by simp [hentry]
          simp only [hentry]
          cases node with
          | link target =>
            refine ⟨nofun, ?_⟩
            intro dir target' rest' h
            cases h
            exact hdir
          | file => exact ih hnext
          | dir => exact ih hnext
    · simp only [if_neg hdir]
      exact ⟨nofun, nofun⟩

/-- What a path leads to exists. -/
theorem resolve_entry {k left : Nat} {cur p : List ν} {steps : List (Step ν)} (hcur : t.entry cur ≠ none)
    (h : t.resolve k cur steps = .found left p) : t.entry p ≠ none := by
  induction k generalizing cur steps with
  | zero =>
    simp only [resolve] at h
    split at h
    · rename_i p' hw
      cases h
      exact (stride_entry hcur).1 _ hw
    · cases h
    · cases h
    · cases h
  | succ k ih =>
    simp only [resolve] at h
    split at h
    · rename_i p' hw
      cases h
      exact (stride_entry hcur).1 _ hw
    · cases h
    · cases h
    · rename_i dir target rest hw
      refine ih ?_ h
      unfold Target.base
      split
      · simp [t.root]
      · simp [(stride_entry hcur).2 _ _ _ hw]

theorem resolve_left_le {k left : Nat} {cur p : List ν} {steps : List (Step ν)}
    (h : t.resolve k cur steps = .found left p) : left ≤ k := by
  induction k generalizing cur steps with
  | zero =>
    simp only [resolve] at h
    split at h
    · cases h
      exact Nat.le_refl _
    · cases h
    · cases h
    · cases h
  | succ k ih =>
    simp only [resolve] at h
    split at h
    · cases h
      exact Nat.le_refl _
    · cases h
    · cases h
    · exact Nat.le_succ_of_le (ih h)

/-- A name is followed in a directory that has it. -/
theorem resolve_name_cons {k left : Nat} {cur p : List ν} {c : ν} {rest : List (Step ν)}
    (h : t.resolve k cur (.name c :: rest) = .found left p) : t.entry cur = some .dir ∧ t.entry (cur ++ [c]) ≠ none := by
  by_cases hdir : t.entry cur = some .dir
  · refine ⟨hdir, fun hnone => ?_⟩
    have hstride : t.stride cur (.name c :: rest) = .missing cur c rest := by simp only [stride, if_pos hdir, hnone]
    cases k <;> simp [resolve, hstride] at h
  · have hstride : t.stride cur (.name c :: rest) = .notDir := by simp only [stride, if_neg hdir]
    cases k <;> simp [resolve, hstride] at h

/-- The name of what is no link leads to it. -/
theorem resolve_name {k : Nat} {cur : List ν} {c : ν} (hentry : t.entry (cur ++ [c]) ≠ none)
    (hlink : ∀ target, t.entry (cur ++ [c]) ≠ some (.link target)) :
    t.resolve k cur [.name c] = .found k (cur ++ [c]) := by
  have hstride : t.stride cur [.name c] = .arrived (cur ++ [c]) := by
    simp only [stride, if_pos (t.inDirs cur c hentry)]
    cases hnode : t.entry (cur ++ [c]) with
    | none => exact absurd hnode hentry
    | some node =>
      cases node with
      | link target => exact absurd hnode (hlink target)
      | file => rfl
      | dir => rfl
  cases k <;> simp [resolve, hstride]

/-- Following a link takes one of those that may be followed. -/
theorem resolve_link {k left : Nat} {cur p : List ν} {c : ν} {target : Target ν}
    (hlink : t.entry (cur ++ [c]) = some (.link target)) (h : t.resolve k cur [.name c] = .found left p) : left < k := by
  have hstride : t.stride cur [.name c] = .follow cur target [] := by
    simp only [stride, if_pos (t.inDirs cur c (by simp [hlink])), hlink]
  cases k with
  | zero => simp [resolve, hstride] at h
  | succ k =>
    simp only [resolve, hstride] at h
    exact Nat.lt_succ_of_le (resolve_left_le h)

omit [DecidableEq ν] in
/-- Nothing is below what is missing. -/
theorem entry_below {p q : List ν} (h : t.entry p = none) : t.entry (p ++ q) = none := by
  by_cases hq : q = []
  · simpa [hq] using h
  · by_contra hsome
    have := t.entry_above hsome hq
    rw [h] at this
    cases this

/-! ## Making directories -/

/-- A new directory in a directory. -/
def addDir (t : Tree ν) (dir : List ν) (c : ν) (h : t.entry dir = some .dir) : Tree ν where
  entry p := if p = dir ++ [c] then some .dir else t.entry p
  root := by simp [t.root]
  inDirs := by
    intro p c' hp
    by_cases hpc : p ++ [c'] = dir ++ [c]
    · obtain ⟨rfl, -⟩ := List.append_inj' hpc rfl
      simp [h]
    · rw [if_neg hpc] at hp
      split
      · rfl
      · exact t.inDirs p c' hp

inductive MkdirError where
  | notFound
  | notADirectory
  | alreadyExists
  | tooManyLinks
  deriving DecidableEq

variable (limit : Nat)

/-- Follow a path of names from the root. -/
def lookup (t : Tree ν) (p : List ν) : Outcome ν := t.resolve limit [] (p.map .name)

/-- `mkdir`, of `c` in the directory at `dir`: it does not follow `c`. -/
def mkdir (t : Tree ν) (dir : List ν) (c : ν) : Except MkdirError (Tree ν) := match t.lookup limit dir with
  | .found _ d =>
    if h : t.entry d = some .dir then
      if t.entry (d ++ [c]) = none then .ok (t.addDir d c h) else .error .alreadyExists
    else .error .notADirectory
  | .missing _ _ _ _ => .error .notFound
  | .notDir => .error .notADirectory
  | .loop => .error .tooManyLinks

/-- There is a directory where the path leads. -/
def isDir (t : Tree ν) (p : List ν) : Bool := match t.lookup limit p with
  | .found _ d => decide (t.entry d = some .dir)
  | _ => false

/-- `create_dir_all`, of the path whose last component comes first. -/
def createDirAllRev (t : Tree ν) : List ν → Except MkdirError (Tree ν)
  | [] => .ok t
  | c :: up => match t.mkdir limit up.reverse c with
    | .ok t' => .ok t'
    | .error .notFound => match createDirAllRev t up with
      | .error e => .error e
      | .ok t' => match t'.mkdir limit up.reverse c with
        | .ok t'' => .ok t''
        | .error e => if t'.isDir limit (up.reverse ++ [c]) then .ok t' else .error e
    | .error e => if t.isDir limit (up.reverse ++ [c]) then .ok t else .error e

def createDirAll (t : Tree ν) (p : List ν) : Except MkdirError (Tree ν) := t.createDirAllRev limit p.reverse

variable {limit : Nat}

/-- What making the directories of `pre ++ rest` has done: `pre` led to the
directory `dir` already, and the names of `rest` are new directories below
it. -/
structure Made (limit : Nat) (t t' : Tree ν) (pre rest : List ν) (left : Nat) (dir : List ν) : Prop where
  led : t.lookup limit pre = .found left dir
  first : ∀ c cs, rest = c :: cs → t.entry (dir ++ [c]) = none
  dirs : ∀ ds, ds <+: rest → t'.entry (dir ++ ds) = some .dir
  new : ∀ q, t'.entry q ≠ t.entry q → ∃ ds, ds ≠ [] ∧ ds <+: rest ∧ q = dir ++ ds

/-- The new part of the tree was empty. -/
theorem Made.below {pre rest dir ds : List ν} {left : Nat} (h : Made limit t t' pre rest left dir) (hne : ds ≠ [])
    (hds : ds <+: rest) (q : List ν) : t.entry (dir ++ ds ++ q) = none := by
  obtain ⟨c, cs, rfl⟩ := List.exists_cons_of_ne_nil hne
  obtain ⟨more, rfl⟩ := hds
  have := entry_below (q := cs ++ q) (h.first c (cs ++ more) rfl)
  simpa using this

theorem Made.extends {pre rest dir : List ν} {left : Nat} (h : Made limit t t' pre rest left dir) : t.Extends t' := by
  intro p hp
  by_contra hne
  obtain ⟨ds, hds, hpre, rfl⟩ := h.new p hne
  exact hp (by simpa using h.below hds hpre [])

theorem Made.lookup {pre rest dir : List ν} {left : Nat} (h : Made limit t t' pre rest left dir) :
    t'.lookup limit (pre ++ rest) = .found left (dir ++ rest) := by
  rw [Tree.lookup, List.map_append, resolve_append, h.extends.resolve_found h.led]
  exact resolve_dirs h.dirs

/-- In the last of the new directories there is nothing. -/
theorem Made.empty {pre rest dir : List ν} {left : Nat} (h : Made limit t t' pre rest left dir) (hne : rest ≠ [])
    (c : ν) : t'.entry (dir ++ rest ++ [c]) = none := by
  have hold : t.entry (dir ++ rest ++ [c]) = none := h.below hne List.prefix_rfl [c]
  by_contra hsome
  obtain ⟨ds, -, hds, heq⟩ := h.new _ (by rwa [hold])
  have hlen := hds.length_le
  have := congrArg List.length heq
  simp only [List.length_append, List.length_singleton] at this
  omega

theorem mkdir_made {dir : List ν} {c : ν} (h : t.mkdir limit dir c = .ok t') :
    ∃ left d, Made limit t t' dir [c] left d := by
  unfold mkdir at h
  split at h
  · rename_i left d hfound
    split at h
    · rename_i hdir
      split at h
      · rename_i hnew
        cases h
        refine ⟨left, d, hfound, ?_, ?_, ?_⟩
        · rintro c' cs h
          cases h
          exact hnew
        · intro ds hds
          rcases List.prefix_cons_iff.mp hds with rfl | ⟨ds, rfl, hnil⟩
          · simp [addDir, hdir]
          · rw [List.prefix_nil.mp hnil]
            simp [addDir]
        · intro q hq
          refine ⟨[c], by simp, List.prefix_rfl, ?_⟩
          by_contra hne
          exact hq (by simp [addDir, hne])
      · cases h
    · cases h
  · cases h
  · cases h
  · cases h

theorem mkdir_notFound {dir : List ν} {c : ν} (h : t.mkdir limit dir c = .error .notFound) {left : Nat} {d : List ν} :
    t.lookup limit dir ≠ .found left d := by
  intro hfound
  simp only [mkdir, hfound] at h
  split at h
  · split at h <;> cases h
  · cases h

/-- Nothing had to be made. -/
theorem Made.of_isDir {p : List ν} (h : t.isDir limit p = true) : ∃ left dir, Made limit t t p [] left dir := by
  unfold isDir at h
  split at h
  · rename_i left dir hfound
    refine ⟨left, dir, hfound, ?_, ?_, ?_⟩
    · exact nofun
    · intro ds hds
      rw [List.prefix_nil.mp hds, List.append_nil]
      exact of_decide_eq_true h
    · intro q hq
      exact absurd rfl hq
  · cases h

omit [DecidableEq ν] in
theorem ext_entry (h : ∀ p, t'.entry p = t.entry p) : t' = t := by
  cases t
  cases t'
  simp only [Tree.mk.injEq]
  exact funext h

/-- With nothing to make the tree is as it was. -/
theorem Made.same {pre dir : List ν} {left : Nat} (h : Made limit t t' pre [] left dir) : t' = t := by
  refine ext_entry fun p => ?_
  by_contra hne
  obtain ⟨ds, hds, hnil, -⟩ := h.new p hne
  exact hds (List.prefix_nil.mp hnil)

theorem Made.isDir {pre rest dir : List ν} {left : Nat} (h : Made limit t t' pre rest left dir) :
    t.entry dir = some .dir := by
  have hdir : t'.entry dir = some .dir := by simpa using h.dirs [] List.nil_prefix
  by_contra hne
  obtain ⟨ds, hds, -, heq⟩ := h.new dir (by rw [hdir]; exact Ne.symm hne)
  exact hds (List.self_eq_append_right.mp heq)

/-- Where directories were made, the path ended at the first of them. -/
theorem Made.was_missing {pre rest dir : List ν} {left : Nat} {c : ν} (h : Made limit t t' pre (c :: rest) left dir) :
    t.lookup limit (pre ++ c :: rest) = .missing left dir c (rest.map .name) := by
  have hstride : t.stride dir ((c :: rest).map .name) = .missing dir c (rest.map .name) := by
    simp only [List.map_cons, stride, if_pos h.isDir, h.first c rest rfl]
  rw [Tree.lookup, List.map_append, resolve_append]
  have hled : t.resolve limit [] (pre.map .name) = .found left dir := h.led
  rw [hled]
  cases left <;> simp only [Outcome.bind, resolve, hstride]

/-- One more directory in the last of those made. -/
theorem Made.snoc {t'' : Tree ν} {pre rest dir : List ν} {left : Nat} {c : ν} (h : Made limit t t' pre rest left dir)
    (hne : rest ≠ []) (hmk : t'.mkdir limit (pre ++ rest) c = .ok t'') : Made limit t t'' pre (rest ++ [c]) left dir := by
  obtain ⟨left', d, hmade⟩ := mkdir_made hmk
  obtain ⟨rfl, rfl⟩ : left = left' ∧ dir ++ rest = d := by
    have := h.lookup.symm.trans hmade.led
    cases this
    exact ⟨rfl, rfl⟩
  refine ⟨h.led, ?_, ?_, ?_⟩
  · intro c' cs hrest
    obtain ⟨c₁, cs₁, rfl⟩ := List.exists_cons_of_ne_nil hne
    cases hrest
    exact h.first _ _ rfl
  · intro ds hds
    rcases List.prefix_concat_iff.mp hds with rfl | hds
    · rw [← List.append_assoc]
      exact hmade.dirs [c] List.prefix_rfl
    · rw [hmade.extends _ (by simp [h.dirs ds hds]), h.dirs ds hds]
  · intro q hq
    by_cases hold : t'.entry q = t.entry q
    · obtain ⟨ds, -, hds, rfl⟩ := hmade.new q (hold ▸ hq)
      refine ⟨rest ++ ds, by simp [hne], ?_, by rw [List.append_assoc]⟩
      exact List.prefix_append_right_inj rest |>.mpr hds
    · obtain ⟨ds, hds, hpre, rfl⟩ := h.new q hold
      exact ⟨ds, hds, hpre.trans (List.prefix_append _ _), rfl⟩

/-- What `create_dir_all` does when it succeeds. -/
theorem createDirAllRev_made {rev : List ν} (h : t.createDirAllRev limit rev = .ok t') :
    ∃ pre rest left dir, rev.reverse = pre ++ rest ∧ Made limit t t' pre rest left dir := by
  induction rev generalizing t' with
  | nil =>
    cases h
    have hroot : t.isDir limit [] = true := by
      have hlookup : t.lookup limit [] = .found limit [] := by cases limit <;> rfl
      simp [isDir, hlookup, t.root]
    obtain ⟨left, dir, hmade⟩ := Made.of_isDir hroot
    exact ⟨[], [], left, dir, rfl, hmade⟩
  | cons c up ih =>
    rw [List.reverse_cons]
    simp only [createDirAllRev] at h
    split at h
    · rename_i hmk
      cases h
      obtain ⟨left, dir, hmade⟩ := mkdir_made hmk
      exact ⟨up.reverse, [c], left, dir, rfl, hmade⟩
    · rename_i hmk
      split at h
      · cases h
      rename_i t₁ hup
      obtain ⟨pre, rest, left, dir, hsplit, hmade⟩ := ih hup
      have hne : rest ≠ [] := by
        rintro rfl
        rw [hsplit, List.append_nil] at hmk
        exact mkdir_notFound hmk hmade.led
      rw [hsplit] at h ⊢
      split at h
      · rename_i t₂ hmk'
        cases h
        exact ⟨pre, rest ++ [c], left, dir, by rw [List.append_assoc], hmade.snoc hne hmk'⟩
      · rename_i e hmk'
        -- the new directory is empty, so nothing stands in the way
        have hdir : t₁.entry (dir ++ rest) = some .dir := hmade.dirs rest List.prefix_rfl
        simp only [mkdir, hmade.lookup, dif_pos hdir, if_pos (hmade.empty hne c)] at hmk'
        cases hmk'
    · split at h
      · rename_i hdir
        cases h
        obtain ⟨left, dir, hmade⟩ := Made.of_isDir hdir
        exact ⟨_, [], left, dir, by rw [List.append_nil], hmade⟩
      · cases h

theorem createDirAll_made {p : List ν} (h : t.createDirAll limit p = .ok t') :
    ∃ pre rest left dir, p = pre ++ rest ∧ Made limit t t' pre rest left dir := by
  have hmade := createDirAllRev_made h
  rwa [List.reverse_reverse] at hmade

end Tree

end Links

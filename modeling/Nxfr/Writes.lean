/-
Files and directories put on a disk one after the other, below a base directory,
with copies, streams and `mkdirs`.

What is written is named by a path as it is written, with components that stay
where they are or go up. A file is opened under its path only where all that the
path passes through are directories by then; `mkdirs` makes the place the path
leads to. A write may fail or take away what an earlier one has put there.
`writes_kept_iff` says when none does: no two of them put different things at one
place, no file is above another place, every path is one the file system takes,
and what a path passes through is there by then.
-/
import Nxfr.TreeCopy

namespace Disk

variable {ν β : Type}

/-! ## Paths as they are written -/

/-- One component of a path: `.`, `..`, or a name. -/
inductive PathStep (ν : Type)
  | stay
  | up
  | into (c : ν)
  deriving DecidableEq

def PathStep.go (p : Path ν) : PathStep ν → Path ν
  | .stay => p
  | .up => p.dropLast
  | .into c => p ++ [c]

/-- The place a path leads to from a directory. -/
def goto (p : Path ν) (steps : List (PathStep ν)) : Path ν := steps.foldl PathStep.go p

/-- The places it passes through, in which its components are looked up. -/
def passes (p : Path ν) : List (PathStep ν) → List (Path ν)
  | [] => []
  | s :: steps => p :: passes (s.go p) steps

def endsInName (steps : List (PathStep ν)) : Bool := match steps.getLast? with
  | some (.into _) => true
  | _ => false

section

variable {p : Path ν} {steps steps' : List (PathStep ν)}

theorem goto_append : goto p (steps ++ steps') = goto (goto p steps) steps' := List.foldl_append

theorem goto_names (q : Path ν) : goto p (q.map .into) = p ++ q := by
  induction q generalizing p with
  | nil => exact (List.append_nil p).symm
  | cons c q ih =>
    rw [List.map_cons, goto, List.foldl_cons]
    exact (ih (p := p ++ [c])).trans (List.append_cons p c q).symm

theorem passes_append : passes p (steps ++ steps') = passes p steps ++ passes (goto p steps) steps' := by
  induction steps generalizing p with
  | nil => rfl
  | cons s steps ih =>
    rw [List.cons_append, passes, passes, List.cons_append, ih]
    rfl

theorem endsInName_iff : endsInName steps = true ↔ ∃ init c, steps = init ++ [.into c] := by
  rcases List.eq_nil_or_concat steps with rfl | ⟨init, s, rfl⟩
  · simp [endsInName]
  · rw [List.concat_eq_append]
    cases s <;> simp [endsInName]

/-- A path that ends in a name leads to a place right below the last one it passes
through. -/
theorem goto_name (h : endsInName steps = true) :
    goto p steps ≠ [] ∧ goto p steps.dropLast = (goto p steps).dropLast ∧
      (goto p steps).dropLast ∈ passes p steps := by
  obtain ⟨init, c, rfl⟩ := endsInName_iff.mp h
  have hgoto : goto p (init ++ [.into c]) = goto p init ++ [c] := goto_append
  rw [hgoto, List.dropLast_concat, List.dropLast_concat, passes_append]
  exact ⟨List.append_ne_nil_of_right_ne_nil _ (List.cons_ne_nil c []), rfl, List.mem_append_right _ List.mem_cons_self⟩

end

/-! ## Writes -/

/-- How something is written: as an entry of `copyRecursively`, by `copyTo`, or through
a stream (a file) or `mkdirs` (a directory). -/
inductive How
  | entry
  | whole
  | stream
  deriving DecidableEq

/-- A file with its content, or a directory, written under a path that starts at a
directory, and whether the file system takes the path as it is written. -/
structure Write (ν β : Type) where
  start : Path ν
  steps : List (PathStep ν)
  content : Option (List β)
  room : Bool
  how : How

namespace Write

def path (w : Write ν β) : Path ν := goto w.start w.steps

/-- What is to be there. -/
def entry (w : Write ν β) : Entry ν β := ⟨w.path, w.content⟩

def node (w : Write ν β) : Node β := w.entry.node

def passes (w : Write ν β) : List (Path ν) := Disk.passes w.start w.steps

/-- All that the path passes through are directories. -/
def reached (d : Fs ν β) (w : Write ν β) : Bool := w.room && w.passes.all d.isDir

/-- `delete` takes a directory that it can take, under a path that names it. -/
def deletable (deletes : Path ν → Bool) (w : Write ν β) : Bool := endsInName w.steps && deletes w.path

variable [DecidableEq ν]

def mkdirs (d : Fs ν β) (w : Write ν β) : Option (Fs ν β) := if w.room then d.addDirs w.path else none

/-- `mkdirs` of the parent, whatever it answers. -/
def parents (d : Fs ν β) (w : Write ν β) : Fs ν β :=
  if w.room then (d.addDirs (goto w.start w.steps.dropLast)).getD d else d

/-- A file is opened and its content written. -/
def save (d : Fs ν β) (w : Write ν β) (c : List β) : Option (Fs ν β) :=
  if w.reached d && endsInName w.steps && !d.isDir w.path then some (d.set w.path (some (.file c))) else none

/-- `copyRecursively` takes away what is in the way, a directory with all it holds. -/
def cleared (d : Fs ν β) (w : Write ν β) : Fs ν β := if w.reached d then d.cleared w.path ⟨[], w.content⟩ else d

/-- `delete` of what is there. -/
def deleted (d : Fs ν β) (w : Write ν β) : Fs ν β :=
  if w.reached d && d.exists? w.path then d.removeTree w.path else d

/-- One write. Which directories `delete` takes is left open; `mkdirs` of `copyTo` has to
make the directory. -/
def run (deletes : Path ν → Bool) (d : Fs ν β) (w : Write ν β) : Option (Fs ν β) :=
  match w.how, w.content with
  | .entry, none => some ((w.mkdirs (w.cleared d)).getD (w.cleared d))
  | .entry, some c => w.save (w.parents (w.cleared d)) c
  | .whole, content =>
    if w.reached d && d.isDir w.path && !w.deletable deletes then none
    else match content with
      | none => if (w.deleted d).exists? w.path then none else w.mkdirs (w.deleted d)
      | some c => w.save (w.parents (w.deleted d)) c
  | .stream, none => some ((w.mkdirs d).getD d)
  | .stream, some c => w.save d c

end Write

/-- The writes in order, until one throws. -/
def runWrites [DecidableEq ν] (deletes : Path ν → Bool) (d : Fs ν β) (ws : List (Write ν β)) : Option (Fs ν β) :=
  ws.foldlM (Write.run deletes) d

/-! ## When they are kept -/

/-- Two entries that can both be there. -/
structure Entry.Fits (a b : Entry ν β) : Prop where
  same : a.path = b.path → a.content = b.content
  left : a.content ≠ none → a.path <+: b.path → a.path = b.path
  right : b.content ≠ none → b.path <+: a.path → b.path = a.path

/-- A directory when a file is opened: it was there at first, an earlier write makes it,
or it is above a file whose parents are made. -/
def Standing (d₀ : Fs ν β) (done : List (Write ν β)) (w : Write ν β) (p : Path ν) : Prop :=
  d₀ p = some .dir ∨ (∃ x ∈ done, x.room = true ∧ p <+: x.path ∧ (p = x.path → x.content = none)) ∨
    (w.how ≠ .stream ∧ p <+: w.path.dropLast)

/-- No write of the list undoes another or fails. -/
structure KeptApart (base : Path ν) (d₀ : Fs ν β) (ws : List (Write ν β)) : Prop where
  below : ∀ w ∈ ws, base <+: w.path
  fits : ∀ x ∈ ws, ∀ y ∈ ws, x.entry.Fits y.entry
  files : ∀ w ∈ ws, w.content ≠ none → w.room = true ∧ endsInName w.steps = true ∧ w.path ≠ base
  dirs : ∀ w ∈ ws, w.content = none → w.path = base ∨ ∃ x ∈ ws, x.room = true ∧ w.path <+: x.path
  reached : ∀ done w rest, ws = done ++ w :: rest → w.content ≠ none → ∀ p ∈ w.passes, Standing d₀ done w p

/-- A file can be opened under its path and written. -/
structure Write.Opens (d : Fs ν β) (w : Write ν β) : Prop where
  room : w.room = true
  name : endsInName w.steps = true
  passes : ∀ p ∈ w.passes, d p = some .dir
  free : d w.path ≠ some .dir

/-- A file can be copied with `copyTo`: what its path passes through are directories, or
are made above it. -/
structure Write.Copies (deletes : Path ν → Bool) (d : Fs ν β) (w : Write ν β) : Prop where
  room : w.room = true
  name : endsInName w.steps = true
  above : d.Open w.path
  passes : ∀ p ∈ w.passes, ¬ w.path <+: p ∧ (d p = some .dir ∨ (d p = none ∧ p <+: w.path.dropLast))
  place : d w.path = some .dir → w.deletable deletes = true

/-- A directory can be made with `copyTo`, and entered under its path. -/
structure Write.Makes (deletes : Path ν → Bool) (d : Fs ν β) (w : Write ν β) : Prop where
  room : w.room = true
  above : d.Open w.path
  passes : ∀ p ∈ w.passes, p <+: w.path ∨ (¬ w.path <+: p ∧ d p = some .dir)
  place : d w.path ≠ none → (∀ p ∈ w.passes, d p = some .dir) ∧ (d w.path = some .dir → w.deletable deletes = true)

/-- A directory, and nothing below it. -/
structure Blank (base : Path ν) (d : Fs ν β) : Prop where
  sound : d.Sound
  rooted : d base = some .dir
  empty : ∀ q, base <+: q → d q ≠ none → q = base

/-- What is left of a disk that has lost something. -/
structure Less (d d₁ : Fs ν β) : Prop where
  sound : d₁.Sound
  only : ∀ q n, d₁ q = some n → d q = some n

/-- What a write that does not throw leaves: new directories at its place and above it
only, and a file is opened under a path that is fit for it. -/
structure Write.Leaves (d d' : Fs ν β) (w : Write ν β) : Prop where
  sound : d'.Sound
  dirs : ∀ q, d' q = some .dir → d q = some .dir ∨ (w.room = true ∧ q <+: w.path ∧ (q = w.path → w.content = none))
  opened : w.content ≠ none → w.room = true ∧ endsInName w.steps = true ∧
    ∀ p ∈ w.passes, d p = some .dir ∨ (w.how ≠ .stream ∧ p <+: w.path.dropLast)

/-- A disk with what has been written, and what was there before. -/
structure Holds (d₀ : Fs ν β) (done : List (Write ν β)) (d : Fs ν β) : Prop where
  sound : d.Sound
  placed : ∀ x ∈ done, x.room = true → d x.path = some x.node
  covered : ∀ q, d q ≠ none → d₀ q ≠ none ∨ ∃ x ∈ done, x.room = true ∧ q <+: x.path
  kept : ∀ q, d₀ q ≠ none → d q = d₀ q

section

variable {p q dst : Path ν} {d d₀ d' : Fs ν β} {done ws : List (Write ν β)} {w : Write ν β} {c : List β} {n : Node β}

theorem Entry.node_file {e : Entry ν β} (h : e.node = .file c) : e.content = some c := by
  unfold Entry.node at h
  split at h
  · cases h
  · rename_i c' hc
    rw [hc, (Node.file.inj h)]

theorem Entry.node_dir {e : Entry ν β} (h : e.node = .dir) : e.content = none := by
  unfold Entry.node at h
  split at h
  · assumption
  · cases h

theorem Entry.node_congr {a b : Entry ν β} (h : a.content = b.content) : a.node = b.node := by
  unfold Entry.node
  rw [h]

theorem Write.node_file (h : w.content = some c) : w.node = .file c := by
  simp only [Write.node, Write.entry, Entry.node, h]

theorem Write.node_dir (h : w.content = none) : w.node = .dir := by
  simp only [Write.node, Write.entry, Entry.node, h]

theorem Fs.isDir_eq_true : d.isDir p = true ↔ d p = some .dir := by
  rw [← Bool.not_eq_false, Fs.isDir_eq_false, ne_eq, not_not]

theorem Write.reached_iff : w.reached d = true ↔ w.room = true ∧ ∀ p ∈ w.passes, d p = some .dir := by
  simp only [Write.reached, Bool.and_eq_true, List.all_eq_true, Fs.isDir_eq_true]

theorem Write.named (h : endsInName w.steps = true) :
    w.path ≠ [] ∧ goto w.start w.steps.dropLast = w.path.dropLast ∧ w.path.dropLast ∈ w.passes := goto_name h

theorem Write.save_iff [DecidableEq ν] : w.save d c = some d' ↔
    (w.room = true ∧ ∀ p ∈ w.passes, d p = some .dir) ∧ endsInName w.steps = true ∧ d w.path ≠ some .dir ∧
      d' = d.set w.path (some (.file c)) := by
  unfold Write.save
  rw [Option.ite_none_right_eq_some, Bool.and_eq_true, Bool.and_eq_true, Write.reached_iff, Bool.not_eq_true',
    Fs.isDir_eq_false, Option.some.injEq, and_assoc, and_assoc]
  exact and_congr_right fun _ => and_congr_right fun _ => and_congr_right fun _ => eq_comm

end

section

variable [DecidableEq ν] {deletes : Path ν → Bool} {base p q dst : Path ν} {d d₀ d' : Fs ν β}
  {done ws : List (Write ν β)} {w : Write ν β} {c : List β} {n : Node β}

/-! ## What any write leaves -/

omit [DecidableEq ν] in
theorem Less.refl (hs : d.Sound) : Less d d := ⟨hs, fun _ _ h => h⟩

theorem less_removeTree (hs : d.Sound) (dst : Path ν) : Less d (d.removeTree dst) := by
  refine ⟨fun p q hpq hne hq => ?_, fun q n hq => ?_⟩
  · unfold Fs.removeTree at hq ⊢
    split at hq
    · exact absurd rfl hq
    · rename_i hbelow
      rw [if_neg fun hp => hbelow (hp.trans hpq)]
      exact hs p q hpq hne hq
  · unfold Fs.removeTree at hq
    split at hq
    · cases hq
    · exact hq

theorem less_cleared (hs : d.Sound) : Less d (w.cleared d) := by
  unfold Write.cleared Fs.cleared
  split
  · split
    · exact less_removeTree hs _
    · exact .refl hs
  · exact .refl hs

theorem less_deleted (hs : d.Sound) : Less d (w.deleted d) := by
  unfold Write.deleted
  split
  · exact less_removeTree hs _
  · exact .refl hs

theorem addDirs_sound (hs : d.Sound) (dst : Path ν) : ((d.addDirs dst).getD d).Sound := by
  cases hmade : d.addDirs dst with
  | none => exact hs
  | some made => exact hs.addDirs hmade

theorem addDirs_some (hq : (d.addDirs dst).getD d q = some n) :
    d q = some n ∨ (d q = none ∧ q <+: dst ∧ n = .dir) := by
  cases hmade : d.addDirs dst with
  | none =>
    rw [hmade] at hq
    exact .inl hq
  | some made =>
    rw [hmade, Option.getD_some, (Fs.addDirs_eq hmade).2] at hq
    split at hq
    · rename_i hnew
      exact .inr ⟨hnew.2, hnew.1, (Option.some.inj hq).symm⟩
    · exact .inl hq

theorem Write.parents_sound (hs : d.Sound) : (w.parents d).Sound := by
  unfold Write.parents
  split
  · exact addDirs_sound hs _
  · exact hs

theorem Write.parents_some (hname : endsInName w.steps = true) (hq : w.parents d q = some n) :
    d q = some n ∨ (d q = none ∧ q <+: w.path.dropLast ∧ n = .dir) := by
  unfold Write.parents at hq
  rw [(Write.named hname).2.1] at hq
  split at hq
  · exact addDirs_some hq
  · exact .inl hq

theorem Write.save_any (hs : d.Sound) (hd : w.save d c = some d') :
    d'.Sound ∧ ∀ q, d' q = some .dir → d q = some .dir ∧ q ≠ w.path := by
  obtain ⟨⟨-, hpasses⟩, hname, hfree, rfl⟩ := Write.save_iff.mp hd
  refine ⟨hs.set_file (hpasses _ (Write.named hname).2.2) hfree, fun q hq => ?_⟩
  unfold Fs.set at hq
  split at hq
  · cases hq
  · rename_i hne
    exact ⟨hq, hne⟩

/-- A file saved on what is left of a disk, its parents made. -/
theorem Less.saved {d₁ : Fs ν β} (h : Less d d₁) (hhow : w.how ≠ .stream)
    (hd : w.save (w.parents d₁) c = some d') : w.Leaves d d' := by
  obtain ⟨⟨hroom, hpasses⟩, hname, -, -⟩ := Write.save_iff.mp hd
  obtain ⟨hsound, hdirs⟩ := Write.save_any (Write.parents_sound h.sound) hd
  refine ⟨hsound, fun q hq => ?_, fun _ => ⟨hroom, hname, fun p hp => ?_⟩⟩
  · obtain ⟨hq, hne⟩ := hdirs q hq
    rcases Write.parents_some hname hq with hq | hq
    · exact .inl (h.only _ _ hq)
    · exact .inr ⟨hroom, hq.2.1.trans (List.dropLast_prefix _), fun heq => absurd heq hne⟩
  · rcases Write.parents_some hname (hpasses p hp) with hp | hp
    · exact .inl (h.only _ _ hp)
    · exact .inr ⟨hhow, hp.2.1⟩

/-- A directory made on what is left of a disk. -/
theorem Less.made {d₁ : Fs ν β} (h : Less d d₁) (hc : w.content = none) : w.Leaves d ((w.mkdirs d₁).getD d₁) := by
  refine ⟨?_, fun q hq => ?_, fun hfile => absurd hc hfile⟩
  · unfold Write.mkdirs
    split
    · exact addDirs_sound h.sound _
    · exact h.sound
  · unfold Write.mkdirs at hq
    split at hq
    · rename_i hroom
      exact (addDirs_some hq).imp (h.only _ _) fun hnew => ⟨hroom, hnew.2.1, fun _ => hc⟩
    · exact .inl (h.only _ _ hq)

/-- **What any write leaves.** -/
theorem Write.run_any (hs : d.Sound) (hwhole : w.how = .whole → w.content ≠ none) (hd : w.run deletes d = some d') :
    w.Leaves d d' := by
  unfold Write.run at hd
  cases hhow : w.how with
  | entry =>
    cases hc : w.content with
    | none =>
      simp only [hhow, hc, Option.some.injEq] at hd
      rw [← hd]
      exact (less_cleared hs).made hc
    | some c =>
      simp only [hhow, hc] at hd
      exact (less_cleared hs).saved (by rw [hhow]; decide) hd
  | whole =>
    obtain ⟨c, hc⟩ := Option.ne_none_iff_exists'.mp (hwhole hhow)
    simp only [hhow, hc] at hd
    split at hd
    · cases hd
    · exact (less_deleted hs).saved (by rw [hhow]; decide) hd
  | stream =>
    cases hc : w.content with
    | none =>
      simp only [hhow, hc, Option.some.injEq] at hd
      rw [← hd]
      exact (Less.refl hs).made hc
    | some c =>
      simp only [hhow, hc] at hd
      obtain ⟨hsound, hdirs⟩ := Write.save_any hs hd
      obtain ⟨⟨hroom, hpasses⟩, hname, -, -⟩ := Write.save_iff.mp hd
      exact ⟨hsound, fun q hq => .inl (hdirs q hq).1, fun _ => ⟨hroom, hname, fun p hp => .inl (hpasses p hp)⟩⟩

/-! ## A write among those it fits -/

/-- At the place of a write is nothing yet, or what it will put there. -/
theorem Holds.at_place (h : Holds d₀ done d) (hblank : Blank base d₀) (hbelow : base <+: w.path)
    (hfile : w.content ≠ none → w.path ≠ base) (hfits : ∀ x ∈ done, x.entry.Fits w.entry) :
    d w.path = none ∨ d w.path = some w.node := by
  by_cases hnone : d w.path = none
  · exact .inl hnone
  refine .inr ?_
  rcases h.covered _ hnone with hold | ⟨x, hx, hroom, hpath⟩
  · have hbase := hblank.empty _ hbelow hold
    have hdir : w.content = none := by
      by_contra hc
      exact hfile hc hbase
    rw [h.kept _ hold, hbase, hblank.rooted, Write.node_dir hdir]
  · by_cases hsame : w.path = x.path
    · rw [hsame, h.placed x hx hroom]
      exact congrArg some (Entry.node_congr ((hfits x hx).same hsame.symm))
    · have hdir : w.content = none := by
        by_contra hc
        exact hsame ((hfits x hx).right hc hpath)
      rw [h.sound _ _ hpath hsame (by rw [h.placed x hx hroom]; exact Option.some_ne_none _), Write.node_dir hdir]

/-- Above it are directories, or nothing. -/
theorem Holds.open_place (h : Holds d₀ done d) (hblank : Blank base d₀) (hbelow : base <+: w.path)
    (hfits : ∀ x ∈ done, x.entry.Fits w.entry) : d.Open w.path := by
  intro q hq hne
  rw [Fs.isFile_eq_false]
  intro c hc
  rcases h.covered q (by rw [hc]; exact Option.some_ne_none _) with hold | ⟨x, hx, hroom, hpath⟩
  · have habove : q <+: base := by
      rcases List.prefix_or_prefix_of_prefix hq hbelow with habove | hunder
      · exact habove
      · exact hblank.empty _ hunder hold ▸ List.prefix_rfl
    rw [h.kept _ hold, hblank.sound.grounded hblank.rooted q habove] at hc
    cases hc
  · by_cases hsame : q = x.path
    · subst hsame
      have hcontent : x.content ≠ none := by
        have hnode : x.entry.node = .file c := Option.some.inj ((h.placed x hx hroom).symm.trans hc)
        have hc : x.content = some c := Entry.node_file hnode
        rw [hc]
        exact Option.some_ne_none _
      exact hne ((hfits x hx).left hcontent hq)
    · rw [h.sound _ _ hpath hsame (by rw [h.placed x hx hroom]; exact Option.some_ne_none _)] at hc
      cases hc

/-- What is to be a directory by then is one, or is made with the parents. -/
theorem Holds.standing (h : Holds d₀ done d) (hstanding : Standing d₀ done w p) :
    d p = some .dir ∨ (w.how ≠ .stream ∧ p <+: w.path.dropLast) := by
  rcases hstanding with hold | ⟨x, hx, hroom, hpath, hdir⟩ | hparent
  · exact .inl (by rw [h.kept p (by rw [hold]; exact Option.some_ne_none _), hold])
  · refine .inl ?_
    by_cases hsame : p = x.path
    · rw [hsame, h.placed x hx hroom, Write.node_dir (hdir hsame)]
    · exact h.sound _ _ hpath hsame (by rw [h.placed x hx hroom]; exact Option.some_ne_none _)
  · exact .inr hparent

/-- A file put where no directory is, the directories above it made on what is left
when the place is cleared. -/
theorem set_made (hs : d.Sound) (hopen : d.Open dst) (hne : dst ≠ []) (hdst : d dst ≠ some .dir) :
    ∃ made, (d.removeTree dst).addDirs dst.dropLast = some made ∧ made dst ≠ some .dir ∧
      (∀ q, d q = some .dir ∨ q <+: dst.dropLast → made q = some .dir) ∧
      made.set dst (some (.file c)) = d.put dst (some (.file c)) false := by
  have hless : ∀ q, ¬ dst <+: q → d.removeTree dst q = d q := fun q hq => if_neg hq
  have hnot : ∀ q, q <+: dst.dropLast → ¬ dst <+: q := fun q hq hself =>
    ((prefix_dropLast_iff hne).mp hq).2 (prefix_antisymm ((prefix_dropLast_iff hne).mp hq).1 hself)
  obtain ⟨made, hmade⟩ := Fs.addDirs_isSome (d := d.removeTree dst) (p := dst.dropLast) fun q hq => by
    rw [Fs.isFile, hless q (hnot q hq)]
    exact hopen q ((prefix_dropLast_iff hne).mp hq).1 ((prefix_dropLast_iff hne).mp hq).2
  have hmade' := (Fs.addDirs_eq hmade).2
  have hself : made dst = none := by
    rw [hmade', if_neg fun h => hnot _ h.1 List.prefix_rfl]
    exact if_pos List.prefix_rfl
  have hfree : made dst ≠ some .dir := by
    rw [hself]
    exact (Option.some_ne_none _).symm
  refine ⟨made, hmade, hfree, fun q hq => ?_, ?_⟩
  · rcases hq with hq | hq
    · have hbelow : ¬ dst <+: q := by
        intro hbelow
        by_cases heq : q = dst
        · exact hdst (heq ▸ hq)
        · rw [hs.nothing_below hdst hbelow heq] at hq
          cases hq
      rw [hmade', hless q hbelow, hq, if_neg (by simp)]
    · exact Fs.addDirs_dir hmade q hq
  · funext q
    by_cases hq : q = dst
    · rw [hq, Fs.put_self, Fs.set, if_pos rfl]
    · rw [Fs.set, if_neg hq, hmade']
      by_cases hbelow : dst <+: q
      · rw [Fs.put_below hbelow hq, if_neg fun h => hnot q h.1 hbelow, Fs.removeTree, if_pos hbelow,
          hs.nothing_below hdst hbelow hq]
        simp
      · rw [hless q hbelow]
        by_cases habove : q <+: dst
        · rw [Fs.put_above habove hq]
          simp only [(prefix_dropLast_iff hne).mpr ⟨habove, hq⟩, true_and]
        · rw [Fs.put_aside hbelow habove, if_neg fun h => habove (h.1.trans (List.dropLast_prefix dst))]

theorem set_put (hs : d.Sound) (hparent : d dst.dropLast = some .dir) (hne : dst ≠ []) :
    d.set dst (some (.file c)) = d.put dst (some (.file c)) false := by
  funext q
  by_cases hq : q = dst
  · rw [hq, Fs.put_self, Fs.set, if_pos rfl]
  · rw [Fs.set, if_neg hq]
    by_cases habove : q <+: dst
    · have hdir := hs.grounded hparent q ((prefix_dropLast_iff hne).mpr ⟨habove, hq⟩)
      rw [Fs.put_above habove hq, hdir]
      simp
    · by_cases hbelow : dst <+: q
      · rw [Fs.put_below hbelow hq]
        simp
      · rw [Fs.put_aside hbelow habove]

theorem addDirs_put (hopen : d.Open dst) (hat : d dst = none ∨ d dst = some .dir) :
    d.addDirs dst = some (d.put dst (some .dir) false) := by
  obtain ⟨made, hmade⟩ := Fs.addDirs_isSome (d := d) (p := dst) fun q hq => by
    by_cases hself : q = dst
    · rw [hself, Fs.isFile_eq_false]
      intro c hc
      rcases hat with hat | hat <;> rw [hat] at hc <;> cases hc
    · exact hopen q hq hself
  rw [hmade, Option.some.injEq]
  obtain ⟨-, hmade⟩ := Fs.addDirs_eq hmade
  funext q
  rw [hmade]
  by_cases hself : q = dst
  · subst hself
    rw [Fs.put_self]
    rcases hat with hat | hat <;> simp [hat]
  · by_cases habove : q <+: dst
    · rw [Fs.put_above habove hself]
      simp only [habove, true_and]
    · simp only [habove, false_and, if_false]
      by_cases hbelow : dst <+: q
      · rw [Fs.put_below hbelow hself]
        simp
      · rw [Fs.put_aside hbelow habove]

/-- Nothing is taken away where nothing is. -/
theorem removeTree_absent (hs : d.Sound) (hdst : d dst = none) : d.removeTree dst = d := by
  funext q
  unfold Fs.removeTree
  split
  · rename_i hbelow
    by_cases hq : q = dst
    · rw [hq, hdst]
    · rw [hs.nothing_below (by rw [hdst]; exact fun h => by cases h) hbelow hq]
  · rfl

/-- What is in the way of a file is taken away, if the path is good for it. -/
theorem Write.cleared_file (hs : d.Sound) (hc : w.content = some c) (hreached : d w.path ≠ none → w.reached d = true) :
    w.cleared d = d.removeTree w.path := by
  unfold Write.cleared Fs.cleared Fs.blocked
  by_cases hpath : d w.path = none
  · rw [removeTree_absent hs hpath, ite_self, ite_self]
  · rw [if_pos (hreached hpath), if_pos]
    simp [Fs.exists?, Option.isSome_iff_ne_none, hpath, hc]

theorem Write.deleted_eq (hs : d.Sound) (hreached : d w.path ≠ none → w.reached d = true) :
    w.deleted d = d.removeTree w.path := by
  unfold Write.deleted
  by_cases hpath : d w.path = none
  · rw [removeTree_absent hs hpath, ite_self]
  · rw [if_pos]
    rw [Bool.and_eq_true]
    exact ⟨hreached hpath, Option.isSome_iff_ne_none.mpr hpath⟩

theorem Write.cleared_dir (hc : w.content = none) (hat : d w.path = none ∨ d w.path = some .dir) :
    w.cleared d = d := by
  unfold Write.cleared Fs.cleared Fs.blocked
  split
  · rw [if_neg]
    rcases hat with hat | hat <;> simp [Fs.exists?, Fs.isDir, hat, hc]
  · rfl

/-- A file saved on a disk whose place is cleared, its parents made. -/
theorem Write.saved_put (hs : d.Sound) (hroom : w.room = true) (hname : endsInName w.steps = true)
    (hopen : d.Open w.path) (hdst : d w.path ≠ some .dir)
    (hpasses : ∀ p ∈ w.passes, d p = some .dir ∨ p <+: w.path.dropLast) :
    w.save (w.parents (d.removeTree w.path)) c = some (d.put w.path (some (.file c)) false) := by
  obtain ⟨hne, hparent, -⟩ := Write.named hname
  obtain ⟨made, hmade, hfree, hdirs, hput⟩ := set_made (c := c) hs hopen hne hdst
  have hparents : w.parents (d.removeTree w.path) = made := by
    rw [Write.parents, if_pos hroom, hparent, hmade, Option.getD_some]
  rw [hparents]
  exact Write.save_iff.mpr ⟨⟨hroom, fun p hp => hdirs p (hpasses p hp)⟩, hname, hfree, hput.symm⟩

/-- **What a write does that fits those before it.** -/
theorem Holds.run_eq (deletes : Path ν → Bool) (h : Holds d₀ done d) (hblank : Blank base d₀)
    (hbelow : base <+: w.path) (hroom : w.room = true)
    (hfile : w.content ≠ none → endsInName w.steps = true ∧ w.path ≠ base)
    (hwhole : w.how = .whole → w.content ≠ none) (hfits : ∀ x ∈ done, x.entry.Fits w.entry)
    (hstanding : w.content ≠ none → ∀ p ∈ w.passes, Standing d₀ done w p) :
    w.run deletes d = some (d.put w.path (some w.node) false) := by
  have hat := h.at_place hblank hbelow (fun hc => (hfile hc).2) hfits
  have hopen := h.open_place hblank hbelow hfits
  unfold Write.run
  cases hc : w.content with
  | none =>
    rw [Write.node_dir hc] at hat ⊢
    have hmade : w.mkdirs d = some (d.put w.path (some .dir) false) := by
      rw [Write.mkdirs, if_pos hroom, addDirs_put hopen hat]
    cases hhow : w.how with
    | entry => simp only [Write.cleared_dir hc hat, hmade, Option.getD_some]
    | whole => exact absurd hc (hwhole hhow)
    | stream => simp only [hmade, Option.getD_some]
  | some c =>
    rw [Write.node_file hc] at hat ⊢
    have hsome : w.content ≠ none := by
      rw [hc]
      exact Option.some_ne_none c
    have hname := (hfile hsome).1
    obtain ⟨hne, -, hparent⟩ := Write.named hname
    have hdst : d w.path ≠ some .dir := by rcases hat with hat | hat <;> simp [hat]
    have hpasses : ∀ p ∈ w.passes, d p = some .dir ∨ (w.how ≠ .stream ∧ p <+: w.path.dropLast) :=
      fun p hp => h.standing (hstanding hsome p hp)
    -- Where something is at the place, what is above it are directories.
    have hreached : d w.path ≠ none → w.reached d = true := by
      intro hpath
      refine Write.reached_iff.mpr ⟨hroom, fun p hp => ?_⟩
      rcases hpasses p hp with hp | ⟨-, hp⟩
      · exact hp
      · obtain ⟨habove, hself⟩ := (prefix_dropLast_iff hne).mp hp
        exact h.sound _ _ habove hself hpath
    have hsaved : w.save (w.parents (d.removeTree w.path)) c = some (d.put w.path (some (.file c)) false) :=
      Write.saved_put h.sound hroom hname hopen hdst fun p hp => (hpasses p hp).imp_right And.right
    cases hhow : w.how with
    | entry => simp only [Write.cleared_file h.sound hc hreached, hsaved]
    | whole =>
      have hdir : d.isDir w.path = false := Fs.isDir_eq_false.mpr hdst
      simp only [hdir, Bool.and_false, Bool.false_and, Bool.false_eq_true, if_false, Write.deleted_eq h.sound hreached,
        hsaved]
    | stream =>
      have hdirs : ∀ p ∈ w.passes, d p = some .dir := fun p hp => (hpasses p hp).resolve_right fun hnot => hnot.1 hhow
      exact Write.save_iff.mpr ⟨⟨hroom, hdirs⟩, hname, hdst, (set_put h.sound (hdirs _ hparent) hne).symm⟩

/-- One more write. -/
theorem Holds.put (h : Holds d₀ done d) (hblank : Blank base d₀) (hbelow : base <+: w.path) (hroom : w.room = true)
    (hfile : w.content ≠ none → w.path ≠ base) (hfits : ∀ x ∈ done, x.entry.Fits w.entry) :
    Holds d₀ (done ++ [w]) (d.put w.path (some w.node) false) := by
  have hat := h.at_place hblank hbelow hfile hfits
  have hopen := h.open_place hblank hbelow hfits
  refine ⟨h.sound.put hopen fun _ hdir => ?_, fun x hx hx' => ?_, fun q hq => ?_, fun q hq => ?_⟩
  · rcases hat with hat | hat
    · rw [hat] at hdir
      cases hdir
    · exact hat.symm.trans hdir
  · rcases List.mem_append.mp hx with hx | hx
    · have hplaced := h.placed x hx hx'
      by_cases hsame : x.path = w.path
      · rw [hsame, Fs.put_self]
        exact congrArg some (Entry.node_congr ((hfits x hx).same hsame)).symm
      · by_cases hunder : w.path <+: x.path
        · rw [Fs.put_below hunder hsame]
          exact hplaced
        · rw [Fs.put_keeps hunder (by rw [hplaced]; exact Option.some_ne_none _), hplaced]
    · rw [List.mem_singleton.mp hx]
      exact Fs.put_self
  · by_cases habove : q <+: w.path
    · exact .inr ⟨w, by simp, hroom, habove⟩
    · have hq' : d q ≠ none := by
        by_cases hunder : w.path <+: q
        · rw [Fs.put_below hunder fun heq => habove (heq ▸ List.prefix_rfl)] at hq
          simpa using hq
        · rwa [Fs.put_aside hunder habove] at hq
      rcases h.covered q hq' with hold | ⟨x, hx, hx', hpath⟩
      · exact .inl hold
      · exact .inr ⟨x, by simp [hx], hx', hpath⟩
  · have hold := h.kept q hq
    by_cases hself : q = w.path
    · subst hself
      rw [Fs.put_self, ← hold]
      exact (hat.resolve_left (by rw [hold]; exact hq)).symm
    · by_cases hunder : w.path <+: q
      · rw [Fs.put_below hunder hself]
        exact hold
      · rw [Fs.put_keeps hunder (by rw [hold]; exact hq), hold]

/-! ## A write alone -/

omit [DecidableEq ν] in
theorem above_dropLast (hne : dst ≠ []) (hq : q <+: dst.dropLast) : q <+: dst ∧ q ≠ dst ∧ ¬ dst <+: q := by
  obtain ⟨habove, hself⟩ := (prefix_dropLast_iff hne).mp hq
  exact ⟨habove, hself, fun h => hself (prefix_antisymm habove h)⟩

theorem Write.opens_iff :
    (∃ d', w.save d c = some d' ∧ (∀ p ∈ w.passes, d' p = some .dir) ∧ d' w.path = some (.file c)) ↔ w.Opens d := by
  constructor
  · intro hall
    obtain ⟨d', hd', -, -⟩ := hall
    obtain ⟨⟨hroom, hpasses⟩, hname, hfree, -⟩ := Write.save_iff.mp hd'
    exact ⟨hroom, hname, hpasses, hfree⟩
  · intro h
    refine ⟨_, Write.save_iff.mpr ⟨⟨h.room, h.passes⟩, h.name, h.free, rfl⟩, fun p hp => ?_, if_pos rfl⟩
    have hne : p ≠ w.path := by
      rintro rfl
      exact h.free (h.passes _ hp)
    rw [Fs.set, if_neg hne]
    exact h.passes p hp

theorem Write.run_copies_iff (hhow : w.how = .whole) (hc : w.content = some c) : w.run deletes d = some d' ↔
    (w.reached d = true → d w.path = some .dir → w.deletable deletes = true) ∧
      w.save (w.parents (w.deleted d)) c = some d' := by
  unfold Write.run
  simp only [hhow, hc]
  split
  · rename_i hguard
    simp only [Bool.and_eq_true, Bool.not_eq_true', Fs.isDir_eq_true] at hguard
    refine iff_of_false (fun h => by cases h) fun hall => ?_
    rw [hall.1 hguard.1.1 hguard.1.2] at hguard
    cases hguard.2
  · rename_i hguard
    simp only [Bool.and_eq_true, Bool.not_eq_true', Fs.isDir_eq_true, not_and, Bool.not_eq_false] at hguard
    exact (and_iff_right fun hreached hdir => hguard ⟨hreached, hdir⟩).symm

theorem Write.deleted_aside (h : ¬ w.path <+: q) : w.deleted d q = d q := by
  unfold Write.deleted Fs.removeTree
  split
  · exact if_neg h
  · rfl

/-- What is a directory when a file is opened was one before, or is made above it. -/
theorem Write.before (hs : d.Sound) (hname : endsInName w.steps = true)
    (hfree : w.parents (w.deleted d) w.path ≠ some .dir) (hp : w.parents (w.deleted d) p = some .dir) :
    ¬ w.path <+: p ∧ (d p = some .dir ∨ (d p = none ∧ p <+: w.path.dropLast)) := by
  have hnot : ¬ w.path <+: p := by
    intro hbelow
    by_cases hself : p = w.path
    · exact hfree (hself ▸ hp)
    · rw [(Write.parents_sound (less_deleted hs).sound).nothing_below hfree hbelow hself] at hp
      cases hp
  refine ⟨hnot, ?_⟩
  rcases Write.parents_some hname hp with hp | ⟨hp, hpath, -⟩
  · exact .inl (by rwa [Write.deleted_aside hnot] at hp)
  · exact .inr ⟨by rwa [Write.deleted_aside hnot] at hp, hpath⟩

/-- **A file is copied by `copyTo` just when it can be.** -/
theorem Write.copies_iff (hs : d.Sound) (hhow : w.how = .whole) (hc : w.content = some c) :
    (∃ d', w.run deletes d = some d' ∧ (∀ p ∈ w.passes, d' p = some .dir) ∧ d' w.path = some w.node) ↔
      w.Copies deletes d := by
  simp only [Write.run_copies_iff hhow hc, Write.node_file hc]
  constructor
  · intro hall
    obtain ⟨d', ⟨hguard, hd'⟩, -, -⟩ := hall
    obtain ⟨⟨hroom, hpasses⟩, hname, hfree, -⟩ := Write.save_iff.mp hd'
    obtain ⟨hne, -, hparent⟩ := Write.named hname
    have hbefore := fun p hp => Write.before (p := p) hs hname hfree (hpasses p hp)
    refine ⟨hroom, hname, fun q hq hself => ?_, hbefore,
      fun hdir => hguard (Write.reached_iff.mpr ⟨hroom, fun p hp => ?_⟩) hdir⟩
    · have hdir := (Write.parents_sound (less_deleted hs).sound).grounded (hpasses _ hparent) q
        ((prefix_dropLast_iff hne).mpr ⟨hq, hself⟩)
      rw [Fs.isFile_eq_false]
      intro c hc
      rcases (Write.before hs hname hfree hdir).2 with h | h
      · rw [h] at hc
        cases hc
      · rw [h.1] at hc
        cases hc
    · refine (hbefore p hp).2.resolve_right fun h => ?_
      obtain ⟨habove, hself, -⟩ := above_dropLast hne h.2
      rw [hs _ _ habove hself (by rw [hdir]; exact Option.some_ne_none _)] at h
      cases h.1
  · intro h
    obtain ⟨hne, -, hparent⟩ := Write.named h.name
    have hreached : d w.path ≠ none → w.reached d = true := by
      intro hpath
      refine Write.reached_iff.mpr ⟨h.room, fun p hp => (h.passes p hp).2.resolve_right fun hnone => ?_⟩
      obtain ⟨habove, hself, -⟩ := above_dropLast hne hnone.2
      rw [hs _ _ habove hself hpath] at hnone
      cases hnone.1
    -- The place is cleared, so the file is put on a disk that has nothing there.
    have hless := less_removeTree hs w.path
    have hempty : d.removeTree w.path w.path = none := if_pos List.prefix_rfl
    have hpasses : ∀ p ∈ w.passes, d.removeTree w.path p = d p := fun p hp => if_neg (h.passes p hp).1
    have hopen : (d.removeTree w.path).Open w.path := by
      intro q hq hself
      have hsame : d.removeTree w.path q = d q := if_neg fun hbelow => hself (prefix_antisymm hq hbelow)
      rw [Fs.isFile, hsame]
      exact h.above q hq hself
    have hsaved : w.save (w.parents (w.deleted d)) c =
        some ((d.removeTree w.path).put w.path (some (.file c)) false) := by
      rw [Write.deleted_eq hs hreached]
      have := Write.saved_put (c := c) hless.sound h.room h.name hopen (by rw [hempty]; exact fun h => by cases h)
        fun p hp => by
          rw [hpasses p hp]
          exact (h.passes p hp).2.imp_right And.right
      rwa [removeTree_absent hless.sound hempty] at this
    refine ⟨_, ⟨fun _ => h.place, hsaved⟩, fun p hp => ?_, Fs.put_self⟩
    rcases (h.passes p hp).2 with hdir | ⟨hnone, hpath⟩
    · rw [Fs.put_keeps (h.passes p hp).1 (by rw [hpasses p hp, hdir]; exact Option.some_ne_none _), hpasses p hp, hdir]
    · obtain ⟨habove, hself, -⟩ := above_dropLast hne hpath
      rw [Fs.put_above habove hself, hpasses p hp, hnone, if_pos rfl]

theorem Write.run_makes_iff (hs : d.Sound) (hhow : w.how = .whole) (hc : w.content = none) :
    w.run deletes d = some d' ↔
      (d w.path ≠ none → w.reached d = true ∧ (d w.path = some .dir → w.deletable deletes = true)) ∧
      w.room = true ∧ (d.removeTree w.path).addDirs w.path = some d' := by
  unfold Write.run
  simp only [hhow, hc]
  by_cases hreached : d w.path ≠ none → w.reached d = true
  · have hempty : (d.removeTree w.path).exists? w.path = false := by
      rw [Fs.exists?, Fs.removeTree, if_pos List.prefix_rfl]
      rfl
    rw [Write.deleted_eq hs hreached, hempty]
    simp only [Bool.false_eq_true, if_false, Write.mkdirs]
    split
    · rename_i hguard
      simp only [Bool.and_eq_true, Bool.not_eq_true', Fs.isDir_eq_true] at hguard
      refine iff_of_false (fun h => by cases h) fun hall => ?_
      have hdeletes := (hall.1 (by rw [hguard.1.2]; exact Option.some_ne_none _)).2 hguard.1.2
      rw [hdeletes] at hguard
      cases hguard.2
    · rename_i hguard
      simp only [Bool.and_eq_true, Bool.not_eq_true', Fs.isDir_eq_true, not_and, Bool.not_eq_false] at hguard
      rw [Option.ite_none_right_eq_some]
      refine (and_iff_right fun hpath => ?_).symm
      exact ⟨hreached hpath, fun hdir => hguard ⟨hreached hpath, hdir⟩⟩
  · simp only [not_forall] at hreached
    obtain ⟨hpath, hno⟩ := hreached
    have hdeleted : w.deleted d = d := by
      rw [Write.deleted, Bool.eq_false_iff.mpr hno]
      rfl
    have hthere : d.exists? w.path = true := Option.isSome_iff_ne_none.mpr hpath
    rw [hdeleted, hthere, Bool.eq_false_iff.mpr hno]
    exact iff_of_false (fun h => by cases h) fun hall => by cases (hall.1 hpath).1

/-- What `copyTo` makes of a directory holds nothing. -/
theorem Write.made_bare (hs : d.Sound) (hhow : w.how = .whole) (hc : w.content = none) (hd : w.run deletes d = some d')
    (hbelow : w.path <+: q) (hself : q ≠ w.path) : d' q = none := by
  obtain ⟨-, -, hmade⟩ := (Write.run_makes_iff hs hhow hc).mp hd
  rw [(Fs.addDirs_eq hmade).2, if_neg fun h => hself (prefix_antisymm h.1 hbelow)]
  exact if_pos hbelow

/-- **A directory is made by `copyTo` just when it can be.** -/
theorem Write.makes_iff (hs : d.Sound) (hhow : w.how = .whole) (hc : w.content = none) :
    (∃ d', w.run deletes d = some d' ∧ (∀ p ∈ w.passes, d' p = some .dir) ∧ d' w.path = some w.node) ↔
      w.Makes deletes d := by
  simp only [Write.run_makes_iff hs hhow hc, Write.node_dir hc, Write.reached_iff]
  have haside : ∀ {q}, ¬ w.path <+: q → d.removeTree w.path q = d q := fun h => if_neg h
  constructor
  · intro hall
    obtain ⟨d', ⟨hplace, hroom, hmade⟩, hpasses, -⟩ := hall
    obtain ⟨hfile, hmade'⟩ := Fs.addDirs_eq hmade
    refine ⟨hroom, fun q hq hself => ?_, fun p hp => ?_, fun hpath => ⟨(hplace hpath).1.2, (hplace hpath).2⟩⟩
    · have hnone := hfile q hq
      rwa [Fs.isFile, haside fun hbelow => hself (prefix_antisymm hq hbelow)] at hnone
    · by_cases habove : p <+: w.path
      · exact .inl habove
      · have hdir := hpasses p hp
        rw [hmade', if_neg fun h => habove h.1] at hdir
        have hnot : ¬ w.path <+: p := by
          intro hbelow
          rw [Fs.removeTree, if_pos hbelow] at hdir
          cases hdir
        rw [haside hnot] at hdir
        exact .inr ⟨hnot, hdir⟩
  · intro h
    obtain ⟨d', hmade⟩ := Fs.addDirs_isSome (d := d.removeTree w.path) (p := w.path) fun q hq => by
      by_cases hself : q = w.path
      · rw [hself, Fs.isFile, Fs.removeTree, if_pos List.prefix_rfl]
      · rw [Fs.isFile, haside fun hbelow => hself (prefix_antisymm hq hbelow)]
        exact h.above q hq hself
    have hgrounded := Fs.addDirs_dir hmade
    refine ⟨d', ⟨fun hpath => ⟨⟨h.room, (h.place hpath).1⟩, (h.place hpath).2⟩, h.room, hmade⟩, fun p hp => ?_,
      hgrounded.self⟩
    rcases h.passes p hp with habove | ⟨hnot, hdir⟩
    · exact hgrounded p habove
    · rw [(Fs.addDirs_eq hmade).2, haside hnot, hdir, if_neg (by simp)]

/-! ## All the writes -/

theorem runWrites_append {ws' : List (Write ν β)} :
    runWrites deletes d (ws ++ ws') = (runWrites deletes d ws).bind (runWrites deletes · ws') := by
  simp only [runWrites, List.foldlM_append]
  rfl

theorem runWrites_cons : runWrites deletes d (w :: ws) = (w.run deletes d).bind (runWrites deletes · ws) := rfl

theorem runWrites_single : runWrites deletes d [w] = w.run deletes d := by
  rw [runWrites_cons]
  cases w.run deletes d <;> rfl

theorem Write.run_noRoom (hroom : w.room = false) (hc : w.content = none)
    (hwhole : w.how = .whole → w.content ≠ none) : w.run deletes d = some d := by
  have hcleared : w.cleared d = d := by
    rw [Write.cleared, Write.reached, hroom]
    rfl
  have hmkdirs : ∀ d, w.mkdirs d = none := fun d => by
    rw [Write.mkdirs, hroom]
    rfl
  unfold Write.run
  cases hhow : w.how with
  | entry => simp only [hc, hcleared, hmkdirs, Option.getD_none]
  | whole => exact absurd hc (hwhole hhow)
  | stream => simp only [hc, hmkdirs, Option.getD_none]

/-- Writes that are kept apart are all carried out. -/
theorem Holds.runWrites (deletes : Path ν → Bool) (h : Holds d₀ done d) (hblank : Blank base d₀)
    (hwhole : ∀ w ∈ ws, w.how = .whole → w.content ≠ none) (hapart : KeptApart base d₀ (done ++ ws)) :
    ∃ d', runWrites deletes d ws = some d' ∧ Holds d₀ (done ++ ws) d' := by
  induction ws generalizing d done with
  | nil => exact ⟨d, rfl, by rwa [List.append_nil]⟩
  | cons w ws ih =>
    have hlist : done ++ w :: ws = (done ++ [w]) ++ ws := by simp
    have hmem : w ∈ done ++ w :: ws := by simp
    have hfits : ∀ x ∈ done, x.entry.Fits w.entry := fun x hx => hapart.fits x (by simp [hx]) w hmem
    obtain ⟨d₁, hrun, hnext⟩ : ∃ d₁, w.run deletes d = some d₁ ∧ Holds d₀ (done ++ [w]) d₁ := by
      cases hroom : w.room with
      | true =>
        refine ⟨_, h.run_eq deletes hblank (hapart.below w hmem) hroom (fun hc => (hapart.files w hmem hc).2)
          (hwhole w (by simp)) hfits (hapart.reached done w ws rfl), ?_⟩
        exact h.put hblank (hapart.below w hmem) hroom (fun hc => (hapart.files w hmem hc).2.2) hfits
      | false =>
        have hdir : w.content = none := by
          by_contra hc
          rw [(hapart.files w hmem hc).1] at hroom
          cases hroom
        refine ⟨d, Write.run_noRoom hroom hdir (hwhole w (by simp)), h.sound, fun x hx hx' => ?_, fun q hq => ?_,
          h.kept⟩
        · rcases List.mem_append.mp hx with hx | hx
          · exact h.placed x hx hx'
          · rw [List.mem_singleton.mp hx, hroom] at hx'
            cases hx'
        · rcases h.covered q hq with hold | ⟨x, hx, hx', hpath⟩
          · exact .inl hold
          · exact .inr ⟨x, by simp [hx], hx', hpath⟩
    rw [hlist] at hapart ⊢
    obtain ⟨d', hd', hholds⟩ := ih hnext (fun x hx => hwhole x (by simp [hx])) hapart
    refine ⟨d', ?_, hholds⟩
    rw [runWrites_cons, hrun]
    exact hd'

/-- What any writes leave. -/
theorem runWrites_any (hs : d.Sound) (hwhole : ∀ w ∈ ws, w.how = .whole → w.content ≠ none)
    (hd : runWrites deletes d ws = some d') :
    d'.Sound ∧
      (∀ q, d' q = some .dir →
        d q = some .dir ∨ ∃ x ∈ ws, x.room = true ∧ q <+: x.path ∧ (q = x.path → x.content = none)) ∧
      ∀ before w after, ws = before ++ w :: after → w.content ≠ none →
        w.room = true ∧ endsInName w.steps = true ∧ ∀ p ∈ w.passes, Standing d before w p := by
  induction ws generalizing d with
  | nil =>
    rw [Disk.runWrites, List.foldlM_nil, Option.pure_def, Option.some.injEq] at hd
    subst hd
    exact ⟨hs, fun q hq => .inl hq, fun before w after hnil => by simp at hnil⟩
  | cons w ws ih =>
    rw [runWrites_cons] at hd
    cases hw : w.run deletes d with
    | none =>
      rw [hw] at hd
      cases hd
    | some d₁ =>
      rw [hw] at hd
      have hleaves := Write.run_any hs (hwhole w (by simp)) hw
      obtain ⟨hsound, hdirs, hopened⟩ := ih hleaves.sound (fun x hx => hwhole x (by simp [hx])) hd
      refine ⟨hsound, fun q hq => ?_, fun before x after hlist hc => ?_⟩
      · rcases hdirs q hq with hq | ⟨x, hx, hmakes⟩
        · exact (hleaves.dirs q hq).imp_right fun hmakes => ⟨w, by simp, hmakes⟩
        · exact .inr ⟨x, by simp [hx], hmakes⟩
      · cases before with
        | nil =>
          rw [List.nil_append, List.cons.injEq] at hlist
          rw [← hlist.1] at hc ⊢
          obtain ⟨hroom, hname, hpasses⟩ := hleaves.opened hc
          exact ⟨hroom, hname, fun p hp => (hpasses p hp).imp_right Or.inr⟩
        | cons b before =>
          rw [List.cons_append, List.cons.injEq] at hlist
          obtain ⟨hroom, hname, hpasses⟩ := hopened before x after hlist.2 hc
          refine ⟨hroom, hname, fun p hp => ?_⟩
          rcases hpasses p hp with hp | ⟨y, hy, hmakes⟩ | hp
          · rcases hleaves.dirs p hp with hp | hmakes
            · exact .inl hp
            · exact .inr (.inl ⟨b, by simp, hlist.1 ▸ hmakes⟩)
          · exact .inr (.inl ⟨y, by simp [hy], hmakes⟩)
          · exact .inr (.inr hp)

omit [DecidableEq ν] in
/-- Entries that a sound disk holds fit. -/
theorem fits_of_placed {a b : Entry ν β} (hs : d.Sound) (ha : d a.path = some a.node) (hb : d b.path = some b.node) :
    a.Fits b := by
  have hleft : ∀ {a b : Entry ν β}, d a.path = some a.node → d b.path = some b.node → a.content ≠ none →
      a.path <+: b.path → a.path = b.path := by
    intro a b ha hb hfile hpath
    by_contra hne
    have hdir := hs _ _ hpath hne (by rw [hb]; exact Option.some_ne_none _)
    rw [ha] at hdir
    exact hfile (Entry.node_dir (Option.some.inj hdir))
  refine ⟨fun hpath => ?_, hleft ha hb, hleft hb ha⟩
  rw [hpath, hb, Option.some.injEq] at ha
  cases hc : a.content with
  | none =>
    rw [Entry.node, Entry.node, hc] at ha
    exact (Entry.node_dir ha).symm
  | some c =>
    have hnode : a.node = .file c := by rw [Entry.node, hc]
    rw [hnode] at ha
    exact (Entry.node_file ha).symm

/-- **Writes below an empty directory are all there at the end just when they are kept
apart.** -/
theorem writes_kept_iff (deletes : Path ν → Bool) (hblank : Blank base d)
    (hwhole : ∀ w ∈ ws, w.how = .whole → w.content ≠ none) :
    (∃ d', runWrites deletes d ws = some d' ∧ d' base = some .dir ∧
      ∀ w ∈ ws, base <+: w.path ∧ d' w.path = some w.node) ↔ KeptApart base d ws := by
  constructor
  · intro hall
    obtain ⟨d', hd', hrooted, hplaced⟩ := hall
    obtain ⟨hsound, hdirs, hopened⟩ := runWrites_any hblank.sound hwhole hd'
    refine ⟨fun w hw => (hplaced w hw).1, fun x hx y hy => ?_, ?_, ?_, ?_⟩
    · exact fits_of_placed hsound (hplaced x hx).2 (hplaced y hy).2
    · intro w hw hc
      obtain ⟨before, after, hlist⟩ := List.append_of_mem hw
      obtain ⟨hroom, hname, -⟩ := hopened before w after hlist hc
      refine ⟨hroom, hname, fun hself => ?_⟩
      have hat := (hplaced w hw).2
      rw [hself, hrooted] at hat
      exact hc (Entry.node_dir (Option.some.inj hat).symm)
    · intro w hw hc
      have hat := (hplaced w hw).2
      rw [Write.node_dir hc] at hat
      rcases hdirs _ hat with hold | ⟨x, hx, hroom, hpath, -⟩
      · exact .inl (hblank.empty _ (hplaced w hw).1 (by rw [hold]; exact Option.some_ne_none _))
      · exact .inr ⟨x, hx, hroom, hpath⟩
    · intro before w after hlist hc
      exact (hopened before w after hlist hc).2.2
  · intro hapart
    have hstart : Holds d ([] : List (Write ν β)) d :=
      ⟨hblank.sound, fun x hx => (by cases hx), fun q hq => .inl hq, fun q _ => rfl⟩
    obtain ⟨d', hd', hholds⟩ := hstart.runWrites deletes hblank hwhole hapart
    have hrooted : d' base = some .dir := by
      rw [hholds.kept _ (by rw [hblank.rooted]; exact Option.some_ne_none _), hblank.rooted]
    refine ⟨d', hd', hrooted, fun w hw => ⟨hapart.below w hw, ?_⟩⟩
    cases hroom : w.room with
    | true => exact hholds.placed w hw hroom
    | false =>
      -- Only a directory can go without room, and something else makes it.
      have hdir : w.content = none := by
        by_contra hc
        rw [(hapart.files w hw hc).1] at hroom
        cases hroom
      rw [Write.node_dir hdir]
      rcases hapart.dirs w hw hdir with hbase | ⟨x, hx, hx', hpath⟩
      · rw [hbase, hrooted]
      · have hat := hholds.placed x hx hx'
        by_cases hsame : w.path = x.path
        · have hc : x.content = none := ((hapart.fits w hw x hx).same hsame).symm.trans hdir
          rw [hsame, hat, Write.node_dir hc]
        · exact hholds.sound _ _ hpath hsame (by rw [hat]; exact Option.some_ne_none _)

end

end Disk

/-
What a run of `receive_file` leaves at the path it renamed to, when others
receive for the same path.

A run hashes the bytes it was sent and renames whatever the `.part` name leads
to. The two are the same as long as no run looks at the `.part` file while
another is between its own first look and its return (`Exclusive`); then what
the run at work has hashed is in the `.part` file (`Run.Holds`), and the files
of those that have returned stay as they are. Runs that overlap can leave one
run's bytes under the name of the other (`overlapping_corrupt`).
-/
import Nxfr.SharedPart
import Nxfr.History

namespace Nxfr

open Inodes History

/-! ## The reactions are those of `receiveStep` -/

section

variable {x : Ext} {now : Nat} {a : RecvArgs}

/-- What `receiveStep` does with a frame, but for the frames it sends. -/
def Reaction.Effect (x : Ext) (now : Nat) (a : RecvArgs) (l : RecvLocals) (s : RecvState) :
    Reaction → Flow RecvLocals × RecvState → Prop
  | .ignore, r => r = (.next l, s)
  | .store data last, r => ∃ s', storeChunk a (l.receivedBytes + data.length) data s = some s' ∧ ∃ conn,
      let l' : RecvLocals := ⟨l.receivedBytes + data.length, l.hasher ++ data⟩
      r = if last then finishFile x now a l' { s' with conn } else (.next l', { s' with conn })
  | .acknowledge last, r => ∃ conn, r = if last then finishFile x now a l { s with conn } else (.next l, { s with conn })
  | .refuse failure remove, r => ∃ conn, r =
      (.ret (.error failure), if remove then RecvState.removeFile { s with conn } a.partPath else { s with conn })

theorem send_effect {α : Type} {s : RecvState} {m : ControlMessage} {k : RecvState → Flow α × RecvState} :
    (s.send x m k).1 = .ret (.error .io) ∨ ∃ conn, s.send x m k = k { s with conn } := by
  unfold RecvState.send
  split
  · exact .inl rfl
  · exact .inr ⟨_, rfl⟩

theorem receiveChunk_reacts {l : RecvLocals} {f : Frame} {s : RecvState} :
    (receiveChunk x now a l f s).1 = .ret (.error .io) ∨
      (reactChunk x a l f).Effect x now a l s (receiveChunk x now a l f s) := by
  unfold receiveChunk reactChunk
  split
  · exact .inr rfl
  split
  · exact .inr rfl
  dsimp only
  split
  · exact send_effect
  split
  · split
    · exact send_effect
    · split
      · exact .inl rfl
      · rename_i s' hstore
        rcases send_effect with hfail | ⟨conn, hsend⟩
        · exact .inl hfail
        · exact .inr ⟨s', hstore, conn, hsend⟩
  split
  · split
    · exact send_effect
    · exact send_effect
  · exact send_effect

/-- **A turn of the loop is a reaction and its effect**, unless the disk or
the connection fails. -/
theorem receiveStep_reacts {l : RecvLocals} {f : Frame} {s : RecvState} :
    (receiveStep x now a l f s).1 = .ret (.error .io) ∨
      (react x a l f).Effect x now a l s (receiveStep x now a l f s) := by
  cases hkind : f.kind with
  | chunk =>
    simp only [receiveStep, react, hkind]
    exact receiveChunk_reacts
  | control =>
    cases hcontrol : f.control with
    | error e =>
      simp only [receiveStep, react, hkind, hcontrol]
      exact .inr ⟨s.conn, rfl⟩
    | ok m =>
      cases m with
      | transferCancel _ _ =>
        simp only [receiveStep, react, hkind, hcontrol]
        exact .inr ⟨s.conn, rfl⟩
      | sessionClose _ =>
        simp only [receiveStep, react, hkind, hcontrol]
        exact .inr ⟨s.conn, rfl⟩
      | _ =>
        simp only [receiveStep, react, hkind, hcontrol]
        exact .inr rfl
  | keepalive =>
    simp only [receiveStep, react, hkind]
    exact .inr rfl

end

namespace SharedPart

/-- A run starts on the `.part` file only while no other is at work on it, and
`resolve_collision` finds a name that is free. -/
structure Exclusive (s : State) (e : Event) : Prop where
  alone : e.action = .check → (s.runs e.run).stage = .start → ∀ j, j ≠ e.run → (s.runs j).stage.active = false
  free : ∀ now, e.action = .resolve now → (s.runs e.run).stage = .resolving →
    s.tree.view (resolveCollision now s.tree.view (s.runs e.run).args.finalPath) = none

section

variable (x : Ext)

/-- The bytes are those the run was announced. -/
def Run.Expects (r : Run) (c : Bytes) : Prop := x.sha256 c = r.args.expectedHash ∧ c.length = r.args.expectedSize

/-- The file at the destination of a run that has returned; it is no longer
the `.part` file. -/
def Run.Delivered (r : Run) (t : Tree) (dest : Path) : Prop :=
  ∃ n, t.entries dest = some (.file n) ∧ r.Expects x (t.content n) ∧ t.entries r.args.partPath ≠ some (.file n)

/-- What the disk has of a run: what it has hashed is in the `.part` file,
and its handle is at the end of it; what it has checked is there to be
renamed, and afterwards at its destination. -/
def Run.Holds (r : Run) (t : Tree) : Prop := match r.stage with
  | .start | .creating | .reading | .removing _ | .returned (.error _) => True
  | .appending existing => t.view r.args.partPath = some (.file existing)
  | .receiving file l => t.entries r.args.partPath = some (.file file.inode) ∧ t.content file.inode = l.hasher ∧
      l.receivedBytes = l.hasher.length ∧ (file.position = none ∨ file.position = some l.hasher.length)
  | .checking l => t.view r.args.partPath = some (.file l.hasher) ∧ l.receivedBytes = l.hasher.length
  | .resolving => ∃ c, t.view r.args.partPath = some (.file c) ∧ r.Expects x c
  | .moving finalDest => (∃ c, t.view r.args.partPath = some (.file c) ∧ r.Expects x c) ∧ t.entries finalDest = none
  | .returned (.ok finalDest) => r.Delivered x t finalDest

end

/-! ## One step of a run -/

section

variable {x : Ext} {r : Run} {t : Tree}

theorem read_view {p : Path} {c : Bytes} (h : t.view.read p = some c) : t.view p = some (.file c) := by
  unfold Disk.Fs.read at h
  split at h
  · rename_i c' hc
    cases h
    exact hc
  · cases h

/-- A frame keeps the hasher and the `.part` file in step. -/
theorem reactTo_holds {file : Handle} {l : RecvLocals} (h : { r with stage := .receiving file l : Run }.Holds x t)
    (reaction : Reaction) :
    { r with stage := (reactTo file l t reaction).1 : Run }.Holds x (reactTo file l t reaction).2 ∧
      Tree.Spares r.args.partPath t (reactTo file l t reaction).2 := by
  obtain ⟨hpart, hcontent, hsize, hpos⟩ := h
  have hview : t.view r.args.partPath = some (.file l.hasher) := Tree.view_file.mpr ⟨_, hpart, hcontent⟩
  cases reaction with
  | ignore => exact ⟨⟨hpart, hcontent, hsize, hpos⟩, .refl⟩
  | store data last =>
    refine ⟨?_, Tree.write_spares hpart⟩
    have hwritten := @Tree.write_end _ _ t file _ data (by rw [hcontent]; exact hpos)
    rw [hcontent] at hwritten
    have hlength : l.receivedBytes + data.length = (l.hasher ++ data).length := by simp [hsize]
    cases last with
    | false => exact ⟨hpart, hwritten.1, hlength, hwritten.2⟩
    | true => exact ⟨Tree.view_file.mpr ⟨_, hpart, hwritten.1⟩, hlength⟩
  | acknowledge last =>
    cases last with
    | false => exact ⟨⟨hpart, hcontent, hsize, hpos⟩, .refl⟩
    | true => exact ⟨⟨hview, hsize⟩, .refl⟩
  | refuse failure remove =>
    cases remove with
    | false => exact ⟨trivial, .refl⟩
    | true => exact ⟨trivial, .refl⟩

/-- A step of a run keeps what the disk has of it, and spares every file but
the one under the `.part` name. -/
theorem act_holds (h : r.Holds x t) (a : Action)
    (hfree : ∀ now, a = .resolve now → r.stage = .resolving →
      t.view (resolveCollision now t.view r.args.finalPath) = none) :
    { r with stage := (act x r t a).1 : Run }.Holds x (act x r t a).2 ∧
      Tree.Spares r.args.partPath t (act x r t a).2 := by
  obtain ⟨args, hasPartial, stage⟩ := r
  cases a with
  | check =>
    cases stage with
    | start =>
      refine ⟨?_, .refl⟩
      simp only [act]
      split <;> trivial
    | _ => exact ⟨h, .refl⟩
  | create =>
    cases stage with
    | creating =>
      simp only [act]
      split
      · rename_i file t' hcreate
        obtain ⟨hpos, hpart, hempty, _⟩ := Tree.create_some hcreate
        exact ⟨⟨hpart, hempty, rfl, .inr hpos⟩, Tree.create_spares hcreate⟩
      · exact ⟨trivial, .refl⟩
    | _ => exact ⟨h, .refl⟩
  | read =>
    cases stage with
    | reading =>
      simp only [act]
      split
      · rename_i existing hread
        refine ⟨?_, .refl⟩
        split
        · rename_i hdone
          exact ⟨existing, read_view hread, hdone.2, hdone.1⟩
        · exact read_view hread
      · exact ⟨trivial, .refl⟩
    | _ => exact ⟨h, .refl⟩
  | openAppend =>
    cases stage with
    | appending existing =>
      simp only [act]
      split
      · rename_i file hopen
        obtain ⟨hpart, hpos⟩ := Tree.openAppend_some hopen
        obtain ⟨n, hn, hcontent⟩ := Tree.view_file.mp h
        rw [hpart, Option.some.injEq, Entry.file.injEq] at hn
        subst hn
        exact ⟨⟨hpart, hcontent, rfl, .inl hpos⟩, .refl⟩
      · exact ⟨trivial, .refl⟩
    | _ => exact ⟨h, .refl⟩
  | frame f =>
    cases stage with
    | receiving file l => exact reactTo_holds h (react x args l f)
    | _ => exact ⟨h, .refl⟩
  | verify =>
    cases stage with
    | checking l =>
      refine ⟨?_, .refl⟩
      obtain ⟨hview, hsize⟩ := h
      simp only [act]
      split
      · trivial
      · rename_i hhash
        split
        · trivial
        · rename_i htotal
          simp only [ne_eq, Decidable.not_not] at hhash htotal
          exact ⟨l.hasher, hview, hhash, hsize ▸ htotal⟩
    | _ => exact ⟨h, .refl⟩
  | remove =>
    cases stage with
    | removing failure =>
      refine ⟨trivial, ?_⟩
      cases hremove : t.remove args.partPath with
      | none =>
        simp only [act, hremove]
        exact .refl
      | some t' =>
        simp only [act, hremove]
        exact Tree.remove_spares hremove
    | _ => exact ⟨h, .refl⟩
  | resolve now =>
    cases stage with
    | resolving => exact ⟨⟨h, Tree.view_none.mp (hfree now rfl rfl)⟩, .refl⟩
    | _ => exact ⟨h, .refl⟩
  | rename =>
    cases stage with
    | moving finalDest =>
      obtain ⟨⟨c, hview, hexpects⟩, hdest⟩ := h
      simp only [act]
      split
      · rename_i t' hrename
        refine ⟨?_, Tree.rename_spares hrename hdest⟩
        obtain ⟨n, hn, hcontent⟩ := Tree.view_file.mp hview
        obtain ⟨m, hm, hnew, hsame, hgone, _⟩ := Tree.rename_some hrename
        rw [hn, Option.some.injEq, Entry.file.injEq] at hm
        subst hm
        have hne : args.partPath ≠ finalDest := by
          intro hne
          simp [← hne, hn] at hdest
        refine ⟨n, hnew, ?_, by simp [hgone hne]⟩
        rw [hsame, hcontent]
        exact hexpects
      · exact ⟨trivial, .refl⟩
    | _ => exact ⟨h, .refl⟩
  | fail written =>
    cases stage with
    | start => exact ⟨h, .refl⟩
    | returned result => exact ⟨h, .refl⟩
    | receiving file l => exact ⟨trivial, Tree.write_spares h.1⟩
    | _ => exact ⟨trivial, .refl⟩

/-- A run that is not at work changes nothing, and only its first look makes
it one that is. -/
theorem act_inactive (h : r.stage.active = false) (a : Action) :
    (act x r t a).2 = t ∧ ((act x r t a).1.active = true → a = .check ∧ r.stage = .start) := by
  obtain ⟨args, hasPartial, stage⟩ := r
  cases stage with
  | start =>
    cases a with
    | check => exact ⟨rfl, fun _ => ⟨rfl, rfl⟩⟩
    | _ => exact ⟨rfl, nofun⟩
  | returned result => cases a <;> exact ⟨rfl, nofun⟩
  | _ => cases h

/-- A run that is not at work keeps its file while another works on the
`.part` file. -/
theorem Run.Holds.spared {t' : Tree} (h : r.Holds x t) (hr : r.stage.active = false)
    (hspares : Tree.Spares r.args.partPath t t') : r.Holds x t' := by
  obtain ⟨args, hasPartial, stage⟩ := r
  cases stage with
  | start => trivial
  | returned result =>
    cases result with
    | error _ => trivial
    | ok dest =>
      obtain ⟨n, hdest, hexpects, hpart⟩ := h
      obtain ⟨hdest', hcontent, hpart'⟩ := hspares dest n hdest hpart
      exact ⟨n, hdest', hcontent ▸ hexpects, hpart'⟩
  | _ => cases hr

end

/-! ## Whole runs -/

/-- What holds in every state: at most one run is at work, and the disk has
what it should have of each. -/
structure Serial (x : Ext) (args : Nat → RecvArgs) (s : State) : Prop where
  called : ∀ i, (s.runs i).args = args i
  alone : ∀ {i j}, (s.runs i).stage.active = true → (s.runs j).stage.active = true → i = j
  holds : ∀ i, (s.runs i).Holds x s.tree

theorem setRun_self {s : State} {i : Nat} {stage : Stage} {t : Tree} :
    (s.setRun i stage t).runs i = { s.runs i with stage } := by
  simp [State.setRun]

theorem setRun_other {s : State} {i j : Nat} {stage : Stage} {t : Tree} (h : j ≠ i) :
    (s.setRun i stage t).runs j = s.runs j := by
  simp [State.setRun, h]

theorem Serial.step {x : Ext} {args : Nat → RecvArgs} {s : State} (hpaths : ∀ i j, (args i).partPath = (args j).partPath)
    (h : Serial x args s) {e : Event} (he : Exclusive s e) : Serial x args (step x s e) := by
  obtain ⟨i, a⟩ := e
  obtain ⟨hholds, hspares⟩ := act_holds (h.holds i) a (fun now ha hstage => he.free now ha hstage)
  -- Whoever else is at work keeps the run that moves from being so.
  have others : ∀ j, j ≠ i → (s.runs j).stage.active = true → (act x (s.runs i) s.tree a).1.active = false := by
    intro j hj hactive
    have hi : (s.runs i).stage.active = false := by
      by_contra hi
      exact hj (h.alone hactive (by simpa using hi))
    by_contra hnew
    obtain ⟨hcheck, hstart⟩ := (act_inactive hi a).2 (by simpa using hnew)
    rw [he.alone hcheck hstart j hj] at hactive
    cases hactive
  refine ⟨?_, ?_, ?_⟩
  · intro j
    by_cases hj : j = i
    · subst hj
      rw [SharedPart.step, setRun_self]
      exact h.called j
    · rw [SharedPart.step, setRun_other hj]
      exact h.called j
  · intro j k hjactive hkactive
    rw [SharedPart.step] at hjactive hkactive
    by_cases hj : j = i
    · subst hj
      by_cases hk : k = j
      · exact hk.symm
      · rw [setRun_self] at hjactive
        rw [setRun_other hk] at hkactive
        simp [others k hk hkactive] at hjactive
    · rw [setRun_other hj] at hjactive
      by_cases hk : k = i
      · subst hk
        rw [setRun_self] at hkactive
        simp [others j hj hjactive] at hkactive
      · rw [setRun_other hk] at hkactive
        exact h.alone hjactive hkactive
  · intro j
    by_cases hj : j = i
    · subst hj
      rw [SharedPart.step, setRun_self]
      exact hholds
    · rw [SharedPart.step, setRun_other hj]
      by_cases hjactive : (s.runs j).stage.active = true
      · have hi : (s.runs i).stage.active = false := by
          by_contra hi
          exact hj (h.alone hjactive (by simpa using hi))
        have hsame : (act x (s.runs i) s.tree a).2 = s.tree := (act_inactive hi a).1
        show (s.runs j).Holds x (act x (s.runs i) s.tree a).2
        rw [hsame]
        exact h.holds j
      · refine (h.holds j).spared (by simpa using hjactive) ?_
        rw [h.called j, hpaths j i, ← h.called i]
        exact hspares

theorem Serial.start {x : Ext} {t : Tree} {args : Nat → RecvArgs} {hasPartial : Nat → Bool} :
    Serial x args (start t args hasPartial) := by
  refine ⟨fun _ => rfl, ?_, fun _ => trivial⟩
  intro i j hi
  cases hi

/-- **A run that returns `Ok` has put the announced bytes in place**, whatever
other runs receive for the same path, as long as no run starts on the `.part`
file while another is at work on it and a free name is found for each: in
every state from then on the file at its destination has the announced hash
and size. -/
theorem received_alone {x : Ext} {finalPath : Path} {t : Tree} {args : Nat → RecvArgs} {hasPartial : Nat → Bool}
    {es : List Event} (hpaths : ∀ i, (args i).finalPath = finalPath ∧ (args i).partPath = partPath finalPath)
    (hes : Always (step x) (start t args hasPartial) Exclusive es) {i : Nat} {dest : Path}
    (hi : ((after (step x) (start t args hasPartial) es).runs i).stage = .returned (.ok dest)) :
    ∃ c, (after (step x) (start t args hasPartial) es).tree.view dest = some (.file c) ∧
      x.sha256 c = (args i).expectedHash ∧ c.length = (args i).expectedSize := by
  have hpart : ∀ i j, (args i).partPath = (args j).partPath := by
    intro i j
    rw [(hpaths i).2, (hpaths j).2]
  have hend : Serial x args (after (step x) (start t args hasPartial) es) :=
    Always.keeps (I := Serial x args) .start (fun s e he h => h.step hpart he) hes
  have hholds := hend.holds i
  simp only [Run.Holds, hi] at hholds
  obtain ⟨n, hdest, ⟨hhash, hsize⟩, _⟩ := hholds
  rw [hend.called i] at hhash hsize
  exact ⟨_, Tree.view_file.mpr ⟨n, hdest, rfl⟩, hhash, hsize⟩

/-! ## Two connections -/

/-- SHA-256 of `a`. -/
def hashOfA : Bytes :=
  [0xca, 0x97, 0x81, 0x12, 0xca, 0x1b, 0xbd, 0xca, 0xfa, 0xc2, 0x31, 0xb3, 0x9a, 0x23, 0xdc, 0x4d,
    0xa7, 0x86, 0xef, 0xf8, 0x14, 0x7c, 0x4e, 0x72, 0xb9, 0x80, 0x77, 0x85, 0xaf, 0xee, 0x48, 0xbb]

/-- SHA-256 of `b`. -/
def hashOfB : Bytes :=
  [0x3e, 0x23, 0xe8, 0x16, 0x00, 0x39, 0x59, 0x4a, 0x33, 0x89, 0x4f, 0x65, 0x64, 0xe1, 0xb1, 0x34,
    0x8b, 0xbd, 0x7a, 0x00, 0x88, 0xd4, 0x2c, 0x4a, 0xcb, 0x73, 0xee, 0xae, 0xd5, 0x9c, 0x00, 0x9d]

/-- SHA-256 of what the two connections send. -/
def letterHash (bs : Bytes) : Digest := if bs = [0x61] then ⟨hashOfA, rfl⟩ else ⟨hashOfB, rfl⟩

def letterExt : Ext := { sha256 := letterHash, cborLen := fun m => 256 + m.volume, debugStr := id }

def letterPath : Path := ["recv", "a.txt"]

/-- The first connection sends `a`, every other `b`. -/
def letter (i : Nat) : Bytes := if i = 0 then [0x61] else [0x62]

def letterArgs (i : Nat) : RecvArgs :=
  { fileId := 1, streamId := 1, expectedSize := 1, expectedHash := letterHash (letter i), partPath := partPath letterPath,
    finalPath := letterPath }

def letterFrame (i : Nat) : Frame :=
  chunkFrame 1 1 1 (toBeBytes 0 ++ (letterHash (letter i)).bytes ++ letter i)

/-- An empty receive directory. -/
def emptyTree : Tree where
  entries p := if p = [] ∨ p = ["recv"] then some .dir else none
  content _ := []
  next := 0
  bounded {p n} h := by
    split at h
    · cases h
    · cases h

def letters : State := start emptyTree letterArgs fun _ => false

/-- A whole run. -/
def wholeRun (i : Nat) : List Event :=
  [⟨i, .check⟩, ⟨i, .create⟩, ⟨i, .frame (letterFrame i)⟩, ⟨i, .verify⟩, ⟨i, .resolve 0⟩, ⟨i, .rename⟩]

/-- Both runs create the `.part` file and write to it, the first `a` and the
second, over it, `b`; then the first goes on. -/
def overlapping : List Event :=
  [⟨0, .check⟩, ⟨0, .create⟩, ⟨1, .check⟩, ⟨1, .create⟩, ⟨0, .frame (letterFrame 0)⟩, ⟨1, .frame (letterFrame 1)⟩,
    ⟨0, .verify⟩, ⟨0, .resolve 0⟩, ⟨0, .rename⟩]

def Stage.dest : Stage → Option Path
  | .returned (.ok dest) => some dest
  | _ => none

theorem Stage.dest_some {stage : Stage} {dest : Path} (h : stage.dest = some dest) : stage = .returned (.ok dest) := by
  unfold Stage.dest at h
  split at h
  · cases h
    rfl
  · cases h

/-- A run that takes no step stays where it is. -/
theorem runs_idle {x : Ext} {s : State} {es : List Event} {j : Nat} (h : ∀ e ∈ es, e.run ≠ j) :
    (after (step x) s es).runs j = s.runs j := by
  refine after_induction (I := fun es (s' : State) => (∀ e ∈ es, e.run ≠ j) → s'.runs j = s.runs j) (fun _ => rfl) ?_ es h
  intro es e ih hes
  have hne : j ≠ e.run := fun hj => hes e (by simp) hj.symm
  rw [step, setRun_other hne]
  exact ih fun e he => hes e (by simp [he])

/-- `Exclusive`, computed for two runs. -/
def exclusiveOfTwo (s : State) (e : Event) : Bool := match e.action with
  | .check => (List.range 2).all fun j => j == e.run || !(s.runs j).stage.active
  | .resolve now => !s.tree.view.exists? (resolveCollision now s.tree.view (s.runs e.run).args.finalPath)
  | _ => true

theorem wholeRuns_exclusive : Always (step letterExt) letters Exclusive (wholeRun 0 ++ wholeRun 1) := by
  have hholds : Always (step letterExt) letters (fun s e => exclusiveOfTwo s e = true) (wholeRun 0 ++ wholeRun 1) :=
    .of_holds (fun _ _ h => h) (by decide +kernel)
  intro es₁ e es₂ hes
  have hnow := hholds es₁ e es₂ hes
  refine ⟨?_, ?_⟩
  · intro hcheck _ j hj
    by_cases hlt : j < 2
    · simp only [exclusiveOfTwo, hcheck, List.all_eq_true, List.mem_range, Bool.or_eq_true, beq_iff_eq] at hnow
      simpa using (hnow j hlt).resolve_left hj
    · have hother : ∀ e ∈ es₁, e.run ≠ j := by
        intro e he hej
        have hmem : e ∈ wholeRun 0 ++ wholeRun 1 := by simp [hes, he]
        have hrun : e.run = 0 ∨ e.run = 1 := by
          simp only [wholeRun, List.mem_append, List.mem_cons, List.not_mem_nil, or_false] at hmem
          rcases hmem with (rfl | rfl | rfl | rfl | rfl | rfl) | (rfl | rfl | rfl | rfl | rfl | rfl) <;> simp
        omega
      rw [runs_idle hother]
      rfl
  · intro now hresolve _
    simp only [exclusiveOfTwo, hresolve] at hnow
    simpa [Disk.Fs.exists?] using hnow

theorem received_alone_twice :
    (∃ c, (after (step letterExt) letters (wholeRun 0 ++ wholeRun 1)).tree.view letterPath = some (.file c) ∧
      letterHash c = letterHash (letter 0)) ∧
    ∃ c, (after (step letterExt) letters (wholeRun 0 ++ wholeRun 1)).tree.view ["recv", "a (1).txt"] = some (.file c) ∧
      letterHash c = letterHash (letter 1) := by
  have hpaths : ∀ i, (letterArgs i).finalPath = letterPath ∧ (letterArgs i).partPath = partPath letterPath :=
    fun _ => ⟨rfl, rfl⟩
  have hfirst : ((after (step letterExt) letters (wholeRun 0 ++ wholeRun 1)).runs 0).stage.dest = some letterPath := by
    decide +kernel
  have hsecond : ((after (step letterExt) letters (wholeRun 0 ++ wholeRun 1)).runs 1).stage.dest =
      some ["recv", "a (1).txt"] := by
    decide +kernel
  constructor
  · obtain ⟨c, hc, hhash, _⟩ := received_alone hpaths wholeRuns_exclusive (Stage.dest_some hfirst)
    exact ⟨c, hc, hhash⟩
  · obtain ⟨c, hc, hhash, _⟩ := received_alone hpaths wholeRuns_exclusive (Stage.dest_some hsecond)
    exact ⟨c, hc, hhash⟩

/-- Two runs that overlap: the first returns `Ok` and leaves the byte of the
second at its destination. -/
theorem overlapping_corrupt :
    ¬ ∀ (x : Ext) (finalPath : Path) (t : Tree) (args : Nat → RecvArgs) (hasPartial : Nat → Bool) (es : List Event)
      (i : Nat) (dest : Path), (∀ i, (args i).finalPath = finalPath ∧ (args i).partPath = partPath finalPath) →
      ((after (step x) (start t args hasPartial) es).runs i).stage = .returned (.ok dest) →
      ∃ c, (after (step x) (start t args hasPartial) es).tree.view dest = some (.file c) ∧
        x.sha256 c = (args i).expectedHash := by
  intro h
  have hdest : ((after (step letterExt) letters overlapping).runs 0).stage.dest = some letterPath := by decide +kernel
  obtain ⟨c, hc, hhash⟩ := h letterExt letterPath emptyTree letterArgs (fun _ => false) overlapping 0 letterPath
    (fun _ => ⟨rfl, rfl⟩) (Stage.dest_some hdest)
  have hview : (after (step letterExt) letters overlapping).tree.view letterPath = some (.file [0x62]) := by
    decide +kernel
  have hbyte : c = [0x62] := by
    have hsame := hc.symm.trans hview
    simpa using hsame
  subst hbyte
  revert hhash
  decide +kernel

end SharedPart

end Nxfr

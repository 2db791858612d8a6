/-
A file system without links: a map from paths to files and directories, and
the calls a program makes on it. A path is the list of its components, the
root being the empty list. A call that fails answers `none` and changes
nothing; the directories that `create_dir_all` has made before it comes to a name
that is too long are left out. How long a name and a path may be is up to the file
system (`Limits`).
-/

namespace Disk

/-- A file with its bytes, or a directory. -/
inductive Node (β : Type) where
  | file (content : List β)
  | dir
  deriving DecidableEq

abbrev Path (ν : Type) := List ν

/-- What is at each path. -/
abbrev Fs (ν β : Type) := Path ν → Option (Node β)

/-- The paths at which a file system takes something new. -/
class Limits (ν : Type) where
  fits : List ν → Bool

variable {ν β : Type} [DecidableEq ν]

namespace Fs

def exists? (d : Fs ν β) (p : Path ν) : Bool := (d p).isSome

def isFile (d : Fs ν β) (p : Path ν) : Bool := match d p with
  | some (.file _) => true
  | _ => false

def isDir (d : Fs ν β) (p : Path ν) : Bool := match d p with
  | some .dir => true
  | _ => false

def set (d : Fs ν β) (p : Path ν) (n : Option (Node β)) : Fs ν β := fun p' => if p' = p then n else d p'

/-- The content of a file. -/
def read (d : Fs ν β) (p : Path ν) : Option (List β) := match d p with
  | some (.file c) => some c
  | _ => none

/-- Open for writing, truncating: the directory it is in must exist. -/
def create [Limits ν] (d : Fs ν β) (p : Path ν) : Option (Fs ν β) :=
  if d.isDir p.dropLast && (!d.isDir p && Limits.fits p) then some (d.set p (some (.file []))) else none

/-- Write at the end of a file. -/
def append (d : Fs ν β) (p : Path ν) (data : List β) : Option (Fs ν β) := match d p with
  | some (.file c) => some (d.set p (some (.file (c ++ data))))
  | _ => none

def removeFile (d : Fs ν β) (p : Path ν) : Option (Fs ν β) :=
  if d.isFile p then some (d.set p none) else none

/-- Move a file, replacing a file at the new path. -/
def rename [Limits ν] (d : Fs ν β) (src dst : Path ν) : Option (Fs ν β) := match d src with
  | some (.file c) =>
    if d.isDir dst.dropLast && (!d.isDir dst && Limits.fits dst) then
      some ((d.set src none).set dst (some (.file c)))
    else none
  | _ => none

/-- Directories at a path and above it, unless a file is there. -/
def addDirs (d : Fs ν β) (p : Path ν) : Option (Fs ν β) :=
  if (List.range (p.length + 1)).any (fun i => d.isFile (p.take i)) then none
  else some fun p' => if p'.isPrefixOf p && !d.exists? p' then some .dir else d p'

/-- Make a directory and what is missing above it. -/
def createDirAll [Limits ν] (d : Fs ν β) (p : Path ν) : Option (Fs ν β) :=
  if (List.range (p.length + 1)).all (fun i => d.exists? (p.take i) || Limits.fits (p.take i)) then d.addDirs p else none

/-- A file can be put at a path whose parent is a directory. -/
def Takes [Limits ν] (d : Fs ν β) (p : Path ν) : Prop := d p ≠ some .dir ∧ Limits.fits p = true

omit [DecidableEq ν] in
theorem isDir_eq_false {d : Fs ν β} {p : Path ν} : d.isDir p = false ↔ d p ≠ some .dir := by
  unfold isDir
  split
  · rename_i h
    simp [h]
  · rename_i h
    simpa using h

omit [DecidableEq ν] in
theorem takes_eq_true [Limits ν] {d : Fs ν β} {p : Path ν} :
    (!d.isDir p && Limits.fits p) = true ↔ d.Takes p := by
  rw [Bool.and_eq_true, Bool.not_eq_true', isDir_eq_false, Takes]

omit [DecidableEq ν] in
theorem takes_eq_false [Limits ν] {d : Fs ν β} {p : Path ν} :
    (!d.isDir p && Limits.fits p) = false ↔ ¬ d.Takes p := by
  rw [← takes_eq_true, Bool.not_eq_true]

instance [Limits ν] (d : Fs ν β) (p : Path ν) : Decidable (d.Takes p) :=
  decidable_of_iff ((!d.isDir p && Limits.fits p) = true) takes_eq_true

/-- A directory, and so is everything above it. -/
def Grounded (d : Fs ν β) (p : Path ν) : Prop := ∀ p', p' <+: p → d p' = some .dir

omit [DecidableEq ν] in
theorem Grounded.self {d : Fs ν β} {p : Path ν} (h : d.Grounded p) : d p = some .dir := h p List.prefix_rfl

theorem Grounded.addDirs {d : Fs ν β} {p : Path ν} (h : d.Grounded p) : d.addDirs p = some d := by
  unfold Fs.addDirs
  rw [if_neg]
  · congr 1
    funext p'
    by_cases hp : p' <+: p
    · simp [Fs.exists?, h p' hp]
    · simp [hp]
  · simp only [List.any_eq_true, not_exists, not_and]
    intro i _
    simp [Fs.isFile, h _ (List.take_prefix i p)]

theorem Grounded.createDirAll [Limits ν] {d : Fs ν β} {p : Path ν} (h : d.Grounded p) : d.createDirAll p = some d := by
  unfold Fs.createDirAll
  rw [if_pos, h.addDirs]
  simp only [List.all_eq_true, Bool.or_eq_true]
  intro i _
  exact .inl (by simp [Fs.exists?, h _ (List.take_prefix i p)])

/-- What is on the disk is in directories. -/
def Sound (d : Fs ν β) : Prop := ∀ p q, p <+: q → p ≠ q → d q ≠ none → d p = some .dir

omit [DecidableEq ν] in
theorem Sound.grounded {d : Fs ν β} (h : d.Sound) {p : Path ν} (hp : d p = some .dir) : d.Grounded p := by
  intro p' hp'
  by_cases he : p' = p
  · rw [he, hp]
  · exact h p' p hp' he (by simp [hp])

/-- A file where nothing but a file was, in a directory. -/
theorem Sound.set_file {d : Fs ν β} (h : d.Sound) {p : Path ν} {c : List β} (hparent : d p.dropLast = some .dir)
    (hp : d p ≠ some .dir) : (d.set p (some (.file c))).Sound := by
  intro q r hqr hne hr
  simp only [set] at hr ⊢
  by_cases hrp : r = p
  · subst hrp
    have hq : q <+: r.dropLast := by
      rcases List.eq_nil_or_concat r with rfl | ⟨init, a, rfl⟩
      · exact absurd (List.prefix_nil.mp hqr) hne
      · rw [List.concat_eq_append] at hqr hne ⊢
        rw [List.dropLast_concat]
        exact (List.prefix_concat_iff.mp hqr).resolve_left hne
    rw [if_neg hne]
    exact h.grounded hparent q hq
  · rw [if_neg hrp] at hr
    have hq := h q r hqr hne hr
    rw [if_neg]
    · exact hq
    · intro he
      exact hp (he ▸ hq)

theorem addDirs_eq {d d' : Fs ν β} {p : Path ν} (h : d.addDirs p = some d') :
    (∀ q, q <+: p → d.isFile q = false) ∧
      ∀ q, d' q = if q <+: p ∧ d q = none then some .dir else d q := by
  unfold addDirs at h
  split at h
  · cases h
  · rename_i hfile
    simp only [List.any_eq_true, not_exists, not_and, Bool.not_eq_true, List.mem_range] at hfile
    refine ⟨fun q hq => ?_, fun q => ?_⟩
    · have := hfile q.length (Nat.lt_succ_of_le hq.length_le)
      rwa [← List.prefix_iff_eq_take.mp hq] at this
    · rw [← Option.some.inj h]
      simp [exists?, List.isPrefixOf_iff_prefix]

theorem addDirs_none {d : Fs ν β} {p q : Path ν} (hq : q <+: p) (hfile : d.isFile q = true) : d.addDirs p = none := by
  unfold addDirs
  rw [if_pos]
  rw [List.any_eq_true]
  exact ⟨q.length, by simpa using Nat.lt_succ_of_le hq.length_le, by rwa [← List.prefix_iff_eq_take.mp hq]⟩

/-- What is above a path is directories or nothing. -/
theorem addDirs_isSome {d : Fs ν β} {p : Path ν} (h : ∀ q, q <+: p → d.isFile q = false) :
    ∃ d', d.addDirs p = some d' := by
  unfold addDirs
  rw [if_neg]
  · exact ⟨_, rfl⟩
  · simp only [List.any_eq_true, not_exists, not_and, Bool.not_eq_true]
    intro i _
    exact h _ (List.take_prefix i p)

theorem addDirs_dir {d d' : Fs ν β} {p : Path ν} (h : d.addDirs p = some d') : d'.Grounded p := by
  obtain ⟨hfile, hd'⟩ := addDirs_eq h
  intro q hq
  rw [hd']
  have := hfile q hq
  simp only [isFile] at this
  rcases hn : d q with _ | (_ | _)
  · simp [hq]
  · simp [hn] at this
  · simp

/-! ## What is made by `createDirAll` -/

section

variable [Limits ν] {d d' : Fs ν β} {p q : Path ν}

theorem createDirAll_add (h : d.createDirAll p = some d') : d.addDirs p = some d' := by
  unfold createDirAll at h
  split at h
  · exact h
  · cases h

/-- Every directory that it makes is one the file system takes. -/
theorem createDirAll_fits (h : d.createDirAll p = some d') (hq : q <+: p) (hnone : d q = none) :
    Limits.fits q = true := by
  unfold createDirAll at h
  split at h
  · rename_i hall
    rw [List.all_eq_true] at hall
    have hfits := hall q.length (List.mem_range.mpr (Nat.lt_succ_of_le hq.length_le))
    rw [← List.prefix_iff_eq_take.mp hq, exists?, hnone] at hfits
    simpa using hfits
  · cases h

theorem createDirAll_eq (h : d.createDirAll p = some d') :
    (∀ q, q <+: p → d.isFile q = false) ∧
      ∀ q, d' q = if q <+: p ∧ d q = none then some .dir else d q := addDirs_eq (createDirAll_add h)

theorem createDirAll_none (hq : q <+: p) (hfile : d.isFile q = true) : d.createDirAll p = none := by
  unfold createDirAll
  rw [addDirs_none hq hfile, ite_self]

/-- What is above a path is directories or nothing, and what is missing can be made. -/
theorem createDirAll_isSome (h : ∀ q, q <+: p → d.isFile q = false)
    (hfits : ∀ q, q <+: p → d q = none → Limits.fits q = true) : ∃ d', d.createDirAll p = some d' := by
  obtain ⟨d', hd'⟩ := addDirs_isSome h
  refine ⟨d', ?_⟩
  unfold createDirAll
  rw [if_pos, hd']
  simp only [List.all_eq_true, Bool.or_eq_true]
  intro i _
  cases hd : d (p.take i) with
  | none => exact .inr (hfits _ (List.take_prefix i p) hd)
  | some node => exact .inl (by rw [exists?, hd]; rfl)

theorem createDirAll_dir (h : d.createDirAll p = some d') : d'.Grounded p := addDirs_dir (createDirAll_add h)

end

/-- The same files with the same content. -/
def SameFiles (d d' : Fs ν β) : Prop := ∀ q c, d' q = some (.file c) ↔ d q = some (.file c)

omit [DecidableEq ν] in
theorem SameFiles.refl {d : Fs ν β} : d.SameFiles d := fun _ _ => Iff.rfl

omit [DecidableEq ν] in
theorem SameFiles.trans {d d' d'' : Fs ν β} (h : d.SameFiles d') (h' : d'.SameFiles d'') : d.SameFiles d'' :=
  fun q c => (h' q c).trans (h q c)

theorem createDirAll_sameFiles [Limits ν] {d d' : Fs ν β} {p : Path ν} (h : d.createDirAll p = some d') : d.SameFiles d' := by
  obtain ⟨-, hd'⟩ := createDirAll_eq h
  intro q c
  rw [hd']
  split
  · rename_i hnew
    simp [hnew.2]
  · exact Iff.rfl

theorem Sound.addDirs {d d' : Fs ν β} (h : d.Sound) {p : Path ν} (hd : d.addDirs p = some d') : d'.Sound := by
  intro q r hqr hne hr
  obtain ⟨_, hd'⟩ := addDirs_eq hd
  by_cases hrp : r <+: p
  · exact addDirs_dir hd q (hqr.trans hrp)
  · have hr' : d r ≠ none := by
      rw [hd', if_neg (by simp [hrp])] at hr
      exact hr
    have hq := h q r hqr hne hr'
    rw [hd', if_neg (by simp [hq]), hq]

theorem Sound.createDirAll [Limits ν] {d d' : Fs ν β} (h : d.Sound) {p : Path ν} (hd : d.createDirAll p = some d') :
    d'.Sound := h.addDirs (createDirAll_add hd)

end Fs

/-- A file with its content, or a directory, at a path below some root. -/
structure Entry (ν β : Type) where
  path : List ν
  content : Option (List β)
  deriving DecidableEq

end Disk

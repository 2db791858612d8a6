/-
A file system whose files are reached by name and by handle: a name leads to
an inode, an open handle keeps the inode, and the two can part. A file that is
renamed or removed while it is open is still written through its handle; two
handles of one file each have their own position.

A call that fails answers `none` and changes nothing. Links that would give an
inode a second name are never made, but may be there to begin with.
-/
import Nxfr.Disk

namespace Inodes

open Disk (Path)

/-- What a name leads to. -/
inductive Entry where
  | file (inode : Nat)
  | dir
  deriving DecidableEq

/-- The names, the bytes of each inode, and the inodes not yet given out. -/
structure Tree (ν β : Type) where
  entries : Path ν → Option Entry
  content : Nat → List β
  next : Nat
  bounded : ∀ {p n}, entries p = some (.file n) → n < next

/-- An open file; without a position it is written at its end. -/
structure Handle where
  inode : Nat
  position : Option Nat
  deriving DecidableEq

/-- Bytes written over what is there, from a position on; a hole before them
reads as zeros. -/
def overwrite {β : Type} [Zero β] (c : List β) (position : Nat) (data : List β) : List β :=
  c.take position ++ List.replicate (position - c.length) 0 ++ data ++ c.drop (position + data.length)

namespace Tree

variable {ν β : Type} [DecidableEq ν]

/-- The files and directories, as names show them. -/
def view (t : Tree ν β) : Disk.Fs ν β := fun p => match t.entries p with
  | some (.file n) => some (.file (t.content n))
  | some .dir => some .dir
  | none => none

def isDir (t : Tree ν β) (p : Path ν) : Bool := match t.entries p with
  | some .dir => true
  | _ => false

/-- A name leads to an inode that has been given out, or to nothing. -/
def setEntry (t : Tree ν β) (p : Path ν) (e : Option Entry) (he : ∀ n, e = some (.file n) → n < t.next) : Tree ν β where
  entries q := if q = p then e else t.entries q
  content := t.content
  next := t.next
  bounded {q n} h := by
    split at h
    · exact he n h
    · exact t.bounded h

def setContent (t : Tree ν β) (n : Nat) (c : List β) : Tree ν β :=
  { t with content := fun m => if m = n then c else t.content m }

/-- A new empty file under a name. -/
def addFile (t : Tree ν β) (p : Path ν) : Tree ν β where
  entries q := if q = p then some (.file t.next) else t.entries q
  content m := if m = t.next then [] else t.content m
  next := t.next + 1
  bounded {q n} h := by
    split at h
    · cases h
      exact Nat.lt_succ_self _
    · exact Nat.lt_succ_of_lt (t.bounded h)

/-- Open for writing, from the start: a file that is there is emptied. -/
def create (t : Tree ν β) (p : Path ν) : Option (Handle × Tree ν β) :=
  if t.isDir p.dropLast then match t.entries p with
    | some (.file n) => some ({ inode := n, position := some 0 }, t.setContent n [])
    | some .dir => none
    | none => some ({ inode := t.next, position := some 0 }, t.addFile p)
  else none

/-- Open for writing at the end. -/
def openAppend (t : Tree ν β) (p : Path ν) : Option Handle := match t.entries p with
  | some (.file n) => some { inode := n, position := none }
  | _ => none

def write [Zero β] (t : Tree ν β) (h : Handle) (data : List β) : Handle × Tree ν β :=
  let c := t.content h.inode
  ({ h with position := h.position.map (· + data.length) },
    t.setContent h.inode (overwrite c (h.position.getD c.length) data))

def remove (t : Tree ν β) (p : Path ν) : Option (Tree ν β) := match t.entries p with
  | some (.file _) => some (t.setEntry p none nofun)
  | _ => none

/-- Move a name, replacing a file at the new one. -/
def rename (t : Tree ν β) (src dst : Path ν) : Option (Tree ν β) := match h : t.entries src with
  | some (.file n) =>
    if t.isDir dst.dropLast && !t.isDir dst then
      some ((t.setEntry src none nofun).setEntry dst (some (.file n)) (by rintro m ⟨⟩; exact t.bounded h))
    else none
  | _ => none

def isFile (t : Tree ν β) (p : Path ν) : Bool := match t.entries p with
  | some (.file _) => true
  | _ => false

/-- Make a directory and what is missing above it. -/
def createDirAll (t : Tree ν β) (p : Path ν) : Option (Tree ν β) :=
  if (List.range (p.length + 1)).any fun i => t.isFile (p.take i) then none
  else some
    { t with
      entries := fun q => if q.isPrefixOf p && (t.entries q).isNone then some .dir else t.entries q
      bounded := by
        intro q n h
        split at h
        · cases h
        · exact t.bounded h }

/-! ## What the calls do -/

variable {t t' : Tree ν β} {p q : Path ν} {h : Handle}

omit [DecidableEq ν] in
theorem view_file {c : List β} : t.view p = some (.file c) ↔ ∃ n, t.entries p = some (.file n) ∧ t.content n = c := by
  unfold view
  split
  · rename_i n hn
    simp [hn]
  · rename_i hn
    simp [hn]
  · rename_i hn
    simp [hn]

omit [DecidableEq ν] in
theorem view_none : t.view p = none ↔ t.entries p = none := by
  unfold view
  split
  · rename_i n hn
    simp [hn]
  · rename_i hn
    simp [hn]
  · rename_i hn
    simp [hn]

/-- The file that was opened is empty and under its name; its inode is that of
the name before, or new. -/
theorem create_some (hc : t.create p = some (h, t')) :
    h.position = some 0 ∧ t'.entries p = some (.file h.inode) ∧ t'.content h.inode = [] ∧
      (∀ q, q ≠ p → t'.entries q = t.entries q) ∧ (∀ n, n ≠ h.inode → t'.content n = t.content n) ∧
      (t.entries p = some (.file h.inode) ∨ h.inode = t.next) := by
  unfold create at hc
  split at hc
  · split at hc
    · rename_i n hn
      cases hc
      exact ⟨rfl, hn, if_pos rfl, fun _ _ => rfl, fun _ hm => if_neg hm, .inl hn⟩
    · cases hc
    · cases hc
      exact ⟨rfl, if_pos rfl, if_pos rfl, fun _ hq => if_neg hq, fun _ hm => if_neg hm, .inr rfl⟩
  · cases hc

omit [DecidableEq ν] in
theorem openAppend_some (ho : t.openAppend p = some h) : t.entries p = some (.file h.inode) ∧ h.position = none := by
  unfold openAppend at ho
  split at ho
  · rename_i n hn
    cases ho
    exact ⟨hn, rfl⟩
  · cases ho

omit [DecidableEq ν] in
/-- A handle at the end of its file writes there and stays at the end. -/
theorem write_end [Zero β] {data : List β} (hp : h.position = none ∨ h.position = some (t.content h.inode).length) :
    (t.write h data).2.content h.inode = t.content h.inode ++ data ∧
      ((t.write h data).1.position = none ∨
        (t.write h data).1.position = some (t.content h.inode ++ data).length) := by
  rcases hp with hp | hp
  · simp [write, setContent, overwrite, hp]
  · simp [write, setContent, overwrite, hp]

theorem rename_some (hr : t.rename p q = some t') :
    ∃ n, t.entries p = some (.file n) ∧ t'.entries q = some (.file n) ∧ t'.content = t.content ∧
      (p ≠ q → t'.entries p = none) ∧ ∀ r, r ≠ p → r ≠ q → t'.entries r = t.entries r := by
  unfold rename at hr
  split at hr
  · rename_i n hn
    split at hr
    · cases hr
      refine ⟨n, hn, by simp [setEntry], rfl, ?_, ?_⟩
      · intro hpq
        simp [setEntry, hpq]
      · intro r hrp hrq
        simp [setEntry, hrp, hrq]
    · cases hr
  · cases hr

/-- A directory is not replaced. -/
theorem rename_dir (hq : t.entries q = some .dir) : t.rename p q = none := by
  unfold rename
  split
  · simp [isDir, hq]
  · rfl

theorem remove_some (hr : t.remove p = some t') :
    t'.entries p = none ∧ t'.content = t.content ∧ ∀ r, r ≠ p → t'.entries r = t.entries r := by
  unfold remove at hr
  split at hr
  · cases hr
    refine ⟨by simp [setEntry], rfl, ?_⟩
    intro r hrp
    simp [setEntry, hrp]
  · cases hr

theorem createDirAll_some (hc : t.createDirAll p = some t') :
    t'.content = t.content ∧ (∀ q n, t'.entries q = some (.file n) ↔ t.entries q = some (.file n)) ∧
      ∀ q, ¬ q <+: p → t'.entries q = t.entries q := by
  unfold createDirAll at hc
  split at hc
  · cases hc
  · cases hc
    refine ⟨rfl, ?_, ?_⟩
    · intro q n
      simp only
      split
      · rename_i hnew
        have hnone : t.entries q = none := by simpa using (Bool.and_eq_true_iff.mp hnew).2
        simp [hnone]
      · rfl
    · intro q hq
      have hnot : q.isPrefixOf p = false := by
        rw [← Bool.not_eq_true, List.isPrefixOf_iff_prefix]
        exact hq
      simp [hnot]

/-! ## Other files -/

/-- What is done with the file under one name leaves every other file as it
is, and under that name there is still none of them. -/
def Spares (p : Path ν) (t t' : Tree ν β) : Prop :=
  ∀ q n, t.entries q = some (.file n) → t.entries p ≠ some (.file n) →
    t'.entries q = some (.file n) ∧ t'.content n = t.content n ∧ t'.entries p ≠ some (.file n)

omit [DecidableEq ν] in
theorem Spares.refl : Spares p t t := fun _ _ hq hp => ⟨hq, rfl, hp⟩

theorem create_spares (hc : t.create p = some (h, t')) : Spares p t t' := by
  obtain ⟨_, hp', _, hother, hcontent, hinode⟩ := create_some hc
  intro q n hq hp
  have hqp : q ≠ p := by
    intro hqp
    exact hp (hqp ▸ hq)
  have hn : n ≠ h.inode := by
    intro hn
    rcases hinode with hold | hnew
    · exact hp (hn ▸ hold)
    · have hlt := t.bounded hq
      omega
  refine ⟨(hother q hqp).trans hq, hcontent n hn, ?_⟩
  rw [hp']
  simpa using Ne.symm hn

omit [DecidableEq ν] in
theorem write_spares [Zero β] {data : List β} (hp : t.entries p = some (.file h.inode)) : Spares p t (t.write h data).2 := by
  intro q n hq hne
  have hn : n ≠ h.inode := by
    intro hn
    exact hne (hn ▸ hp)
  exact ⟨hq, if_neg hn, hne⟩

theorem rename_spares (hr : t.rename p q = some t') (hfree : t.entries q = none) : Spares p t t' := by
  obtain ⟨m, hm, _, hcontent, hgone, hother⟩ := rename_some hr
  intro r n hn hne
  have hpq : p ≠ q := by
    intro hpq
    simp [← hpq, hm] at hfree
  have hrp : r ≠ p := by
    intro hrp
    exact hne (hrp ▸ hn)
  have hrq : r ≠ q := by
    intro hrq
    simp [← hrq, hn] at hfree
  refine ⟨(hother r hrp hrq).trans hn, by rw [hcontent], ?_⟩
  simp [hgone hpq]

theorem createDirAll_spares (hc : t.createDirAll q = some t') : Spares p t t' := by
  obtain ⟨hcontent, hfiles, -⟩ := createDirAll_some hc
  intro r n hn hne
  exact ⟨(hfiles r n).mpr hn, by rw [hcontent], fun hp => hne ((hfiles p n).mp hp)⟩

omit [DecidableEq ν] in
theorem Spares.trans {t'' : Tree ν β} (h : Spares p t t') (h' : Spares p t' t'') : Spares p t t'' := by
  intro q n hq hp
  obtain ⟨hq', hcontent, hp'⟩ := h q n hq hp
  obtain ⟨hq'', hcontent', hp''⟩ := h' q n hq' hp'
  exact ⟨hq'', hcontent'.trans hcontent, hp''⟩

theorem remove_spares (hr : t.remove p = some t') : Spares p t t' := by
  obtain ⟨hgone, hcontent, hother⟩ := remove_some hr
  intro r n hn hne
  have hrp : r ≠ p := by
    intro hrp
    exact hne (hrp ▸ hn)
  refine ⟨(hother r hrp).trans hn, by rw [hcontent], ?_⟩
  simp [hgone]

/-! ## The same files, and one more -/

/-- The same files with the same bytes; the directories may differ. -/
structure Same (t t' : Tree ν β) : Prop where
  files : ∀ q n, t'.entries q = some (.file n) ↔ t.entries q = some (.file n)
  contents : ∀ n, n < t.next → t'.content n = t.content n

/-- The same files and one more, under a name that was no file's. -/
structure Adds (p : Path ν) (c : List β) (t t' : Tree ν β) : Prop where
  free : ∀ n, t.entries p ≠ some (.file n)
  own : ∃ n, t.next ≤ n ∧ t'.entries p = some (.file n) ∧ t'.content n = c
  others : ∀ q n, q ≠ p → (t'.entries q = some (.file n) ↔ t.entries q = some (.file n))
  contents : ∀ n, n < t.next → t'.content n = t.content n

variable {t'' : Tree ν β} {c data : List β}

omit [DecidableEq ν] in
theorem view_read : t.view.read p = some c ↔ ∃ n, t.entries p = some (.file n) ∧ t.content n = c := by
  rw [← view_file, Disk.Fs.read]
  split
  · rename_i d hd
    simp [hd]
  · rename_i hd
    simpa using hd c

omit [DecidableEq ν] in
theorem Same.refl : Same t t := ⟨fun _ _ => Iff.rfl, fun _ _ => rfl⟩

theorem createDirAll_same (hc : t.createDirAll p = some t') : Same t t' := by
  obtain ⟨hcontent, hfiles, -⟩ := createDirAll_some hc
  exact ⟨hfiles, fun n _ => by rw [hcontent]⟩

theorem createDirAll_next (hc : t.createDirAll p = some t') : t'.next = t.next := by
  unfold createDirAll at hc
  split at hc
  · cases hc
  · cases hc
    rfl

omit [DecidableEq ν] in
theorem Same.read (h : Same t t') (q : Path ν) : t'.view.read q = t.view.read q := by
  refine Option.ext fun c => ?_
  rw [view_read, view_read]
  constructor
  · intro hq
    obtain ⟨n, hn, hc⟩ := hq
    have hold := (h.files q n).mp hn
    exact ⟨n, hold, (h.contents n (t.bounded hold)).symm.trans hc⟩
  · intro hq
    obtain ⟨n, hn, hc⟩ := hq
    exact ⟨n, (h.files q n).mpr hn, (h.contents n (t.bounded hn)).trans hc⟩

omit [DecidableEq ν] in
theorem Adds.read (h : Adds p c t t') : t.view.read p = none ∧ t'.view.read p = some c ∧
    ∀ q, q ≠ p → t'.view.read q = t.view.read q := by
  refine ⟨?_, ?_, ?_⟩
  · rw [Option.eq_none_iff_forall_ne_some]
    intro d hd
    obtain ⟨n, hn, -⟩ := view_read.mp hd
    exact h.free n hn
  · obtain ⟨n, -, hn, hc⟩ := h.own
    exact view_read.mpr ⟨n, hn, hc⟩
  · intro q hq
    refine Option.ext fun d => ?_
    rw [view_read, view_read]
    constructor
    · intro hd
      obtain ⟨n, hn, hc⟩ := hd
      have hold := (h.others q n hq).mp hn
      exact ⟨n, hold, (h.contents n (t.bounded hold)).symm.trans hc⟩
    · intro hd
      obtain ⟨n, hn, hc⟩ := hd
      exact ⟨n, (h.others q n hq).mpr hn, (h.contents n (t.bounded hn)).trans hc⟩

theorem Same.create (hs : Same t t') (hnext : t.next ≤ t'.next) (hfree : ∀ n, t.entries p ≠ some (.file n))
    (hc : t'.create p = some (h, t'')) : Adds p [] t t'' := by
  obtain ⟨-, hentry, hempty, hother, hcontent, hinode⟩ := create_some hc
  have hnew : h.inode = t'.next := by
    rcases hinode with hold | hnew
    · exact absurd ((hs.files p _).mp hold) (hfree _)
    · exact hnew
  refine ⟨hfree, ⟨h.inode, by omega, hentry, hempty⟩, ?_, ?_⟩
  · intro q n hq
    rw [hother q hq]
    exact hs.files q n
  · intro n hn
    exact (hcontent n (by omega)).trans (hs.contents n hn)

omit [DecidableEq ν] in
/-- Written at its end. -/
theorem Adds.write [Zero β] (ha : Adds p c t t') (hentry : t'.entries p = some (.file h.inode))
    (hposition : h.position = some c.length) : Adds p (c ++ data) t (t'.write h data).2 := by
  obtain ⟨n, hn, hp, hc⟩ := ha.own
  have hinode : n = h.inode := by
    rw [hp] at hentry
    cases hentry
    rfl
  subst hinode
  have hend : (t'.write h data).2.content h.inode = t'.content h.inode ++ data :=
    (write_end (.inr (hc.symm ▸ hposition))).1
  refine ⟨ha.free, ⟨h.inode, hn, hp, by rw [hend, hc]⟩, ha.others, ?_⟩
  intro m hm
  exact (if_neg (by omega)).trans (ha.contents m hm)

theorem Adds.createDirAll (ha : Adds p c t t') (hc : t'.createDirAll q = some t'') : Adds p c t t'' := by
  obtain ⟨hcontent, hfiles, -⟩ := createDirAll_some hc
  obtain ⟨n, hn, hp, hown⟩ := ha.own
  refine ⟨ha.free, ⟨n, hn, (hfiles p n).mpr hp, by rw [hcontent]; exact hown⟩, ?_, ?_⟩
  · intro r m hr
    exact (hfiles r m).trans (ha.others r m hr)
  · intro m hm
    rw [hcontent]
    exact ha.contents m hm

/-- Moved to a name that is free. -/
theorem Adds.rename (ha : Adds p c t t') (hfree : t'.entries q = none) (hr : t'.rename p q = some t'') :
    Adds q c t t'' := by
  obtain ⟨n, hn, hp, hown⟩ := ha.own
  have hpq : p ≠ q := by
    intro hpq
    rw [← hpq, hp] at hfree
    cases hfree
  obtain ⟨m, hm, hq, hcontent, hgone, hother⟩ := rename_some hr
  have hmn : m = n := by
    rw [hp] at hm
    cases hm
    rfl
  subst hmn
  refine ⟨?_, ⟨m, hn, hq, by rw [hcontent]; exact hown⟩, ?_, ?_⟩
  · intro k hk
    have hold := (ha.others q k (Ne.symm hpq)).mpr hk
    rw [hfree] at hold
    cases hold
  · intro r k hr
    by_cases hrp : r = p
    · subst hrp
      rw [hgone hpq]
      constructor
      · intro hk
        cases hk
      · intro hk
        exact absurd hk (ha.free k)
    · rw [hother r hrp hr]
      exact ha.others r k hrp
  · intro k hk
    rw [hcontent]
    exact ha.contents k hk

theorem Adds.remove (ha : Adds p c t t') (hr : t'.remove p = some t'') : Same t t'' := by
  obtain ⟨hgone, hcontent, hother⟩ := remove_some hr
  refine ⟨?_, ?_⟩
  · intro q n
    by_cases hq : q = p
    · subst hq
      rw [hgone]
      constructor
      · intro hn
        cases hn
      · intro hn
        exact absurd hn (ha.free n)
    · rw [hother q hq]
      exact ha.others q n hq
  · intro n hn
    rw [hcontent]
    exact ha.contents n hn

theorem Adds.remove_isSome (ha : Adds p c t t') : ∃ t'', t'.remove p = some t'' := by
  obtain ⟨n, -, hp, -⟩ := ha.own
  exact ⟨_, by simp only [Tree.remove, hp]; rfl⟩

end Tree

end Inodes

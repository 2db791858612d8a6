/-
A received file or folder made public (`FilePublisher.publishToDownloads`, with
`collisionRename` on).

A file is written through the `MediaStore`, under a name nothing in the public
folder has. When a step of this fails the row is taken back and the file goes to its
own name with `copyTo`; a folder goes to its own name with `copyRecursively` from the
start. Both copies overwrite what is there, and how many rows the update made visible
is only logged. So nothing is lost just when a copy finds nothing in its way that it
changes, and when the update found the row (`publish_lossless_iff`).
-/
import Mathlib.Data.List.Nodup
import Mathlib.Data.List.Perm.Subperm
import Nxfr.TreeCopy
import Nxfr.CodeUnits

namespace Nxfr.FilePublisher

open Disk CodeUnits

/-- `Download/NXFR`, as the root of what it holds, with the names in it. -/
structure Downloads where
  fs : Disk.Fs Text UInt8
  names : List Text
  sound : fs.Sound
  folder : fs.isFile [] = false
  listed : ∀ n, fs [n] ≠ none → n ∈ names

/-- What is in the inbox: a file, or a folder with what `walkTopDown` finds in it. -/
structure InboxItem where
  name : Text
  content : Option (List UInt8)
  rest : List (Entry Text UInt8)
  walk : (⟨[], content⟩ :: rest).Pairwise fun a b => ¬ b.path <+: a.path
  closed : Closed [] (⟨[], content⟩ :: rest)

def InboxItem.root (item : InboxItem) : Entry Text UInt8 := ⟨[], item.content⟩

def InboxItem.entries (item : InboxItem) : List (Entry Text UInt8) := item.root :: item.rest

/-- A publication, with what each step answers: `insert`, the copy of the stream, the
rows `update` changed if it does not throw, the `delete` of what is at the name, the
copy of each entry, and what the last `delete` leaves of the inbox. -/
structure Run where
  downloads : Downloads
  item : InboxItem
  inserted : Bool
  streamed : Bool
  updated : Option Nat
  deletes : Bool
  copy : Entry Text UInt8 → Option CopyFault
  stays : Entry Text UInt8 → Bool
  -- `delete` takes no folder that holds something.
  empty : deletes = true → ∀ p, p ≠ [] → downloads.fs (item.name :: p) = none

inductive Location
  | inbox
  | download (name : Text)
  deriving DecidableEq

/-- The public folder, what is left in the inbox and the location returned. -/
structure Outcome where
  downloads : Disk.Fs Text UInt8
  inbox : List (Entry Text UInt8)
  location : Location

/-! ## The code -/

/-- `lastIndexOf` -/
def lastIndexOf (d : UInt16) : Text → Option Nat
  | [] => none
  | c :: s => match lastIndexOf d s with
    | some i => some (i + 1)
    | none => if c = d then some 0 else none

/-- `base` and `ext` -/
def splitName (name : Text) : Text × Text := match lastIndexOf 46 name with
  | some dotIdx => if dotIdx > 0 then (name.take dotIdx, name.drop dotIdx) else (name, [])
  | none => (name, [])

/-- `"$base ($counter)$ext"` -/
def numbered (base ext : Text) (counter : Nat) : Text := base ++ text " (" ++ decimal counter ++ text ")" ++ ext

/-- The loop over the names, as long as they are taken. -/
def firstFree (taken : Text → Bool) (base ext : Text) : Nat → Nat → Text → Text
  | 0, _, displayName => displayName
  | fuel + 1, counter, displayName =>
    if taken displayName then firstFree taken base ext fuel (counter + 1) (numbered base ext counter)
    else displayName

namespace Run

variable (run : Run)

def displayName : Text :=
  if run.downloads.fs.exists? [] then
    firstFree (fun n => run.downloads.fs.exists? [n]) (splitName run.item.name).1 (splitName run.item.name).2
      (run.downloads.names.length + 1) 1 run.item.name
  else run.item.name

/-- The way through the `MediaStore`. A row no update has touched stays pending, and
nothing is seen in the folder. -/
def mediaStore (c : List UInt8) : Option (Disk.Fs Text UInt8) :=
  if run.inserted && run.streamed then match run.updated with
    | none => none
    | some rows =>
      some (if rows = 0 then run.downloads.fs else run.downloads.fs.put [run.displayName] (some (.file c)) false)
  else none

/-- What the last `delete` leaves. -/
def remaining : List (Entry Text UInt8) := run.item.entries.filter run.stays

def publishToDownloads : Outcome := match run.item.content with
  | none => match run.downloads.fs.copyRecursively [run.item.name] run.copy run.item.entries with
    | (fs, true) => ⟨fs, run.remaining, .download run.item.name⟩
    | (fs, false) => ⟨fs, run.item.entries, .inbox⟩
  | some c => match run.mediaStore c with
    | some fs => ⟨fs, run.remaining, .download run.displayName⟩
    | none => match run.downloads.fs.copyTo [run.item.name] c run.deletes (run.copy run.item.root) with
      | (fs, true) => ⟨fs, run.remaining, .download run.item.name⟩
      | (fs, false) => ⟨fs, run.item.entries, .inbox⟩

/-! ## What is to be kept -/

/-- All of the inbox item is at a name of the public folder. -/
def Whole (fs : Disk.Fs Text UInt8) (n : Text) : Prop := ∀ e ∈ run.item.entries, fs (n :: e.path) = some e.node

/-- The item is complete at its location, it has left the inbox only for a complete
public copy, and what was at a name of the folder is as it was. -/
structure Lossless (o : Outcome) : Prop where
  readable : match o.location with
    | .inbox => o.inbox = run.item.entries
    | .download n => run.Whole o.downloads n
  kept : o.inbox = run.item.entries ∨ ∃ n, run.Whole o.downloads n
  untouched : ∀ n p, run.downloads.fs [n] ≠ none → o.downloads (n :: p) = run.downloads.fs (n :: p)

/-- A copy of some entries to the name of the item finds nothing there, or there is
already what it leaves of each entry it gets to. -/
def Harmless (es : List (Entry Text UInt8)) : Prop :=
  run.downloads.fs [run.item.name] = none ∨
    ∀ x ∈ attempted run.copy es, run.downloads.fs (run.item.name :: x.1) = x.2

/-- A folder is copied without harm. A file goes through the `MediaStore` and its row
is found, or else it is copied without harm or what is in its way cannot be deleted. -/
def Spares : Prop := match run.item.content with
  | none => run.Harmless run.item.entries
  | some _ =>
    if run.inserted && run.streamed && run.updated.isSome then run.updated ≠ some 0
    else (run.downloads.fs [run.item.name] ≠ none ∧ run.deletes = false) ∨ run.Harmless [run.item.root]

end Run

/-! ## A free name -/

section

variable {taken : Text → Bool} {base ext name : Text} {run : Run} {n : Text} {p : Disk.Path Text}

/-- The names the loop goes through. -/
def tried (base ext : Text) : Nat → Text
  | 0 => base ++ ext
  | counter + 1 => numbered base ext (counter + 1)

theorem splitName_append : (splitName name).1 ++ (splitName name).2 = name := by
  unfold splitName
  split
  · split
    · exact List.take_append_drop _ name
    · exact List.append_nil name
  · exact List.append_nil name

theorem tried_injective : Function.Injective (tried base ext) := by
  intro i j h
  rcases i with - | i <;> rcases j with - | j
  · rfl
  · have hlen := congrArg List.length h
    simp only [tried, numbered, List.length_append, text, List.length_map] at hlen
    have : (" (" : String).toList.length = 2 := rfl
    omega
  · have hlen := congrArg List.length h
    simp only [tried, numbered, List.length_append, text, List.length_map] at hlen
    have : (" (" : String).toList.length = 2 := rfl
    omega
  · simp only [tried, numbered, List.append_cancel_right_eq, List.append_cancel_left_eq] at h
    exact decimal_injective h

/-- One free name among those the loop has fuel for is enough. -/
theorem firstFree_free {fuel k i : Nat} (hk : k ≤ i) (hi : i < k + fuel) (hfree : taken (tried base ext i) = false) :
    taken (firstFree taken base ext fuel (k + 1) (tried base ext k)) = false := by
  induction fuel generalizing k with
  | zero => omega
  | succ fuel ih =>
    unfold firstFree
    split
    · rename_i htaken
      have hne : k ≠ i := by
        rintro rfl
        rw [htaken] at hfree
        cases hfree
      exact ih (k := k + 1) (by omega) (by omega)
    · rename_i hfree
      simpa using hfree

/-- More names than there are entries are not all taken. -/
theorem exists_free (base ext : Text) {names : List Text} (h : ∀ n, taken n = true → n ∈ names) :
    ∃ i < names.length + 1, taken (tried base ext i) = false := by
  by_contra hno
  have hall : ∀ i < names.length + 1, taken (tried base ext i) = true := by
    intro i hi
    by_contra hfree
    exact hno ⟨i, hi, by simpa using hfree⟩
  have hnodup : ((List.range (names.length + 1)).map (tried base ext)).Nodup :=
    List.nodup_range.map tried_injective
  have hsub : (List.range (names.length + 1)).map (tried base ext) ⊆ names := by
    intro n hn
    obtain ⟨i, hi, rfl⟩ := List.mem_map.mp hn
    exact h _ (hall i (List.mem_range.mp hi))
  have hlen := (hnodup.subperm hsub).length_le
  simp only [List.length_map, List.length_range] at hlen
  omega

/-- The loop ends at a free name. -/
theorem firstFree_of_listed (base ext : Text) {names : List Text} (h : ∀ n, taken n = true → n ∈ names) :
    taken (firstFree taken base ext (names.length + 1) 1 (base ++ ext)) = false := by
  obtain ⟨i, hi, hfree⟩ := exists_free base ext h
  exact firstFree_free (Nat.zero_le i) (by omega) hfree

/-- Nothing in the folder has the name a file gets. -/
theorem displayName_free : run.downloads.fs [run.displayName] = none := by
  unfold Run.displayName
  split
  · have h := firstFree_of_listed (splitName run.item.name).1 (splitName run.item.name).2
      fun n (hn : run.downloads.fs.exists? [n] = true) =>
        run.downloads.listed n (Option.isSome_iff_ne_none.mp hn)
    rw [splitName_append] at h
    simpa [Disk.Fs.exists?] using h
  · rename_i hroot
    by_contra hsome
    have := run.downloads.sound [] [run.item.name] List.nil_prefix (by simp) hsome
    simp [Disk.Fs.exists?, this] at hroot

/-! ## The copies -/

theorem open_name : run.downloads.fs.Open [n] := by
  intro q hq hne
  rcases q with - | ⟨m, q⟩
  · exact run.downloads.folder
  · obtain ⟨rfl, htail⟩ := List.cons_prefix_cons.mp hq
    exact absurd (by rw [List.prefix_nil.mp htail]) hne

/-- A copy to the name of the item leaves the rest of the folder as it was. -/
theorem copied_other {done : List (Disk.Path Text × Option (Node UInt8))} {fs : Disk.Fs Text UInt8}
    (h : Copied run.downloads.fs [run.item.name] done fs) (hn : n ≠ run.item.name) :
    fs (n :: p) = run.downloads.fs (n :: p) := by
  have haside : ¬ [run.item.name] <+: n :: p := by
    intro hp
    exact hn (List.cons_prefix_cons.mp hp).1.symm
  refine (h.others _ haside).resolve_right fun ⟨hp, _⟩ => ?_
  exact hn (List.cons_prefix_cons.mp hp).1

theorem untouched_iff {done : List (Disk.Path Text × Option (Node UInt8))} {fs : Disk.Fs Text UInt8}
    (h : Copied run.downloads.fs [run.item.name] done fs) :
    (∀ n p, run.downloads.fs [n] ≠ none → fs (n :: p) = run.downloads.fs (n :: p)) ↔
      run.downloads.fs [run.item.name] = none ∨ ∀ x ∈ done, run.downloads.fs (run.item.name :: x.1) = x.2 := by
  constructor
  · intro huntouched
    by_cases hnone : run.downloads.fs [run.item.name] = none
    · exact .inl hnone
    · exact .inr fun x hx => (huntouched _ _ hnone).symm.trans (h.placed x hx)
  · intro hspared n p hsome
    by_cases hn : n = run.item.name
    · rw [hn] at hsome ⊢
      exact h.same (hspared.resolve_left hsome) p
    · exact copied_other h hn

/-- In the inbox an item is complete. -/
theorem lossless_inbox {fs : Disk.Fs Text UInt8} :
    run.Lossless ⟨fs, run.item.entries, .inbox⟩ ↔
      ∀ n p, run.downloads.fs [n] ≠ none → fs (n :: p) = run.downloads.fs (n :: p) :=
  ⟨fun h => h.untouched, fun h => ⟨rfl, .inl rfl, h⟩⟩

theorem lossless_download {fs : Disk.Fs Text UInt8} {left : List (Entry Text UInt8)} (h : run.Whole fs n) :
    run.Lossless ⟨fs, left, .download n⟩ ↔
      ∀ n p, run.downloads.fs [n] ≠ none → fs (n :: p) = run.downloads.fs (n :: p) :=
  ⟨fun h => h.untouched, fun hu => ⟨h, .inr ⟨n, h⟩, hu⟩⟩

/-- A folder is kept just when it is copied without harm. -/
theorem folder_lossless_iff (hcontent : run.item.content = none) :
    run.Lossless run.publishToDownloads ↔ run.Harmless run.item.entries := by
  have hwalk : run.item.entries.Pairwise fun a b => ¬ b.path <+: a.path := run.item.walk
  have hclosed : Closed [] run.item.entries := run.item.closed
  obtain ⟨hcopied, hall⟩ := Copied.copyRecursively run.copy
    (Copied.start run.downloads.sound (open_name (n := run.item.name))) (by simp) (by simp) (by simp) hwalk hclosed
  have huntouched := untouched_iff hcopied
  rw [List.nil_append] at huntouched
  simp only [Run.publishToDownloads, hcontent]
  rcases hcopy : run.downloads.fs.copyRecursively [run.item.name] run.copy run.item.entries with ⟨fs, - | -⟩
  · rw [hcopy] at huntouched
    exact lossless_inbox.trans huntouched
  · rw [hcopy] at huntouched hcopied hall
    refine (lossless_download fun e he => ?_).trans huntouched
    refine hcopied.placed (e.path, some e.node) ?_
    rw [List.nil_append, hall rfl]
    exact List.mem_map_of_mem he

/-- Nothing but a file is in a file. -/
theorem entries_file {c : List UInt8} (hcontent : run.item.content = some c) : run.item.entries = [run.item.root] := by
  have hclosed := run.item.closed
  have hwalk := (List.pairwise_cons.mp run.item.walk).1
  unfold InboxItem.entries
  cases hrest : run.item.rest with
  | nil => rfl
  | cons e es =>
    rw [hrest] at hclosed hwalk
    rcases hclosed.2.1 with hnil | hdir
    · exact absurd (hnil ▸ List.prefix_rfl) (hwalk e (by simp))
    · simp [Entry.node, hcontent] at hdir

theorem whole_file {c : List UInt8} {fs : Disk.Fs Text UInt8} (hcontent : run.item.content = some c) :
    run.Whole fs n ↔ fs [n] = some (.file c) := by
  simp [Run.Whole, entries_file hcontent, InboxItem.root, Entry.node, hcontent]

/-- A file that is copied is kept just when nothing in its way can be deleted or the
copy does no harm. -/
theorem copyTo_lossless_iff {c : List UInt8} (hcontent : run.item.content = some c) (hfails : run.mediaStore c = none) :
    run.Lossless run.publishToDownloads ↔
      (run.downloads.fs [run.item.name] ≠ none ∧ run.deletes = false) ∨ run.Harmless [run.item.root] := by
  have hroot : run.item.root = ⟨[], some c⟩ := by rw [InboxItem.root, hcontent]
  simp only [Run.publishToDownloads, hcontent, hfails, hroot, Disk.Fs.copyTo, Disk.Fs.exists?, Option.isSome_iff_ne_none]
  by_cases hkept : run.downloads.fs [run.item.name] ≠ none ∧ run.deletes = false
  · rw [if_pos hkept]
    exact iff_of_true (lossless_inbox.mpr fun _ _ _ => rfl) (.inl hkept)
  · rw [if_neg hkept, or_iff_right hkept]
    by_cases hrefused : run.copy ⟨[], some c⟩ = some .refused
    · have hsame : run.downloads.fs.copyEntry [run.item.name] ⟨[], some c⟩ (run.copy ⟨[], some c⟩) =
          (run.downloads.fs, false) := if_pos hrefused
      rw [hsame]
      refine iff_of_true (lossless_inbox.mpr fun _ _ _ => rfl) (.inr ?_)
      simp [attempted, hrefused]
    · obtain ⟨hcopied, hok⟩ := Copied.copyEntry (e := ⟨[], some c⟩)
        (Copied.start run.downloads.sound (open_name (n := run.item.name))) (by simp) (by simp) (by simp) (.inl rfl)
        hrefused
      have hattempted : attempted run.copy [⟨[], some c⟩] =
          [([], Entry.left (⟨[], some c⟩ : Entry Text UInt8) (run.copy ⟨[], some c⟩))] := by
        rcases hfault : run.copy ⟨[], some c⟩ with - | - | - | n
        · simp [attempted, hfault, Entry.left, Entry.node]
        · exact absurd hfault hrefused
        · simp [attempted, hfault]
        · simp [attempted, hfault]
      have huntouched := untouched_iff hcopied
      rw [List.nil_append, ← hattempted] at huntouched
      rcases hcopy : run.downloads.fs.copyEntry [run.item.name] ⟨[], some c⟩ (run.copy ⟨[], some c⟩) with ⟨fs, - | -⟩
      · rw [hcopy] at huntouched
        exact lossless_inbox.trans huntouched
      · rw [hcopy] at huntouched hcopied hok
        refine (lossless_download ((whole_file hcontent).mpr ?_)).trans huntouched
        have hnone : run.copy ⟨[], some c⟩ = none := by simpa using hok.symm
        rw [hnone] at hcopied
        exact hcopied.placed ([], Entry.left ⟨[], some c⟩ none) (List.mem_singleton_self _)

/-- A file is published under a name nothing had, so nothing changes. -/
theorem mediaStore_lossless_iff {c : List UInt8} {rows : Nat} (hcontent : run.item.content = some c)
    (hgo : (run.inserted && run.streamed) = true) (hrows : run.updated = some rows) :
    run.Lossless run.publishToDownloads ↔ rows ≠ 0 := by
  have hstore : run.mediaStore c = some (if rows = 0 then run.downloads.fs
      else run.downloads.fs.put [run.displayName] (some (.file c)) false) := by
    rw [Run.mediaStore, if_pos hgo, hrows]
  simp only [Run.publishToDownloads, hcontent, hstore]
  split
  · -- The row stays pending: nothing is at the location.
    rename_i hnone
    refine iff_of_false (fun h => ?_) (fun h => h hnone)
    have hwhole : run.downloads.fs [run.displayName] = some (.file c) := (whole_file hcontent).mp h.readable
    rw [displayName_free] at hwhole
    cases hwhole
  · rename_i hsome
    refine iff_of_true ((lossless_download ((whole_file hcontent).mpr Disk.Fs.put_self)).mpr fun n p htaken => ?_) hsome
    have hn : n ≠ run.displayName := by
      rintro rfl
      exact htaken displayName_free
    refine Disk.Fs.put_aside (fun h => ?_) (fun h => ?_)
    · exact hn (List.cons_prefix_cons.mp h).1.symm
    · exact hn (List.cons_prefix_cons.mp h).1

end

/-! ## When nothing is lost -/

/-- **Nothing is lost just when the run spares what is there.** -/
theorem publish_lossless_iff (run : Run) : run.Lossless run.publishToDownloads ↔ run.Spares := by
  unfold Run.Spares
  split
  · rename_i hcontent
    exact folder_lossless_iff hcontent
  · rename_i c hcontent
    split
    · rename_i hgo
      rw [Bool.and_eq_true] at hgo
      obtain ⟨rows, hrows⟩ := Option.isSome_iff_exists.mp hgo.2
      rw [mediaStore_lossless_iff hcontent hgo.1 hrows, hrows]
      simp
    · rename_i hfails
      refine copyTo_lossless_iff hcontent ?_
      unfold Run.mediaStore
      split
      · rename_i hgo
        cases hrows : run.updated with
        | none => rfl
        | some rows => simp [hgo, hrows] at hfails
      · rfl

/-- An older file has the name, and `insert` answers with no row. -/
def overwriting : Run where
  downloads :=
    { fs := fun p => if p = [] then some .dir else if p = [text "a"] then some (.file [1]) else none
      names := [text "a"]
      sound := by
        intro p q hpq hne hq
        dsimp only at hq ⊢
        split at hq
        · rename_i hnil
          exact absurd (List.prefix_nil.mp (hnil ▸ hpq)) (hnil ▸ hne)
        · split at hq
          · rename_i hname
            subst hname
            rcases p with - | ⟨m, p⟩
            · rfl
            · obtain ⟨rfl, hp⟩ := List.cons_prefix_cons.mp hpq
              rw [List.prefix_nil.mp hp] at hne
              exact absurd rfl hne
          · exact absurd rfl hq
      folder := rfl
      listed := by
        intro n hn
        by_cases hname : n = text "a"
        · simp [hname]
        · simp [hname] at hn }
  item := ⟨text "a", some [2], [], by simp, ⟨.inl rfl, trivial⟩⟩
  inserted := false
  streamed := true
  updated := some 1
  deletes := true
  copy _ := none
  stays _ := false
  empty := by
    intro _ p hp
    simp [hp]

theorem older_file_overwritten : ¬ ∀ run : Run, run.Lossless run.publishToDownloads := by
  intro h
  have huntouched := (h overwriting).untouched (text "a") [] (by decide +kernel)
  revert huntouched
  decide +kernel

end Nxfr.FilePublisher

/-
Publications one after the other into the same public folder
(`FilePublisher.publishToDownloads`).

A name is never reused while something has it: a file gets the first of its own name,
`name (1)`, `name (2)` and so on that is free (`displayName_first`). Each publication
leaves a folder the next can start from (`Run.after`), and as long as none of them
changes what it finds, all that was ever published stays whole where it was put
(`publications_kept`).
-/
import Nxfr.FilePublisher

namespace Nxfr.FilePublisher

open Disk CodeUnits

/-! ## The first free name -/

/-- The loop ends at a name, and all it went past are taken. -/
theorem firstFree_passed (taken : Text → Bool) (base ext : Text) (fuel k : Nat) :
    ∃ i, k ≤ i ∧ firstFree taken base ext fuel (k + 1) (tried base ext k) = tried base ext i ∧
      ∀ j, k ≤ j → j < i → taken (tried base ext j) = true := by
  induction fuel generalizing k with
  | zero => exact ⟨k, le_rfl, rfl, fun j hk hj => by omega⟩
  | succ fuel ih =>
    unfold firstFree
    split
    · rename_i htaken
      obtain ⟨i, hi, heq, hall⟩ := ih (k + 1)
      refine ⟨i, by omega, heq, fun j hk hj => ?_⟩
      by_cases hjk : j = k
      · rw [hjk]
        exact htaken
      · exact hall j (by omega) hj
    · exact ⟨k, le_rfl, rfl, fun j hk hj => by omega⟩

/-- **A file gets the first of its name, `name (1)`, `name (2)` … that nothing in the
folder has.** -/
theorem displayName_first (run : Run) :
    ∃ i, run.displayName = tried (splitName run.item.name).1 (splitName run.item.name).2 i ∧
      run.downloads.fs [run.displayName] = none ∧
      ∀ j < i, run.downloads.fs [tried (splitName run.item.name).1 (splitName run.item.name).2 j] ≠ none := by
  have hname : tried (splitName run.item.name).1 (splitName run.item.name).2 0 = run.item.name := splitName_append
  obtain ⟨i, -, heq, hall⟩ := firstFree_passed (fun n => run.downloads.fs.exists? [n]) (splitName run.item.name).1
    (splitName run.item.name).2 (run.downloads.names.length + 1) 0
  rw [hname] at heq
  have hfree : run.downloads.fs [run.displayName] = none := displayName_free
  by_cases hroot : run.downloads.fs.exists? [] = true
  · refine ⟨i, by rw [Run.displayName, if_pos hroot, ← heq], hfree, fun j hj => ?_⟩
    exact Option.isSome_iff_ne_none.mp (hall j (Nat.zero_le j) hj)
  · exact ⟨0, by rw [Run.displayName, if_neg hroot, hname], hfree, fun j hj => by omega⟩

/-! ## The folder after a publication -/

section

variable {run : Run} {fs start : Disk.Fs Text UInt8} {n : Text} {p : Disk.Path Text}

/-- What a publication leaves: a folder, with nothing new but under the name of the item
or the name it found. -/
structure Left (run : Run) (fs : Disk.Fs Text UInt8) : Prop where
  sound : fs.Sound
  folder : fs.isFile [] = false
  listed : ∀ n, fs [n] ≠ none → n ∈ run.displayName :: run.item.name :: run.downloads.names

theorem left_same : Left run run.downloads.fs :=
  ⟨run.downloads.sound, run.downloads.folder, fun n hn => by simp [run.downloads.listed n hn]⟩

/-- A copy to the name of the item. -/
theorem left_copied {done : List (Disk.Path Text × Option (Node UInt8))}
    (h : Copied run.downloads.fs [run.item.name] done fs) : Left run fs := by
  refine ⟨h.sound, h.rootOpen [] List.nil_prefix (by simp), fun m hm => ?_⟩
  by_cases hname : m = run.item.name
  · simp [hname]
  · rw [copied_other h hname] at hm
    simp [run.downloads.listed m hm]

/-- A file put under the name the loop found. -/
theorem left_put {c : List UInt8} : Left run (run.downloads.fs.put [run.displayName] (some (.file c)) false) := by
  have hopen : run.downloads.fs.Open [run.displayName] := open_name
  have hfree : run.downloads.fs [run.displayName] = none := displayName_free
  have hnone : false = false → run.downloads.fs [run.displayName] = some .dir → some (Node.file c) = some .dir := by
    rw [hfree]
    exact fun _ h => by cases h
  refine ⟨run.downloads.sound.put hopen hnone, ?_, fun m hm => ?_⟩
  · rw [Fs.isFile_eq_false]
    intro content hcontent
    rw [Disk.Fs.put_above List.nil_prefix (by simp)] at hcontent
    split at hcontent
    · cases hcontent
    · exact Fs.isFile_eq_false.mp run.downloads.folder content hcontent
  · by_cases hname : m = run.displayName
    · simp [hname]
    · rw [Disk.Fs.put_aside (by simpa using Ne.symm hname) (by simpa using hname)] at hm
      simp [run.downloads.listed m hm]

theorem left_copyTo {c : List UInt8} :
    Left run (run.downloads.fs.copyTo [run.item.name] c run.deletes (run.copy run.item.root)).1 := by
  unfold Disk.Fs.copyTo
  split
  · exact left_same
  · by_cases hrefused : run.copy run.item.root = some .refused
    · have hsame : run.downloads.fs.copyEntry [run.item.name] ⟨[], some c⟩ (run.copy run.item.root) =
          (run.downloads.fs, false) := if_pos hrefused
      rw [hsame]
      exact left_same
    · have hcopied := (Copied.copyEntry (e := ⟨[], some c⟩)
        (Copied.start run.downloads.sound (open_name (n := run.item.name))) (by simp) (by simp) (by simp) (.inl rfl)
        hrefused).1
      exact left_copied hcopied

theorem left_mediaStore {c : List UInt8} (h : run.mediaStore c = some fs) : Left run fs := by
  unfold Run.mediaStore at h
  split at h
  · split at h
    · cases h
    · cases h
      split
      · exact left_same
      · exact left_put
  · cases h

/-- What a publication leaves is a folder for the next. -/
theorem left_published (run : Run) : Left run run.publishToDownloads.downloads := by
  unfold Run.publishToDownloads
  split
  · have hcopied := (Copied.copyRecursively run.copy
      (Copied.start run.downloads.sound (open_name (n := run.item.name))) (by simp) (by simp) (by simp) run.item.walk
      run.item.closed).1
    have hleft := left_copied hcopied
    change Left run (run.downloads.fs.copyRecursively [run.item.name] run.copy run.item.entries).1 at hleft
    split
    · rename_i hcopy
      rwa [hcopy] at hleft
    · rename_i hcopy
      rwa [hcopy] at hleft
  · rename_i c hcontent
    split
    · rename_i fs hstore
      exact left_mediaStore hstore
    · have hleft : Left run (run.downloads.fs.copyTo [run.item.name] c run.deletes (run.copy run.item.root)).1 :=
        left_copyTo
      split
      · rename_i hcopy
        rwa [hcopy] at hleft
      · rename_i hcopy
        rwa [hcopy] at hleft

end

/-- The folder after a publication. -/
def Run.after (run : Run) : Downloads :=
  ⟨run.publishToDownloads.downloads, run.displayName :: run.item.name :: run.downloads.names,
    (left_published run).sound, (left_published run).folder, (left_published run).listed⟩

/-! ## One after the other -/

/-- Publications, each into the folder the one before it left. -/
inductive Published (start : Disk.Fs Text UInt8) : List Run → Disk.Fs Text UInt8 → Prop
  | none : Published start [] start
  | next {runs : List Run} {fs : Disk.Fs Text UInt8} (run : Run) (h : Published start runs fs)
      (hfs : run.downloads.fs = fs) : Published start (runs ++ [run]) run.publishToDownloads.downloads

/-- All of an item is where its publication said. -/
def Run.Readable (run : Run) (fs : Disk.Fs Text UInt8) : Prop := match run.publishToDownloads.location with
  | .inbox => run.publishToDownloads.inbox = run.item.entries
  | .download n => run.Whole fs n

section

variable {run : Run} {fs start : Disk.Fs Text UInt8} {runs : List Run}

theorem Run.Spares.lossless (h : run.Spares) : run.Lossless run.publishToDownloads := by
  unfold Run.Spares at h
  split at h
  · rename_i hcontent
    exact (folder_lossless_iff hcontent).mpr h
  · rename_i c hcontent
    split at h
    · rename_i hgo
      rw [Bool.and_eq_true] at hgo
      obtain ⟨rows, hrows⟩ := Option.isSome_iff_exists.mp hgo.2
      rw [hrows] at h
      exact (mediaStore_lossless_iff hcontent hgo.1 hrows).mpr fun hzero => h (by rw [hzero])
    · rename_i hfails
      have hstore : run.mediaStore c = none := by
        unfold Run.mediaStore
        split
        · rename_i hgo
          cases hrows : run.updated with
          | none => rfl
          | some rows => simp [hgo, hrows] at hfails
        · rfl
      exact (copyTo_lossless_iff hcontent hstore).mpr h

/-- What is whole in the folder stays whole. -/
theorem Run.Whole.kept {earlier : Run} {n : Text} (h : earlier.Whole fs n)
    (hlossless : run.Lossless run.publishToDownloads) (hfs : run.downloads.fs = fs) :
    earlier.Whole run.publishToDownloads.downloads n := by
  intro e he
  have hroot := h earlier.item.root (by simp [InboxItem.entries])
  rw [hlossless.untouched n e.path, hfs]
  · exact h e he
  · rw [hfs]
    change fs (n :: earlier.item.root.path) ≠ none
    rw [hroot]
    exact Option.some_ne_none _

end

/-- **As long as each publication spares what is there, everything published is whole
where it was put, or still in the inbox, and what was there at first is untouched.** -/
theorem publications_kept {start fs : Disk.Fs Text UInt8} {runs : List Run} (h : Published start runs fs)
    (hspares : ∀ run ∈ runs, run.Spares) :
    (∀ run ∈ runs, run.Readable fs) ∧ ∀ n p, start [n] ≠ none → fs (n :: p) = start (n :: p) := by
  induction h with
  | none => exact ⟨by simp, fun _ _ _ => rfl⟩
  | next run h hfs ih =>
    obtain ⟨hreadable, huntouched⟩ := ih fun run hrun => hspares run (by simp [hrun])
    have hlossless := (hspares run (by simp)).lossless
    refine ⟨fun earlier hmem => ?_, fun n p hn => ?_⟩
    · rcases List.mem_append.mp hmem with hmem | hmem
      · have hwhole := hreadable earlier hmem
        unfold Run.Readable at hwhole ⊢
        split
        · rename_i hlocation
          rw [hlocation] at hwhole
          exact hwhole
        · rename_i n hlocation
          rw [hlocation] at hwhole
          exact hwhole.kept hlossless hfs
      · rw [List.mem_singleton.mp hmem]
        exact hlossless.readable
    · have hkept := huntouched n p hn
      have hself := huntouched n [] hn
      rw [hlossless.untouched n p, hfs, hkept]
      rw [hfs, hself]
      exact hn

/-- An empty folder. -/
def emptyFolder : Downloads where
  fs := fun p => if p = [] then some .dir else none
  names := []
  sound := by
    intro p q hpq hne hq
    dsimp only at hq ⊢
    split at hq
    · rename_i hnil
      exact absurd (List.prefix_nil.mp (hnil ▸ hpq)) (hnil ▸ hne)
    · exact absurd rfl hq
  folder := rfl
  listed := by simp

/-- A file that goes through the `MediaStore`. -/
def stored (downloads : Downloads) (c : List UInt8) : Run where
  downloads := downloads
  item := ⟨text "a.txt", some c, [], by simp, ⟨.inl rfl, trivial⟩⟩
  inserted := true
  streamed := true
  updated := some 1
  deletes := false
  copy _ := none
  stays _ := false
  empty := by simp

/-- Two files of one name. -/
theorem same_name_twice :
    (stored (stored emptyFolder [1]).after [2]).publishToDownloads.downloads [text "a.txt"] = some (.file [1]) ∧
      (stored (stored emptyFolder [1]).after [2]).publishToDownloads.downloads [text "a (1).txt"] = some (.file [2]) := by
  have hruns : Published emptyFolder.fs [stored emptyFolder [1], stored (stored emptyFolder [1]).after [2]]
      (stored (stored emptyFolder [1]).after [2]).publishToDownloads.downloads :=
    @Published.next emptyFolder.fs [stored emptyFolder [1]] _ _ (@Published.next _ [] _ _ .none rfl) rfl
  have hspares : ∀ run ∈ [stored emptyFolder [1], stored (stored emptyFolder [1]).after [2]], run.Spares := by
    simp [Run.Spares, stored]
  obtain ⟨hreadable, -⟩ := publications_kept hruns hspares
  have hfirst := hreadable (stored emptyFolder [1]) (by simp)
  have hsecond := hreadable (stored (stored emptyFolder [1]).after [2]) (by simp)
  have hone : (stored emptyFolder [1]).publishToDownloads.location = .download (text "a.txt") := by decide +kernel
  have htwo :
      (stored (stored emptyFolder [1]).after [2]).publishToDownloads.location = .download (text "a (1).txt") := by
    decide +kernel
  rw [Run.Readable, hone] at hfirst
  rw [Run.Readable, htwo] at hsecond
  exact ⟨(whole_file rfl).mp hfirst, (whole_file rfl).mp hsecond⟩

end Nxfr.FilePublisher

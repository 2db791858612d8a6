/-
The sweep of the cache (`CacheCleaner.cleanAllStaleCache` and its synchronous version).

The cache is a tree. An entry of it is stale by its name and by whether it is a directory
or a file; a stale entry is deleted with all that is in it, from the bottom up, except
what cannot be deleted. What is freed is counted from the size before and only when all
of an entry went, so `sweep_accounts` has an inequality, which is an equality when
nothing is stuck.
-/
import Nxfr.CodeUnits

namespace Nxfr.CacheCleaner

open CodeUnits

inductive File
  | file (length : Nat)
  | dir (children : List (Text × File))

/-- The cache after a sweep, with what it counted. -/
structure Swept where
  cache : List (Text × File)
  bytesFreed : Nat
  filesDeleted : Nat

mutual

def calculateSize : File → Nat
  | .file length => length
  | .dir children => calculateSizes children

def calculateSizes : List (Text × File) → Nat
  | [] => 0
  | (_, file) :: children => calculateSize file + calculateSizes children

end

def File.isDirectory : File → Bool
  | .file _ => false
  | .dir _ => true

def isStagingDir (name : Text) : Bool :=
  (text "staging_").isPrefixOf name || name == text "web-share-staging" || name == text "apps" ||
    name == text "contacts" || name == text "nxfr_contacts" || name == text "text" || name == text "media" ||
    name == text "nxfr_paste" || (text "debug_bundle_").isPrefixOf name

def isStagingFile (name : Text) : Bool :=
  (text "send_").isPrefixOf name || (text ".tmp").isSuffixOf name || (text "nxfr_debug_bundle_").isPrefixOf name

def isStale (e : Text × File) : Bool :=
  (e.2.isDirectory && isStagingDir e.1) || (!e.2.isDirectory && isStagingFile e.1)

section

-- The paths `delete` does not take.
variable (stuck : List Text → Bool)

mutual

/-- What `deleteRecursively` leaves, and its answer. -/
def deleteRecursively (path : List Text) : File → Option File × Bool
  | .file length => if stuck path then (some (.file length), false) else (none, true)
  | .dir children =>
    if (deleteChildren path children).1.isEmpty && !stuck path then (none, (deleteChildren path children).2)
    else (some (.dir (deleteChildren path children).1), false)

def deleteChildren (path : List Text) : List (Text × File) → List (Text × File) × Bool
  | [] => ([], true)
  | (name, file) :: children => match deleteRecursively (path ++ [name]) file, deleteChildren path children with
    | (left, ok), (rest, oks) => ((left.map (name, ·)).toList ++ rest, ok && oks)

end

/-- The loop over what is in the cache. -/
def cleanAllStaleCache : List (Text × File) → Nat → Nat → Swept
  | [], bytesFreed, filesDeleted => ⟨[], bytesFreed, filesDeleted⟩
  | (name, file) :: cache, bytesFreed, filesDeleted =>
    if isStale (name, file) then match deleteRecursively stuck [name] file with
      | (left, ok) =>
        let size := calculateSize file
        let swept := if ok then cleanAllStaleCache cache (bytesFreed + size) (filesDeleted + 1)
          else cleanAllStaleCache cache bytesFreed filesDeleted
        { swept with cache := (left.map (name, ·)).toList ++ swept.cache }
    else
      let swept := cleanAllStaleCache cache bytesFreed filesDeleted
      { swept with cache := (name, file) :: swept.cache }

def cleanAllStaleCacheSync : List (Text × File) → List (Text × File)
  | [] => []
  | (name, file) :: cache =>
    if isStale (name, file) then
      ((deleteRecursively stuck [name] file).1.map (name, ·)).toList ++ cleanAllStaleCacheSync cache
    else (name, file) :: cleanAllStaleCacheSync cache

end

/-! ## One entry -/

section

variable {stuck : List Text → Bool}

/-- What a deletion leaves of an entry: nothing, and then the answer is true, or an entry
of its kind that is no larger, with something stuck in it, of which no more can go. -/
def Deleted (stuck : List Text → Bool) (path : List Text) (file : File) : Option File × Bool → Prop
  | (none, ok) => ok = true
  | (some left, ok) => ok = false ∧ left.isDirectory = file.isDirectory ∧ calculateSize left ≤ calculateSize file ∧
      (∃ p, path <+: p ∧ stuck p = true) ∧ deleteRecursively stuck path left = (some left, false)

/-- The same of the children of a directory. -/
structure Emptied (stuck : List Text → Bool) (path : List Text) (children : List (Text × File))
    (left : List (Text × File)) (ok : Bool) : Prop where
  answer : ok = left.isEmpty
  size : calculateSizes left ≤ calculateSizes children
  below : left ≠ [] → ∃ p, path <+: p ∧ stuck p = true
  again : deleteChildren stuck path left = (left, ok)

mutual

theorem deleted (stuck : List Text → Bool) (path : List Text) (file : File) :
    Deleted stuck path file (deleteRecursively stuck path file) := by
  cases file with
  | file length =>
    rw [deleteRecursively]
    by_cases hstuck : stuck path = true
    · rw [if_pos hstuck]
      exact ⟨rfl, rfl, le_rfl, ⟨path, List.prefix_rfl, hstuck⟩, by rw [deleteRecursively, if_pos hstuck]⟩
    · rw [if_neg hstuck]
      rfl
  | dir children =>
    obtain ⟨hanswer, hsize, hbelow, hagain⟩ := emptied stuck path children
    rw [deleteRecursively]
    by_cases hgone : ((deleteChildren stuck path children).1.isEmpty && !stuck path) = true
    · rw [if_pos hgone]
      exact hanswer.trans (Bool.and_eq_true_iff.mp hgone).1
    · rw [if_neg hgone]
      refine ⟨rfl, rfl, by simpa only [calculateSize] using hsize, ?_, ?_⟩
      · by_cases hempty : (deleteChildren stuck path children).1 = []
        · exact ⟨path, List.prefix_rfl, by simpa [hempty] using hgone⟩
        · exact hbelow hempty
      · rw [deleteRecursively, hagain]
        exact if_neg hgone

theorem emptied (stuck : List Text → Bool) (path : List Text) (children : List (Text × File)) :
    Emptied stuck path children (deleteChildren stuck path children).1 (deleteChildren stuck path children).2 := by
  cases children with
  | nil => exact ⟨rfl, le_rfl, fun h => absurd rfl h, rfl⟩
  | cons child children =>
    obtain ⟨name, file⟩ := child
    have hone := deleted stuck (path ++ [name]) file
    obtain ⟨hanswer, hsize, hbelow, hagain⟩ := emptied stuck path children
    rw [deleteChildren]
    rcases hdelete : deleteRecursively stuck (path ++ [name]) file with ⟨- | left, ok⟩
    · rw [hdelete] at hone
      simp only [Deleted] at hone
      simp only [hone, Option.map_none, Option.toList_none, List.nil_append, Bool.true_and]
      refine ⟨hanswer, ?_, hbelow, hagain⟩
      simp only [calculateSizes]
      omega
    · rw [hdelete] at hone
      obtain ⟨rfl, -, hle, ⟨p, hp, hstuck⟩, hself⟩ := hone
      simp only [Option.map_some, Option.toList_some, List.singleton_append, Bool.false_and]
      refine ⟨rfl, ?_, fun _ => ⟨p, (List.prefix_append _ _).trans hp, hstuck⟩, ?_⟩
      · simp only [calculateSizes]
        omega
      · rw [deleteChildren, hself, hagain]
        rfl

end

/-! ## The sweep -/

variable {cache : List (Text × File)} {bytesFreed filesDeleted : Nat} {name : Text} {file left : File}

theorem isStale_left (h : left.isDirectory = file.isDirectory) : isStale (name, left) = isStale (name, file) := by
  simp only [isStale, h]

/-- The two versions leave the same. -/
theorem cleanAllStaleCache_cache :
    (cleanAllStaleCache stuck cache bytesFreed filesDeleted).cache = cleanAllStaleCacheSync stuck cache := by
  induction cache generalizing bytesFreed filesDeleted with
  | nil => rfl
  | cons e cache ih =>
    obtain ⟨name, file⟩ := e
    rw [cleanAllStaleCache, cleanAllStaleCacheSync]
    by_cases hstale : isStale (name, file) = true
    · rw [if_pos hstale, if_pos hstale]
      simp only
      split
      · rw [ih]
      · rw [ih]
    · rw [if_neg hstale, if_neg hstale]
      simp only [ih]

theorem kept_sync : (cleanAllStaleCacheSync stuck cache).filter (!isStale ·) = cache.filter (!isStale ·) := by
  induction cache with
  | nil => rfl
  | cons e cache ih =>
    obtain ⟨name, file⟩ := e
    have hone := deleted stuck [name] file
    rw [cleanAllStaleCacheSync]
    by_cases hstale : isStale (name, file) = true
    · rw [if_pos hstale, List.filter_cons_of_neg (by simp [hstale]), List.filter_append, ih]
      rcases hdelete : deleteRecursively stuck [name] file with ⟨- | left, ok⟩
      · rfl
      · rw [hdelete] at hone
        have hleft : isStale (name, left) = true := (isStale_left hone.2.1).trans hstale
        simp [hleft]
    · rw [if_neg hstale, List.filter_cons_of_pos (by simp [hstale]), List.filter_cons_of_pos (by simp [hstale]), ih]

/-- A stale entry that is still there has something stuck in it. -/
theorem stale_sync {e : Text × File} (he : e ∈ cleanAllStaleCacheSync stuck cache) (hstale : isStale e = true) :
    ∃ p, [e.1] <+: p ∧ stuck p = true := by
  induction cache with
  | nil => cases he
  | cons first cache ih =>
    obtain ⟨name, file⟩ := first
    have hone := deleted stuck [name] file
    rw [cleanAllStaleCacheSync] at he
    by_cases hfirst : isStale (name, file) = true
    · rw [if_pos hfirst, List.mem_append] at he
      rcases he with he | he
      · rcases hdelete : deleteRecursively stuck [name] file with ⟨- | left, ok⟩
        · rw [hdelete] at he
          simp at he
        · rw [hdelete] at he hone
          simp only [Option.map_some, Option.toList_some, List.mem_singleton] at he
          rw [he]
          exact hone.2.2.2.1
      · exact ih he
    · rw [if_neg hfirst, List.mem_cons] at he
      rcases he with rfl | he
      · exact absurd hstale hfirst
      · exact ih he

/-- Another sweep finds nothing more to delete. -/
theorem sync_again : cleanAllStaleCacheSync stuck (cleanAllStaleCacheSync stuck cache) =
    cleanAllStaleCacheSync stuck cache := by
  induction cache with
  | nil => rfl
  | cons e cache ih =>
    obtain ⟨name, file⟩ := e
    have hone := deleted stuck [name] file
    rw [cleanAllStaleCacheSync]
    by_cases hstale : isStale (name, file) = true
    · rw [if_pos hstale]
      rcases hdelete : deleteRecursively stuck [name] file with ⟨- | left, ok⟩
      · exact ih
      · rw [hdelete] at hone
        obtain ⟨-, hdir, -, -, hself⟩ := hone
        simp only [Option.map_some, Option.toList_some, List.singleton_append]
        rw [cleanAllStaleCacheSync, if_pos ((isStale_left hdir).trans hstale), hself, ih]
        rfl
    · rw [if_neg hstale, cleanAllStaleCacheSync, if_neg hstale, ih]

/-- What is freed, and what is left, make up no more than there was, and all of it when
nothing is stuck. -/
theorem clean_sizes (stuck : List Text → Bool) (cache : List (Text × File)) (bytesFreed filesDeleted : Nat) :
    (cleanAllStaleCache stuck cache bytesFreed filesDeleted).bytesFreed +
        calculateSizes (cleanAllStaleCache stuck cache bytesFreed filesDeleted).cache ≤
      bytesFreed + calculateSizes cache ∧
    ((∀ p, stuck p = false) →
      (cleanAllStaleCache stuck cache bytesFreed filesDeleted).bytesFreed +
          calculateSizes (cleanAllStaleCache stuck cache bytesFreed filesDeleted).cache =
        bytesFreed + calculateSizes cache) := by
  induction cache generalizing bytesFreed filesDeleted with
  | nil => exact ⟨le_rfl, fun _ => rfl⟩
  | cons e cache ih =>
    obtain ⟨name, file⟩ := e
    have hone := deleted stuck [name] file
    rw [cleanAllStaleCache]
    by_cases hstale : isStale (name, file) = true
    · rw [if_pos hstale]
      rcases hdelete : deleteRecursively stuck [name] file with ⟨- | left, ok⟩
      · rw [hdelete] at hone
        simp only [Deleted] at hone
        obtain ⟨hle, heq⟩ := ih (bytesFreed + calculateSize file) (filesDeleted + 1)
        simp only [hone, if_true, Option.map_none, Option.toList_none, List.nil_append, calculateSizes]
        exact ⟨by omega, fun h => by have := heq h; omega⟩
      · rw [hdelete] at hone
        obtain ⟨rfl, -, hsize, ⟨p, -, hstuck⟩, -⟩ := hone
        obtain ⟨hle, -⟩ := ih bytesFreed filesDeleted
        simp only [Bool.false_eq_true, if_false, Option.map_some, Option.toList_some, List.singleton_append,
          calculateSizes]
        refine ⟨by omega, fun h => ?_⟩
        rw [h p] at hstuck
        cases hstuck
    · rw [if_neg hstale]
      obtain ⟨hle, heq⟩ := ih bytesFreed filesDeleted
      simp only [calculateSizes]
      exact ⟨by omega, fun h => by have := heq h; omega⟩

theorem staging_stale (ts : Text) (children : List (Text × File)) :
    isStale (text "staging_" ++ ts, .dir children) = true := by
  simp [isStale, File.isDirectory, isStagingDir]

/-- What a sweep is for. -/
structure Sweeps (stuck : List Text → Bool) (cache : List (Text × File)) (swept : Swept) : Prop where
  kept : swept.cache.filter (!isStale ·) = cache.filter (!isStale ·)
  gone : ∀ e ∈ swept.cache, isStale e = true → ∃ p, [e.1] <+: p ∧ stuck p = true
  -- The directories of `prepareStagingDirectory`.
  staging : ∀ ts children, (text "staging_" ++ ts, File.dir children) ∈ swept.cache →
    ∃ p, [text "staging_" ++ ts] <+: p ∧ stuck p = true
  freed : swept.bytesFreed + calculateSizes swept.cache ≤ calculateSizes cache
  whole : (∀ p, stuck p = false) → swept.bytesFreed + calculateSizes swept.cache = calculateSizes cache
  sync : cleanAllStaleCacheSync stuck cache = swept.cache
  again : cleanAllStaleCacheSync stuck swept.cache = swept.cache

end

/-- **A sweep takes what is stale and nothing else, all of it but what is stuck, counts
no more than it freed, and leaves nothing for another sweep.** -/
theorem sweep_accounts (stuck : List Text → Bool) (cache : List (Text × File)) :
    Sweeps stuck cache (cleanAllStaleCache stuck cache 0 0) := by
  obtain ⟨hle, heq⟩ := clean_sizes stuck cache 0 0
  rw [Nat.zero_add] at hle heq
  have hgone :
      ∀ e ∈ (cleanAllStaleCache stuck cache 0 0).cache, isStale e = true → ∃ p, [e.1] <+: p ∧ stuck p = true := by
    rw [cleanAllStaleCache_cache]
    exact fun e he => stale_sync he
  refine ⟨?_, hgone, fun ts children hmem => hgone _ hmem (staging_stale ts children), hle, heq,
    cleanAllStaleCache_cache.symm, ?_⟩
  · rw [cleanAllStaleCache_cache]
    exact kept_sync
  · rw [cleanAllStaleCache_cache]
    exact sync_again

end Nxfr.CacheCleaner

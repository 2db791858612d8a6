/-
What is staged for sending (`StagingRepository`).

`addItem` takes an item for a duplicate when it has the uri, the local file, or the
name and the size of one that is staged. `prepareStagingDirectory` puts every item
into a new directory under its name alone, local files and folders with `copyTo` and
`copyRecursively`, documents through a stream. A name is a path: it may have slashes, and
`.` and `..` lead elsewhere. What it finds at a name it overwrites: `staging_kept_iff`
says when every item that is staged can be read from the directory.
-/
import Nxfr.History
import Nxfr.CodeUnits
import Nxfr.Writes

namespace Nxfr.Staging

open Disk CodeUnits

structure StagedItem (υ : Type) where
  id : Text
  displayName : Text
  sizeBytes : Int
  uri : Option υ
  localFile : Option Text
  isFolder : Bool

inductive Call (υ : Type)
  | addItem (item : StagedItem υ)
  | removeItem (id : Text)

/-- What `openInputStream` gives: a stream with its bytes, null, a
`SecurityException`, or another exception. -/
inductive Stream
  | opened (content : List UInt8)
  | null
  | denied
  | fails

/-- A document of a tree: a file, a directory with its children, or neither. -/
inductive Document
  | file (name : Option Text) (stream : Stream)
  | dir (name : Option Text) (children : List Document)
  | other

/-- A local file, or a directory with what `walkTopDown` finds below it. -/
inductive LocalFile
  | file (content : List UInt8)
  | dir (below : List (Entry Text UInt8)) (h : ∀ e ∈ below, e.path ≠ [])

/-- The local files that exist by their paths, the streams and the document trees of
the uris; the disk with the cache directory, the name of the new directory in it, which
directories `delete` takes, and which paths the file system takes as they are written. -/
structure World (υ : Type) where
  localFiles : Text → Option LocalFile
  streams : υ → Stream
  trees : υ → Option (List Document)
  disk : Disk.Fs Text UInt8
  cacheDir : Disk.Path Text
  stamp : Text
  deletes : Disk.Path Text → Bool
  fits : Disk.Path Text → Bool
  sound : disk.Sound
  cache : disk cacheDir = some .dir
  new : disk (cacheDir ++ [stamp]) = none

section

variable {υ : Type} [DecidableEq υ]

/-! ## The selection -/

def StagedItem.isDuplicate (item existing : StagedItem υ) : Bool :=
  (item.uri.isSome && existing.uri == item.uri) ||
    (item.localFile.isSome && existing.localFile == item.localFile) ||
    (existing.displayName == item.displayName && existing.sizeBytes == item.sizeBytes)

def addItem (current : List (StagedItem υ)) (item : StagedItem υ) : List (StagedItem υ) × Bool :=
  if current.any item.isDuplicate then (current, false) else (current ++ [item], true)

omit [DecidableEq υ] in
def removeItem (current : List (StagedItem υ)) (id : Text) : List (StagedItem υ) := current.filter (·.id != id)

def Call.step (current : List (StagedItem υ)) : Call υ → List (StagedItem υ)
  | .addItem item => (Staging.addItem current item).1
  | .removeItem id => Staging.removeItem current id

/-- What is staged after the calls. -/
def staged (calls : List (Call υ)) : List (StagedItem υ) := History.after Call.step [] calls

end

/-! ## The directory -/

def pathStep (c : Text) : PathStep Text :=
  if c = text "." then .stay else if c = text ".." then .up else .into c

/-- The path that a name is, below a directory. -/
def place (name : Text) : List (PathStep Text) := ((name.splitOn 47).filter (· ≠ [])).map pathStep

/-- A component as it is written. -/
def written : PathStep Text → Text
  | .stay => text "."
  | .up => text ".."
  | .into c => c

section

variable {υ : Type} (w : World υ)

def World.stagingDir : Disk.Path Text := w.cacheDir ++ [w.stamp]

/-- The disk with the new directory. -/
def World.fresh : Disk.Fs Text UInt8 := w.disk.set w.stagingDir (some .dir)

/-- The local file of an item, if it exists. -/
def World.localFile (item : StagedItem υ) : Option LocalFile := item.localFile.bind w.localFiles

/-- `File(stagingDir, item.displayName)`. -/
def StagedItem.dest (item : StagedItem υ) : List (PathStep Text) := place item.displayName

/-- What is written under a path below the new directory, or under the directory itself. -/
def World.write (target : List (PathStep Text)) (content : Option (List UInt8)) (how : How) : Write Text UInt8 :=
  ⟨w.cacheDir, .into w.stamp :: target, content, w.fits (w.stagingDir ++ target.map written), how⟩

/-- A directory with what is below it, copied with `copyRecursively`. -/
def World.treeWrites (target : List (PathStep Text)) (below : List (Entry Text UInt8)) : List (Write Text UInt8) :=
  (⟨[], none⟩ :: below).map fun e => w.write (target ++ e.path.map .into) e.content .entry

/-- A stream is read into a file, if there is one to read. -/
def copyStream (d : Disk.Fs Text UInt8) (dest : List (PathStep Text)) : Stream → Option (Disk.Fs Text UInt8)
  | .opened content => Write.run w.deletes d (w.write dest (some content) .stream)
  | .null => some d
  | .denied => some d
  | .fails => none

mutual

/-- A child of a document tree. -/
def copyDocument (d : Disk.Fs Text UInt8) (targetDir : List (PathStep Text)) : Document → Option (Disk.Fs Text UInt8)
  | .file (some name) stream => copyStream w d (targetDir ++ place name) stream
  | .dir (some name) children => match Write.run w.deletes d (w.write (targetDir ++ place name) none .stream) with
    | none => none
    | some d => copyDocumentTree d (targetDir ++ place name) children
  | .file none _ => some d
  | .dir none _ => some d
  | .other => some d

def copyDocumentTree (d : Disk.Fs Text UInt8) (targetDir : List (PathStep Text)) :
    List Document → Option (Disk.Fs Text UInt8)
  | [] => some d
  | child :: children => match copyDocument d targetDir child with
    | none => none
    | some d => copyDocumentTree d targetDir children

end

/-- The loop over the items. -/
def copyItem (d : Disk.Fs Text UInt8) (item : StagedItem υ) : Option (Disk.Fs Text UInt8) :=
  match w.localFile item, item.uri with
  | some (.dir below _), _ => runWrites w.deletes d (w.treeWrites item.dest below)
  | some (.file content), _ => Write.run w.deletes d (w.write item.dest (some content) .whole)
  | none, some uri =>
    if item.isFolder then match Write.run w.deletes d (w.write item.dest none .stream), w.trees uri with
      | none, _ => none
      | some d, none => some d
      | some d, some children => copyDocumentTree w d item.dest children
    else copyStream w d item.dest (w.streams uri)
  | none, none => some d

/-- The branch of a single file, and the file that is answered. -/
def prepareSole (item : StagedItem υ) : Option (Disk.Fs Text UInt8 × List (PathStep Text)) :=
  match w.localFile item, item.uri with
  | some (.dir _ _), _ => (Write.run w.deletes w.fresh (w.write item.dest none .whole)).map (·, item.dest)
  | some (.file content), _ =>
    (Write.run w.deletes w.fresh (w.write item.dest (some content) .whole)).map (·, item.dest)
  | none, some uri => match w.streams uri with
    | .denied => none
    | stream => (copyStream w w.fresh item.dest stream).map (·, item.dest)
  | none, none => some (w.fresh, item.dest)

end

/-! ## What is written -/

mutual

/-- What is written of a document. -/
def Document.writes {υ : Type} (w : World υ) (targetDir : List (PathStep Text)) : Document → List (Write Text UInt8)
  | .file (some name) (.opened content) => [w.write (targetDir ++ place name) (some content) .stream]
  | .file _ _ => []
  | .dir none _ => []
  | .dir (some name) children =>
    w.write (targetDir ++ place name) none .stream :: documentWrites w (targetDir ++ place name) children
  | .other => []

def documentWrites {υ : Type} (w : World υ) (targetDir : List (PathStep Text)) :
    List Document → List (Write Text UInt8)
  | [] => []
  | child :: children => child.writes w targetDir ++ documentWrites w targetDir children

end

section

variable {υ : Type} (w : World υ)

/-- What is written of an item. -/
def itemWrites (item : StagedItem υ) : List (Write Text UInt8) := match w.localFile item, item.uri with
  | some (.dir below _), _ => w.treeWrites item.dest below
  | some (.file content), _ => [w.write item.dest (some content) .whole]
  | none, some uri =>
    if item.isFolder then
      w.write item.dest none .stream :: (match w.trees uri with
        | none => []
        | some children => documentWrites w item.dest children)
    else match w.streams uri with
      | .opened content => [w.write item.dest (some content) .stream]
      | _ => []
  | none, none => []

/-- `listFiles` finds something: nothing is in the directory but what was written. -/
def World.lists (items : List (StagedItem υ)) (d : Disk.Fs Text UInt8) : Bool :=
  (items.flatMap (itemWrites w)).any fun x =>
    w.stagingDir.isPrefixOf x.path && x.path ≠ w.stagingDir && d.exists? (x.path.take (w.stagingDir.length + 1))

/-- The other items. -/
def prepareAll (items : List (StagedItem υ)) : Option (Disk.Fs Text UInt8 × List (PathStep Text)) :=
  match items.foldlM (copyItem w) w.fresh with
  | none => none
  | some d => if w.lists items d then some (d, []) else none

def prepareStagingDirectory : List (StagedItem υ) → Option (Disk.Fs Text UInt8 × List (PathStep Text))
  | [] => none
  | [item] => if item.isFolder then prepareAll w [item] else prepareSole w item
  | items => prepareAll w items

end

/-! ## What the items hold -/

mutual

/-- All of a document can be read. -/
def Document.readable : Document → Bool
  | .file (some _) (.opened _) => true
  | .file _ _ => false
  | .dir none _ => false
  | .dir (some _) children => readableDocuments children
  | .other => true

def readableDocuments : List Document → Bool
  | [] => true
  | child :: children => child.readable && readableDocuments children

end

section

variable {υ : Type} (w : World υ)

def Readable (item : StagedItem υ) : Prop := match w.localFile item, item.uri with
  | some _, _ => True
  | none, some uri =>
    if item.isFolder then match w.trees uri with
      | none => False
      | some children => readableDocuments children = true
    else ∃ content, w.streams uri = .opened content
  | none, none => False

/-- The answer is a directory or a file that can be entered, and everything of every item
is in it or is it. -/
def Serves (items : List (StagedItem υ)) (answer : Option (Disk.Fs Text UInt8 × List (PathStep Text))) : Prop :=
  ∃ d dest, answer = some (d, dest) ∧ (∀ p ∈ passes w.cacheDir (.into w.stamp :: dest), d p = some .dir) ∧
    ∀ item ∈ items, ∀ x ∈ itemWrites w item, goto w.stagingDir dest <+: x.path ∧ d x.path = some x.node

/-- What is prepared keeps every item. -/
def Kept (items : List (StagedItem υ)) : Prop := Serves w items (prepareStagingDirectory w items)

/-- No two items put different things at one place or a file above another, every name
leads to a place in the directory, and something is put in it. -/
structure Together (items : List (StagedItem υ)) : Prop where
  apart : KeptApart w.stagingDir w.fresh (items.flatMap (itemWrites w))
  somewhere : ∃ item ∈ items, ∃ x ∈ itemWrites w item, x.path ≠ w.stagingDir

/-- A single item that is no folder: its name is one that it can be put under, and it is no
local directory that holds something. -/
def Alone (item : StagedItem υ) : Prop := match w.localFile item, item.uri with
  | some (.dir below _), _ => below = [] ∧ (w.write item.dest none .whole).Makes w.deletes w.fresh
  | some (.file content), _ => (w.write item.dest (some content) .whole).Copies w.deletes w.fresh
  | none, some uri => match w.streams uri with
    | .opened content => (w.write item.dest (some content) .stream).Opens w.fresh
    | _ => False
  | none, none => False

/-- The items are spared one another. -/
def Spared : List (StagedItem υ) → Prop
  | [] => False
  | [item] => if item.isFolder then Together w [item] else Alone w item
  | items => Together w items

end

/-! ## Documents -/

section

variable {υ : Type} {w : World υ} {item : StagedItem υ} {items : List (StagedItem υ)} {d : Disk.Fs Text UInt8}
  {x : Write Text UInt8}

mutual

theorem copyDocument_eq (child : Document) (d : Disk.Fs Text UInt8) (targetDir : List (PathStep Text))
    (h : child.readable = true) :
    copyDocument w d targetDir child = runWrites w.deletes d (child.writes w targetDir) := by
  cases child with
  | file name stream =>
    cases name with
    | none => simp [Document.readable] at h
    | some name =>
      cases stream with
      | opened content => rw [copyDocument, copyStream, Document.writes, runWrites_single]
      | null | denied | fails => simp [Document.readable] at h
  | dir name children =>
    cases name with
    | none => simp [Document.readable] at h
    | some name =>
      rw [Document.readable] at h
      rw [copyDocument, Document.writes, runWrites_cons]
      cases Write.run w.deletes d (w.write (targetDir ++ place name) none .stream) with
      | none => rfl
      | some d => exact copyDocumentTree_eq children _ _ h
  | other => rfl

theorem copyDocumentTree_eq (children : List Document) (d : Disk.Fs Text UInt8) (targetDir : List (PathStep Text))
    (h : readableDocuments children = true) :
    copyDocumentTree w d targetDir children = runWrites w.deletes d (documentWrites w targetDir children) := by
  cases children with
  | nil => rfl
  | cons child children =>
    rw [readableDocuments, Bool.and_eq_true] at h
    rw [copyDocumentTree, documentWrites, runWrites_append, copyDocument_eq child _ _ h.1]
    cases runWrites w.deletes d (child.writes w targetDir) with
    | none => rfl
    | some d => exact copyDocumentTree_eq children d targetDir h.2

end

mutual

/-- Documents are written through streams. -/
theorem writes_stream (child : Document) (targetDir : List (PathStep Text)) (hx : x ∈ child.writes w targetDir) :
    x.how = .stream := by
  cases child with
  | file name stream =>
    cases name with
    | none => simp [Document.writes] at hx
    | some name =>
      cases stream with
      | opened content =>
        rw [Document.writes, List.mem_singleton] at hx
        rw [hx]
        rfl
      | null | denied | fails => simp [Document.writes] at hx
  | dir name children =>
    cases name with
    | none => simp [Document.writes] at hx
    | some name =>
      rw [Document.writes, List.mem_cons] at hx
      rcases hx with rfl | hx
      · rfl
      · exact documentWrites_stream children _ hx
  | other => simp [Document.writes] at hx

theorem documentWrites_stream (children : List Document) (targetDir : List (PathStep Text))
    (hx : x ∈ documentWrites w targetDir children) : x.how = .stream := by
  cases children with
  | nil => simp [documentWrites] at hx
  | cons child children =>
    rw [documentWrites, List.mem_append] at hx
    rcases hx with hx | hx
    · exact writes_stream child targetDir hx
    · exact documentWrites_stream children targetDir hx

end

/-! ## Items -/

/-- An item that can be read is copied as its writes are. -/
theorem copyItem_eq (h : Readable w item) : copyItem w d item = runWrites w.deletes d (itemWrites w item) := by
  unfold Readable at h
  unfold copyItem itemWrites
  cases hlocal : w.localFile item with
  | some file =>
    cases file with
    | file content => exact runWrites_single.symm
    | dir below hbelow => rfl
  | none =>
    cases huri : item.uri with
    | none =>
      rw [hlocal, huri] at h
      exact h.elim
    | some uri =>
      rw [hlocal, huri] at h
      simp only at h ⊢
      split
      · rename_i hfolder
        rw [if_pos hfolder] at h
        cases htree : w.trees uri with
        | none =>
          rw [htree] at h
          exact h.elim
        | some children =>
          rw [htree] at h
          simp only at h ⊢
          rw [runWrites_cons]
          cases Write.run w.deletes d (w.write item.dest none .stream) with
          | none => rfl
          | some d => exact copyDocumentTree_eq children _ _ h
      · rename_i hfile
        rw [if_neg hfile] at h
        obtain ⟨content, hstream⟩ := h
        simp only [hstream, copyStream, runWrites_single]

theorem foldlM_copyItem (h : ∀ item ∈ items, Readable w item) :
    items.foldlM (copyItem w) d = runWrites w.deletes d (items.flatMap (itemWrites w)) := by
  induction items generalizing d with
  | nil => rfl
  | cons item items ih =>
    rw [List.foldlM_cons, List.flatMap_cons, runWrites_append, copyItem_eq (h item (by simp))]
    cases runWrites w.deletes d (itemWrites w item) with
    | none => rfl
    | some d => exact ih fun x hx => h x (by simp [hx])

/-- In the loop `copyTo` writes files. -/
theorem itemWrites_whole (hx : x ∈ itemWrites w item) (hhow : x.how = .whole) : x.content ≠ none := by
  unfold itemWrites at hx
  split at hx
  · obtain ⟨e, -, rfl⟩ := List.mem_map.mp hx
    cases hhow
  · rw [List.mem_singleton.mp hx]
    exact Option.some_ne_none _
  · split at hx
    · rcases List.mem_cons.mp hx with rfl | hx
      · cases hhow
      · split at hx
        · cases hx
        · rw [documentWrites_stream _ _ hx] at hhow
          cases hhow
    · split at hx
      · rw [List.mem_singleton.mp hx] at hhow
        cases hhow
      · cases hx
  · cases hx

/-- The new directory has nothing in it. -/
theorem fresh_blank : Blank w.stagingDir w.fresh := by
  have hother : ∀ {q}, q ≠ w.stagingDir → w.fresh q = w.disk q := fun h => if_neg h
  have hself : w.fresh w.stagingDir = some .dir := if_pos rfl
  refine ⟨fun p q hpq hne hq => ?_, hself, fun q hbelow hq => ?_⟩
  · by_cases hq' : q = w.stagingDir
    · subst hq'
      rw [hother hne]
      exact w.sound.grounded w.cache p ((List.prefix_concat_iff.mp hpq).resolve_left hne)
    · rw [hother hq'] at hq
      have hdir := w.sound p q hpq hne hq
      have hp : p ≠ w.stagingDir := by
        rintro rfl
        rw [World.stagingDir, w.new] at hdir
        cases hdir
      rw [hother hp, hdir]
  · by_contra hq'
    rw [hother hq'] at hq
    have hdir := w.sound _ _ hbelow (Ne.symm hq') hq
    rw [World.stagingDir, w.new] at hdir
    cases hdir

/-- A path in the directory goes through one of its names. -/
theorem name_above {p : Disk.Path Text} (hbelow : w.stagingDir <+: p) (hne : p ≠ w.stagingDir) :
    w.stagingDir <+: p.take (w.stagingDir.length + 1) ∧ w.stagingDir ≠ p.take (w.stagingDir.length + 1) := by
  have hlt : w.stagingDir.length < p.length := by
    refine Nat.lt_of_le_of_ne hbelow.length_le fun hlen => hne ?_
    exact (hbelow.eq_of_length hlen).symm
  have htake : (p.take (w.stagingDir.length + 1)).length = w.stagingDir.length + 1 := by
    rw [List.length_take]
    omega
  refine ⟨List.prefix_of_prefix_length_le hbelow (List.take_prefix _ p) (by omega), fun heq => ?_⟩
  have hlen := congrArg List.length heq
  omega

/-! ## The directory and the single file -/

/-- Several items, or a folder. -/
theorem prepareAll_serves_iff (hreadable : ∀ item ∈ items, Readable w item) :
    Serves w items (prepareAll w items) ↔ Together w items := by
  have hwhole : ∀ x ∈ items.flatMap (itemWrites w), x.how = .whole → x.content ≠ none := by
    intro x hx
    obtain ⟨item, hitem, hx⟩ := List.mem_flatMap.mp hx
    exact itemWrites_whole hx
  have hkept := writes_kept_iff w.deletes (fresh_blank (w := w)) hwhole
  unfold Serves prepareAll
  rw [foldlM_copyItem hreadable]
  constructor
  · intro hall
    obtain ⟨d, dest, hd, -, hplaced⟩ := hall
    split at hd
    · cases hd
    · rename_i d' hd'
      split at hd
      · rename_i hlists
        cases hd
        obtain ⟨x, hx, hlisted⟩ := List.any_eq_true.mp hlists
        simp only [Bool.and_eq_true, List.isPrefixOf_iff_prefix, decide_eq_true_eq] at hlisted
        obtain ⟨⟨hbelow, hne⟩, hthere⟩ := hlisted
        have hsound := (runWrites_any fresh_blank.sound hwhole hd').1
        have hrooted : d w.stagingDir = some .dir :=
          hsound _ _ (name_above hbelow hne).1 (name_above hbelow hne).2 (Option.isSome_iff_ne_none.mp hthere)
        refine ⟨hkept.mp ⟨d, hd', hrooted, fun y hy => ?_⟩, ?_⟩
        · obtain ⟨item, hitem, hy⟩ := List.mem_flatMap.mp hy
          exact hplaced item hitem y hy
        · obtain ⟨item, hitem, hx⟩ := List.mem_flatMap.mp hx
          exact ⟨item, hitem, x, hx, hne⟩
      · cases hd
  · intro h
    obtain ⟨d, hd, hrooted, hplaced⟩ := hkept.mpr h.apart
    have hsound := (runWrites_any fresh_blank.sound hwhole hd).1
    have hlists : w.lists items d = true := by
      obtain ⟨item, hitem, x, hx, hne⟩ := h.somewhere
      have hmem : x ∈ items.flatMap (itemWrites w) := List.mem_flatMap.mpr ⟨item, hitem, hx⟩
      obtain ⟨hbelow, hat⟩ := hplaced x hmem
      refine List.any_eq_true.mpr ⟨x, hmem, ?_⟩
      simp only [Bool.and_eq_true, List.isPrefixOf_iff_prefix, decide_eq_true_eq]
      refine ⟨⟨hbelow, hne⟩, Option.isSome_iff_ne_none.mpr ?_⟩
      have hsome : d x.path ≠ none := by
        rw [hat]
        exact Option.some_ne_none _
      by_cases hsame : x.path.take (w.stagingDir.length + 1) = x.path
      · rwa [hsame]
      · rw [hsound _ _ (List.take_prefix _ _) hsame hsome]
        exact Option.some_ne_none _
    rw [hd]
    refine ⟨d, [], if_pos hlists, fun p hp => ?_, fun item hitem x hx => ?_⟩
    · rw [List.mem_singleton.mp hp]
      exact hsound.grounded hrooted _ (List.prefix_append _ _)
    · exact hplaced x (List.mem_flatMap.mpr ⟨item, hitem, hx⟩)

/-- One write into the new directory. -/
theorem single_serves_iff {content : Option (List UInt8)} {how : How}
    (hwrites : itemWrites w item = [w.write item.dest content how])
    (hd : prepareSole w item = (Write.run w.deletes w.fresh (w.write item.dest content how)).map (·, item.dest)) :
    Serves w [item] (prepareSole w item) ↔
      ∃ d, Write.run w.deletes w.fresh (w.write item.dest content how) = some d ∧
        (∀ p ∈ (w.write item.dest content how).passes, d p = some .dir) ∧
        d (w.write item.dest content how).path = some (w.write item.dest content how).node := by
  simp only [Serves, hwrites, hd, List.mem_singleton, forall_eq, Option.map_eq_some_iff, Prod.mk.injEq]
  constructor
  · intro hall
    obtain ⟨d, dest, ⟨d', hd', rfl, rfl⟩, hpasses, -, hplaced⟩ := hall
    exact ⟨d', hd', hpasses, hplaced⟩
  · intro hall
    obtain ⟨d, hd', hpasses, hplaced⟩ := hall
    exact ⟨d, item.dest, ⟨d, hd', rfl, rfl⟩, hpasses, List.prefix_rfl, hplaced⟩

theorem treeWrites_path {target : List (PathStep Text)} {e : Entry Text UInt8} :
    (w.write (target ++ e.path.map .into) e.content .entry).path = goto w.stagingDir target ++ e.path := by
  have hpath : (w.write (target ++ e.path.map .into) e.content .entry).path =
      goto w.stagingDir (target ++ e.path.map .into) := rfl
  rw [hpath, goto_append, goto_names]

/-- A single item that is no folder. -/
theorem prepareSole_serves_iff (hreadable : Readable w item) (hfile : item.isFolder = false) :
    Serves w [item] (prepareSole w item) ↔ Alone w item := by
  have hsound : w.fresh.Sound := fresh_blank.sound
  unfold Readable at hreadable
  unfold Alone
  cases hlocal : w.localFile item with
  | some file =>
    cases file with
    | file content =>
      have hwrites : itemWrites w item = [w.write item.dest (some content) .whole] := by rw [itemWrites, hlocal]
      rw [single_serves_iff hwrites (by rw [prepareSole, hlocal])]
      exact Write.copies_iff hsound rfl rfl
    | dir below hbelow =>
      have hd : prepareSole w item =
          (Write.run w.deletes w.fresh (w.write item.dest none .whole)).map (·, item.dest) := by
        rw [prepareSole, hlocal]
      have hwrites : itemWrites w item = w.treeWrites item.dest below := by rw [itemWrites, hlocal]
      simp only [Serves, hd, hwrites, List.mem_singleton, forall_eq, Option.map_eq_some_iff, Prod.mk.injEq]
      rw [← Write.makes_iff hsound rfl rfl]
      constructor
      · intro hall
        obtain ⟨d, dest, ⟨d', hd', rfl, rfl⟩, hpasses, hplaced⟩ := hall
        have hroot := (hplaced _ List.mem_cons_self).2
        rw [treeWrites_path, List.append_nil] at hroot
        refine ⟨?_, d', hd', hpasses, hroot⟩
        cases below with
        | nil => rfl
        | cons e below =>
          have hat := (hplaced (w.write (item.dest ++ e.path.map .into) e.content .entry)
            (List.mem_map_of_mem (List.mem_cons_of_mem _ List.mem_cons_self))).2
          have hne := hbelow e List.mem_cons_self
          have hnone : d' (goto w.stagingDir item.dest ++ e.path) = none :=
            Write.made_bare hsound rfl rfl hd' (List.prefix_append _ _) fun h => hne (List.append_right_eq_self.mp h)
          rw [treeWrites_path, hnone] at hat
          cases hat
      · intro hall
        obtain ⟨rfl, d, hd', hpasses, hplaced⟩ := hall
        refine ⟨d, item.dest, ⟨d, hd', rfl, rfl⟩, hpasses, fun x hx => ?_⟩
        rw [World.treeWrites, List.map_singleton, List.mem_singleton] at hx
        subst hx
        rw [treeWrites_path, List.append_nil]
        exact ⟨List.prefix_rfl, hplaced⟩
  | none =>
    cases huri : item.uri with
    | none =>
      rw [hlocal, huri] at hreadable
      exact hreadable.elim
    | some uri =>
      rw [hlocal, huri] at hreadable
      simp only [hfile, Bool.false_eq_true, if_false] at hreadable
      obtain ⟨content, hstream⟩ := hreadable
      have hwrites : itemWrites w item = [w.write item.dest (some content) .stream] := by
        simp only [itemWrites, hlocal, huri, hfile, Bool.false_eq_true, if_false, hstream]
      rw [single_serves_iff hwrites (by simp only [prepareSole, hlocal, huri, hstream, copyStream])]
      simp only [hstream]
      exact Write.opens_iff

/-- What is prepared of any items. -/
theorem kept_iff (hreadable : ∀ item ∈ items, Readable w item) : Kept w items ↔ Spared w items := by
  unfold Kept
  match items with
  | [] =>
    refine iff_of_false ?_ fun h => h
    intro hall
    obtain ⟨d, dest, h, -⟩ := hall
    cases h
  | [item] =>
    by_cases hfolder : item.isFolder = true
    · rw [prepareStagingDirectory, Spared, if_pos hfolder, if_pos hfolder]
      exact prepareAll_serves_iff hreadable
    · rw [prepareStagingDirectory, Spared, if_neg hfolder, if_neg hfolder]
      exact prepareSole_serves_iff (hreadable item (by simp)) (by simpa using hfolder)
  | a :: b :: rest => exact prepareAll_serves_iff hreadable

end

/-! ## After any calls -/

/-- **Staging keeps every item just when the items are spared one another.** -/
theorem staging_kept_iff {υ : Type} [DecidableEq υ] (w : World υ) (calls : List (Call υ))
    (hreadable : ∀ item ∈ staged calls, Readable w item) : Kept w (staged calls) ↔ Spared w (staged calls) :=
  kept_iff hreadable

/-- Two documents of one byte and of two, a disk with nothing but the cache directory, and
a file system that takes names of at most 255 units. -/
def documents : World Nat where
  localFiles _ := none
  streams uri := .opened (if uri = 0 then [1] else [2, 2])
  trees _ := none
  disk p := if p = [] ∨ p = [text "cache"] then some .dir else none
  cacheDir := [text "cache"]
  stamp := text "staging_1"
  deletes _ := false
  fits p := p.all fun c => c.length ≤ 255
  sound := by
    intro p q hpq hne hq
    have hq' : q = [text "cache"] := by
      simp only at hq
      split at hq
      · rename_i h
        rcases h with rfl | rfl
        · exact absurd (List.prefix_nil.mp hpq) hne
        · rfl
      · exact absurd rfl hq
    subst hq'
    rcases List.prefix_concat_iff.mp (show p <+: [] ++ [text "cache"] from hpq) with rfl | hp
    · exact absurd rfl hne
    · rw [List.prefix_nil.mp hp]
      rfl
  cache := by decide +kernel
  new := by decide +kernel

def document (id displayName : String) (sizeBytes : Int) (uri : Nat) : StagedItem Nat :=
  ⟨text id, text displayName, sizeBytes, some uri, none, false⟩

theorem documents_readable (calls : List (Call Nat))
    (h : ∀ item ∈ staged calls, item.uri.isSome = true ∧ item.isFolder = false ∧ item.localFile = none) :
    ∀ item ∈ staged calls, Readable documents item := by
  intro item hitem
  obtain ⟨huri, hfile, hlocal⟩ := h item hitem
  obtain ⟨uri, huri⟩ := Option.isSome_iff_exists.mp huri
  simp only [Readable, World.localFile, hlocal, Option.bind_none, huri, hfile, Bool.false_eq_true, if_false]
  exact ⟨_, rfl⟩

/-- One is taken back and staged again under another name. -/
def renamed : List (Call Nat) :=
  [.addItem (document "1" "a.txt" 1 0), .addItem (document "2" "a.txt" 2 1), .removeItem (text "2"),
    .addItem (document "3" "b.txt" 2 1)]

theorem renamed_staged : staged renamed = [document "1" "a.txt" 1 0, document "3" "b.txt" 2 1] := rfl

theorem renamed_kept : Kept documents (staged renamed) := by
  have hreadable := documents_readable renamed (by rw [renamed_staged]; simp [document])
  refine (staging_kept_iff documents renamed hreadable).mpr ?_
  rw [renamed_staged]
  have hwrites : [document "1" "a.txt" 1 0, document "3" "b.txt" 2 1].flatMap (itemWrites documents) =
      [⟨documents.cacheDir, [.into (text "staging_1"), .into (text "a.txt")], some [1], true, .stream⟩,
        ⟨documents.cacheDir, [.into (text "staging_1"), .into (text "b.txt")], some [2, 2], true, .stream⟩] := rfl
  refine ⟨?_, document "1" "a.txt" 1 0, by simp, _, List.mem_singleton_self _, by decide +kernel⟩
  rw [hwrites]
  refine ⟨?_, fun x hx y hy => ?_, ?_, ?_, fun done x rest hlist _ p hp => .inl ?_⟩
  · simp only [List.mem_cons, List.not_mem_nil, or_false, forall_eq_or_imp, forall_eq]
    decide +kernel
  · simp only [List.mem_cons, List.not_mem_nil, or_false] at hx hy
    rcases hx with rfl | rfl <;> rcases hy with rfl | rfl
    · exact ⟨fun _ => rfl, fun _ _ => rfl, fun _ _ => rfl⟩
    · exact ⟨by decide +kernel, by decide +kernel, by decide +kernel⟩
    · exact ⟨by decide +kernel, by decide +kernel, by decide +kernel⟩
    · exact ⟨fun _ => rfl, fun _ _ => rfl, fun _ _ => rfl⟩
  · simp only [List.mem_cons, List.not_mem_nil, or_false, forall_eq_or_imp, forall_eq]
    decide +kernel
  · simp only [List.mem_cons, List.not_mem_nil, or_false, forall_eq_or_imp, forall_eq]
    exact ⟨(fun h => by cases h), (fun h => by cases h)⟩
  · have hx : x ∈ done ++ x :: rest := by simp
    rw [← hlist, List.mem_cons, List.mem_singleton] at hx
    have hpasses : x.passes = [documents.cacheDir, documents.stagingDir] := by rcases hx with rfl | rfl <;> rfl
    rw [hpasses, List.mem_cons, List.mem_singleton] at hp
    rcases hp with rfl | rfl
    · exact fresh_blank.sound.grounded fresh_blank.rooted _ (List.prefix_append _ _)
    · exact fresh_blank.rooted

/-- Two documents of one name, of which the sizes differ. -/
def sameName : List (Call Nat) := [.addItem (document "1" "a.txt" 1 0), .addItem (document "2" "a.txt" 2 1)]

theorem sameName_staged : staged sameName = [document "1" "a.txt" 1 0, document "2" "a.txt" 2 1] := rfl

theorem same_name_overwritten : ¬ ∀ (w : World Nat) (calls : List (Call Nat)), staged calls ≠ [] →
    (∀ item ∈ staged calls, Readable w item) → Kept w (staged calls) := by
  intro h
  have hreadable := documents_readable sameName (by rw [sameName_staged]; simp [document])
  obtain ⟨d, dest, -, -, hplaced⟩ := h documents sameName (by rw [sameName_staged]; simp) hreadable
  rw [sameName_staged] at hplaced
  have hfirst := (hplaced (document "1" "a.txt" 1 0) (by simp)
    (documents.write [.into (text "a.txt")] (some [1]) .stream) (List.mem_singleton_self _)).2
  have hsecond := (hplaced (document "2" "a.txt" 2 1) (by simp)
    (documents.write [.into (text "a.txt")] (some [2, 2]) .stream) (List.mem_singleton_self _)).2
  have hsame : some (Node.file [1]) = some (Node.file ([2, 2] : List UInt8)) := hfirst.symm.trans hsecond
  revert hsame
  decide

end Nxfr.Staging

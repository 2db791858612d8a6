/-
`scan_send_path` (`nxfr-ffi/src/lib.rs`) where there are symbolic links.

`is_dir` and `is_file` follow links, so the walk goes through every link to a
directory as if it were one, and a link to a directory above itself it goes
through again and again. What ends it is the system, which follows only so
many links in one path: to a path with more, both say no. They say the same of a
path that is too long for the system, or that it refuses to look up. So the walk
lists each path below the base that the system takes for a directory or a file,
and each of them once (`mem_visits`, `visits_once`), unless a directory or a file
cannot be read: then it fails (`walkDirectory_reads`, `walkDirectory_fails`). The
ids are counted in 32 bits.

Where what is shown is a tree, the scan is the one of the mobile sender
(`scan_listing`).
-/
import Nxfr.Links
import Nxfr.ScanFacts

namespace Nxfr.LinkedScan

open Links

/-- A file system: what is at each real path, the bytes of what is a regular
file, and the names of each directory in the order of `read_dir`. It is finite. -/
structure Volume (ν : Type) where
  tree : Links.Tree ν
  content : List ν → Option Bytes
  names : List ν → List ν
  once : ∀ d, (names d).Nodup
  listed : ∀ d c, c ∈ names d ↔ tree.entry (d ++ [c]) ≠ none
  depth : Nat
  shallow : ∀ p, tree.entry p ≠ none → p.length ≤ depth

/-- `LocalSendEntry`, with its `full_path` below the base. -/
structure LocatedEntry (ν : Type) extends LocalSendEntry where
  fullPath : List ν
  deriving DecidableEq

section

variable {ν : Type} [DecidableEq ν]

/-- The volume, how many links are followed in a path, and the base. A name has a
size in bytes, and so has the base; a path has fewer than `pathMax`, and the system
may refuse to look one up. `dirError` is how `read_dir` of a path, or an entry of it,
fails, and `fileError` how the file there fails to be opened or read. -/
structure Place (ν : Type) where
  volume : Volume ν
  limit : Nat
  base : List (Step ν)
  baseSize : Nat
  size : ν → Nat
  pathMax : Nat
  refused : List ν → Bool
  dirError : List ν → Option String
  fileError : List ν → Option String

variable (s : Place ν)

/-- The bytes of the path of names below the base, each behind a slash. -/
def Place.pathSize : List ν → Nat
  | [] => s.baseSize
  | c :: p => s.size c + 1 + Place.pathSize p

/-- The system looks up a path of names below the base. -/
def Place.looks (p : List ν) : Bool := decide (s.pathSize p < s.pathMax) && p.inits.all fun q => !s.refused q

/-- Where the path of names below the base leads. -/
def Place.follow (p : List ν) : Links.Outcome ν :=
  if s.looks p then s.volume.tree.resolve s.limit [] (s.base ++ p.map .name) else .notDir

/-- `is_dir` -/
def Place.isDir (p : List ν) : Bool := match s.follow p with
  | .found _ d => decide (s.volume.tree.entry d = some .dir)
  | _ => false

/-- `is_file`, with the bytes that are read. -/
def Place.fileAt (p : List ν) : Option Bytes := match s.follow p with
  | .found _ r => if s.volume.tree.entry r = some .file then s.volume.content r else none
  | _ => none

def Place.readDir (p : List ν) : List ν := match s.follow p with
  | .found _ d => s.volume.names d
  | _ => []

variable (x : Ext) (lossy : ν → String)

/-- The entry of a directory. -/
def dirEntry (fileId : UInt32) (path : List ν) : LocatedEntry ν :=
  { fileId := fileId.toNat, relativePath := joinSlash (path.map lossy), data := [], size := 0, sha256 := zeroDigest
    isDir := true, fullPath := path }

/-- The entry of a file. -/
def fileEntry (fileId : UInt32) (path : List ν) (data : Bytes) : LocatedEntry ν :=
  { fileId := fileId.toNat, relativePath := joinSlash (path.map lossy), data, size := data.length
    sha256 := x.sha256 data, isDir := false, fullPath := path }

/-- `walk_directory`, which has not ended where there is no fuel left. -/
def walkDirectory : Nat → List ν → List (LocatedEntry ν) × UInt32 →
    ExceptT String Option (List (LocatedEntry ν) × UInt32)
  | 0, _, _ => ExceptT.mk none
  | fuel + 1, current, acc => match s.dirError current with
    | some e => throw e
    | none => (s.readDir current).foldlM (fun (entries, nextId) c =>
      let path := current ++ [c]
      if s.isDir path then walkDirectory fuel path (entries ++ [dirEntry lossy nextId path], nextId + 1)
      else match s.fileAt path, s.fileError path with
        | some _, some e => throw e
        | some data, none => return (entries ++ [fileEntry x lossy nextId path data], nextId + 1)
        | none, _ => return (entries, nextId)) acc

variable (baseText : String) (fileName : Option String)

/-- `scan_send_path`. `fileName` is the last name of the base, if it is text. -/
def scanSendPath (fuel : Nat) : Option (Except String (String × List (LocatedEntry ν))) := match s.follow [] with
  | .found _ r =>
    if s.volume.tree.entry r = some .dir then
      (walkDirectory s x lossy fuel [] ([], 1)).run.map fun result => match result with
        | .error e => .error e
        | .ok (entries, _) =>
          if entries = [] then .error "directory is empty" else .ok (fileName.getD "transfer", entries)
    else match s.fileAt [], s.fileError [] with
      | some _, some e => some (.error e)
      | some data, none =>
        let name := fileName.getD "file"
        some (.ok (name, [{ fileEntry x lossy 1 [] data with relativePath := name }]))
      | none, _ => some (.error "Not a directory (os error 20)")
  | _ => some (.error ("path does not exist: " ++ baseText))

end

/-! ## What the walk comes to -/

/-- A path that is taken for a directory or a file, with its bytes. -/
abbrev Seen (ν : Type) := Disk.Entry ν UInt8

section

variable {α β : Type}

/-- What a function gives for each of a list, one after the other. -/
def gather (f : α → Option (List β)) : List α → Option (List β)
  | [] => some []
  | a :: as => (f a).bind fun bs => (gather f as).map (bs ++ ·)

theorem gather_cons_some {f : α → Option (List β)} {a : α} {as : List α} {bs : List β}
    (h : gather f (a :: as) = some bs) : ∃ b rest, f a = some b ∧ gather f as = some rest ∧ bs = b ++ rest := by
  simp only [gather, Option.bind_eq_some_iff, Option.map_eq_some_iff] at h
  obtain ⟨b, hb, rest, hrest, heq⟩ := h
  exact ⟨b, rest, hb, hrest, heq.symm⟩

theorem gather_isSome {f : α → Option (List β)} {as : List α} (h : ∀ a ∈ as, (f a).isSome) : (gather f as).isSome := by
  induction as with
  | nil => rfl
  | cons a as ih =>
    obtain ⟨b, hb⟩ := Option.isSome_iff_exists.mp (h a (by simp))
    obtain ⟨bs, hbs⟩ := Option.isSome_iff_exists.mp (ih fun a' ha => h a' (by simp [ha]))
    simp [gather, hb, hbs]

theorem mem_gather {f : α → Option (List β)} {as : List α} {bs : List β} (h : gather f as = some bs) (b : β) :
    b ∈ bs ↔ ∃ a ∈ as, ∃ part, f a = some part ∧ b ∈ part := by
  induction as generalizing bs with
  | nil =>
    cases h
    simp
  | cons a as ih =>
    obtain ⟨part, rest, hpart, hrest, heq⟩ := gather_cons_some h
    rw [heq, List.mem_append, ih hrest]
    constructor
    · intro hb
      rcases hb with hb | ⟨a', ha', part', hpart', hb⟩
      · exact ⟨a, by simp, part, hpart, hb⟩
      · exact ⟨a', by simp [ha'], part', hpart', hb⟩
    · intro ⟨a', ha', part', hpart', hb⟩
      rcases List.mem_cons.mp ha' with heq' | ha'
      · rw [heq', hpart, Option.some.injEq] at hpart'
        exact .inl (hpart' ▸ hb)
      · exact .inr ⟨a', ha', part', hpart', hb⟩

theorem gather_part {f : α → Option (List β)} {as : List α} {bs : List β} (h : gather f as = some bs) (a : α)
    (ha : a ∈ as) : (f a).isSome := by
  induction as generalizing bs with
  | nil => cases ha
  | cons a' as ih =>
    obtain ⟨part, rest, hpart, hrest, -⟩ := gather_cons_some h
    rcases List.mem_cons.mp ha with heq | ha
    · rw [heq, hpart]
      rfl
    · exact ih hrest ha

/-- Keys that are apart in each part, and tell the parts, are apart. -/
theorem gather_nodup {γ δ : Type} (key : β → γ) (tell : γ → Option δ) (name : α → δ)
    {f : α → Option (List β)} {as : List α} {bs : List β} (hparts : ∀ a part, f a = some part → (part.map key).Nodup)
    (htell : ∀ a part, f a = some part → ∀ b ∈ part, tell (key b) = some (name a)) (hnodup : (as.map name).Nodup)
    (h : gather f as = some bs) : (bs.map key).Nodup := by
  induction as generalizing bs with
  | nil =>
    cases h
    exact List.nodup_nil
  | cons a as ih =>
    obtain ⟨part, rest, hpart, hrest, heq⟩ := gather_cons_some h
    rw [List.map_cons, List.nodup_cons] at hnodup
    rw [heq, List.map_append, List.nodup_append]
    refine ⟨hparts a part hpart, ih hnodup.2 hrest, ?_⟩
    intro k hk k' hk' hsame
    obtain ⟨b, hb, hkey⟩ := List.mem_map.mp hk
    obtain ⟨b', hb', hkey'⟩ := List.mem_map.mp hk'
    obtain ⟨a', ha', part', hpart', hmem⟩ := (mem_gather hrest b').mp hb'
    have hname := htell a part hpart b hb
    rw [hkey, hsame, ← hkey', htell a' part' hpart' b' hmem, Option.some.injEq] at hname
    exact hnodup.1 (hname ▸ List.mem_map_of_mem ha')

theorem gather_congr {f g : α → Option (List β)} {as : List α} {bs : List β}
    (hfg : ∀ a ∈ as, ∀ part, f a = some part → g a = some part) (h : gather f as = some bs) : gather g as = some bs := by
  induction as generalizing bs with
  | nil => exact h
  | cons a as ih =>
    obtain ⟨part, rest, hpart, hrest, heq⟩ := gather_cons_some h
    rw [gather, hfg a (by simp) part hpart, ih (fun a' ha => hfg a' (by simp [ha])) hrest, heq]
    rfl

end

section

variable {ν : Type} [DecidableEq ν] (s : Place ν)

/-- The paths below `current`, in the order of the walk. -/
def visits : Nat → List ν → Option (List (Seen ν))
  | 0, _ => none
  | fuel + 1, current =>
    gather (fun c =>
      let path := current ++ [c]
      if s.isDir path then (visits fuel path).map (⟨path, none⟩ :: ·)
      else some ((s.fileAt path).toList.map fun data => ⟨path, some data⟩)) (s.readDir current)

variable {s} {x : Ext} {lossy : ν → String} {fuel : Nat} {current p : List ν} {ns : List (Seen ν)}

/-- The entry of what the walk sees. -/
def locatedEntry (x : Ext) (lossy : ν → String) (fileId : UInt32) (n : Seen ν) : LocatedEntry ν :=
  match n.content with
  | none => dirEntry lossy fileId n.path
  | some data => fileEntry x lossy fileId n.path data

/-- The entries of what the walk sees, numbered from an id on. -/
def countedFrom (x : Ext) (lossy : ν → String) : UInt32 → List (Seen ν) → List (LocatedEntry ν)
  | _, [] => []
  | id, n :: ns => locatedEntry x lossy id n :: countedFrom x lossy (id + 1) ns

omit [DecidableEq ν] in
theorem countedFrom_append (id : UInt32) (ns₁ ns₂ : List (Seen ν)) :
    countedFrom x lossy id (ns₁ ++ ns₂) =
      countedFrom x lossy id ns₁ ++ countedFrom x lossy (id + UInt32.ofNat ns₁.length) ns₂ := by
  induction ns₁ generalizing id with
  | nil => simp [countedFrom]
  | cons n ns₁ ih =>
    have hid : id + 1 + UInt32.ofNat ns₁.length = id + UInt32.ofNat (ns₁.length + 1) := by
      rw [UInt32.ofNat_add, UInt32.add_assoc, UInt32.add_comm 1]
      rfl
    simp only [List.cons_append, countedFrom, ih, List.length_cons, hid]

/-- A count that goes on. -/
def counted (x : Ext) (lossy : ν → String) (acc : List (LocatedEntry ν) × UInt32) (ns : List (Seen ν)) :
    List (LocatedEntry ν) × UInt32 :=
  (acc.1 ++ countedFrom x lossy acc.2 ns, acc.2 + UInt32.ofNat ns.length)

omit [DecidableEq ν] in
theorem counted_append (acc : List (LocatedEntry ν) × UInt32) (ns₁ ns₂ : List (Seen ν)) :
    counted x lossy acc (ns₁ ++ ns₂) = counted x lossy (counted x lossy acc ns₁) ns₂ := by
  simp only [counted, countedFrom_append, List.append_assoc, List.length_append, UInt32.ofNat_add, UInt32.add_assoc]

/-- What the walk sees can be read. -/
def Place.Reads (s : Place ν) (n : Seen ν) : Prop := match n.content with
  | none => s.dirError n.path = none
  | some _ => s.fileError n.path = none

omit [DecidableEq ν] in
/-- A loop whose turns count what each name gives counts what they all give. -/
theorem foldlM_counted
    {step : List (LocatedEntry ν) × UInt32 → ν → ExceptT String Option (List (LocatedEntry ν) × UInt32)}
    {f : ν → Option (List (Seen ν))} {names : List ν}
    (hstep : ∀ c ∈ names, ∀ acc part, f c = some part → (step acc c).run = some (.ok (counted x lossy acc part)))
    (h : gather f names = some ns) (acc : List (LocatedEntry ν) × UInt32) :
    (names.foldlM step acc).run = some (.ok (counted x lossy acc ns)) := by
  induction names generalizing acc ns with
  | nil =>
    cases h
    simp [counted, countedFrom]
  | cons c names ih =>
    obtain ⟨part, rest, hpart, hrest, rfl⟩ := gather_cons_some h
    rw [List.foldlM_cons, ExceptT.run_bind, hstep c (by simp) acc part hpart]
    simp only [Option.bind_eq_bind, Option.bind_some]
    rw [ih (fun c hc => hstep c (by simp [hc])) hrest, counted_append]

omit [DecidableEq ν] in
/-- A loop fails where a turn does that comes after turns that count. -/
theorem foldlM_fails (good : ν → Prop)
    {step : List (LocatedEntry ν) × UInt32 → ν → ExceptT String Option (List (LocatedEntry ν) × UInt32)}
    {f : ν → Option (List (Seen ν))} {names : List ν}
    (hgood : ∀ c ∈ names, good c → ∀ acc part, f c = some part → (step acc c).run = some (.ok (counted x lossy acc part)))
    (hbad : ∀ c ∈ names, ¬ good c → ∀ acc, ∃ e, (step acc c).run = some (.error e))
    (h : gather f names = some ns) (hsome : ∃ c ∈ names, ¬ good c) (acc : List (LocatedEntry ν) × UInt32) :
    ∃ e, (names.foldlM step acc).run = some (.error e) := by
  induction names generalizing acc ns with
  | nil =>
    obtain ⟨c, hc, -⟩ := hsome
    cases hc
  | cons c names ih =>
    obtain ⟨part, rest, hpart, hrest, -⟩ := gather_cons_some h
    rw [List.foldlM_cons, ExceptT.run_bind]
    by_cases hc : good c
    · rw [hgood c (by simp) hc acc part hpart]
      simp only [Option.bind_eq_bind, Option.bind_some]
      obtain ⟨c', hc', hnot⟩ := hsome
      have hmem : c' ∈ names := (List.mem_cons.mp hc').resolve_left fun heq => hnot (heq ▸ hc)
      exact ih (fun c hc => hgood c (by simp [hc])) (fun c hc => hbad c (by simp [hc])) hrest ⟨c', hmem, hnot⟩ _
    · obtain ⟨e, he⟩ := hbad c (by simp) hc acc
      rw [he]
      exact ⟨e, rfl⟩

omit [DecidableEq ν] in
/-- A loop whose turns end as those of another ends as it does. -/
theorem foldlM_mono {step step' : List (LocatedEntry ν) × UInt32 → ν → ExceptT String Option (List (LocatedEntry ν) × UInt32)}
    {names : List ν} {acc : List (LocatedEntry ν) × UInt32} {result : Except String (List (LocatedEntry ν) × UInt32)}
    (hstep : ∀ acc c result, (step acc c).run = some result → (step' acc c).run = some result)
    (h : (names.foldlM step acc).run = some result) : (names.foldlM step' acc).run = some result := by
  induction names generalizing acc with
  | nil => exact h
  | cons c names ih =>
    rw [List.foldlM_cons, ExceptT.run_bind] at h ⊢
    cases hturn : (step acc c).run with
    | none =>
      rw [hturn] at h
      cases h
    | some turned =>
      rw [hturn] at h
      rw [hstep acc c turned hturn]
      cases turned with
      | error e => exact h
      | ok acc' => exact ih h

/-- The turn of the loop for a name. -/
def turn (s : Place ν) (x : Ext) (lossy : ν → String) (fuel : Nat) (current : List ν)
    (acc : List (LocatedEntry ν) × UInt32) (c : ν) : ExceptT String Option (List (LocatedEntry ν) × UInt32) :=
  if s.isDir (current ++ [c]) then
    walkDirectory s x lossy fuel (current ++ [c]) (counted x lossy acc [⟨current ++ [c], none⟩])
  else match s.fileAt (current ++ [c]), s.fileError (current ++ [c]) with
    | some _, some e => throw e
    | some data, none => return counted x lossy acc [⟨current ++ [c], some data⟩]
    | none, _ => return acc

theorem walkDirectory_succ (fuel : Nat) (current : List ν) (acc : List (LocatedEntry ν) × UInt32) :
    walkDirectory s x lossy (fuel + 1) current acc = match s.dirError current with
      | some e => throw e
      | none => (s.readDir current).foldlM (turn s x lossy fuel current) acc := rfl

/-- What a name adds to what the walk sees. -/
def added (s : Place ν) (fuel : Nat) (current : List ν) (c : ν) : Option (List (Seen ν)) :=
  if s.isDir (current ++ [c]) then (visits s fuel (current ++ [c])).map (⟨current ++ [c], none⟩ :: ·)
  else some ((s.fileAt (current ++ [c])).toList.map fun data => ⟨current ++ [c], some data⟩)

theorem visits_succ (fuel : Nat) (current : List ν) :
    visits s (fuel + 1) current = gather (added s fuel current) (s.readDir current) := rfl

/-- A turn counts what its name adds, where that can be read. -/
theorem turn_reads (hwalk : ∀ {current ns}, visits s fuel current = some ns → s.dirError current = none →
      (∀ n ∈ ns, s.Reads n) → ∀ acc, (walkDirectory s x lossy fuel current acc).run = some (.ok (counted x lossy acc ns)))
    {c : ν} {part : List (Seen ν)} (hpart : added s fuel current c = some part) (hreads : ∀ n ∈ part, s.Reads n)
    (acc : List (LocatedEntry ν) × UInt32) :
    (turn s x lossy fuel current acc c).run = some (.ok (counted x lossy acc part)) := by
  unfold added at hpart
  unfold turn
  split
  · rename_i hdir
    rw [if_pos hdir] at hpart
    obtain ⟨inside, hin, rfl⟩ := Option.map_eq_some_iff.mp hpart
    rw [hwalk hin (hreads _ List.mem_cons_self) fun n hn => hreads n (List.mem_cons_of_mem _ hn)]
    exact congrArg (fun acc => some (Except.ok acc)) (counted_append acc [⟨current ++ [c], none⟩] inside).symm
  · rename_i hdir
    rw [if_neg hdir, Option.some.injEq] at hpart
    subst hpart
    cases hfile : s.fileAt (current ++ [c]) with
    | none =>
      simp [counted, countedFrom]
    | some data =>
      have hread : s.fileError (current ++ [c]) = none := hreads ⟨current ++ [c], some data⟩ (by simp [hfile])
      simp only [hread]
      rfl

/-- The walk numbers what it sees, where all of it can be read. -/
theorem walkDirectory_reads (h : visits s fuel current = some ns) (hcurrent : s.dirError current = none)
    (hreads : ∀ n ∈ ns, s.Reads n) (acc : List (LocatedEntry ν) × UInt32) :
    (walkDirectory s x lossy fuel current acc).run = some (.ok (counted x lossy acc ns)) := by
  induction fuel generalizing current acc ns with
  | zero => cases h
  | succ fuel ih =>
    rw [walkDirectory_succ]
    simp only [hcurrent]
    refine foldlM_counted (fun c hc acc part hpart => turn_reads ih hpart (fun n hn => ?_) acc) h acc
    exact hreads n ((mem_gather h n).mpr ⟨c, hc, part, hpart, hn⟩)

/-- The walk fails where something it sees cannot be read. -/
theorem walkDirectory_fails (h : visits s fuel current = some ns)
    (hfails : s.dirError current ≠ none ∨ ∃ n ∈ ns, ¬ s.Reads n) (acc : List (LocatedEntry ν) × UInt32) :
    ∃ e, (walkDirectory s x lossy fuel current acc).run = some (.error e) := by
  induction fuel generalizing current acc ns with
  | zero => cases h
  | succ fuel ih =>
    rw [walkDirectory_succ]
    cases hcurrent : s.dirError current with
    | some e => exact ⟨e, rfl⟩
    | none =>
      obtain ⟨n, hn, hnot⟩ := hfails.resolve_left fun hne => hne hcurrent
      obtain ⟨c, hc, part, hpart, hn⟩ := (mem_gather h n).mp hn
      refine foldlM_fails (fun c => ∀ part, added s fuel current c = some part → ∀ n ∈ part, s.Reads n)
        (fun c _ hgood acc part hpart => turn_reads walkDirectory_reads hpart (hgood part hpart) acc)
        (fun c _ hbad acc => ?_) h ⟨c, hc, fun hgood => hnot (hgood part hpart n hn)⟩ acc
      -- The turn of a name that adds something that cannot be read.
      simp only [not_forall] at hbad
      obtain ⟨part, hpart, n, hn, hnot⟩ := hbad
      unfold added at hpart
      unfold turn
      split
      · rename_i hdir
        rw [if_pos hdir] at hpart
        obtain ⟨inside, hin, rfl⟩ := Option.map_eq_some_iff.mp hpart
        refine ih hin ?_ _
        rcases List.mem_cons.mp hn with rfl | hn
        · exact .inl hnot
        · exact .inr ⟨n, hn, hnot⟩
      · rename_i hdir
        rw [if_neg hdir, Option.some.injEq] at hpart
        subst hpart
        obtain ⟨data, hdata, rfl⟩ := List.mem_map.mp hn
        rw [Option.mem_toList] at hdata
        obtain ⟨e, he⟩ := Option.ne_none_iff_exists'.mp (show s.fileError (current ++ [c]) ≠ none from hnot)
        simp only [hdata, he]
        exact ⟨e, rfl⟩

/-- More fuel changes nothing once the walk has ended. -/
theorem walkDirectory_mono {acc : List (LocatedEntry ν) × UInt32}
    {result : Except String (List (LocatedEntry ν) × UInt32)}
    (h : (walkDirectory s x lossy fuel current acc).run = some result) :
    (walkDirectory s x lossy (fuel + 1) current acc).run = some result := by
  induction fuel generalizing current acc result with
  | zero => cases h
  | succ fuel ih =>
    rw [walkDirectory_succ] at h ⊢
    cases hcurrent : s.dirError current with
    | some e =>
      rw [hcurrent] at h
      exact h
    | none =>
      rw [hcurrent] at h
      refine foldlM_mono (fun acc c result hturn => ?_) h
      unfold turn at hturn ⊢
      split
      · rename_i hdir
        rw [if_pos hdir] at hturn
        exact ih hturn
      · rename_i hdir
        rwa [if_neg hdir] at hturn

theorem walkDirectory_mono_le {fuel' : Nat} {acc : List (LocatedEntry ν) × UInt32}
    {result : Except String (List (LocatedEntry ν) × UInt32)} (hle : fuel ≤ fuel')
    (h : (walkDirectory s x lossy fuel current acc).run = some result) :
    (walkDirectory s x lossy fuel' current acc).run = some result := by
  induction hle with
  | refl => exact h
  | step _ ih => exact walkDirectory_mono ih

/-! ## What the walk sees -/

/-- What a path is taken for: a directory, a file with its bytes, or neither. -/
def Place.shows (s : Place ν) (p : List ν) : Option (Option Bytes) :=
  if s.isDir p then some none else (s.fileAt p).map some

theorem isDir_iff : s.isDir p = true ↔ ∃ left d, s.follow p = .found left d ∧ s.volume.tree.entry d = some .dir := by
  unfold Place.isDir
  split
  · rename_i left d h
    simp [h]
  · rename_i h
    simp only [Bool.false_eq_true, false_iff]
    intro ⟨left, d, hfound, _⟩
    exact h left d hfound

theorem fileAt_some_iff {data : Bytes} : s.fileAt p = some data ↔
    ∃ left r, s.follow p = .found left r ∧ s.volume.tree.entry r = some .file ∧ s.volume.content r = some data := by
  unfold Place.fileAt
  split
  · rename_i left r h
    simp [h]
  · rename_i h
    simp only [reduceCtorEq, false_iff]
    intro ⟨left, r, hfound, _⟩
    exact h left r hfound

omit [DecidableEq ν] in
theorem pathSize_append_le (p q : List ν) : s.pathSize p ≤ s.pathSize (p ++ q) := by
  induction p with
  | nil =>
    induction q with
    | nil => exact Nat.le_refl _
    | cons c q ih =>
      simp only [List.nil_append, Place.pathSize] at ih ⊢
      omega
  | cons c p ih =>
    simp only [List.cons_append, Place.pathSize]
    omega

omit [DecidableEq ν] in
/-- What is above a path that is looked up is looked up on the way. -/
theorem looks_above {q : List ν} (h : s.looks (p ++ q) = true) : s.looks p = true := by
  simp only [Place.looks, Bool.and_eq_true, decide_eq_true_eq, List.all_eq_true, List.mem_inits] at h ⊢
  obtain ⟨hsize, hall⟩ := h
  exact ⟨Nat.lt_of_le_of_lt (pathSize_append_le p q) hsize, fun q' hq' => hall q' (hq'.trans (List.prefix_append p q))⟩

theorem follow_looks {left : Nat} {r : List ν} (h : s.follow p = .found left r) : s.looks p = true := by
  by_contra hlooks
  rw [Place.follow, if_neg hlooks] at h
  cases h

theorem follow_append {q : List ν} (hlooks : s.looks (p ++ q) = true) : s.follow (p ++ q) =
    (s.follow p).bind (fun left d => s.volume.tree.resolve left d (q.map .name)) (q.map .name) := by
  rw [Place.follow, if_pos hlooks, Place.follow, if_pos (looks_above hlooks), List.map_append, ← List.append_assoc,
    Tree.resolve_append]

theorem follow_found {left : Nat} {r : List ν} {q : List ν} (h : s.follow (p ++ q) = .found left r) :
    ∃ l d, s.follow p = .found l d ∧ s.volume.tree.resolve l d (q.map .name) = .found left r := by
  rw [follow_append (follow_looks h)] at h
  cases hp : s.follow p with
  | found l d =>
    rw [hp] at h
    exact ⟨l, d, rfl, h⟩
  | missing l d c rest =>
    rw [hp] at h
    cases h
  | notDir =>
    rw [hp] at h
    cases h
  | loop =>
    rw [hp] at h
    cases h

/-- Above what a path leads to are directories, which list its names. -/
theorem follow_above {left : Nat} {r : List ν} {c : ν} {q : List ν} (h : s.follow (p ++ c :: q) = .found left r) :
    s.isDir p = true ∧ c ∈ s.readDir p := by
  obtain ⟨l, d, hp, hrest⟩ := follow_found h
  obtain ⟨hdir, hentry⟩ := Tree.resolve_name_cons hrest
  refine ⟨isDir_iff.mpr ⟨l, d, hp, hdir⟩, ?_⟩
  simpa only [Place.readDir, hp] using (s.volume.listed d c).mpr hentry

theorem shows_follow (h : s.shows p ≠ none) : ∃ left r, s.follow p = .found left r := by
  unfold Place.shows at h
  split at h
  · rename_i hdir
    obtain ⟨left, d, hfound, -⟩ := isDir_iff.mp hdir
    exact ⟨left, d, hfound⟩
  · have hsome : s.fileAt p ≠ none := by
      intro hnone
      rw [hnone] at h
      exact h rfl
    obtain ⟨data, hdata⟩ := Option.ne_none_iff_exists'.mp hsome
    obtain ⟨left, r, hfound, -⟩ := fileAt_some_iff.mp hdata
    exact ⟨left, r, hfound⟩

theorem visits_mono (h : visits s fuel current = some ns) : visits s (fuel + 1) current = some ns := by
  induction fuel generalizing current ns with
  | zero => cases h
  | succ fuel ih =>
    rw [visits_succ] at h ⊢
    refine gather_congr (fun c _ part hpart => ?_) h
    unfold added at hpart ⊢
    split
    · rename_i hdir
      rw [if_pos hdir, Option.map_eq_some_iff] at hpart
      obtain ⟨inside, hin, heq⟩ := hpart
      rw [ih hin, ← heq]
      rfl
    · rename_i hdir
      rwa [if_neg hdir] at hpart

theorem visits_mono_le {fuel' : Nat} (hle : fuel ≤ fuel') (h : visits s fuel current = some ns) :
    visits s fuel' current = some ns := by
  induction hle with
  | refl => exact h
  | step _ ih => exact visits_mono ih

/-- The walk sees what the paths below `current` are taken for. -/
theorem mem_visits (h : visits s fuel current = some ns) (n : Seen ν) :
    n ∈ ns ↔ ∃ c q, n.path = current ++ c :: q ∧ s.shows n.path = some n.content := by
  induction fuel generalizing current ns with
  | zero => cases h
  | succ fuel ih =>
    rw [visits_succ] at h
    rw [mem_gather h n]
    constructor
    · intro ⟨c, hc, part, hpart, hn⟩
      unfold added at hpart
      split at hpart
      · rename_i hdir
        obtain ⟨inside, hin, heq⟩ := Option.map_eq_some_iff.mp hpart
        rw [← heq] at hn
        rcases List.mem_cons.mp hn with hself | hn
        · exact ⟨c, [], by rw [hself], by rw [hself]; exact if_pos hdir⟩
        · obtain ⟨c', q, hpath, hshows⟩ := (ih hin).mp hn
          exact ⟨c, c' :: q, by rw [hpath, List.append_assoc]; rfl, hshows⟩
      · rename_i hdir
        cases hpart
        obtain ⟨data, hdata, heq⟩ := List.mem_map.mp hn
        rw [← heq]
        refine ⟨c, [], rfl, ?_⟩
        rw [Place.shows, if_neg hdir, Option.mem_toList.mp hdata]
        rfl
    · intro ⟨c, q, hpath, hshows⟩
      obtain ⟨left, r, hfound⟩ := shows_follow (by rw [hshows]; exact Option.some_ne_none _)
      rw [hpath] at hfound
      have hname := (follow_above hfound).2
      obtain ⟨part, hpart⟩ := Option.isSome_iff_exists.mp (gather_part h c hname)
      refine ⟨c, hname, part, hpart, ?_⟩
      unfold added at hpart
      cases q with
      | nil =>
        rw [hpath] at hshows
        have hself : n = ⟨current ++ [c], n.content⟩ := by
          rw [← hpath]
        unfold Place.shows at hshows
        split at hpart
        · rename_i hdir
          rw [if_pos hdir, Option.some.injEq] at hshows
          obtain ⟨inside, _, heq⟩ := Option.map_eq_some_iff.mp hpart
          rw [← heq, hself, ← hshows]
          exact List.mem_cons_self
        · rename_i hdir
          rw [if_neg hdir, Option.map_eq_some_iff] at hshows
          obtain ⟨data, hdata, heq⟩ := hshows
          cases hpart
          rw [hself, ← heq, hdata]
          exact List.mem_singleton.mpr rfl
      | cons c' q =>
        have hbelow : current ++ c :: c' :: q = (current ++ [c]) ++ c' :: q := by simp
        rw [hbelow] at hfound
        have hdir := (follow_above hfound).1
        rw [if_pos hdir] at hpart
        obtain ⟨inside, hin, heq⟩ := Option.map_eq_some_iff.mp hpart
        rw [← heq]
        exact List.mem_cons_of_mem _ ((ih hin).mpr ⟨c', q, hpath.trans hbelow, hshows⟩)

theorem visits_below (h : visits s fuel current = some ns) {n : Seen ν} (hn : n ∈ ns) :
    ∃ c q, n.path = current ++ c :: q := by
  obtain ⟨c, q, hpath, -⟩ := (mem_visits h n).mp hn
  exact ⟨c, q, hpath⟩

/-- The walk sees each path once. -/
theorem visits_once (h : visits s fuel current = some ns) : (ns.map (·.path)).Nodup := by
  induction fuel generalizing current ns with
  | zero => cases h
  | succ fuel ih =>
    rw [visits_succ] at h
    have honce : (s.readDir current).Nodup := by
      unfold Place.readDir
      split
      · exact s.volume.once _
      · exact List.nodup_nil
    refine gather_nodup (·.path) (fun path => path[current.length]?) id (fun c part hpart => ?_)
      (fun c part hpart n hn => ?_) (by rwa [List.map_id]) h
    · unfold added at hpart
      split at hpart
      · obtain ⟨inside, hin, heq⟩ := Option.map_eq_some_iff.mp hpart
        rw [← heq, List.map_cons, List.nodup_cons]
        refine ⟨fun hmem => ?_, ih hin⟩
        obtain ⟨n, hn, hpath⟩ := List.mem_map.mp hmem
        obtain ⟨c', q, hbelow⟩ := visits_below hin hn
        rw [hbelow] at hpath
        simp at hpath
      · cases hpart
        cases s.fileAt (current ++ [c]) with
        | none => exact List.nodup_nil
        | some data => exact List.nodup_singleton _
    · -- The name is what comes after `current` in each path below it.
      show n.path[current.length]? = some c
      unfold added at hpart
      split at hpart
      · obtain ⟨inside, hin, heq⟩ := Option.map_eq_some_iff.mp hpart
        rw [← heq] at hn
        rcases List.mem_cons.mp hn with hself | hn
        · rw [hself]
          simp
        · obtain ⟨c', q, hbelow⟩ := visits_below hin hn
          rw [hbelow]
          simp
      · cases hpart
        obtain ⟨data, -, heq⟩ := List.mem_map.mp hn
        rw [← heq]
        simp

/-! ## Why the walk ends -/

/-- What can still be followed from a directory with so many links left. -/
def Place.reach (s : Place ν) (left : Nat) (d : List ν) : Nat :=
  left * (s.volume.depth + 1) + (s.volume.depth - d.length)

/-- **The walk ends.** A link takes one of those that are left, a directory is
deeper than the one it is in, and no directory is deeper than the deepest. -/
theorem visits_isSome {left : Nat} {d : List ν} (hfound : s.follow current = .found left d)
    (hdir : s.volume.tree.entry d = some .dir) (hfuel : s.reach left d < fuel) : (visits s fuel current).isSome := by
  induction fuel generalizing current left d with
  | zero => omega
  | succ fuel ih =>
    rw [visits_succ]
    refine gather_isSome fun c _ => ?_
    unfold added
    split
    · rename_i hsub
      rw [Option.isSome_map]
      obtain ⟨left', d', hfound', hdir'⟩ := isDir_iff.mp hsub
      refine ih hfound' hdir' ?_
      obtain ⟨l, e, hcur, hname⟩ := follow_found hfound'
      rw [hfound] at hcur
      cases hcur
      have hentry := (Tree.resolve_name_cons hname).2
      have hdeep := s.volume.shallow _ hentry
      simp only [List.length_append, List.length_singleton] at hdeep
      unfold Place.reach at hfuel ⊢
      by_cases hlink : ∃ target, s.volume.tree.entry (d ++ [c]) = some (.link target)
      · obtain ⟨target, htarget⟩ := hlink
        have hless := Tree.resolve_link htarget hname
        have := Nat.mul_le_mul_right (s.volume.depth + 1) hless
        rw [Nat.succ_mul] at this
        omega
      · rw [List.map_singleton, Tree.resolve_name hentry fun target h => hlink ⟨target, h⟩] at hname
        cases hname
        simp only [List.length_append, List.length_singleton]
        omega
    · rfl

/-! ## Real paths and links -/

/-- A path that goes only through directories leads to where it says. -/
theorem follow_real {left : Nat} {r q : List ν} (hbase : s.follow [] = .found left r) (hlooks : s.looks q = true)
    (hentry : s.volume.tree.entry (r ++ q) ≠ none) (hlink : ∀ target, s.volume.tree.entry (r ++ q) ≠ some (.link target)) :
    s.follow q = .found left (r ++ q) := by
  rw [← List.nil_append q, follow_append hlooks, hbase]
  rcases List.eq_nil_or_concat q with hnil | ⟨q', c, hsnoc⟩
  · rw [hnil]
    simp only [List.map_nil, Outcome.bind, List.append_nil]
    cases left <;> simp [Tree.resolve, Tree.stride]
  · rw [List.concat_eq_append] at hsnoc
    rw [hsnoc, ← List.append_assoc] at hentry hlink
    have habove : ∀ ds, ds <+: q' → s.volume.tree.entry (r ++ ds) = some .dir := by
      intro ds hds
      obtain ⟨rest, hrest⟩ := hds
      have hlong : s.volume.tree.entry ((r ++ ds) ++ (rest ++ [c])) ≠ none := by
        rwa [← List.append_assoc, List.append_assoc r, hrest]
      exact s.volume.tree.entry_above hlong (by simp)
    rw [hsnoc, List.nil_append, List.map_append, Outcome.bind, Tree.resolve_append, Tree.resolve_dirs habove, Outcome.bind,
      List.map_singleton, Tree.resolve_name hentry hlink, List.append_assoc]

/-- The last name of the path is a link, and the path leads to a directory. -/
def Place.LinkToDir (s : Place ν) (p : List ν) : Prop :=
  s.isDir p = true ∧ ∃ q c left d target, p = q ++ [c] ∧ s.follow q = .found left d ∧
    s.volume.tree.entry (d ++ [c]) = some (.link target)

/-- No link to a directory is in the directories below the base. -/
def Place.NoDirLinks (s : Place ν) : Prop :=
  ∀ left r q c target, s.follow [] = .found left r → s.volume.tree.entry (r ++ q ++ [c]) = some (.link target) →
    s.isDir (q ++ [c]) = false

/-- Without such links a path to a directory goes only through directories. -/
theorem NoDirLinks.real (h : s.NoDirLinks) {left : Nat} {r : List ν} (hbase : s.follow [] = .found left r)
    (hdir : s.isDir p = true) : s.volume.tree.entry (r ++ p) = some .dir := by
  induction p using List.reverseRecOn with
  | nil =>
    obtain ⟨l, d, hfound, hentry⟩ := isDir_iff.mp hdir
    rw [hbase] at hfound
    cases hfound
    simpa using hentry
  | append_singleton q c ih =>
    obtain ⟨l, d, hfound, hentry⟩ := isDir_iff.mp hdir
    have hq := ih (follow_above hfound).1
    obtain ⟨l', d', hfollow, hname⟩ := follow_found hfound
    rw [follow_real hbase (follow_looks hfollow) (by simp [hq]) (by simp [hq])] at hfollow
    cases hfollow
    have hsome := (Tree.resolve_name_cons hname).2
    have hlink : ∀ target, s.volume.tree.entry (r ++ q ++ [c]) ≠ some (.link target) := by
      intro target htarget
      rw [h left r q c target hbase htarget] at hdir
      cases hdir
    rw [List.map_singleton, Tree.resolve_name hsome hlink] at hname
    cases hname
    rwa [List.append_assoc] at hentry

/-- Where a path to a directory goes through a link to one, the base has such a
link. -/
theorem no_linkToDir_iff {left : Nat} {r : List ν} (hbase : s.follow [] = .found left r) :
    s.NoDirLinks ↔ ∀ p, ¬ s.LinkToDir p := by
  constructor
  · intro h p ⟨hdir, q, c, l, d, target, hp, hfollow, htarget⟩
    rw [hp] at hdir
    obtain ⟨l', d', hfound, -⟩ := isDir_iff.mp hdir
    have hq := NoDirLinks.real h hbase (follow_above hfound).1
    rw [follow_real hbase (follow_looks hfollow) (by simp [hq]) (by simp [hq])] at hfollow
    cases hfollow
    rw [h left r q c target hbase htarget] at hdir
    cases hdir
  · intro h left' r' q c target hbase' htarget
    by_contra hdir
    rw [Bool.not_eq_false] at hdir
    have hq := s.volume.tree.inDirs _ c (by rw [htarget]; exact Option.some_ne_none _)
    obtain ⟨_, _, hfound, -⟩ := isDir_iff.mp hdir
    exact h (q ++ [c]) ⟨hdir, q, c, left', r' ++ q, target, rfl,
      follow_real hbase' (looks_above (follow_looks hfound)) (by simp [hq]) (by simp [hq]), htarget⟩

/-! ## What a scan is for -/

/-- Every regular file of the directories below the base is listed once, with its
bytes, no path goes through a link to a directory, and the ids count from one. -/
structure Exact (s : Place ν) (entries : List (LocatedEntry ν)) : Prop where
  once : ∀ left r q data, s.follow [] = .found left r → s.volume.tree.entry (r ++ q) = some .file →
    s.volume.content (r ++ q) = some data →
      ∃ e, entries.filter (fun e => e.fullPath = q) = [e] ∧ e.isDir = false ∧ e.data = data
  direct : ∀ e ∈ entries, ∀ q, q <+: e.fullPath → ¬ s.LinkToDir q
  ids : entries.map (·.fileId) = List.range' 1 entries.length

/-- Fewer than 2 ^ 32 paths below the base are taken for a directory or a file. -/
def Place.Few (s : Place ν) : Prop :=
  ∀ ps : List (List ν), ps.Nodup → (∀ p ∈ ps, p ≠ [] ∧ s.shows p ≠ none) → ps.length < 2 ^ 32

/-- Every regular file of the directories below the base is one that the system looks up. -/
def Place.Looked (s : Place ν) : Prop :=
  ∀ left r q data, s.follow [] = .found left r → s.volume.tree.entry (r ++ q) = some .file →
    s.volume.content (r ++ q) = some data → s.looks q = true

/-- There is no such file. -/
def Place.NoFiles (s : Place ν) : Prop :=
  ∀ left r q data, s.follow [] = .found left r → s.volume.tree.entry (r ++ q) = some .file →
    s.volume.content (r ++ q) ≠ some data

/-- What is taken for a directory or a file, the base or below it, can be read. -/
structure Place.Readable (s : Place ν) : Prop where
  dirs : ∀ p, s.isDir p = true → s.dirError p = none
  files : ∀ p, s.fileAt p ≠ none → s.fileError p = none

omit [DecidableEq ν] in
theorem countedFrom_paths (x : Ext) (lossy : ν → String) (id : UInt32) (ns : List (Seen ν)) :
    (countedFrom x lossy id ns).map (·.fullPath) = ns.map (·.path) := by
  induction ns generalizing id with
  | nil => rfl
  | cons n ns ih =>
    rw [countedFrom, List.map_cons, List.map_cons, ih]
    unfold locatedEntry
    cases n.content with
    | none => rfl
    | some data => rfl

omit [DecidableEq ν] in
theorem countedFrom_ids (id : UInt32) (ns : List (Seen ν)) :
    (countedFrom x lossy id ns).map (·.fileId) = (List.range ns.length).map fun i => (id + UInt32.ofNat i).toNat := by
  induction ns generalizing id with
  | nil => rfl
  | cons n ns ih =>
    have hself : (locatedEntry x lossy id n).fileId = id.toNat := by
      unfold locatedEntry
      cases n.content with
      | none => rfl
      | some data => rfl
    have hnext : ∀ i, id + 1 + UInt32.ofNat i = id + UInt32.ofNat (i + 1) := by
      intro i
      rw [UInt32.ofNat_add, UInt32.add_assoc, UInt32.add_comm 1]
      rfl
    rw [countedFrom, List.map_cons, ih, List.length_cons, List.range_succ_eq_map, List.map_cons, List.map_map, hself]
    simp only [Function.comp_def, hnext]
    congr 1
    simp

omit [DecidableEq ν] in
/-- The ids count from one while there are fewer than 2 ^ 32. -/
theorem countedFrom_ids_iff (ns : List (Seen ν)) :
    (countedFrom x lossy 1 ns).map (·.fileId) = List.range' 1 (countedFrom x lossy 1 ns).length ↔ ns.length < 2 ^ 32 := by
  have hlen : (countedFrom x lossy 1 ns).length = ns.length := by
    have := congrArg List.length (countedFrom_paths x lossy 1 ns)
    rwa [List.length_map, List.length_map] at this
  have hid : ∀ i, (1 + UInt32.ofNat i).toNat = (1 + i) % 2 ^ 32 := by
    intro i
    rw [UInt32.toNat_add, UInt32.toNat_ofNat', Nat.add_mod_mod]
    rfl
  rw [countedFrom_ids, hlen, List.range'_eq_map_range]
  simp only [hid]
  constructor
  · intro h
    by_contra hmany
    have hat := List.map_inj_left.mp h (2 ^ 32 - 1) (List.mem_range.mpr (by omega))
    omega
  · intro h
    refine List.map_congr_left fun i hi => ?_
    have := List.mem_range.mp hi
    omega

omit [DecidableEq ν] in
theorem mem_countedFrom (x : Ext) (lossy : ν → String) (id : UInt32) {n : Seen ν} (h : n ∈ ns) :
    ∃ e ∈ countedFrom x lossy id ns, e.fullPath = n.path ∧ e.isDir = n.content.isNone ∧ e.data = n.content.getD [] := by
  induction ns generalizing id with
  | nil => cases h
  | cons n' ns ih =>
    rcases List.mem_cons.mp h with heq | h
    · refine ⟨locatedEntry x lossy id n, by rw [heq]; exact List.mem_cons_self, ?_⟩
      unfold locatedEntry
      cases n.content with
      | none => exact ⟨rfl, rfl, rfl⟩
      | some data => exact ⟨rfl, rfl, rfl⟩
    · obtain ⟨e, he, hrest⟩ := ih (id + 1) h
      exact ⟨e, List.mem_cons_of_mem _ he, hrest⟩

theorem filter_path {entries : List (LocatedEntry ν)} (h : (entries.map (·.fullPath)).Nodup) {e : LocatedEntry ν}
    (he : e ∈ entries) : entries.filter (fun e' => e'.fullPath = e.fullPath) = [e] := by
  induction entries with
  | nil => cases he
  | cons e' entries ih =>
    rw [List.map_cons, List.nodup_cons] at h
    rcases List.mem_cons.mp he with heq | hmem
    · rw [← heq, List.filter_cons_of_pos (by simp), List.filter_eq_nil_iff.mpr]
      intro e'' hmem hsame
      rw [← heq] at h
      exact h.1 (of_decide_eq_true hsame ▸ List.mem_map_of_mem hmem)
    · rw [List.filter_cons_of_neg, ih h.2 hmem]
      intro hsame
      exact h.1 (of_decide_eq_true hsame ▸ List.mem_map_of_mem hmem)

/-- The walk of a directory lists each path below it that is taken for a
directory or a file, once. -/
theorem few_iff (h : visits s fuel [] = some ns) : s.Few ↔ ns.length < 2 ^ 32 := by
  constructor
  · intro hfew
    have := hfew (ns.map (·.path)) (visits_once h) fun p hp => by
      obtain ⟨n, hn, hpath⟩ := List.mem_map.mp hp
      obtain ⟨c, q, hbelow, hshows⟩ := (mem_visits h n).mp hn
      rw [← hpath]
      exact ⟨by rw [hbelow]; simp, by rw [hshows]; exact Option.some_ne_none _⟩
    rwa [List.length_map] at this
  · intro hlt ps hnodup hps
    have hsub : ps ⊆ ns.map (·.path) := by
      intro p hp
      obtain ⟨hne, hshows⟩ := hps p hp
      obtain ⟨c, q, hcons⟩ := List.exists_cons_of_ne_nil hne
      obtain ⟨content, hcontent⟩ := Option.ne_none_iff_exists'.mp hshows
      exact List.mem_map.mpr ⟨⟨p, content⟩, (mem_visits h _).mpr ⟨c, q, hcons, hcontent⟩, rfl⟩
    have := (hnodup.subperm hsub).length_le
    rw [List.length_map] at this
    omega

theorem exact_iff_visits (h : visits s fuel [] = some ns) {left : Nat} {r : List ν} (hbase : s.follow [] = .found left r)
    (hroot : s.volume.tree.entry r = some .dir) :
    Exact s (countedFrom x lossy 1 ns) ↔ s.NoDirLinks ∧ s.Few ∧ s.Looked := by
  rw [few_iff h, no_linkToDir_iff hbase]
  constructor
  · intro hexact
    refine ⟨fun p hlink => ?_, (countedFrom_ids_iff ns).mp hexact.ids, fun left' r' q data hbase' hentry hdata => ?_⟩
    · have ⟨hdir, q, c, _, _, _, hp, _⟩ := hlink
      have hcons : ∃ c' q', p = c' :: q' := List.exists_cons_of_ne_nil (by rw [hp]; simp)
      obtain ⟨c', q', hcons⟩ := hcons
      obtain ⟨e, he, hpath, -⟩ := mem_countedFrom x lossy 1
        ((mem_visits h ⟨p, none⟩).mpr ⟨c', q', hcons, if_pos hdir⟩)
      exact hexact.direct e he p (hpath ▸ List.prefix_rfl) hlink
    · obtain ⟨e, he, -, -⟩ := hexact.once left' r' q data hbase' hentry hdata
      obtain ⟨hmem, hpath⟩ := List.mem_filter.mp (he ▸ List.mem_singleton_self e)
      have hseen := List.mem_map_of_mem (f := (·.fullPath)) hmem
      rw [countedFrom_paths, of_decide_eq_true hpath] at hseen
      obtain ⟨n, hn, hnpath⟩ := List.mem_map.mp hseen
      obtain ⟨c, q', -, hshows⟩ := (mem_visits h n).mp hn
      obtain ⟨l, d, hfound⟩ := shows_follow (by rw [hshows]; exact Option.some_ne_none _)
      rw [← hnpath]
      exact follow_looks hfound
  · intro hall
    obtain ⟨hlinks, hfew, hlooked⟩ := hall
    refine ⟨fun left' r' q data hbase' hentry hdata => ?_, fun e _ q _ => hlinks q, (countedFrom_ids_iff ns).mpr hfew⟩
    have hfound : s.follow q = .found left' (r' ++ q) :=
      follow_real hbase' (hlooked left' r' q data hbase' hentry hdata) (by simp [hentry]) (by simp [hentry])
    have hnotDir : ¬ s.isDir q = true := by
      intro hdir
      obtain ⟨l, d, hfound', hdir'⟩ := isDir_iff.mp hdir
      rw [hfound] at hfound'
      cases hfound'
      rw [hentry] at hdir'
      cases hdir'
    have hshows : s.shows q = some (some data) := by
      rw [Place.shows, if_neg hnotDir, fileAt_some_iff.mpr ⟨_, _, hfound, hentry, hdata⟩]
      rfl
    have hne : q ≠ [] := by
      intro hnil
      rw [hbase] at hbase'
      cases hbase'
      rw [hnil, List.append_nil, hroot] at hentry
      cases hentry
    obtain ⟨c, q', hcons⟩ := List.exists_cons_of_ne_nil hne
    obtain ⟨e, he, hpath, hisDir, hbytes⟩ := mem_countedFrom x lossy 1
      ((mem_visits h ⟨q, some data⟩).mpr ⟨c, q', hcons, hshows⟩)
    refine ⟨e, ?_, hisDir, hbytes⟩
    have honce := filter_path (by rw [countedFrom_paths]; exact visits_once h) he
    rwa [hpath] at honce

/-- Where something the walk sees cannot be read, or the base, not all can be read, and
the other way round. -/
theorem readable_iff_visits (h : visits s fuel [] = some ns) {left : Nat} {r : List ν} (hbase : s.follow [] = .found left r)
    (hroot : s.volume.tree.entry r = some .dir) :
    s.Readable ↔ s.dirError [] = none ∧ ∀ n ∈ ns, s.Reads n := by
  constructor
  · intro hread
    refine ⟨hread.dirs [] (isDir_iff.mpr ⟨left, r, hbase, hroot⟩), fun n hn => ?_⟩
    obtain ⟨c, q, -, hshows⟩ := (mem_visits h n).mp hn
    unfold Place.shows at hshows
    split at hshows
    · rename_i hdir
      rw [Option.some.injEq] at hshows
      rw [Place.Reads, ← hshows]
      exact hread.dirs n.path hdir
    · obtain ⟨data, hdata, hcontent⟩ := Option.map_eq_some_iff.mp hshows
      rw [Place.Reads, ← hcontent]
      exact hread.files n.path (by rw [hdata]; exact Option.some_ne_none _)
  · intro hall
    obtain ⟨hcurrent, hreads⟩ := hall
    constructor
    · intro p hdir
      cases p with
      | nil => exact hcurrent
      | cons c q => exact hreads ⟨c :: q, none⟩ ((mem_visits h _).mpr ⟨c, q, rfl, if_pos hdir⟩)
    · intro p hfile
      obtain ⟨data, hdata⟩ := Option.ne_none_iff_exists'.mp hfile
      obtain ⟨l, d, hfound, hentry, -⟩ := fileAt_some_iff.mp hdata
      have hnotDir : ¬ s.isDir p = true := by
        intro hdir
        obtain ⟨l', d', hfound', hdir'⟩ := isDir_iff.mp hdir
        rw [hfound] at hfound'
        cases hfound'
        rw [hentry] at hdir'
        cases hdir'
      cases p with
      | nil =>
        exact absurd (isDir_iff.mpr ⟨left, r, hbase, hroot⟩) hnotDir
      | cons c q =>
        refine hreads ⟨c :: q, some data⟩ ((mem_visits h _).mpr ⟨c, q, rfl, ?_⟩)
        rw [Place.shows, if_neg hnotDir, hdata]
        rfl

/-- The entries a scan comes to. -/
def entriesOf (r : Except String (String × List (LocatedEntry ν))) : List (LocatedEntry ν) := match r with
  | .ok (_, entries) => entries
  | .error _ => []

omit [DecidableEq ν] in
theorem entriesOf_nonempty (name : String) (entries : List (LocatedEntry ν)) :
    entriesOf (if entries = [] then .error "directory is empty" else .ok (name, entries)) = entries := by
  split
  · rename_i hnil
    exact hnil.symm
  · rfl

/-- A base that is no directory has nothing below it. -/
theorem nothing_below (h : s.isDir [] = false) : s.NoDirLinks ∧ s.Few ∧ s.Looked := by
  refine ⟨?_, ?_, ?_⟩
  · intro left r q c target hbase hentry
    rw [List.append_assoc] at hentry
    have hdir := s.volume.tree.entry_above (by rw [hentry]; exact Option.some_ne_none _) (by simp)
    rw [isDir_iff.mpr ⟨left, r, hbase, hdir⟩] at h
    cases h
  · intro ps _ hps
    cases ps with
    | nil => exact Nat.two_pow_pos 32
    | cons p ps =>
      obtain ⟨hne, hshows⟩ := hps p (by simp)
      obtain ⟨c, q, hcons⟩ := List.exists_cons_of_ne_nil hne
      obtain ⟨left, r, hfound⟩ := shows_follow hshows
      rw [hcons, ← List.nil_append (c :: q)] at hfound
      rw [(follow_above hfound).1] at h
      cases h
  · intro left r q data hbase hentry _
    by_cases hq : q = []
    · rw [hq]
      exact follow_looks hbase
    · have hdir := s.volume.tree.entry_above (by rw [hentry]; exact Option.some_ne_none _) hq
      rw [isDir_iff.mpr ⟨left, r, hbase, hdir⟩] at h
      cases h

/-- Where the base is no directory, only the base itself can be a file. -/
theorem base_file (h : s.isDir [] = false) {left : Nat} {r q : List ν} {data : Bytes} (hbase : s.follow [] = .found left r)
    (hentry : s.volume.tree.entry (r ++ q) = some .file) (hdata : s.volume.content (r ++ q) = some data) :
    q = [] ∧ s.fileAt [] = some data := by
  by_cases hq : q = []
  · rw [hq, List.append_nil] at hentry hdata
    exact ⟨hq, fileAt_some_iff.mpr ⟨left, r, hbase, hentry, hdata⟩⟩
  · have hdir := s.volume.tree.entry_above (by rw [hentry]; exact Option.some_ne_none _) hq
    rw [isDir_iff.mpr ⟨left, r, hbase, hdir⟩] at h
    cases h

/-- Nothing is what is to be listed just where there is no file. -/
theorem exact_nil_iff : Exact s ([] : List (LocatedEntry ν)) ↔ s.NoFiles := by
  constructor
  · intro hexact left r q data hbase hentry hdata
    obtain ⟨e, he, -, -⟩ := hexact.once left r q data hbase hentry hdata
    cases he
  · intro hnone
    refine ⟨fun left r q data hbase hentry hdata => ?_, fun e he => (by cases he), rfl⟩
    exact absurd hdata (hnone left r q data hbase hentry)

theorem noFiles_of_none (h : s.isDir [] = false) (hfile : s.fileAt [] = none) : s.NoFiles := by
  intro left r q data hbase hentry hdata
  rw [(base_file h hbase hentry hdata).2] at hfile
  cases hfile

/-- Only the base itself can be read or not where it is no directory. -/
theorem readable_iff_base (h : s.isDir [] = false) : s.Readable ↔ (s.fileAt [] ≠ none → s.fileError [] = none) := by
  have habove : ∀ p, (∃ left r, s.follow p = .found left r) → p = [] := by
    intro p hfound
    obtain ⟨left, r, hfound⟩ := hfound
    cases p with
    | nil => rfl
    | cons c q =>
      rw [← List.nil_append (c :: q)] at hfound
      rw [(follow_above hfound).1] at h
      cases h
  refine ⟨fun hread => hread.files [], fun hbase => ⟨fun p hdir => ?_, fun p hfile => ?_⟩⟩
  · obtain ⟨l, d, hfound, -⟩ := isDir_iff.mp hdir
    rw [habove p ⟨l, d, hfound⟩, h] at hdir
    cases hdir
  · obtain ⟨data, hdata⟩ := Option.ne_none_iff_exists'.mp hfile
    obtain ⟨l, d, hfound, -⟩ := fileAt_some_iff.mp hdata
    obtain rfl := habove p ⟨l, d, hfound⟩
    exact hbase hfile

theorem exact_single (h : s.isDir [] = false) {data : Bytes} (hfile : s.fileAt [] = some data) (name : String) :
    Exact s [{ fileEntry x lossy 1 [] data with relativePath := name }] := by
  refine ⟨fun left r q data' hbase hentry hdata => ?_, fun e he q hq hlink => ?_, rfl⟩
  · obtain ⟨hq, hsame⟩ := base_file h hbase hentry hdata
    rw [hfile, Option.some.injEq] at hsame
    exact ⟨_, by rw [hq]; rfl, rfl, hsame⟩
  · rw [List.mem_singleton.mp he] at hq
    obtain ⟨-, q', c, -, -, -, hsnoc, -⟩ := hlink
    rw [hsnoc, show ({ fileEntry x lossy 1 ([] : List ν) data with relativePath := name } : LocatedEntry ν).fullPath = [] from
      rfl, List.prefix_nil] at hq
    simp at hq

/-- What a scan is for, where all it meets can be read, and where it fails. -/
def Place.Met (s : Place ν) : Prop :=
  (s.Readable ∧ s.NoDirLinks ∧ s.Few ∧ s.Looked) ∨ (¬ s.Readable ∧ s.NoFiles)

theorem met_of_readable (h : s.Readable) : s.Met ↔ s.NoDirLinks ∧ s.Few ∧ s.Looked := by
  rw [Place.Met]
  simp only [h, true_and, not_true_eq_false, false_and, or_false]

theorem met_of_not_readable (h : ¬ s.Readable) : s.Met ↔ s.NoFiles := by
  rw [Place.Met]
  simp only [h, false_and, not_false_eq_true, true_and, false_or]

variable (s : Place ν) (x : Ext) (lossy : ν → String) (baseText : String) (fileName : Option String)

/-- The scan of a directory. -/
theorem scan_directory {left : Nat} {r : List ν} (hbase : s.follow [] = .found left r)
    (hroot : s.volume.tree.entry r = some .dir) :
    ∃ n r, (∀ fuel, n ≤ fuel → scanSendPath s x lossy baseText fileName fuel = some r) ∧
      (Exact s (entriesOf r) ↔ s.Met) := by
  obtain ⟨ns, hns⟩ := Option.isSome_iff_exists.mp (visits_isSome hbase hroot (Nat.lt_succ_self _))
  by_cases hread : s.Readable
  · obtain ⟨hcurrent, hreads⟩ := (readable_iff_visits hns hbase hroot).mp hread
    refine ⟨(s.reach left r).succ, if countedFrom x lossy 1 ns = [] then .error "directory is empty" else
      .ok (fileName.getD "transfer", countedFrom x lossy 1 ns), fun fuel hfuel => ?_, ?_⟩
    · rw [scanSendPath, hbase]
      simp only [if_pos hroot, walkDirectory_reads (visits_mono_le hfuel hns) hcurrent hreads, Option.map_some, counted,
        List.nil_append]
    · rw [entriesOf_nonempty, met_of_readable hread]
      exact exact_iff_visits hns hbase hroot
  · have hfails : s.dirError [] ≠ none ∨ ∃ n ∈ ns, ¬ s.Reads n := by
      by_contra hnone
      simp only [not_or, not_not, not_exists, not_and] at hnone
      exact hread ((readable_iff_visits hns hbase hroot).mpr hnone)
    -- However much fuel there is, the walk ends with the error it comes to first.
    obtain ⟨e, he⟩ : ∃ e, (walkDirectory s x lossy (s.reach left r).succ [] ([], 1)).run = some (.error e) :=
      walkDirectory_fails hns hfails ([], 1)
    refine ⟨(s.reach left r).succ, .error e, fun fuel hfuel => ?_, ?_⟩
    · rw [scanSendPath, hbase]
      simp only [if_pos hroot, walkDirectory_mono_le hfuel he, Option.map_some]
    · rw [met_of_not_readable hread]
      exact exact_nil_iff

/-- The scan of a base that is there and no directory. -/
theorem scan_file {left : Nat} {r : List ν} (hbase : s.follow [] = .found left r)
    (hroot : s.volume.tree.entry r ≠ some .dir) :
    ∃ n r, (∀ fuel, n ≤ fuel → scanSendPath s x lossy baseText fileName fuel = some r) ∧
      (Exact s (entriesOf r) ↔ s.Met) := by
  have hdir : s.isDir [] = false := by simp [Place.isDir, hbase, hroot]
  have hscan : ∀ fuel, scanSendPath s x lossy baseText fileName fuel = match s.fileAt [], s.fileError [] with
      | some _, some e => some (.error e)
      | some data, none => some (.ok (fileName.getD "file",
          [{ fileEntry x lossy 1 [] data with relativePath := fileName.getD "file" }]))
      | none, _ => some (.error "Not a directory (os error 20)") := by
    intro fuel
    simp only [scanSendPath, hbase, if_neg hroot]
  cases hfile : s.fileAt [] with
  | none =>
    have hread : s.Readable := (readable_iff_base hdir).mpr fun hne => absurd hfile hne
    refine ⟨0, .error "Not a directory (os error 20)", fun fuel _ => by rw [hscan, hfile], ?_⟩
    rw [met_of_readable hread]
    exact iff_of_true (exact_nil_iff.mpr (noFiles_of_none hdir hfile)) (nothing_below hdir)
  | some data =>
    cases herror : s.fileError [] with
    | none =>
      have hread : s.Readable := (readable_iff_base hdir).mpr fun _ => herror
      refine ⟨0, .ok (fileName.getD "file",
        [{ fileEntry x lossy 1 [] data with relativePath := fileName.getD "file" }]),
        fun fuel _ => by rw [hscan, hfile, herror], ?_⟩
      rw [met_of_readable hread]
      exact iff_of_true (exact_single hdir hfile _) (nothing_below hdir)
    | some e =>
      have hread : ¬ s.Readable := by
        intro hread
        rw [(readable_iff_base hdir).mp hread (by rw [hfile]; exact Option.some_ne_none _)] at herror
        cases herror
      refine ⟨0, .error e, fun fuel _ => by rw [hscan, hfile, herror], ?_⟩
      rw [met_of_not_readable hread]
      exact exact_nil_iff

/-- **The scan ends, and is what it is for where no link to a directory is met.**
It comes to one result however much fuel there is beyond some amount. Where all it
meets can be read, that lists each file once, goes through no link to a directory and
counts the ids from one exactly where no link in the directories below the base leads
to a directory, fewer than 2 ^ 32 paths below it are taken for directories or files,
and no file has a path that the system does not look up. Where something cannot be
read it fails, which is right only with no file to list. -/
theorem scan_exact_iff : ∃ n r, (∀ fuel, n ≤ fuel → scanSendPath s x lossy baseText fileName fuel = some r) ∧
    (Exact s (entriesOf r) ↔ s.Met) := by
  by_cases hfound : ∃ left r, s.follow [] = .found left r
  · obtain ⟨left, r, hbase⟩ := hfound
    by_cases hroot : s.volume.tree.entry r = some .dir
    · exact scan_directory s x lossy baseText fileName hbase hroot
    · exact scan_file s x lossy baseText fileName hbase hroot
  · have hdir : s.isDir [] = false := by
      rw [Bool.eq_false_iff]
      intro hdir
      obtain ⟨left, r, hbase, -⟩ := isDir_iff.mp hdir
      exact hfound ⟨left, r, hbase⟩
    have hfile : s.fileAt [] = none := by
      by_contra hsome
      obtain ⟨data, hdata⟩ := Option.ne_none_iff_exists'.mp hsome
      obtain ⟨left, r, hbase, -⟩ := fileAt_some_iff.mp hdata
      exact hfound ⟨left, r, hbase⟩
    have hread : s.Readable := (readable_iff_base hdir).mpr fun hne => absurd hfile hne
    refine ⟨0, .error ("path does not exist: " ++ baseText), fun fuel _ => ?_, ?_⟩
    · unfold scanSendPath
      split
      · rename_i left r hbase
        exact absurd ⟨left, r, hbase⟩ hfound
      · rfl
    · rw [met_of_readable hread]
      exact iff_of_true (exact_nil_iff.mpr (noFiles_of_none hdir hfile)) (nothing_below hdir)

end

/-! ## A tree without links -/

theorem countedFrom_numbered (x : Ext) (id : UInt32) (ns : List TreeNode) (hfew : id.toNat + ns.length ≤ 2 ^ 32) :
    (countedFrom x (fun name => name) id ns).map (·.toLocalSendEntry) = numbered x id.toNat ns := by
  induction ns generalizing id with
  | nil => rfl
  | cons n ns ih =>
    have hself : (locatedEntry x (fun name => name) id n).toLocalSendEntry = entryOf x id.toNat n := by
      unfold locatedEntry entryOf
      cases n.content with
      | none => simp [dirEntry]
      | some data => simp [fileEntry]
    rw [countedFrom, List.map_cons, numbered, hself]
    rw [List.length_cons] at hfew
    cases ns with
    | nil => rfl
    | cons n' ns =>
      rw [List.length_cons] at hfew
      have hnext : (id + 1).toNat = id.toNat + 1 := by
        rw [UInt32.toNat_add, UInt32.toNat_one, Nat.mod_eq_of_lt (by omega)]
      rw [ih (id + 1) (by rw [hnext, List.length_cons]; omega), hnext]

/-- Where the walk sees the nodes of a tree, it lists what the walk of that tree
does. -/
theorem scan_listing {s : Place String} {fuel : Nat} {l : Listing} (x : Ext)
    (h : visits s fuel [] = some (l.nodes [])) (hcurrent : s.dirError [] = none) (hreads : ∀ n ∈ l.nodes [], s.Reads n)
    (hfew : (l.nodes []).length < 2 ^ 32) :
    ∃ entries nextId, (walkDirectory s x (fun name => name) fuel [] ([], 1)).run = some (.ok (entries, nextId)) ∧
      entries.map (·.toLocalSendEntry) = (Nxfr.walkDirectory x [] l ([], 1)).1 := by
  refine ⟨_, _, walkDirectory_reads h hcurrent hreads ([], 1), ?_⟩
  rw [walkDirectory_eq, List.nil_append, List.nil_append]
  exact countedFrom_numbered x 1 _ (by rw [UInt32.toNat_one]; omega)

/-! ## A link to the directory it is in -/

def samplePaths : List (List String × Node String) :=
  [(["a"], .dir), (["a", "f"], .file), (["a", "up"], .link ⟨true, [.name "a"]⟩)]

theorem samplePaths_entry (p : List String) :
    (Tree.ofList samplePaths (by decide)).entry p ≠ none ↔ p = [] ∨ p = ["a"] ∨ p = ["a", "f"] ∨ p = ["a", "up"] := by
  simp only [Tree.ofList]
  split
  · rename_i hnil
    simp [hnil]
  · rename_i hnil
    simp [List.lookup_eq_none_iff, samplePaths, hnil]
    tauto

/-- A directory with a file and a link to the directory itself. -/
def sampleVolume : Volume String where
  tree := .ofList samplePaths (by decide)
  content p := if p = ["a", "f"] then some [1, 2, 3] else none
  names d := if d = [] then ["a"] else if d = ["a"] then ["f", "up"] else []
  once d := by
    split
    · decide
    · split
      · decide
      · exact List.nodup_nil
  listed d c := by
    rw [samplePaths_entry]
    match d with
    | [] => simp
    | [a] => by_cases ha : a = "a" <;> simp [ha]
    | _ :: _ :: _ => simp
  depth := 2
  shallow p h := by
    rcases (samplePaths_entry p).mp h with hp | hp | hp | hp <;> simp [hp]

def samplePlace : Place String where
  volume := sampleVolume
  limit := 40
  base := [.name "a"]
  baseSize := 1
  size := String.utf8ByteSize
  pathMax := 4096
  refused _ := false
  dirError _ := none
  fileError _ := none

def plainExt : Ext := { sha256 := fun _ => zeroDigest, cborLen := fun _ => 0, debugStr := id }

/-- Forty links may be followed, so the file is listed forty-one times, and the
link, as a directory, forty times. -/
theorem loop_listed : ∃ r, scanSendPath samplePlace plainExt id "a" (some "a") 200 = some r ∧
    (entriesOf r).length = 81 ∧ ((entriesOf r).filter fun e => e.data = [1, 2, 3]).length = 41 ∧
    ¬ Exact samplePlace (entriesOf r) := by
  have hscan : (scanSendPath samplePlace plainExt id "a" (some "a") 200).map (fun r =>
      ((entriesOf r).length, ((entriesOf r).filter fun e => e.data = [1, 2, 3]).length,
        ((entriesOf r).map (·.fullPath)).contains ["up"])) = some (81, 41, true) := by decide +kernel
  obtain ⟨r, hr, heq⟩ := Option.map_eq_some_iff.mp hscan
  simp only [Prod.mk.injEq] at heq
  obtain ⟨hlen, hdata, hup⟩ := heq
  refine ⟨r, hr, hlen, hdata, fun hexact => ?_⟩
  rw [List.contains_iff_mem] at hup
  obtain ⟨e, he, hpath⟩ := List.mem_map.mp hup
  refine hexact.direct e he ["up"] (hpath ▸ List.prefix_rfl)
    ⟨by decide +kernel, [], "up", 40, ["a"], ⟨true, [.name "a"]⟩, rfl, ?_, ?_⟩
  · decide +kernel
  · decide +kernel

end Nxfr.LinkedScan

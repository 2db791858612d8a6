/-
The files of the resume journal (`nxfr-storage/src/resume.rs`): `ResumeJournal`
on a directory, with a save that may be cut off at any of its calls.

A state is written to a temporary file, which is then renamed; the rename is
atomic, and the temporary file holds any part of what is written until it is all
there. `encode` and `decode` are what `serde_json` writes and reads. A directory
stands for the `Journal` of the states in it (`Holds`), whatever temporary files
are left in it.
-/
import Nxfr.Journal
import Nxfr.History

namespace Nxfr.JournalFiles

open History

/-- A directory of files; `read_dir` gives the names in some order. -/
abbrev Dir := AList fun _ : String => Bytes

inductive ResumeError where
  | json
  deriving DecidableEq

def finalName (id : String) : String := id ++ ".json"

/-- `Path::set_extension` on a name. -/
def setExtension (name ext : String) : String := fileStem name ++ "." ++ ext

def tmpName (id : String) : String := setExtension (finalName id) "json.tmp"

/-- How far a save gets: not to its first call; to the temporary file, created
or written up to some bytes; to the end. -/
inductive SavePoint where
  | before
  | created
  | written (n : Nat)
  | renamed

section

variable (encode : ResumeState → Bytes) (decode : Bytes → Option ResumeState)

/-- `rename` onto the final name. -/
def renameTmp (d : Dir) (id : String) : Dir := match d.lookup (tmpName id) with
  | some content => (d.erase (tmpName id)).insert (finalName id) content
  | none => d

/-- `save`, up to a point. -/
def save (d : Dir) (s : ResumeState) : SavePoint → Dir
  | .before => d
  | .created => d.insert (tmpName s.transferId) []
  | .written n => (d.insert (tmpName s.transferId) []).insert (tmpName s.transferId) ((encode s).take n)
  | .renamed =>
    renameTmp ((d.insert (tmpName s.transferId) []).insert (tmpName s.transferId) (encode s)) s.transferId

def load (d : Dir) (transferId : String) : Except ResumeError (Option ResumeState) :=
  match d.lookup (finalName transferId) with
  | none => .ok none
  | some content => match decode content with
    | some s => .ok (some s)
    | none => .error .json

def delete (d : Dir) (transferId : String) : Dir := d.erase (finalName transferId)

def listActive (d : Dir) : List String :=
  d.keys.filterMap fun name => if extension name = some "json" then some (fileStem name) else none

/-- What `gc_expired` does with an id. -/
def gcStep (now : Int) (st : Dir × Nat) (id : String) : Dir × Nat := match load decode st.1 id with
  | .ok (some s) => if s.expiresAt < now then (delete st.1 id, st.2 + 1) else st
  | _ => st

/-- `gc_expired`: the directory it leaves, and how many journals it removed. -/
def gcExpired (d : Dir) (now : Int) : Dir × Nat := (listActive d).foldl (gcStep decode now) (d, 0)

/-! ## What happens to a directory -/

inductive Op where
  | save (s : ResumeState) (upTo : SavePoint)
  | delete (id : String)
  | gc (now : Int)

def step (d : Dir) : Op → Dir
  | .save s upTo => save encode d s upTo
  | .delete id => delete d id
  | .gc now => (gcExpired decode d now).1

end

/-- The ids of the callers: hexadecimal digits, with a mark for what is sent. -/
def IsId (id : String) : Prop :=
  ∃ hex : List Char, hex ≠ [] ∧ (∀ c ∈ hex, (hexValue c).isSome) ∧
    (id = String.ofList hex ∨ id = "outbound-" ++ String.ofList hex)

/-- Every state is saved under the id of a caller, and read back as it is. -/
def Op.Fine (encode : ResumeState → Bytes) (decode : Bytes → Option ResumeState) : Op → Prop
  | .save s _ => IsId s.transferId ∧ decode (encode s) = some s
  | .delete _ | .gc _ => True

/-! ## Names -/

theorem IsId.noDot {id : String} (h : IsId id) : id.toList ≠ [] ∧ '.' ∉ id.toList := by
  obtain ⟨hex, hne, hdigits, hid⟩ := h
  have hdot : '.' ∉ hex := fun hmem => absurd (hdigits '.' hmem) (by decide)
  rcases hid with rfl | rfl
  · simp only [String.toList_ofList]
    exact ⟨hne, hdot⟩
  · refine ⟨by simp [String.toList_append], ?_⟩
    simp only [String.toList_append, List.mem_append, String.toList_ofList, not_or]
    exact ⟨by decide, hdot⟩

theorem splitAtDot_append (stem ext : String) (hstem : stem.toList ≠ []) (hdot : '.' ∉ ext.toList)
    (hext : ext.toList ≠ []) : splitAtDot (stem ++ "." ++ ext) = some (stem, ext) := by
  have hback : (stem ++ "." ++ ext).toList.reverse = ext.toList.reverse ++ '.' :: stem.toList.reverse := by
    simp [String.toList_append]
  have hall : ∀ c ∈ ext.toList.reverse, (c != '.') = true := by
    intro c hc
    rw [bne_iff_ne]
    intro heq
    exact hdot (heq ▸ List.mem_reverse.mp hc)
  have htake : (ext.toList.reverse ++ '.' :: stem.toList.reverse).takeWhile (· != '.') = ext.toList.reverse := by
    rw [List.takeWhile_append_of_pos hall]
    simp
  have hdrop : (ext.toList.reverse ++ '.' :: stem.toList.reverse).dropWhile (· != '.') = '.' :: stem.toList.reverse := by
    rw [List.dropWhile_append_of_pos hall]
    simp
  have hname : stem ++ "." ++ ext ≠ ".." := by
    intro h
    have hlen := congrArg (fun s : String => s.toList.length) h
    have h₁ := List.length_pos_of_ne_nil hstem
    have h₂ := List.length_pos_of_ne_nil hext
    simp [String.toList_append] at hlen
    omega
  unfold splitAtDot
  simp only [hback, htake, hdrop, List.tail_cons, List.reverse_reverse, String.ofList_toList]
  rw [if_neg (not_or.mpr ⟨hname, hstem⟩)]

theorem splitAtDot_finalName {id : String} (h : IsId id) : splitAtDot (finalName id) = some (id, "json") := by
  have := splitAtDot_append id "json" h.noDot.1 (by decide) (by decide)
  rw [String.append_assoc] at this
  exact this

theorem tmpName_eq {id : String} (h : IsId id) : tmpName id = finalName id ++ "." ++ "tmp" := by
  have hstem : fileStem (finalName id) = id := by rw [fileStem, splitAtDot_finalName h]; rfl
  rw [tmpName, setExtension, hstem, finalName, String.append_assoc, String.append_assoc, String.append_assoc]
  rfl

theorem splitAtDot_tmpName {id : String} (h : IsId id) : splitAtDot (tmpName id) = some (finalName id, "tmp") := by
  rw [tmpName_eq h]
  exact splitAtDot_append _ _ (by simp [finalName, String.toList_append]) (by decide) (by decide)

theorem finalName_inj {id id' : String} (h : finalName id = finalName id') : id = id' := by
  have := congrArg String.toList h
  rw [finalName, finalName, String.toList_append, String.toList_append] at this
  exact String.toList_inj.mp (List.append_cancel_right this)

theorem finalName_ne_tmpName (id : String) {id' : String} (h : IsId id') : finalName id ≠ tmpName id' := by
  intro heq
  have hlast := congrArg (fun name : String => name.toList.getLast?) heq
  rw [tmpName_eq h, finalName, String.toList_append, String.toList_append] at hlast
  simp at hlast

/-! ## What a directory stands for -/

section

variable {encode : ResumeState → Bytes} {decode : Bytes → Option ResumeState}

/-- A directory holds the states of a journal, and temporary files. -/
structure Holds (encode : ResumeState → Bytes) (decode : Bytes → Option ResumeState) (d : Dir) (j : Journal) : Prop where
  final : ∀ id, d.lookup (finalName id) = (j id).map encode
  names : ∀ name ∈ d, ∃ id, IsId id ∧ (name = finalName id ∨ name = tmpName id)
  states : ∀ id s, j id = some s → IsId id ∧ decode (encode s) = some s

theorem Holds.empty : Holds encode decode ∅ fun _ => none where
  final := by simp
  names := by simp
  states := by simp

theorem Holds.load_eq {d : Dir} {j : Journal} (h : Holds encode decode d j) (id : String) :
    load decode d id = .ok (j id) := by
  rw [load, h.final]
  cases hj : j id with
  | none => rfl
  | some s => simp [(h.states id s hj).2]

/-- The names with the extension `json` are those of the journals. -/
theorem Holds.mem_listActive {d : Dir} {j : Journal} (h : Holds encode decode d j) (id : String) :
    id ∈ listActive d ↔ (j id).isSome := by
  rw [listActive, List.mem_filterMap]
  constructor
  · intro ⟨name, hname, hid⟩
    obtain ⟨id', hvalid, rfl | rfl⟩ := h.names name hname
    · rw [extension, fileStem, splitAtDot_finalName hvalid] at hid
      simp only [Option.map_some, if_true, Option.getD_some, Option.some.injEq] at hid
      subst hid
      have hsome := (AList.lookup_isSome.mpr hname : (d.lookup (finalName id')).isSome)
      rwa [h.final, Option.isSome_map] at hsome
    · rw [extension, splitAtDot_tmpName hvalid] at hid
      simp at hid
  · intro hsome
    obtain ⟨s, hs⟩ := Option.isSome_iff_exists.mp hsome
    have hvalid := (h.states id s hs).1
    refine ⟨finalName id, ?_, ?_⟩
    · have hlookup : (d.lookup (finalName id)).isSome := by rw [h.final, hs]; rfl
      exact AList.lookup_isSome.mp hlookup
    · rw [extension, fileStem, splitAtDot_finalName hvalid]
      simp

theorem listActive_nodup (d : Dir) : (listActive d).Nodup := by
  refine List.Nodup.filterMap ?_ d.keys_nodup
  -- a name with the extension `json` is its stem and the extension
  have hname : ∀ name id, id ∈ (if extension name = some "json" then some (fileStem name) else none) →
      name = id ++ ("." ++ "json") := by
    intro name id h
    simp only [Option.mem_def, Option.ite_none_right_eq_some, Option.some.injEq] at h
    have := stem_extension name
    rw [h.1, h.2] at this
    exact this.symm
  intro name name' id h h'
  rw [hname name id h, hname name' id h']

/-! ## Steps -/

/-- A temporary file is written. -/
theorem Holds.insertTmp {d : Dir} {j : Journal} (h : Holds encode decode d j) {id : String} (hid : IsId id)
    (content : Bytes) : Holds encode decode (d.insert (tmpName id) content) j where
  final := by
    intro id'
    rw [AList.lookup_insert_ne (finalName_ne_tmpName id' hid), h.final]
  names := by
    intro name hname
    rcases (AList.mem_insert d).mp hname with rfl | hname
    · exact ⟨id, hid, .inr rfl⟩
    · exact h.names name hname
  states := h.states

/-- The temporary file, with all of a state, takes the final name. -/
theorem Holds.rename {d : Dir} {j : Journal} (h : Holds encode decode d j) {s : ResumeState} (hid : IsId s.transferId)
    (hread : decode (encode s) = some s) (htmp : d.lookup (tmpName s.transferId) = some (encode s)) :
    Holds encode decode (renameTmp d s.transferId) (j.save s) := by
  have hdir : renameTmp d s.transferId =
      (d.erase (tmpName s.transferId)).insert (finalName s.transferId) (encode s) := by
    rw [renameTmp, htmp]
  rw [hdir]
  refine ⟨?_, ?_, ?_⟩
  · intro id
    by_cases hsame : id = s.transferId
    · rw [hsame, AList.lookup_insert, Journal.save_self]
      rfl
    · rw [AList.lookup_insert_ne fun heq => hsame (finalName_inj heq),
        AList.lookup_erase_ne (finalName_ne_tmpName id hid), h.final, Journal.save, if_neg hsame]
  · intro name hname
    rcases (AList.mem_insert _).mp hname with rfl | hname
    · exact ⟨s.transferId, hid, .inl rfl⟩
    · exact h.names name (AList.mem_erase.mp hname).2
  · intro id s' hs'
    rw [Journal.save] at hs'
    split at hs'
    · rename_i hsame
      cases hs'
      exact ⟨hsame ▸ hid, hread⟩
    · exact h.states id s' hs'

theorem Holds.delete {d : Dir} {j : Journal} (h : Holds encode decode d j) (id : String) :
    Holds encode decode (delete d id) (j.delete id) where
  final := by
    intro id'
    by_cases hsame : id' = id
    · rw [hsame, JournalFiles.delete, AList.lookup_erase, Journal.delete, if_pos rfl]
      rfl
    · rw [JournalFiles.delete, AList.lookup_erase_ne fun heq => hsame (finalName_inj heq), h.final, Journal.delete,
        if_neg hsame]
  names := fun name hname => h.names name (AList.mem_erase.mp hname).2
  states := by
    intro id' s hs
    rw [Journal.delete] at hs
    split at hs
    · cases hs
    · exact h.states id' s hs

/-! ## Garbage collection -/

def isExpired (now : Int) (s : ResumeState) : Bool := decide (s.expiresAt < now)

/-- What is left of a journal without the states of some ids that have expired. -/
def expireAt (now : Int) (ids : List String) (j : Journal) : Journal :=
  fun id => if id ∈ ids then (j id).filter fun s => !isExpired now s else j id

theorem Holds.gcStep {d : Dir} {j : Journal} (h : Holds encode decode d j) (now : Int) (count : Nat) (id : String) :
    Holds encode decode (gcStep decode now (d, count) id).1 (expireAt now [id] j) ∧
      (gcStep decode now (d, count) id).2 = count + [id].countP fun id => (j id).any (isExpired now) := by
  have hkeep : (j id).filter (fun s => !isExpired now s) = j id → expireAt now [id] j = j := by
    intro hfilter
    funext id'
    rw [expireAt]
    split
    · rename_i hmem
      rw [List.mem_singleton] at hmem
      rw [hmem, hfilter]
    · rfl
  unfold JournalFiles.gcStep
  simp only [h.load_eq id, List.countP_singleton]
  cases hj : j id with
  | none =>
    rw [hkeep (by rw [hj]; rfl)]
    exact ⟨h, by simp⟩
  | some s =>
    by_cases hexpired : s.expiresAt < now
    · have hdeleted : expireAt now [id] j = j.delete id := by
        funext id'
        rw [expireAt, Journal.delete]
        simp only [List.mem_singleton]
        split
        · rename_i hmem
          rw [hmem, hj]
          simp [isExpired, hexpired]
        · rfl
      simp only [if_pos hexpired]
      rw [hdeleted]
      exact ⟨h.delete id, by simp [isExpired, hexpired]⟩
    · simp only [if_neg hexpired]
      rw [hkeep (by rw [hj]; simp [isExpired, hexpired])]
      exact ⟨h, by simp [isExpired, hexpired]⟩

theorem expireAt_cons (now : Int) (id : String) (ids : List String) (j : Journal) :
    expireAt now ids (expireAt now [id] j) = expireAt now (id :: ids) j := by
  funext id'
  simp only [expireAt, List.mem_cons]
  by_cases hsame : id' = id
  · by_cases hmem : id' ∈ ids
    · simp only [hsame, if_true, true_or]
      cases j id with
      | none => simp
      | some s => cases isExpired now s <;> simp
    · simp [hsame]
  · simp [hsame]

/-- The loop over ids that are all different. -/
theorem Holds.gcLoop {d : Dir} {j : Journal} (h : Holds encode decode d j) (now : Int) {ids : List String}
    (hids : ids.Nodup) (count : Nat) :
    Holds encode decode (ids.foldl (JournalFiles.gcStep decode now) (d, count)).1 (expireAt now ids j) ∧
      (ids.foldl (JournalFiles.gcStep decode now) (d, count)).2 =
        count + ids.countP fun id => (j id).any (isExpired now) := by
  induction ids generalizing d j count with
  | nil =>
    have hnone : expireAt now [] j = j := by
      funext id
      simp [expireAt]
    exact ⟨hnone.symm ▸ h, by simp⟩
  | cons id ids ih =>
    rw [List.nodup_cons] at hids
    have hsplit : ([id] ++ ids).countP (fun id => (j id).any (isExpired now)) =
        [id].countP (fun id => (j id).any (isExpired now)) + ids.countP fun id => (j id).any (isExpired now) :=
      List.countP_append
    rw [List.singleton_append] at hsplit
    obtain ⟨hfirst, hcount⟩ := h.gcStep now count id
    obtain ⟨hrest, hcounts⟩ := ih hfirst hids.2 (JournalFiles.gcStep decode now (d, count) id).2
    have hothers : ids.countP (fun id' => (expireAt now [id] j id').any (isExpired now)) =
        ids.countP fun id' => (j id').any (isExpired now) := by
      refine List.countP_congr ?_
      intro id' hmem
      have hne : id' ≠ id := fun heq => hids.1 (heq ▸ hmem)
      simp [expireAt, hne]
    rw [List.foldl_cons]
    refine ⟨expireAt_cons now id ids j ▸ hrest, ?_⟩
    refine Eq.trans hcounts ?_
    rw [hcount, hothers, hsplit]
    omega

/-- `gc_expired` leaves the states that have not expired. -/
def expire (now : Int) (j : Journal) : Journal := fun id => (j id).filter fun s => !isExpired now s

theorem Holds.gcExpired {d : Dir} {j : Journal} (h : Holds encode decode d j) (now : Int) :
    Holds encode decode (gcExpired decode d now).1 (expire now j) ∧
      (gcExpired decode d now).2 = (listActive d).countP fun id => (j id).any (isExpired now) := by
  obtain ⟨hdir, hcount⟩ := h.gcLoop now (listActive_nodup d) 0
  have hall : expireAt now (listActive d) j = expire now j := by
    funext id
    rw [expireAt, expire]
    split
    · rfl
    · rename_i hnone
      rw [h.mem_listActive, Option.not_isSome_iff_eq_none] at hnone
      rw [hnone]
      rfl
  rw [Nat.zero_add] at hcount
  exact ⟨hall ▸ hdir, hcount⟩

/-! ## Runs -/

/-- What an operation does to the states that are saved. -/
def saved (j : Journal) : Op → Journal
  | .save s .renamed => j.save s
  | .save _ .before | .save _ .created | .save _ (.written _) => j
  | .delete id => j.delete id
  | .gc now => expire now j

theorem Holds.step {d : Dir} {j : Journal} (h : Holds encode decode d j) {op : Op} (hop : op.Fine encode decode) :
    Holds encode decode (step encode decode d op) (saved j op) := by
  cases op with
  | save s upTo =>
    obtain ⟨hid, hread⟩ := hop
    cases upTo with
    | before => exact h
    | created => exact h.insertTmp hid []
    | written n => exact (h.insertTmp hid []).insertTmp hid _
    | renamed => exact ((h.insertTmp hid []).insertTmp hid (encode s)).rename hid hread (AList.lookup_insert _)
  | delete id => exact h.delete id
  | gc now => exact (h.gcExpired now).1

/-- After any operations the directory holds the states they leave. -/
theorem run_holds {ops : List Op} (hops : ∀ op ∈ ops, op.Fine encode decode) :
    Holds encode decode (after (step encode decode) ∅ ops) (after saved (fun _ => none) ops) := by
  induction ops using List.reverseRecOn with
  | nil => exact .empty
  | append_singleton ops op ih =>
    rw [after_snoc, after_snoc]
    exact (ih fun op hop => hops op (List.mem_append_left _ hop)).step (hops op (by simp))

/-! ## Crashes -/

/-- **A save happens or it does not.** A directory that saves, whole or cut off,
deletions and collections left is read as the states they leave. A save that
gets so far then leaves its id with the state before or with the new one, and
every other id as it was; after it `list_active` names each id that has a state,
once, and `gc_expired` removes exactly the states that have expired, and counts
them. -/
theorem save_atomic {ops : List Op} {s : ResumeState} {upTo : SavePoint} (hops : ∀ op ∈ ops, op.Fine encode decode)
    (hid : IsId s.transferId) (hread : decode (encode s) = some s) :
    ∀ d d', d = after (step encode decode) ∅ ops → d' = save encode d s upTo →
      (∀ id, load decode d id = .ok (after saved (fun _ => none) ops id)) ∧
      (load decode d' s.transferId = load decode d s.transferId ∨ load decode d' s.transferId = .ok (some s)) ∧
      (∀ id, id ≠ s.transferId → load decode d' id = load decode d id) ∧
      ((listActive d').Nodup ∧ ∀ id, id ∈ listActive d' ↔ ∃ s', load decode d' id = .ok (some s')) ∧
      ∀ now, (∀ id, load decode (gcExpired decode d' now).1 id =
          (load decode d' id).map fun found => found.filter fun s' => !isExpired now s') ∧
        (gcExpired decode d' now).2 =
          (listActive d').countP fun id => ((load decode d' id).toOption.getD none).any (isExpired now) := by
  intro d d' hd hd'
  have hbefore : Holds encode decode d (after saved (fun _ => none) ops) := hd ▸ run_holds hops
  have hafter : Holds encode decode d' (saved (after saved (fun _ => none) ops) (.save s upTo)) :=
    hd' ▸ hbefore.step (show Op.Fine encode decode (.save s upTo) from ⟨hid, hread⟩)
  generalize after saved (fun _ => none) ops = j at hbefore hafter ⊢
  have hkeeps : saved j (.save s upTo) = j ∨ saved j (.save s upTo) = j.save s := by
    cases upTo
    case renamed => exact .inr rfl
    all_goals exact .inl rfl
  refine ⟨hbefore.load_eq, ?_, ?_, ⟨listActive_nodup d', ?_⟩, ?_⟩
  · rw [hafter.load_eq, hbefore.load_eq]
    rcases hkeeps with hold | hnew
    · exact .inl (by rw [hold])
    · exact .inr (by rw [hnew, Journal.save_self])
  · intro id hne
    rw [hafter.load_eq, hbefore.load_eq]
    rcases hkeeps with hold | hnew
    · rw [hold]
    · rw [hnew, Journal.save, if_neg hne]
  · intro id
    rw [hafter.mem_listActive, hafter.load_eq, Option.isSome_iff_exists]
    simp
  · intro now
    obtain ⟨hgc, hcount⟩ := hafter.gcExpired now
    constructor
    · intro id
      rw [hgc.load_eq, hafter.load_eq]
      rfl
    · rw [hcount]
      simp only [hafter.load_eq]
      rfl

end

/-- A state and what is written of it. -/
def sampleState : ResumeState := ⟨"0a1b", "peer1", "notes", [], ∅, 1000, 2000, 1⟩

def sampleJson : Bytes :=
  ("\x7b\"transfer_id\":\"0a1b\",\"peer_device_id\":\"peer1\",\"display_name\":\"notes\",\"manifest\":[]," ++
    "\"files\":\x7b\x7d,\"created_at\":1000,\"expires_at\":2000,\"version\":1\x7d").toUTF8.data.toList

def sampleEncode (_ : ResumeState) : Bytes := sampleJson

def sampleDecode (content : Bytes) : Option ResumeState := if content = sampleJson then some sampleState else none

/-- The directory after a save, and after one more that is cut off in the
temporary file. -/
def sampleDir : Dir :=
  after (step sampleEncode sampleDecode) ∅ [.save sampleState (.written 7), .save sampleState .renamed]

def cutDir : Dir := save sampleEncode sampleDir sampleState (.written 20)

/-- What the cut left is listed as it can be loaded. -/
theorem save_atomic_sample :
    (listActive cutDir).Nodup ∧ ∀ id, id ∈ listActive cutDir ↔ ∃ s', load sampleDecode cutDir id = .ok (some s') := by
  have hid : IsId sampleState.transferId :=
    ⟨['0', 'a', '1', 'b'], by simp, by simp [hexValue], .inl rfl⟩
  have hread : sampleDecode (sampleEncode sampleState) = some sampleState := by
    rw [sampleDecode, sampleEncode, if_pos rfl]
  refine (save_atomic ?_ hid hread sampleDir cutDir rfl rfl).2.2.2.1
  intro op hop
  simp only [List.mem_cons, List.not_mem_nil, or_false] at hop
  rcases hop with rfl | rfl
  · exact ⟨hid, hread⟩
  · exact ⟨hid, hread⟩

end Nxfr.JournalFiles

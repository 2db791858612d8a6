/-
Where an upload can be stored. Whatever name a client sends, the components
made of it stay in the inbox (`upload_confined`).
-/
import Nxfr.WebInbox
import Nxfr.WireFacts

namespace Nxfr.Web

open History Inodes

/-! ## Proper names -/

section

variable (cls : CharClass)

/-- A character that `sanitize_filename` leaves alone. -/
def Plain (c : Char) : Prop := cls.isAlphanumeric c = true ∨ c = '.' ∨ c = '-' ∨ c = '_'

def PlainText (s : String) : Prop := ∀ c ∈ s.toList, Plain cls c

/-- A component that leads neither up nor elsewhere. -/
structure Confined (name : String) : Prop where
  nonempty : name ≠ ""
  noSlash : '/' ∉ name.toList
  notDots : ∃ c ∈ name.toList, c ≠ '.'

/-- The name of a stored file: plain, or with the number that tells it from
others put before its extension. -/
def FileName (name : String) : Prop :=
  Confined name ∧ (PlainText cls name ∨
    ∃ stem ext : String, ∃ n : Nat, 1 ≤ n ∧ name = stem ++ " (" ++ toString n ++ ")" ++ ext ∧
      PlainText cls stem ∧ PlainText cls ext)

/-- A place in the inbox: at most ten directories and a file name. -/
def InInbox (inboxDir dest : Path) : Prop :=
  ∃ dirs name, dest = inboxDir ++ dirs ++ [name] ∧ dirs.length ≤ 10 ∧
    (∀ d ∈ dirs, Confined d ∧ PlainText cls d) ∧ FileName cls name

end

section

variable {cls : CharClass}

theorem Plain.ne_slash {c : Char} (h : Plain cls c) : c ≠ '/' := by
  intro heq
  subst heq
  rcases h with h | h | h | h
  · rw [cls.ascii '/' (by decide)] at h
    revert h
    decide
  · revert h
    decide
  · revert h
    decide
  · revert h
    decide

theorem plain_ascii {c : Char} (h : c.toNat < 128) (halnum : c.isAlphanum = true) : Plain cls c :=
  .inl ((cls.ascii c h).trans halnum)

theorem PlainText.append {s s' : String} (h : PlainText cls s) (h' : PlainText cls s') : PlainText cls (s ++ s') := by
  intro c hc
  rw [String.toList_append, List.mem_append] at hc
  exact hc.elim (h c) (h' c)

theorem PlainText.noSlash {s : String} (h : PlainText cls s) : '/' ∉ s.toList :=
  fun hc => (h '/' hc).ne_slash rfl

theorem hexByte_plain (b : UInt8) : PlainText cls (hexByte b) := by
  have hdigit : ∀ n < 16, (Nat.digitChar n).toNat < 128 ∧ (Nat.digitChar n).isAlphanum = true := by decide
  have hb := b.toNat_lt
  intro c hc
  rw [hexByte, String.toList_ofList] at hc
  rcases List.mem_cons.mp hc with rfl | hc
  · obtain ⟨hlt, halnum⟩ := hdigit (b.toNat / 16) (by omega)
    exact plain_ascii hlt halnum
  · rw [List.mem_singleton] at hc
    subst hc
    obtain ⟨hlt, halnum⟩ := hdigit (b.toNat % 16) (by omega)
    exact plain_ascii hlt halnum

theorem hexEncode_plain (bs : List UInt8) : PlainText cls (hexEncode bs) := by
  intro c hc
  rw [hexEncode, String.toList_join, List.mem_flatMap] at hc
  obtain ⟨s, hs, hc⟩ := hc
  obtain ⟨b, -, rfl⟩ := List.mem_map.mp hs
  exact hexByte_plain b c hc

/-- A text whose characters are known. -/
theorem plain_literal {s : String} (h : (s.toList.all fun c =>
    decide (c.toNat < 128) && (c.isAlphanum || c == '.' || c == '-' || c == '_')) = true) : PlainText cls s := by
  intro c hc
  have hchar := List.all_eq_true.mp h c hc
  simp only [Bool.and_eq_true, decide_eq_true_eq, Bool.or_eq_true, beq_iff_eq] at hchar
  obtain ⟨hlt, ((halnum | hdot) | hdash) | hunder⟩ := hchar
  · exact plain_ascii hlt halnum
  · exact .inr (.inl hdot)
  · exact .inr (.inr (.inl hdash))
  · exact .inr (.inr (.inr hunder))

theorem Confined.of_mem {name : String} {c : Char} (hc : c ∈ name.toList) (hdot : c ≠ '.') (hslash : '/' ∉ name.toList) :
    Confined name where
  nonempty := by
    intro heq
    rw [heq] at hc
    cases hc
  noSlash := hslash
  notDots := ⟨c, hc, hdot⟩

/-! ## What `sanitize_filename` makes of a name -/

theorem replaced_proper (rand : List UInt8) :
    Confined ("uploaded_file_" ++ hexEncode rand ++ ".bin") ∧ PlainText cls ("uploaded_file_" ++ hexEncode rand ++ ".bin") := by
  have hplain : PlainText cls ("uploaded_file_" ++ hexEncode rand ++ ".bin") :=
    ((plain_literal (by decide)).append (hexEncode_plain rand)).append (plain_literal (by decide))
  refine ⟨.of_mem (c := 'u') ?_ (by decide) hplain.noSlash, hplain⟩
  simp [String.toList_append]

/-- Characters that are not all dots are left when dots are taken off the ends. -/
theorem trim_eq_nil {cs : List Char} (h : ∀ c ∈ cs, c = '.') :
    ((cs.dropWhile (· == '.')).reverse.dropWhile (· == '.')).reverse = [] := by
  have hnil : cs.dropWhile (· == '.') = [] := by
    rw [List.dropWhile_eq_nil_iff]
    intro c hc
    simp [h c hc]
  simp [hnil]

theorem sanitizeFilename_proper (rand : List UInt8) (name : String) :
    Confined (sanitizeFilename cls rand name) ∧ PlainText cls (sanitizeFilename cls rand name) := by
  rw [sanitizeFilename]
  split
  · exact replaced_proper rand
  · rename_i hkept
    simp only [not_or] at hkept
    obtain ⟨hne, -, -, htrim⟩ := hkept
    have hplain : PlainText cls (String.ofList (name.toList.map fun c =>
        if cls.isAlphanumeric c || c == '.' || c == '-' || c == '_' then c else '_')) := by
      intro c hc
      rw [String.toList_ofList] at hc
      obtain ⟨d, -, rfl⟩ := List.mem_map.mp hc
      split
      · rename_i hchar
        simpa [Plain, or_assoc] using hchar
      · exact .inr (.inr (.inr rfl))
    obtain ⟨c, hc, hdot⟩ : ∃ c ∈ name.toList.map fun c =>
        if cls.isAlphanumeric c || c == '.' || c == '-' || c == '_' then c else '_', c ≠ '.' := by
      by_contra hall
      refine htrim (trim_eq_nil ?_)
      intro c hc
      by_contra hdot
      exact hall ⟨c, hc, hdot⟩
    exact ⟨.of_mem (by rwa [String.toList_ofList]) hdot hplain.noSlash, hplain⟩

/-! ## Where the name leads -/

/-- A directory of the inbox, at most ten deep. -/
def InboxDir (cls : CharClass) (inboxDir dir : Path) : Prop :=
  ∃ dirs, dir = inboxDir ++ dirs ∧ dirs.length ≤ 10 ∧ ∀ d ∈ dirs, Confined d ∧ PlainText cls d

theorem InboxDir.self {inboxDir : Path} : InboxDir cls inboxDir inboxDir := ⟨[], by simp, by simp, by simp⟩

theorem nameComponents_short {rawName : String} (h : rawName.toList.contains '/' = false) :
    (nameComponents rawName).length ≤ 1 := by
  have hmem : '/' ∉ rawName.toList := by simpa using h
  have hsplit : splitSlash rawName = [rawName] := by
    simp [splitSlash, List.splitOn_eq_singleton hmem]
  rw [nameComponents, hsplit]
  exact List.length_filter_le _ _

/-- A path too deep is not accepted. -/
theorem uploadTarget_none {rand : Nat → List UInt8} {rawName : String}
    (h : 11 < (nameComponents rawName).length) : uploadTarget cls rand rawName = none := by
  rw [uploadTarget]
  cases hslash : rawName.toList.contains '/' with
  | true => simp [h]
  | false =>
    have hshort := nameComponents_short hslash
    omega

theorem sanitized_dirs {rand : Nat → List UInt8} {inboxDir : Path} {cs : List String} (hne : cs ≠ []) (hlen : cs.length ≤ 10) :
    InboxDir cls inboxDir (joinPath inboxDir (joinSlash (cs.mapIdx fun i c => sanitizeFilename cls (rand i) c))) := by
  have hproper : ∀ d ∈ cs.mapIdx fun i c => sanitizeFilename cls (rand i) c, Confined d ∧ PlainText cls d := by
    intro d hd
    obtain ⟨i, hi, rfl⟩ := List.mem_mapIdx.mp hd
    exact sanitizeFilename_proper _ _
  refine ⟨_, ?_, by simpa using hlen, hproper⟩
  rw [joinPath, splitSlash_joinSlash]
  · simpa using hne
  · intro d hd
    exact (hproper d hd).1.noSlash

/-- What is accepted has at most eleven components, a proper name, and a proper
subdirectory if any. -/
theorem uploadTarget_some {rand : Nat → List UInt8} {rawName cleanName : String} {subDir : Option String}
    (h : uploadTarget cls rand rawName = some (subDir, cleanName)) (inboxDir : Path) :
    Confined cleanName ∧ PlainText cls cleanName ∧
      ∀ sd, subDir = some sd → InboxDir cls inboxDir (joinPath inboxDir sd) := by
  rw [uploadTarget] at h
  split at h
  · dsimp only at h
    split at h
    · cases h
    · rename_i hlen
      split at h
      · cases h
        exact ⟨(sanitizeFilename_proper _ _).1, (sanitizeFilename_proper _ _).2, nofun⟩
      · cases h
        exact ⟨(sanitizeFilename_proper _ _).1, (sanitizeFilename_proper _ _).2, nofun⟩
      · rename_i c c' cs hcs
        cases h
        refine ⟨(sanitizeFilename_proper _ _).1, (sanitizeFilename_proper _ _).2, ?_⟩
        intro sd hsd
        cases hsd
        rw [hcs] at hlen
        refine sanitized_dirs (by simp) ?_
        simp only [List.length_cons, List.length_dropLast] at hlen ⊢
        omega
  · cases h
    exact ⟨(sanitizeFilename_proper _ _).1, (sanitizeFilename_proper _ _).2, nofun⟩

/-! ## The names tried -/

theorem digits_noSlash (n : Nat) : '/' ∉ (toString n).toList := by
  intro hc
  have hdigit : '/' ∈ Nat.toDigits 10 n := by simpa using hc
  have hslash := Nat.isDigit_of_mem_toDigits (by decide) (by decide) hdigit
  revert hslash
  decide

theorem candidate_inInbox {inboxDir targetDir : Path} {cleanName : String} (hdir : InboxDir cls inboxDir targetDir)
    (hconfined : Confined cleanName) (hplain : PlainText cls cleanName) (n : Nat) :
    InInbox cls inboxDir (candidate targetDir cleanName n) := by
  obtain ⟨dirs, rfl, hlen, hdirs⟩ := hdir
  cases n with
  | zero => exact ⟨dirs, cleanName, rfl, hlen, hdirs, hconfined, .inl hplain⟩
  | succ n =>
    obtain ⟨ext, hext⟩ : ∃ ext, ext = ((extension cleanName).map ("." ++ ·)).getD "" := ⟨_, rfl⟩
    have hname : fileStem cleanName ++ ext = cleanName := hext ▸ stem_extension cleanName
    have hparts : PlainText cls (fileStem cleanName) ∧ PlainText cls ext := by
      rw [← hname] at hplain
      constructor
      · exact fun c hc => hplain c (by simp [hc])
      · exact fun c hc => hplain c (by simp [hc])
    have hcollision : collisionName (n + 1) cleanName =
        fileStem cleanName ++ " (" ++ toString (n + 1) ++ ")" ++ ext := by rw [collisionName, hext]
    have hslash : '/' ∉ (collisionName (n + 1) cleanName).toList := by
      rw [hcollision]
      simp only [String.toList_append, List.mem_append, not_or]
      exact ⟨⟨⟨⟨hparts.1.noSlash, by decide⟩, digits_noSlash _⟩, by decide⟩, hparts.2.noSlash⟩
    refine ⟨dirs, _, rfl, hlen, hdirs, .of_mem (c := '(') ?_ (by decide) hslash,
      .inr ⟨_, _, n + 1, by omega, hcollision, hparts⟩⟩
    rw [hcollision]
    simp

/-! ## Every run -/

/-- An upload that has chosen where to go has chosen a place in the inbox, for a
name that is not too deep. -/
def Stage.Bound (cls : CharClass) (inboxDir : Path) (u : Upload) : Stage → Prop
  | .naming _ targetDir cleanName _ =>
    (nameComponents u.rawName).length ≤ 11 ∧ InboxDir cls inboxDir targetDir ∧ Confined cleanName ∧
      PlainText cls cleanName
  | .moving _ finalPath => (nameComponents u.rawName).length ≤ 11 ∧ InInbox cls inboxDir finalPath
  | .answered (.stored dest _) => (nameComponents u.rawName).length ≤ 11 ∧ InInbox cls inboxDir dest
  | _ => True

theorem Stage.Bound.act {inboxDir : Path} {u : Upload} {stage : Stage} (h : stage.Bound cls inboxDir u) (t : Tree)
    (a : Action) : (act cls inboxDir u stage t a).1.Bound cls inboxDir u := by
  cases a with
  | create =>
    cases stage with
    | start =>
      simp only [Web.act]
      split
      · split
        · trivial
        · split
          · trivial
          · trivial
      · trivial
    | _ => exact h
  | write =>
    cases stage with
    | streaming file written rest =>
      cases rest with
      | nil => trivial
      | cons chunk rest => trivial
    | _ => exact h
  | finish =>
    cases stage with
    | streaming file written rest =>
      cases rest with
      | cons chunk rest => trivial
      | nil =>
        simp only [Web.act]
        cases htarget : uploadTarget cls u.nameRand u.rawName with
        | none => trivial
        | some target =>
          obtain ⟨subDir, cleanName⟩ := target
          have hshort : (nameComponents u.rawName).length ≤ 11 := by
            by_contra hlong
            rw [uploadTarget_none (Nat.lt_of_not_le hlong)] at htarget
            cases htarget
          obtain ⟨hconfined, hplain, hdir⟩ := uploadTarget_some htarget inboxDir
          cases subDir with
          | none => exact ⟨hshort, .self, hconfined, hplain⟩
          | some sd =>
            simp only
            split
            · exact ⟨hshort, hdir sd rfl, hconfined, hplain⟩
            · trivial
    | _ => exact h
  | check =>
    cases stage with
    | naming written targetDir cleanName n =>
      obtain ⟨hshort, hdir, hconfined, hplain⟩ := h
      simp only [Web.act]
      split
      · exact ⟨hshort, hdir, hconfined, hplain⟩
      · exact ⟨hshort, candidate_inInbox hdir hconfined hplain n⟩
    | _ => exact h
  | rename =>
    cases stage with
    | moving written finalPath =>
      simp only [Web.act]
      split
      · exact h
      · trivial
    | _ => exact h
  | giveUp answer =>
    cases stage with
    | streaming file written rest =>
      simp only [Web.act]
      split
      · trivial
      · trivial
    | naming written targetDir cleanName n => trivial
    | moving written finalPath => trivial
    | _ => exact h

theorem bound_after {inboxDir : Path} {uploads : Nat → Upload} (tree : Tree) (es : List UploadStep) (i : Nat) :
    ((after (Inbox.step cls inboxDir uploads) (.start tree) es).stages i).Bound cls inboxDir (uploads i) := by
  refine after_induction (I := fun _ s => (Inbox.stages s i).Bound cls inboxDir (uploads i)) ?_ ?_ es
  · trivial
  · intro es e ih
    simp only [Inbox.step, Inbox.set]
    split
    · rename_i hi
      subst hi
      exact ih.act _ _
    · exact ih

/-- **An upload stays in the inbox.** In any run of any uploads, whatever names
their clients send, a file is stored below the inbox, under at most ten
directories; every component is not empty, has no slash and is not made of dots
only; it consists of alphanumerics, dots, dashes and underscores, but for the
number that the name of a file may have. A name of more than eleven components
stores nothing and is answered with 400. -/
theorem upload_confined (cls : CharClass) (inboxDir : Path) (uploads : Nat → Upload) (tree : Tree)
    (es : List UploadStep) (i : Nat) :
    (∀ dest content, (after (Inbox.step cls inboxDir uploads) (.start tree) es).stages i =
        .answered (.stored dest content) → InInbox cls inboxDir dest) ∧
    (11 < (nameComponents (uploads i).rawName).length →
      (∀ dest content, (after (Inbox.step cls inboxDir uploads) (.start tree) es).stages i ≠
        .answered (.stored dest content)) ∧
      ∀ file written, (after (Inbox.step cls inboxDir uploads) (.start tree) es).stages i = .streaming file written [] →
        (after (Inbox.step cls inboxDir uploads) (.start tree) (es ++ [⟨i, .finish⟩])).stages i =
          .answered .tooDeep) := by
  have hbound : ((after (Inbox.step cls inboxDir uploads) (.start tree) es).stages i).Bound cls inboxDir (uploads i) :=
    bound_after tree es i
  refine ⟨?_, ?_⟩
  · intro dest content hstage
    rw [hstage] at hbound
    exact hbound.2
  · intro hlong
    refine ⟨?_, ?_⟩
    · intro dest content hstage
      rw [hstage] at hbound
      have hshort := hbound.1
      omega
    · intro file written hstage
      simp only [after_snoc, Inbox.step, Inbox.set, if_true, hstage, Web.act, uploadTarget_none hlong]

/-- ASCII only. -/
def asciiClass : CharClass := ⟨Char.isAlphanum, fun _ _ => rfl⟩

/-- An empty inbox. -/
def emptyInbox : Tree where
  entries p := if p = ["inbox"] ∨ p = [] then some .dir else none
  content _ := []
  next := 0
  bounded h := by split at h <;> cases h

/-- Files sent as `../pics/a b.txt`, one byte each. -/
def samplePics : Nat → Upload := fun i =>
  { hasBoundary := true, originalFilename := some "../pics/a b.txt", chunks := [[UInt8.ofNat i]],
    randBytes := [UInt8.ofNat i], nameRand := fun _ => [] }

/-- One upload after the other. -/
def inTurn : List UploadStep :=
  [⟨0, .create⟩, ⟨0, .write⟩, ⟨0, .finish⟩, ⟨0, .check⟩, ⟨0, .rename⟩,
    ⟨1, .create⟩, ⟨1, .write⟩, ⟨1, .finish⟩, ⟨1, .check⟩, ⟨1, .check⟩, ⟨1, .rename⟩]

theorem upload_confined_inTurn :
    (after (Inbox.step asciiClass ["inbox"] samplePics) (.start emptyInbox) inTurn).stages 1 =
        .answered (.stored ["inbox", "pics", "a_b (1).txt"] [1]) ∧
      InInbox asciiClass ["inbox"] ["inbox", "pics", "a_b (1).txt"] := by
  have hstage : (after (Inbox.step asciiClass ["inbox"] samplePics) (.start emptyInbox) inTurn).stages 1 =
      .answered (.stored ["inbox", "pics", "a_b (1).txt"] [1]) := by
    rfl
  exact ⟨hstage, (upload_confined asciiClass ["inbox"] samplePics emptyInbox inTurn 1).1 _ _ hstage⟩

end

end Nxfr.Web

/-
Uploads of several connections in one inbox, and whether each is kept. A free
name is found by a test and taken by a later rename, so two uploads can find
the same one (`upload_lost`). Where no upload finds a name that another is
about to take, each keeps a file of its own (`uploads_kept`).
-/
import Nxfr.UploadNames

namespace Nxfr.Web

open History Inodes

section

variable (inboxDir : Path) (uploads : Nat → Upload)

/-- The file of an upload, and what it has of it. -/
def Stage.place (tmpPath : Path) : Stage → Option (Path × Bytes)
  | .streaming _ written _ | .naming written .. | .moving written _ => some (tmpPath, written)
  | .answered (.stored dest content) => some (dest, content)
  | _ => none

/-- The place of an upload among the others. -/
def Inbox.place (s : Inbox) (i : Nat) : Option (Path × Bytes) :=
  (s.stages i).place ((uploads i).tmpPath inboxDir)

/-- What an upload has is its own content, or the beginning of it; and it has
been answered with a file, if with 200. -/
def Stage.Own (u : Upload) : Stage → Prop
  | .streaming _ written rest => written ++ rest.flatten = u.content
  | .naming written .. | .moving written _ => written = u.content
  | .answered (.stored _ content) => content = u.content
  | .answered .nothing => False
  | _ => True

/-- Each upload has its file, with a handle at its end while it streams, and no
two have the same. No file is where an upload is about to go, and no two are
about to go to one place. -/
structure Inbox.Kept (s : Inbox) : Prop where
  own : ∀ i, (s.stages i).Own (uploads i)
  file : ∀ i p c, s.place inboxDir uploads i = some (p, c) → s.tree.view p = some (.file c)
  apart : ∀ i j p c q d, i ≠ j → s.place inboxDir uploads i = some (p, c) → s.place inboxDir uploads j = some (q, d) →
    s.tree.entries p ≠ s.tree.entries q
  handle : ∀ i file written rest, s.stages i = .streaming file written rest →
    s.tree.entries ((uploads i).tmpPath inboxDir) = some (.file file.inode) ∧ file.position = some written.length
  free : ∀ i written dest n, s.stages i = .moving written dest → s.tree.entries dest ≠ some (.file n)
  chosen : ∀ i j w w' dest dest', i ≠ j → s.stages i = .moving w dest → s.stages j = .moving w' dest' → dest ≠ dest'

/-- No upload lacks a boundary, takes a temporary name that is taken or about to
be, or finds a free name that another is about to take. -/
def KeepsApart (s : Inbox) (e : UploadStep) : Prop := match e.action with
  | .create => s.stages e.upload = .start →
    (uploads e.upload).hasBoundary = true ∧ s.tree.entries ((uploads e.upload).tmpPath inboxDir) = none ∧
      ∀ j w dest, s.stages j = .moving w dest → dest ≠ (uploads e.upload).tmpPath inboxDir
  | .check => ∀ w targetDir cleanName n, s.stages e.upload = .naming w targetDir cleanName n →
    s.tree.view.exists? (candidate targetDir cleanName n) = false →
    ∀ j w' dest, s.stages j = .moving w' dest → dest ≠ candidate targetDir cleanName n
  | _ => True

end

section

variable {cls : CharClass} {inboxDir : Path} {uploads : Nat → Upload} {s : Inbox} {i : Nat} {stage : Stage} {t : Tree}

theorem set_self : (s.set i stage t).stages i = stage := if_pos rfl

theorem set_other {j : Nat} (hj : j ≠ i) : (s.set i stage t).stages j = s.stages j := if_neg hj

/-- What an upload does to its own file, and where it is then, leaves the others
as they were. -/
structure Inbox.Moves (inboxDir : Path) (uploads : Nat → Upload) (s : Inbox) (i : Nat) (stage : Stage) (t : Tree) : Prop
    where
  own : stage.Own (uploads i)
  spares : Tree.Spares ((uploads i).tmpPath inboxDir) s.tree t
  others : ∀ j q c n, j ≠ i → s.place inboxDir uploads j = some (q, c) → s.tree.entries q = some (.file n) →
    s.tree.entries ((uploads i).tmpPath inboxDir) ≠ some (.file n)
  file : ∀ p c, stage.place ((uploads i).tmpPath inboxDir) = some (p, c) →
    ∃ n, t.entries p = some (.file n) ∧ t.content n = c ∧
      ∀ q m, s.tree.entries q = some (.file m) → s.tree.entries ((uploads i).tmpPath inboxDir) ≠ some (.file m) → m ≠ n
  handle : ∀ file written rest, stage = .streaming file written rest →
    t.entries ((uploads i).tmpPath inboxDir) = some (.file file.inode) ∧ file.position = some written.length
  free : ∀ j written dest n, j ≠ i → s.stages j = .moving written dest → t.entries dest ≠ some (.file n)
  goes : ∀ written dest, stage = .moving written dest → (∀ n, t.entries dest ≠ some (.file n)) ∧
    ∀ j w' dest', j ≠ i → s.stages j = .moving w' dest' → dest' ≠ dest

theorem place_self : (s.set i stage t).place inboxDir uploads i = stage.place ((uploads i).tmpPath inboxDir) := by
  rw [Inbox.place, set_self]

theorem place_other {j : Nat} (hj : j ≠ i) :
    (s.set i stage t).place inboxDir uploads j = s.place inboxDir uploads j := by
  rw [Inbox.place, set_other hj, Inbox.place]

/-- The file of another upload, before and after. -/
theorem Inbox.Moves.spared (h : s.Kept inboxDir uploads) (hmoves : s.Moves inboxDir uploads i stage t) {j : Nat}
    (hj : j ≠ i) {q : Path} {c : Bytes} (hplace : s.place inboxDir uploads j = some (q, c)) :
    ∃ n, s.tree.entries q = some (.file n) ∧ t.entries q = some (.file n) ∧ t.content n = c ∧
      s.tree.entries ((uploads i).tmpPath inboxDir) ≠ some (.file n) := by
  obtain ⟨n, hn, hc⟩ := Tree.view_file.mp (h.file j q c hplace)
  have hne := hmoves.others j q c n hj hplace hn
  obtain ⟨hq, hcontent, -⟩ := hmoves.spares q n hn hne
  exact ⟨n, hn, hq, hcontent.trans hc, hne⟩

theorem Inbox.Moves.kept (h : s.Kept inboxDir uploads) (hmoves : s.Moves inboxDir uploads i stage t) :
    (s.set i stage t).Kept inboxDir uploads where
  own j := by
    by_cases hj : j = i
    · subst hj
      rw [set_self]
      exact hmoves.own
    · rw [set_other hj]
      exact h.own j
  file j p c hplace := by
    by_cases hj : j = i
    · subst hj
      rw [place_self] at hplace
      obtain ⟨n, hn, hc, -⟩ := hmoves.file p c hplace
      exact Tree.view_file.mpr ⟨n, hn, hc⟩
    · rw [place_other hj] at hplace
      obtain ⟨n, -, hn, hc, -⟩ := hmoves.spared h hj hplace
      exact Tree.view_file.mpr ⟨n, hn, hc⟩
  apart j k p c q d hjk hp hq := by
    by_cases hj : j = i
    · subst hj
      have hk : k ≠ j := fun heq => hjk heq.symm
      rw [place_self] at hp
      rw [place_other hk] at hq
      obtain ⟨n, hn, -, hnew⟩ := hmoves.file p c hp
      obtain ⟨m, hm, hm', -, hne⟩ := hmoves.spared h hk hq
      have hmn := hnew q m hm hne
      show t.entries p ≠ t.entries q
      rw [hn, hm']
      simpa using Ne.symm hmn
    · rw [place_other hj] at hp
      obtain ⟨n, hn, hn', -, hne⟩ := hmoves.spared h hj hp
      show t.entries p ≠ t.entries q
      by_cases hk : k = i
      · subst hk
        rw [place_self] at hq
        obtain ⟨m, hm, -, hnew⟩ := hmoves.file q d hq
        have hnm := hnew p n hn hne
        rw [hn', hm]
        simpa using hnm
      · rw [place_other hk] at hq
        obtain ⟨m, hm, hm', -, -⟩ := hmoves.spared h hk hq
        have hold := h.apart j k p c q d hjk hp hq
        rw [hn, hm] at hold
        rw [hn', hm']
        exact hold
  handle j file written rest hstage := by
    by_cases hj : j = i
    · subst hj
      rw [set_self] at hstage
      exact hmoves.handle file written rest hstage
    · rw [set_other hj] at hstage
      have hplace : s.place inboxDir uploads j = some ((uploads j).tmpPath inboxDir, written) := by
        rw [Inbox.place, hstage]
        rfl
      obtain ⟨hold, hposition⟩ := h.handle j file written rest hstage
      obtain ⟨n, hn, hn', -, -⟩ := hmoves.spared h hj hplace
      rw [hold] at hn
      cases hn
      exact ⟨hn', hposition⟩
  free j written dest n hstage := by
    by_cases hj : j = i
    · subst hj
      rw [set_self] at hstage
      exact (hmoves.goes written dest hstage).1 n
    · rw [set_other hj] at hstage
      exact hmoves.free j written dest n hj hstage
  chosen j k w w' dest dest' hjk hj hk := by
    by_cases hji : j = i
    · subst hji
      have hki : k ≠ j := fun heq => hjk heq.symm
      rw [set_self] at hj
      rw [set_other hki] at hk
      exact ((hmoves.goes w dest hj).2 k w' dest' hki hk).symm
    · rw [set_other hji] at hj
      by_cases hki : k = i
      · subst hki
        rw [set_self] at hk
        exact (hmoves.goes w' dest' hk).2 j w dest hji hj
      · rw [set_other hki] at hk
        exact h.chosen j k w w' dest dest' hjk hj hk

/-! ## The steps of one upload -/

theorem set_same : s.set i (s.stages i) s.tree = s := by
  have hstages : (fun j => if j = i then s.stages i else s.stages j) = s.stages := by
    funext j
    split
    · rename_i hj
      rw [hj]
    · rfl
  rw [Inbox.set, hstages]

/-- The file of an upload that is on its way is no other's. -/
theorem Inbox.Kept.others (h : s.Kept inboxDir uploads) {w : Bytes}
    (hplace : s.place inboxDir uploads i = some ((uploads i).tmpPath inboxDir, w)) :
    ∀ j q c n, j ≠ i → s.place inboxDir uploads j = some (q, c) → s.tree.entries q = some (.file n) →
      s.tree.entries ((uploads i).tmpPath inboxDir) ≠ some (.file n) := by
  intro j q c n hj hq hn heq
  exact h.apart j i q c _ w hj hq hplace (hn.trans heq.symm)

/-- The upload goes on with its temporary file. -/
theorem Inbox.Moves.onward (h : s.Kept inboxDir uploads) {w w' : Bytes}
    (hplace : s.place inboxDir uploads i = some ((uploads i).tmpPath inboxDir, w)) (hown : stage.Own (uploads i))
    (hplace' : stage.place ((uploads i).tmpPath inboxDir) = some ((uploads i).tmpPath inboxDir, w'))
    (hspares : Tree.Spares ((uploads i).tmpPath inboxDir) s.tree t)
    (hfile : ∀ n, s.tree.entries ((uploads i).tmpPath inboxDir) = some (.file n) → s.tree.content n = w →
      t.entries ((uploads i).tmpPath inboxDir) = some (.file n) ∧ t.content n = w')
    (hhandle : ∀ file written rest, stage = .streaming file written rest →
      t.entries ((uploads i).tmpPath inboxDir) = some (.file file.inode) ∧ file.position = some written.length)
    (hfiles : ∀ q n, t.entries q = some (.file n) → s.tree.entries q = some (.file n))
    (hgoes : ∀ written dest, stage = .moving written dest → (∀ n, t.entries dest ≠ some (.file n)) ∧
      ∀ j w' dest', j ≠ i → s.stages j = .moving w' dest' → dest' ≠ dest) :
    s.Moves inboxDir uploads i stage t where
  own := hown
  spares := hspares
  others := h.others hplace
  file p c hp := by
    rw [hplace'] at hp
    cases hp
    obtain ⟨n, hn, hc⟩ := Tree.view_file.mp (h.file i _ _ hplace)
    obtain ⟨hn', hc'⟩ := hfile n hn hc
    refine ⟨n, hn', hc', ?_⟩
    intro q m _ hne hmn
    exact hne (hmn ▸ hn)
  handle := hhandle
  free j written dest n _ hstage hn := h.free j written dest n hstage (hfiles dest n hn)
  goes := hgoes

/-- The upload ends without a file. -/
theorem Inbox.Moves.ended {a : Answer} (h : s.Kept inboxDir uploads) (hown : (Stage.answered a).Own (uploads i))
    (hnone : (Stage.answered a).place ((uploads i).tmpPath inboxDir) = none)
    (hothers : ∀ j q c n, j ≠ i → s.place inboxDir uploads j = some (q, c) → s.tree.entries q = some (.file n) →
      s.tree.entries ((uploads i).tmpPath inboxDir) ≠ some (.file n))
    (hspares : Tree.Spares ((uploads i).tmpPath inboxDir) s.tree t)
    (hfiles : ∀ q n, t.entries q = some (.file n) → s.tree.entries q = some (.file n)) :
    s.Moves inboxDir uploads i (.answered a) t where
  own := hown
  spares := hspares
  others := hothers
  file p c hp := by
    rw [hnone] at hp
    cases hp
  handle := nofun
  free j written dest n _ hstage hn := h.free j written dest n hstage (hfiles dest n hn)
  goes := nofun

theorem dropGuard_spares {u : Upload} : Tree.Spares (u.tmpPath inboxDir) t (dropGuard inboxDir u t) ∧
    ∀ q n, (dropGuard inboxDir u t).entries q = some (.file n) → t.entries q = some (.file n) := by
  rw [dropGuard]
  cases hremove : t.remove (u.tmpPath inboxDir) with
  | none => exact ⟨.refl, fun _ _ hn => hn⟩
  | some t' =>
    refine ⟨Tree.remove_spares hremove, ?_⟩
    obtain ⟨hgone, -, hother⟩ := Tree.remove_some hremove
    intro q n hn
    rw [Option.getD_some] at hn
    by_cases hq : q = u.tmpPath inboxDir
    · rw [hq, hgone] at hn
      cases hn
    · rw [← hother q hq]
      exact hn

/-- The guard removes the temporary file of an upload that is given up. -/
theorem Inbox.Moves.dropped {a : Answer} (h : s.Kept inboxDir uploads) {w : Bytes}
    (hplace : s.place inboxDir uploads i = some ((uploads i).tmpPath inboxDir, w))
    (hown : (Stage.answered a).Own (uploads i))
    (hnone : (Stage.answered a).place ((uploads i).tmpPath inboxDir) = none) :
    s.Moves inboxDir uploads i (.answered a) (dropGuard inboxDir (uploads i) s.tree) :=
  .ended h hown hnone (h.others hplace) dropGuard_spares.1 dropGuard_spares.2

theorem tmpPath_not_above {u : Upload} : ¬ u.tmpPath inboxDir <+: inboxDir := by
  intro hpre
  have hle := hpre.length_le
  rw [Upload.tmpPath, List.length_append, List.length_singleton] at hle
  omega

theorem create_moves (h : s.Kept inboxDir uploads) (hstage : s.stages i = .start)
    (hboundary : (uploads i).hasBoundary = true)
    (hnew : s.tree.entries ((uploads i).tmpPath inboxDir) = none)
    (hfree : ∀ j w dest, s.stages j = .moving w dest → dest ≠ (uploads i).tmpPath inboxDir) :
    s.Moves inboxDir uploads i (act cls inboxDir (uploads i) (s.stages i) s.tree .create).1
      (act cls inboxDir (uploads i) (s.stages i) s.tree .create).2 := by
  have hothers : ∀ j q c n, j ≠ i → s.place inboxDir uploads j = some (q, c) → s.tree.entries q = some (.file n) →
      s.tree.entries ((uploads i).tmpPath inboxDir) ≠ some (.file n) := by
    intro j q c n _ _ _ hn
    rw [hnew] at hn
    cases hn
  simp only [act, hstage, hboundary, if_true]
  cases hdirs : s.tree.createDirAll inboxDir with
  | none => exact .ended h trivial rfl hothers .refl fun _ _ hn => hn
  | some t₁ =>
    obtain ⟨hcontent, hfiles, hsame⟩ := Tree.createDirAll_some hdirs
    have hnew₁ : t₁.entries ((uploads i).tmpPath inboxDir) = none := (hsame _ tmpPath_not_above).trans hnew
    simp only
    cases hcreate : t₁.create ((uploads i).tmpPath inboxDir) with
    | none => exact .ended h trivial rfl hothers (Tree.createDirAll_spares hdirs) fun q n hn => (hfiles q n).mp hn
    | some opened =>
      obtain ⟨file, t₂⟩ := opened
      obtain ⟨hposition, hentry, hempty, hrest, -, hinode⟩ := Tree.create_some hcreate
      have hfresh : file.inode = t₁.next := by
        rcases hinode with hold | hfresh
        · rw [hnew₁] at hold
          cases hold
        · exact hfresh
      refine ⟨?_, (Tree.createDirAll_spares hdirs).trans (Tree.create_spares hcreate), hothers, ?_, ?_, ?_, by simp⟩
      · simp [Stage.Own, Upload.content]
      · intro p c hp
        cases hp
        refine ⟨file.inode, hentry, hempty, ?_⟩
        intro q m hm _ heq
        have hlt := t₁.bounded ((hfiles q m).mpr hm)
        omega
      · intro f w r hstreaming
        cases hstreaming
        exact ⟨hentry, hposition⟩
      · intro j w dest n _ hj hn
        have hne := hfree j w dest hj
        rw [hrest dest hne] at hn
        exact h.free j w dest n hj ((hfiles dest n).mp hn)

theorem write_moves (h : s.Kept inboxDir uploads) {file : Handle} {written chunk : Bytes} {rest : List Bytes}
    (hstage : s.stages i = .streaming file written (chunk :: rest)) :
    s.Moves inboxDir uploads i (.streaming (s.tree.write file chunk).1 (written ++ chunk) rest)
      (s.tree.write file chunk).2 := by
  have hplace : s.place inboxDir uploads i = some ((uploads i).tmpPath inboxDir, written) := by
    rw [Inbox.place, hstage]
    rfl
  obtain ⟨hentry, hposition⟩ := h.handle i file written (chunk :: rest) hstage
  obtain ⟨n, hn, hc⟩ := Tree.view_file.mp (h.file i _ _ hplace)
  have hinode : n = file.inode := by
    rw [hn] at hentry
    cases hentry
    rfl
  subst hinode
  have hat : file.position = none ∨ file.position = some (s.tree.content file.inode).length := .inr (hc ▸ hposition)
  obtain ⟨hwritten, hend⟩ : (s.tree.write file chunk).2.content file.inode = s.tree.content file.inode ++ chunk ∧ _ :=
    Tree.write_end hat
  rw [hc] at hwritten hend
  refine .onward h hplace ?_ rfl (Tree.write_spares hentry) ?_ ?_ (fun _ _ hq => hq) (by simp)
  · have hown := h.own i
    rw [hstage] at hown
    simpa [Stage.Own] using hown
  · intro m hm _
    rw [hn] at hm
    cases hm
    exact ⟨hn, hwritten⟩
  · intro f w r hstreaming
    cases hstreaming
    refine ⟨hentry, hend.resolve_left ?_⟩
    intro hnone
    simp [Tree.write, hposition] at hnone

theorem finish_moves (h : s.Kept inboxDir uploads) {file : Handle} {written : Bytes}
    (hstage : s.stages i = .streaming file written []) :
    s.Moves inboxDir uploads i (act cls inboxDir (uploads i) (s.stages i) s.tree .finish).1
      (act cls inboxDir (uploads i) (s.stages i) s.tree .finish).2 := by
  have hplace : s.place inboxDir uploads i = some ((uploads i).tmpPath inboxDir, written) := by
    rw [Inbox.place, hstage]
    rfl
  have hown : written = (uploads i).content := by
    have hown := h.own i
    rw [hstage] at hown
    simpa [Stage.Own] using hown
  simp only [act, hstage]
  cases uploadTarget cls (uploads i).nameRand (uploads i).rawName with
  | none => exact .dropped h hplace trivial rfl
  | some target =>
    obtain ⟨subDir, cleanName⟩ := target
    cases subDir with
    | none => exact .onward h hplace hown rfl .refl (fun _ hn hc => ⟨hn, hc⟩) (by simp) (fun _ _ hn => hn) (by simp)
    | some sd =>
      simp only
      cases hdirs : s.tree.createDirAll (joinPath inboxDir sd) with
      | none => exact .dropped h hplace trivial rfl
      | some t₁ =>
        obtain ⟨hcontent, hfiles, -⟩ := Tree.createDirAll_some hdirs
        exact .onward h hplace hown rfl (Tree.createDirAll_spares hdirs)
          (fun n hn hc => ⟨(hfiles _ n).mpr hn, by rw [hcontent]; exact hc⟩) (by simp) (fun q n hn => (hfiles q n).mp hn) (by simp)

theorem check_moves (h : s.Kept inboxDir uploads) {written : Bytes} {targetDir : Path} {cleanName : String} {n : Nat}
    (hstage : s.stages i = .naming written targetDir cleanName n)
    (hfree : s.tree.view.exists? (candidate targetDir cleanName n) = false →
      ∀ j w' dest, s.stages j = .moving w' dest → dest ≠ candidate targetDir cleanName n) :
    s.Moves inboxDir uploads i (act cls inboxDir (uploads i) (s.stages i) s.tree .check).1
      (act cls inboxDir (uploads i) (s.stages i) s.tree .check).2 := by
  have hplace : s.place inboxDir uploads i = some ((uploads i).tmpPath inboxDir, written) := by
    rw [Inbox.place, hstage]
    rfl
  have hown : written = (uploads i).content := by
    have hown := h.own i
    rwa [hstage] at hown
  simp only [act, hstage]
  split
  · exact .onward h hplace hown rfl .refl (fun _ hn hc => ⟨hn, hc⟩) (by simp) (fun _ _ hn => hn) (by simp)
  · rename_i hexists
    have hexists : s.tree.view.exists? (candidate targetDir cleanName n) = false := by simpa using hexists
    refine .onward h hplace hown rfl .refl (fun _ hn hc => ⟨hn, hc⟩) (by simp) (fun _ _ hn => hn) ?_
    intro w dest hmoving
    cases hmoving
    refine ⟨?_, fun j w' dest' _ hj => hfree hexists j w' dest' hj⟩
    intro m hm
    have hview : s.tree.view (candidate targetDir cleanName n) = none := by
      simpa [Disk.Fs.exists?] using hexists
    rw [Tree.view_none.mp hview] at hm
    cases hm

theorem rename_moves (h : s.Kept inboxDir uploads) {written : Bytes} {finalPath : Path}
    (hstage : s.stages i = .moving written finalPath) :
    s.Moves inboxDir uploads i (act cls inboxDir (uploads i) (s.stages i) s.tree .rename).1
      (act cls inboxDir (uploads i) (s.stages i) s.tree .rename).2 := by
  have hplace : s.place inboxDir uploads i = some ((uploads i).tmpPath inboxDir, written) := by
    rw [Inbox.place, hstage]
    rfl
  have hown : written = (uploads i).content := by
    have hown := h.own i
    rwa [hstage] at hown
  simp only [act, hstage]
  cases hrename : s.tree.rename ((uploads i).tmpPath inboxDir) finalPath with
  | none => exact .dropped h hplace trivial rfl
  | some t' =>
    have hnone : s.tree.entries finalPath = none := by
      cases hentry : s.tree.entries finalPath with
      | none => rfl
      | some e =>
        cases e with
        | file n => exact absurd hentry (h.free i written finalPath n hstage)
        | dir => simp [Tree.rename_dir hentry] at hrename
    obtain ⟨n, hn, hdest, hcontent, hgone, hother⟩ := Tree.rename_some hrename
    obtain ⟨m, hm, hc⟩ := Tree.view_file.mp (h.file i _ _ hplace)
    rw [hn] at hm
    cases hm
    refine ⟨hown, Tree.rename_spares hrename hnone, h.others hplace, ?_, by simp, ?_, by simp⟩
    · intro p c hp
      cases hp
      refine ⟨n, hdest, by rw [hcontent]; exact hc, ?_⟩
      intro q m _ hne hmn
      exact hne (hmn ▸ hn)
    · intro j w dest k hj hmoving hk
      have hdests := h.chosen j i w written dest finalPath hj hmoving hstage
      by_cases htmp : dest = (uploads i).tmpPath inboxDir
      · exact h.free j w dest n hmoving (htmp ▸ hn)
      · rw [hother dest htmp hdests] at hk
        exact h.free j w dest k hmoving hk

/-! ## Every run -/

theorem Inbox.Kept.step (h : s.Kept inboxDir uploads) {e : UploadStep} (hapart : KeepsApart inboxDir uploads s e) :
    (s.step cls inboxDir uploads e).Kept inboxDir uploads := by
  obtain ⟨i, a⟩ := e
  have hidle : ∀ {a : Action}, act cls inboxDir (uploads i) (s.stages i) s.tree a = (s.stages i, s.tree) →
      (s.step cls inboxDir uploads ⟨i, a⟩).Kept inboxDir uploads := by
    intro a hact
    rw [Inbox.step, hact, set_same]
    exact h
  cases a with
  | create =>
    cases hstage : s.stages i with
    | start =>
      obtain ⟨hboundary, hnew, hfree⟩ := hapart hstage
      exact (create_moves h hstage hboundary hnew hfree).kept h
    | _ => exact hidle (by rw [hstage]; rfl)
  | write =>
    cases hstage : s.stages i with
    | streaming file written rest =>
      cases rest with
      | nil => exact hidle (by rw [hstage]; rfl)
      | cons chunk rest =>
        have hmoves := (write_moves h hstage).kept h
        rw [Inbox.step, hstage]
        exact hmoves
    | _ => exact hidle (by rw [hstage]; rfl)
  | finish =>
    cases hstage : s.stages i with
    | streaming file written rest =>
      cases rest with
      | nil => exact (finish_moves h hstage).kept h
      | cons chunk rest => exact hidle (by rw [hstage]; rfl)
    | _ => exact hidle (by rw [hstage]; rfl)
  | check =>
    cases hstage : s.stages i with
    | naming written targetDir cleanName n =>
      exact (check_moves h hstage (hapart written targetDir cleanName n hstage)).kept h
    | _ => exact hidle (by rw [hstage]; rfl)
  | rename =>
    cases hstage : s.stages i with
    | moving written finalPath => exact (rename_moves h hstage).kept h
    | _ => exact hidle (by rw [hstage]; rfl)
  | giveUp answer =>
    cases hstage : s.stages i with
    | streaming file written rest =>
      have hplace : s.place inboxDir uploads i = some ((uploads i).tmpPath inboxDir, written) := by
        rw [Inbox.place, hstage]
        rfl
      rw [Inbox.step, hstage]
      simp only [act]
      split
      · exact Inbox.Moves.kept h (.dropped h hplace trivial rfl)
      · exact Inbox.Moves.kept h (.dropped h hplace trivial rfl)
    | naming written targetDir cleanName n =>
      have hplace : s.place inboxDir uploads i = some ((uploads i).tmpPath inboxDir, written) := by
        rw [Inbox.place, hstage]
        rfl
      rw [Inbox.step, hstage]
      exact Inbox.Moves.kept h (.dropped h hplace trivial rfl)
    | moving written finalPath =>
      have hplace : s.place inboxDir uploads i = some ((uploads i).tmpPath inboxDir, written) := by
        rw [Inbox.place, hstage]
        rfl
      rw [Inbox.step, hstage]
      exact Inbox.Moves.kept h (.dropped h hplace trivial rfl)
    | start => exact hidle (by rw [hstage]; rfl)
    | answered answer' => exact hidle (by rw [hstage]; rfl)

theorem Inbox.Kept.start (tree : Tree) : (Inbox.start tree).Kept inboxDir uploads where
  own := fun _ => trivial
  file := nofun
  apart := nofun
  handle := nofun
  free := nofun
  chosen := nofun

/-- **No upload is lost when none takes another's name.** In any run whose steps
keep the uploads apart, from any disk: every upload that has been answered with
200 has a file of its own in the inbox, with exactly its own content. -/
theorem uploads_kept (cls : CharClass) (inboxDir : Path) (uploads : Nat → Upload) (tree : Tree) (es : List UploadStep)
    (hapart : Always (Inbox.step cls inboxDir uploads) (.start tree) (KeepsApart inboxDir uploads) es) (i : Nat) :
    (after (Inbox.step cls inboxDir uploads) (.start tree) es).stages i ≠ .answered .nothing ∧
    ∀ dest content, (after (Inbox.step cls inboxDir uploads) (.start tree) es).stages i =
        .answered (.stored dest content) →
      content = (uploads i).content ∧ InInbox cls inboxDir dest ∧
      (after (Inbox.step cls inboxDir uploads) (.start tree) es).tree.view dest = some (.file (uploads i).content) ∧
      ∀ j dest' content', j ≠ i →
        (after (Inbox.step cls inboxDir uploads) (.start tree) es).stages j = .answered (.stored dest' content') →
        dest' ≠ dest := by
  have hkept : (after (Inbox.step cls inboxDir uploads) (.start tree) es).Kept inboxDir uploads :=
    hapart.keeps (.start tree) fun _ _ he hs => hs.step he
  have hbound : ((after (Inbox.step cls inboxDir uploads) (.start tree) es).stages i).Bound cls inboxDir (uploads i) :=
    bound_after tree es i
  set s := after (Inbox.step cls inboxDir uploads) (.start tree) es
  have hown := hkept.own i
  refine ⟨?_, ?_⟩
  · intro hstage
    rw [hstage] at hown
    exact hown
  · intro dest content hstage
    rw [hstage] at hown hbound
    have hcontent : content = (uploads i).content := hown
    subst hcontent
    have hplace : s.place inboxDir uploads i = some (dest, (uploads i).content) := by
      rw [Inbox.place, hstage]
      rfl
    refine ⟨rfl, hbound.2, hkept.file i dest _ hplace, ?_⟩
    intro j dest' content' hj hstage' heq
    have hplace' : s.place inboxDir uploads j = some (dest', content') := by
      rw [Inbox.place, hstage']
      rfl
    exact hkept.apart j i dest' content' dest _ hj hplace' hplace (by rw [heq])

/-! ## Runs of few uploads -/

/-- An upload that takes no step stays where it is. -/
theorem idle_after {N : Nat} {tree : Tree} {es : List UploadStep} (hes : ∀ e ∈ es, e.upload < N) {j : Nat} (hj : N ≤ j) :
    (after (Inbox.step cls inboxDir uploads) (.start tree) es).stages j = .start := by
  refine after_induction (I := fun es s => (∀ e ∈ es, e.upload < N) → Inbox.stages s j = .start) (fun _ => rfl) ?_ es hes
  intro es e ih hes
  have hlt := hes e (by simp)
  rw [Inbox.step, set_other (by omega)]
  exact ih fun e he => hes e (by simp [he])

/-- No upload below `N` is about to go to a path. -/
def noneGoes (N : Nat) (s : Inbox) (p : Path) : Bool := (List.range N).all fun j => match s.stages j with
  | .moving _ dest => decide (dest ≠ p)
  | _ => true

/-- `KeepsApart`, computed for the uploads below `N`. -/
def keepsApart (inboxDir : Path) (uploads : Nat → Upload) (N : Nat) (s : Inbox) (e : UploadStep) : Bool :=
  match e.action, s.stages e.upload with
  | .create, .start =>
    (uploads e.upload).hasBoundary && (s.tree.entries ((uploads e.upload).tmpPath inboxDir)).isNone &&
      noneGoes N s ((uploads e.upload).tmpPath inboxDir)
  | .check, .naming _ targetDir cleanName n =>
    s.tree.view.exists? (candidate targetDir cleanName n) || noneGoes N s (candidate targetDir cleanName n)
  | _, _ => true

theorem noneGoes_sound {N : Nat} {p : Path} (hidle : ∀ j, N ≤ j → s.stages j = .start) (h : noneGoes N s p = true) :
    ∀ j w dest, s.stages j = .moving w dest → dest ≠ p := by
  intro j w dest hstage
  by_cases hj : N ≤ j
  · rw [hidle j hj] at hstage
    cases hstage
  · have hall := List.all_eq_true.mp h j (List.mem_range.mpr (Nat.lt_of_not_le hj))
    rw [hstage] at hall
    simpa using hall

theorem keepsApart_sound {N : Nat} {e : UploadStep} (hidle : ∀ j, N ≤ j → s.stages j = .start)
    (h : keepsApart inboxDir uploads N s e = true) : KeepsApart inboxDir uploads s e := by
  obtain ⟨i, a⟩ := e
  cases a with
  | create =>
    intro hstage
    simp only [keepsApart, hstage, Bool.and_eq_true, Option.isNone_iff_eq_none] at h
    exact ⟨h.1.1, h.1.2, noneGoes_sound hidle h.2⟩
  | check =>
    intro w targetDir cleanName n hstage hexists
    simp only [keepsApart, hstage, hexists, Bool.false_or] at h
    exact noneGoes_sound hidle h
  | write => trivial
  | finish => trivial
  | rename => trivial
  | giveUp answer => trivial

theorem uploads_kept_inTurn :
    (after (Inbox.step asciiClass ["inbox"] samplePics) (.start emptyInbox) inTurn).stages 0 =
        .answered (.stored ["inbox", "pics", "a_b.txt"] [0]) ∧
      (after (Inbox.step asciiClass ["inbox"] samplePics) (.start emptyInbox) inTurn).tree.view
        ["inbox", "pics", "a_b.txt"] = some (.file [0]) := by
  have hstage : (after (Inbox.step asciiClass ["inbox"] samplePics) (.start emptyInbox) inTurn).stages 0 =
      .answered (.stored ["inbox", "pics", "a_b.txt"] [0]) := by
    rfl
  have hholds : holds (Inbox.step asciiClass ["inbox"] samplePics) (keepsApart ["inbox"] samplePics 2)
      (.start emptyInbox) inTurn = true := by
    decide +kernel
  have hchecked : Always (Inbox.step asciiClass ["inbox"] samplePics) (.start emptyInbox)
      (fun s e => keepsApart ["inbox"] samplePics 2 s e = true) inTurn :=
    .of_holds (fun _ _ h => h) hholds
  have hapart : Always (Inbox.step asciiClass ["inbox"] samplePics) (.start emptyInbox)
      (KeepsApart ["inbox"] samplePics) inTurn := by
    intro es₁ e es₂ hes
    have hfew : ∀ e ∈ inTurn, e.upload < 2 := by decide
    refine keepsApart_sound ?_ (hchecked es₁ e es₂ hes)
    intro j hj
    exact idle_after (fun e he => hfew e (by simp [hes, he])) hj
  exact ⟨hstage, ((uploads_kept asciiClass ["inbox"] samplePics emptyInbox inTurn hapart 0).2 _ _ hstage).2.2.1⟩

/-- Both uploads look for a free name before either takes it. -/
def atOnce : List UploadStep :=
  [⟨0, .create⟩, ⟨1, .create⟩, ⟨0, .write⟩, ⟨1, .write⟩, ⟨0, .finish⟩, ⟨1, .finish⟩, ⟨0, .check⟩, ⟨1, .check⟩,
    ⟨0, .rename⟩, ⟨1, .rename⟩]

/-- Both are answered with 200 for one path, which has the content of the
second. -/
theorem upload_lost :
    (after (Inbox.step asciiClass ["inbox"] samplePics) (.start emptyInbox) atOnce).stages 0 =
        .answered (.stored ["inbox", "pics", "a_b.txt"] [0]) ∧
      (after (Inbox.step asciiClass ["inbox"] samplePics) (.start emptyInbox) atOnce).stages 1 =
        .answered (.stored ["inbox", "pics", "a_b.txt"] [1]) ∧
      (after (Inbox.step asciiClass ["inbox"] samplePics) (.start emptyInbox) atOnce).tree.view
        ["inbox", "pics", "a_b.txt"] = some (.file [1]) := by
  refine ⟨?_, ?_, ?_⟩
  · rfl
  · rfl
  · rfl

end

end Nxfr.Web

/-
One request to `POST /upload` of the web server (`nxfr-web/src/lib.rs`), from
its header lines to what `handle_connection` returns, and the files before and
after it.

The request brings what the header lines come to and what each read of the
connection gives; where the reads end, the client is gone. The loop over the
part headers is here, the one over the body is `bodyTurn`, and what follows it
on the disk is `act`. At every point the call under way may fail instead: on
the disk, on the connection, by its time limit, or with a panic. No other
upload is under way.
-/
import Nxfr.WebUploadFacts
import Nxfr.UploadNames

namespace Nxfr.Web

open Delimited History Inodes

/-! ## The request -/

/-- What a request brings: whether its credential is valid, what its header
lines give, what came after them and then with each read, the name that is
parsed out of the part headers, and the random bytes. -/
structure UploadRequest where
  valid : Bool
  boundary : Option Bytes
  contentLength : Option Nat
  buffered : Bytes
  reads : List Bytes
  partName : Bytes → Option String
  randBytes : List UInt8
  nameRand : Nat → List UInt8
  buffered_short : buffered.length < 1024
  reads_proper : ∀ n ∈ reads, n ≠ [] ∧ n.length ≤ readSize

/-- The blank line that ends headers. -/
def crlfCrlf : Bytes := [0x0d, 0x0a, 0x0d, 0x0a]

/-- All that comes after the request's headers. -/
def UploadRequest.bytes (r : UploadRequest) : Bytes := r.buffered ++ r.reads.flatten

/-- What comes after the part headers. -/
def UploadRequest.partBytes (r : UploadRequest) : Bytes := match find crlfCrlf r.bytes with
  | some pos => r.bytes.drop (pos + 4)
  | none => []

/-- The body of the part: nothing when the boundary follows the part headers at
once, else the bytes before the delimiter. -/
def partBody (boundary B : Bytes) : Option Bytes :=
  if altNeedle boundary <+: B then some [] else (find (needle boundary) B).map B.take

/-- What the part headers have settled. -/
structure Part where
  boundary : Bytes
  originalFilename : Option String

def UploadRequest.upload (r : UploadRequest) (p : Part) : Upload where
  hasBoundary := true
  originalFilename := p.originalFilename
  chunks := []
  randBytes := r.randBytes
  nameRand := r.nameRand

def UploadRequest.tmpPath (r : UploadRequest) (inboxDir : Path) : Path :=
  inboxDir ++ ["web_upload_" ++ hexEncode r.randBytes ++ ".tmp"]

/-! ## The handler -/

/-- The answers: 200, 403 and 413, and three that are 400. -/
inductive Response where
  | ok
  | forbidden
  | tooLarge
  | malformedHeaders
  | disconnectedPrematurely
  | tooDeep
  deriving DecidableEq

/-- How the handler returns: with its answer sent, with an answer that could not
be sent, or with an error before it has one. -/
inductive Outcome where
  | answered (response : Response)
  | unanswered (response : Response)
  | failed
  deriving DecidableEq

def Outcome.response : Outcome → Option Response
  | .answered response | .unanswered response => some response
  | .failed => none

/-- Where the handler is: after the header lines; in the loop over the part
headers; before the temporary file; in the loop over the body, before it looks
at its buffer and before it reads; after the loop; with an answer to send; at
its end. -/
inductive Phase where
  | headed
  | parting (boundary buffer : Bytes) (reads : List Bytes)
  | opening (p : Part) (buffer : Bytes) (reads : List Bytes)
  | turning (p : Part) (file : Handle) (written buffer : Bytes) (reads : List Bytes)
  | reading (p : Part) (file : Handle) (written buffer : Bytes) (reads : List Bytes)
  | placing (p : Part) (stage : Stage)
  | responding (response : Response)
  | returned (outcome : Outcome)

structure Handling where
  phase : Phase
  tree : Tree

/-- The call under way does its work, or it fails. -/
inductive Turn where
  | go
  | fail
  deriving DecidableEq

/-- What comes next after the loop over the body. -/
def Stage.next : Stage → Action
  | .streaming .. => .finish
  | .naming .. => .check
  | _ => .rename

/-- An upload that has been answered is told so; any other goes on. -/
def settle (p : Part) : Stage × Tree → Handling
  | (.answered (.stored _ _), tree) | (.answered .nothing, tree) => { phase := .responding .ok, tree }
  | (.answered .tooLarge, tree) => { phase := .responding .tooLarge, tree }
  | (.answered .tooDeep, tree) => { phase := .responding .tooDeep, tree }
  | (.answered .failed, tree) => { phase := .returned .failed, tree }
  | (stage, tree) => { phase := .placing p stage, tree }

/-- A piece of the body goes to the temporary file, if it has bytes. -/
def writeChunk (t : Tree) (file : Handle) (chunk : Bytes) : Handle × Tree :=
  if chunk = [] then (file, t) else t.write file chunk

namespace UploadRequest

variable (cls : CharClass) (inboxDir : Path) (maxFileSize : Nat) (r : UploadRequest)

/-- The handler goes on. -/
def go (s : Handling) : Handling := match s.phase with
  | .headed =>
    if r.valid then match r.boundary with
      | none => { s with phase := .responding .ok }
      | some boundary =>
        if r.contentLength.any (· > maxFileSize) then { s with phase := .responding .tooLarge }
        else { s with phase := .parting boundary r.buffered r.reads }
    else { s with phase := .responding .forbidden }
  | .parting boundary buffer reads => match find crlfCrlf buffer with
    | some pos => { s with phase := .opening ⟨boundary, r.partName (buffer.take pos)⟩ (buffer.drop (pos + 4)) reads }
    | none =>
      if buffer.length > 16384 then { s with phase := .responding .malformedHeaders }
      else match reads with
        | [] => { s with phase := .responding .disconnectedPrematurely }
        | n :: reads => { s with phase := .parting boundary (buffer ++ n) reads }
  | .opening p buffer reads => match act cls inboxDir (r.upload p) .start s.tree .create with
    | (.streaming file written _, tree) => { phase := .turning p file written buffer reads, tree }
    | stage => settle p stage
  | .turning p file written buffer reads => match bodyTurn p.boundary maxFileSize buffer written with
    | .more buffer written' =>
      let (file, tree) := writeChunk s.tree file (written'.drop written.length)
      { phase := .reading p file written' buffer reads, tree }
    | .done (.stored written') =>
      let (file, tree) := writeChunk s.tree file (written'.drop written.length)
      { phase := .placing p (.streaming file written' []), tree }
    | .done (.tooLarge _) =>
      settle p (act cls inboxDir (r.upload p) (.streaming file written []) s.tree (.giveUp .tooLarge))
    | .done (.disconnected _) =>
      settle p (act cls inboxDir (r.upload p) (.streaming file written []) s.tree (.giveUp .failed))
  | .reading p file written buffer reads => match reads with
    | [] => settle p (act cls inboxDir (r.upload p) (.streaming file written []) s.tree (.giveUp .failed))
    | n :: reads => { s with phase := .turning p file written (buffer ++ n) reads }
  | .placing p stage => settle p (act cls inboxDir (r.upload p) stage s.tree stage.next)
  | .responding response => { s with phase := .returned (.answered response) }
  | .returned _ => s

/-- The call under way fails. -/
def fail (s : Handling) : Handling := match s.phase with
  | .headed | .parting .. | .opening .. => { s with phase := .returned .failed }
  | .turning p file written _ _ | .reading p file written _ _ =>
    settle p (act cls inboxDir (r.upload p) (.streaming file written []) s.tree (.giveUp .failed))
  | .placing p stage => settle p (act cls inboxDir (r.upload p) stage s.tree (.giveUp .failed))
  | .responding response => { s with phase := .returned (.unanswered response) }
  | .returned _ => s

def handle (s : Handling) : Turn → Handling
  | .go => r.go cls inboxDir maxFileSize s
  | .fail => r.fail cls inboxDir s

end UploadRequest

def Handling.start (tree : Tree) : Handling := { phase := .headed, tree }

/-! ## The files while an upload is alone -/

section

variable {cls : CharClass} {inboxDir : Path} {u : Upload} {before t : Tree} {stage : Stage}

/-- Apart from the temporary file with what has been written, or from the file
that has been stored, the files are those from before. -/
def Stage.Fits (inboxDir : Path) (u : Upload) (before t : Tree) : Stage → Prop
  | .start => t = before ∧ ∀ n, before.entries (u.tmpPath inboxDir) ≠ some (.file n)
  | .streaming file written _ =>
    Tree.Adds (u.tmpPath inboxDir) written before t ∧ t.entries (u.tmpPath inboxDir) = some (.file file.inode) ∧
      file.position = some written.length
  | .naming written .. => Tree.Adds (u.tmpPath inboxDir) written before t
  | .moving written dest => Tree.Adds (u.tmpPath inboxDir) written before t ∧ t.entries dest = none
  | .answered (.stored dest content) => Tree.Adds dest content before t ∧ dest ≠ u.tmpPath inboxDir
  | .answered _ => Tree.Same before t

theorem dropGuard_same {written : Bytes} (h : Tree.Adds (u.tmpPath inboxDir) written before t) :
    Tree.Same before (dropGuard inboxDir u t) := by
  obtain ⟨t', hremove⟩ := h.remove_isSome
  rw [dropGuard, hremove]
  exact h.remove hremove

theorem create_fits (h : Stage.start.Fits inboxDir u before t) :
    (act cls inboxDir u .start t .create).1.Fits inboxDir u before (act cls inboxDir u .start t .create).2 := by
  obtain ⟨rfl, hfree⟩ := h
  simp only [act]
  split
  · cases hdirs : t.createDirAll inboxDir with
    | none => exact Tree.Same.refl
    | some t₁ =>
      have hsame := Tree.createDirAll_same hdirs
      simp only
      cases hcreate : t₁.create (u.tmpPath inboxDir) with
      | none => exact hsame
      | some opened =>
        obtain ⟨file, t₂⟩ := opened
        have hnext := Tree.createDirAll_next hdirs
        obtain ⟨hposition, hentry, -⟩ := Tree.create_some hcreate
        exact ⟨hsame.create (by omega) hfree hcreate, hentry, hposition⟩
  · exact Tree.Same.refl

theorem write_fits {file : Handle} {written chunk : Bytes} {rest : List Bytes}
    (h : (Stage.streaming file written rest).Fits inboxDir u before t) (rest' : List Bytes) :
    (Stage.streaming (t.write file chunk).1 (written ++ chunk) rest').Fits inboxDir u before (t.write file chunk).2 := by
  obtain ⟨hadds, hentry, hposition⟩ := h
  refine ⟨hadds.write hentry hposition, hentry, ?_⟩
  simp [Tree.write, hposition]

theorem finish_fits {file : Handle} {written : Bytes}
    (h : (Stage.streaming file written []).Fits inboxDir u before t) :
    (act cls inboxDir u (.streaming file written []) t .finish).1.Fits inboxDir u before
      (act cls inboxDir u (.streaming file written []) t .finish).2 := by
  simp only [act]
  cases uploadTarget cls u.nameRand u.rawName with
  | none => exact dropGuard_same h.1
  | some target =>
    obtain ⟨subDir, cleanName⟩ := target
    cases subDir with
    | none => exact h.1
    | some sd =>
      simp only
      cases hdirs : t.createDirAll (joinPath inboxDir sd) with
      | none => exact dropGuard_same h.1
      | some t₁ => exact h.1.createDirAll hdirs

theorem rename_fits {written : Bytes} {dest : Path} (h : (Stage.moving written dest).Fits inboxDir u before t) :
    (act cls inboxDir u (.moving written dest) t .rename).1.Fits inboxDir u before
      (act cls inboxDir u (.moving written dest) t .rename).2 := by
  obtain ⟨hadds, hfree⟩ := h
  simp only [act]
  cases hrename : t.rename (u.tmpPath inboxDir) dest with
  | none => exact dropGuard_same hadds
  | some t₁ =>
    refine ⟨hadds.rename hfree hrename, ?_⟩
    intro hdest
    obtain ⟨n, -, hn, -⟩ := hadds.own
    rw [← hdest, hfree] at hn
    cases hn

/-- Every step of an upload that is alone keeps the files so. -/
theorem Stage.Fits.act (h : stage.Fits inboxDir u before t) (a : Action) :
    (act cls inboxDir u stage t a).1.Fits inboxDir u before (act cls inboxDir u stage t a).2 := by
  cases a with
  | create =>
    cases stage with
    | start => exact create_fits h
    | _ => exact h
  | write =>
    cases stage with
    | streaming file written rest =>
      cases rest with
      | nil => exact h
      | cons chunk rest => exact write_fits h rest
    | _ => exact h
  | finish =>
    cases stage with
    | streaming file written rest =>
      cases rest with
      | nil => exact finish_fits h
      | cons chunk rest => exact h
    | _ => exact h
  | check =>
    cases stage with
    | naming written targetDir cleanName n =>
      simp only [Web.act]
      split
      · exact h
      · rename_i hexists
        refine ⟨h, ?_⟩
        have hview : t.view (candidate targetDir cleanName n) = none := by
          simpa [Disk.Fs.exists?] using hexists
        exact Tree.view_none.mp hview
    | _ => exact h
  | rename =>
    cases stage with
    | moving written dest => exact rename_fits h
    | _ => exact h
  | giveUp answer =>
    cases stage with
    | streaming file written rest =>
      simp only [Web.act]
      split
      · exact dropGuard_same h.1
      · exact dropGuard_same h.1
    | naming written targetDir cleanName n => exact dropGuard_same h
    | moving written dest => exact dropGuard_same h.1
    | start => exact h
    | answered answer' => exact h

/-! ## What the loops come to -/

theorem create_cases (hboundary : u.hasBoundary = true) :
    (∃ file t', act cls inboxDir u .start t .create = (.streaming file [] u.chunks, t')) ∨
      ∃ t', act cls inboxDir u .start t .create = (.answered .failed, t') := by
  simp only [act, hboundary, if_true]
  cases t.createDirAll inboxDir with
  | none => exact .inr ⟨t, rfl⟩
  | some t₁ =>
    simp only
    cases t₁.create (u.tmpPath inboxDir) with
    | none => exact .inr ⟨t₁, rfl⟩
    | some opened => exact .inl ⟨opened.1, opened.2, rfl⟩

theorem writeChunk_fits {file : Handle} {written : Bytes} {rest : List Bytes}
    (h : (Stage.streaming file written rest).Fits inboxDir u before t) (chunk : Bytes) :
    (Stage.streaming (writeChunk t file chunk).1 (written ++ chunk) []).Fits inboxDir u before
      (writeChunk t file chunk).2 := by
  rw [writeChunk]
  split
  · rename_i hnil
    rw [hnil, List.append_nil]
    exact h
  · exact write_fits h []

/-- What has been written stays, and only a read ends the connection. -/
def BodyTurn.Onward (written : Bytes) : BodyTurn → Prop
  | .more _ written' | .done (.stored written') => written <+: written'
  | .done (.tooLarge _) => True
  | .done (.disconnected _) => False

theorem bodyTurn_onward (boundary : Bytes) (maxAllowed : Nat) (buffer written : Bytes) :
    (bodyTurn boundary maxAllowed buffer written).Onward written := by
  unfold bodyTurn
  split
  · simp only
    split
    · split
      · trivial
      · exact List.prefix_append _ _
    · exact List.prefix_refl _
  · split
    · exact List.prefix_refl _
    · split
      · simp only
        split
        · trivial
        · exact List.prefix_append _ _
      · exact List.prefix_refl _

theorem drop_onward {written written' : Bytes} (h : written <+: written') :
    written ++ written'.drop written.length = written' := by
  obtain ⟨chunk, rfl⟩ := h
  rw [List.drop_left]

/-- What the loop stores is the part's body, but where the bytes leave it to the
reads. -/
theorem stored_partBody {boundary : Bytes} {maxAllowed : Nat} {g : Segmentation} {content : Bytes}
    (hstored : g.upload boundary maxAllowed = .stored content) (hfree : ¬ Contended boundary g.bytes) :
    partBody boundary g.bytes = some content := by
  rw [partBody]
  by_cases halt : altNeedle boundary <+: g.bytes
  · rw [if_pos halt]
    rw [opening_stored halt hfree rfl] at hstored
    cases hstored
    rfl
  · rw [if_neg halt]
    have hends : EndsAs boundary maxAllowed g.bytes (g.upload boundary maxAllowed) :=
      Segmentation.upload_ends rfl halt
    rw [hstored] at hends
    rcases Nat.lt_or_ge maxAllowed (bodyLength boundary g.bytes) with hover | hfit
    · obtain ⟨w, -, hw⟩ := hends.2 hover
      cases hw
    · have hend := hends.1 hfit
      rw [bodyEnd] at hend
      split at hend
      · rename_i pos hpos
        cases hend
        rw [hpos]
        rfl
      · cases hend

/-! ## The loop over the part headers -/

/-- In the loop: what is buffered and what is to come make up the bytes, and the
blank line is not in what was there before the last read. -/
structure Parting (r : UploadRequest) (buffer : Bytes) (reads : List Bytes) : Prop where
  split : r.bytes = buffer ++ reads.flatten
  proper : ∀ n ∈ reads, n ≠ [] ∧ n.length ≤ readSize
  recent : ∃ old n, buffer = old ++ n ∧ (∀ q, ¬ At crlfCrlf old q) ∧ n.length ≤ readSize

theorem Parting.start (r : UploadRequest) : Parting r r.buffered r.reads where
  split := rfl
  proper := r.reads_proper
  recent := by
    refine ⟨[], r.buffered, rfl, ?_, ?_⟩
    · intro q hat
      have hle := hat.length_le (by decide)
      simp [crlfCrlf] at hle
    · have hshort := r.buffered_short
      rw [readSize]
      omega

theorem Parting.read {r : UploadRequest} {buffer n : Bytes} {reads : List Bytes} (h : Parting r buffer (n :: reads))
    (hnone : find crlfCrlf buffer = none) : Parting r (buffer ++ n) reads where
  split := by
    rw [h.split, List.flatten_cons, List.append_assoc]
  proper := fun m hm => h.proper m (List.mem_cons_of_mem _ hm)
  recent := ⟨buffer, n, rfl, find_eq_none.mp hnone, (h.proper n List.mem_cons_self).2⟩

/-- The bytes after the part headers, as the loop over the body gets them. -/
theorem Parting.found {r : UploadRequest} {buffer : Bytes} {reads : List Bytes} (h : Parting r buffer reads) {pos : Nat}
    (hfind : find crlfCrlf buffer = some pos) :
    ∃ g : Segmentation, g.bytes = r.partBytes ∧ g.first = buffer.drop (pos + 4) ∧ g.reads = reads := by
  have hfirst := find_eq_some.mp hfind
  have hle : pos + 4 ≤ buffer.length := hfirst.1.length_le (by decide)
  obtain ⟨old, n, hbuffer, hold, hn⟩ := h.recent
  have hlate : old.length < pos + 4 := by
    by_contra hearly
    rw [hbuffer] at hfirst
    exact hold pos (hfirst.1.front (show pos + 4 ≤ old.length by omega))
  have hshort : (buffer.drop (pos + 4)).length < readSize := by
    rw [List.length_drop, hbuffer, List.length_append]
    rw [hbuffer, List.length_append] at hle
    omega
  refine ⟨⟨buffer.drop (pos + 4), reads, hshort, h.proper⟩, ?_, rfl, rfl⟩
  have hwhole : find crlfCrlf r.bytes = some pos := by
    rw [h.split]
    exact find_eq_some.mpr (hfirst.of_front (by decide) _)
  rw [UploadRequest.partBytes, hwhole]
  simp only [Segmentation.bytes]
  rw [h.split, List.drop_append_of_le_length hle]

/-! ## Every point of a request -/

/-- What an upload has of its file satisfies `P`, and it is not answered with
200 for nothing. -/
def Stage.Brings (P : Bytes → Prop) : Stage → Prop
  | .streaming _ written _ | .naming written .. | .moving written _ => P written
  | .answered (.stored _ content) => P content
  | .answered .nothing => False
  | _ => True

/-- The steps after the loop over the body do not change what it brings. -/
theorem Stage.Brings.act {P : Bytes → Prop} {a : Action} (h : stage.Brings P)
    (ha : a = stage.next ∨ ∃ answer, a = .giveUp answer) : (act cls inboxDir u stage t a).1.Brings P := by
  rcases ha with rfl | ⟨answer, rfl⟩
  · cases stage with
    | start => exact h
    | streaming file written rest =>
      cases rest with
      | cons chunk rest => exact h
      | nil =>
        simp only [Stage.next, Web.act]
        split
        · trivial
        · exact h
        · split
          · exact h
          · trivial
    | naming written targetDir cleanName n =>
      simp only [Stage.next, Web.act]
      split
      · exact h
      · exact h
    | moving written dest =>
      simp only [Stage.next, Web.act]
      split
      · exact h
      · trivial
    | answered answer => exact h
  · cases stage with
    | start => exact h
    | streaming file written rest =>
      simp only [Web.act]
      split
      · trivial
      · trivial
    | naming written targetDir cleanName n => trivial
    | moving written dest => trivial
    | answered answer' => exact h

end

section

variable (cls : CharClass) (inboxDir : Path) (maxFileSize : Nat) (r : UploadRequest) (before : Tree)

/-- The loop over the body stores these bytes, as the reads come. -/
def Stores (boundary content : Bytes) : Prop :=
  ∃ g : Segmentation, g.bytes = r.partBytes ∧ g.upload boundary maxFileSize = .stored content

/-- With an answer 200 to a request with a boundary there is one file more, that
which the loop stores; else there are the same files. -/
def Settled (response : Option Response) (t : Tree) : Prop :=
  (∀ boundary, r.boundary = some boundary → response = some .ok →
    ∃ dest content, InInbox cls inboxDir dest ∧ dest ≠ r.tmpPath inboxDir ∧ Tree.Adds dest content before t ∧
      Stores maxFileSize r boundary content) ∧
  (r.boundary = none ∨ response ≠ some .ok → Tree.Same before t)

/-- What holds at each point of the handler. -/
def Handling.Sound (s : Handling) : Prop := match s.phase with
  | .headed => s.tree = before
  | .parting boundary buffer reads => s.tree = before ∧ r.boundary = some boundary ∧ Parting r buffer reads
  | .opening p buffer reads =>
    s.tree = before ∧ r.boundary = some p.boundary ∧
      ∃ g : Segmentation, g.bytes = r.partBytes ∧ g.first = buffer ∧ g.reads = reads
  | .turning p file written buffer reads =>
    r.boundary = some p.boundary ∧ (Stage.streaming file written []).Fits inboxDir (r.upload p) before s.tree ∧
      (∀ n ∈ reads, n ≠ []) ∧ ∃ g : Segmentation, g.bytes = r.partBytes ∧
        bodyLoop p.boundary maxFileSize reads buffer written = g.upload p.boundary maxFileSize
  | .reading p file written buffer reads =>
    r.boundary = some p.boundary ∧ (Stage.streaming file written []).Fits inboxDir (r.upload p) before s.tree ∧
      (∀ n ∈ reads, n ≠ []) ∧ ∃ g : Segmentation, g.bytes = r.partBytes ∧ ∀ n reads', reads = n :: reads' →
        bodyLoop p.boundary maxFileSize reads' (buffer ++ n) written = g.upload p.boundary maxFileSize
  | .placing p stage =>
    r.boundary = some p.boundary ∧ stage.Fits inboxDir (r.upload p) before s.tree ∧
      stage.Bound cls inboxDir (r.upload p) ∧ stage.Brings (Stores maxFileSize r p.boundary)
  | .responding response => Settled cls inboxDir maxFileSize r before (some response) s.tree
  | .returned outcome => Settled cls inboxDir maxFileSize r before outcome.response s.tree

end

section

variable {cls : CharClass} {inboxDir : Path} {maxFileSize : Nat} {r : UploadRequest} {before : Tree}

/-- An answer other than 200, with the files as they were. -/
theorem Settled.same {response : Option Response} {t : Tree} (hsame : Tree.Same before t)
    (h : r.boundary = none ∨ response ≠ some .ok) : Settled cls inboxDir maxFileSize r before response t := by
  refine ⟨?_, fun _ => hsame⟩
  intro boundary hboundary hok
  rcases h with hnone | hother
  · rw [hnone] at hboundary
    cases hboundary
  · exact absurd hok hother

theorem settle_sound {p : Part} {st : Stage × Tree} (hboundary : r.boundary = some p.boundary)
    (hfits : st.1.Fits inboxDir (r.upload p) before st.2) (hbound : st.1.Bound cls inboxDir (r.upload p))
    (hstores : st.1.Brings (Stores maxFileSize r p.boundary)) :
    (settle p st).Sound cls inboxDir maxFileSize r before := by
  obtain ⟨stage, t⟩ := st
  cases stage with
  | start => exact ⟨hboundary, hfits, hbound, hstores⟩
  | streaming file written rest => exact ⟨hboundary, hfits, hbound, hstores⟩
  | naming written targetDir cleanName n => exact ⟨hboundary, hfits, hbound, hstores⟩
  | moving written dest => exact ⟨hboundary, hfits, hbound, hstores⟩
  | answered answer =>
    cases answer with
    | stored dest content =>
      refine ⟨?_, ?_⟩
      · intro boundary hboundary' _
        rw [hboundary] at hboundary'
        cases hboundary'
        exact ⟨dest, content, hbound.2, hfits.2, hfits.1, hstores⟩
      · intro hnot
        rcases hnot with hnone | hother
        · rw [hnone] at hboundary
          cases hboundary
        · exact absurd rfl hother
    | nothing => exact hstores.elim
    | tooLarge => exact .same hfits (.inr (by simp))
    | tooDeep => exact .same hfits (.inr (by simp))
    | failed => exact .same hfits (.inr (by simp [Outcome.response]))

/-- A step after the loop over the body. -/
theorem act_sound {p : Part} {stage : Stage} {t : Tree} {a : Action} (hboundary : r.boundary = some p.boundary)
    (hfits : stage.Fits inboxDir (r.upload p) before t) (hbound : stage.Bound cls inboxDir (r.upload p))
    (hstores : stage.Brings (Stores maxFileSize r p.boundary)) (ha : a = stage.next ∨ ∃ answer, a = .giveUp answer) :
    (settle p (act cls inboxDir (r.upload p) stage t a)).Sound cls inboxDir maxFileSize r before :=
  settle_sound hboundary (hfits.act a) (hbound.act t a) (hstores.act ha)

/-- The upload is given up in the loop over the body. -/
theorem giveUp_sound {p : Part} {file : Handle} {written : Bytes} {t : Tree} (answer : Answer)
    (hboundary : r.boundary = some p.boundary)
    (hfits : (Stage.streaming file written []).Fits inboxDir (r.upload p) before t) :
    (settle p (act cls inboxDir (r.upload p) (.streaming file written []) t (.giveUp answer))).Sound
      cls inboxDir maxFileSize r before := by
  have hbound : (Stage.streaming file written []).Bound cls inboxDir (r.upload p) := trivial
  refine settle_sound hboundary (hfits.act _) (hbound.act t _) ?_
  simp only [act]
  split
  · trivial
  · trivial

/-- A turn of the loop over the body. -/
theorem turning_sound {p : Part} {file : Handle} {written buffer : Bytes} {reads : List Bytes} {t : Tree}
    (h : (⟨.turning p file written buffer reads, t⟩ : Handling).Sound cls inboxDir maxFileSize r before) :
    (r.go cls inboxDir maxFileSize ⟨.turning p file written buffer reads, t⟩).Sound cls inboxDir maxFileSize r before := by
  obtain ⟨hboundary, hfits, hreads, g, hg, hloop⟩ := h
  have honward := bodyTurn_onward p.boundary maxFileSize buffer written
  simp only [UploadRequest.go]
  cases hturn : bodyTurn p.boundary maxFileSize buffer written with
  | more buffer' written' =>
    rw [hturn] at honward
    have hwrite := writeChunk_fits hfits (written'.drop written.length)
    rw [drop_onward honward] at hwrite
    refine ⟨hboundary, hwrite, hreads, g, hg, ?_⟩
    intro n reads' hcons
    subst hcons
    rw [bodyLoop, hturn] at hloop
    simpa only [if_neg (hreads n List.mem_cons_self)] using hloop
  | done e =>
    rw [bodyLoop_done hturn] at hloop
    rw [hturn] at honward
    cases e with
    | stored written' =>
      have hwrite := writeChunk_fits hfits (written'.drop written.length)
      rw [drop_onward honward] at hwrite
      exact ⟨hboundary, hwrite, trivial, g, hg, hloop.symm⟩
    | tooLarge w => exact giveUp_sound .tooLarge hboundary hfits
    | disconnected w => exact honward.elim

theorem opening_sound {p : Part} {buffer : Bytes} {reads : List Bytes} {t : Tree}
    (hfree : ∀ n, before.entries (r.tmpPath inboxDir) ≠ some (.file n))
    (h : (⟨.opening p buffer reads, t⟩ : Handling).Sound cls inboxDir maxFileSize r before) :
    (r.go cls inboxDir maxFileSize ⟨.opening p buffer reads, t⟩).Sound cls inboxDir maxFileSize r before := by
  obtain ⟨htree, hboundary, g, hg, hfirst, hreads⟩ := h
  have hfits : (act cls inboxDir (r.upload p) .start t .create).1.Fits inboxDir (r.upload p) before
      (act cls inboxDir (r.upload p) .start t .create).2 := create_fits ⟨htree, hfree⟩
  have hcases : (∃ file t', act cls inboxDir (r.upload p) .start t .create = (.streaming file [] [], t')) ∨
      ∃ t', act cls inboxDir (r.upload p) .start t .create = (.answered .failed, t') := create_cases rfl
  simp only [UploadRequest.go]
  rcases hcases with ⟨file, t', hact⟩ | ⟨t', hact⟩
  · rw [hact] at hfits ⊢
    refine ⟨hboundary, hfits, ?_, g, hg, ?_⟩
    · intro n hn
      exact (g.reads_proper n (hreads ▸ hn)).1
    · rw [← hfirst, ← hreads]
      rfl
  · rw [hact] at hfits ⊢
    exact .same hfits (.inr (by simp [Outcome.response]))

theorem go_sound {s : Handling} (hfree : ∀ n, before.entries (r.tmpPath inboxDir) ≠ some (.file n))
    (h : s.Sound cls inboxDir maxFileSize r before) :
    (r.go cls inboxDir maxFileSize s).Sound cls inboxDir maxFileSize r before := by
  obtain ⟨phase, t⟩ := s
  cases phase with
  | headed =>
    have htree : t = before := h
    subst htree
    simp only [UploadRequest.go]
    split
    · split
      · rename_i hnone
        exact .same .refl (.inl hnone)
      · rename_i boundary hboundary
        split
        · exact .same .refl (.inr (by simp))
        · exact ⟨rfl, hboundary, .start r⟩
    · exact .same .refl (.inr (by simp))
  | parting boundary buffer reads =>
    obtain ⟨htree, hboundary, hparting⟩ := h
    have htree : t = before := htree
    subst htree
    simp only [UploadRequest.go]
    split
    · rename_i pos hfind
      exact ⟨rfl, hboundary, hparting.found hfind⟩
    · rename_i hnone
      split
      · exact .same .refl (.inr (by simp))
      · cases reads with
        | nil => exact .same .refl (.inr (by simp))
        | cons n reads => exact ⟨rfl, hboundary, hparting.read hnone⟩
  | opening p buffer reads => exact opening_sound hfree h
  | turning p file written buffer reads => exact turning_sound h
  | reading p file written buffer reads =>
    obtain ⟨hboundary, hfits, hreads, g, hg, hloop⟩ := h
    cases reads with
    | nil => exact giveUp_sound .failed hboundary hfits
    | cons n reads =>
      exact ⟨hboundary, hfits, fun m hm => hreads m (List.mem_cons_of_mem _ hm), g, hg, hloop n reads rfl⟩
  | placing p stage =>
    obtain ⟨hboundary, hfits, hbound, hstores⟩ := h
    exact act_sound hboundary hfits hbound hstores (.inl rfl)
  | responding response => exact h
  | returned outcome => exact h

theorem fail_sound {s : Handling} (h : s.Sound cls inboxDir maxFileSize r before) :
    (r.fail cls inboxDir s).Sound cls inboxDir maxFileSize r before := by
  obtain ⟨phase, t⟩ := s
  have hfailed : t = before → Settled cls inboxDir maxFileSize r before Outcome.failed.response t := by
    intro htree
    subst htree
    exact .same .refl (.inr (by simp [Outcome.response]))
  cases phase with
  | headed => exact hfailed h
  | parting boundary buffer reads => exact hfailed h.1
  | opening p buffer reads => exact hfailed h.1
  | turning p file written buffer reads => exact giveUp_sound .failed h.1 h.2.1
  | reading p file written buffer reads => exact giveUp_sound .failed h.1 h.2.1
  | placing p stage =>
    obtain ⟨hboundary, hfits, hbound, hstores⟩ := h
    exact act_sound hboundary hfits hbound hstores (.inr ⟨_, rfl⟩)
  | responding response => exact h
  | returned outcome => exact h

/-- What holds at each point holds along every run. -/
theorem sound_after (hfree : ∀ n, before.entries (r.tmpPath inboxDir) ≠ some (.file n)) (es : List Turn) :
    (after (r.handle cls inboxDir maxFileSize) (.start before) es).Sound cls inboxDir maxFileSize r before := by
  have hstart : (Handling.start before).Sound cls inboxDir maxFileSize r before := rfl
  refine after_induction (I := fun _ s => Handling.Sound cls inboxDir maxFileSize r before s) hstart ?_ es
  intro es e ih
  cases e with
  | go => exact go_sound hfree ih
  | fail => exact fail_sound ih

/-! ## The files at the end -/

/-- One file more, in the inbox, with this content. -/
def Gained (cls : CharClass) (inboxDir : Path) (before t : Tree) (content : Bytes) : Prop :=
  ∃ dest, InInbox cls inboxDir dest ∧ before.view.read dest = none ∧ t.view.read dest = some content ∧
    ∀ q, q ≠ dest → t.view.read q = before.view.read q

/-- The same files. -/
def Unchanged (before t : Tree) : Prop := ∀ q, t.view.read q = before.view.read q

/-- A 200 comes with one file more, which has the body of the part, and every
other outcome with the same files; the temporary file is gone. -/
def AllOrNothing (cls : CharClass) (inboxDir : Path) (r : UploadRequest) (before t : Tree) (outcome : Outcome) : Prop :=
  (outcome = .answered .ok → ∃ content, Gained cls inboxDir before t content ∧
    ∀ boundary, r.boundary = some boundary → partBody boundary r.partBytes = some content) ∧
  (outcome ≠ .answered .ok → Unchanged before t ∧ t.view.read (r.tmpPath inboxDir) = none)

/-- A request for a file `a`, with the part in one read. -/
def sampleRequest (boundary : Option Bytes) (partBytes : Bytes) (hread : partBytes.length < 1000) : UploadRequest where
  valid := true
  boundary := boundary
  contentLength := none
  buffered := []
  reads := [crlfCrlf ++ partBytes]
  partName _ := some "a"
  randBytes := [0, 0, 0, 0, 0, 0, 0, 0]
  nameRand _ := []
  buffered_short := by decide
  reads_proper := by
    intro n hn
    cases List.mem_singleton.mp hn
    have hlen : crlfCrlf.length = 4 := rfl
    refine ⟨by simp [crlfCrlf], ?_⟩
    rw [List.length_append, readSize]
    omega

/-- `hi`, then the delimiter of the boundary `B`. -/
def sampleHi : UploadRequest := sampleRequest (some [0x42]) [0x68, 0x69, 0x0d, 0x0a, 0x2d, 0x2d, 0x42] (by decide)

/-- The boundary opens the part, and comes once more after a CRLF. -/
def sampleTwice : UploadRequest :=
  sampleRequest (some [0x42]) [0x2d, 0x2d, 0x42, 0x78, 0x0d, 0x0a, 0x2d, 0x2d, 0x42] (by decide)

/-- A file in the inbox that has the temporary name. -/
def takenInbox : Tree where
  entries p :=
    if p = ["inbox", "web_upload_0000000000000000.tmp"] then some (.file 0)
    else if p = [] ∨ p = ["inbox"] then some .dir
    else none
  content _ := [7]
  next := 1
  bounded {p n} h := by
    split at h
    · cases h
      decide
    · split at h
      · cases h
      · cases h

/-- A run that returns, and does not keep to `AllOrNothing`. -/
def Departs (r : UploadRequest) (before : Tree) (es : List Turn) (outcome : Outcome) : Prop :=
  (after (r.handle asciiClass ["inbox"] 100) (.start before) es).phase = .returned outcome ∧
    ¬ AllOrNothing asciiClass ["inbox"] r before (after (r.handle asciiClass ["inbox"] 100) (.start before) es).tree outcome

end

end Nxfr.Web

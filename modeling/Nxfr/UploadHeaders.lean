/-
The header lines of a request and of the part of an upload, as
`handle_connection` (`nxfr-web/src/lib.rs`) takes its values out of them.

A line is compared in lower case, with `to_lowercase`, and cut at a position
found in the lower-case copy. Past the names at the start of a line, which are
ASCII, that is a position of the line itself only where what stands before it
has as many bytes in lower case. A cut that is no position of the line panics
(`none`). A line is any text, as `from_utf8_lossy` and `from_utf8` make it.
-/
import Nxfr.Casing
import Nxfr.Strings

namespace Nxfr.Web

open Casing Strings

section

variable (finalSigma : Text → Text → Bool)

/-- What follows the name of a header, `offset` bytes long, where the line
starts with it. -/
def headerValue (name : String) (offset : Nat) (line : Text) : Option (Option Text) :=
  if name.toList.isPrefixOf (lowercase finalSigma line) then (sliceFrom offset line).map fun value => some (trim value)
  else some none

def userAgent (line : Text) : Option (Option Text) := headerValue finalSigma "user-agent:" 11 line

def bearer (line : Text) : Option (Option Text) := headerValue finalSigma "authorization: bearer " 22 line

def contentLength (line : Text) : Option (Option Text) := headerValue finalSigma "content-length:" 15 line

def rangeHeader (line : Text) : Option (Option Text) := headerValue finalSigma "range:" 6 line

def contains (pat : String) (s : Text) : Bool := (find pat.toList s).isSome

/-! ## The headers of `POST /upload` -/

/-- A `Content-Type` line of a form. -/
def isMultipart (line : Text) : Bool :=
  let lower := lowercase finalSigma line
  "content-type:".toList.isPrefixOf lower && contains "multipart/form-data" lower

/-- What the boundary is cut from. -/
def boundaryText (line : Text) : Option (Option Text) :=
  if isMultipart finalSigma line then match find "boundary=".toList (lowercase finalSigma line) with
    | some pos => (sliceFrom (pos + 9) line).map some
    | none => some none
  else some none

/-- The boundary, unless it is empty. -/
def boundaryValue (rawVal : Text) : Option Text :=
  let bVal := (trim rawVal).takeWhile (· != ';')
  let b := trimMatches (· == '\'') (trimMatches (· == '"') (trim bVal))
  if b ≠ [] then some b else none

structure UploadHeaders where
  contentLength : Option Nat
  boundary : Option Text
  authToken : Option Text

/-- One line of the headers. -/
def uploadHeader (h : UploadHeaders) (line : Text) : Option UploadHeaders :=
  if "content-length:".toList.isPrefixOf (lowercase finalSigma line) then
    (contentLength finalSigma line).map fun value => { h with contentLength := value.bind (parseUnsigned 64) }
  else if isMultipart finalSigma line then
    (boundaryText finalSigma line).map fun raw => { h with boundary := (raw.bind boundaryValue).or h.boundary }
  else (bearer finalSigma line).map fun token => { h with authToken := token.or h.authToken }

/-- `for line in lines` -/
def uploadHeaders (lines : List Text) : Option UploadHeaders :=
  lines.foldlM (uploadHeader finalSigma) ⟨none, none, none⟩

/-! ## The headers of the part -/

/-- What the file name is cut from: after `filename` and an opening quote, or
without one. -/
inductive FilenameText where
  | quoted (rest : Text)
  | bare (rest : Text)
  deriving DecidableEq

def isDisposition (line : Text) : Bool := contains "content-disposition:" (lowercase finalSigma line)

def filenameText (line : Text) : Option (Option FilenameText) :=
  if isDisposition finalSigma line then match find "filename=\"".toList (lowercase finalSigma line) with
    | some pos => (sliceFrom (pos + 10) line).map fun rest => some (.quoted rest)
    | none => match find "filename=".toList (lowercase finalSigma line) with
      | some pos => (sliceFrom (pos + 9) line).map fun rest => some (.bare rest)
      | none => some none
  else some none

/-- The file name, unless it is empty or its quote stays open. -/
def FilenameText.value : FilenameText → Option Text
  | .quoted rest =>
    if '"' ∈ rest then
      let fnVal := trim (rest.takeWhile (· != '"'))
      if fnVal ≠ [] then some fnVal else none
    else none
  | .bare rest =>
    let fnVal := trimMatches (· == '"') (trim rest)
    if fnVal ≠ [] then some fnVal else none

/-- One line of the part headers. -/
def partHeader (originalFilename : Option Text) (line : Text) : Option (Option Text) :=
  (filenameText finalSigma line).map fun text => (text.bind FilenameText.value).or originalFilename

/-- `for h_line in header_str.lines()` -/
def partHeaders (lines : List Text) : Option (Option Text) := lines.foldlM (partHeader finalSigma) none

/-- What a line must give: no cut panics, the boundary is cut from what follows
its first `boundary=`, and the file name from what follows its first
`filename=`, in letters of either case. -/
structure HeaderCuts (line : Text) : Prop where
  userAgentCut : (userAgent finalSigma line).isSome
  rangeCut : (rangeHeader finalSigma line).isSome
  bearerCut : (bearer finalSigma line).isSome
  contentLengthCut : (contentLength finalSigma line).isSome
  boundaryCut : (boundaryText finalSigma line).isSome
  filenameCut : (filenameText finalSigma line).isSome
  boundary : ∀ raw, boundaryText finalSigma line = some (some raw) →
    ∃ before, firstFold "boundary=".toList line = some (before, raw)
  quoted : ∀ rest, filenameText finalSigma line = some (some (.quoted rest)) →
    ∃ before, firstFold "filename=".toList line = some (before, '"' :: rest)
  bare : ∀ rest, filenameText finalSigma line = some (some (.bare rest)) →
    ∃ before, firstFold "filename=".toList line = some (before, rest)

/-- Where a line gives it: what stands before the first `boundary=` of a
`Content-Type`, and before the first `filename=` of a `Content-Disposition`, has
as many bytes in lower case; and that `filename=` is followed by a quote where
any of the line is. -/
def keepsPositions (line : Text) : Prop :=
  (isMultipart finalSigma line = true → ∀ before later, firstFold "boundary=".toList line = some (before, later) →
    lowerSize before = size before) ∧
  (isDisposition finalSigma line = true → ∀ before later, firstFold "filename=".toList line = some (before, later) →
    lowerSize before = size before ∧ ((firstFold "filename=\"".toList line).isSome → ∃ rest, later = '"' :: rest))

end

variable {finalSigma : Text → Text → Bool} {line : Text}

theorem headerValue_isSome {name : String} {offset : Nat} (hplain : isPlain name.toList = true)
    (hoffset : offset = name.toList.length) : (headerValue finalSigma name offset line).isSome := by
  unfold headerValue
  split
  · rename_i hstart
    rw [isPrefixOf_lowercase hplain] at hstart
    rw [hoffset, sliceFrom_starts hstart hplain]
    rfl
  · rfl

/-! ## The boundary -/

/-- The boundary is cut from what follows `boundary=` just where what stands
before it keeps its size. -/
theorem boundaryText_iff :
    ((boundaryText finalSigma line).isSome ∧ ∀ raw, boundaryText finalSigma line = some (some raw) →
      ∃ before, firstFold "boundary=".toList line = some (before, raw)) ↔
    (isMultipart finalSigma line = true → ∀ before later, firstFold "boundary=".toList line = some (before, later) →
      lowerSize before = size before) := by
  unfold boundaryText
  rw [find_lowercase (by decide) (by decide)]
  by_cases hmulti : isMultipart finalSigma line = true
  · rw [if_pos hmulti]
    cases hfirst : firstFold "boundary=".toList line with
    | none => simp
    | some found =>
      obtain ⟨before, later⟩ := found
      have hcut := lowerCut_iff hfirst (by decide)
      rw [hfirst] at hcut
      simpa [hmulti, Option.map_eq_some_iff] using hcut
  · rw [if_neg hmulti]
    simp [hmulti]

/-! ## The file name -/

theorem firstFold_quote {before later : Text} (h : firstFold "filename=".toList line = some (before, '"' :: later)) :
    firstFold "filename=\"".toList line = some (before, later) :=
  firstFold_snoc h rfl

theorem firstFold_of_quote (h : (firstFold "filename=\"".toList line).isSome) :
    (firstFold "filename=".toList line).isSome :=
  firstFold_of_snoc (c := '"') h

/-- A line with a quoted file name. -/
theorem quotedText_iff {before later : Text} (hquoted : firstFold "filename=\"".toList line = some (before, later)) :
    ((sliceFrom (lowerSize before + 10) line).isSome ∧ ∀ rest, sliceFrom (lowerSize before + 10) line = some rest →
      ∃ before, firstFold "filename=".toList line = some (before, '"' :: rest)) ↔
    ∀ before later, firstFold "filename=".toList line = some (before, later) →
      lowerSize before = size before ∧ ∃ rest, later = '"' :: rest := by
  have hcut : sliceFrom (lowerSize before + 10) line = some later ↔ lowerSize before = size before :=
    sliceFrom_firstFold_iff hquoted (by decide)
  constructor
  · intro ⟨hsome, hrest⟩ before' later' hfirst
    obtain ⟨rest, hslice⟩ := Option.isSome_iff_exists.mp hsome
    obtain ⟨b, hb⟩ := hrest rest hslice
    have hb' := firstFold_quote hb
    rw [hfirst] at hb
    rw [hquoted] at hb'
    cases hb
    cases hb'
    exact ⟨hcut.mp hslice, later, rfl⟩
  · intro hkeeps
    obtain ⟨⟨b, l⟩, hfirst⟩ := Option.isSome_iff_exists.mp (firstFold_of_quote (by rw [hquoted]; rfl))
    obtain ⟨hsize, rest, rfl⟩ := hkeeps b l hfirst
    have hb := firstFold_quote hfirst
    rw [hquoted] at hb
    cases hb
    rw [hcut.mpr hsize]
    refine ⟨rfl, ?_⟩
    intro rest' hslice
    cases hslice
    exact ⟨before, hfirst⟩

/-- The file name is cut from what follows `filename=` just where what stands
before it keeps its size, and a quote follows it if it follows any. -/
theorem filenameText_iff :
    ((filenameText finalSigma line).isSome ∧
      (∀ rest, filenameText finalSigma line = some (some (.quoted rest)) →
        ∃ before, firstFold "filename=".toList line = some (before, '"' :: rest)) ∧
      ∀ rest, filenameText finalSigma line = some (some (.bare rest)) →
        ∃ before, firstFold "filename=".toList line = some (before, rest)) ↔
    (isDisposition finalSigma line = true → ∀ before later, firstFold "filename=".toList line = some (before, later) →
      lowerSize before = size before ∧
        ((firstFold "filename=\"".toList line).isSome → ∃ rest, later = '"' :: rest)) := by
  unfold filenameText
  rw [find_lowercase (by decide) (by decide), find_lowercase (by decide) (by decide)]
  by_cases hdisp : isDisposition finalSigma line = true
  · rw [if_pos hdisp]
    cases hquoted : firstFold "filename=\"".toList line with
    | some found =>
      obtain ⟨before, later⟩ := found
      have hcut := quotedText_iff hquoted
      simpa [hdisp, Option.map_eq_some_iff] using hcut
    | none =>
      cases hfirst : firstFold "filename=".toList line with
      | none => simp
      | some found =>
        obtain ⟨before, later⟩ := found
        have hcut := lowerCut_iff hfirst (by decide)
        rw [hfirst] at hcut
        simpa [hdisp, Option.map_eq_some_iff] using hcut
  · rw [if_neg hdisp]
    simp [hdisp]

/-- **What a header line gives.** No cut of the line panics, and the boundary
and the file name are cut from what follows their names in the line, just where
the text before them keeps its size in lower case. -/
theorem headerCuts_iff (finalSigma : Text → Text → Bool) (line : Text) :
    HeaderCuts finalSigma line ↔ keepsPositions finalSigma line := by
  constructor
  · intro h
    exact ⟨boundaryText_iff.mp ⟨h.boundaryCut, h.boundary⟩, filenameText_iff.mp ⟨h.filenameCut, h.quoted, h.bare⟩⟩
  · intro ⟨hboundary, hfilename⟩
    obtain ⟨hb, hraw⟩ := boundaryText_iff.mpr hboundary
    obtain ⟨hf, hquoted, hbare⟩ := filenameText_iff.mpr hfilename
    exact ⟨headerValue_isSome (by decide) rfl, headerValue_isSome (by decide) rfl, headerValue_isSome (by decide) rfl,
      headerValue_isSome (by decide) rfl, hb, hf, hraw, hquoted, hbare⟩

/-- The Kelvin sign and the dotted capital I, the one with fewer and the other
with more bytes in lower case. -/
def kelvinLine : Text := "Content-Type: multipart/form-data; \u212a; boundary=abc".toList

def dottedLine : Text := "Content-Type: multipart/form-data; \u0130; boundary=".toList

def dottedName : Text := "Content-Disposition: form-data; name=\"\u0130\"; filename=\"a.txt\"".toList

/-- The boundary is cut too early, a cut panics, and a file name loses its first
letter. -/
theorem headerCuts_shifted :
    (uploadHeader (fun _ _ => false) ⟨none, none, none⟩ kelvinLine).map (·.boundary) = some (some "y=abc".toList) ∧
      (uploadHeader (fun _ _ => false) ⟨none, none, none⟩ dottedLine).isNone ∧
      partHeader (fun _ _ => false) none dottedName = some (some ".txt".toList) ∧
      ¬ ∀ finalSigma line, HeaderCuts finalSigma line := by
  refine ⟨by decide +kernel, by decide +kernel, by decide +kernel, ?_⟩
  intro h
  exact absurd (h (fun _ _ => false) dottedLine).boundaryCut (by decide +kernel)

/-! ## All the lines -/

theorem uploadHeader_isSome {h : UploadHeaders} (hline : keepsPositions finalSigma line) :
    (uploadHeader finalSigma h line).isSome := by
  have hboundary := (boundaryText_iff.mpr hline.1).1
  unfold uploadHeader
  split
  · rw [Option.isSome_map]
    exact headerValue_isSome (by decide) rfl
  · split
    · rwa [Option.isSome_map]
    · rw [Option.isSome_map]
      exact headerValue_isSome (by decide) rfl

theorem partHeader_isSome {f : Option Text} (hline : keepsPositions finalSigma line) :
    (partHeader finalSigma f line).isSome := by
  rw [partHeader, Option.isSome_map]
  exact (filenameText_iff.mpr hline.2).1

theorem foldlM_isSome {α : Type} {f : α → Text → Option α} {lines : List Text}
    (h : ∀ line ∈ lines, ∀ a, (f a line).isSome) (a : α) : (lines.foldlM f a).isSome := by
  induction lines generalizing a with
  | nil => rfl
  | cons line lines ih =>
    obtain ⟨b, hnext⟩ := Option.isSome_iff_exists.mp (h line (by simp) a)
    rw [List.foldlM_cons, hnext]
    exact ih (fun l hl => h l (by simp [hl])) b

/-- Headers whose lines all keep their positions are read to the end. -/
theorem headers_isSome {lines : List Text} (h : ∀ line ∈ lines, keepsPositions finalSigma line) :
    (uploadHeaders finalSigma lines).isSome ∧ (partHeaders finalSigma lines).isSome :=
  ⟨foldlM_isSome (fun line hline _ => uploadHeader_isSome (h line hline)) _,
    foldlM_isSome (fun line hline _ => partHeader_isSome (h line hline)) _⟩

end Nxfr.Web

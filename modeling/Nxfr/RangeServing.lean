/-
Range requests of the web server (`nxfr-web/src/lib.rs`): `parse_range_header`
and the loop that sends what it returns, the answer 206.

A read returns as many bytes as it likes, at least one while the file has any
and at most what is asked for; `give` says how many the `i`th read would like to
return. Writes succeed.
-/
import Nxfr.Messages
import Nxfr.Strings

namespace Nxfr.Web

open Strings

/-! ## The header -/

/-- `"bytes="` -/
def bytesUnit : List Char := ['b', 'y', 't', 'e', 's', '=']

/-- The two sides of the dash of the first range. -/
def rangeParts (headerVal : List Char) : Option (List Char × List Char) :=
  let s := trim headerVal
  if bytesUnit.isPrefixOf s then splitOnce '-' (trim ((s.drop 6).takeWhile (· != ','))) else none

def parseRangeHeader (headerVal : List Char) (fileSize : Nat) : Option (Nat × Nat) :=
  if fileSize = 0 then none
  else match rangeParts headerVal with
    | none => none
    | some (startStr, endStr) =>
      if startStr = [] then match parseUnsigned 64 endStr with
        | none => none
        | some suffixLen =>
          if suffixLen = 0 ∨ suffixLen > fileSize then none else some (fileSize - suffixLen, fileSize - 1)
      else match parseUnsigned 64 startStr, if endStr = [] then some (fileSize - 1) else parseUnsigned 64 endStr with
        | some start, some last =>
          if start > last ∨ start ≥ fileSize then none else some (start, min last (fileSize - 1))
        | _, _ => none

/-- Decimal digits of a number of 64 bits. -/
structure Digits where
  text : List Char
  nonempty : text ≠ []
  digits : ∀ c ∈ text, c.isDigit = true
  fits : decimal text < 2 ^ 64

def Digits.value (d : Digits) : Nat := decimal d.text

/-- What a range header may ask for: from one byte to another, from a byte on,
or so many bytes at the end. -/
inductive RangeForm where
  | between (start last : Digits)
  | since (start : Digits)
  | suffix (length : Digits)

def RangeForm.parts : RangeForm → List Char × List Char
  | .between start last => (start.text, last.text)
  | .since start => (start.text, [])
  | .suffix length => ([], length.text)

def RangeForm.header (f : RangeForm) : List Char := bytesUnit ++ (f.parts.1 ++ '-' :: f.parts.2)

/-- The bytes of a file that are asked for, clipped to the file. -/
def RangeForm.clip (size : Nat) : RangeForm → Option (Nat × Nat)
  | .between start last =>
    if size = 0 ∨ size ≤ start.value ∨ last.value < start.value then none
    else some (start.value, min last.value (size - 1))
  | .since start => if size = 0 ∨ size ≤ start.value then none else some (start.value, size - 1)
  | .suffix length =>
    if size = 0 ∨ length.value = 0 ∨ size < length.value then none else some (size - length.value, size - 1)

/-! ## The answer -/

/-- How many bytes a read returns that would like to return `want`. -/
def readCount (want toRead left : Nat) : Nat := if left = 0 then 0 else max 1 (min want (min toRead left))

/-- The loop of 206: what is sent, with so much remaining and the rest of the
file from the position on. -/
def rangeLoop (give : Nat → Nat) (i remaining : Nat) (rest sent : Bytes) : Bytes :=
  if remaining = 0 then sent
  else
    let toRead := min remaining 65536
    let n := readCount (give i) toRead rest.length
    if n = 0 then sent else rangeLoop give (i + 1) (remaining - n) (rest.drop n) (sent ++ rest.take n)
termination_by remaining
decreasing_by exact Nat.sub_lt (Nat.pos_of_ne_zero ‹¬ remaining = 0›) (Nat.pos_of_ne_zero ‹_›)

/-- The announced length and the bytes that are sent, for a range. -/
def serveRange (give : Nat → Nat) (file : Bytes) (start last : Nat) : Nat × Bytes :=
  let contentLength := last - start + 1
  (contentLength, rangeLoop give 0 contentLength (file.drop start) [])

/-! ## Parsing -/

/-- A range is one of the file. -/
theorem parseRangeHeader_bounds {headerVal : List Char} {size s e : Nat}
    (h : parseRangeHeader headerVal size = some (s, e)) : s ≤ e ∧ e < size := by
  unfold parseRangeHeader at h
  split at h
  · cases h
  · rename_i hsize
    split at h
    · cases h
    · split at h
      · split at h
        · cases h
        · split at h
          · cases h
          · cases h
            omega
      · split at h
        · split at h
          · cases h
          · cases h
            omega
        · cases h

theorem digit_ne {c d : Char} (hc : c.isDigit = true) (hd : d.isDigit = false) : c ≠ d := by
  intro h
  rw [h, hd] at hc
  cases hc

theorem digit_not_whitespace {c : Char} (h : c.isDigit = true) : isWhitespace c = false := by
  simp only [Char.isDigit, Bool.and_eq_true, decide_eq_true_eq] at h
  have h₁ : 48 ≤ c.toNat := UInt32.le_iff_toNat_le.mp h.1
  have h₂ : c.toNat ≤ 57 := UInt32.le_iff_toNat_le.mp h.2
  unfold isWhitespace
  simp only [Bool.or_eq_false_iff, Bool.and_eq_false_iff, decide_eq_false_iff_not, beq_eq_false_iff_ne]
  omega

/-- The header of a form is taken apart into its numbers. -/
theorem rangeParts_header (f : RangeForm) : rangeParts f.header = some f.parts := by
  have hparts : (∀ c ∈ f.parts.1, c.isDigit = true) ∧ ∀ c ∈ f.parts.2, c.isDigit = true := by
    cases f with
    | between start last => exact ⟨start.digits, last.digits⟩
    | since start => exact ⟨start.digits, by simp [RangeForm.parts]⟩
    | suffix length => exact ⟨by simp [RangeForm.parts], length.digits⟩
  obtain ⟨hfirst, hsecond⟩ := hparts
  obtain ⟨spec, hspec⟩ : ∃ spec, spec = f.parts.1 ++ '-' :: f.parts.2 := ⟨_, rfl⟩
  have hchars : ∀ c ∈ spec, c.isDigit = true ∨ c = '-' := by
    intro c hc
    rw [hspec, List.mem_append, List.mem_cons] at hc
    rcases hc with hc | hc | hc
    · exact .inl (hfirst c hc)
    · exact .inr hc
    · exact .inl (hsecond c hc)
  have hspace : ∀ c ∈ spec, isWhitespace c = false := by
    intro c hc
    rcases hchars c hc with hdigit | rfl
    · exact digit_not_whitespace hdigit
    · decide
  have hne : spec ≠ [] := by simp [hspec]
  have htrim : trim f.header = f.header := by
    refine trimMatches_eq_self ?_ ?_
    · intro c hc
      cases hc
      decide
    · intro c hc
      rw [RangeForm.header, ← hspec, List.getLast?_append_of_ne_nil _ hne] at hc
      exact hspace c (List.mem_of_getLast? hc)
  have hcomma : spec.takeWhile (· != ',') = spec := by
    rw [List.takeWhile_eq_self_iff]
    intro c hc
    rw [bne_iff_ne]
    rcases hchars c hc with hdigit | rfl
    · exact digit_ne hdigit (by decide)
    · decide
  have hinner : trim spec = spec :=
    trimMatches_eq_self (fun c hc => hspace c (List.mem_of_head? hc)) fun c hc => hspace c (List.mem_of_getLast? hc)
  have hdrop : f.header.drop 6 = spec := by
    rw [RangeForm.header, hspec]
    rfl
  have hprefix : bytesUnit.isPrefixOf f.header = true := by
    rw [List.isPrefixOf_iff_prefix]
    exact List.prefix_append _ _
  rw [rangeParts, htrim, if_pos hprefix, hdrop, hcomma, hinner, hspec]
  exact splitOnce_append fun hdash => digit_ne (hfirst '-' hdash) (by decide) rfl

theorem Digits.parse (d : Digits) : parseUnsigned 64 d.text = some d.value :=
  parseUnsigned_digits d.nonempty d.digits d.fits

/-- A form is answered with the bytes it asks for, clipped to the file. -/
theorem parseRangeHeader_form (f : RangeForm) (size : Nat) : parseRangeHeader f.header size = f.clip size := by
  rw [parseRangeHeader, rangeParts_header]
  by_cases hsize : size = 0
  · rw [if_pos hsize]
    cases f <;> simp [RangeForm.clip, hsize]
  · rw [if_neg hsize]
    cases f with
    | between start last =>
      simp only [RangeForm.parts, if_neg start.nonempty, if_neg last.nonempty, Digits.parse, RangeForm.clip]
      grind
    | since start =>
      simp only [RangeForm.parts, if_neg start.nonempty, if_true, Digits.parse, RangeForm.clip]
      grind
    | suffix length =>
      simp only [RangeForm.parts, if_true, Digits.parse, RangeForm.clip]
      grind

/-! ## Sending -/

/-- A read returns at most what is asked for and what is left, and nothing only
at the end of the file. -/
theorem readCount_spec (want left : Nat) {toRead : Nat} (h : 0 < toRead) :
    readCount want toRead left ≤ toRead ∧ readCount want toRead left ≤ left ∧
      (readCount want toRead left = 0 → left = 0) := by
  unfold readCount
  split <;> omega

/-- The loop sends what remains of the file, up to what is asked for. -/
theorem rangeLoop_eq (give : Nat → Nat) (i remaining : Nat) (rest sent : Bytes) :
    rangeLoop give i remaining rest sent = sent ++ rest.take remaining := by
  induction i, remaining, rest, sent using rangeLoop.induct give with
  | case1 i rest sent => simp [rangeLoop]
  | case2 i remaining rest sent hremaining toRead n hn =>
    have hspec := readCount_spec (give i) rest.length (show 0 < min remaining 65536 by omega)
    have hrest : rest = [] := List.eq_nil_of_length_eq_zero (hspec.2.2 hn)
    rw [rangeLoop, hrest]
    simp [readCount]
  | case3 i remaining rest sent hremaining toRead n hn ih =>
    have hspec := readCount_spec (give i) rest.length (show 0 < min remaining 65536 by omega)
    have hle : n ≤ remaining := Nat.le_trans hspec.1 (Nat.min_le_left _ _)
    have htake : rest.take remaining = rest.take n ++ (rest.drop n).take (remaining - n) := by
      rw [← List.take_add, Nat.add_sub_cancel' hle]
    rw [rangeLoop, if_neg hremaining]
    simp only [show readCount (give i) (min remaining 65536) rest.length = n from rfl, if_neg hn]
    rw [ih, htake, List.append_assoc]

/-- **Ranges are served as asked.** A range that is returned for a header is one
of the file; for a header of one of the three forms it is what is asked for,
clipped to the file, or none where the file is empty, the start is past its end
or past the last byte, or the suffix is empty or longer than the file; and of a
file of this size exactly these bytes are sent, as many as were announced,
however its reads come short. -/
theorem range_served :
    (∀ headerVal size s e, parseRangeHeader headerVal size = some (s, e) → s ≤ e ∧ e < size ∧
      ∀ (give : Nat → Nat) (file : Bytes), file.length = size →
        serveRange give file s e = (e - s + 1, (file.drop s).take (e - s + 1)) ∧
          ((file.drop s).take (e - s + 1)).length = e - s + 1) ∧
      ∀ (f : RangeForm) size, parseRangeHeader f.header size = f.clip size := by
  refine ⟨?_, parseRangeHeader_form⟩
  intro headerVal size s e h
  obtain ⟨hse, hsize⟩ := parseRangeHeader_bounds h
  refine ⟨hse, hsize, ?_⟩
  intro give file hfile
  constructor
  · rw [serveRange, rangeLoop_eq, List.nil_append]
  · rw [List.length_take, List.length_drop]
    omega

/-- Some of the cases of the test, and a header with a plus sign. -/
example : parseRangeHeader "bytes=0-2000".toList 1000 = some (0, 999) ∧
    parseRangeHeader " bytes=-500, 0-1".toList 1000 = some (500, 999) ∧
    parseRangeHeader "bytes=-1500".toList 1000 = none ∧ parseRangeHeader "bytes=+7-9".toList 1000 = some (7, 9) := by
  decide +kernel

end Nxfr.Web

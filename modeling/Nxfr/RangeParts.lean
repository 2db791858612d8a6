/-
A file that is fetched in parts: one `Range` request after another
(`nxfr-web/src/lib.rs`), each broken off where it likes, as a download manager
or a browser that resumes has them.

A part is put where its answer says it starts. The headers may be any text; a
range that is not one of the file is answered 416 and brings nothing.
-/
import Nxfr.History
import Nxfr.RangeServing

namespace Nxfr.Web

open History

/-! ## The client -/

/-- A request: its header, how the server's reads come short, and after how many
bytes of the body the connection breaks. -/
structure PartRequest where
  headerVal : List Char
  give : Nat → Nat
  cut : Nat

/-- Where the body of the answer belongs and what arrives of it, or nothing for
a 416. -/
def PartRequest.arrives (r : PartRequest) (file : Bytes) : Option (Nat × Bytes) :=
  match parseRangeHeader r.headerVal file.length with
  | none => none
  | some (start, last) => some (start, (serveRange r.give file start last).2.take r.cut)

/-- The bytes a client has, by their place in the file. -/
abbrev Parts := Nat → Option UInt8

/-- The bytes are put in their place. -/
def Parts.put (got : Parts) (start : Nat) (bytes : Bytes) : Parts := fun p =>
  if start ≤ p ∧ p < start + bytes.length then bytes[p - start]? else got p

def Parts.fetch (file : Bytes) (got : Parts) (r : PartRequest) : Parts := match r.arrives file with
  | none => got
  | some (start, bytes) => got.put start bytes

/-- The place is in the range that is served, before the break. -/
def PartRequest.Covers (r : PartRequest) (file : Bytes) (p : Nat) : Prop :=
  ∃ start last, parseRangeHeader r.headerVal file.length = some (start, last) ∧ start ≤ p ∧ p ≤ last ∧ p < start + r.cut

/-- The bytes after the requests. -/
def fetched (file : Bytes) (rs : List PartRequest) : Parts := after (Parts.fetch file) (fun _ => none) rs

/-! ## One request -/

/-- What arrives are the bytes of the file from the start on. -/
theorem serveRange_body {give : Nat → Nat} {file : Bytes} {start last : Nat} :
    (serveRange give file start last).2 = (file.drop start).take (last - start + 1) := by
  rw [serveRange, rangeLoop_eq, List.nil_append]

/-- A request brings the bytes of the places it covers, and changes no other
place. -/
theorem Parts.fetch_eq_some {file : Bytes} {got : Parts} {r : PartRequest} {p : Nat} {b : UInt8} :
    Parts.fetch file got r p = some b ↔ r.Covers file p ∧ file[p]? = some b ∨ ¬ r.Covers file p ∧ got p = some b := by
  cases hparse : parseRangeHeader r.headerVal file.length with
  | none =>
    have hnot : ¬ r.Covers file p := by
      rintro ⟨start, last, h, -⟩
      rw [hparse] at h
      cases h
    simp [fetch, PartRequest.arrives, hparse, hnot]
  | some range =>
    obtain ⟨start, last⟩ := range
    obtain ⟨hle, hlast⟩ := parseRangeHeader_bounds hparse
    have hcovers : r.Covers file p ↔ start ≤ p ∧ p ≤ last ∧ p < start + r.cut := by
      constructor
      · rintro ⟨start', last', h, hp⟩
        rw [hparse] at h
        cases h
        exact hp
      · intro hp
        exact ⟨start, last, hparse, hp⟩
    have hlen : (((file.drop start).take (last - start + 1)).take r.cut).length = min r.cut (last - start + 1) := by
      rw [List.length_take, List.length_take, List.length_drop]
      omega
    simp only [fetch, PartRequest.arrives, hparse, serveRange_body, put, hlen]
    by_cases hp : r.Covers file p
    · obtain ⟨hstart, hp', hcut⟩ := hcovers.mp hp
      rw [if_pos (by omega), List.getElem?_take_of_lt (by omega), List.getElem?_take_of_lt (by omega),
        List.getElem?_drop, Nat.add_sub_cancel' hstart]
      simp [hp]
    · have hout : ¬ (start ≤ p ∧ p < start + min r.cut (last - start + 1)) := by
        intro hin
        exact hp (hcovers.mpr (by omega))
      rw [if_neg hout]
      simp [hp]

/-! ## Runs -/

/-- A client has the byte of a place if and only if a request has covered it,
and then it is the file's. -/
theorem fetched_eq_some {file : Bytes} {rs : List PartRequest} {p : Nat} {b : UInt8} :
    fetched file rs p = some b ↔ file[p]? = some b ∧ ∃ r ∈ rs, r.Covers file p := by
  induction rs using List.reverseRecOn with
  | nil => simp [fetched, after]
  | append_singleton rs r ih =>
    rw [fetched, after_snoc, ← fetched, Parts.fetch_eq_some, ih]
    constructor
    · rintro (⟨hcovers, hb⟩ | ⟨-, hb, r', hr', hcovers⟩)
      · exact ⟨hb, r, by simp, hcovers⟩
      · exact ⟨hb, r', by simp [hr'], hcovers⟩
    · rintro ⟨hb, r', hr', hcovers⟩
      by_cases hr : r.Covers file p
      · exact .inl ⟨hr, hb⟩
      · refine .inr ⟨hr, hb, r', ?_, hcovers⟩
        rcases List.mem_append.mp hr' with hr' | hr'
        · exact hr'
        · rw [List.mem_singleton] at hr'
          subst hr'
          exact absurd hcovers hr

/-- A header that asks for all from some byte on covers what comes before the
break. -/
theorem covers_since {d : Digits} {give : Nat → Nat} {cut : Nat} {file : Bytes} {p : Nat} :
    PartRequest.Covers ⟨(RangeForm.since d).header, give, cut⟩ file p ↔
      d.value ≤ p ∧ p < file.length ∧ p < d.value + cut := by
  simp only [PartRequest.Covers, parseRangeHeader_form, RangeForm.clip]
  constructor
  · rintro ⟨start, last, h, hstart, hlast, hcut⟩
    split at h
    · cases h
    · cases h
      omega
  · rintro ⟨hstart, hlen, hcut⟩
    refine ⟨d.value, file.length - 1, ?_, hstart, by omega, hcut⟩
    rw [if_neg (by omega)]

/-- Requests that go on where the one before broke off, from the `n`th byte. -/
def Resumes (size : Nat) : Nat → List PartRequest → Prop
  | _, [] => True
  | n, r :: rs => (∃ d : Digits, d.value = n ∧ r.headerVal = (RangeForm.since d).header) ∧
      Resumes size (min size (n + r.cut)) rs

/-- How far they come. -/
def reached (size : Nat) : Nat → List PartRequest → Nat
  | n, [] => n
  | n, r :: rs => reached size (min size (n + r.cut)) rs

theorem le_reached {size n : Nat} (hn : n ≤ size) (rs : List PartRequest) :
    n ≤ reached size n rs ∧ reached size n rs ≤ size := by
  induction rs generalizing n with
  | nil => exact ⟨Nat.le_refl n, hn⟩
  | cons r rs ih =>
    obtain ⟨hle, hsize⟩ := ih (Nat.min_le_left size (n + r.cut))
    rw [reached]
    omega

/-- They cover what lies between. -/
theorem Resumes.covers {file : Bytes} {n : Nat} {rs : List PartRequest} (h : Resumes file.length n rs)
    (hn : n ≤ file.length) {p : Nat} : (∃ r ∈ rs, r.Covers file p) ↔ n ≤ p ∧ p < reached file.length n rs := by
  induction rs generalizing n with
  | nil =>
    simp only [List.not_mem_nil, false_and, exists_false, reached, false_iff]
    omega
  | cons r rs ih =>
    obtain ⟨⟨d, hd, hheader⟩, hrs⟩ := h
    have hfirst : r.Covers file p ↔ n ≤ p ∧ p < min file.length (n + r.cut) := by
      obtain ⟨headerVal, give, cut⟩ := r
      simp only at hheader
      subst hheader
      rw [covers_since, hd]
      change _ ↔ n ≤ p ∧ p < min file.length (n + cut)
      omega
    have hmore := ih hrs (Nat.min_le_left _ _)
    have hle := le_reached (Nat.min_le_left file.length (n + r.cut)) rs
    simp only [List.mem_cons, exists_eq_or_imp, hfirst, hmore, reached]
    omega

/-- **Parts make the file.** Over any `Range` requests, with any headers, in any
order, overlapping as they like and broken off anywhere, however the server's
reads come short: the client has the bytes of the places that were covered, each
the file's own, and no others. So it has the file exactly when every place was
covered; and a download that goes on each time where it broke off has the front
of the file, as far as it came. -/
theorem parts_assemble (file : Bytes) (rs : List PartRequest) :
    (∀ p b, fetched file rs p = some b ↔ file[p]? = some b ∧ ∃ r ∈ rs, r.Covers file p) ∧
      ((∀ p, fetched file rs p = file[p]?) ↔ ∀ p, p < file.length → ∃ r ∈ rs, r.Covers file p) ∧
      (Resumes file.length 0 rs → ∀ p, fetched file rs p = (file.take (reached file.length 0 rs))[p]?) := by
  refine ⟨fun p b => fetched_eq_some, ?_, ?_⟩
  · constructor
    · intro h p hp
      exact (fetched_eq_some.mp ((h p).trans (List.getElem?_eq_getElem hp))).2
    · intro h p
      refine Option.ext fun b => ?_
      rw [fetched_eq_some]
      constructor
      · exact fun hb => hb.1
      · intro hb
        exact ⟨hb, h p (List.getElem?_eq_some_iff.mp hb).1⟩
  · intro h p
    refine Option.ext fun b => ?_
    rw [fetched_eq_some, h.covers (Nat.zero_le _), List.getElem?_take]
    split
    · rename_i hp
      simp [hp]
    · rename_i hp
      simp [hp]

/-- Three bytes in two requests, the first broken off after two. -/
def resumedRequests : List PartRequest :=
  [⟨(RangeForm.since ⟨['0'], by decide, by simp, by decide +kernel⟩).header, fun _ => 1, 2⟩,
    ⟨(RangeForm.since ⟨['2'], by decide, by simp, by decide +kernel⟩).header, fun _ => 9, 4⟩]

/-- The second brings the third. -/
theorem third_byte_resumed : Resumes 3 0 resumedRequests ∧ fetched [10, 20, 30] resumedRequests 2 = some 30 := by
  have hresumes : Resumes 3 0 resumedRequests := ⟨⟨_, rfl, rfl⟩, ⟨_, rfl, rfl⟩, trivial⟩
  refine ⟨hresumes, ?_⟩
  rw [(parts_assemble [10, 20, 30] resumedRequests).2.2 hresumes 2]
  rfl

end Nxfr.Web

/-
The body of an upload and the reads it comes in. With a body that does not
begin with the boundary, the loop ends as the bytes as a whole say
(`upload_exact`). With one that does, it looks at what the first reads happen
to hold, and the iff of `upload_independent_iff` says when that shows.
-/
import Nxfr.WebUpload

namespace Nxfr.Web

open Delimited

section

variable {boundary : Bytes} {maxAllowed : Nat} {B buffer written rest : Bytes}

theorem needle_ne (boundary : Bytes) : needle boundary ≠ [] := by
  simp [needle]

theorem needle_length (boundary : Bytes) : (needle boundary).length = (altNeedle boundary).length + 2 := by
  simp [needle, altNeedle]

theorem altNeedle_length (boundary : Bytes) : 2 ≤ (altNeedle boundary).length := by
  simp [altNeedle]

/-! ## One turn -/

/-- The delimiter is not there, what is safe to write is within the limit, and
the buffer does not begin with the boundary. -/
theorem bodyTurn_more (hno : ∀ q, ¬ At (needle boundary) buffer q)
    (halt : ¬ (written = [] ∧ altNeedle boundary <+: buffer))
    (hfit : written.length + (buffer.length - (needle boundary).length) ≤ maxAllowed) :
    bodyTurn boundary maxAllowed buffer written =
      .more (buffer.drop (buffer.length - (needle boundary).length))
        (written ++ buffer.take (buffer.length - (needle boundary).length)) := by
  have hcond : ¬ (written.length = 0 ∧ (altNeedle boundary).isPrefixOf buffer = true) := by
    simpa [List.isPrefixOf_iff_prefix] using halt
  rw [bodyTurn, find_eq_none.mpr hno]
  simp only [if_neg hcond]
  by_cases hlong : buffer.length > (needle boundary).length
  · have hlen : ¬ written.length + (buffer.take (buffer.length - (needle boundary).length)).length > maxAllowed := by
      rw [List.length_take]
      omega
    simp only [if_pos hlong, if_neg hlen]
  · have hzero : buffer.length - (needle boundary).length = 0 := by omega
    simp only [if_neg hlong, hzero, List.drop_zero, List.take_zero, List.append_nil]

theorem bodyTurn_overflow (hno : ∀ q, ¬ At (needle boundary) buffer q)
    (halt : ¬ (written = [] ∧ altNeedle boundary <+: buffer)) (hle : written.length ≤ maxAllowed)
    (hover : maxAllowed < written.length + (buffer.length - (needle boundary).length)) :
    bodyTurn boundary maxAllowed buffer written = .done (.tooLarge written) := by
  have hcond : ¬ (written.length = 0 ∧ (altNeedle boundary).isPrefixOf buffer = true) := by
    simpa [List.isPrefixOf_iff_prefix] using halt
  have hlong : buffer.length > (needle boundary).length := by omega
  have hlen : written.length + (buffer.take (buffer.length - (needle boundary).length)).length > maxAllowed := by
    rw [List.length_take]
    omega
  rw [bodyTurn, find_eq_none.mpr hno]
  simp only [if_neg hcond, if_pos hlong, if_pos hlen]

theorem bodyTurn_found {pos : Nat} (hfirst : FirstAt (needle boundary) buffer pos) (hle : written.length ≤ maxAllowed) :
    bodyTurn boundary maxAllowed buffer written = .done
      (if written.length + pos ≤ maxAllowed then .stored (written ++ buffer.take pos) else .tooLarge written) := by
  have hpos := hfirst.1.length_le (needle_ne boundary)
  have htake : (buffer.take pos).length = pos := by
    rw [List.length_take]
    omega
  rw [bodyTurn, find_eq_some.mpr hfirst]
  by_cases hzero : pos = 0
  · subst hzero
    simp [hle]
  · have hne : buffer.take pos ≠ [] := by
      intro hnil
      rw [hnil] at htake
      exact hzero htake.symm
    simp only [ne_eq, hne, not_false_eq_true, if_true, htake]
    by_cases hfit : written.length + pos ≤ maxAllowed
    · rw [if_pos hfit, if_neg (by omega)]
    · rw [if_neg hfit, if_pos (by omega)]

theorem bodyTurn_alt (hno : ∀ q, ¬ At (needle boundary) buffer q) (halt : altNeedle boundary <+: buffer) :
    bodyTurn boundary maxAllowed buffer [] = .done (.stored []) := by
  have hcond : ([] : Bytes).length = 0 ∧ (altNeedle boundary).isPrefixOf buffer = true :=
    ⟨rfl, List.isPrefixOf_iff_prefix.mpr halt⟩
  rw [bodyTurn, find_eq_none.mpr hno]
  simp only [if_pos hcond]

/-! ## What the bytes as a whole say -/

/-- As many bytes as the loop writes when the limit allows it: those before the
delimiter, or all but the last ones. -/
def bodyLength (boundary B : Bytes) : Nat := (find (needle boundary) B).getD (B.length - (needle boundary).length)

/-- The end of the loop when the limit allows it. -/
def bodyEnd (boundary B : Bytes) : BodyEnd := match find (needle boundary) B with
  | some pos => .stored (B.take pos)
  | none => .disconnected (B.take (B.length - (needle boundary).length))

/-- An end is the one the bytes say. -/
def EndsAs (boundary : Bytes) (maxAllowed : Nat) (B : Bytes) (e : BodyEnd) : Prop :=
  (bodyLength boundary B ≤ maxAllowed → e = bodyEnd boundary B) ∧
    (maxAllowed < bodyLength boundary B → ∃ w, w.length ≤ maxAllowed ∧ e = .tooLarge w)

/-- In the loop: what is written, what is held back and what is to come make up
the bytes, and the delimiter does not begin within what is written. -/
structure Streaming (boundary : Bytes) (maxAllowed : Nat) (B buffer written rest : Bytes) : Prop where
  split : B = written ++ buffer ++ rest
  fits : written.length ≤ maxAllowed
  passed : ∀ q, q < written.length → ¬ At (needle boundary) B q
  kept : written = [] ∨ (needle boundary).length ≤ buffer.length

theorem Streaming.start (boundary : Bytes) (maxAllowed : Nat) (buffer rest : Bytes) :
    Streaming boundary maxAllowed (buffer ++ rest) buffer [] rest where
  split := rfl
  fits := Nat.zero_le _
  passed := fun q hq => absurd hq (Nat.not_lt_zero q)
  kept := .inl rfl

namespace Streaming

theorem found (h : Streaming boundary maxAllowed B buffer written rest) {pos : Nat}
    (hfirst : FirstAt (needle boundary) buffer pos) : FirstAt (needle boundary) B (written.length + pos) := by
  have hle := hfirst.1.length_le (needle_ne boundary)
  rw [h.split, List.append_assoc]
  refine ⟨at_append_left.mpr (hfirst.1.append (needle_ne boundary) rest), ?_⟩
  intro q hq hat
  by_cases hlt : q < written.length
  · exact h.passed q hlt (by rw [h.split, List.append_assoc]; exact hat)
  · obtain ⟨r, rfl⟩ := Nat.exists_eq_add_of_le (Nat.le_of_not_lt hlt)
    exact hfirst.2 r (by omega) ((at_append_left.mp hat).front (by omega))

/-- A delimiter that is not in the buffer ends beyond it. -/
theorem beyond (h : Streaming boundary maxAllowed B buffer written rest)
    (hno : ∀ q, ¬ At (needle boundary) buffer q) {q : Nat} (hat : At (needle boundary) B q) :
    written.length + buffer.length < q + (needle boundary).length := by
  by_contra hend
  by_cases hlt : q < written.length
  · exact h.passed q hlt hat
  · obtain ⟨r, rfl⟩ := Nat.exists_eq_add_of_le (Nat.le_of_not_lt hlt)
    rw [h.split, List.append_assoc] at hat
    exact hno r ((at_append_left.mp hat).front (by omega))

theorem le_bodyLength (h : Streaming boundary maxAllowed B buffer written rest)
    (hno : ∀ q, ¬ At (needle boundary) buffer q) :
    written.length + buffer.length - (needle boundary).length ≤ bodyLength boundary B := by
  rw [bodyLength]
  cases hfind : find (needle boundary) B with
  | some p =>
    have hbeyond := h.beyond hno (find_eq_some.mp hfind).1
    simp only [Option.getD_some]
    omega
  | none =>
    have hlen : B.length = written.length + buffer.length + rest.length := by
      rw [h.split, List.length_append, List.length_append]
    simp only [Option.getD_none]
    omega

/-- A turn of the loop that goes on. -/
theorem more (h : Streaming boundary maxAllowed B buffer written rest)
    (hno : ∀ q, ¬ At (needle boundary) buffer q)
    (hfit : written.length + (buffer.length - (needle boundary).length) ≤ maxAllowed) :
    Streaming boundary maxAllowed B (buffer.drop (buffer.length - (needle boundary).length))
      (written ++ buffer.take (buffer.length - (needle boundary).length)) rest where
  split := by
    rw [List.append_assoc written, List.take_append_drop]
    exact h.split
  fits := by
    rw [List.length_append, List.length_take]
    omega
  passed := by
    intro q hq hat
    have hbeyond := h.beyond hno hat
    rw [List.length_append, List.length_take] at hq
    by_cases hlt : q < written.length
    · exact h.passed q hlt hat
    · omega
  kept := by
    by_cases hlong : (needle boundary).length ≤ buffer.length
    · right
      rw [List.length_drop]
      omega
    · left
      have hzero : buffer.length - (needle boundary).length = 0 := by omega
      rw [hzero, List.take_zero, List.append_nil]
      exact h.kept.resolve_right hlong

theorem read {n : Bytes} (h : Streaming boundary maxAllowed B buffer written (n ++ rest)) :
    Streaming boundary maxAllowed B (buffer ++ n) written rest where
  split := by simpa using h.split
  fits := h.fits
  passed := h.passed
  kept := h.kept.imp id fun hle => by
    rw [List.length_append]
    omega

/-- A turn of the loop that ends it. -/
theorem done (h : Streaming boundary maxAllowed B buffer written rest) {pos : Nat}
    (hfirst : FirstAt (needle boundary) buffer pos) :
    EndsAs boundary maxAllowed B
      (if written.length + pos ≤ maxAllowed then .stored (written ++ buffer.take pos) else .tooLarge written) := by
  have hle := hfirst.1.length_le (needle_ne boundary)
  have hfind := find_eq_some.mpr (h.found hfirst)
  have htake : B.take (written.length + pos) = written ++ buffer.take pos := by
    rw [h.split, List.append_assoc, List.take_length_add_append, List.take_append_of_le_length (by omega)]
  rw [EndsAs, bodyLength, bodyEnd, hfind]
  simp only [Option.getD_some]
  constructor
  · intro hfit
    rw [if_pos hfit, htake]
  · intro hover
    exact ⟨written, h.fits, if_neg (by omega)⟩

theorem overflow (h : Streaming boundary maxAllowed B buffer written rest)
    (hno : ∀ q, ¬ At (needle boundary) buffer q)
    (hover : maxAllowed < written.length + (buffer.length - (needle boundary).length)) :
    EndsAs boundary maxAllowed B (.tooLarge written) := by
  have hle := h.le_bodyLength hno
  have hfits := h.fits
  exact ⟨fun hfit => by omega, fun _ => ⟨written, h.fits, rfl⟩⟩

theorem exhausted (h : Streaming boundary maxAllowed B buffer written [])
    (hno : ∀ q, ¬ At (needle boundary) buffer q)
    (hfit : written.length + (buffer.length - (needle boundary).length) ≤ maxAllowed) :
    EndsAs boundary maxAllowed B (.disconnected (written ++ buffer.take (buffer.length - (needle boundary).length))) := by
  have hsplit : B = written ++ buffer := by simpa using h.split
  have hnone : find (needle boundary) B = none := by
    refine find_eq_none.mpr fun q hat => ?_
    have hbeyond := h.beyond hno hat
    have hle := hat.length_le (needle_ne boundary)
    rw [hsplit, List.length_append] at hle
    omega
  have hlen : B.length - (needle boundary).length = written.length + (buffer.length - (needle boundary).length) := by
    rw [hsplit, List.length_append]
    rcases h.kept with hnil | hle
    · simp [hnil]
    · omega
  have htake : B.take (B.length - (needle boundary).length) =
      written ++ buffer.take (buffer.length - (needle boundary).length) := by
    rw [hlen, hsplit, List.take_length_add_append]
  rw [EndsAs, bodyLength, bodyEnd, hnone]
  constructor
  · intro _
    simp only [htake]
  · intro hover
    rw [Option.getD_none, hlen] at hover
    omega

theorem quiet (h : Streaming boundary maxAllowed B buffer written rest) (halt : ¬ altNeedle boundary <+: B) :
    ¬ (written = [] ∧ altNeedle boundary <+: buffer) := by
  intro hcond
  obtain ⟨hnil, hpre⟩ := hcond
  have hB : B = buffer ++ rest := by simpa [hnil] using h.split
  rw [hB] at halt
  exact halt (hpre.trans (List.prefix_append _ _))

/-- What a turn comes to: an end that the bytes say, or the loop goes on. -/
theorem turn (h : Streaming boundary maxAllowed B buffer written rest) (halt : ¬ altNeedle boundary <+: B) :
    (∃ e, bodyTurn boundary maxAllowed buffer written = .done e ∧ EndsAs boundary maxAllowed B e) ∨
      ∃ buffer' written', bodyTurn boundary maxAllowed buffer written = .more buffer' written' ∧
        Streaming boundary maxAllowed B buffer' written' rest ∧
        (rest = [] → EndsAs boundary maxAllowed B (.disconnected written')) := by
  have hquiet := h.quiet halt
  cases hfind : find (needle boundary) buffer with
  | some pos =>
    have hfirst := find_eq_some.mp hfind
    exact .inl ⟨_, bodyTurn_found hfirst h.fits, h.done hfirst⟩
  | none =>
    have hno := find_eq_none.mp hfind
    by_cases hfit : written.length + (buffer.length - (needle boundary).length) ≤ maxAllowed
    · refine .inr ⟨_, _, bodyTurn_more hno hquiet hfit, h.more hno hfit, ?_⟩
      intro hrest
      subst hrest
      exact h.exhausted hno hfit
    · have hover := Nat.lt_of_not_le hfit
      exact .inl ⟨_, bodyTurn_overflow hno hquiet h.fits hover, h.overflow hno hover⟩

end Streaming

/-! ## The whole loop -/

/-- However the bytes come, the loop ends as they say, if they do not begin with
the boundary. -/
theorem Streaming.bodyLoop {reads : List Bytes} (hreads : ∀ n ∈ reads, n ≠ [])
    (h : Streaming boundary maxAllowed B buffer written reads.flatten) (halt : ¬ altNeedle boundary <+: B) :
    EndsAs boundary maxAllowed B (bodyLoop boundary maxAllowed reads buffer written) := by
  induction reads generalizing buffer written with
  | nil =>
    rcases h.turn halt with ⟨e, hturn, hends⟩ | ⟨buffer', written', hturn, -, hends⟩
    · rw [Web.bodyLoop, hturn]
      exact hends
    · rw [Web.bodyLoop, hturn]
      exact hends rfl
  | cons n reads ih =>
    rcases h.turn halt with ⟨e, hturn, hends⟩ | ⟨buffer', written', hturn, hstream, -⟩
    · rw [Web.bodyLoop, hturn]
      exact hends
    · rw [Web.bodyLoop, hturn]
      simp only [if_neg (hreads n List.mem_cons_self)]
      exact ih (fun m hm => hreads m (List.mem_cons_of_mem _ hm)) hstream.read

/-- **An upload has the bytes before the delimiter.** For any boundary, any
bytes after the part headers that do not begin with the boundary and any way
they come in reads: where the delimiter stands somewhere, the loop stores
exactly the bytes before its first place, or ends with 413 when they are more
than the limit; where it stands nowhere, it ends with 413 or with an error. -/
theorem upload_exact (boundary : Bytes) (maxAllowed : Nat) (first : Bytes) (reads : List Bytes)
    (hreads : ∀ n ∈ reads, n ≠ []) (halt : ¬ altNeedle boundary <+: first ++ reads.flatten) :
    (∀ p, FirstAt (needle boundary) (first ++ reads.flatten) p →
      (p ≤ maxAllowed →
        bodyLoop boundary maxAllowed reads first [] = .stored ((first ++ reads.flatten).take p)) ∧
      (maxAllowed < p → ∃ w, bodyLoop boundary maxAllowed reads first [] = .tooLarge w)) ∧
    ((∀ p, ¬ At (needle boundary) (first ++ reads.flatten) p) →
      (∃ w, bodyLoop boundary maxAllowed reads first [] = .tooLarge w) ∨
        ∃ w, bodyLoop boundary maxAllowed reads first [] = .disconnected w) := by
  have hends := (Streaming.start boundary maxAllowed first reads.flatten).bodyLoop hreads halt
  constructor
  · intro p hfirst
    rw [EndsAs, bodyLength, bodyEnd, find_eq_some.mpr hfirst] at hends
    refine ⟨hends.1, ?_⟩
    intro hover
    obtain ⟨w, -, hw⟩ := hends.2 hover
    exact ⟨w, hw⟩
  · intro hno
    rw [EndsAs, bodyLength, bodyEnd, find_eq_none.mpr hno] at hends
    rcases Nat.lt_or_ge maxAllowed ((none : Option Nat).getD ((first ++ reads.flatten).length - (needle boundary).length))
      with hover | hfit
    · obtain ⟨w, -, hw⟩ := hends.2 hover
      exact .inl ⟨w, hw⟩
    · exact .inr ⟨_, hends.1 hfit⟩

/-- `hi`, then the delimiter of the boundary `B`, split within its CRLF. -/
theorem upload_exact_split :
    bodyLoop [0x42] 10 [[0x0a, 0x2d, 0x2d], [0x42, 0x2d, 0x2d]] [0x68, 0x69, 0x0d] [] = .stored [0x68, 0x69] := by
  have hfirst : FirstAt (needle [0x42]) ([0x68, 0x69, 0x0d] ++ [[0x0a, 0x2d, 0x2d], [0x42, 0x2d, 0x2d]].flatten) 2 :=
    find_eq_some.mp (by decide)
  exact ((upload_exact [0x42] 10 [0x68, 0x69, 0x0d] [[0x0a, 0x2d, 0x2d], [0x42, 0x2d, 0x2d]] (by decide)
    (by decide)).1 2 hfirst).1 (by decide)

/-! ## Two ways to come in reads -/

/-- The size of the buffer that `read` fills. -/
def readSize : Nat := 65536

/-- How the bytes after the part headers come: some with the read that ended the
headers, the others in reads that are not empty and fit the buffer. -/
structure Segmentation where
  first : Bytes
  reads : List Bytes
  first_short : first.length < readSize
  reads_proper : ∀ n ∈ reads, n ≠ [] ∧ n.length ≤ readSize

def Segmentation.bytes (s : Segmentation) : Bytes := s.first ++ s.reads.flatten

/-- The loop on the bytes as they come. -/
def Segmentation.upload (boundary : Bytes) (maxAllowed : Nat) (s : Segmentation) : BodyEnd :=
  bodyLoop boundary maxAllowed s.reads s.first []

/-- What is left of an end when the guard has removed the temporary file. -/
def BodyEnd.guarded : BodyEnd → BodyEnd
  | .stored written => .stored written
  | .tooLarge _ => .tooLarge []
  | .disconnected _ => .disconnected []

/-- The bytes begin with the boundary, and the delimiter may come within the
first buffer that shows it. -/
def Contended (boundary B : Bytes) : Prop :=
  altNeedle boundary <+: B ∧
    ∃ p, FirstAt (needle boundary) B p ∧ p + (needle boundary).length ≤ (altNeedle boundary).length - 1 + readSize

/-- Byte by byte, but for one read of `m` bytes after the first `k`. -/
def Segmentation.cut (B : Bytes) (k m : Nat) (hk : k < B.length) (hm : 0 < m) (hsize : m ≤ readSize) :
    Segmentation where
  first := []
  reads := (B.take k).map (fun b => [b]) ++ (B.drop k).take m :: (B.drop (k + m)).map fun b => [b]
  first_short := by decide
  reads_proper := by
    have hsingle : ∀ b : UInt8, [b] ≠ [] ∧ [b].length ≤ readSize := by
      intro b
      exact ⟨by simp, by rw [List.length_singleton]; decide⟩
    intro n hn
    rcases List.mem_append.mp hn with hn | hn
    · obtain ⟨b, -, rfl⟩ := List.mem_map.mp hn
      exact hsingle b
    · rcases List.mem_cons.mp hn with rfl | hn
      · refine ⟨?_, ?_⟩
        · intro hnil
          have hlen := congrArg List.length hnil
          rw [List.length_take, List.length_drop, List.length_nil] at hlen
          omega
        · rw [List.length_take]
          omega
      · obtain ⟨b, -, rfl⟩ := List.mem_map.mp hn
        exact hsingle b

theorem flatten_singles (xs : Bytes) : (xs.map fun b => [b]).flatten = xs := by
  induction xs with
  | nil => rfl
  | cons x xs ih => simp [ih]

theorem Segmentation.cut_bytes {k m : Nat} {hk : k < B.length} {hm : 0 < m} {hsize : m ≤ readSize} :
    (Segmentation.cut B k m hk hm hsize).bytes = B := by
  simp only [Segmentation.bytes, Segmentation.cut, List.nil_append, List.flatten_append, List.flatten_cons,
    flatten_singles]
  rw [← List.drop_drop, List.take_append_drop, List.take_append_drop]

/-- While nothing is decided the loop holds what it has seen: the last bytes in
the buffer, the others written. -/
theorem bodyTurn_quiet (hkept : written = [] ∨ (needle boundary).length ≤ buffer.length)
    (hno : ∀ q, ¬ At (needle boundary) (written ++ buffer) q) (halt : ¬ altNeedle boundary <+: written ++ buffer)
    (hfit : (written ++ buffer).length - (needle boundary).length ≤ maxAllowed) :
    bodyTurn boundary maxAllowed buffer written =
      .more ((written ++ buffer).drop ((written ++ buffer).length - (needle boundary).length))
        ((written ++ buffer).take ((written ++ buffer).length - (needle boundary).length)) := by
  have hlen : (written ++ buffer).length - (needle boundary).length =
      written.length + (buffer.length - (needle boundary).length) := by
    rw [List.length_append]
    rcases hkept with hnil | hle
    · simp [hnil]
    · omega
  have hbuffer : ∀ q, ¬ At (needle boundary) buffer q := fun q hat => hno _ (at_append_left.mpr hat)
  have hquiet : ¬ (written = [] ∧ altNeedle boundary <+: buffer) := by
    intro hcond
    obtain ⟨rfl, hpre⟩ := hcond
    exact halt hpre
  rw [hlen] at hfit ⊢
  rw [bodyTurn_more hbuffer hquiet hfit, List.take_length_add_append, ← List.drop_drop, List.drop_left]

theorem bodyLoop_singles {xs n : Bytes} (reads : List Bytes) (hn : n ≠ [])
    (hkept : written = [] ∨ (needle boundary).length ≤ buffer.length)
    (hno : ∀ q, ¬ At (needle boundary) (written ++ buffer ++ xs) q)
    (halt : ¬ altNeedle boundary <+: written ++ buffer ++ xs)
    (hfit : (written ++ buffer ++ xs).length - (needle boundary).length ≤ maxAllowed) :
    bodyLoop boundary maxAllowed (xs.map (fun b => [b]) ++ n :: reads) buffer written =
      bodyLoop boundary maxAllowed reads
        ((written ++ buffer ++ xs).drop ((written ++ buffer ++ xs).length - (needle boundary).length) ++ n)
        ((written ++ buffer ++ xs).take ((written ++ buffer ++ xs).length - (needle boundary).length)) := by
  induction xs generalizing buffer written with
  | nil =>
    simp only [List.append_nil] at hno halt hfit ⊢
    rw [List.map_nil, List.nil_append, bodyLoop, bodyTurn_quiet hkept hno halt hfit]
    simp only [if_neg hn]
  | cons x xs ih =>
    have hno' : ∀ q, ¬ At (needle boundary) (written ++ buffer) q :=
      fun q hat => hno q (hat.append (needle_ne boundary) _)
    have halt' : ¬ altNeedle boundary <+: written ++ buffer :=
      fun hpre => halt (hpre.trans (List.prefix_append _ _))
    have hfit' : (written ++ buffer).length - (needle boundary).length ≤ maxAllowed := by
      rw [List.length_append] at hfit
      omega
    rw [List.map_cons, List.cons_append, bodyLoop, bodyTurn_quiet hkept hno' halt' hfit']
    simp only [if_neg (List.cons_ne_nil x [])]
    have hseen : ∀ k, (written ++ buffer).take k ++ ((written ++ buffer).drop k ++ [x]) ++ xs =
        written ++ buffer ++ x :: xs := by
      intro k
      rw [← List.append_assoc, List.take_append_drop, List.append_assoc, List.singleton_append]
    rw [ih, hseen]
    · by_cases hlong : (needle boundary).length ≤ (written ++ buffer).length
      · right
        rw [List.length_append, List.length_drop]
        omega
      · left
        have hzero : (written ++ buffer).length - (needle boundary).length = 0 := by omega
        rw [hzero, List.take_zero]
    · rwa [hseen]
    · rwa [hseen]
    · rwa [hseen]

/-- A `cut` before whose one long read nothing is decided. -/
theorem Segmentation.cut_upload {k m : Nat} {hk : k < B.length} {hm : 0 < m} {hsize : m ≤ readSize}
    (hno : ∀ q, ¬ At (needle boundary) (B.take k) q) (halt : ¬ altNeedle boundary <+: B.take k)
    (hfit : k - (needle boundary).length ≤ maxAllowed) :
    (Segmentation.cut B k m hk hm hsize).upload boundary maxAllowed =
      bodyLoop boundary maxAllowed ((B.drop (k + m)).map fun b => [b])
        ((B.take k).drop (k - (needle boundary).length) ++ (B.drop k).take m)
        (B.take (k - (needle boundary).length)) := by
  have hlen : (B.take k).length = k := by
    rw [List.length_take]
    omega
  have hn : (B.drop k).take m ≠ [] := ((Segmentation.cut B k m hk hm hsize).reads_proper _ (by simp [Segmentation.cut])).1
  have htake : (B.take k).take (k - (needle boundary).length) = B.take (k - (needle boundary).length) := by
    rw [List.take_take, Nat.min_eq_left (by omega)]
  have hsingles := bodyLoop_singles ((B.drop (k + m)).map fun b => [b]) hn
    (Or.inl rfl : ([] : Bytes) = [] ∨ (needle boundary).length ≤ ([] : Bytes).length)
    (by simpa using hno) (by simpa using halt) (by simpa [hlen] using hfit : _ ≤ maxAllowed)
  simp only [List.nil_append, hlen, htake] at hsingles
  exact hsingles

theorem bodyLoop_done {reads : List Bytes} {e : BodyEnd} (h : bodyTurn boundary maxAllowed buffer written = .done e) :
    bodyLoop boundary maxAllowed reads buffer written = e := by
  cases reads with
  | nil => rw [bodyLoop, h]
  | cons n reads => rw [bodyLoop, h]

/-! ### Bytes that begin with the boundary -/

theorem short_not_at {q : Nat} (h : buffer.length < (needle boundary).length) : ¬ At (needle boundary) buffer q := by
  intro hat
  have hle := hat.length_le (needle_ne boundary)
  omega

theorem bodyTurn_short (h : buffer.length < (altNeedle boundary).length) :
    bodyTurn boundary maxAllowed buffer [] = .more buffer [] := by
  have hneedle := needle_length boundary
  have halt : ¬ (([] : Bytes) = [] ∧ altNeedle boundary <+: buffer) := by
    intro hcond
    have hle := hcond.2.length_le
    omega
  have hzero : buffer.length - (needle boundary).length = 0 := by omega
  rw [bodyTurn_more (fun _ => short_not_at (by omega)) halt (by simp [hzero]), hzero]
  rfl

/-- When the delimiter lies beyond the first buffer that shows the boundary, the
loop stores an empty file. -/
theorem bodyLoop_opening {reads : List Bytes} (hreads : ∀ n ∈ reads, n ≠ [] ∧ n.length ≤ readSize)
    (hbuffer : buffer.length ≤ (altNeedle boundary).length - 1 + readSize)
    (halt : altNeedle boundary <+: buffer ++ reads.flatten)
    (hfar : ∀ p, At (needle boundary) (buffer ++ reads.flatten) p →
      (altNeedle boundary).length - 1 + readSize < p + (needle boundary).length) :
    bodyLoop boundary maxAllowed reads buffer [] = .stored [] := by
  induction reads generalizing buffer with
  | nil =>
    rw [List.flatten_nil, List.append_nil] at halt hfar
    refine bodyLoop_done (bodyTurn_alt (fun q hat => ?_) halt)
    have hle := hat.length_le (needle_ne boundary)
    have hend := hfar q hat
    omega
  | cons n reads ih =>
    by_cases hshort : buffer.length < (altNeedle boundary).length
    · have hn := hreads n List.mem_cons_self
      rw [bodyLoop, bodyTurn_short hshort]
      simp only [if_neg hn.1]
      rw [List.flatten_cons, ← List.append_assoc] at halt hfar
      refine ih (fun m hm => hreads m (List.mem_cons_of_mem _ hm)) ?_ halt hfar
      rw [List.length_append]
      omega
    · have hpre : altNeedle boundary <+: buffer :=
        List.prefix_of_prefix_length_le halt (List.prefix_append _ _) (by omega)
      refine bodyLoop_done (bodyTurn_alt (fun q hat => ?_) hpre)
      have hle := hat.length_le (needle_ne boundary)
      have hend := hfar q (hat.append (needle_ne boundary) _)
      omega

theorem opening_stored (halt : altNeedle boundary <+: B) (hfree : ¬ Contended boundary B) {s : Segmentation}
    (hs : s.bytes = B) : s.upload boundary maxAllowed = .stored [] := by
  have hfar : ∀ p, At (needle boundary) B p →
      (altNeedle boundary).length - 1 + readSize < p + (needle boundary).length := by
    intro p hat
    cases hfind : find (needle boundary) B with
    | none => exact absurd hat (find_eq_none.mp hfind p)
    | some q =>
      have hfirst := find_eq_some.mp hfind
      have hqp : q ≤ p := Nat.le_of_not_lt fun hlt => hfirst.2 p hlt hat
      by_contra hnear
      exact hfree ⟨halt, q, hfirst, by omega⟩
  subst hs
  have hfirst := s.first_short
  exact bodyLoop_opening s.reads_proper (by omega) halt hfar

theorem cut_opening {k m : Nat} {hk : k < B.length} {hm : 0 < m} {hsize : m ≤ readSize}
    (hlen : (altNeedle boundary).length = k + 1) :
    (Segmentation.cut B k m hk hm hsize).upload boundary maxAllowed =
      bodyLoop boundary maxAllowed ((B.drop (k + m)).map fun b => [b]) (B.take (k + m)) [] := by
  have hneedle := needle_length boundary
  have htake : (B.take k).length = k := by
    rw [List.length_take]
    omega
  have hzero : k - (needle boundary).length = 0 := by omega
  have halt : ¬ altNeedle boundary <+: B.take k := by
    intro hpre
    have hle := hpre.length_le
    omega
  rw [Segmentation.cut_upload (fun _ => short_not_at (by omega)) halt (by omega), hzero, List.drop_zero, List.take_zero,
    ← List.take_add]

theorem opening_not_needle (halt : altNeedle boundary <+: B) : ¬ At (needle boundary) B 0 := by
  intro hat
  obtain ⟨xs, rfl⟩ := halt
  simp [At, needle, altNeedle] at hat

/-- With the boundary alone in the buffer the file is empty; with the delimiter
in it too, the bytes before it are taken. -/
theorem contended_differ (h : Contended boundary B) :
    ∃ s s' : Segmentation, s.bytes = B ∧ s'.bytes = B ∧
      (s.upload boundary maxAllowed).guarded ≠ (s'.upload boundary maxAllowed).guarded := by
  obtain ⟨halt, p, hfirst, hnear⟩ := h
  obtain ⟨k, hlen⟩ : ∃ k, (altNeedle boundary).length = k + 1 := by
    have htwo := altNeedle_length boundary
    exact ⟨(altNeedle boundary).length - 1, by omega⟩
  have hneedle := needle_length boundary
  have hk : k < B.length := by
    have hle := halt.length_le
    omega
  have hpos : p ≠ 0 := by
    intro hzero
    subst hzero
    exact opening_not_needle halt hfirst.1
  refine ⟨.cut B k 1 hk (by decide) (by decide), .cut B k readSize hk (by decide) (Nat.le_refl _),
    Segmentation.cut_bytes, Segmentation.cut_bytes, ?_⟩
  have hone : (Segmentation.cut B k 1 hk (by decide) (by decide)).upload boundary maxAllowed = .stored [] := by
    rw [cut_opening hlen]
    have hbuffer : B.take (k + 1) = altNeedle boundary := by
      rw [← hlen]
      exact (List.prefix_iff_eq_take.mp halt).symm
    rw [hbuffer]
    exact bodyLoop_done (bodyTurn_alt (fun _ => short_not_at (by omega)) (List.prefix_refl _))
  have hle := hfirst.1.length_le (needle_ne boundary)
  have htake : (B.take (k + readSize)).length = min (k + readSize) B.length := List.length_take
  have hfront : FirstAt (needle boundary) (B.take (k + readSize)) p := by
    rw [← List.take_append_drop (k + readSize) B] at hfirst
    exact hfirst.front (needle_ne boundary) (by omega)
  rw [hone, cut_opening hlen, bodyLoop_done (bodyTurn_found hfront (Nat.zero_le _))]
  have hne : (B.take (k + readSize)).take p ≠ [] := by
    intro hnil
    have hzero := congrArg List.length hnil
    rw [List.length_take, List.length_nil] at hzero
    omega
  split
  · simpa [BodyEnd.guarded] using hne.symm
  · simp [BodyEnd.guarded]

/-! ### Bytes beyond the limit -/

theorem EndsAs.guarded {e e' : BodyEnd} (h : EndsAs boundary maxAllowed B e) (h' : EndsAs boundary maxAllowed B e') :
    e.guarded = e'.guarded := by
  rcases Nat.lt_or_ge maxAllowed (bodyLength boundary B) with hover | hfit
  · obtain ⟨w, -, rfl⟩ := h.2 hover
    obtain ⟨w', -, rfl⟩ := h'.2 hover
    rfl
  · rw [h.1 hfit, h'.1 hfit]

theorem Segmentation.upload_ends {s : Segmentation} (hs : s.bytes = B) (halt : ¬ altNeedle boundary <+: B) :
    EndsAs boundary maxAllowed B (s.upload boundary maxAllowed) := by
  subst hs
  exact (Streaming.start boundary maxAllowed s.first s.reads.flatten).bodyLoop (fun n hn => (s.reads_proper n hn).1) halt

theorem over_not_at (hover : maxAllowed < bodyLength boundary B) :
    (∀ q, At (needle boundary) B q → maxAllowed < q) ∧ maxAllowed + (needle boundary).length < B.length := by
  rw [bodyLength] at hover
  cases hfind : find (needle boundary) B with
  | none =>
    rw [hfind, Option.getD_none] at hover
    exact ⟨fun q hat => absurd hat (find_eq_none.mp hfind q), by omega⟩
  | some p =>
    rw [hfind, Option.getD_some] at hover
    have hfirst := find_eq_some.mp hfind
    have hle := hfirst.1.length_le (needle_ne boundary)
    refine ⟨?_, by omega⟩
    intro q hat
    exact Nat.lt_of_lt_of_le hover (Nat.le_of_not_lt fun hlt => hfirst.2 q hlt hat)

/-- The last read before the 413 decides how much is in the temporary file. -/
theorem cut_over {j m : Nat} (hk : j + (needle boundary).length < B.length) (hm : 0 < m) (hsize : m ≤ readSize)
    (hj : j ≤ maxAllowed) (hjm : j + m = maxAllowed + 1) (halt : ¬ altNeedle boundary <+: B)
    (hover : maxAllowed < bodyLength boundary B) :
    (Segmentation.cut B (j + (needle boundary).length) m hk hm hsize).upload boundary maxAllowed =
      .tooLarge (B.take j) := by
  obtain ⟨hlater, hlong⟩ := over_not_at hover
  have hno : ∀ q, ¬ At (needle boundary) (B.take (j + (needle boundary).length)) q := by
    intro q hat
    have hle := hat.length_le (needle_ne boundary)
    rw [List.length_take] at hle
    have hB := hat.append (needle_ne boundary) (B.drop (j + (needle boundary).length))
    rw [List.take_append_drop] at hB
    have hlt := hlater q hB
    omega
  have hquiet : ¬ altNeedle boundary <+: B.take (j + (needle boundary).length) :=
    fun hpre => halt (hpre.trans (List.take_prefix _ _))
  rw [Segmentation.cut_upload hno hquiet (by omega), Nat.add_sub_cancel]
  set buffer := (B.take (j + (needle boundary).length)).drop j ++ (B.drop (j + (needle boundary).length)).take m
    with hbuffer
  have hlen : buffer.length = (needle boundary).length + m := by
    rw [hbuffer, List.length_append, List.length_drop, List.length_take, List.length_take, List.length_drop]
    omega
  have hwritten : (B.take j).length = j := by
    rw [List.length_take]
    omega
  have hstream : Streaming boundary maxAllowed B buffer (B.take j) (B.drop (j + (needle boundary).length + m)) := by
    refine ⟨?_, by omega, ?_, .inr (by omega)⟩
    · have hfront : B.take j = (B.take (j + (needle boundary).length)).take j := by
        rw [List.take_take, Nat.min_eq_left (by omega)]
      have hback : B.drop (j + (needle boundary).length + m) = (B.drop (j + (needle boundary).length)).drop m :=
        List.drop_drop.symm
      rw [hbuffer, hfront, hback, ← List.append_assoc, List.take_append_drop, List.append_assoc,
        List.take_append_drop, List.take_append_drop]
    · intro q hq hat
      have hlt := hlater q hat
      omega
  cases hfind : find (needle boundary) buffer with
  | some pos =>
    have hfirst := find_eq_some.mp hfind
    have hlt := hlater _ (hstream.found hfirst).1
    rw [bodyLoop_done (bodyTurn_found hfirst hstream.fits), if_neg (by omega)]
  | none =>
    have hnone := find_eq_none.mp hfind
    exact bodyLoop_done (bodyTurn_overflow hnone (hstream.quiet halt) hstream.fits (by omega))

theorem over_differ (hmax : maxAllowed ≠ 0) (halt : ¬ altNeedle boundary <+: B)
    (hover : maxAllowed < bodyLength boundary B) :
    ∃ s s' : Segmentation, s.bytes = B ∧ s'.bytes = B ∧ s.upload boundary maxAllowed ≠ s'.upload boundary maxAllowed := by
  obtain ⟨-, hlong⟩ := over_not_at hover
  refine ⟨.cut B (maxAllowed + (needle boundary).length) 1 hlong (by decide) (by decide),
    .cut B (maxAllowed - 1 + (needle boundary).length) 2 (by omega) (by decide) (by decide),
    Segmentation.cut_bytes, Segmentation.cut_bytes, ?_⟩
  rw [cut_over hlong (by decide) (by decide) (Nat.le_refl _) rfl halt hover,
    cut_over (by omega) (by decide) (by decide) (by omega) (by omega) halt hover]
  intro heq
  have hlen := congrArg List.length (BodyEnd.tooLarge.inj heq)
  rw [List.length_take, List.length_take] at hlen
  omega

/-- **When the reads do not show.** For any boundary, limit and bytes: any two
ways for the bytes to come in reads lead to the same end and the same bytes on
the disk if and only if the bytes do not begin with the boundary, or the
delimiter does not come within the first buffer that can show it. The bytes
written to a temporary file that is removed again are the same too if and only
if, further, the limit is not reached after some bytes were written. -/
theorem upload_independent_iff (boundary : Bytes) (maxAllowed : Nat) (B : Bytes) :
    ((∀ s s' : Segmentation, s.bytes = B → s'.bytes = B →
        (s.upload boundary maxAllowed).guarded = (s'.upload boundary maxAllowed).guarded) ↔ ¬ Contended boundary B) ∧
    ((∀ s s' : Segmentation, s.bytes = B → s'.bytes = B →
        s.upload boundary maxAllowed = s'.upload boundary maxAllowed) ↔
      ¬ Contended boundary B ∧
        (altNeedle boundary <+: B ∨ maxAllowed = 0 ∨ bodyLength boundary B ≤ maxAllowed)) := by
  have hguarded : (∀ s s' : Segmentation, s.bytes = B → s'.bytes = B →
      (s.upload boundary maxAllowed).guarded = (s'.upload boundary maxAllowed).guarded) → ¬ Contended boundary B := by
    intro hsame hcontended
    obtain ⟨s, s', hs, hs', hne⟩ := contended_differ hcontended
    exact hne (hsame s s' hs hs')
  refine ⟨⟨hguarded, ?_⟩, ?_, ?_⟩
  · intro hfree s s' hs hs'
    by_cases halt : altNeedle boundary <+: B
    · rw [opening_stored halt hfree hs, opening_stored halt hfree hs']
    · exact (Segmentation.upload_ends hs halt).guarded (Segmentation.upload_ends hs' halt)
  · intro hsame
    refine ⟨hguarded fun s s' hs hs' => by rw [hsame s s' hs hs'], ?_⟩
    by_contra hover
    obtain ⟨halt, hover⟩ := not_or.mp hover
    obtain ⟨hmax, hover⟩ := not_or.mp hover
    obtain ⟨s, s', hs, hs', hne⟩ := over_differ hmax halt (Nat.lt_of_not_le hover)
    exact hne (hsame s s' hs hs')
  · intro hcond s s' hs hs'
    obtain ⟨hfree, hwithin⟩ := hcond
    by_cases halt : altNeedle boundary <+: B
    · rw [opening_stored halt hfree hs, opening_stored halt hfree hs']
    · have hends : EndsAs boundary maxAllowed B _ := Segmentation.upload_ends hs halt
      have hends' : EndsAs boundary maxAllowed B _ := Segmentation.upload_ends hs' halt
      rcases Nat.lt_or_ge maxAllowed (bodyLength boundary B) with hover | hfit
      · obtain ⟨w, hw, he⟩ := hends.2 hover
        obtain ⟨w', hw', he'⟩ := hends'.2 hover
        have hmax : maxAllowed = 0 := (hwithin.resolve_left halt).resolve_right (by omega)
        rw [he, he', List.eq_nil_of_length_eq_zero (by omega : w.length = 0),
          List.eq_nil_of_length_eq_zero (by omega : w'.length = 0)]
      · rw [hends.1 hfit, hends'.1 hfit]

/-- The boundary `B`, two bytes and the delimiter. -/
def openingBody : Bytes := [0x2d, 0x2d, 0x42, 0x78, 0x79, 0x0d, 0x0a, 0x2d, 0x2d, 0x42]

def inOneRead : Segmentation := ⟨[], [openingBody], by decide, by decide⟩

def inTwoReads : Segmentation := ⟨[], [openingBody.take 5, openingBody.drop 5], by decide, by decide⟩

/-- In one read the five bytes before the delimiter are stored, in two reads
none. -/
theorem upload_depends :
    inOneRead.bytes = inTwoReads.bytes ∧
      inOneRead.upload [0x42] 100 = .stored [0x2d, 0x2d, 0x42, 0x78, 0x79] ∧
      inTwoReads.upload [0x42] 100 = .stored [] := by
  decide

end

end Nxfr.Web

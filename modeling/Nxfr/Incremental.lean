/-
A decoder that is handed a stream piece by piece, as a reader of a socket is.

A codec turns items into symbols and takes items off the front of a buffer of
symbols. A reader adds each piece to its buffer and then takes items off until
the decoder asks for more. For a codec that keeps the laws of `Lawful` the cuts
do not show: whatever the pieces, the reader yields the items that were
written and is left with nothing.
-/
import Mathlib.Data.List.Basic

namespace Incremental

variable {α β ε : Type}

/-- An encoder, and a decoder that answers an item, nothing yet, or an error,
and leaves a buffer. An item takes something off the buffer. -/
structure Codec (α β ε : Type) where
  encode : α → List β
  decode : List β → Except ε (Option α) × List β
  consumes : ∀ {buf a rest}, decode buf = (.ok (some a), rest) → rest.length < buf.length

/-- Take items off the buffer until the decoder wants more, or fails. -/
def Codec.drain (c : Codec α β ε) (buf : List β) : List α × Option ε × List β :=
  match _hitem : c.decode buf with
  | (.ok (some a), rest) =>
    let (items, e, left) := c.drain rest
    (a :: items, e, left)
  | (.ok none, rest) => ([], none, rest)
  | (.error e, rest) => ([], some e, rest)
termination_by buf.length
decreasing_by exact c.consumes _hitem

/-- Read a stream in pieces: the items taken off it, the error that stopped
the reader, and what is left in its buffer. -/
def Codec.receive (c : Codec α β ε) : List (List β) → List β → List α × Option ε × List β
  | [], buf => ([], none, buf)
  | piece :: pieces, buf => match c.drain (buf ++ piece) with
    | (items, some e, left) => (items, some e, left)
    | (items, none, left) =>
      let (more, e, left) := c.receive pieces left
      (items ++ more, e, left)

/-- The laws, for the items that are `Good`: the decoder takes a whole item off
the front, whatever follows it, and waits while it has nothing, or only a part
of one. -/
structure Codec.Lawful (c : Codec α β ε) (Good : α → Prop) : Prop where
  idle : c.decode [] = (.ok none, [])
  whole : ∀ {a}, Good a → ∀ rest, c.decode (c.encode a ++ rest) = (.ok (some a), rest)
  short : ∀ {a}, Good a → ∀ {buf rest}, buf ++ rest = c.encode a → rest ≠ [] → c.decode buf = (.ok none, buf)

variable {c : Codec α β ε} {Good : α → Prop}

theorem Codec.drain_some {buf : List β} {a : α} {rest : List β} (h : c.decode buf = (.ok (some a), rest)) :
    c.drain buf = (a :: (c.drain rest).1, (c.drain rest).2) := by
  rw [drain]
  split <;> simp_all

theorem Codec.drain_none {buf rest : List β} (h : c.decode buf = (.ok none, rest)) : c.drain buf = ([], none, rest) := by
  rw [drain]
  split <;> simp_all

/-- Nothing can be taken off `buf` before more of `items` arrives. -/
def Codec.Waiting (c : Codec α β ε) (buf : List β) : List α → Prop
  | [] => buf = []
  | a :: _ => buf.length < (c.encode a).length

theorem Codec.Lawful.encode_pos (h : c.Lawful Good) {a : α} (ha : Good a) : 0 < (c.encode a).length := by
  have := c.consumes (h.whole ha [])
  simp at this
  omega

/-- Draining the front of a stream takes off the items that are there and
waits for the rest. -/
theorem Codec.Lawful.drain_front (h : c.Lawful Good) {items : List α}
    (hgood : ∀ a ∈ items, Good a) {buf later : List β} (hstream : buf ++ later = items.flatMap c.encode) :
    ∃ done left rest, items = done ++ left ∧ c.drain buf = (done, none, rest) ∧
      rest ++ later = left.flatMap c.encode ∧ c.Waiting rest left := by
  -- on the items: the first is in the buffer as a whole, or the decoder waits for it
  induction items generalizing buf with
  | nil =>
    obtain ⟨rfl, rfl⟩ := List.append_eq_nil_iff.mp hstream
    exact ⟨[], [], [], rfl, drain_none h.idle, rfl, rfl⟩
  | cons a items ih =>
    have ha := hgood a List.mem_cons_self
    rw [List.flatMap_cons] at hstream
    by_cases hlen : (c.encode a).length ≤ buf.length
    · obtain ⟨rest, rfl, hrest⟩ : ∃ rest, buf = c.encode a ++ rest ∧ rest ++ later = items.flatMap c.encode := by
        rcases List.append_eq_append_iff.mp hstream with ⟨extra, hbuf, hlater⟩ | ⟨extra, hbuf, hlater⟩
        · have hextra : extra = [] := by
            have := congrArg List.length hbuf
            rw [List.length_append] at this
            exact List.length_eq_zero_iff.mp (by omega)
          subst hextra
          exact ⟨[], by simpa using hbuf.symm, by simpa using hlater⟩
        · exact ⟨extra, hbuf, hlater.symm⟩
      obtain ⟨done, left, rest', rfl, hdrain, hleft, hwait⟩ :=
        ih (fun b hb => hgood b (List.mem_cons_of_mem _ hb)) hrest
      refine ⟨a :: done, left, rest', rfl, ?_, hleft, hwait⟩
      rw [drain_some (h.whole ha rest), hdrain]
    · obtain ⟨extra, hbuf, hlater⟩ : ∃ extra, buf ++ extra = c.encode a ∧ later = extra ++ items.flatMap c.encode := by
        rcases List.append_eq_append_iff.mp hstream with ⟨extra, hbuf, hlater⟩ | ⟨extra, hbuf, hlater⟩
        · exact ⟨extra, hbuf.symm, hlater⟩
        · rw [hbuf, List.length_append] at hlen
          omega
      have hextra : extra ≠ [] := by
        intro hnone
        rw [hnone, List.append_nil] at hbuf
        rw [hbuf] at hlen
        omega
      refine ⟨[], a :: items, buf, rfl, drain_none (h.short ha hbuf hextra), ?_, by simpa [Waiting] using hlen⟩
      rw [hstream, List.flatMap_cons]

/-- A reader gets the items that have arrived as a whole, and waits for the next
one. -/
theorem Codec.Lawful.receive_front (h : c.Lawful Good) {items : List α}
    (hgood : ∀ a ∈ items, Good a) {buf : List β} {pieces : List (List β)} {later : List β}
    (hstream : buf ++ (pieces.flatten ++ later) = items.flatMap c.encode) (hwait : c.Waiting buf items) :
    ∃ done left rest, items = done ++ left ∧ c.receive pieces buf = (done, none, rest) ∧
      rest ++ later = left.flatMap c.encode ∧ c.Waiting rest left := by
  induction pieces generalizing items buf with
  | nil => exact ⟨[], items, buf, rfl, rfl, hstream, hwait⟩
  | cons piece pieces ih =>
    rw [List.flatten_cons, List.append_assoc, ← List.append_assoc] at hstream
    obtain ⟨done, left, rest, rfl, hdrain, hrest, hwait'⟩ := h.drain_front hgood hstream
    obtain ⟨more, left', rest', rfl, hmore, hrest', hwait''⟩ :=
      ih (fun a ha => hgood a (List.mem_append_right _ ha)) hrest hwait'
    refine ⟨done ++ more, left', rest', by rw [List.append_assoc], ?_, hrest', hwait''⟩
    simp only [receive, hdrain, hmore]

/-- Nothing is waited for when nothing is still to come. -/
theorem Codec.Waiting.done {rest : List β} {left : List α} (hwait : c.Waiting rest left)
    (hrest : rest = left.flatMap c.encode) : left = [] ∧ rest = [] := by
  cases left with
  | nil => exact ⟨rfl, hrest⟩
  | cons a left =>
    have hlen := congrArg List.length hrest
    rw [List.flatMap_cons, List.length_append] at hlen
    simp only [Waiting] at hwait
    omega

theorem Codec.Lawful.waiting_nil (h : c.Lawful Good) {items : List α} (hgood : ∀ a ∈ items, Good a) :
    c.Waiting [] items := by
  cases items with
  | nil => rfl
  | cons a items => exact h.encode_pos (hgood a List.mem_cons_self)

/-- **The cuts do not show.** Whatever pieces a stream of good items arrives
in, the reader yields these items and its buffer ends empty. -/
theorem Codec.Lawful.receive_eq (h : c.Lawful Good) {items : List α}
    (hgood : ∀ a ∈ items, Good a) {pieces : List (List β)} (hstream : pieces.flatten = items.flatMap c.encode) :
    c.receive pieces [] = (items, none, []) := by
  obtain ⟨done, left, rest, rfl, hreceive, hrest, hwait⟩ :=
    h.receive_front hgood (by rw [List.nil_append, List.append_nil, hstream]) (h.waiting_nil hgood)
  rw [List.append_nil] at hrest
  obtain ⟨rfl, rfl⟩ := hwait.done hrest
  rw [hreceive, List.append_nil]

end Incremental

/-
CBOR items of definite length as bytes (RFC 8949): a writer that uses the
shortest head for every length and integer, and a reader of one item that
leaves the bytes behind it. The reader takes back whatever the writer wrote, and
whatever it takes it takes again before any other bytes.
-/
import Nxfr.BigEndian
import Nxfr.Cbor

namespace Cbor

/-! ## Heads -/

/-- A major type and its argument. -/
def writeHead (major n : Nat) : List UInt8 :=
  if n < 24 then [UInt8.ofNat (major * 32 + n)]
  else if n < 2 ^ 8 then UInt8.ofNat (major * 32 + 24) :: BigEndian.bytes 1 n
  else if n < 2 ^ 16 then UInt8.ofNat (major * 32 + 25) :: BigEndian.bytes 2 n
  else if n < 2 ^ 32 then UInt8.ofNat (major * 32 + 26) :: BigEndian.bytes 4 n
  else UInt8.ofNat (major * 32 + 27) :: BigEndian.bytes 8 n

/-- An argument of `width` bytes. -/
def readArgument (width : Nat) (bs : List UInt8) : Option (Nat × List UInt8) :=
  if bs.length < width then none else some (BigEndian.value (bs.take width), bs.drop width)

def readHead : List UInt8 → Option (Nat × Nat × List UInt8)
  | [] => none
  | b :: bs =>
    let major := b.toNat / 32
    let info := b.toNat % 32
    if info < 24 then some (major, info, bs)
    else if info = 24 then (readArgument 1 bs).map fun r => (major, r)
    else if info = 25 then (readArgument 2 bs).map fun r => (major, r)
    else if info = 26 then (readArgument 4 bs).map fun r => (major, r)
    else if info = 27 then (readArgument 8 bs).map fun r => (major, r)
    else none

theorem readArgument_bytes {width n : Nat} (hn : n < 256 ^ width) {rest : List UInt8} :
    readArgument width (BigEndian.bytes width n ++ rest) = some (n, rest) := by
  rw [readArgument, if_neg (by simp), List.take_left' BigEndian.bytes_length, List.drop_left' BigEndian.bytes_length,
    BigEndian.value_bytes hn]

theorem readHead_writeHead {major n : Nat} (hmajor : major < 8) (hn : n < 2 ^ 64) {rest : List UInt8} :
    readHead (writeHead major n ++ rest) = some (major, n, rest) := by
  unfold writeHead
  have hbyte : ∀ info, info < 32 → (UInt8.ofNat (major * 32 + info)).toNat / 32 = major ∧
      (UInt8.ofNat (major * 32 + info)).toNat % 32 = info := by
    intro info hinfo
    rw [UInt8.toNat_ofNat']
    omega
  split
  · rename_i h
    obtain ⟨hm, hi⟩ := hbyte n (by omega)
    simp only [List.singleton_append, readHead, hm, hi, if_pos h]
  split
  · rename_i h
    obtain ⟨hm, hi⟩ := hbyte 24 (by omega)
    simp only [List.cons_append, readHead, hm, hi, readArgument_bytes (show n < 256 ^ 1 by omega)]
    rfl
  split
  · rename_i h
    obtain ⟨hm, hi⟩ := hbyte 25 (by omega)
    simp only [List.cons_append, readHead, hm, hi, readArgument_bytes (show n < 256 ^ 2 by omega)]
    rfl
  split
  · rename_i h
    obtain ⟨hm, hi⟩ := hbyte 26 (by omega)
    simp only [List.cons_append, readHead, hm, hi, readArgument_bytes (show n < 256 ^ 4 by omega)]
    rfl
  · obtain ⟨hm, hi⟩ := hbyte 27 (by omega)
    simp only [List.cons_append, readHead, hm, hi, readArgument_bytes (show n < 256 ^ 8 by omega)]
    rfl

theorem writeHead_length_pos {major n : Nat} : 0 < (writeHead major n).length := by
  unfold writeHead
  split
  · simp
  split
  · simp
  split
  · simp
  split <;> simp

/-! ## Items -/

/-- A string's bytes. -/
def utf8 (s : String) : List UInt8 := s.toUTF8.data.toList

def ofUtf8 (bs : List UInt8) : Option String := String.fromUTF8? ⟨⟨bs⟩⟩

theorem ofUtf8_utf8 {s : String} : ofUtf8 (utf8 s) = some s := by
  have hvalid : (⟨⟨s.toUTF8.data.toList⟩⟩ : ByteArray).IsValidUTF8 := s.isValidUTF8
  unfold ofUtf8 utf8 String.fromUTF8?
  rw [dif_pos hvalid]
  rfl

mutual

def write : Value → List UInt8
  | .integer i => if 0 ≤ i.val then writeHead 0 i.val.toNat else writeHead 1 (-1 - i.val).toNat
  | .bytes b => writeHead 2 b.length ++ b
  | .text s => writeHead 3 (utf8 s).length ++ utf8 s
  | .array items => writeHead 4 items.length ++ writeItems items
  | .map entries => writeHead 5 entries.length ++ writeEntries entries
  | .tag number inner => writeHead 6 number.toNat ++ write inner
  | .bool b => [if b then 0xf5 else 0xf4]
  | .null => [0xf6]
  | .float bits => 0xfb :: BigEndian.bytes 8 bits.toNat

def writeItems : List Value → List UInt8
  | [] => []
  | v :: items => write v ++ writeItems items

def writeEntries : List (Value × Value) → List UInt8
  | [] => []
  | (k, v) :: entries => write k ++ write v ++ writeEntries entries

end

/-- `n` items one after another. -/
def readItems (read : List UInt8 → Option (Value × List UInt8)) : Nat → List UInt8 → Option (List Value × List UInt8)
  | 0, bs => some ([], bs)
  | n + 1, bs => do
    let (v, bs) ← read bs
    let (items, bs) ← readItems read n bs
    return (v :: items, bs)

/-- `n` keys, each with its value. -/
def readEntries (read : List UInt8 → Option (Value × List UInt8)) :
    Nat → List UInt8 → Option (List (Value × Value) × List UInt8)
  | 0, bs => some ([], bs)
  | n + 1, bs => do
    let (k, bs) ← read bs
    let (v, bs) ← read bs
    let (entries, bs) ← readEntries read n bs
    return ((k, v) :: entries, bs)

/-- `n` bytes. -/
def readBytes (n : Nat) (bs : List UInt8) : Option (List UInt8 × List UInt8) :=
  if bs.length < n then none else some (bs.take n, bs.drop n)

/-- What a head of major type 7 means, by its first byte. -/
def readSimple (first : UInt8) (n : Nat) : Option Value :=
  if first = 0xf4 then some (.bool false)
  else if first = 0xf5 then some (.bool true)
  else if first = 0xf6 then some .null
  else if first = 0xfb then some (.float (UInt64.ofNat n))
  else none

/-- One item, at most `fuel` deep. -/
def read : Nat → List UInt8 → Option (Value × List UInt8)
  | 0, _ => none
  | fuel + 1, bs => do
    let (major, n, rest) ← readHead bs
    match major with
    | 0 => if h : n < 2 ^ 64 then some (.integer ⟨n, by omega, by omega⟩, rest) else none
    | 1 => if h : n < 2 ^ 64 then some (.integer ⟨-1 - n, by omega, by omega⟩, rest) else none
    | 2 => (readBytes n rest).map fun r => (.bytes r.1, r.2)
    | 3 => (readBytes n rest).bind fun r => (ofUtf8 r.1).map fun s => (.text s, r.2)
    | 4 => (readItems (read fuel) n rest).map fun r => (.array r.1, r.2)
    | 5 => (readEntries (read fuel) n rest).map fun r => (.map r.1, r.2)
    | 6 => (read fuel rest).map fun r => (.tag (UInt64.ofNat n) r.1, r.2)
    | _ => (readSimple (bs.headD 0) n).map fun v => (v, rest)

mutual

/-- Every length in a value is one a head can hold. -/
def sized : Value → Bool
  | .bytes b => b.length < 2 ^ 64
  | .text s => (utf8 s).length < 2 ^ 64
  | .array items => items.length < 2 ^ 64 && sizedItems items
  | .map entries => entries.length < 2 ^ 64 && sizedEntries entries
  | .tag _ inner => sized inner
  | _ => true

def sizedItems : List Value → Bool
  | [] => true
  | v :: items => sized v && sizedItems items

def sizedEntries : List (Value × Value) → Bool
  | [] => true
  | (k, v) :: entries => sized k && sized v && sizedEntries entries

end

/-! ## Reading back -/

theorem readBytes_append {b rest : List UInt8} : readBytes b.length (b ++ rest) = some (b, rest) := by
  rw [readBytes, if_neg (by simp), List.take_left, List.drop_left]

theorem read_head {fuel major n : Nat} (hmajor : major < 7) (hn : n < 2 ^ 64) {rest : List UInt8} :
    read (fuel + 1) (writeHead major n ++ rest) = (match major with
      | 0 => some (.integer ⟨n, by omega, by omega⟩, rest)
      | 1 => some (.integer ⟨-1 - n, by omega, by omega⟩, rest)
      | 2 => (readBytes n rest).map fun r => (.bytes r.1, r.2)
      | 3 => (readBytes n rest).bind fun r => (ofUtf8 r.1).map fun s => (.text s, r.2)
      | 4 => (readItems (read fuel) n rest).map fun r => (.array r.1, r.2)
      | 5 => (readEntries (read fuel) n rest).map fun r => (.map r.1, r.2)
      | _ => (read fuel rest).map fun r => (.tag (UInt64.ofNat n) r.1, r.2)) := by
  rw [read, readHead_writeHead (by omega) hn]
  simp only [Option.bind_eq_bind, Option.bind_some]
  interval_cases major <;> simp only [hn, dif_pos]

theorem write_length_pos {v : Value} : 0 < (write v).length := by
  cases v with
  | integer i =>
    rw [write]
    split <;> exact writeHead_length_pos
  | bytes _ | text _ | array _ | map _ | tag _ _ =>
    rw [write, List.length_append]
    exact Nat.add_pos_left writeHead_length_pos _
  | bool _ | null | float _ => simp [write]

theorem read_integer {i : Integer} {fuel : Nat} {rest : List UInt8} :
    read (fuel + 1) (write (.integer i) ++ rest) = some (.integer i, rest) := by
  have hlower := i.lower
  have hupper := i.upper
  rw [write]
  split
  · rename_i hsign
    rw [read_head (by omega) (show i.val.toNat < 2 ^ 64 by omega)]
    have hval : (i.val.toNat : Int) = i.val := by omega
    simp only [hval]
  · rename_i hsign
    rw [read_head (by omega) (show (-1 - i.val).toNat < 2 ^ 64 by omega)]
    have hval : -1 - ((-1 - i.val).toNat : Int) = i.val := by omega
    simp only [hval]

-- on the value: every part of an item is read with the fuel its head leaves
mutual

theorem read_write (v : Value) (hv : sized v = true) {fuel : Nat} (hfuel : (write v).length ≤ fuel) {rest : List UInt8} :
    read fuel (write v ++ rest) = some (v, rest) := by
  obtain ⟨fuel, rfl⟩ := Nat.exists_eq_add_one_of_ne_zero (Nat.ne_of_gt (Nat.lt_of_lt_of_le write_length_pos hfuel))
  cases v with
  | integer i => exact read_integer
  | bytes b =>
    rw [sized, decide_eq_true_eq] at hv
    rw [write, List.append_assoc, read_head (by omega) hv]
    simp only [readBytes_append, Option.map_some]
  | text s =>
    rw [sized, decide_eq_true_eq] at hv
    rw [write, List.append_assoc, read_head (by omega) hv]
    simp only [readBytes_append, Option.bind_some, ofUtf8_utf8, Option.map_some]
  | array items =>
    rw [sized, Bool.and_eq_true, decide_eq_true_eq] at hv
    rw [write, List.length_append] at hfuel
    have := @writeHead_length_pos 4 items.length
    rw [write, List.append_assoc, read_head (by omega) hv.1]
    simp only [readItems_writeItems items hv.2 (show (writeItems items).length ≤ fuel by omega), Option.map_some]
  | map entries =>
    rw [sized, Bool.and_eq_true, decide_eq_true_eq] at hv
    rw [write, List.length_append] at hfuel
    have := @writeHead_length_pos 5 entries.length
    rw [write, List.append_assoc, read_head (by omega) hv.1]
    simp only [readEntries_writeEntries entries hv.2 (show (writeEntries entries).length ≤ fuel by omega), Option.map_some]
  | tag number inner =>
    rw [sized] at hv
    rw [write, List.length_append] at hfuel
    have := @writeHead_length_pos 6 number.toNat
    rw [write, List.append_assoc, read_head (by omega) number.toNat_lt]
    simp only [read_write inner hv (show (write inner).length ≤ fuel by omega), Option.map_some, UInt64.ofNat_toNat]
  | bool b => cases b <;> rfl
  | null => rfl
  | float bits =>
    have hhead : readHead (0xfb :: (BigEndian.bytes 8 bits.toNat ++ rest)) = some (7, bits.toNat, rest) := by
      rw [readHead, readArgument_bytes (show bits.toNat < 256 ^ 8 from bits.toNat_lt)]
      rfl
    rw [write, List.cons_append, read, hhead]
    simp [readSimple]

theorem readItems_writeItems (items : List Value) (hv : sizedItems items = true) {fuel : Nat}
    (hfuel : (writeItems items).length ≤ fuel) {rest : List UInt8} :
    readItems (read fuel) items.length (writeItems items ++ rest) = some (items, rest) := by
  cases items with
  | nil => rfl
  | cons v items =>
    rw [sizedItems, Bool.and_eq_true] at hv
    rw [writeItems, List.length_append] at hfuel
    rw [List.length_cons, writeItems, List.append_assoc, readItems, read_write v hv.1 (by omega)]
    simp only [Option.bind_eq_bind, Option.bind_some, readItems_writeItems items hv.2 (show _ ≤ fuel by omega)]
    rfl

theorem readEntries_writeEntries (entries : List (Value × Value)) (hv : sizedEntries entries = true) {fuel : Nat}
    (hfuel : (writeEntries entries).length ≤ fuel) {rest : List UInt8} :
    readEntries (read fuel) entries.length (writeEntries entries ++ rest) = some (entries, rest) := by
  match entries, hv, hfuel with
  | [], _, _ => rfl
  | (k, v) :: entries, hv, hfuel =>
    rw [sizedEntries, Bool.and_eq_true, Bool.and_eq_true] at hv
    rw [writeEntries, List.length_append, List.length_append] at hfuel
    rw [List.length_cons, writeEntries, List.append_assoc, List.append_assoc, readEntries,
      read_write k hv.1.1 (show _ ≤ fuel by omega)]
    simp only [Option.bind_eq_bind, Option.bind_some, read_write v hv.1.2 (show _ ≤ fuel by omega),
      readEntries_writeEntries entries hv.2 (show _ ≤ fuel by omega)]
    rfl

end

/-- The format: definite lengths only, shortest heads. -/
def definite : Format where
  fromReader bs := match read bs.length bs with
    | some r => .ok r
    | none => .error "invalid"
  intoWriter v := if sized v then .ok (write v) else .error "length"

theorem definite_read {v : Value} (hv : sized v = true) {rest : List UInt8} :
    definite.fromReader (write v ++ rest) = .ok (v, rest) := by
  simp only [definite]
  rw [read_write v hv (by simp)]

theorem definite_inverts : definite.Inverts := by
  intro v b h rest
  simp only [definite] at h
  split at h <;> cases h
  exact definite_read ‹_›

/-! ## What is taken -/

theorem readArgument_takes {width n : Nat} {bs rest : List UInt8} (h : readArgument width bs = some (n, rest)) :
    ∃ part, bs = part ++ rest ∧ ∀ rest', readArgument width (part ++ rest') = some (n, rest') := by
  unfold readArgument at h
  split at h
  · cases h
  · rename_i hlen
    simp only [Option.some.injEq, Prod.mk.injEq] at h
    obtain ⟨rfl, rfl⟩ := h
    have hpart : (bs.take width).length = width := by
      rw [List.length_take]
      omega
    refine ⟨bs.take width, (List.take_append_drop width bs).symm, fun rest' => ?_⟩
    rw [readArgument, if_neg (by rw [List.length_append]; omega), List.take_left' hpart, List.drop_left' hpart]

theorem readHead_takes {major n : Nat} {bs rest : List UInt8} (h : readHead bs = some (major, n, rest)) :
    ∃ b part, bs = b :: part ++ rest ∧ ∀ rest', readHead (b :: part ++ rest') = some (major, n, rest') := by
  cases bs with
  | nil => cases h
  | cons b bs =>
    -- An argument behind the first byte.
    have hargument : ∀ {width}, ((readArgument width bs).map fun r => (b.toNat / 32, r)) = some (major, n, rest) →
        ∃ part, bs = part ++ rest ∧
          ∀ rest', ((readArgument width (part ++ rest')).map fun r => (b.toNat / 32, r)) = some (major, n, rest') := by
      intro width h
      obtain ⟨⟨n', rest'⟩, hr, heq⟩ := Option.map_eq_some_iff.mp h
      cases heq
      obtain ⟨part, hpart, htakes⟩ := readArgument_takes hr
      exact ⟨part, hpart, fun rest' => by rw [htakes rest', Option.map_some]⟩
    rw [readHead] at h
    simp only [List.cons_append, List.cons.injEq, readHead]
    split at h
    · rename_i hinfo
      simp only [Option.some.injEq, Prod.mk.injEq] at h
      obtain ⟨rfl, rfl, rfl⟩ := h
      exact ⟨b, [], ⟨rfl, rfl⟩, fun rest' => if_pos hinfo⟩
    · rename_i hinfo
      split at h
      · rename_i hwidth
        obtain ⟨part, hpart, htakes⟩ := hargument h
        exact ⟨b, part, ⟨rfl, hpart⟩, fun rest' => by rw [if_neg hinfo, if_pos hwidth, htakes]⟩
      · rename_i hone
        split at h
        · rename_i hwidth
          obtain ⟨part, hpart, htakes⟩ := hargument h
          exact ⟨b, part, ⟨rfl, hpart⟩, fun rest' => by rw [if_neg hinfo, if_neg hone, if_pos hwidth, htakes]⟩
        · rename_i htwo
          split at h
          · rename_i hwidth
            obtain ⟨part, hpart, htakes⟩ := hargument h
            exact ⟨b, part, ⟨rfl, hpart⟩,
              fun rest' => by rw [if_neg hinfo, if_neg hone, if_neg htwo, if_pos hwidth, htakes]⟩
          · rename_i hfour
            split at h
            · rename_i hwidth
              obtain ⟨part, hpart, htakes⟩ := hargument h
              exact ⟨b, part, ⟨rfl, hpart⟩,
                fun rest' => by rw [if_neg hinfo, if_neg hone, if_neg htwo, if_neg hfour, if_pos hwidth, htakes]⟩
            · cases h

theorem readBytes_takes {n : Nat} {bs b rest : List UInt8} (h : readBytes n bs = some (b, rest)) :
    bs = b ++ rest ∧ ∀ rest', readBytes n (b ++ rest') = some (b, rest') := by
  unfold readBytes at h
  split at h
  · cases h
  · rename_i hlen
    simp only [Option.some.injEq, Prod.mk.injEq] at h
    obtain ⟨rfl, rfl⟩ := h
    have hpart : (bs.take n).length = n := by
      rw [List.length_take]
      omega
    refine ⟨(List.take_append_drop n bs).symm, fun rest' => ?_⟩
    have htakes : readBytes (bs.take n).length (bs.take n ++ rest') = some (bs.take n, rest') := readBytes_append
    rwa [hpart] at htakes

/-- What `r` reads with some fuel, `r` reads with any fuel that is at least its
length, whatever follows. -/
def Taken {α : Type} (r : Nat → List UInt8 → Option (α × List UInt8)) (bs : List UInt8) (x : α) (rest : List UInt8) : Prop :=
  ∃ part, bs = part ++ rest ∧ ∀ fuel, part.length ≤ fuel → ∀ rest', r fuel (part ++ rest') = some (x, rest')

theorem readItems_takes {fuel n : Nat} (hread : ∀ {bs v rest}, read fuel bs = some (v, rest) → Taken read bs v rest)
    {bs rest : List UInt8} {items : List Value} (h : readItems (read fuel) n bs = some (items, rest)) :
    Taken (fun fuel => readItems (read fuel) n) bs items rest := by
  induction n generalizing bs items with
  | zero =>
    cases h
    exact ⟨[], rfl, fun _ _ _ => rfl⟩
  | succ n ih =>
    rw [readItems] at h
    simp only [Option.bind_eq_bind, Option.bind_eq_some_iff, Option.pure_def, Option.some.injEq, Prod.mk.injEq,
      Prod.exists] at h
    obtain ⟨v, bs₁, hv, items', bs₂, hitems, rfl, rfl⟩ := h
    obtain ⟨part, rfl, htakes⟩ := hread hv
    obtain ⟨parts, rfl, htakes'⟩ := ih hitems
    refine ⟨part ++ parts, by rw [List.append_assoc], fun fuel' hfuel rest' => ?_⟩
    rw [List.length_append] at hfuel
    simp only [readItems, List.append_assoc, htakes fuel' (by omega), htakes' fuel' (by omega), Option.bind_eq_bind,
      Option.bind_some, Option.pure_def]

theorem readEntries_takes {fuel n : Nat} (hread : ∀ {bs v rest}, read fuel bs = some (v, rest) → Taken read bs v rest)
    {bs rest : List UInt8} {entries : List (Value × Value)} (h : readEntries (read fuel) n bs = some (entries, rest)) :
    Taken (fun fuel => readEntries (read fuel) n) bs entries rest := by
  induction n generalizing bs entries with
  | zero =>
    cases h
    exact ⟨[], rfl, fun _ _ _ => rfl⟩
  | succ n ih =>
    rw [readEntries] at h
    simp only [Option.bind_eq_bind, Option.bind_eq_some_iff, Option.pure_def, Option.some.injEq, Prod.mk.injEq,
      Prod.exists] at h
    obtain ⟨k, bs₁, hk, v, bs₂, hv, entries', bs₃, hentries, rfl, rfl⟩ := h
    obtain ⟨part, rfl, htakes⟩ := hread hk
    obtain ⟨part', rfl, htakes'⟩ := hread hv
    obtain ⟨parts, rfl, htakes''⟩ := ih hentries
    refine ⟨part ++ (part' ++ parts), by simp only [List.append_assoc], fun fuel' hfuel rest' => ?_⟩
    rw [List.length_append, List.length_append] at hfuel
    simp only [readEntries, List.append_assoc, htakes fuel' (by omega), htakes' fuel' (by omega),
      htakes'' fuel' (by omega), Option.bind_eq_bind, Option.bind_some, Option.pure_def]

-- on the fuel: what is behind a head is read with less
theorem read_takes {fuel : Nat} {bs : List UInt8} {v : Value} {rest : List UInt8} (h : read fuel bs = some (v, rest)) :
    Taken read bs v rest := by
  induction fuel generalizing bs v rest with
  | zero => cases h
  | succ fuel ih =>
    rw [read] at h
    simp only [Option.bind_eq_bind, Option.bind_eq_some_iff, Prod.exists] at h
    obtain ⟨major, n, tail, hhead, h⟩ := h
    obtain ⟨b, head, rfl, hhead'⟩ := readHead_takes hhead
    -- What follows the head, read again behind it.
    suffices hbody : ∃ part, tail = part ++ rest ∧ ∀ fuel', part.length ≤ fuel' → ∀ rest', (match major with
        | 0 => if h : n < 2 ^ 64 then some (Value.integer ⟨n, by omega, by omega⟩, part ++ rest') else none
        | 1 => if h : n < 2 ^ 64 then some (Value.integer ⟨-1 - n, by omega, by omega⟩, part ++ rest') else none
        | 2 => (readBytes n (part ++ rest')).map fun r => (Value.bytes r.1, r.2)
        | 3 => (readBytes n (part ++ rest')).bind fun r => (ofUtf8 r.1).map fun s => (Value.text s, r.2)
        | 4 => (readItems (read fuel') n (part ++ rest')).map fun r => (Value.array r.1, r.2)
        | 5 => (readEntries (read fuel') n (part ++ rest')).map fun r => (Value.map r.1, r.2)
        | 6 => (read fuel' (part ++ rest')).map fun r => (Value.tag (UInt64.ofNat n) r.1, r.2)
        | _ => (readSimple b n).map fun v => (v, part ++ rest')) = some (v, rest') by
      obtain ⟨part, rfl, hpart⟩ := hbody
      refine ⟨b :: head ++ part, by simp, fun fuel' hfuel rest' => ?_⟩
      obtain ⟨fuel', rfl⟩ := Nat.exists_eq_add_one_of_ne_zero (n := fuel') (by rintro rfl; simp at hfuel)
      have hlen : part.length ≤ fuel' := by
        simp only [List.cons_append, List.length_cons, List.length_append] at hfuel
        omega
      rw [read, List.append_assoc, hhead' (part ++ rest')]
      exact hpart fuel' hlen rest'
    split at h
    · split at h
      · rename_i hn
        cases h
        exact ⟨[], rfl, fun _ _ _ => dif_pos hn⟩
      · cases h
    · split at h
      · rename_i hn
        cases h
        exact ⟨[], rfl, fun _ _ _ => dif_pos hn⟩
      · cases h
    · obtain ⟨⟨bytes, rest'⟩, hbytes, heq⟩ := Option.map_eq_some_iff.mp h
      cases heq
      obtain ⟨hpart, htakes⟩ := readBytes_takes hbytes
      exact ⟨bytes, hpart, fun _ _ rest' => by simp only [htakes, Option.map_some]⟩
    · simp only [Option.bind_eq_some_iff, Option.map_eq_some_iff, Prod.exists] at h
      obtain ⟨bytes, rest', hbytes, s, hs, heq⟩ := h
      cases heq
      obtain ⟨hpart, htakes⟩ := readBytes_takes hbytes
      exact ⟨bytes, hpart, fun _ _ rest' => by simp only [htakes, Option.bind_some, hs, Option.map_some]⟩
    · obtain ⟨⟨items, rest'⟩, hitems, heq⟩ := Option.map_eq_some_iff.mp h
      cases heq
      obtain ⟨part, hpart, htakes⟩ := readItems_takes ih hitems
      exact ⟨part, hpart, fun fuel' hfuel rest' => by simp only [htakes fuel' hfuel, Option.map_some]⟩
    · obtain ⟨⟨entries, rest'⟩, hentries, heq⟩ := Option.map_eq_some_iff.mp h
      cases heq
      obtain ⟨part, hpart, htakes⟩ := readEntries_takes ih hentries
      exact ⟨part, hpart, fun fuel' hfuel rest' => by simp only [htakes fuel' hfuel, Option.map_some]⟩
    · obtain ⟨⟨inner, rest'⟩, hinner, heq⟩ := Option.map_eq_some_iff.mp h
      cases heq
      obtain ⟨part, hpart, htakes⟩ := ih hinner
      exact ⟨part, hpart, fun fuel' hfuel rest' => by simp only [htakes fuel' hfuel, Option.map_some]⟩
    · obtain ⟨v', hsimple, heq⟩ := Option.map_eq_some_iff.mp h
      cases heq
      refine ⟨[], rfl, fun _ _ rest' => ?_⟩
      rw [List.cons_append, List.headD_cons] at hsimple
      rw [hsimple, Option.map_some, List.nil_append]

theorem definite_readsOne : definite.ReadsOne := by
  intro bytes v rest h
  simp only [definite] at h
  split at h
  · rename_i r hr
    cases h
    obtain ⟨item, hitem, htakes⟩ := read_takes hr
    refine ⟨item, hitem, fun rest' => ?_⟩
    simp only [definite, htakes (item ++ rest').length (by simp)]
  · cases h

end Cbor

/-
Strings as Kotlin and Java have them: lists of 16-bit code units, in which a
surrogate may stand alone. Strings compare unit by unit, `trim` takes the white
space of Unicode off, a prefix may be found without regard to case, and
`toIntOrNull` reads the decimal digits of every script, as `Character.digit`
does.
-/
import Mathlib.Algebra.Ring.Nat
import Mathlib.Data.List.DropRight

namespace CodeUnits

abbrev Text := List UInt16

/-- The units of a string of the Basic Multilingual Plane. -/
def text (s : String) : Text := s.toList.map fun c => c.toNat.toUInt16

/-- No surrogate stands alone. -/
def WellFormed : Text → Bool
  | [] => true
  | c :: s =>
    if 0xD800 ≤ c ∧ c < 0xDC00 then match s with
      | [] => false
      | d :: s => (0xDC00 ≤ d && d < 0xE000) && WellFormed s
    else !(0xDC00 ≤ c && c < 0xE000) && WellFormed s

/-- `isWhitespace` -/
def isWhitespace (c : UInt16) : Bool :=
  (9 ≤ c && c ≤ 13) || (0x1C ≤ c && c ≤ 0x20) || c == 0xA0 || c == 0x1680 || (0x2000 ≤ c && c ≤ 0x200A) ||
    c == 0x2028 || c == 0x2029 || c == 0x202F || c == 0x205F || c == 0x3000

def trim (s : Text) : Text := (s.dropWhile isWhitespace).rdropWhile isWhitespace

/-- The unit is the first one, a small ASCII letter or no letter, in upper or in
lower case: beside the ASCII capitals these are the long s, the Kelvin sign and
the dotless and the dotted i. -/
def foldsTo (p c : UInt16) : Bool :=
  c == p || (97 ≤ p && p ≤ 122 && (c + 32 == p || (p == 115 && c == 0x17F) || (p == 107 && c == 0x212A) ||
    (p == 105 && (c == 0x130 || c == 0x131))))

/-- `startsWith` with `ignoreCase`. -/
def startsFold : Text → Text → Bool
  | [], _ => true
  | _ :: _, [] => false
  | p :: pat, c :: s => foldsTo p c && startsFold pat s

/-- Before and after the first of a unit. -/
def cut (d : UInt16) : Text → Option (Text × Text)
  | [] => none
  | c :: s => if c = d then some ([], s) else (cut d s).map fun (a, b) => (c :: a, b)

def substringAfter (d : UInt16) (s : Text) : Text := ((cut d s).map Prod.snd).getD []

/-- `split` at a unit that comes twice. -/
def splitTwice (d : UInt16) : Text → List Text
  | [] => [[]]
  | [c] => [[c]]
  | c :: e :: s => if c = d ∧ e = d then [] :: splitTwice d s else (splitTwice d (e :: s)).modifyHead (c :: ·)

/-- Where the decimal digits of a script begin. -/
def digitZeros : List Nat :=
  [0x30, 0x660, 0x6F0, 0x7C0, 0x966, 0x9E6, 0xA66, 0xAE6, 0xB66, 0xBE6, 0xC66, 0xCE6, 0xD66, 0xDE6, 0xE50, 0xED0,
   0xF20, 0x1040, 0x1090, 0x17E0, 0x1810, 0x1946, 0x19D0, 0x1A80, 0x1A90, 0x1B50, 0x1BB0, 0x1C40, 0x1C50, 0xA620,
   0xA8D0, 0xA900, 0xA9D0, 0xA9F0, 0xAA50, 0xABF0, 0xFF10]

/-- `Character.digit` in base ten. -/
def digitOf (c : UInt16) : Option Nat :=
  (digitZeros.find? fun z => z ≤ c.toNat && c.toNat < z + 10).map (c.toNat - ·)

def isDigit (c : UInt16) : Bool := (digitOf c).isSome

/-- The number that some digits write after another one. -/
def digitsFrom (n : Nat) : Text → Option Nat
  | [] => some n
  | c :: s => (digitOf c).bind fun d => digitsFrom (10 * n + d) s

def toIntOrNull : Text → Option Int
  | [] => none
  | c :: s =>
    if c < 48 then
      if s = [] then none
      else if c = 45 then (digitsFrom 0 s).bind fun n => if n ≤ 2 ^ 31 then some (-(n : Int)) else none
      else if c = 43 then (digitsFrom 0 s).bind fun n => if n < 2 ^ 31 then some (n : Int) else none
      else none
    else (digitsFrom 0 (c :: s)).bind fun n => if n < 2 ^ 31 then some (n : Int) else none

/-- A number in decimal, as `toString` writes it. -/
def decimal (n : Nat) : Text := (Nat.toDigits 10 n).map fun c => c.toNat.toUInt16

variable {c d p : UInt16} {s t pat : Text} {n : Nat}

/-! ## Trimming -/

theorem trim_eq_self (hhead : ∀ h : s ≠ [], isWhitespace (s.head h) = false)
    (hlast : ∀ h : s ≠ [], isWhitespace (s.getLast h) = false) : trim s = s := by
  have hdrop : s.dropWhile isWhitespace = s := by
    cases s with
    | nil => rfl
    | cons c s => exact List.dropWhile_cons_of_neg (by simpa using hhead (by simp))
  rw [trim, hdrop, List.rdropWhile_eq_self_iff]
  exact fun h => by simpa using hlast h

theorem trim_sublist : (trim s).Sublist s :=
  (List.rdropWhile_prefix _ _).sublist.trans (List.dropWhile_suffix _).sublist

theorem mem_of_mem_trim (h : c ∈ trim s) : c ∈ s := trim_sublist.subset h

theorem head_dropWhile (h : s.dropWhile isWhitespace ≠ []) :
    isWhitespace ((s.dropWhile isWhitespace).head h) = false := by
  simpa using List.head_dropWhile_not isWhitespace h

theorem trim_trim : trim (trim s) = trim s := by
  refine trim_eq_self ?_ ?_
  · intro h
    have hprefix : trim s <+: s.dropWhile isWhitespace := List.rdropWhile_prefix _ _
    obtain ⟨rest, hrest⟩ := hprefix
    have hne : s.dropWhile isWhitespace ≠ [] := by
      rw [← hrest]
      exact List.append_ne_nil_of_left_ne_nil h _
    have hhead : (trim s).head h = (s.dropWhile isWhitespace).head hne := by
      simp only [← hrest, List.head_append_of_ne_nil h]
    rw [hhead]
    exact head_dropWhile hne
  · intro h
    have hlast : ¬ isWhitespace ((trim s).getLast h) := List.rdropWhile_last_not _ _ h
    simpa using hlast

theorem head_of_trim (h : trim s = s) (hne : s ≠ []) : isWhitespace (s.head hne) = false := by
  have hdrop : s.dropWhile isWhitespace ≠ [] := by
    intro hnil
    rw [trim, hnil] at h
    exact hne h.symm
  have hsame : s.dropWhile isWhitespace = s := by
    refine List.IsSuffix.eq_of_length (List.dropWhile_suffix _) (Nat.le_antisymm ?_ ?_)
    · exact (List.dropWhile_suffix _).length_le
    · calc s.length = (trim s).length := by rw [h]
        _ ≤ (s.dropWhile isWhitespace).length := (List.rdropWhile_prefix _ _).length_le
  have hhead := head_dropWhile hdrop
  simp only [hsame] at hhead
  exact hhead

/-- A front that is not empty after trimming begins as it did. -/
theorem head?_trim (hne : trim s ≠ []) (hhead : ∀ h : s ≠ [], isWhitespace (s.head h) = false) :
    (trim s).head? = s.head? := by
  cases s with
  | nil => rfl
  | cons c s =>
    have hdrop : (c :: s).dropWhile isWhitespace = c :: s :=
      List.dropWhile_cons_of_neg (by simpa using hhead (by simp))
    obtain ⟨rest, hrest⟩ : trim (c :: s) <+: c :: s := by
      rw [trim, hdrop]
      exact List.rdropWhile_prefix _ _
    calc (trim (c :: s)).head? = (trim (c :: s) ++ rest).head? := (List.head?_append_of_ne_nil _ hne).symm
      _ = (c :: s).head? := by rw [hrest]

/-! ## Prefixes and cuts -/

theorem foldsTo_self : foldsTo c c = true := by simp [foldsTo]

theorem startsFold_append : startsFold pat (pat ++ s) = true := by
  induction pat with
  | nil => rfl
  | cons p pat ih => rw [List.cons_append, startsFold, foldsTo_self, ih, Bool.and_self]

/-- A unit of the prefix that is no letter stands in the string. -/
theorem mem_of_startsFold (h : startsFold pat s = true) (hp : p ∈ pat) (hletter : p < 97 ∨ 122 < p) : p ∈ s := by
  induction pat generalizing s with
  | nil => cases hp
  | cons q pat ih =>
    cases s with
    | nil => cases h
    | cons c s =>
      obtain ⟨hc, hs⟩ := Bool.and_eq_true_iff.mp h
      rcases List.mem_cons.mp hp with rfl | hp
      · simp only [foldsTo, Bool.or_eq_true, Bool.and_eq_true, beq_iff_eq, decide_eq_true_eq] at hc
        rcases hc with rfl | ⟨⟨hlow, hhigh⟩, -⟩
        · exact List.mem_cons_self
        · rw [UInt16.le_iff_toNat_le] at hlow hhigh
          rw [UInt16.lt_iff_toNat_lt, UInt16.lt_iff_toNat_lt] at hletter
          omega
      · exact List.mem_cons_of_mem _ (ih hs hp)

theorem cut_append (h : d ∉ s) : cut d (s ++ d :: t) = some (s, t) := by
  induction s with
  | nil => simp [cut]
  | cons c s ih =>
    rw [List.mem_cons, not_or] at h
    rw [List.cons_append, cut, if_neg (Ne.symm h.1), ih h.2, Option.map_some]

theorem substringAfter_append (h : d ∉ s) : substringAfter d (s ++ d :: t) = t := by
  rw [substringAfter, cut_append h, Option.map_some, Option.getD_some]

theorem cut_some (h : cut d s = some (t, pat)) : s = t ++ d :: pat ∧ d ∉ t := by
  induction s generalizing t with
  | nil => cases h
  | cons c s ih =>
    rw [cut] at h
    split at h
    · rename_i hc
      cases h
      exact ⟨by rw [hc, List.nil_append], List.not_mem_nil⟩
    · rename_i hc
      obtain ⟨⟨a, b⟩, hcut, hab⟩ := Option.map_eq_some_iff.mp h
      cases hab
      obtain ⟨rfl, hnot⟩ := ih hcut
      exact ⟨rfl, by simp [Ne.symm hc, hnot]⟩

theorem cut_none (h : cut d s = none) : d ∉ s := by
  induction s with
  | nil => exact List.not_mem_nil
  | cons c s ih =>
    rw [cut] at h
    split at h
    · cases h
    · rename_i hc
      rw [Option.map_eq_none_iff] at h
      simp [Ne.symm hc, ih h]

theorem takeWhile_ne_self (h : d ∉ s) : s.takeWhile (· ≠ d) = s := by
  rw [List.takeWhile_eq_self_iff]
  intro c hc
  simp only [ne_eq, decide_eq_true_eq]
  exact fun heq => h (heq ▸ hc)

theorem not_mem_takeWhile : d ∉ s.takeWhile (· ≠ d) := by
  intro h
  simpa using List.mem_takeWhile_imp h

/-! ## Splitting at two units -/

/-- The unit does not come twice in a row. -/
def Single (d : UInt16) (s : Text) : Prop := s.IsChain fun c e => ¬ (c = d ∧ e = d)

theorem splitTwice_ne_nil : splitTwice d s ≠ [] := by
  induction s using splitTwice.induct d with
  | case1 => simp [splitTwice]
  | case2 c => simp [splitTwice]
  | case3 c e s hboth => simp [splitTwice, hboth]
  | case4 c e s hne ih =>
    rw [splitTwice, if_neg hne]
    cases hparts : splitTwice d (e :: s) with
    | nil => exact absurd hparts ih
    | cons p ps => simp

theorem splitTwice_single (h : Single d s) : splitTwice d s = [s] := by
  induction s using splitTwice.induct d with
  | case1 => rfl
  | case2 c => rfl
  | case3 c e s hboth => exact absurd hboth (List.isChain_cons_cons.mp h).1
  | case4 c e s hne ih =>
    rw [splitTwice, if_neg hne, ih (List.isChain_cons_cons.mp h).2]
    rfl

/-- A front in which the unit does not come twice, and which does not end in it. -/
theorem splitTwice_append (h : Single d s) (hlast : s.getLast? ≠ some d) :
    splitTwice d (s ++ d :: d :: t) = s :: splitTwice d t := by
  induction s with
  | nil => rw [List.nil_append, splitTwice, if_pos ⟨rfl, rfl⟩]
  | cons c s ih =>
    cases s with
    | nil =>
      have hc : c ≠ d := by simpa using hlast
      rw [List.singleton_append, splitTwice, if_neg fun heq => hc heq.1, splitTwice, if_pos ⟨rfl, rfl⟩]
      rfl
    | cons e s =>
      obtain ⟨hne, hchain⟩ := List.isChain_cons_cons.mp h
      rw [List.cons_append, List.cons_append, splitTwice, if_neg hne, ← List.cons_append,
        ih hchain (by simpa using hlast)]
      rfl

/-- One part: the string. Two parts: what they are parts of. -/
theorem of_splitTwice_one (h : splitTwice d s = [t]) : s = t := by
  induction s using splitTwice.induct d generalizing t with
  | case1 => simpa [splitTwice] using h
  | case2 c => simpa [splitTwice] using h
  | case3 c e s hboth =>
    rw [splitTwice, if_pos hboth] at h
    exact absurd (List.cons.inj h).2 splitTwice_ne_nil
  | case4 c e s hne ih =>
    rw [splitTwice, if_neg hne] at h
    cases hparts : splitTwice d (e :: s) with
    | nil => exact absurd hparts splitTwice_ne_nil
    | cons p ps =>
      rw [hparts] at h
      obtain ⟨rfl, rfl⟩ := List.cons.inj h
      rw [ih hparts]

theorem of_splitTwice_two (h : splitTwice d s = [t, pat]) : s = t ++ d :: d :: pat := by
  induction s using splitTwice.induct d generalizing t with
  | case1 => simp [splitTwice] at h
  | case2 c => simp [splitTwice] at h
  | case3 c e s hboth =>
    rw [splitTwice, if_pos hboth] at h
    obtain ⟨rfl, hrest⟩ := List.cons.inj h
    rw [of_splitTwice_one hrest, hboth.1, hboth.2, List.nil_append]
  | case4 c e s hne ih =>
    rw [splitTwice, if_neg hne] at h
    cases hparts : splitTwice d (e :: s) with
    | nil => exact absurd hparts splitTwice_ne_nil
    | cons p ps =>
      rw [hparts] at h
      obtain ⟨rfl, rfl⟩ := List.cons.inj h
      rw [ih hparts]
      rfl

/-! ## Numbers -/

theorem digitOf_ascii (hle : 48 ≤ c.toNat) (hlt : c.toNat < 58) : digitOf c = some (c.toNat - 48) := by
  have hfind : (digitZeros.find? fun z => z ≤ c.toNat && c.toNat < z + 10) = some 0x30 := by
    rw [digitZeros, List.find?_cons_of_pos]
    simp only [Bool.and_eq_true, decide_eq_true_eq]
    omega
  rw [digitOf, hfind, Option.map_some]

/-- The only ASCII digits are those from 0 to 9. -/
theorem ascii_of_isDigit (h : isDigit c = true) (hascii : c.toNat < 0x80) : 48 ≤ c.toNat ∧ c.toNat < 58 := by
  obtain ⟨n, hn⟩ := Option.isSome_iff_exists.mp h
  obtain ⟨z, hz, -⟩ := Option.map_eq_some_iff.mp hn
  have hrange := List.find?_some hz
  simp only [Bool.and_eq_true, decide_eq_true_eq] at hrange
  have hzeros : ∀ z ∈ digitZeros, z = 48 ∨ 0x660 ≤ z := by decide
  have := hzeros z (List.mem_of_find?_eq_some hz)
  omega

theorem toNat_digit {ch : Char} (h : ch ∈ Nat.toDigits 10 n) :
    48 ≤ ch.toNat ∧ ch.toNat < 58 ∧ ch.toNat.toUInt16.toNat = ch.toNat := by
  have hdigit := Char.isDigit_iff_toNat.mp (Nat.isDigit_of_mem_toDigits (by decide) (by decide) h)
  have h0 : '0'.toNat = 48 := rfl
  have h9 : '9'.toNat = 57 := rfl
  refine ⟨by omega, by omega, ?_⟩
  rw [Nat.toUInt16, UInt16.toNat_ofNat_of_lt']
  exact Nat.lt_of_le_of_lt hdigit.2 (by decide)

theorem mem_decimal (h : c ∈ decimal n) : 48 ≤ c.toNat ∧ c.toNat < 58 := by
  obtain ⟨ch, hch, rfl⟩ := List.mem_map.mp h
  have hdigit := toNat_digit hch
  omega

theorem not_isWhitespace_ascii (h : 33 ≤ c.toNat) (hlt : c.toNat < 0x80) : isWhitespace c = false := by
  have hbig : ∀ d : UInt16, 0x80 ≤ d.toNat → ¬ d ≤ c := by
    intro d hd
    rw [UInt16.le_iff_toNat_le]
    omega
  have hne : ∀ d : UInt16, 0x80 ≤ d.toNat → c ≠ d := fun d hd heq => hbig d hd (heq ▸ UInt16.le_refl _)
  have hsmall : ∀ d : UInt16, d.toNat < 33 → ¬ c ≤ d := by
    intro d hd
    rw [UInt16.le_iff_toNat_le]
    omega
  simp [isWhitespace, hbig, hne, hsmall]

theorem decimal_ne_nil : decimal n ≠ [] := by
  simp [decimal, Nat.toDigits_ne_nil]

theorem digitsFrom_ascii (h : ∀ c ∈ s, 48 ≤ c.toNat ∧ c.toNat < 58) :
    digitsFrom n s = some (s.foldl (fun n c => 10 * n + (c.toNat - 48)) n) := by
  induction s generalizing n with
  | nil => rfl
  | cons c s ih =>
    obtain ⟨hle, hlt⟩ := h c (by simp)
    rw [digitsFrom, digitOf_ascii hle hlt, Option.bind_some, ih fun d hd => h d (by simp [hd]), List.foldl_cons]

theorem digitsFrom_decimal : digitsFrom 0 (decimal n) = some n := by
  rw [digitsFrom_ascii fun c hc => mem_decimal hc, decimal, List.foldl_map]
  have hvalue := Nat.ofDigitChars_ten_toDigits (n := n)
  rw [Nat.ofDigitChars] at hvalue
  refine congrArg some (Eq.trans (List.foldl_ext _ _ _ ?_) hvalue)
  intro m ch hch
  rw [(toNat_digit hch).2.2]
  rfl

theorem decimal_injective {m : Nat} (h : decimal m = decimal n) : m = n := by
  have hm := digitsFrom_decimal (n := m)
  rw [h, digitsFrom_decimal] at hm
  exact (Option.some.inj hm).symm

/-- What `toString` writes, `toIntOrNull` reads. -/
theorem toIntOrNull_decimal (h : n < 2 ^ 31) : toIntOrNull (decimal n) = some (n : Int) := by
  cases hdigits : decimal n with
  | nil => exact absurd hdigits decimal_ne_nil
  | cons c s =>
    have hc := mem_decimal (c := c) (n := n) (by simp [hdigits])
    have hge : ¬ c < 48 := by
      rw [UInt16.lt_iff_toNat_lt]
      exact Nat.not_lt.mpr hc.1
    rw [toIntOrNull, if_neg hge, ← hdigits, digitsFrom_decimal, Option.bind_some, if_pos h]

end CodeUnits

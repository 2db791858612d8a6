/-
Text with positions in bytes: where a pattern is found, what a cut at a
position leaves, and the lower-case copy of a text.

A position found in the lower-case copy is one of the text itself where the
characters before it keep their size. Not all of them do: the table below
takes a few characters to ones of more or of fewer bytes, and one to two
characters. `find_lowercase` says where a pattern of small ASCII letters is
found in the copy: at the size of the lower-case copy of what stands before
its first occurrence in the text, in letters of either case.
-/
import Mathlib.Algebra.Ring.Nat
import Mathlib.Data.List.Basic
import Mathlib.Algebra.BigOperators.Group.List.Basic

namespace Casing

abbrev Text := List Char

/-- The length in bytes of UTF-8. -/
def size (s : Text) : Nat := (s.map Char.utf8Size).sum

/-- What a cut at a position leaves: none past the end or inside a character. -/
def sliceFrom : Nat → Text → Option Text
  | 0, s => some s
  | _ + 1, [] => none
  | n + 1, c :: s => if n + 1 < c.utf8Size then none else sliceFrom (n + 1 - c.utf8Size) s

/-- What a cut at a position keeps, where it is a cut. -/
def sliceTo : Nat → Text → Option Text
  | 0, _ => some []
  | _ + 1, [] => none
  | n + 1, c :: s => if n + 1 < c.utf8Size then none else (sliceTo (n + 1 - c.utf8Size) s).map (c :: ·)

/-- The position at which a pattern is first found. -/
def find (pat : Text) : Text → Option Nat
  | [] => if pat = [] then some 0 else none
  | c :: s => if pat.isPrefixOf (c :: s) then some 0 else (find pat s).map (c.utf8Size + ·)

/-! ## Lower case -/

/-- Every `step`-th character from `first` to `last`, with what leads from it to
its lower-case one. -/
structure Range where
  first : Nat
  last : Nat
  step : Nat
  delta : Int

/-- The characters past ASCII that have a single lower-case one, as of Unicode 15. -/
def lowercaseTable : List Range :=
  [⟨0xc0, 0xd6, 1, 32⟩, ⟨0xd8, 0xde, 1, 32⟩, ⟨0x100, 0x12e, 2, 1⟩, ⟨0x132, 0x136, 2, 1⟩, ⟨0x139, 0x147, 2, 1⟩,
    ⟨0x14a, 0x176, 2, 1⟩, ⟨0x178, 0x178, 1, -121⟩, ⟨0x179, 0x17d, 2, 1⟩, ⟨0x181, 0x181, 1, 210⟩, ⟨0x182, 0x184, 2, 1⟩,
    ⟨0x186, 0x186, 1, 206⟩, ⟨0x187, 0x187, 1, 1⟩, ⟨0x189, 0x18a, 1, 205⟩, ⟨0x18b, 0x18b, 1, 1⟩, ⟨0x18e, 0x18e, 1, 79⟩,
    ⟨0x18f, 0x18f, 1, 202⟩, ⟨0x190, 0x190, 1, 203⟩, ⟨0x191, 0x191, 1, 1⟩, ⟨0x193, 0x193, 1, 205⟩,
    ⟨0x194, 0x194, 1, 207⟩, ⟨0x196, 0x196, 1, 211⟩, ⟨0x197, 0x197, 1, 209⟩, ⟨0x198, 0x198, 1, 1⟩,
    ⟨0x19c, 0x19c, 1, 211⟩, ⟨0x19d, 0x19d, 1, 213⟩, ⟨0x19f, 0x19f, 1, 214⟩, ⟨0x1a0, 0x1a4, 2, 1⟩,
    ⟨0x1a6, 0x1a6, 1, 218⟩, ⟨0x1a7, 0x1a7, 1, 1⟩, ⟨0x1a9, 0x1a9, 1, 218⟩, ⟨0x1ac, 0x1ac, 1, 1⟩,
    ⟨0x1ae, 0x1ae, 1, 218⟩, ⟨0x1af, 0x1af, 1, 1⟩, ⟨0x1b1, 0x1b2, 1, 217⟩, ⟨0x1b3, 0x1b5, 2, 1⟩,
    ⟨0x1b7, 0x1b7, 1, 219⟩, ⟨0x1b8, 0x1b8, 1, 1⟩, ⟨0x1bc, 0x1bc, 1, 1⟩, ⟨0x1c4, 0x1c4, 1, 2⟩, ⟨0x1c5, 0x1c5, 1, 1⟩,
    ⟨0x1c7, 0x1c7, 1, 2⟩, ⟨0x1c8, 0x1c8, 1, 1⟩, ⟨0x1ca, 0x1ca, 1, 2⟩, ⟨0x1cb, 0x1db, 2, 1⟩, ⟨0x1de, 0x1ee, 2, 1⟩,
    ⟨0x1f1, 0x1f1, 1, 2⟩, ⟨0x1f2, 0x1f4, 2, 1⟩, ⟨0x1f6, 0x1f6, 1, -97⟩, ⟨0x1f7, 0x1f7, 1, -56⟩, ⟨0x1f8, 0x21e, 2, 1⟩,
    ⟨0x220, 0x220, 1, -130⟩, ⟨0x222, 0x232, 2, 1⟩, ⟨0x23a, 0x23a, 1, 10795⟩, ⟨0x23b, 0x23b, 1, 1⟩,
    ⟨0x23d, 0x23d, 1, -163⟩, ⟨0x23e, 0x23e, 1, 10792⟩, ⟨0x241, 0x241, 1, 1⟩, ⟨0x243, 0x243, 1, -195⟩,
    ⟨0x244, 0x244, 1, 69⟩, ⟨0x245, 0x245, 1, 71⟩, ⟨0x246, 0x24e, 2, 1⟩, ⟨0x370, 0x372, 2, 1⟩, ⟨0x376, 0x376, 1, 1⟩,
    ⟨0x37f, 0x37f, 1, 116⟩, ⟨0x386, 0x386, 1, 38⟩, ⟨0x388, 0x38a, 1, 37⟩, ⟨0x38c, 0x38c, 1, 64⟩,
    ⟨0x38e, 0x38f, 1, 63⟩, ⟨0x391, 0x3a1, 1, 32⟩, ⟨0x3a3, 0x3ab, 1, 32⟩, ⟨0x3cf, 0x3cf, 1, 8⟩, ⟨0x3d8, 0x3ee, 2, 1⟩,
    ⟨0x3f4, 0x3f4, 1, -60⟩, ⟨0x3f7, 0x3f7, 1, 1⟩, ⟨0x3f9, 0x3f9, 1, -7⟩, ⟨0x3fa, 0x3fa, 1, 1⟩,
    ⟨0x3fd, 0x3ff, 1, -130⟩, ⟨0x400, 0x40f, 1, 80⟩, ⟨0x410, 0x42f, 1, 32⟩, ⟨0x460, 0x480, 2, 1⟩, ⟨0x48a, 0x4be, 2, 1⟩,
    ⟨0x4c0, 0x4c0, 1, 15⟩, ⟨0x4c1, 0x4cd, 2, 1⟩, ⟨0x4d0, 0x52e, 2, 1⟩, ⟨0x531, 0x556, 1, 48⟩,
    ⟨0x10a0, 0x10c5, 1, 7264⟩, ⟨0x10c7, 0x10c7, 1, 7264⟩, ⟨0x10cd, 0x10cd, 1, 7264⟩, ⟨0x13a0, 0x13ef, 1, 38864⟩,
    ⟨0x13f0, 0x13f5, 1, 8⟩, ⟨0x1c90, 0x1cba, 1, -3008⟩, ⟨0x1cbd, 0x1cbf, 1, -3008⟩, ⟨0x1e00, 0x1e94, 2, 1⟩,
    ⟨0x1e9e, 0x1e9e, 1, -7615⟩, ⟨0x1ea0, 0x1efe, 2, 1⟩, ⟨0x1f08, 0x1f0f, 1, -8⟩, ⟨0x1f18, 0x1f1d, 1, -8⟩,
    ⟨0x1f28, 0x1f2f, 1, -8⟩, ⟨0x1f38, 0x1f3f, 1, -8⟩, ⟨0x1f48, 0x1f4d, 1, -8⟩, ⟨0x1f59, 0x1f5f, 2, -8⟩,
    ⟨0x1f68, 0x1f6f, 1, -8⟩, ⟨0x1f88, 0x1f8f, 1, -8⟩, ⟨0x1f98, 0x1f9f, 1, -8⟩, ⟨0x1fa8, 0x1faf, 1, -8⟩,
    ⟨0x1fb8, 0x1fb9, 1, -8⟩, ⟨0x1fba, 0x1fbb, 1, -74⟩, ⟨0x1fbc, 0x1fbc, 1, -9⟩, ⟨0x1fc8, 0x1fcb, 1, -86⟩,
    ⟨0x1fcc, 0x1fcc, 1, -9⟩, ⟨0x1fd8, 0x1fd9, 1, -8⟩, ⟨0x1fda, 0x1fdb, 1, -100⟩, ⟨0x1fe8, 0x1fe9, 1, -8⟩,
    ⟨0x1fea, 0x1feb, 1, -112⟩, ⟨0x1fec, 0x1fec, 1, -7⟩, ⟨0x1ff8, 0x1ff9, 1, -128⟩, ⟨0x1ffa, 0x1ffb, 1, -126⟩,
    ⟨0x1ffc, 0x1ffc, 1, -9⟩, ⟨0x2126, 0x2126, 1, -7517⟩, ⟨0x212a, 0x212a, 1, -8383⟩, ⟨0x212b, 0x212b, 1, -8262⟩,
    ⟨0x2132, 0x2132, 1, 28⟩, ⟨0x2160, 0x216f, 1, 16⟩, ⟨0x2183, 0x2183, 1, 1⟩, ⟨0x24b6, 0x24cf, 1, 26⟩,
    ⟨0x2c00, 0x2c2f, 1, 48⟩, ⟨0x2c60, 0x2c60, 1, 1⟩, ⟨0x2c62, 0x2c62, 1, -10743⟩, ⟨0x2c63, 0x2c63, 1, -3814⟩,
    ⟨0x2c64, 0x2c64, 1, -10727⟩, ⟨0x2c67, 0x2c6b, 2, 1⟩, ⟨0x2c6d, 0x2c6d, 1, -10780⟩, ⟨0x2c6e, 0x2c6e, 1, -10749⟩,
    ⟨0x2c6f, 0x2c6f, 1, -10783⟩, ⟨0x2c70, 0x2c70, 1, -10782⟩, ⟨0x2c72, 0x2c72, 1, 1⟩, ⟨0x2c75, 0x2c75, 1, 1⟩,
    ⟨0x2c7e, 0x2c7f, 1, -10815⟩, ⟨0x2c80, 0x2ce2, 2, 1⟩, ⟨0x2ceb, 0x2ced, 2, 1⟩, ⟨0x2cf2, 0x2cf2, 1, 1⟩,
    ⟨0xa640, 0xa66c, 2, 1⟩, ⟨0xa680, 0xa69a, 2, 1⟩, ⟨0xa722, 0xa72e, 2, 1⟩, ⟨0xa732, 0xa76e, 2, 1⟩,
    ⟨0xa779, 0xa77b, 2, 1⟩, ⟨0xa77d, 0xa77d, 1, -35332⟩, ⟨0xa77e, 0xa786, 2, 1⟩, ⟨0xa78b, 0xa78b, 1, 1⟩,
    ⟨0xa78d, 0xa78d, 1, -42280⟩, ⟨0xa790, 0xa792, 2, 1⟩, ⟨0xa796, 0xa7a8, 2, 1⟩, ⟨0xa7aa, 0xa7aa, 1, -42308⟩,
    ⟨0xa7ab, 0xa7ab, 1, -42319⟩, ⟨0xa7ac, 0xa7ac, 1, -42315⟩, ⟨0xa7ad, 0xa7ad, 1, -42305⟩,
    ⟨0xa7ae, 0xa7ae, 1, -42308⟩, ⟨0xa7b0, 0xa7b0, 1, -42258⟩, ⟨0xa7b1, 0xa7b1, 1, -42282⟩,
    ⟨0xa7b2, 0xa7b2, 1, -42261⟩, ⟨0xa7b3, 0xa7b3, 1, 928⟩, ⟨0xa7b4, 0xa7c2, 2, 1⟩, ⟨0xa7c4, 0xa7c4, 1, -48⟩,
    ⟨0xa7c5, 0xa7c5, 1, -42307⟩, ⟨0xa7c6, 0xa7c6, 1, -35384⟩, ⟨0xa7c7, 0xa7c9, 2, 1⟩, ⟨0xa7d0, 0xa7d0, 1, 1⟩,
    ⟨0xa7d6, 0xa7d8, 2, 1⟩, ⟨0xa7f5, 0xa7f5, 1, 1⟩, ⟨0xff21, 0xff3a, 1, 32⟩, ⟨0x10400, 0x10427, 1, 40⟩,
    ⟨0x104b0, 0x104d3, 1, 40⟩, ⟨0x10570, 0x1057a, 1, 39⟩, ⟨0x1057c, 0x1058a, 1, 39⟩, ⟨0x1058c, 0x10592, 1, 39⟩,
    ⟨0x10594, 0x10595, 1, 39⟩, ⟨0x10c80, 0x10cb2, 1, 64⟩, ⟨0x118a0, 0x118bf, 1, 32⟩, ⟨0x16e40, 0x16e5f, 1, 32⟩,
    ⟨0x1e900, 0x1e921, 1, 34⟩]

def Range.has (r : Range) (n : Nat) : Bool := r.first ≤ n && n ≤ r.last && (n - r.first) % r.step == 0

def lowercaseOf (n : Nat) : Nat := match lowercaseTable.find? (·.has n) with
  | some r => (n + r.delta).toNat
  | none => n

/-- The lower case of a character, wherever it stands. The capital I with a dot
is the only one with two characters. -/
def lowerChar (c : Char) : Text :=
  if c.toNat < 0x80 then [c.toLower]
  else if c = '\u0130' then ['i', '\u0307']
  else [Char.ofNat (lowercaseOf c.toNat)]

/-- A capital sigma that ends a word has another small one. What ends a word is
for `finalSigma` to say, from what stands before (nearest first) and after. -/
def lowerAt (finalSigma : Text → Text → Bool) (before : Text) (c : Char) (later : Text) : Text :=
  if c = '\u03a3' && finalSigma before later then ['\u03c2'] else lowerChar c

def lowerFrom (finalSigma : Text → Text → Bool) (before : Text) : Text → Text
  | [] => []
  | c :: s => lowerAt finalSigma before c s ++ lowerFrom finalSigma (c :: before) s

/-- The lower-case copy of a text. -/
def lowercase (finalSigma : Text → Text → Bool) (s : Text) : Text := lowerFrom finalSigma [] s

/-- The bytes of the lower-case copy of a text. -/
def lowerSize (s : Text) : Nat := (s.map fun c => size (lowerChar c)).sum

/-! ## Letters of either case -/

/-- The text starts with the pattern, in letters of either case. -/
def startsFold (pat s : Text) : Bool := (s.take pat.length).map Char.toLower == pat

/-- What stands before and after the first occurrence of a pattern, in letters
of either case. -/
def firstFold (pat : Text) : Text → Option (Text × Text)
  | [] => if pat = [] then some ([], []) else none
  | c :: s =>
    if startsFold pat (c :: s) then some ([], (c :: s).drop pat.length)
    else (firstFold pat s).map fun (before, later) => (c :: before, later)

variable {c d : Char} {s pat : Text} {n : Nat} {finalSigma : Text → Text → Bool}

theorem toLower_toNat (c : Char) :
    c.toLower.toNat = if 65 ≤ c.toNat ∧ c.toNat ≤ 90 then c.toNat + 32 else c.toNat := by
  have hA : 'A'.val.toNat = 65 := rfl
  have hZ : 'Z'.val.toNat = 90 := rfl
  unfold Char.toLower
  split
  · rename_i h
    have h' : 65 ≤ c.toNat ∧ c.toNat ≤ 90 := ⟨hA ▸ UInt32.le_iff_toNat_le.mp h.1, hZ ▸ UInt32.le_iff_toNat_le.mp h.2⟩
    rw [if_pos h']
    have hdiff : ('a'.val - 'A'.val).toNat = 32 := rfl
    change (c.val + ('a'.val - 'A'.val)).toNat = _
    rw [UInt32.toNat_add, hdiff]
    have : c.val.toNat = c.toNat := rfl
    omega
  · rename_i h
    rw [if_neg]
    intro h'
    exact h ⟨UInt32.le_iff_toNat_le.mpr h'.1, UInt32.le_iff_toNat_le.mpr h'.2⟩

theorem utf8Size_ascii (h : c.toNat < 0x80) : c.utf8Size = 1 := by
  rw [Char.utf8Size_eq_one_iff, UInt32.le_iff_toNat_le]
  change c.toNat ≤ 127
  omega

theorem ascii_of_toLower (h : c.toLower.toNat < 0x80) : c.toNat < 0x80 := by
  rw [toLower_toNat] at h
  split at h <;> omega

/-! ## The table -/

theorem toNat_ofNat (h : n.isValidChar) : (Char.ofNat n).toNat = n := by
  rw [Char.ofNat, dif_pos h]
  rfl

/-- A row leads past ASCII to characters past ASCII; the Kelvin sign is the
exception. -/
def Range.sound (r : Range) : Bool :=
  r.first == 0x212a && r.last == 0x212a && r.delta == -0x20bf ||
    decide (0x80 ≤ r.first + r.delta) &&
      (decide (r.last + r.delta < 0xd800) || decide (0xdfff < r.first + r.delta) && decide (r.last + r.delta < 0x110000))

theorem lowercaseTable_sound : ∀ r ∈ lowercaseTable, r.sound = true := by
  decide +kernel

/-- The lower case of a character past ASCII: the letter i with a dot, the
letter k of the Kelvin sign, or a character past ASCII again. -/
theorem lowerChar_cases (h : 0x80 ≤ c.toNat) :
    lowerChar c = ['i', '\u0307'] ∨ lowerChar c = ['k'] ∨ ∃ d, lowerChar c = [d] ∧ 0x80 ≤ d.toNat := by
  rw [lowerChar, if_neg (by omega)]
  split
  · exact .inl rfl
  · right
    unfold lowercaseOf
    split
    · rename_i r hr
      have hhas := List.find?_some hr
      have hsound := lowercaseTable_sound r (List.mem_of_find?_eq_some hr)
      simp only [Range.has, Bool.and_eq_true, decide_eq_true_eq] at hhas
      obtain ⟨⟨hfirst, hlast⟩, _⟩ := hhas
      simp only [Range.sound, Bool.or_eq_true, Bool.and_eq_true, beq_iff_eq, decide_eq_true_eq] at hsound
      rcases hsound with ⟨⟨h₁, h₂⟩, h₃⟩ | ⟨hmin, hmax⟩
      · left
        have : (c.toNat + r.delta).toNat = 0x6b := by omega
        rw [this]
      · right
        refine ⟨_, rfl, ?_⟩
        rw [toNat_ofNat (by simp only [Nat.isValidChar]; omega)]
        omega
    · exact .inr ⟨_, rfl, by rwa [Char.ofNat_toNat]⟩

theorem lowerChar_ascii (h : c.toNat < 0x80) : lowerChar c = [c.toLower] := if_pos h

theorem lowerAt_ascii {before later : Text} (h : c.toNat < 0x80) : lowerAt finalSigma before c later = [c.toLower] := by
  have hne : c ≠ '\u03a3' := by
    intro hc
    subst hc
    exact absurd h (by decide)
  rw [lowerAt, if_neg (by simp [hne]), lowerChar_ascii h]

theorem lowerAt_cases (finalSigma : Text → Text → Bool) (before later : Text) (h : 0x80 ≤ c.toNat) :
    lowerAt finalSigma before c later = ['i', '\u0307'] ∨ lowerAt finalSigma before c later = ['k'] ∨
      ∃ d, lowerAt finalSigma before c later = [d] ∧ 0x80 ≤ d.toNat := by
  unfold lowerAt
  split
  · exact .inr (.inr ⟨'\u03c2', rfl, by decide⟩)
  · exact lowerChar_cases h

theorem size_lowerAt (finalSigma : Text → Text → Bool) (before later : Text) :
    size (lowerAt finalSigma before c later) = size (lowerChar c) := by
  unfold lowerAt
  split
  · rename_i h
    simp only [Bool.and_eq_true, decide_eq_true_eq] at h
    rw [h.1]
    decide +kernel
  · rfl

/-! ## Positions -/

@[simp] theorem size_nil : size [] = 0 := rfl

@[simp] theorem size_cons : size (c :: s) = c.utf8Size + size s := rfl

theorem size_append {t : Text} : size (s ++ t) = size s + size t := by
  simp [size]

theorem size_ascii (h : ∀ c ∈ s, c.toNat < 0x80) : size s = s.length := by
  induction s with
  | nil => rfl
  | cons c s ih =>
    rw [size_cons, utf8Size_ascii (h c (by simp)), ih (fun d hd => h d (by simp [hd])), List.length_cons]
    omega

theorem sliceFrom_append {t : Text} : sliceFrom (size s) (s ++ t) = some t := by
  induction s with
  | nil => simp [sliceFrom]
  | cons c s ih =>
    have hpos := c.utf8Size_pos
    obtain ⟨m, hm⟩ : ∃ m, size (c :: s) = m + 1 := ⟨size (c :: s) - 1, by rw [size_cons]; omega⟩
    have hrest : m + 1 - c.utf8Size = size s := by
      rw [size_cons] at hm
      omega
    rw [size_cons] at hm
    rw [size_cons, hm, List.cons_append, sliceFrom, if_neg (by omega), hrest, ih]

theorem size_of_sliceFrom {t : Text} (h : sliceFrom n s = some t) : size s = n + size t := by
  induction s generalizing n with
  | nil =>
    cases n with
    | zero =>
      cases h
      simp
    | succ n => cases h
  | cons c s ih =>
    cases n with
    | zero =>
      cases h
      simp
    | succ n =>
      rw [sliceFrom] at h
      split at h
      · cases h
      · have := ih h
        rw [size_cons]
        omega

/-- A cut leaves what stands after a text only at the size of that text. -/
theorem sliceFrom_append_iff {t : Text} : sliceFrom n (s ++ t) = some t ↔ n = size s := by
  constructor
  · intro h
    have := size_of_sliceFrom h
    rw [size_append] at this
    omega
  · intro h
    rw [h, sliceFrom_append]

/-- A cut keeps the start of the text that has as many bytes. -/
theorem sliceTo_some_iff {t : Text} : sliceTo n s = some t ↔ t <+: s ∧ size t = n := by
  induction s generalizing n t with
  | nil =>
    cases n with
    | zero =>
      rw [sliceTo, Option.some.injEq, List.prefix_nil]
      exact ⟨fun h => ⟨h.symm, by rw [← h]; rfl⟩, fun h => h.1.symm⟩
    | succ n =>
      rw [sliceTo, List.prefix_nil]
      constructor
      · intro h
        cases h
      · intro ⟨ht, hsize⟩
        rw [ht] at hsize
        cases hsize
  | cons c s ih =>
    have hpos := c.utf8Size_pos
    cases n with
    | zero =>
      rw [sliceTo, Option.some.injEq]
      constructor
      · intro h
        rw [← h]
        exact ⟨List.nil_prefix, rfl⟩
      · intro ⟨_, hsize⟩
        cases t with
        | nil => rfl
        | cons d t =>
          have := d.utf8Size_pos
          rw [size_cons] at hsize
          omega
    | succ n =>
      rw [sliceTo]
      cases t with
      | nil =>
        constructor
        · intro h
          split at h
          · cases h
          · simp at h
        · intro ⟨_, hsize⟩
          cases hsize
      | cons d t =>
        rw [List.cons_prefix_cons, size_cons]
        split
        · rename_i hlt
          constructor
          · intro h
            cases h
          · intro ⟨⟨hd, _⟩, hsize⟩
            rw [hd] at hsize
            omega
        · rename_i hle
          simp only [Option.map_eq_some_iff, List.cons.injEq, ih]
          constructor
          · intro ⟨u, ⟨hu, hsize⟩, hc, hut⟩
            rw [← hc, ← hut]
            exact ⟨⟨rfl, hu⟩, by omega⟩
          · intro ⟨⟨hd, ht⟩, hsize⟩
            rw [hd] at hsize
            exact ⟨t, ⟨ht, by omega⟩, hd.symm, rfl⟩

theorem sliceTo_ascii (h : ∀ c ∈ s, c.toNat < 0x80) (hn : n ≤ s.length) : sliceTo n s = some (s.take n) := by
  refine sliceTo_some_iff.mpr ⟨List.take_prefix n s, ?_⟩
  rw [size_ascii fun c hc => h c (List.mem_of_mem_take hc), List.length_take]
  omega

/-! ## Patterns -/

/-- What a pattern has to be for the lower-case copy to have it where the text
has it: in ASCII, without the letter k and not at the end of a letter i, which
characters past ASCII have in their lower case. -/
def isPlain (pat : Text) : Bool :=
  pat.all (fun c => decide (c.toNat < 0x80) && decide (c ≠ 'k')) && pat.getLast? != some 'i'

theorem isPlain_cons (h : isPlain (c :: pat) = true) :
    c.toNat < 0x80 ∧ c ≠ 'k' ∧ (c = 'i' → pat ≠ []) ∧ isPlain pat = true := by
  simp only [isPlain, List.all_cons, Bool.and_eq_true, decide_eq_true_eq, bne_iff_ne] at h ⊢
  obtain ⟨⟨⟨hascii, hk⟩, hall⟩, hlast⟩ := h
  refine ⟨hascii, hk, ?_, hall, ?_⟩
  · intro hi hnil
    rw [hi, hnil] at hlast
    exact hlast rfl
  · cases pat with
    | nil => simp
    | cons d pat => rwa [List.getLast?_cons_cons] at hlast

theorem isPrefixOf_past_ascii (h : isPlain (c :: pat) = true) (hd : 0x80 ≤ d.toNat) :
    (c :: pat).isPrefixOf (d :: s) = false := by
  have hascii := (isPlain_cons h).1
  have hne : c ≠ d := by
    intro hcd
    rw [hcd] at hascii
    omega
  simp [List.isPrefixOf, hne]

theorem startsFold_cons : startsFold (c :: pat) (d :: s) = (d.toLower == c && startsFold pat s) := by
  rw [startsFold, startsFold, List.length_cons, List.take_succ_cons, List.map_cons]
  rfl

/-- A character past ASCII starts no pattern, nor does its lower case. -/
theorem starts_past_ascii (finalSigma : Text → Text → Bool) (before s : Text) (h : isPlain (c :: pat) = true)
    (hd : 0x80 ≤ d.toNat) :
    (c :: pat).isPrefixOf (lowerAt finalSigma before d s ++ lowerFrom finalSigma (d :: before) s) = false ∧
      startsFold (c :: pat) (d :: s) = false := by
  obtain ⟨hascii, hk, hi, hpat⟩ := isPlain_cons h
  constructor
  · rcases lowerAt_cases finalSigma before s hd with hl | hl | ⟨e, hl, he⟩
    · rw [hl]
      cases pat with
      | nil => simp [List.isPrefixOf, show c ≠ 'i' from fun hc => hi hc rfl]
      | cons c' pat =>
        have := isPrefixOf_past_ascii (s := lowerFrom finalSigma (d :: before) s) hpat (d := '\u0307') (by decide)
        simp only [List.cons_append, List.nil_append]
        rw [List.isPrefixOf_cons_cons, this, Bool.and_false]
    · rw [hl]
      simp [List.isPrefixOf, hk]
    · rw [hl]
      exact isPrefixOf_past_ascii h he
  · rw [startsFold_cons, Bool.and_eq_false_iff]
    left
    rw [beq_eq_false_iff_ne]
    intro hc
    have := ascii_of_toLower (c := d) (hc ▸ hascii)
    omega

theorem isPrefixOf_lowerFrom (finalSigma : Text → Text → Bool) (before s : Text) (h : isPlain pat = true) :
    pat.isPrefixOf (lowerFrom finalSigma before s) = startsFold pat s := by
  induction pat generalizing s before with
  | nil => simp [startsFold]
  | cons c pat ih =>
    cases s with
    | nil => simp [lowerFrom, startsFold]
    | cons d s =>
      rw [lowerFrom]
      by_cases hd : d.toNat < 0x80
      · rw [lowerAt_ascii hd, startsFold_cons, List.singleton_append, List.isPrefixOf_cons_cons, ih _ _ (isPlain_cons h).2.2.2,
          BEq.comm]
      · obtain ⟨h₁, h₂⟩ := starts_past_ascii finalSigma before s h (Nat.le_of_not_lt hd)
        rw [h₁, h₂]

theorem find_cons (h : pat.isPrefixOf (c :: s) = false) : find pat (c :: s) = (find pat s).map (c.utf8Size + ·) := by
  rw [find, h]
  rfl

/-- The search goes past the lower case of a character past ASCII. -/
theorem find_past_ascii (finalSigma : Text → Text → Bool) (before s : Text) (h : isPlain pat = true) (hne : pat ≠ [])
    (hd : 0x80 ≤ d.toNat) :
    find pat (lowerFrom finalSigma before (d :: s)) =
      (find pat (lowerFrom finalSigma (d :: before) s)).map (size (lowerChar d) + ·) := by
  obtain ⟨c, pat, rfl⟩ := List.exists_cons_of_ne_nil hne
  have hstart := (starts_past_ascii finalSigma before s h hd).1
  rw [lowerFrom, ← size_lowerAt finalSigma before s]
  rcases lowerAt_cases finalSigma before s hd with hl | hl | ⟨e, hl, he⟩
  · rw [hl] at hstart ⊢
    have hdot := isPrefixOf_past_ascii (s := lowerFrom finalSigma (d :: before) s) h (d := '\u0307') (by decide)
    simp only [List.cons_append, List.nil_append] at hstart ⊢
    rw [find_cons hstart, find_cons hdot, Option.map_map]
    congr 1
    funext n
    simp only [Function.comp_apply, size_cons, size_nil]
    omega
  · rw [hl] at hstart ⊢
    rw [List.singleton_append] at hstart ⊢
    rw [find_cons hstart]
    rfl
  · rw [hl] at hstart ⊢
    rw [List.singleton_append] at hstart ⊢
    rw [find_cons hstart]
    rfl

theorem find_lowerFrom (h : isPlain pat = true) (hne : pat ≠ []) {before : Text} :
    find pat (lowerFrom finalSigma before s) = (firstFold pat s).map fun p => lowerSize p.1 := by
  induction s generalizing before with
  | nil => simp [lowerFrom, find, firstFold, hne]
  | cons d s ih =>
    have hrest : (firstFold pat s).map (fun p => size (lowerChar d) + lowerSize p.1) =
        ((firstFold pat s).map fun p => (d :: p.1, p.2)).map fun p => lowerSize p.1 := by
      rw [Option.map_map]
      rfl
    by_cases hd : d.toNat < 0x80
    · have hstart := isPrefixOf_lowerFrom finalSigma before (d :: s) h
      rw [lowerFrom, lowerAt_ascii hd, List.singleton_append] at hstart ⊢
      rw [find, firstFold, hstart]
      split
      · rfl
      · rw [← hrest, ih, Option.map_map, lowerChar_ascii hd]
        rfl
    · obtain ⟨c, pat, rfl⟩ := List.exists_cons_of_ne_nil hne
      have hd := Nat.le_of_not_lt hd
      rw [find_past_ascii finalSigma before s h hne hd, ih, Option.map_map, firstFold,
        (starts_past_ascii finalSigma before s h hd).2]
      exact hrest

/-- **Where the lower-case copy has a pattern.** At the size of the lower-case
copy of what stands before the first occurrence in the text. -/
theorem find_lowercase (h : isPlain pat = true) (hne : pat ≠ []) :
    find pat (lowercase finalSigma s) = (firstFold pat s).map fun p => lowerSize p.1 :=
  find_lowerFrom h hne

theorem isPrefixOf_lowercase (h : isPlain pat = true) :
    pat.isPrefixOf (lowercase finalSigma s) = startsFold pat s :=
  isPrefixOf_lowerFrom finalSigma [] s h

/-- The text with a pattern in it: what stands before it, the pattern in
letters of either case, and what stands after it. -/
theorem firstFold_spec {before later : Text} (h : firstFold pat s = some (before, later)) :
    ∃ w, s = before ++ w ++ later ∧ w.map Char.toLower = pat := by
  induction s generalizing before with
  | nil =>
    rw [firstFold] at h
    split at h
    · rename_i hnil
      cases h
      exact ⟨[], rfl, hnil.symm⟩
    · cases h
  | cons c s ih =>
    rw [firstFold] at h
    split at h
    · rename_i hstart
      cases h
      exact ⟨_, (List.take_append_drop pat.length (c :: s)).symm, eq_of_beq hstart⟩
    · rw [Option.map_eq_some_iff] at h
      obtain ⟨⟨before', later'⟩, hrest, heq⟩ := h
      cases heq
      obtain ⟨w, hs, hw⟩ := ih hrest
      exact ⟨w, by rw [hs]; rfl, hw⟩

theorem size_fold {w : Text} (hw : w.map Char.toLower = pat) (h : isPlain pat = true) : size w = pat.length := by
  have hascii : ∀ c ∈ w, c.toNat < 0x80 := by
    intro c hc
    have hmem : c.toLower ∈ pat := hw ▸ List.mem_map_of_mem hc
    simp only [isPlain, Bool.and_eq_true, List.all_eq_true, decide_eq_true_eq] at h
    exact ascii_of_toLower (h.1 _ hmem).1
  rw [size_ascii hascii, ← hw, List.length_map]

/-- A text that starts with a pattern can be cut after it. -/
theorem sliceFrom_starts (hstart : startsFold pat s = true) (h : isPlain pat = true) :
    sliceFrom pat.length s = some (s.drop pat.length) := by
  have hsize := size_fold (eq_of_beq hstart) h
  have hslice := sliceFrom_append (s := s.take pat.length) (t := s.drop pat.length)
  rwa [hsize, List.take_append_drop] at hslice

/-- Only a cut at the size of what stands before the pattern, and the pattern,
leaves what stands after it. -/
theorem sliceFrom_firstFold_iff {before later : Text} (hfirst : firstFold pat s = some (before, later))
    (h : isPlain pat = true) : sliceFrom (n + pat.length) s = some later ↔ n = size before := by
  obtain ⟨w, hs, hw⟩ := firstFold_spec hfirst
  rw [hs, sliceFrom_append_iff, size_append, size_fold hw h]
  omega

/-- A cut after the pattern, at its position in the lower-case copy, leaves what
stands after it just where what stands before it keeps its size. -/
theorem lowerCut_iff {before later : Text} (hfirst : firstFold pat s = some (before, later)) (h : isPlain pat = true) :
    ((sliceFrom (lowerSize before + pat.length) s).isSome ∧ ∀ rest,
      sliceFrom (lowerSize before + pat.length) s = some rest → ∃ before, firstFold pat s = some (before, rest)) ↔
    lowerSize before = size before := by
  have hcut : sliceFrom (lowerSize before + pat.length) s = some later ↔ lowerSize before = size before :=
    sliceFrom_firstFold_iff hfirst h
  constructor
  · intro ⟨hsome, hrest⟩
    obtain ⟨rest, hslice⟩ := Option.isSome_iff_exists.mp hsome
    obtain ⟨before', hfirst'⟩ := hrest rest hslice
    rw [hfirst] at hfirst'
    cases hfirst'
    exact hcut.mp hslice
  · intro hkeeps
    rw [hcut.mpr hkeeps]
    refine ⟨rfl, ?_⟩
    intro rest hslice
    cases hslice
    exact ⟨before, hfirst⟩

theorem startsFold_of_snoc (h : startsFold (pat ++ [c]) s = true) : startsFold pat s = true := by
  have h := congrArg (List.take pat.length) (eq_of_beq h)
  rw [← List.map_take, List.take_take, List.length_append, Nat.min_eq_left (by omega), List.take_left] at h
  exact beq_of_eq h

theorem startsFold_snoc {later : Text} (h : startsFold pat s = true) (hlater : s.drop pat.length = c :: later)
    (hc : c.toLower = c) : startsFold (pat ++ [c]) s = true ∧ s.drop (pat ++ [c]).length = later := by
  have hlen : (s.take pat.length).length = pat.length := by
    have := congrArg List.length (eq_of_beq h)
    rwa [List.length_map] at this
  have hs : s = s.take pat.length ++ [c] ++ later := by
    rw [List.append_assoc, List.singleton_append, ← hlater, List.take_append_drop]
  have hn : (pat ++ [c]).length = (s.take pat.length ++ [c]).length := by
    rw [List.length_append, List.length_append, hlen]
  constructor
  · have htake : s.take (pat ++ [c]).length = s.take pat.length ++ [c] := by
      conv_lhs => rw [hs, hn]
      exact List.take_left
    rw [startsFold, htake, List.map_append, eq_of_beq h, List.map_singleton, hc]
    exact BEq.rfl
  · conv_lhs => rw [hs, hn]
    exact List.drop_left

/-- The first occurrence of a pattern that is followed by one more character is
the first of the longer pattern too. -/
theorem firstFold_snoc {before later : Text} (h : firstFold pat s = some (before, c :: later)) (hc : c.toLower = c) :
    firstFold (pat ++ [c]) s = some (before, later) := by
  induction s generalizing before with
  | nil =>
    rw [firstFold] at h
    split at h <;> cases h
  | cons d s ih =>
    rw [firstFold] at h ⊢
    split at h
    · rename_i hstart
      simp only [Option.some.injEq, Prod.mk.injEq] at h
      obtain ⟨hstart', hlater⟩ := startsFold_snoc hstart h.2 hc
      rw [if_pos hstart', hlater, h.1]
    · rename_i hstart
      rw [if_neg fun h' => hstart (startsFold_of_snoc h')]
      rw [Option.map_eq_some_iff] at h
      obtain ⟨⟨before', later'⟩, hrest, heq⟩ := h
      cases heq
      rw [ih hrest]
      rfl

theorem firstFold_of_snoc (h : (firstFold (pat ++ [c]) s).isSome) : (firstFold pat s).isSome := by
  induction s with
  | nil => simp [firstFold] at h
  | cons d s ih =>
    rw [firstFold] at h ⊢
    split
    · rfl
    · rename_i hstart
      rw [if_neg fun h' => hstart (startsFold_of_snoc h'), Option.isSome_map] at h
      rw [Option.isSome_map]
      exact ih h

end Casing

/-
Methods of Rust's `str` on lists of characters: trimming, splitting at the
first of a character, and numbers without a sign.
-/
import Mathlib.Algebra.Ring.Nat
import Mathlib.Data.List.Basic

namespace Strings

/-- `char::is_whitespace` -/
def isWhitespace (c : Char) : Bool :=
  let n := c.toNat
  9 ≤ n && n ≤ 13 || n == 0x20 || n == 0x85 || n == 0xa0 || n == 0x1680 || 0x2000 ≤ n && n ≤ 0x200a || n == 0x2028 ||
    n == 0x2029 || n == 0x202f || n == 0x205f || n == 0x3000

/-- `trim_matches` -/
def trimMatches (p : Char → Bool) (s : List Char) : List Char := ((s.dropWhile p).reverse.dropWhile p).reverse

def trim (s : List Char) : List Char := trimMatches isWhitespace s

/-- `split_once` -/
def splitOnce (sep : Char) : List Char → Option (List Char × List Char)
  | [] => none
  | c :: s => if c = sep then some ([], s) else (splitOnce sep s).map fun (a, b) => (c :: a, b)

/-- The number some decimal digits write. -/
def decimal (ds : List Char) : Nat := ds.foldl (fun n d => 10 * n + (d.toNat - 48)) 0

def dropPlus : List Char → List Char
  | '+' :: ds => ds
  | ds => ds

/-- `parse` to an unsigned number of some width, which takes a plus sign. -/
def parseUnsigned (bits : Nat) (s : List Char) : Option Nat :=
  let digits := dropPlus s
  if digits ≠ [] ∧ digits.all Char.isDigit ∧ decimal digits < 2 ^ bits then some (decimal digits) else none

variable {p : Char → Bool} {s : List Char} {sep : Char}

theorem trimMatches_eq_self (hhead : ∀ c, s.head? = some c → p c = false) (hlast : ∀ c, s.getLast? = some c → p c = false) :
    trimMatches p s = s := by
  have hdrop : ∀ t : List Char, (∀ c, t.head? = some c → p c = false) → t.dropWhile p = t := by
    intro t ht
    cases t with
    | nil => rfl
    | cons c t => simp [ht c rfl]
  rw [trimMatches, hdrop s hhead, hdrop s.reverse (by simpa using hlast), List.reverse_reverse]

theorem splitOnce_append {a b : List Char} (h : sep ∉ a) : splitOnce sep (a ++ sep :: b) = some (a, b) := by
  induction a with
  | nil => simp [splitOnce]
  | cons c a ih =>
    rw [List.mem_cons, not_or] at h
    rw [List.cons_append, splitOnce, if_neg (Ne.symm h.1), ih h.2]
    rfl

theorem parseUnsigned_digits {bits : Nat} (hne : s ≠ []) (hdigits : ∀ c ∈ s, c.isDigit = true)
    (hfits : decimal s < 2 ^ bits) : parseUnsigned bits s = some (decimal s) := by
  have hplus : dropPlus s = s := by
    unfold dropPlus
    split
    · exact absurd (hdigits '+' (by simp)) (by decide)
    · rfl
  have hall : s.all Char.isDigit = true := List.all_eq_true.mpr hdigits
  simp only [parseUnsigned, hplus]
  rw [if_pos ⟨hne, hall, hfits⟩]

end Strings

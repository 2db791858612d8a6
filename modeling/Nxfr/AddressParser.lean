/-
`AddressParser`, which reads the address a user types, and
`ParsedAddress.formatted`, which writes one.

What is not in brackets and has one colon at most comes back from its own text.
An address taken as IPv6 need not be one: `isValidIpv6` does not count the
groups, and takes the digits of every script for hexadecimal digits. Where the
groups are of a fitting number and of ASCII digits (`GroupsFit`), it is one and
comes back too.
-/
import Mathlib.Data.List.Chain
import Nxfr.CodeUnits

namespace Nxfr.AddressParser

open CodeUnits

structure ParsedAddress where
  host : Text
  port : Int
  deriving DecidableEq

def defaultPort : Int := 17394

/-- `toString` of a number. -/
def intText (n : Int) : Text := if n < 0 then 45 :: decimal n.natAbs else decimal n.natAbs

def formatted (a : ParsedAddress) : Text :=
  if 58 ∈ a.host ∧ a.host.head? ≠ some 91 then 91 :: (a.host ++ 93 :: 58 :: intText a.port)
  else a.host ++ 58 :: intText a.port

def stripScheme (input : Text) : Text :=
  if startsFold (text "http://") input then input.drop 7
  else if startsFold (text "https://") input then input.drop 8
  else if startsFold (text "nxfr://") input then input.drop 7
  else input

/-- Schemes, paths, queries and white space taken off. -/
def clean (rawInput : Text) : Text :=
  trim (((stripScheme (trim rawInput)).takeWhile (· ≠ 47)).takeWhile (· ≠ 63))

def ipv4Part (part : Text) : Bool := match toIntOrNull part with
  | none => false
  | some num => 0 ≤ num && num ≤ 255 && (part == [48] || part.head? != some 48)

def isWord (c : UInt16) : Bool := (97 ≤ c && c ≤ 122) || (65 ≤ c && c ≤ 90) || (48 ≤ c && c ≤ 57) || c == 95

/-- Letters, digits, dots, dashes and underscores, with no dot or dash at an end. -/
def hostnameRegex (host : Text) : Bool := match host with
  | [] => false
  | c :: s => isWord c && s.all (fun d => isWord d || d == 46 || d == 45) &&
      match s.getLast? with
      | none => true
      | some d => isWord d

def isValidHostOrIpv4 (host : Text) : Bool :=
  if host = [] ∨ 255 < host.length then false
  else if (host.splitOn 46).length = 4 ∧ (host.splitOn 46).all ipv4Part then true
  else hostnameRegex host

def hexUnit (c : UInt16) : Bool := isDigit c || (97 ≤ c && c ≤ 102) || (65 ≤ c && c ≤ 70)

def validHextets (s : Text) : Bool :=
  s = [] || (s.splitOn 58).all fun hex => 1 ≤ hex.length && hex.length ≤ 4 && hex.all hexUnit

def isValidIpv6 (ip : Text) : Bool :=
  if ip = [] then false
  else if 2 < (splitTwice 58 (trim ip)).length then false
  else (splitTwice 58 (trim ip)).all validHextets

/-- A port in range. -/
def readPort (portStr : Text) : Option Int := match toIntOrNull portStr with
  | none => none
  | some port => if 1 ≤ port ∧ port ≤ 65535 then some port else none

/-- The port after a closing bracket. -/
def bracketPort (remaining : Text) (defaultPort : Int) : Option Int := match trim remaining with
  | [] => some defaultPort
  | c :: portStr => if c = 58 then readPort (trim portStr) else none

def parseBracketed (input : Text) (defaultPort : Int) : Option ParsedAddress := match cut 93 input with
  | none => none
  | some (before, remaining) =>
    let hostPart := trim (before.drop 1)
    if hostPart = [] ∨ isValidIpv6 hostPart = false then none
    else (bracketPort remaining defaultPort).map fun port => ⟨hostPart, port⟩

def parseInput (input : Text) (defaultPort : Int) : Option ParsedAddress :=
  if input = [] then none
  else if input.head? = some 91 then parseBracketed input defaultPort
  else if 1 < input.count 58 then if isValidIpv6 input then some ⟨input, defaultPort⟩ else none
  else match cut 58 input with
    | some (host, portStr) =>
      if trim host = [] ∨ isValidHostOrIpv4 (trim host) = false then none
      else (readPort (trim portStr)).map fun port => ⟨trim host, port⟩
    | none => if isValidHostOrIpv4 input then some ⟨input, defaultPort⟩ else none

def parse (rawInput : Option Text) (defaultPort : Int) : Option ParsedAddress := match rawInput with
  | none => none
  | some raw => if raw.all isWhitespace then none else parseInput (clean raw) defaultPort

/-! ## What is to hold of an address -/

/-- One to four ASCII hexadecimal digits. -/
def Group (g : Text) : Prop :=
  1 ≤ g.length ∧ g.length ≤ 4 ∧ ∀ c ∈ g, (48 ≤ c ∧ c ≤ 57) ∨ (97 ≤ c ∧ c ≤ 102) ∨ (65 ≤ c ∧ c ≤ 70)

/-- A textual IPv6 address: eight groups, or at most seven with a gap. -/
def TextualIpv6 (ip : Text) : Prop :=
  (∃ gs : List Text, gs.length = 8 ∧ (∀ g ∈ gs, Group g) ∧ ip = [58].intercalate gs) ∨
    ∃ gs gs' : List Text, gs.length + gs'.length ≤ 7 ∧ (∀ g ∈ gs ++ gs', Group g) ∧
      ip = [58].intercalate gs ++ 58 :: 58 :: [58].intercalate gs'

/-- The input is taken as an IPv6 address. -/
def TakenAsIpv6 (input : Text) : Prop := input.head? = some 91 ∨ 1 < input.count 58

/-- What an address that is read is to be. -/
structure Good (raw : Text) (a : ParsedAddress) : Prop where
  port : 1 ≤ a.port ∧ a.port ≤ 65535
  ipv6 : TakenAsIpv6 (clean raw) → TextualIpv6 a.host
  again : parse (some (formatted a)) defaultPort = some a

/-- The text that an input gives for an IPv6 address: what stands in the brackets,
where a port or nothing follows, or the whole. -/
def ipv6Text (input : Text) : Option Text :=
  if input.head? = some 91 then match cut 93 input with
    | none => none
    | some (before, remaining) => if bracketPort remaining defaultPort = none then none else some (trim (before.drop 1))
  else if 1 < input.count 58 then some input
  else none

/-- The groups on one side of a gap. -/
def hextets (s : Text) : List Text := if s = [] then [] else s.splitOn 58

def groupCount (ip : Text) : Nat := ((splitTwice 58 ip).map fun s => (hextets s).length).sum

/-- The groups are ASCII, and of a number that fits. -/
def GroupsFit (ip : Text) : Prop :=
  (∀ c ∈ ip, c < 0x80) ∧ if (splitTwice 58 ip).length = 1 then groupCount ip = 8 else groupCount ip ≤ 7

instance (ip : Text) : Decidable (GroupsFit ip) := inferInstanceAs (Decidable (_ ∧ _))

section

variable {c : UInt16} {g ip s raw input host : Text} {gs : List Text} {a : ParsedAddress} {n : Nat}

/-! ## Groups -/

theorem Group.not_colon (h : Group g) : 58 ∉ g := by
  intro hmem
  exact absurd (h.2.2 58 hmem) (by decide)

theorem Group.ne_nil (h : Group g) : g ≠ [] := List.length_pos_iff.mp h.1

theorem mem_intercalate (h : c ∈ [58].intercalate gs) : c = 58 ∨ ∃ g ∈ gs, c ∈ g := by
  induction gs with
  | nil => cases h
  | cons g gs ih =>
    cases gs with
    | nil => exact .inr ⟨g, by simp, by simpa using h⟩
    | cons g' gs =>
      rw [List.intercalate_cons_cons] at h
      simp only [List.mem_append, List.mem_singleton] at h
      rcases h with (h | h) | h
      · exact .inr ⟨g, by simp, h⟩
      · exact .inl h
      · obtain h | ⟨g'', hg'', hc⟩ := ih h
        · exact .inl h
        · exact .inr ⟨g'', by simp [List.mem_cons.mp hg''], hc⟩

theorem mem_intercalate_of_mem (hg : g ∈ gs) (hc : c ∈ g) : c ∈ [58].intercalate gs := by
  induction gs with
  | nil => cases hg
  | cons g' gs ih =>
    cases gs with
    | nil =>
      rw [List.mem_singleton] at hg
      rwa [List.intercalate_singleton, ← hg]
    | cons g'' gs =>
      rw [List.intercalate_cons_cons, List.append_assoc, List.mem_append]
      rcases List.mem_cons.mp hg with rfl | hg
      · exact .inl hc
      · exact .inr (List.mem_append_right _ (ih hg))

theorem single_of_not_mem (h : 58 ∉ g) : Single 58 g := by
  induction g with
  | nil => exact List.isChain_nil
  | cons c g ih =>
    rw [List.mem_cons, not_or] at h
    refine List.isChain_cons.mpr ⟨?_, ih h.2⟩
    intro e _ hboth
    exact h.1 hboth.1.symm

/-- Groups between single colons. -/
theorem single_intercalate (h : ∀ g ∈ gs, Group g) : Single 58 ([58].intercalate gs) ∧
    ([58].intercalate gs).head? ≠ some 58 ∧ ([58].intercalate gs).getLast? ≠ some 58 := by
  induction gs with
  | nil => exact ⟨List.isChain_nil, by simp, by simp⟩
  | cons g gs ih =>
    have hg := h g (by simp)
    have hhead : g.head? ≠ some 58 := fun heq => hg.not_colon (List.mem_of_head? heq)
    have hlast : g.getLast? ≠ some 58 := fun heq => hg.not_colon (List.mem_of_getLast? heq)
    cases gs with
    | nil =>
      rw [List.intercalate_singleton]
      exact ⟨single_of_not_mem hg.not_colon, hhead, hlast⟩
    | cons g' gs =>
      obtain ⟨hsingle, hhead', hlast'⟩ := ih fun g'' hg'' => h g'' (by simp [List.mem_cons.mp hg''])
      have hne : [58].intercalate (g' :: gs) ≠ [] := by
        have hg' := (h g' (by simp)).ne_nil
        cases gs with
        | nil => simpa using hg'
        | cons g'' gs => simp [List.intercalate_cons_cons]
      rw [List.intercalate_cons_cons, List.append_assoc, List.singleton_append]
      refine ⟨List.isChain_append.mpr ⟨single_of_not_mem hg.not_colon, ?_, ?_⟩, ?_, ?_⟩
      · refine List.isChain_cons.mpr ⟨?_, hsingle⟩
        intro e he hboth
        rw [hboth.2] at he
        exact hhead' he
      · intro c hc e he hboth
        rw [hboth.1] at hc
        exact hlast hc
      · rwa [List.head?_append_of_ne_nil _ hg.ne_nil]
      · rwa [List.getLast?_append_cons, List.getLast?_cons_of_ne_nil hne]

theorem hextets_intercalate (h : ∀ g ∈ gs, Group g) : hextets ([58].intercalate gs) = gs := by
  cases gs with
  | nil => rfl
  | cons g gs =>
    have hsplit := List.splitOn_intercalate 58 (fun g' hg' => (h g' hg').not_colon) (List.cons_ne_nil g gs)
    rw [hextets, if_neg, hsplit]
    intro hnil
    rw [hnil] at hsplit
    have hg : g = [] := (List.cons.inj hsplit).1.symm
    exact (h g (by simp)).ne_nil hg

theorem intercalate_hextets : [58].intercalate (hextets s) = s := by
  unfold hextets
  split
  · rename_i hs
    rw [hs]
    rfl
  · exact List.intercalate_splitOn 58

theorem group_of_hextets (hvalid : validHextets s = true) (hascii : ∀ c ∈ s, c < 0x80) : ∀ g ∈ hextets s, Group g := by
  intro g hg
  unfold hextets at hg
  split at hg
  · cases hg
  · rename_i hs
    simp only [validHextets, hs, decide_false, Bool.false_or, List.all_eq_true, Bool.and_eq_true,
      decide_eq_true_eq] at hvalid
    obtain ⟨⟨hpos, hle⟩, hunits⟩ := hvalid g hg
    refine ⟨hpos, hle, ?_⟩
    intro c hc
    have hmem : c ∈ s := by
      have hjoined : [58].intercalate (s.splitOn 58) = s := List.intercalate_splitOn 58
      exact hjoined ▸ mem_intercalate_of_mem hg hc
    have hlt := hascii c hmem
    rw [UInt16.lt_iff_toNat_lt] at hlt
    have hunit := hunits c hc
    simp only [hexUnit, Bool.or_eq_true, Bool.and_eq_true, decide_eq_true_eq] at hunit
    rcases hunit with (hunit | hunit) | hunit
    · have hdigit := ascii_of_isDigit hunit hlt
      refine .inl ⟨UInt16.le_iff_toNat_le.mpr hdigit.1, UInt16.le_iff_toNat_le.mpr ?_⟩
      exact Nat.le_of_lt_succ hdigit.2
    · exact .inr (.inl hunit)
    · exact .inr (.inr hunit)

theorem TextualIpv6.chars (h : TextualIpv6 ip) (hc : c ∈ ip) :
    c = 58 ∨ (48 ≤ c ∧ c ≤ 57) ∨ (97 ≤ c ∧ c ≤ 102) ∨ (65 ≤ c ∧ c ≤ 70) := by
  have hof : ∀ {gs : List Text}, (∀ g ∈ gs, Group g) → c ∈ [58].intercalate gs →
      c = 58 ∨ (48 ≤ c ∧ c ≤ 57) ∨ (97 ≤ c ∧ c ≤ 102) ∨ (65 ≤ c ∧ c ≤ 70) := by
    intro gs hgs hmem
    obtain hcolon | ⟨g, hg, hcg⟩ := mem_intercalate hmem
    · exact .inl hcolon
    · exact .inr ((hgs g hg).2.2 c hcg)
  rcases h with ⟨gs, -, hgs, rfl⟩ | ⟨gs, gs', -, hgs, rfl⟩
  · exact hof hgs hc
  · simp only [List.mem_append, List.mem_cons] at hc hgs
    rcases hc with hc | hc | hc | hc
    · exact hof (fun g hg => hgs g (.inl hg)) hc
    · exact .inl hc
    · exact .inl hc
    · exact hof (fun g hg => hgs g (.inr hg)) hc

theorem TextualIpv6.colon (h : TextualIpv6 ip) : 58 ∈ ip := by
  rcases h with ⟨gs, hlen, -, rfl⟩ | ⟨gs, gs', -, -, rfl⟩
  · cases gs with
    | nil => cases hlen
    | cons g gs =>
      cases gs with
      | nil => cases hlen
      | cons g' gs => simp [List.intercalate_cons_cons]
  · simp

theorem TextualIpv6.toNat_range (h : TextualIpv6 ip) (hc : c ∈ ip) :
    (48 ≤ c.toNat ∧ c.toNat ≤ 58) ∨ (65 ≤ c.toNat ∧ c.toNat ≤ 70) ∨ (97 ≤ c.toNat ∧ c.toNat ≤ 102) := by
  have hchars := h.chars hc
  simp only [UInt16.le_iff_toNat_le, ← UInt16.toNat_inj] at hchars
  have h48 : (48 : UInt16).toNat = 48 := rfl
  have h57 : (57 : UInt16).toNat = 57 := rfl
  have h58 : (58 : UInt16).toNat = 58 := rfl
  have h65 : (65 : UInt16).toNat = 65 := rfl
  have h70 : (70 : UInt16).toNat = 70 := rfl
  have h97 : (97 : UInt16).toNat = 97 := rfl
  have h102 : (102 : UInt16).toNat = 102 := rfl
  omega

theorem TextualIpv6.ascii (h : TextualIpv6 ip) : ∀ c ∈ ip, c < 0x80 := by
  intro c hc
  have hrange := h.toNat_range hc
  have h128 : (0x80 : UInt16).toNat = 128 := rfl
  rw [UInt16.lt_iff_toNat_lt]
  omega

/-- What `isValidIpv6` leaves open. -/
theorem textual_iff (hvalid : isValidIpv6 ip = true) (htrim : trim ip = ip) : TextualIpv6 ip ↔ GroupsFit ip := by
  constructor
  · intro h
    refine ⟨h.ascii, ?_⟩
    rcases h with ⟨gs, hlen, hgs, rfl⟩ | ⟨gs, gs', hlen, hgs, rfl⟩
    · have hone := splitTwice_single (single_intercalate hgs).1
      rw [if_pos (by rw [hone]; rfl), groupCount, hone]
      simp only [List.map_cons, List.map_nil, List.sum_cons, List.sum_nil, hextets_intercalate hgs, hlen, Nat.add_zero]
    · have hfront := single_intercalate fun g hg => hgs g (List.mem_append_left _ hg)
      have hback := single_intercalate fun g hg => hgs g (List.mem_append_right _ hg)
      have htwo := splitTwice_append (t := [58].intercalate gs') hfront.1 hfront.2.2
      rw [splitTwice_single hback.1] at htwo
      rw [if_neg (by rw [htwo]; simp), groupCount, htwo]
      simp only [List.map_cons, List.map_nil, List.sum_cons, List.sum_nil,
        hextets_intercalate fun g hg => hgs g (List.mem_append_left _ hg),
        hextets_intercalate fun g hg => hgs g (List.mem_append_right _ hg)]
      omega
  · intro ⟨hascii, hcount⟩
    unfold isValidIpv6 at hvalid
    rw [htrim] at hvalid
    split at hvalid
    · cases hvalid
    · split at hvalid
      · cases hvalid
      · rename_i hparts
        rw [List.all_eq_true] at hvalid
        cases hsplit : splitTwice 58 ip with
        | nil => exact absurd hsplit splitTwice_ne_nil
        | cons p ps =>
          rw [hsplit] at hvalid hcount hparts
          rw [groupCount, hsplit] at hcount
          cases ps with
          | nil =>
            have hip := of_splitTwice_one hsplit
            subst hip
            refine .inl ⟨hextets ip, ?_, group_of_hextets (hvalid ip (by simp)) hascii, intercalate_hextets.symm⟩
            simpa using hcount
          | cons q ps =>
            cases ps with
            | nil =>
              have hip := of_splitTwice_two hsplit
              subst hip
              refine .inr ⟨hextets p, hextets q, by simpa using hcount, ?_, ?_⟩
              · intro g hg
                rcases List.mem_append.mp hg with hg | hg
                · exact group_of_hextets (hvalid p (by simp)) (fun c hc => hascii c (by simp [hc])) g hg
                · exact group_of_hextets (hvalid q (by simp)) (fun c hc => hascii c (by simp [hc])) g hg
              · rw [intercalate_hextets, intercalate_hextets]
            | cons r ps => simp at hparts

/-! ## What is read -/

/-- The parts of a cleaned input that is an address without brackets or colons of
its own. -/
structure Named (host : Text) : Prop where
  ne_nil : host ≠ []
  trimmed : trim host = host
  valid : isValidHostOrIpv4 host = true
  plain : ∀ c ∈ host, c ≠ 58 ∧ c ≠ 47 ∧ c ≠ 63
  bracket : host.head? ≠ some 91

theorem clean_plain (h : c ∈ clean raw) : c ≠ 47 ∧ c ≠ 63 := by
  have hmem := mem_of_mem_trim h
  constructor
  · intro hc
    exact not_mem_takeWhile (hc ▸ (List.takeWhile_prefix _).subset hmem)
  · intro hc
    exact not_mem_takeWhile (hc ▸ hmem)

theorem clean_trimmed : trim (clean raw) = clean raw := trim_trim

theorem clean_blank (h : raw.all isWhitespace = true) : clean raw = [] := by
  have htrim : trim raw = [] := by
    rw [trim, List.dropWhile_eq_nil_iff.mpr (by simpa using h)]
    rfl
  rw [clean, htrim]
  rfl

theorem readPort_iff {portStr : Text} {port : Int} :
    readPort portStr = some port ↔ toIntOrNull portStr = some port ∧ 1 ≤ port ∧ port ≤ 65535 := by
  unfold readPort
  split
  · rename_i hnone
    simp [hnone]
  · rename_i p hp
    rw [hp]
    split
    · rename_i hrange
      constructor
      · intro h
        cases h
        exact ⟨rfl, hrange⟩
      · intro ⟨h, _⟩
        exact h
    · rename_i hrange
      constructor
      · intro h
        cases h
      · intro ⟨h, hport⟩
        cases h
        exact absurd hport hrange

theorem bracketPort_range {remaining : Text} {port : Int} (h : bracketPort remaining defaultPort = some port) :
    1 ≤ port ∧ port ≤ 65535 := by
  unfold bracketPort at h
  split at h
  · cases h
    decide
  · split at h
    · exact (readPort_iff.mp h).2
    · cases h

theorem ipv6Text_trimmed (htrim : trim input = input) (h : ipv6Text input = some ip) : trim ip = ip := by
  unfold ipv6Text at h
  split at h
  · split at h
    · cases h
    · split at h
      · cases h
      · cases h
        exact trim_trim
  · split at h
    · cases h
      exact htrim
    · cases h

/-- The address of an input in the form of IPv6. -/
theorem parseInput_ipv6 (htaken : TakenAsIpv6 input) :
    parseInput input defaultPort = some a →
      ipv6Text input = some a.host ∧ isValidIpv6 a.host = true ∧ 1 ≤ a.port ∧ a.port ≤ 65535 := by
  intro h
  unfold parseInput at h
  split at h
  · cases h
  · split at h
    · rename_i hbracket
      unfold parseBracketed at h
      split at h
      · cases h
      · rename_i before remaining hcut
        simp only at h
        split at h
        · cases h
        · rename_i hhost
          rw [not_or] at hhost
          obtain ⟨port, hport, rfl⟩ := Option.map_eq_some_iff.mp h
          refine ⟨?_, by simpa using hhost.2, bracketPort_range hport⟩
          simp only [ipv6Text, if_pos hbracket, hcut, hport]
          rw [if_neg (by simp)]
    · rename_i hbracket
      have hcolons : 1 < input.count 58 := htaken.resolve_left hbracket
      rw [if_pos hcolons] at h
      split at h
      · rename_i hvalid
        cases h
        have hport : 1 ≤ defaultPort ∧ defaultPort ≤ 65535 := by decide
        exact ⟨by rw [ipv6Text, if_neg hbracket, if_pos hcolons], hvalid, hport⟩
      · cases h

theorem parseInput_of_ipv6Text (h : ipv6Text input = some ip) (hvalid : isValidIpv6 ip = true) :
    ∃ port, parseInput input defaultPort = some ⟨ip, port⟩ := by
  have hip : ip ≠ [] := by
    intro hnil
    rw [hnil] at hvalid
    cases hvalid
  unfold ipv6Text at h
  split at h
  · rename_i hbracket
    have hne : input ≠ [] := by
      intro hnil
      rw [hnil] at hbracket
      cases hbracket
    split at h
    · cases h
    · rename_i before remaining hcut
      split at h
      · cases h
      · rename_i hport
        obtain ⟨port, hport⟩ := Option.ne_none_iff_exists'.mp hport
        cases h
        refine ⟨port, ?_⟩
        rw [parseInput, if_neg hne, if_pos hbracket, parseBracketed, hcut]
        simp only
        rw [if_neg (not_or.mpr ⟨hip, by rw [hvalid]; decide⟩), hport, Option.map_some]
  · rename_i hbracket
    split at h
    · rename_i hcolons
      cases h
      exact ⟨defaultPort, by rw [parseInput, if_neg hip, if_neg hbracket, if_pos hcolons, if_pos hvalid]⟩
    · cases h

/-- The address of any other input. -/
theorem parseInput_named (htrim : trim input = input) (hplain : ∀ c ∈ input, c ≠ 47 ∧ c ≠ 63)
    (htaken : ¬ TakenAsIpv6 input) (h : parseInput input defaultPort = some a) :
    Named a.host ∧ 1 ≤ a.port ∧ a.port ≤ 65535 := by
  rw [TakenAsIpv6, not_or] at htaken
  unfold parseInput at h
  rw [if_neg htaken.1, if_neg htaken.2] at h
  split at h
  · cases h
  · rename_i hne
    split at h
    · rename_i host portStr hcut
      split at h
      · cases h
      · rename_i hhost
        rw [not_or] at hhost
        obtain ⟨port, hport, rfl⟩ := Option.map_eq_some_iff.mp h
        obtain ⟨hinput, hcolon⟩ := cut_some hcut
        have hfront : ∀ c ∈ trim host, c ∈ host := fun c => mem_of_mem_trim
        have hhostne : host ≠ [] := by
          intro hnil
          rw [hnil] at hhost
          exact hhost.1 rfl
        have hsame : input.head? = host.head? := by
          rw [hinput, List.head?_append_of_ne_nil _ hhostne]
        have hhead : (trim host).head? = host.head? := by
          refine head?_trim hhost.1 ?_
          intro h
          have hws := head_of_trim htrim hne
          simp only [hinput, List.head_append_of_ne_nil h] at hws
          exact hws
        refine ⟨⟨hhost.1, trim_trim, by simpa using hhost.2, ?_, ?_⟩, (readPort_iff.mp hport).2⟩
        · intro c hc
          have hmem := hfront c hc
          exact ⟨fun heq => hcolon (heq ▸ hmem), hplain c (by rw [hinput]; simp [hmem])⟩
        · rw [hhead, ← hsame]
          exact htaken.1
    · rename_i hcut
      split at h
      · rename_i hvalid
        cases h
        have hport : 1 ≤ defaultPort ∧ defaultPort ≤ 65535 := by decide
        refine ⟨⟨hne, htrim, hvalid, ?_, htaken.1⟩, hport⟩
        intro c hc
        exact ⟨fun heq => cut_none hcut (heq ▸ hc), hplain c hc⟩
      · cases h

/-! ## What is written and read again -/

theorem intText_port {port : Int} (h : 1 ≤ port ∧ port ≤ 65535) : intText port = decimal port.toNat := by
  rw [intText, if_neg (by omega)]
  congr 1
  omega

theorem readPort_intText {port : Int} (h : 1 ≤ port ∧ port ≤ 65535) : readPort (intText port) = some port := by
  refine readPort_iff.mpr ⟨?_, h⟩
  rw [intText_port h, toIntOrNull_decimal (by omega), Int.toNat_of_nonneg (by omega)]

theorem decimal_ends : ∀ h : decimal n ≠ [], isWhitespace ((decimal n).head h) = false ∧
    isWhitespace ((decimal n).getLast h) = false := by
  intro h
  have hdigit : ∀ c ∈ decimal n, isWhitespace c = false := by
    intro c hc
    have := mem_decimal hc
    exact not_isWhitespace_ascii (by omega) (by omega)
  exact ⟨hdigit _ (List.head_mem h), hdigit _ (List.getLast_mem h)⟩

theorem not_mem_decimal (n : Nat) (c : UInt16) (hc : c.toNat < 48 ∨ 58 ≤ c.toNat) : c ∉ decimal n := by
  intro hmem
  have := mem_decimal hmem
  omega

theorem trim_decimal : trim (decimal n) = decimal n :=
  trim_eq_self (fun h => (decimal_ends h).1) fun h => (decimal_ends h).2

/-- What ends in a port, and does not begin with white space. -/
theorem trim_port (hne : s ≠ []) (hhead : isWhitespace (s.head hne) = false) :
    trim (s ++ 58 :: decimal n) = s ++ 58 :: decimal n := by
  refine trim_eq_self ?_ ?_
  · intro h
    rwa [List.head_append_of_ne_nil hne]
  · intro h
    rw [List.getLast_append_of_ne_nil _ (by simp), List.getLast_cons decimal_ne_nil]
    exact (decimal_ends decimal_ne_nil).2

theorem stripScheme_plain (h : 47 ∉ s) : stripScheme s = s := by
  have hno : ∀ scheme : String, 47 ∈ text scheme → startsFold (text scheme) s = false := by
    intro scheme hscheme
    by_contra hstart
    exact h (mem_of_startsFold (by simpa using hstart) hscheme (.inl (by decide)))
  simp only [stripScheme, hno "http://" (by decide), hno "https://" (by decide), hno "nxfr://" (by decide),
    Bool.false_eq_true, if_false]

theorem clean_written (htrim : trim s = s) (hpath : 47 ∉ s) (hquery : 63 ∉ s) : clean s = s := by
  rw [clean, htrim, stripScheme_plain hpath, takeWhile_ne_self hpath, takeWhile_ne_self hquery, htrim]

theorem not_blank (hne : s ≠ []) (hhead : isWhitespace (s.head hne) = false) : ¬ s.all isWhitespace = true := by
  intro h
  rw [List.all_eq_true.mp h _ (List.head_mem hne)] at hhead
  cases hhead

theorem parse_formatted_named (hnamed : Named a.host) (hport : 1 ≤ a.port ∧ a.port ≤ 65535) :
    parse (some (formatted a)) defaultPort = some a := by
  have hcolon : 58 ∉ a.host := fun h => (hnamed.plain 58 h).1 rfl
  have hhead := head_of_trim hnamed.trimmed hnamed.ne_nil
  have htext : formatted a = a.host ++ 58 :: decimal a.port.toNat := by
    rw [formatted, if_neg (fun h => hcolon h.1), intText_port hport]
  have hdigits := not_mem_decimal a.port.toNat
  have htrim : trim (a.host ++ 58 :: decimal a.port.toNat) = a.host ++ 58 :: decimal a.port.toNat :=
    trim_port hnamed.ne_nil hhead
  have hpath : 47 ∉ a.host ++ 58 :: decimal a.port.toNat := by
    have hhost : 47 ∉ a.host := fun h => (hnamed.plain 47 h).2.1 rfl
    simp [hhost, hdigits 47 (by decide)]
  have hquery : 63 ∉ a.host ++ 58 :: decimal a.port.toNat := by
    have hhost : 63 ∉ a.host := fun h => (hnamed.plain 63 h).2.2 rfl
    simp [hhost, hdigits 63 (by decide)]
  have hne : a.host ++ 58 :: decimal a.port.toNat ≠ [] := by simp
  have hcount : (a.host ++ 58 :: decimal a.port.toNat).count 58 = 1 := by
    rw [List.count_append, List.count_eq_zero_of_not_mem hcolon, List.count_cons_self,
      List.count_eq_zero_of_not_mem (hdigits 58 (by decide))]
  rw [htext, parse, if_neg (not_blank hne (by rwa [List.head_append_of_ne_nil hnamed.ne_nil])),
    clean_written htrim hpath hquery, parseInput, if_neg hne,
    if_neg (by rw [List.head?_append_of_ne_nil _ hnamed.ne_nil]; exact hnamed.bracket), hcount, if_neg (by decide),
    cut_append hcolon]
  simp only
  rw [hnamed.trimmed, if_neg (by simp [hnamed.ne_nil, hnamed.valid]), trim_decimal, ← intText_port hport,
    readPort_intText hport, Option.map_some]

theorem parse_formatted_ipv6 (htextual : TextualIpv6 a.host) (hvalid : isValidIpv6 a.host = true)
    (hport : 1 ≤ a.port ∧ a.port ≤ 65535) : parse (some (formatted a)) defaultPort = some a := by
  have hdigits := not_mem_decimal a.port.toNat
  have hother : ∀ c : UInt16, c.toNat = 47 ∨ c.toNat = 63 ∨ c.toNat = 91 ∨ c.toNat = 93 → c ∉ a.host := by
    intro c hc hmem
    have := htextual.toNat_range hmem
    omega
  have hhost : trim a.host = a.host := by
    have hplain : ∀ c ∈ a.host, isWhitespace c = false := by
      intro c hc
      have := htextual.toNat_range hc
      exact not_isWhitespace_ascii (by omega) (by omega)
    exact trim_eq_self (fun h => hplain _ (List.head_mem h)) fun h => hplain _ (List.getLast_mem h)
  have hne : a.host ≠ [] := List.ne_nil_of_mem htextual.colon
  have hbracket : a.host.head? ≠ some 91 := fun h => hother 91 (by decide) (List.mem_of_head? h)
  have htext : formatted a = (91 :: (a.host ++ [93])) ++ 58 :: decimal a.port.toNat := by
    rw [formatted, if_pos ⟨htextual.colon, hbracket⟩, intText_port hport, List.cons_append, List.append_assoc]
    rfl
  have hpath : 47 ∉ (91 :: (a.host ++ [93])) ++ 58 :: decimal a.port.toNat := by
    simp [hother 47 (by decide), hdigits 47 (by decide)]
  have hquery : 63 ∉ (91 :: (a.host ++ [93])) ++ 58 :: decimal a.port.toNat := by
    simp [hother 63 (by decide), hdigits 63 (by decide)]
  have htrim : trim ((91 :: (a.host ++ [93])) ++ 58 :: decimal a.port.toNat) =
      (91 :: (a.host ++ [93])) ++ 58 :: decimal a.port.toNat := trim_port (List.cons_ne_nil _ _) (by rfl)
  have hcut : cut 93 ((91 :: (a.host ++ [93])) ++ 58 :: decimal a.port.toNat) =
      some (91 :: a.host, 58 :: decimal a.port.toNat) := by
    have hclose : 93 ∉ 91 :: a.host := by simp [hother 93 (by decide)]
    rw [← cut_append hclose]
    simp
  have hremaining : trim (58 :: decimal a.port.toNat) = 58 :: decimal a.port.toNat := by
    refine trim_eq_self (fun _ => rfl) ?_
    intro h
    rw [List.getLast_cons decimal_ne_nil]
    exact (decimal_ends decimal_ne_nil).2
  have hnonempty : (91 :: (a.host ++ [93])) ++ 58 :: decimal a.port.toNat ≠ [] := List.cons_ne_nil _ _
  have hopen : ((91 :: (a.host ++ [93])) ++ 58 :: decimal a.port.toNat).head? = some 91 := rfl
  rw [htext, parse, if_neg (not_blank hnonempty (by rfl)), clean_written htrim hpath hquery, parseInput,
    if_neg hnonempty, if_pos hopen, parseBracketed, hcut]
  simp only [List.drop_succ_cons, List.drop_zero, hhost]
  rw [if_neg (not_or.mpr ⟨hne, by rw [hvalid]; decide⟩), bracketPort, hremaining]
  simp only [if_true, trim_decimal]
  rw [← intText_port hport, readPort_intText hport, Option.map_some]

/-- **When addresses are good.** What a string is read as is an address in every
respect exactly where the groups of a text taken as IPv6 fit. -/
theorem address_good_iff (raw : Text) :
    (∀ a, parse (some raw) defaultPort = some a → Good raw a) ↔
      ∀ ip, ipv6Text (clean raw) = some ip → isValidIpv6 ip = true → GroupsFit ip := by
  constructor
  · intro h ip htext hvalid
    obtain ⟨port, hparse⟩ := parseInput_of_ipv6Text htext hvalid
    have hblank : ¬ raw.all isWhitespace = true := by
      intro hblank
      rw [clean_blank hblank] at htext
      cases htext
    have hgood := h ⟨ip, port⟩ (by rw [parse, if_neg hblank, hparse])
    have htaken : TakenAsIpv6 (clean raw) := by
      by_contra hnot
      rw [TakenAsIpv6, not_or] at hnot
      rw [ipv6Text, if_neg hnot.1, if_neg hnot.2] at htext
      cases htext
    exact (textual_iff hvalid (ipv6Text_trimmed clean_trimmed htext)).mp (hgood.ipv6 htaken)
  · intro h a hparse
    simp only [parse] at hparse
    split at hparse
    · cases hparse
    · by_cases htaken : TakenAsIpv6 (clean raw)
      · obtain ⟨htext, hvalid, hport⟩ := parseInput_ipv6 htaken hparse
        have htextual := (textual_iff hvalid (ipv6Text_trimmed clean_trimmed htext)).mpr (h a.host htext hvalid)
        exact ⟨hport, fun _ => htextual, parse_formatted_ipv6 htextual hvalid hport⟩
      · obtain ⟨hnamed, hport⟩ := parseInput_named clean_trimmed (fun c => clean_plain) htaken hparse
        exact ⟨hport, fun htaken' => absurd htaken' htaken, parse_formatted_named hnamed hport⟩

end

/-- Three groups are taken for an address, and so is a digit of another script in
brackets, which does not come back. -/
theorem address_bad :
    ¬ (∀ a, parse (some (text "1:2:3")) defaultPort = some a → Good (text "1:2:3") a) ∧
      ¬ ∀ a, parse (some [91, 0x661, 93]) defaultPort = some a → Good [91, 0x661, 93] a := by
  constructor
  · intro h
    have hgood := h ⟨text "1:2:3", 17394⟩ (by decide +kernel)
    have htextual := hgood.ipv6 (.inr (by decide +kernel))
    have hfit := ((textual_iff (by decide +kernel) (by decide +kernel)).mp htextual).2
    have hone : (splitTwice 58 (text "1:2:3")).length = 1 := by decide +kernel
    have hcount : groupCount (text "1:2:3") = 3 := by decide +kernel
    rw [if_pos hone, hcount] at hfit
    omega
  · intro h
    have hagain := (h ⟨[0x661], 17394⟩ (by decide +kernel)).again
    revert hagain
    decide +kernel

end Nxfr.AddressParser

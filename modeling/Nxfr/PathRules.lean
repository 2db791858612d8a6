/-
What `sanitize_path` takes and what it makes of it.

The checks on the string and on its components in turn come to a list of rules
that a path keeps or breaks, whatever their order; an accepted path is its
components that name something, and whatever directory it is joined to, it
leads below it.
-/
import Nxfr.WireFacts

namespace Nxfr

/-! ## The rules -/

/-- A component that names something. -/
def isNamed (component : String) : Bool := component != "" && component != "."

/-- The components that name something, in order. -/
def namedComponents (s : String) : List String := (splitSlash s).filter isNamed

/-- The part of a component before its first dot. -/
def baseName (component : String) : List Char := component.toList.takeWhile (· != '.')

/-- The rules for a relative path. -/
structure Sanitary (s : String) : Prop where
  nonempty : s ≠ ""
  noBackslash : '\\' ∉ s.toList
  noSlash : s.toList.head? ≠ some '/'
  noDrive : ∀ c rest, s.toList = c :: ':' :: rest → ¬ ('A' ≤ c ∧ c ≤ 'Z' ∨ 'a' ≤ c ∧ c ≤ 'z')
  noNul : Char.ofNat 0 ∉ s.toList
  noControl : ∀ c ∈ s.toList, ¬ (c.toNat ≤ 0x1F ∨ c.toNat = 0x7F)
  noParent : ".." ∉ splitSlash s
  componentLength : ∀ c ∈ splitSlash s, c.utf8ByteSize ≤ 255
  noDevice : ∀ c ∈ splitSlash s, ∀ name ∈ reservedNames, (baseName c).map Char.toUpper ≠ name.toList
  named : ∃ c ∈ splitSlash s, c ≠ "" ∧ c ≠ "."
  length : (joinSlash (namedComponents s)).utf8ByteSize ≤ 4096

/-! ## The components -/

theorem isReserved_iff {c : String} : isReserved c = true ↔ ∃ name ∈ reservedNames, (baseName c).map Char.toUpper = name.toList := by
  rw [isReserved, List.contains_iff_mem]
  constructor
  · intro h
    exact ⟨_, h, by rw [String.toList_ofList]; rfl⟩
  · intro ⟨name, hmem, hname⟩
    have : String.ofList ((c.toList.takeWhile (· != '.')).map Char.toUpper) = name := by
      rw [show c.toList.takeWhile (· != '.') = baseName c from rfl, hname, String.ofList_toList]
    exact this ▸ hmem

/-- A component the loop does not stop at. -/
def ComponentOk (c : String) : Prop := c ≠ ".." ∧ c.utf8ByteSize ≤ maxPathComponent ∧ isReserved c = false

theorem componentOk_of_unnamed {c : String} (h : c = "" ∨ c = ".") : ComponentOk c := by
  rcases h with rfl | rfl
  · exact ⟨by decide, by decide +kernel, by decide +kernel⟩
  · exact ⟨by decide, by decide +kernel, by decide +kernel⟩

/-- The loop keeps the components that name something. -/
theorem keepComponents_filter {input : String} {cs : List String} (h : ∀ c ∈ cs, ComponentOk c) :
    keepComponents input cs = .ok (cs.filter isNamed) := by
  induction cs with
  | nil => rfl
  | cons c cs ih =>
    obtain ⟨⟨hparent, hlen, hreserved⟩, hrest⟩ := List.forall_mem_cons.mp h
    by_cases hunnamed : c = "" ∨ c = "."
    · have hdrop : ¬ isNamed c = true := by rcases hunnamed with rfl | rfl <;> decide
      rw [keepComponents, if_pos hunnamed, ih hrest, List.filter_cons_of_neg hdrop]
    · have hkeep : isNamed c = true := by simpa [isNamed, not_or] using hunnamed
      rw [keepComponents, if_neg hunnamed, if_neg hparent, if_neg (by omega), if_neg (by simp [hreserved]), ih hrest,
        List.filter_cons_of_pos hkeep]
      rfl

theorem keepComponents_checked {input : String} {cs kept : List String} (h : keepComponents input cs = .ok kept) :
    ∀ c ∈ cs, ComponentOk c := by
  induction cs generalizing kept with
  | nil => exact nofun
  | cons c cs ih =>
    rw [keepComponents] at h
    split at h
    · rename_i hunnamed
      exact List.forall_mem_cons.mpr ⟨componentOk_of_unnamed hunnamed, ih h⟩
    split at h
    · cases h
    split at h
    · cases h
    split at h
    · cases h
    rename_i hparent hlen hreserved
    cases hrest : keepComponents input cs with
    | error e =>
      rw [hrest] at h
      cases h
    | ok rest => exact List.forall_mem_cons.mpr ⟨⟨hparent, by omega, by simpa using hreserved⟩, ih hrest⟩

/-! ## The string -/

theorem hasDriveLetter_iff {cs : List Char} :
    hasDriveLetter cs = true ↔ ∃ c rest, cs = c :: ':' :: rest ∧ ('A' ≤ c ∧ c ≤ 'Z' ∨ 'a' ≤ c ∧ c ≤ 'z') := by
  unfold hasDriveLetter
  split
  · rename_i c rest
    have halpha : c.isAlpha = true ↔ 'A' ≤ c ∧ c ≤ 'Z' ∨ 'a' ≤ c ∧ c ≤ 'z' := by
      simp only [Char.isAlpha, Char.isUpper, Char.isLower, Bool.or_eq_true, Bool.and_eq_true, decide_eq_true_eq]
      rfl
    constructor
    · intro h
      exact ⟨c, rest, rfl, halpha.mp h⟩
    · intro ⟨c', rest', hcs, hletter⟩
      cases hcs
      exact halpha.mpr hletter
  · rename_i hne
    constructor
    · exact nofun
    · intro ⟨c, rest, hcs, _⟩
      exact absurd hcs (hne c rest)

/-- The checks before the components are split. -/
structure StringOk (s : String) : Prop where
  nonempty : s.toList ≠ []
  noBackslash : '\\' ∉ s.toList
  noSlash : s.toList.head? ≠ some '/'
  noDrive : hasDriveLetter s.toList = false
  noNul : Char.ofNat 0 ∉ s.toList
  noControl : ∀ c ∈ s.toList, ¬ (c.toNat ≤ 0x1F ∨ c.toNat = 0x7F)

/-- `sanitize_path` succeeds when every check does. -/
theorem sanitizePath_ok_iff {s r : String} :
    sanitizePath s = .ok r ↔ StringOk s ∧ (∀ c ∈ splitSlash s, ComponentOk c) ∧ namedComponents s ≠ [] ∧
      (joinSlash (namedComponents s)).utf8ByteSize ≤ maxRelativePath ∧ r = joinSlash (namedComponents s) := by
  constructor
  · intro h
    unfold sanitizePath at h
    dsimp only at h
    split at h
    · cases h
    rename_i hnonempty
    split at h
    · cases h
    rename_i hbackslash
    split at h
    · cases h
    rename_i hslash
    split at h
    · cases h
    rename_i hdrive
    split at h
    · cases h
    rename_i hnul
    split at h
    · cases h
    rename_i hcontrol
    split at h
    · cases h
    rename_i kept hkept
    have hchecked := keepComponents_checked hkept
    rw [keepComponents_filter hchecked] at hkept
    cases hkept
    split at h
    · cases h
    rename_i hnamed
    split at h
    · cases h
    rename_i hlen
    cases h
    refine ⟨⟨hnonempty, ?_, hslash, by simpa using hdrive, ?_, ?_⟩, hchecked, hnamed, Nat.not_lt.mp hlen, rfl⟩
    · simpa using hbackslash
    · simpa using hnul
    · intro c hc
      simpa using List.find?_eq_none.mp hcontrol c hc
  · intro ⟨hs, hchecked, hnamed, hlen, hr⟩
    have hcontrol : s.toList.find? (fun c => c.toNat ≤ 0x1F || c.toNat == 0x7F) = none := by
      rw [List.find?_eq_none]
      intro c hc
      simpa using hs.noControl c hc
    have hkept : keepComponents s (splitSlash s) = .ok (namedComponents s) := keepComponents_filter hchecked
    simp only [sanitizePath, hs.nonempty, hs.noSlash, hs.noDrive, List.contains_iff_mem, hs.noBackslash, hs.noNul, hcontrol,
      hkept, hnamed, if_false, Bool.false_eq_true]
    rw [if_neg (Nat.not_lt.mpr hlen), hr]

/-! ## Where a path leads -/

/-- `Path::join`: an absolute path replaces the directory it is joined to. -/
def pathJoin (root : Path) (path : String) : Path :=
  if path.toList.head? = some '/' then splitSlash path else joinPath root path

/-- The directory a path leads to when its components are followed one after
another, `..` going up. -/
def lexical (p : Path) : Path :=
  p.foldl (fun dir c => if isNamed c then if c = ".." then dir.dropLast else dir ++ [c] else dir) []

theorem lexical_append_named {root cs : Path} (hcs : ∀ c ∈ cs, isNamed c = true ∧ c ≠ "..") :
    lexical (root ++ cs) = lexical root ++ cs := by
  induction cs using List.reverseRecOn with
  | nil => simp
  | append_singleton cs c ih =>
    obtain ⟨hnamed, hparent⟩ := hcs c (by simp)
    have hstep : lexical (root ++ cs ++ [c]) = lexical (root ++ cs) ++ [c] := by
      simp [lexical, hnamed, hparent]
    rw [← List.append_assoc, hstep, ih fun c hc => hcs c (by simp [hc]), List.append_assoc]

theorem not_mem_of_mem_splitOn {c : Char} {cs part : List Char} (h : part ∈ cs.splitOn c) : c ∉ part := by
  induction cs generalizing part with
  | nil =>
    rw [List.splitOn_nil, List.mem_singleton] at h
    simp [h]
  | cons a cs ih =>
    rw [List.splitOn_cons_eq_if_modifyHead] at h
    split at h
    · rcases List.mem_cons.mp h with rfl | h
      · simp
      · exact ih h
    · rename_i hne
      cases hsplit : cs.splitOn c with
      | nil => exact absurd hsplit (List.splitOn_ne_nil c cs)
      | cons first rest =>
        rw [hsplit, List.modifyHead_cons, List.mem_cons] at h
        rcases h with rfl | h
        · have hfirst := ih (hsplit ▸ List.mem_cons_self)
          have hac : c ≠ a := by
            rintro rfl
            simp at hne
          simp [hac, hfirst]
        · exact ih (hsplit ▸ List.mem_cons_of_mem _ h)

theorem noSlash_of_mem_splitSlash {s c : String} (h : c ∈ splitSlash s) : '/' ∉ c.toList := by
  obtain ⟨part, hpart, rfl⟩ := List.mem_map.mp h
  rw [String.toList_ofList]
  exact not_mem_of_mem_splitOn hpart

theorem head_joinSlash {cs : List String} (hcs : ∀ c ∈ cs, c ≠ "" ∧ '/' ∉ c.toList) :
    (joinSlash cs).toList.head? ≠ some '/' := by
  cases cs with
  | nil => simp [joinSlash]
  | cons c cs =>
    obtain ⟨hne, hslash⟩ := hcs c (by simp)
    have hhead : (joinSlash (c :: cs)).toList.head? = c.toList.head? := by
      have hnil : c.toList ≠ [] := fun h => hne (String.toList_eq_nil_iff.mp h)
      obtain ⟨a, rest, hc⟩ := List.exists_cons_of_ne_nil hnil
      cases cs with
      | nil => simp [joinSlash]
      | cons c' cs => simp [joinSlash, hc, List.intercalate_cons_cons]
    rw [hhead]
    intro h
    exact hslash (List.mem_of_mem_head? h)

theorem namedComponents_mem {s c : String} (h : c ∈ namedComponents s) : c ∈ splitSlash s ∧ c ≠ "" ∧ c ≠ "." := by
  simpa [namedComponents, isNamed] using h

/-- A result leads below the directory it is joined to. -/
theorem lexical_pathJoin {s : String} (hparent : ".." ∉ splitSlash s) (hne : namedComponents s ≠ []) (root : Path) :
    lexical (pathJoin root (joinSlash (namedComponents s))) = lexical root ++ namedComponents s := by
  have hslash : ∀ c ∈ namedComponents s, '/' ∉ c.toList :=
    fun c hc => noSlash_of_mem_splitSlash (namedComponents_mem hc).1
  rw [pathJoin, if_neg (head_joinSlash fun c hc => ⟨(namedComponents_mem hc).2.1, hslash c hc⟩), joinPath,
    splitSlash_joinSlash hne hslash]
  refine lexical_append_named fun c hc => ⟨(List.mem_filter.mp hc).2, ?_⟩
  rintro rfl
  exact hparent (namedComponents_mem hc).1

/-! ## The characterisation -/

theorem sanitary_iff {s : String} :
    Sanitary s ↔ StringOk s ∧ (∀ c ∈ splitSlash s, ComponentOk c) ∧ namedComponents s ≠ [] ∧
      (joinSlash (namedComponents s)).utf8ByteSize ≤ maxRelativePath := by
  have hnamed : namedComponents s ≠ [] ↔ ∃ c ∈ splitSlash s, c ≠ "" ∧ c ≠ "." := by
    simp [namedComponents, isNamed, List.filter_eq_nil_iff]
  have hdevice : ∀ c, isReserved c = false ↔ ∀ name ∈ reservedNames, (baseName c).map Char.toUpper ≠ name.toList := by
    intro c
    rw [← Bool.not_eq_true, isReserved_iff]
    simp
  constructor
  · intro h
    refine ⟨⟨mt String.toList_eq_nil_iff.mp h.nonempty, h.noBackslash, h.noSlash, ?_, h.noNul, h.noControl⟩, ?_,
      hnamed.mpr h.named, h.length⟩
    · rw [← Bool.not_eq_true, hasDriveLetter_iff]
      rintro ⟨c, rest, hcs, hletter⟩
      exact h.noDrive c rest hcs hletter
    · intro c hc
      refine ⟨?_, h.componentLength c hc, (hdevice c).mpr (h.noDevice c hc)⟩
      rintro rfl
      exact h.noParent hc
  · intro ⟨hs, hc, hne, hlen⟩
    exact {
      nonempty := mt String.toList_eq_nil_iff.mpr hs.nonempty
      noBackslash := hs.noBackslash
      noSlash := hs.noSlash
      noDrive := fun c rest hcs hletter =>
        Bool.eq_false_iff.mp hs.noDrive (hasDriveLetter_iff.mpr ⟨c, rest, hcs, hletter⟩)
      noNul := hs.noNul
      noControl := hs.noControl
      noParent := fun hmem => (hc _ hmem).1 rfl
      componentLength := fun c hmem => (hc c hmem).2.1
      noDevice := fun c hmem => (hdevice c).mp (hc c hmem).2.2
      named := hnamed.mp hne
      length := hlen }

/-- **What `sanitize_path` takes and makes.** It succeeds exactly on the paths
that keep the rules; the result is then the components that name something
joined by single slashes, and joined to any directory it leads below it. -/
theorem sanitizePath_exact (s : String) :
    ((∃ r, sanitizePath s = .ok r) ↔ Sanitary s) ∧
      ∀ r, sanitizePath s = .ok r → r = joinSlash (namedComponents s) ∧
        ∀ root, ∃ below, below ≠ [] ∧ lexical (pathJoin root r) = lexical root ++ below := by
  constructor
  · rw [sanitary_iff]
    constructor
    · intro ⟨r, h⟩
      obtain ⟨hs, hc, hne, hlen, -⟩ := sanitizePath_ok_iff.mp h
      exact ⟨hs, hc, hne, hlen⟩
    · intro ⟨hs, hc, hne, hlen⟩
      exact ⟨_, sanitizePath_ok_iff.mpr ⟨hs, hc, hne, hlen, rfl⟩⟩
  · intro r h
    obtain ⟨-, hc, hne, -, rfl⟩ := sanitizePath_ok_iff.mp h
    exact ⟨rfl, fun root => ⟨namedComponents s, hne, lexical_pathJoin (fun hmem => (hc _ hmem).1 rfl) hne root⟩⟩

/-! ## A second pass -/

/-- The first component that names something starts with a letter and a colon. -/
def startsAtDrive (s : String) : Bool := match namedComponents s with
  | [] => false
  | c :: _ => hasDriveLetter c.toList

theorem mem_intercalate {α : Type} {sep part : List α} {parts : List (List α)} {a : α} (h : part ∈ parts) (ha : a ∈ part) :
    a ∈ sep.intercalate parts := by
  induction parts with
  | nil => cases h
  | cons first rest ih =>
    cases rest with
    | nil =>
      rw [List.mem_singleton.mp h] at ha
      simpa using ha
    | cons second rest =>
      rw [List.intercalate_cons_cons, List.mem_append, List.mem_append]
      rcases List.mem_cons.mp h with rfl | h
      · exact .inl (.inl ha)
      · exact .inr (ih h)

theorem mem_of_mem_splitSlash {s c : String} {a : Char} (h : c ∈ splitSlash s) (ha : a ∈ c.toList) : a ∈ s.toList := by
  obtain ⟨part, hpart, rfl⟩ := List.mem_map.mp h
  rw [String.toList_ofList] at ha
  have hjoin : ['/'].intercalate (s.toList.splitOn '/') = s.toList := List.intercalate_splitOn '/'
  rw [← hjoin]
  exact mem_intercalate hpart ha

theorem mem_joinSlash {cs : List String} {a : Char} (h : a ∈ (joinSlash cs).toList) :
    a = '/' ∨ ∃ c ∈ cs, a ∈ c.toList := by
  rw [joinSlash, String.toList_ofList] at h
  induction cs with
  | nil => simp at h
  | cons c cs ih =>
    cases cs with
    | nil => exact .inr ⟨c, by simp, by simpa using h⟩
    | cons c' cs =>
      simp only [List.map_cons, List.intercalate_cons_cons, List.mem_append, List.mem_singleton] at h
      rcases h with (h | h) | h
      · exact .inr ⟨c, by simp, h⟩
      · exact .inl h
      · rcases ih h with h | ⟨c₁, hc₁, hmem⟩
        · exact .inl h
        · exact .inr ⟨c₁, List.mem_cons_of_mem _ hc₁, hmem⟩

theorem hasDriveLetter_cons_cons {a b : Char} {cs : List Char} :
    hasDriveLetter (a :: b :: cs) = (b == ':' && a.isAlpha) := by
  by_cases hb : b = ':'
  · rw [hb]
    rfl
  · simp [hasDriveLetter, hb]

theorem hasDriveLetter_joinSlash {c : String} {cs : List String} (hc : c ≠ "") :
    hasDriveLetter (joinSlash (c :: cs)).toList = hasDriveLetter c.toList := by
  have hnil : c.toList ≠ [] := fun h => hc (String.toList_eq_nil_iff.mp h)
  rw [joinSlash, String.toList_ofList, List.map_cons]
  cases cs with
  | nil => simp
  | cons c' cs =>
    rw [List.map_cons, List.intercalate_cons_cons]
    obtain ⟨a, rest, hc⟩ := List.exists_cons_of_ne_nil hnil
    rw [hc]
    cases rest with
    | nil => rfl
    | cons b rest =>
      rw [List.cons_append, List.cons_append, List.cons_append, List.cons_append, hasDriveLetter_cons_cons,
        hasDriveLetter_cons_cons]

/-- The components of a result are its own. -/
theorem namedComponents_joinSlash {s : String} (hne : namedComponents s ≠ []) :
    splitSlash (joinSlash (namedComponents s)) = namedComponents s ∧
      namedComponents (joinSlash (namedComponents s)) = namedComponents s := by
  have hsplit : splitSlash (joinSlash (namedComponents s)) = namedComponents s :=
    splitSlash_joinSlash hne fun c hc => noSlash_of_mem_splitSlash (namedComponents_mem hc).1
  refine ⟨hsplit, ?_⟩
  rw [namedComponents, hsplit, namedComponents, List.filter_filter]
  simp

theorem joinSlash_ne_nil {s : String} (hne : namedComponents s ≠ []) : (joinSlash (namedComponents s)).toList ≠ [] := by
  intro hnil
  have hsplit := (namedComponents_joinSlash hne).1
  rw [splitSlash, hnil, List.splitOn_nil, List.map_cons, List.map_nil] at hsplit
  have hempty : String.ofList [] ∈ namedComponents s := hsplit ▸ List.mem_cons_self
  exact (namedComponents_mem hempty).2.1 rfl

/-- The characters of a result are those of the path, and slashes. -/
theorem mem_result {s : String} {a : Char} (h : a ∈ (joinSlash (namedComponents s)).toList) : a = '/' ∨ a ∈ s.toList := by
  rcases mem_joinSlash h with h | ⟨c, hc, ha⟩
  · exact .inl h
  · exact .inr (mem_of_mem_splitSlash (namedComponents_mem hc).1 ha)

theorem hasDriveLetter_result {s : String} (hne : namedComponents s ≠ []) :
    hasDriveLetter (joinSlash (namedComponents s)).toList = startsAtDrive s := by
  obtain ⟨c, cs, hcs⟩ := List.exists_cons_of_ne_nil hne
  have hc : c ≠ "" := (namedComponents_mem (s := s) (hcs ▸ List.mem_cons_self)).2.1
  rw [startsAtDrive, hcs]
  exact hasDriveLetter_joinSlash hc

/-- A result keeps all the rules for the string but perhaps the one on drives. -/
theorem result_stringOk {s : String} (hs : StringOk s) (hne : namedComponents s ≠ []) (hdrive : startsAtDrive s = false) :
    StringOk (joinSlash (namedComponents s)) := by
  refine ⟨?_, ?_, ?_, (hasDriveLetter_result hne).trans hdrive, ?_, ?_⟩
  · exact joinSlash_ne_nil hne
  · intro hmem
    rcases mem_result hmem with h | h
    · exact absurd h (by decide)
    · exact hs.noBackslash h
  · exact head_joinSlash fun c hc =>
      ⟨(namedComponents_mem hc).2.1, noSlash_of_mem_splitSlash (namedComponents_mem hc).1⟩
  · intro hmem
    rcases mem_result hmem with h | h
    · exact absurd h (by decide)
    · exact hs.noNul h
  · intro a hmem
    rcases mem_result hmem with rfl | h
    · decide
    · exact hs.noControl a h

/-- A result that starts at a drive is turned down for that. -/
theorem sanitizePath_drive {s : String} (hs : StringOk s) (hne : namedComponents s ≠ []) (hdrive : startsAtDrive s = true) :
    sanitizePath (joinSlash (namedComponents s)) = .error (.absolutePath (joinSlash (namedComponents s))) := by
  have hbackslash : '\\' ∉ (joinSlash (namedComponents s)).toList := by
    intro hmem
    rcases mem_result hmem with h | h
    · exact absurd h (by decide)
    · exact hs.noBackslash h
  have hslash : (joinSlash (namedComponents s)).toList.head? ≠ some '/' := head_joinSlash fun c hc =>
    ⟨(namedComponents_mem hc).2.1, noSlash_of_mem_splitSlash (namedComponents_mem hc).1⟩
  simp only [sanitizePath, joinSlash_ne_nil hne, List.contains_iff_mem, hbackslash, hslash,
    (hasDriveLetter_result hne).trans hdrive, if_false, if_true]

/-- **A second pass.** A path that was taken and made into `t` is taken again, as
`t`, exactly when the first of its components that names something does not
start with a letter and a colon; when it does, `resolve_safe_path` turns `t`
down. -/
theorem sanitizePath_again {s t : String} (h : sanitizePath s = .ok t) :
    (sanitizePath t = .ok t ↔ startsAtDrive s = false) ∧
      (startsAtDrive s = true → ∀ fs root, resolveSafePath fs root t = .error (.absolutePath t)) := by
  obtain ⟨hs, hchecked, hne, hlen, rfl⟩ := sanitizePath_ok_iff.mp h
  obtain ⟨hsplit, hnamed⟩ := namedComponents_joinSlash hne
  refine ⟨?_, ?_⟩
  · rw [sanitizePath_ok_iff, hnamed, hsplit]
    constructor
    · intro h
      exact (hasDriveLetter_result hne).symm.trans h.1.noDrive
    · intro h
      exact ⟨result_stringOk hs hne h, fun c hc => hchecked c (namedComponents_mem hc).1, hne, hlen, rfl⟩
  · intro hdrive fs root
    rw [resolveSafePath, sanitizePath_drive hs hne hdrive]

/-- `./a//b` is made into `a/b`, which stays. -/
theorem sanitizePath_again_dots : sanitizePath "./a//b" = .ok "a/b" ∧ sanitizePath "a/b" = .ok "a/b" :=
  ⟨by decide +kernel, (sanitizePath_again (s := "./a//b") (by decide +kernel)).1.mpr (by decide +kernel)⟩

/-- `./C:/x` is made into `C:/x`, which is turned down. -/
theorem sanitizePath_not_again :
    sanitizePath "./C:/x" = .ok "C:/x" ∧ sanitizePath "C:/x" = .error (.absolutePath "C:/x") ∧
      ∀ fs root, resolveSafePath fs root "C:/x" = .error (.absolutePath "C:/x") := by
  have hturned : sanitizePath "C:/x" = .error (.absolutePath "C:/x") := by decide +kernel
  refine ⟨by decide +kernel, hturned, ?_⟩
  intro fs root
  rw [resolveSafePath, hturned]

end Nxfr

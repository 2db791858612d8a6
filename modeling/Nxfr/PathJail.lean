/-
`resolve_safe_path` (`nxfr-core/src/path.rs`) where there are symbolic links,
and the directories the receiver makes for the path it returns
(`nxfr-daemon/src/handler.rs`).

The check follows the links of a target that exists, or of its directory if
that exists, and follows nothing otherwise. A link above a missing directory,
a dangling link at the target, and a link at the `.part` name beside it are
not looked at, and each may lead out of the root.
-/
import Nxfr.Links
import Nxfr.PathRules

namespace Nxfr.Jail

open Links

abbrev Tree := Links.Tree String

/-- How many links are followed before `ELOOP`. -/
def maxLinks : Nat := 40

/-- `fs::canonicalize`. -/
def canonicalize (t : Tree) (p : List (Step String)) : Except String Path := match t.resolve maxLinks [] p with
  | .found _ q => .ok q
  | .missing _ _ _ _ => .error "No such file or directory (os error 2)"
  | .notDir => .error "Not a directory (os error 20)"
  | .loop => .error "Too many levels of symbolic links (os error 40)"

/-- The steps of a path without `..`. -/
def steps (p : Path) : List (Step String) := p.map .name

/-- `Path::exists`, links followed. -/
def pathExists (t : Tree) (p : Path) : Bool := (canonicalize t (steps p)).isOk

/-- `resolve_safe_path`. -/
def resolveSafePath (t : Tree) (downloadRoot : List (Step String)) (relative : String) : Except PathError Path :=
  match sanitizePath relative with
  | .error e => .error e
  | .ok sanitized =>
    match canonicalize t downloadRoot with
    | .error e => .error (.absolutePath ("cannot canonicalize root: " ++ e))
    | .ok canonRoot =>
      let joined := joinPath canonRoot sanitized
      let checkPath : Except PathError Path :=
        if pathExists t joined then
          (canonicalize t (steps joined)).mapError fun e => .absolutePath ("cannot canonicalize dest: " ++ e)
        else match joined.getLast? with
          | none => .error .emptyPath
          | some filename =>
            if pathExists t joined.dropLast then
              match canonicalize t (steps joined.dropLast) with
              | .error e => .error (.absolutePath ("cannot canonicalize parent: " ++ e))
              | .ok parent => .ok (parent ++ [filename])
            else .ok joined
      match checkPath with
      | .error e => .error e
      | .ok checkPath =>
        if canonRoot.isPrefixOf checkPath then .ok joined
        else .error (.parentTraversal ("path escapes download root: /" ++ joinSlash checkPath))

/-- The real location of a path, where a file opened there is or would be. -/
def realLocation (t : Tree) (p : Path) : Option Path := (t.lookup maxLinks p).location

/-- The real location of the path, if it has one, is inside `canonRoot`. -/
def Inside (t : Tree) (canonRoot p : Path) : Prop := ∀ loc, realLocation t p = some loc → canonRoot <+: loc

/-- What the check does not look at stays inside the root as well. `parent` is
the directory of the target, `filename` its name. -/
structure Unchecked (t : Tree) (canonRoot parent : Path) (filename : String) : Prop where
  /-- Where directories are missing, the last one there is really is inside. -/
  missingParent : ∀ left dir c rest, t.lookup maxLinks parent = .missing left dir c rest → canonRoot <+: dir
  /-- A dangling link at the target leads inside. -/
  danglingTarget : ∀ left dir target, t.lookup maxLinks parent = .found left dir →
    t.entry (dir ++ [filename]) = some (.link target) →
    ∀ left' dir' c, t.resolve left dir [.name filename] = .missing left' dir' c [] → canonRoot <+: dir' ++ [c]
  /-- A link at the `.part` name leads inside. -/
  partLink : ∀ left dir target, t.lookup maxLinks parent = .found left dir →
    t.entry (dir ++ [partName filename]) = some (.link target) →
    ∀ loc, (t.resolve left dir [.name (partName filename)]).location = some loc → canonRoot <+: loc
  /-- Without one, the place of the `.part` name is inside. -/
  partPlace : ∀ left dir, t.lookup maxLinks parent = .found left dir →
    (∀ target, t.entry (dir ++ [partName filename]) ≠ some (.link target)) →
    canonRoot <+: dir ++ [partName filename]

/-! ## What the check has seen -/

theorem canonicalize_ok {t : Tree} {p : List (Step String)} {q : Path} (h : canonicalize t p = .ok q) :
    ∃ left, t.resolve maxLinks [] p = .found left q := by
  unfold canonicalize at h
  split at h
  · rename_i left q' hfound
    cases h
    exact ⟨left, hfound⟩
  · cases h
  · cases h
  · cases h

theorem canonicalize_found {t : Tree} {p : Path} {left : Nat} {q : Path} (h : t.lookup maxLinks p = .found left q) :
    canonicalize t (steps p) = .ok q := by
  have h' : t.resolve maxLinks [] (steps p) = .found left q := h
  simp only [canonicalize, h']

theorem pathExists_iff {t : Tree} {p : Path} : pathExists t p = true ↔ ∃ left q, t.lookup maxLinks p = .found left q := by
  constructor
  · intro h
    cases hc : canonicalize t (steps p) with
    | error e => simp [pathExists, hc, Except.isOk, Except.toBool] at h
    | ok q =>
      obtain ⟨left, hfound⟩ := canonicalize_ok hc
      exact ⟨left, q, hfound⟩
  · intro ⟨left, q, hfound⟩
    simp [pathExists, canonicalize_found hfound, Except.isOk, Except.toBool]

/-- What a path that is let through is, and what the check has found of it. -/
theorem resolveSafePath_checked {t : Tree} {downloadRoot : List (Step String)} {relative : String} {p canonRoot : Path}
    (hroot : canonicalize t downloadRoot = .ok canonRoot) (h : resolveSafePath t downloadRoot relative = .ok p) :
    ∃ parent filename, p = parent ++ [filename] ∧
      (∀ left q, t.lookup maxLinks p = .found left q → canonRoot <+: q) ∧
      ∀ left dir, t.lookup maxLinks parent = .found left dir → (∀ left q, t.lookup maxLinks p ≠ .found left q) →
        canonRoot <+: dir ++ [filename] := by
  unfold resolveSafePath at h
  split at h
  · cases h
  rename_i sanitized hsanitized
  simp only [hroot] at h
  have hne : joinPath canonRoot sanitized ≠ [] := by simp [joinPath, splitSlash_ne_nil]
  generalize joinPath canonRoot sanitized = joined at h hne
  obtain ⟨parent, filename, rfl⟩ : ∃ parent filename, joined = parent ++ [filename] :=
    ⟨joined.dropLast, joined.getLast hne, (List.dropLast_append_getLast hne).symm⟩
  simp only [List.getLast?_concat, List.dropLast_concat] at h
  split at h
  · cases h
  rename_i checked hchecked
  split at h
  · rename_i hpre
    cases h
    rw [List.isPrefixOf_iff_prefix] at hpre
    refine ⟨parent, filename, rfl, ?_, ?_⟩
    · intro left q hfound
      rw [if_pos (pathExists_iff.mpr ⟨left, q, hfound⟩), canonicalize_found hfound] at hchecked
      cases hchecked
      exact hpre
    · intro left dir hdir hnone
      have hno : ¬ pathExists t (parent ++ [filename]) = true := by
        rw [pathExists_iff]
        rintro ⟨left, q, hq⟩
        exact hnone left q hq
      rw [if_neg hno, if_pos (pathExists_iff.mpr ⟨left, dir, hdir⟩), canonicalize_found hdir] at hchecked
      cases hchecked
      exact hpre
  · cases h

/-! ## One name in a directory -/

theorem lookup_snoc {t : Tree} {parent dir : Path} {left : Nat} (h : t.lookup maxLinks parent = .found left dir)
    (name : String) : t.lookup maxLinks (parent ++ [name]) = t.resolve left dir [.name name] := by
  have h' : t.resolve maxLinks [] (parent.map .name) = .found left dir := h
  rw [Tree.lookup, List.map_append, Tree.resolve_append, h']
  rfl

/-- A name that is no link is at its own place. -/
theorem location_name {t : Tree} {dir : Path} {left : Nat} {name : String} (hdir : t.entry dir = some .dir)
    (hlink : ∀ target, t.entry (dir ++ [name]) ≠ some (.link target)) :
    (t.resolve left dir [.name name]).location = some (dir ++ [name]) := by
  cases hentry : t.entry (dir ++ [name]) with
  | none =>
    have hstride : t.stride dir [.name name] = .missing dir name [] := by
      simp only [Tree.stride, if_pos hdir, hentry]
    cases left <;> simp only [Tree.resolve, hstride, Outcome.location]
  | some node =>
    have hstride : t.stride dir [.name name] = .arrived (dir ++ [name]) := by
      cases node with
      | link target => exact absurd hentry (hlink target)
      | file => simp only [Tree.stride, if_pos hdir, hentry]
      | dir => simp only [Tree.stride, if_pos hdir, hentry]
    cases left <;> simp only [Tree.resolve, hstride, Outcome.location]

/-- What lies below the root and new directories lies below the root. -/
theorem prefix_of_new {t : Tree} {canonRoot dir : Path} {c : String} {rest : Path} (hroot : t.entry canonRoot ≠ none)
    (hnew : t.entry (dir ++ [c]) = none) : canonRoot <+: dir ++ c :: rest ↔ canonRoot <+: dir := by
  constructor
  · intro h
    rcases List.prefix_or_prefix_of_prefix h (List.prefix_append dir (c :: rest)) with hle | hge
    · exact hle
    · obtain ⟨more, rfl⟩ := hge
      cases more with
      | nil => simp
      | cons c' more =>
        have hc : c' = c := by
          have := List.prefix_append_right_inj dir |>.mp h
          exact (List.cons_prefix_cons.mp this).1
        subst hc
        refine absurd ?_ hroot
        have := Tree.entry_below (q := more) hnew
        simpa using this
  · intro h
    exact h.trans (List.prefix_append _ _)

/-! ## The jail -/

theorem inside_snoc {t : Tree} {canonRoot parent dir : Path} {left : Nat} (h : t.lookup maxLinks parent = .found left dir)
    (name : String) : Inside t canonRoot (parent ++ [name]) ↔
      ∀ loc, (t.resolve left dir [.name name]).location = some loc → canonRoot <+: loc := by
  rw [Inside, realLocation, lookup_snoc h]

/-- The directory is there. -/
theorem jailed_existing_iff {t : Tree} {canonRoot parent dir : Path} {left : Nat} {filename : String}
    (hparent : t.lookup maxLinks parent = .found left dir) (hdir : t.entry dir = some .dir)
    (htarget : ∀ left q, t.lookup maxLinks (parent ++ [filename]) = .found left q → canonRoot <+: q)
    (hplace : (∀ left q, t.lookup maxLinks (parent ++ [filename]) ≠ .found left q) → canonRoot <+: dir ++ [filename]) :
    Inside t canonRoot (parent ++ [filename]) ∧ Inside t canonRoot (parent ++ [partName filename]) ↔
      Unchecked t canonRoot parent filename := by
  rw [inside_snoc hparent, inside_snoc hparent]
  constructor
  · intro ⟨hfile, hpart⟩
    refine ⟨?_, ?_, ?_, ?_⟩
    · intro left' dir' c rest hmissing
      rw [hparent] at hmissing
      cases hmissing
    · intro left' dir' target hfound _ left'' dir'' c hmissing
      rw [hparent] at hfound
      cases hfound
      exact hfile _ (by rw [hmissing]; rfl)
    · intro left' dir' target hfound _ loc hloc
      rw [hparent] at hfound
      cases hfound
      exact hpart loc hloc
    · intro left' dir' hfound hlink
      rw [hparent] at hfound
      cases hfound
      exact hpart _ (location_name hdir hlink)
  · intro h
    constructor
    · intro loc hloc
      cases hresolve : t.resolve left dir [.name filename] with
      | found left' q =>
        rw [hresolve] at hloc
        cases hloc
        exact htarget left' _ (by rw [lookup_snoc hparent, hresolve])
      | missing left' dir' c rest =>
        by_cases hlink : ∃ target, t.entry (dir ++ [filename]) = some (.link target)
        · obtain ⟨target, htarget'⟩ := hlink
          cases rest with
          | nil =>
            rw [hresolve] at hloc
            cases hloc
            exact h.danglingTarget left dir target hparent htarget' left' dir' c hresolve
          | cons s rest =>
            rw [hresolve] at hloc
            cases hloc
        · rw [not_exists] at hlink
          rw [location_name hdir hlink] at hloc
          cases hloc
          refine hplace fun left'' q hfound => ?_
          rw [lookup_snoc hparent, hresolve] at hfound
          cases hfound
      | notDir =>
        rw [hresolve] at hloc
        cases hloc
      | loop =>
        rw [hresolve] at hloc
        cases hloc
    · intro loc hloc
      by_cases hlink : ∃ target, t.entry (dir ++ [partName filename]) = some (.link target)
      · obtain ⟨target, htarget'⟩ := hlink
        exact h.partLink left dir target hparent htarget' loc hloc
      · rw [not_exists] at hlink
        rw [location_name hdir hlink] at hloc
        cases hloc
        exact h.partPlace left dir hparent hlink

/-- The directory had to be made. -/
theorem jailed_made_iff {t t' : Tree} {canonRoot pre rest dir : Path} {left : Nat} {c filename : String}
    (hroot : t.entry canonRoot ≠ none) (hmade : Tree.Made maxLinks t t' pre (c :: rest) left dir) :
    Inside t' canonRoot (pre ++ c :: rest ++ [filename]) ∧
        Inside t' canonRoot (pre ++ c :: rest ++ [partName filename]) ↔
      Unchecked t canonRoot (pre ++ c :: rest) filename := by
  have hname : ∀ name, Inside t' canonRoot (pre ++ c :: rest ++ [name]) ↔ canonRoot <+: dir := by
    intro name
    have hempty := hmade.empty (by simp) name
    have hlink : ∀ target, t'.entry (dir ++ c :: rest ++ [name]) ≠ some (.link target) := by
      intro target
      rw [hempty]
      exact nofun
    rw [inside_snoc hmade.lookup, location_name (hmade.dirs _ List.prefix_rfl) hlink]
    simp only [Option.some.injEq, forall_eq', List.append_assoc, List.cons_append]
    exact prefix_of_new hroot (hmade.first c rest rfl)
  rw [hname, hname, and_self_iff]
  constructor
  · intro h
    refine ⟨?_, ?_, ?_, ?_⟩
    · intro left' dir' c' rest' hmissing
      rw [hmade.was_missing] at hmissing
      cases hmissing
      exact h
    · intro left' dir' target hfound
      rw [hmade.was_missing] at hfound
      cases hfound
    · intro left' dir' target hfound
      rw [hmade.was_missing] at hfound
      cases hfound
    · intro left' dir' hfound
      rw [hmade.was_missing] at hfound
      cases hfound
  · intro h
    exact h.missingParent _ _ _ _ hmade.was_missing

/-- **What keeps a path in its jail.** For a path that is let through, once its
missing directories are made, its real location and that of the `.part` file
beside it are inside the canonical root if and only if what the check does not
look at is. -/
theorem jailed_iff {t t' : Tree} {downloadRoot : List (Step String)} {relative : String} {canonRoot p : Path}
    (hroot : canonicalize t downloadRoot = .ok canonRoot) (hsafe : resolveSafePath t downloadRoot relative = .ok p)
    (hmade : t.createDirAll maxLinks p.dropLast = .ok t') :
    Inside t' canonRoot p ∧ Inside t' canonRoot (partPath p) ↔
      ∀ filename, p.getLast? = some filename → Unchecked t canonRoot p.dropLast filename := by
  obtain ⟨parent, filename, rfl, htarget, hplace⟩ := resolveSafePath_checked hroot hsafe
  have hpart : partPath (parent ++ [filename]) = parent ++ [partName filename] := by simp [partPath, renameLast]
  rw [List.dropLast_concat] at hmade ⊢
  simp only [hpart, List.getLast?_concat, Option.some.injEq, forall_eq']
  obtain ⟨left₀, hfound₀⟩ := canonicalize_ok hroot
  have hexists : t.entry canonRoot ≠ none := Tree.resolve_entry (by simp [t.root]) hfound₀
  obtain ⟨pre, rest, left, dir, rfl, h⟩ := Tree.createDirAll_made hmade
  cases rest with
  | nil =>
    obtain rfl := h.same
    rw [List.append_nil] at htarget hplace ⊢
    exact jailed_existing_iff h.led h.isDir htarget (hplace left dir h.led)
  | cons c rest => exact jailed_made_iff hexists h

/-- The root of downloads, `/srv/in`, with a directory in it. -/
def plainTree : Tree := Tree.ofList [(["srv"], .dir), (["srv", "in"], .dir), (["srv", "in", "a"], .dir)] (by decide +kernel)

/-- A path below the directory there is. -/
theorem jailed_iff_plain : ∃ t', plainTree.createDirAll maxLinks ["srv", "in", "a", "b"] = .ok t' ∧
    Inside t' ["srv", "in"] ["srv", "in", "a", "b", "f"] ∧
    Inside t' ["srv", "in"] (partPath ["srv", "in", "a", "b", "f"]) := by
  have hroot : canonicalize plainTree [.name "srv", .name "in"] = .ok ["srv", "in"] := by decide +kernel
  have hsafe : resolveSafePath plainTree [.name "srv", .name "in"] "a/b/f" = .ok ["srv", "in", "a", "b", "f"] := by
    decide +kernel
  have hok : (plainTree.createDirAll maxLinks ["srv", "in", "a", "b"]).isOk = true := by decide +kernel
  have hlookup : plainTree.lookup maxLinks ["srv", "in", "a", "b"] = .missing 40 ["srv", "in", "a"] "b" [] := by
    decide +kernel
  cases hmade : plainTree.createDirAll maxLinks ["srv", "in", "a", "b"] with
  | error e =>
    rw [hmade] at hok
    cases hok
  | ok t' =>
    refine ⟨t', rfl, (jailed_iff hroot hsafe hmade).mpr ?_⟩
    intro filename hfilename
    refine ⟨?_, ?_, ?_, ?_⟩
    · intro left dir c rest hmissing
      have hboth := hlookup.symm.trans hmissing
      cases hboth
      decide
    · intro left dir target hfound
      cases hlookup.symm.trans hfound
    · intro left dir target hfound
      cases hlookup.symm.trans hfound
    · intro left dir hfound
      cases hlookup.symm.trans hfound

/-- In the root of downloads a link leads to `/out`. -/
def linkedTree : Tree :=
  Tree.ofList [(["srv"], .dir), (["srv", "in"], .dir), (["out"], .dir),
    (["srv", "in", "link"], .link ⟨true, [.name "out"]⟩)] (by decide +kernel)

/-- A path below the link, in a directory that is still to be made, is let
through and ends up outside. -/
theorem jail_escaped :
    canonicalize linkedTree [.name "srv", .name "in"] = .ok ["srv", "in"] ∧
      resolveSafePath linkedTree [.name "srv", .name "in"] "link/sub/f" = .ok ["srv", "in", "link", "sub", "f"] ∧
      ∃ t', linkedTree.createDirAll maxLinks ["srv", "in", "link", "sub"] = .ok t' ∧
        realLocation t' ["srv", "in", "link", "sub", "f"] = some ["out", "sub", "f"] ∧
        ¬ Inside t' ["srv", "in"] ["srv", "in", "link", "sub", "f"] := by
  refine ⟨by decide +kernel, by decide +kernel, ?_⟩
  have hok : ((linkedTree.createDirAll maxLinks ["srv", "in", "link", "sub"]).toOption.map fun t' =>
      realLocation t' ["srv", "in", "link", "sub", "f"]) = some (some ["out", "sub", "f"]) := by
    decide +kernel
  cases hmade : linkedTree.createDirAll maxLinks ["srv", "in", "link", "sub"] with
  | error e =>
    rw [hmade] at hok
    cases hok
  | ok t' =>
    rw [hmade] at hok
    have hloc : realLocation t' ["srv", "in", "link", "sub", "f"] = some ["out", "sub", "f"] := Option.some.inj hok
    refine ⟨t', rfl, hloc, ?_⟩
    intro hinside
    exact absurd (hinside _ hloc) (by decide)

end Nxfr.Jail

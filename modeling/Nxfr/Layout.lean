/-
Putting a tree of files and directories on a disk, below a root.

The entries come in the order of a walk (`Entry.Before`): a directory before
what it holds, and no file above another entry. `Layout` says where the disk
stands when some of the files are in their places: what was there before is
untouched, and what is new is one of these files or a directory an entry
needs.
-/
import Nxfr.Disk

namespace Disk

variable {ν β : Type}

/-- An entry the walk finds before another one. -/
def Entry.Before (a b : Entry ν β) : Prop := ¬ b.path <+: a.path ∧ (a.content ≠ none → ¬ a.path <+: b.path)

/-- No file lies above another entry. -/
theorem not_above {es : List (Entry ν β)} (h : es.Pairwise Entry.Before) {a b : Entry ν β} (ha : a ∈ es) (hb : b ∈ es)
    (hne : a ≠ b) (hfile : a.content ≠ none) : ¬ a.path <+: b.path := by
  have hall := List.Pairwise.forall_of_forall_of_flip
    (R := fun a b : Entry ν β => a ≠ b → a.content ≠ none → ¬ a.path <+: b.path) (fun _ _ h => absurd rfl h)
    (h.imp fun hab _ => hab.2) (h.imp fun hab _ _ => hab.1)
  exact hall ha hb hne hfile

/-- A directory above the root, or one the entries are in or are. -/
def Needed (root : Path ν) (es : List (Entry ν β)) (q : Path ν) : Prop :=
  q <+: root ∨ ∃ e ∈ es, q <+: root ++ e.path ∧ (e.content ≠ none → q ≠ root ++ e.path)

theorem Needed.above {root : Path ν} {es : List (Entry ν β)} {q q' : Path ν} (h : Needed root es q) (hq : q' <+: q) :
    Needed root es q' := by
  rcases h with h | ⟨e, he, hp, hne⟩
  · exact .inl (hq.trans h)
  · refine .inr ⟨e, he, hq.trans hp, fun hc heq => hne hc ?_⟩
    exact hp.eq_of_length_le (heq ▸ hq.length_le)

theorem needed_dir {root : Path ν} {es : List (Entry ν β)} {e : Entry ν β} (he : e ∈ es) (hdir : e.content = none) :
    Needed root es (root ++ e.path) :=
  .inr ⟨e, he, List.prefix_rfl, fun hc => absurd hdir hc⟩

theorem needed_parent {root : Path ν} {es : List (Entry ν β)} {e : Entry ν β} (he : e ∈ es) (hne : e.path ≠ []) :
    Needed root es (root ++ e.path).dropLast := by
  refine .inr ⟨e, he, List.dropLast_prefix _, fun _ heq => ?_⟩
  have hlen := congrArg List.length heq
  have hpos := List.length_pos_iff.mpr hne
  simp only [List.length_dropLast, List.length_append] at hlen
  omega

/-- The place of a file is not needed for a directory. -/
theorem not_needed {root : Path ν} {es : List (Entry ν β)} (h : es.Pairwise Entry.Before) {e : Entry ν β} (he : e ∈ es)
    (hfile : e.content ≠ none) (hne : e.path ≠ []) : ¬ Needed root es (root ++ e.path) := by
  rintro (hp | ⟨e', he', hp, hpne⟩)
  · have := hp.length_le
    have := List.length_pos_iff.mpr hne
    simp only [List.length_append] at *
    omega
  · by_cases heq : e = e'
    · subst heq
      exact hpne hfile rfl
    · exact not_above h he he' heq hfile ((List.prefix_append_right_inj root).mp hp)

structure Layout (d₀ : Fs ν β) (root : Path ν) (es placed : List (Entry ν β)) (d : Fs ν β) : Prop where
  sound : d.Sound
  kept : ∀ {q}, d₀ q ≠ none → d q = d₀ q
  made : ∀ {q}, d₀ q = none → d q ≠ none →
    (∃ e ∈ placed, q = root ++ e.path) ∨ (d q = some .dir ∧ Needed root es q)
  files : ∀ {e}, e ∈ placed → e ∈ es ∧ ∃ c, e.content = some c ∧ d (root ++ e.path) = some (.file c)

namespace Layout

variable {d₀ d : Fs ν β} {root : Path ν} {es placed : List (Entry ν β)}

theorem start (h : d₀.Sound) : Layout d₀ root es [] d₀ where
  sound := h
  kept _ := rfl
  made h₀ h := absurd h₀ h
  files h := by cases h

/-- Directories the entries need, made where they can be. -/
theorem createDirAll [DecidableEq ν] [Limits ν] (h : Layout d₀ root es placed d) {q : Path ν} (hq : Needed root es q) :
    Layout d₀ root es placed ((d.createDirAll q).getD d) := by
  cases hd : d.createDirAll q with
  | none => exact h
  | some d' =>
    obtain ⟨_, hd'⟩ := Fs.createDirAll_eq hd
    have keep : ∀ {r}, d r ≠ none → d' r = d r := by
      intro r hr
      rw [hd', if_neg (by simp [hr])]
    refine ⟨h.sound.createDirAll hd, ?_, ?_, ?_⟩
    · intro r hr
      rw [Option.getD_some, keep (by rw [h.kept hr]; exact hr), h.kept hr]
    · intro r hr hr'
      rw [Option.getD_some] at hr' ⊢
      by_cases hr₁ : d r = none
      · rw [hd', hr₁] at hr' ⊢
        by_cases hp : r <+: q
        · exact .inr ⟨by simp [hp], hq.above hp⟩
        · simp [hp] at hr'
      · rw [keep hr₁]
        exact h.made hr hr₁
    · intro e he
      obtain ⟨hes, c, hc, hfile⟩ := h.files he
      exact ⟨hes, c, hc, by rw [Option.getD_some, keep (by simp [hfile]), hfile]⟩

/-- A place nothing has been put at. -/
theorem free (h : Layout d₀ root es placed d) {q : Path ν} (h₀ : d₀ q = none) (hneed : ¬ Needed root es q)
    (hnew : ∀ e ∈ placed, q ≠ root ++ e.path) : d q = none := by
  refine Decidable.byContradiction fun hq => ?_
  rcases h.made h₀ hq with ⟨e, he, heq⟩ | ⟨_, hn⟩
  · exact hnew e he heq
  · exact hneed hn

/-- The place of a file that has not been put there. -/
theorem place_free (h : Layout d₀ root es placed d) (hes : es.Pairwise Entry.Before) {e : Entry ν β} (he : e ∈ es)
    (hfile : e.content ≠ none) (hne : e.path ≠ []) (hnew : e ∉ placed) (h₀ : d₀ (root ++ e.path) = none) :
    d (root ++ e.path) = none := by
  refine h.free h₀ (not_needed hes he hfile hne) fun e' he' heq => ?_
  have hpath := List.append_cancel_left heq
  have hne' : e ≠ e' := by
    rintro rfl
    exact hnew he'
  exact not_above hes he (h.files he').1 hne' hfile (hpath ▸ List.prefix_rfl)

/-- Files above an entry are those that were there before. -/
theorem isFile_above (h : Layout d₀ root es placed d) (hes : es.Pairwise Entry.Before) {e : Entry ν β} (he : e ∈ es)
    (hnew : e ∉ placed) {q : Path ν} (hq : q <+: root ++ e.path) (hfile : d.isFile q = true) : d₀.isFile q = true := by
  by_cases h₀ : d₀ q = none
  · exfalso
    simp only [Fs.isFile] at hfile
    rcases h.made h₀ (by intro hn; simp [hn] at hfile) with ⟨e', he', rfl⟩ | ⟨hd, _⟩
    · obtain ⟨hmem, c, hc, _⟩ := h.files he'
      have hne : e' ≠ e := by
        rintro rfl
        exact hnew he'
      exact not_above hes hmem he hne (by simp [hc]) ((List.prefix_append_right_inj root).mp hq)
    · simp [hd] at hfile
  · simp only [Fs.isFile] at hfile ⊢
    rwa [← h.kept h₀]

/-- One more file in its place. -/
theorem place [DecidableEq ν] (h : Layout d₀ root es placed d) {e : Entry ν β} (he : e ∈ es) {c : List β} (hc : e.content = some c)
    (hparent : d (root ++ e.path).dropLast = some .dir) (hfree : d (root ++ e.path) = none) :
    Layout d₀ root es (placed ++ [e]) (d.set (root ++ e.path) (some (.file c))) := by
  have keep : ∀ {r}, d r ≠ none → d.set (root ++ e.path) (some (.file c)) r = d r := by
    intro r hr
    rw [Fs.set, if_neg]
    rintro rfl
    exact hr hfree
  refine ⟨h.sound.set_file hparent (by simp [hfree]), ?_, ?_, ?_⟩
  · intro q hq
    rw [keep (by rw [h.kept hq]; exact hq), h.kept hq]
  · intro q h₀ hq
    by_cases hq₁ : d q = none
    · by_cases heq : q = root ++ e.path
      · exact .inl ⟨e, by simp, heq⟩
      · simp [Fs.set, heq, hq₁] at hq
    · rw [keep hq₁]
      rcases h.made h₀ hq₁ with ⟨e', he', heq⟩ | hdir
      · exact .inl ⟨e', by simp [he'], heq⟩
      · exact .inr hdir
  · intro e' he'
    rcases List.mem_append.mp he' with he' | he'
    · obtain ⟨hes, c', hc', hfile⟩ := h.files he'
      exact ⟨hes, c', hc', by rw [keep (by simp [hfile]), hfile]⟩
    · rw [List.mem_singleton.mp he']
      exact ⟨he, c, hc, by simp [Fs.set]⟩

end Layout

end Disk

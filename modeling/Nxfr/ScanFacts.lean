/-
What the scan of the mobile sender finds: the nodes of the tree in the order
of the walk, numbered from one (`scanSendPath_eq`).

A directory names each of its entries once, so no file lies above another
node (`nodes_apart`) and every directory above a node is a node itself
(`nodes_parent`).
-/
import Nxfr.Layout
import Nxfr.MobileSender
import Nxfr.WireFacts

namespace Nxfr

/-- A file or directory the walk finds. -/
abbrev TreeNode := Disk.Entry String UInt8

/-- The nodes of a listing below `current`. -/
def Listing.nodes (current : List String) : Listing → List TreeNode
  | .nil => []
  | .file name data rest => ⟨current ++ [name], some data⟩ :: rest.nodes current
  | .dir name inside rest =>
    ⟨current ++ [name], none⟩ :: (inside.nodes (current ++ [name]) ++ rest.nodes current)

def SendPath.nodes : SendPath → List TreeNode
  | .missing _ => []
  | .file name data => [⟨[name], some data⟩]
  | .dir _ listing => listing.nodes []

/-- The entry of a node. -/
def entryOf (x : Ext) (fileId : Nat) (n : TreeNode) : LocalSendEntry :=
  { fileId
    relativePath := joinSlash n.path
    data := n.content.getD []
    size := (n.content.getD []).length
    sha256 := (n.content.map x.sha256).getD zeroDigest
    isDir := n.content.isNone }

/-- The entries of nodes, numbered from `id` on. -/
def numbered (x : Ext) : Nat → List TreeNode → List LocalSendEntry
  | _, [] => []
  | id, n :: ns => entryOf x id n :: numbered x (id + 1) ns

section

variable {x : Ext}

theorem numbered_append {id : Nat} {ns₁ ns₂ : List TreeNode} :
    numbered x id (ns₁ ++ ns₂) = numbered x id ns₁ ++ numbered x (id + ns₁.length) ns₂ := by
  induction ns₁ generalizing id with
  | nil => simp [numbered]
  | cons n ns₁ ih => simp [numbered, ih, Nat.add_comm, Nat.add_left_comm]

theorem walkDirectory_eq (l : Listing) (current : List String) (entries : List LocalSendEntry) (nextId : Nat) :
    walkDirectory x current l (entries, nextId) =
      (entries ++ numbered x nextId (l.nodes current), nextId + (l.nodes current).length) := by
  induction l generalizing current entries nextId with
  | nil => simp [walkDirectory, Listing.nodes, numbered]
  | file name data rest ih =>
    simp [walkDirectory, Listing.nodes, numbered, ih, entryOf]
    omega
  | dir name inside rest ihInside ihRest =>
    simp [walkDirectory, Listing.nodes, numbered, ihInside, ihRest, entryOf, numbered_append]
    omega

theorem joinSlash_singleton {name : String} : joinSlash [name] = name := by
  simp [joinSlash]

/-- **The scan.** Its entries are the nodes, numbered. -/
theorem scanSendPath_eq {p : SendPath} {name : String} {entries : List LocalSendEntry}
    (h : scanSendPath x p = .ok (name, entries)) : entries = numbered x 1 p.nodes := by
  cases p with
  | missing path => cases h
  | file name data =>
    simp only [scanSendPath, Except.ok.injEq, Prod.mk.injEq] at h
    rw [← h.2]
    simp [SendPath.nodes, numbered, entryOf, joinSlash_singleton]
  | dir name listing =>
    simp only [scanSendPath] at h
    split at h
    · cases h
    · simp only [Except.ok.injEq, Prod.mk.injEq, walkDirectory_eq, List.nil_append] at h
      exact h.2.symm

end

/-! ## Proper trees -/

/-- A name a directory can hold. -/
def ProperName (name : String) : Prop := name ≠ "" ∧ name ≠ "." ∧ '/' ∉ name.toList

def Listing.names : Listing → List String
  | .nil => []
  | .file name _ rest => name :: rest.names
  | .dir name _ rest => name :: rest.names

/-- Each directory has proper names, and each of them once. -/
def Listing.Proper : Listing → Prop
  | .nil => True
  | .file name _ rest => ProperName name ∧ name ∉ rest.names ∧ rest.Proper
  | .dir name inside rest => ProperName name ∧ name ∉ rest.names ∧ inside.Proper ∧ rest.Proper

def SendPath.Proper : SendPath → Prop
  | .missing _ => True
  | .file name _ => ProperName name
  | .dir _ listing => listing.Proper

theorem nodes_below {l : Listing} {current : List String} {n : TreeNode} (h : n ∈ l.nodes current) :
    ∃ name ∈ l.names, current ++ [name] <+: n.path := by
  induction l generalizing current with
  | nil => cases h
  | file name data rest ih =>
    simp only [Listing.nodes, List.mem_cons] at h
    rcases h with rfl | h
    · exact ⟨name, by simp [Listing.names], List.prefix_rfl⟩
    · obtain ⟨name', hname, hp⟩ := ih h
      exact ⟨name', by simp [Listing.names, hname], hp⟩
  | dir name inside rest ihInside ihRest =>
    simp only [Listing.nodes, List.mem_cons, List.mem_append] at h
    rcases h with rfl | h | h
    · exact ⟨name, by simp [Listing.names], List.prefix_rfl⟩
    · obtain ⟨name', _, hp⟩ := ihInside h
      exact ⟨name, by simp [Listing.names], (List.prefix_append _ _).trans hp⟩
    · obtain ⟨name', hname, hp⟩ := ihRest h
      exact ⟨name', by simp [Listing.names, hname], hp⟩

/-- What lies below two names of one directory is apart. -/
theorem not_prefix_of_names {current p q : List String} {a b : String} (hne : a ≠ b) (hp : current ++ [a] <+: p)
    (hq : current ++ [b] <+: q) : ¬ p <+: q := by
  intro hpq
  have hlen : (current ++ [a]).length = (current ++ [b]).length := by simp
  have h := (List.prefix_of_prefix_length_le (hp.trans hpq) hq (Nat.le_of_eq hlen)).eq_of_length hlen
  simp [hne] at h

/-- A node is not at or above the directory it is listed in. -/
theorem nodes_not_above {l : Listing} {current : List String} {n : TreeNode} (h : n ∈ l.nodes current) :
    ¬ n.path <+: current := by
  intro hp
  obtain ⟨name, _, hn⟩ := nodes_below h
  have := (hn.trans hp).length_le
  simp only [List.length_append, List.length_singleton] at this
  omega

theorem listing_apart {l : Listing} (hl : l.Proper) (current : List String) :
    (l.nodes current).Pairwise Disk.Entry.Before := by
  induction l generalizing current with
  | nil => exact .nil
  | file name data rest ih =>
    obtain ⟨_, hnew, hrest⟩ := hl
    refine List.pairwise_cons.mpr ⟨fun b hb => ?_, ih hrest current⟩
    obtain ⟨name', hname, hp⟩ := nodes_below hb
    have hne : name ≠ name' := fun he => hnew (he ▸ hname)
    exact ⟨not_prefix_of_names hne.symm hp List.prefix_rfl, fun _ => not_prefix_of_names hne List.prefix_rfl hp⟩
  | dir name inside rest ihInside ihRest =>
    obtain ⟨_, hnew, hinside, hrest⟩ := hl
    have hother : ∀ {a b : TreeNode}, current ++ [name] <+: a.path → b ∈ rest.nodes current → a.Before b := by
      intro a b ha hb
      obtain ⟨name', hname, hp⟩ := nodes_below hb
      have hne : name ≠ name' := fun he => hnew (he ▸ hname)
      exact ⟨not_prefix_of_names hne.symm hp ha, fun _ => not_prefix_of_names hne ha hp⟩
    refine List.pairwise_cons.mpr ⟨fun b hb => ?_, List.pairwise_append.mpr
      ⟨ihInside hinside _, ihRest hrest current, fun a ha b hb => ?_⟩⟩
    · rcases List.mem_append.mp hb with hb | hb
      · exact ⟨nodes_not_above hb, fun h => absurd rfl h⟩
      · exact hother List.prefix_rfl hb
    · obtain ⟨_, _, hp⟩ := nodes_below ha
      exact hother ((List.prefix_append _ _).trans hp) hb

/-- No file lies above another node, and no node comes before one above it. -/
theorem nodes_apart {p : SendPath} (hp : p.Proper) : p.nodes.Pairwise Disk.Entry.Before := by
  cases p with
  | missing path => exact .nil
  | file name data => exact List.pairwise_singleton _ _
  | dir name listing => exact listing_apart hp []

theorem listing_parent {l : Listing} {current : List String} {n : TreeNode} (h : n ∈ l.nodes current) {q : List String}
    (hq : current <+: q) (hqn : q <+: n.path) (hne : q ≠ n.path) :
    q = current ∨ ⟨q, none⟩ ∈ l.nodes current := by
  induction l generalizing current with
  | nil => cases h
  | file name data rest ih =>
    simp only [Listing.nodes, List.mem_cons] at h ⊢
    rcases h with rfl | h
    · exact .inl (by
        rcases List.prefix_concat_iff.mp hqn with heq | hp
        · exact absurd heq hne
        · exact hp.eq_of_length_le hq.length_le)
    · rcases ih h hq with heq | hmem
      · exact .inl heq
      · exact .inr (.inr hmem)
  | dir name inside rest ihInside ihRest =>
    simp only [Listing.nodes, List.mem_cons, List.mem_append] at h ⊢
    rcases h with rfl | h | h
    · exact .inl (by
        rcases List.prefix_concat_iff.mp hqn with heq | hp
        · exact absurd heq hne
        · exact hp.eq_of_length_le hq.length_le)
    · -- `q` and `current ++ [name]` both lie above the node.
      obtain ⟨_, _, hbelow⟩ := nodes_below h
      have habove := (List.prefix_append (current ++ [name]) _).trans hbelow
      rcases List.prefix_or_prefix_of_prefix hqn habove with hp | hp
      · rcases List.prefix_concat_iff.mp hp with heq | hp
        · exact .inr (.inl (by rw [heq]))
        · exact .inl (hp.eq_of_length_le hq.length_le)
      · rcases ihInside h hp with heq | hmem
        · exact .inr (.inl (by rw [heq]))
        · exact .inr (.inr (.inl hmem))
    · rcases ihRest h hq with heq | hmem
      · exact .inl heq
      · exact .inr (.inr (.inr hmem))

/-- Every directory above a node is a node. -/
theorem nodes_parent {p : SendPath} {n : TreeNode} (h : n ∈ p.nodes) {q : List String} (hqn : q <+: n.path)
    (hne : q ≠ n.path) : q = [] ∨ ⟨q, none⟩ ∈ p.nodes := by
  cases p with
  | missing path => cases h
  | file name data =>
    simp only [SendPath.nodes, List.mem_singleton] at h
    subst h
    rcases List.prefix_concat_iff.mp (show q <+: [] ++ [name] from hqn) with heq | hp
    · exact absurd heq hne
    · exact .inl (List.prefix_nil.mp hp)
  | dir name listing => exact listing_parent h List.nil_prefix hqn hne

theorem listing_names {l : Listing} (hl : l.Proper) {current : List String} (hc : ∀ c ∈ current, ProperName c)
    {n : TreeNode} (h : n ∈ l.nodes current) : ∀ c ∈ n.path, ProperName c := by
  induction l generalizing current with
  | nil => cases h
  | file name data rest ih =>
    simp only [Listing.nodes, List.mem_cons] at h
    rcases h with rfl | h
    · simpa [or_imp, forall_and] using ⟨hc, hl.1⟩
    · exact ih hl.2.2 hc h
  | dir name inside rest ihInside ihRest =>
    have hc' : ∀ c ∈ current ++ [name], ProperName c := by simpa [or_imp, forall_and] using ⟨hc, hl.1⟩
    simp only [Listing.nodes, List.mem_cons, List.mem_append] at h
    rcases h with rfl | h | h
    · exact hc'
    · exact ihInside hl.2.2.1 hc' h
    · exact ihRest hl.2.2.2 hc h

theorem nodes_names {p : SendPath} (hp : p.Proper) {n : TreeNode} (h : n ∈ p.nodes) : ∀ c ∈ n.path, ProperName c := by
  cases p with
  | missing path => cases h
  | file name data =>
    simp only [SendPath.nodes, List.mem_singleton] at h
    subst h
    simpa using (show ProperName name from hp)
  | dir name listing => exact listing_names hp (by simp) h

theorem nodes_ne_nil {p : SendPath} {n : TreeNode} (h : n ∈ p.nodes) : n.path ≠ [] := by
  cases p with
  | missing path => cases h
  | file name data =>
    simp only [SendPath.nodes, List.mem_singleton] at h
    simp [h]
  | dir name listing =>
    intro he
    exact nodes_not_above h (he ▸ List.prefix_rfl)

/-! ## Paths of nodes -/

section

variable {p : SendPath} (hp : p.Proper) {n : TreeNode} (hn : n ∈ p.nodes)
include hp hn

theorem splitSlash_node : splitSlash (joinSlash n.path) = n.path :=
  splitSlash_joinSlash (nodes_ne_nil hn) fun c hc => (nodes_names hp hn c hc).2.2

theorem joinPath_node (root : Path) : joinPath root (joinSlash n.path) = root ++ n.path := by
  rw [joinPath, splitSlash_node hp hn]

/-- The path of a node that the sanitiser takes it leaves as it is. -/
theorem sanitizePath_node {sanitized : String} (h : sanitizePath (joinSlash n.path) = .ok sanitized) :
    sanitizePath (joinSlash n.path) = .ok (joinSlash n.path) := by
  obtain ⟨kept, hkept, _, rfl, _⟩ := sanitizePath_kept h
  rw [splitSlash_node hp hn] at hkept
  have hkept := keepComponents_eq hkept fun c hc => ⟨(nodes_names hp hn c hc).1, (nodes_names hp hn c hc).2.1⟩
  rwa [hkept] at h

end

/-- The files among nodes. -/
def fileNodes (ns : List TreeNode) : List TreeNode := ns.filter fun n => n.content.isSome

theorem mem_fileNodes {ns : List TreeNode} {n : TreeNode} : n ∈ fileNodes ns ↔ n ∈ ns ∧ n.content ≠ none := by
  simp [fileNodes, Option.isSome_iff_ne_none]

theorem fileNodes_append_file {ns : List TreeNode} {n : TreeNode} (h : n.content ≠ none) :
    fileNodes (ns ++ [n]) = fileNodes ns ++ [n] := by
  simp [fileNodes, Option.isSome_iff_ne_none, h]

theorem fileNodes_append_dir {ns : List TreeNode} {n : TreeNode} (h : n.content = none) :
    fileNodes (ns ++ [n]) = fileNodes ns := by
  simp [fileNodes, h]

theorem fileNodes_cons_file {ns : List TreeNode} {n : TreeNode} (h : n.content ≠ none) :
    fileNodes (n :: ns) = n :: fileNodes ns := by
  simp [fileNodes, Option.isSome_iff_ne_none, h]

theorem fileNodes_cons_dir {ns : List TreeNode} {n : TreeNode} (h : n.content = none) :
    fileNodes (n :: ns) = fileNodes ns := by
  simp [fileNodes, h]

/-- A node is found once. -/
theorem not_mem_before {p : SendPath} (hp : p.Proper) {before after : List TreeNode} {n : TreeNode}
    (hnodes : p.nodes = before ++ n :: after) : n ∉ before := by
  intro hmem
  have hapart := nodes_apart hp
  rw [hnodes, List.pairwise_append] at hapart
  exact (hapart.2.2 n hmem n (by simp)).1 List.prefix_rfl

end Nxfr

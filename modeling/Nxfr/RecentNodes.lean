/-
The addresses of the last manual connections (`RecentNodesRepository`).

The preference holds one string, a JSON array of addresses. Every operation reads it,
changes the list and writes it back. What `org.json` writes of a list it reads as that
list: `recentNodes_eq` has the preference refine a list of the last five different
addresses, trimmed and the latest first.
-/
import Nxfr.CodeUnits
import Nxfr.Recency

namespace Nxfr.RecentNodes

open CodeUnits

/-- `JSONArray`: its strings with `optString`, or nothing when the constructor throws,
and `toString`. -/
structure Json where
  read : Text → Option (List Text)
  write : List Text → Text

inductive Change
  | addRecentNode (address : Text)
  | removeRecentNode (address : Text)
  | clear

def maxRecent : Nat := 5

def isBlank (s : Text) : Bool := s.all isWhitespace

section

variable (json : Json)

def getRecentNodes (prefs : Option Text) : List Text := match prefs with
  | none => []
  | some jsonStr => match json.read jsonStr with
    | none => []
    | some items => items.filter (!isBlank ·)

def addRecentNode (prefs : Option Text) (address : Text) : Option Text :=
  let trimmed := trim address
  if isBlank trimmed then prefs
  else
    let current := trimmed :: (getRecentNodes json prefs).erase trimmed
    let trimmedList := if current.length > maxRecent then current.take maxRecent else current
    some (json.write trimmedList)

def removeRecentNode (prefs : Option Text) (address : Text) : Option Text :=
  some (json.write ((getRecentNodes json prefs).erase (trim address)))

def Change.step (prefs : Option Text) : Change → Option Text
  | .addRecentNode address => RecentNodes.addRecentNode json prefs address
  | .removeRecentNode address => RecentNodes.removeRecentNode json prefs address
  | .clear => none

/-- The preference after the changes. -/
def stored (changes : List Change) : Option Text := History.after (Change.step json) none changes

end

/-- What a change does to the list. -/
def Change.op : Change → Option (Recency.Op Text)
  | .addRecentNode address => if isBlank (trim address) then none else some (.push (trim address))
  | .removeRecentNode address => some (.drop (trim address))
  | .clear => some .clear

/-- The addresses that get into the list. -/
def Added (changes : List Change) (a : Text) : Prop :=
  isBlank a = false ∧ ∃ address, .addRecentNode address ∈ changes ∧ trim address = a

/-- Lists of such addresses come back from their JSON. -/
def ReadsBack (json : Json) (changes : List Change) : Prop :=
  ∀ l, (∀ a ∈ l, Added changes a) → json.read (json.write l) = some l

/-! ## The list behind the preference -/

section

variable {json : Json} {changes : List Change} {l : List Text} {a : Text}

theorem Added.mono {changes' : List Change} (h : Added changes a) (hsub : ∀ c ∈ changes, c ∈ changes') :
    Added changes' a := by
  obtain ⟨hblank, address, hmem, htrim⟩ := h
  exact ⟨hblank, address, hsub _ hmem, htrim⟩

theorem isBlank_trim (h : trim a = a) : isBlank a = false ↔ a ≠ [] := by
  constructor
  · intro hblank hnil
    subst hnil
    cases hblank
  · intro hne
    by_contra hblank
    have hall : ∀ c ∈ a, isWhitespace c = true := by simpa [isBlank] using hblank
    have hhead := head_of_trim h hne
    rw [hall _ (List.head_mem hne)] at hhead
    cases hhead

theorem erase_eq (l : List Text) (a : Text) : l.erase a = @List.erase Text instBEqOfDecidableEq l a :=
  congrArg (fun i => @List.erase Text i l a) (lawful_beq_subsingleton _ _)

/-- A pushed address is one that was added. -/
theorem added_of_push (h : .push a ∈ changes.filterMap Change.op) : Added changes a := by
  obtain ⟨change, hmem, hop⟩ := List.mem_filterMap.mp h
  cases change with
  | addRecentNode address =>
    simp only [Change.op] at hop
    split at hop
    · cases hop
    · rename_i hblank
      cases hop
      exact ⟨by simpa using hblank, address, hmem, rfl⟩
  | removeRecentNode address => cases hop
  | clear => cases hop

theorem getRecentNodes_write (hread : json.read (json.write l) = some l) (h : ∀ a ∈ l, Added changes a) :
    getRecentNodes json (some (json.write l)) = l := by
  simp only [getRecentNodes, hread]
  refine List.filter_eq_self.mpr fun a ha => ?_
  rw [(h a ha).1]
  rfl

/-- What is listed is the list of the last five. -/
theorem recentNodes_eq (hjson : ReadsBack json changes) :
    getRecentNodes json (stored json changes) = Recency.run maxRecent (changes.filterMap Change.op) := by
  have hnil : getRecentNodes json none = Recency.run maxRecent [] := rfl
  refine History.after_induction (I := fun changes prefs => ReadsBack json changes →
    getRecentNodes json prefs = Recency.run maxRecent (changes.filterMap Change.op)) (fun _ => hnil) ?_ changes hjson
  intro changes change ih hjson
  have hbefore : ReadsBack json changes := fun l hl => hjson l fun a ha => (hl a ha).mono (by simp +contextual)
  have hlist := ih hbefore
  have hadded :
      ∀ a ∈ Recency.run maxRecent ((changes ++ [change]).filterMap Change.op), Added (changes ++ [change]) a :=
    fun a ha => added_of_push ((Recency.run_recent _ _).pushed a ha)
  have hrun : ∀ op, Change.op change = some op → Recency.run maxRecent ((changes ++ [change]).filterMap Change.op) =
      Recency.step maxRecent (getRecentNodes json (stored json changes)) op := by
    intro op hop
    rw [List.filterMap_append, List.filterMap_cons_some hop, List.filterMap_nil]
    unfold stored
    rw [hlist]
    exact History.after_snoc
  cases change with
  | addRecentNode address =>
    by_cases hblank : isBlank (trim address) = true
    · have hop : Change.op (.addRecentNode address) = none := if_pos hblank
      rw [List.filterMap_append, List.filterMap_cons_none hop, List.filterMap_nil, List.append_nil, ← hlist]
      simp only [Change.step, addRecentNode, if_pos hblank]
    · have hop : Change.op (.addRecentNode address) = some (.push (trim address)) := if_neg hblank
      rw [hrun _ hop] at hadded ⊢
      have hcut : ∀ current : List Text, (if current.length > maxRecent then current.take maxRecent else current) =
          current.take maxRecent := by
        intro current
        split
        · rfl
        · exact (List.take_of_length_le (by omega)).symm
      simp only [Change.step, addRecentNode, if_neg hblank, hcut, erase_eq]
      exact getRecentNodes_write (hjson _ hadded) hadded
  | removeRecentNode address =>
    rw [hrun _ rfl] at hadded ⊢
    simp only [Change.step, removeRecentNode, erase_eq]
    exact getRecentNodes_write (hjson _ hadded) hadded
  | clear =>
    rw [hrun _ rfl]
    rfl

end

/-- **After any changes at most five different trimmed addresses are listed, the latest
first, and an address that was added is listed until it is removed or five others were
added since.** -/
theorem recentNodes_kept (json : Json) (changes : List Change) (hjson : ReadsBack json changes) :
    Recency.Recent maxRecent (changes.filterMap Change.op) (getRecentNodes json (stored json changes)) ∧
      (∀ a ∈ getRecentNodes json (stored json changes), trim a = a ∧ a ≠ []) ∧
      ∀ before address after, changes = before ++ .addRecentNode address :: after → isBlank (trim address) = false →
        .clear ∉ after → (∀ other, .removeRecentNode other ∈ after → trim other ≠ trim address) →
        (Recency.others (trim address) (after.filterMap Change.op)).length < maxRecent →
        trim address ∈ getRecentNodes json (stored json changes) := by
  rw [recentNodes_eq hjson]
  have hrecent := Recency.run_recent maxRecent (changes.filterMap Change.op)
  refine ⟨hrecent, fun a ha => ?_, fun before address after hchanges hblank hclear hremove hfew => ?_⟩
  · obtain ⟨hblank, address, -, htrim⟩ := added_of_push (hrecent.pushed a ha)
    have hself : trim a = a := by rw [← htrim, trim_trim]
    exact ⟨hself, (isBlank_trim hself).mp hblank⟩
  · subst hchanges
    have hop : Change.op (.addRecentNode address) = some (.push (trim address)) := if_neg (by simp [hblank])
    rw [List.filterMap_append, List.filterMap_cons_some hop]
    refine Recency.run_stays (fun h => ?_) (fun h => ?_) hfew
    · obtain ⟨change, hmem, hdrop⟩ := List.mem_filterMap.mp h
      cases change with
      | addRecentNode other =>
        simp only [Change.op] at hdrop
        split at hdrop <;> cases hdrop
      | removeRecentNode other =>
        simp only [Change.op, Option.some.injEq, Recency.Op.drop.injEq] at hdrop
        exact hremove other hmem hdrop
      | clear => cases hdrop
    · obtain ⟨change, hmem, hop⟩ := List.mem_filterMap.mp h
      cases change with
      | addRecentNode other =>
        simp only [Change.op] at hop
        split at hop <;> cases hop
      | removeRecentNode other => cases hop
      | clear => exact hclear hmem

/-- JSON arrays of strings in which nothing is escaped and no comma stands. -/
def plainJson : Json where
  read s := match s with
    | [] => none
    | _ :: s => if s.dropLast = [] then some [] else some ((s.dropLast.splitOn 44).map fun quoted => (quoted.drop 1).dropLast)
  write l := 91 :: [44].intercalate (l.map fun a => 34 :: (a ++ [34])) ++ [93]

theorem plainJson_reads {l : List Text} (h : ∀ a ∈ l, 44 ∉ a) : plainJson.read (plainJson.write l) = some l := by
  have hinner : ∀ s : Text, (s ++ [93]).dropLast = s := fun s => List.dropLast_concat
  simp only [plainJson, List.cons_append, hinner]
  cases l with
  | nil => rfl
  | cons a l =>
    have hne : [44].intercalate ((a :: l).map fun a => 34 :: (a ++ [34])) ≠ ([] : Text) := by
      cases l <;> simp [List.intercalate]
    have hsplit : ([44].intercalate ((a :: l).map fun a => 34 :: (a ++ [34]))).splitOn (44 : UInt16) =
        (a :: l).map fun a => 34 :: (a ++ [34]) := by
      refine List.splitOn_intercalate 44 ?_ (by simp)
      intro q hq
      obtain ⟨b, hb, rfl⟩ := List.mem_map.mp hq
      have hcomma := h b hb
      simp [hcomma]
    rw [if_neg hne, hsplit, List.map_map]
    simp [Function.comp_def]

/-- Two addresses, one with blanks about it. -/
theorem second_listed : text "10.0.0.2" ∈ getRecentNodes plainJson
    (stored plainJson [.addRecentNode (text "10.0.0.1"), .addRecentNode (text " 10.0.0.2"), .removeRecentNode (text "x")]) := by
  have hjson : ReadsBack plainJson
      [.addRecentNode (text "10.0.0.1"), .addRecentNode (text " 10.0.0.2"), .removeRecentNode (text "x")] := by
    intro l hl
    refine plainJson_reads fun a ha => ?_
    obtain ⟨-, address, hmem, htrim⟩ := hl a ha
    simp only [List.mem_cons, Change.addRecentNode.injEq, List.not_mem_nil, or_false, reduceCtorEq] at hmem
    rcases hmem with rfl | rfl <;> rw [← htrim] <;> decide +kernel
  exact (recentNodes_kept plainJson _ hjson).2.2 [.addRecentNode (text "10.0.0.1")] (text " 10.0.0.2")
    [.removeRecentNode (text "x")] rfl (by decide +kernel) (by simp)
    (by simp only [List.mem_singleton, Change.removeRecentNode.injEq, forall_eq]; decide +kernel) (by decide +kernel)

end Nxfr.RecentNodes

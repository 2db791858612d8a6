/-
The selection of what is to be sent (`StagingRepository`), over any run of its
operations: `addItems`, `addItem` one at a time, `removeItem` and `clear`.

An item that duplicates one of the selection is turned away, so no two of them are
duplicates (`selection_distinct`), what is there stands in the order it was offered in,
and whatever was offered is there, or something it duplicates is, until that is
removed (`selection_covers`).
-/
import Nxfr.Staging

namespace Nxfr.Staging

open CodeUnits

/-- An operation on the selection. -/
inductive Change (υ : Type)
  | addItems (newItems : List (StagedItem υ))
  | removeItem (id : Text)
  | clear

section

variable {υ : Type} [DecidableEq υ]

/-- The loop over the new items, with `addedCount`. -/
def addItems (current : List (StagedItem υ)) : List (StagedItem υ) → Nat → List (StagedItem υ) × Nat
  | [], addedCount => (current, addedCount)
  | item :: newItems, addedCount => match addItem current item with
    | (current, true) => addItems current newItems (addedCount + 1)
    | (current, false) => addItems current newItems addedCount

def Change.step (current : List (StagedItem υ)) : Change υ → List (StagedItem υ)
  | .addItems newItems => (Staging.addItems current newItems 0).1
  | .removeItem id => Staging.removeItem current id
  | .clear => []

/-- What is selected after the changes. -/
def selection (changes : List (Change υ)) : List (StagedItem υ) := History.after Change.step [] changes

omit [DecidableEq υ] in
/-- What a change offers. -/
def Change.offered : Change υ → List (StagedItem υ)
  | .addItems newItems => newItems
  | .removeItem _ => []
  | .clear => []

variable {current items : List (StagedItem υ)} {item x y : StagedItem υ} {n : Nat}

/-- An item stands for one that is offered. -/
def Covers (x item : StagedItem υ) : Prop := x = item ∨ item.isDuplicate x = true

/-! ## One item -/

theorem isDuplicate_symm (h : x.isDuplicate y = true) : y.isDuplicate x = true := by
  unfold StagedItem.isDuplicate at h ⊢
  simp only [Bool.or_eq_true, Bool.and_eq_true, beq_iff_eq] at h ⊢
  rcases h with (⟨hsome, huri⟩ | ⟨hsome, hlocal⟩) | ⟨hname, hsize⟩
  · exact .inl (.inl ⟨huri ▸ hsome, huri.symm⟩)
  · exact .inl (.inr ⟨hlocal ▸ hsome, hlocal.symm⟩)
  · exact .inr ⟨hname.symm, hsize.symm⟩

/-- An item is turned away for its duplicate, or else it comes last. -/
theorem addItem_cases (current : List (StagedItem υ)) (item : StagedItem υ) :
    ((addItem current item = (current, false)) ∧ ∃ x ∈ current, item.isDuplicate x = true) ∨
      (addItem current item = (current ++ [item], true) ∧ ∀ x ∈ current, item.isDuplicate x = false) := by
  unfold addItem
  by_cases hany : current.any item.isDuplicate = true
  · rw [if_pos hany]
    exact .inl ⟨rfl, List.any_eq_true.mp hany⟩
  · rw [if_neg hany]
    exact .inr ⟨rfl, by simpa using hany⟩

/-! ## The loop -/

/-- What is selected does not depend on the count. -/
theorem addItems_fst :
    (addItems current items n).1 = items.foldl (fun current item => (addItem current item).1) current := by
  induction items generalizing current n with
  | nil => rfl
  | cons item items ih =>
    rw [List.foldl_cons, addItems]
    split
    · rename_i current' hadd
      rw [ih, hadd]
    · rename_i current' hadd
      rw [ih, hadd]

/-- What was selected stays in front, and what comes after it was offered, in order. -/
theorem addItems_append (current items : List (StagedItem υ)) (n : Nat) :
    ∃ added, (addItems current items n).1 = current ++ added ∧ added.Sublist items ∧
      (addItems current items n).2 = n + added.length := by
  induction items generalizing current n with
  | nil => exact ⟨[], (List.append_nil current).symm, List.nil_sublist _, rfl⟩
  | cons item items ih =>
    rcases addItem_cases current item with ⟨hadd, -⟩ | ⟨hadd, -⟩
    · obtain ⟨added, hlist, hsub, hcount⟩ := ih current n
      refine ⟨added, ?_, hsub.cons item, ?_⟩
      · simp only [addItems, hadd, hlist]
      · simp only [addItems, hadd, hcount]
    · obtain ⟨added, hlist, hsub, hcount⟩ := ih (current ++ [item]) (n + 1)
      refine ⟨item :: added, ?_, hsub.cons_cons item, ?_⟩
      · simp only [addItems, hadd, hlist, List.append_assoc, List.singleton_append]
      · simp only [addItems, hadd, hcount, List.length_cons]
        omega

theorem addItems_keeps (h : x ∈ current) : x ∈ (addItems current items n).1 := by
  obtain ⟨added, hlist, -⟩ := addItems_append current items n
  rw [hlist]
  exact List.mem_append_left _ h

/-- Whatever the loop is offered is there after it, or a duplicate is. -/
theorem addItems_covers (current : List (StagedItem υ)) (n : Nat) (h : item ∈ items) :
    ∃ x ∈ (addItems current items n).1, Covers x item := by
  rw [addItems_fst]
  induction items generalizing current with
  | nil => cases h
  | cons first items ih =>
    rw [List.foldl_cons]
    rcases List.mem_cons.mp h with rfl | h
    · have hkeeps : ∀ x ∈ (addItem current item).1,
          x ∈ items.foldl (fun current item => (addItem current item).1) (addItem current item).1 := by
        intro x hx
        rw [← addItems_fst (n := 0)]
        exact addItems_keeps hx
      rcases addItem_cases current item with ⟨hadd, x, hx, hdup⟩ | ⟨hadd, -⟩
      · exact ⟨x, hkeeps x (by rw [hadd]; exact hx), .inr hdup⟩
      · exact ⟨item, hkeeps item (by rw [hadd]; simp), .inl rfl⟩
    · exact ih _ h

/-- No two of the selection are duplicates. -/
def Distinct (current : List (StagedItem υ)) : Prop := current.Pairwise fun x y => x.isDuplicate y = false

theorem Distinct.addItem (h : Distinct current) : Distinct (addItem current item).1 := by
  rcases addItem_cases current item with ⟨hadd, -⟩ | ⟨hadd, hnew⟩
  · rwa [hadd]
  · rw [hadd]
    refine List.pairwise_append.mpr ⟨h, List.pairwise_singleton _ _, fun x hx y hy => ?_⟩
    rw [List.mem_singleton] at hy
    subst hy
    have hfalse := hnew x hx
    by_contra htrue
    rw [isDuplicate_symm (by simpa using htrue)] at hfalse
    cases hfalse

theorem Distinct.addItems (h : Distinct current) : Distinct (addItems current items n).1 := by
  rw [addItems_fst]
  induction items generalizing current with
  | nil => exact h
  | cons item items ih => exact ih h.addItem

/-! ## A run -/

omit [DecidableEq υ] in
/-- What stays when the items with an id are taken out. -/
theorem mem_removeItem {id : Text} : x ∈ removeItem current id ↔ x ∈ current ∧ x.id ≠ id := by
  simp [removeItem]

theorem selection_distinct (changes : List (Change υ)) : Distinct (selection changes) := by
  refine History.after_induction (I := fun _ current => Distinct current) List.Pairwise.nil ?_ changes
  intro changes change h
  cases change with
  | addItems newItems => exact h.addItems
  | removeItem id => exact h.filter _
  | clear => exact List.Pairwise.nil

/-- The selection stands in the order in which it was offered. -/
theorem selection_sublist (changes : List (Change υ)) :
    (selection changes).Sublist (changes.flatMap Change.offered) := by
  refine History.after_induction
    (I := fun changes (current : List (StagedItem υ)) => current.Sublist (changes.flatMap Change.offered))
    (List.nil_sublist _) ?_ changes
  intro changes change h
  rw [List.flatMap_append, List.flatMap_singleton]
  cases change with
  | addItems newItems =>
    obtain ⟨added, hlist, hsub, -⟩ := addItems_append (selection changes) newItems 0
    change (Staging.addItems (selection changes) newItems 0).1.Sublist _
    rw [hlist]
    exact h.append hsub
  | removeItem id =>
    rw [Change.offered, List.append_nil]
    exact List.filter_sublist.trans h
  | clear => exact List.nil_sublist _

/-- What is selected leaves the selection only by its id or with all of it. -/
theorem selection_stays {before : List (Change υ)} (later : List (Change υ)) (h : x ∈ selection before)
    (hclear : Change.clear ∉ later) (hremove : Change.removeItem x.id ∉ later) : x ∈ selection (before ++ later) := by
  unfold selection
  rw [History.after_append]
  refine History.after_induction (I := fun later current => Change.clear ∉ later → Change.removeItem x.id ∉ later →
    x ∈ current) (fun _ _ => h) ?_ later hclear hremove
  intro later change ih hclear hremove
  have hx := ih (fun hmem => hclear (by simp [hmem])) (fun hmem => hremove (by simp [hmem]))
  cases change with
  | addItems newItems => exact addItems_keeps hx
  | removeItem id =>
    refine mem_removeItem.mpr ⟨hx, fun hid => hremove ?_⟩
    simp [hid]
  | clear => exact absurd (by simp) hclear

/-- **The selection holds no duplicates, stands in the order of the offers, and holds for
every item offered one that stands for it, from the offer until that one is taken out.** -/
theorem selection_covers {υ : Type} [DecidableEq υ] (before later : List (Change υ)) (newItems : List (StagedItem υ)) :
    Distinct (selection (before ++ .addItems newItems :: later)) ∧
      (selection (before ++ .addItems newItems :: later)).Sublist
        ((before ++ .addItems newItems :: later).flatMap Change.offered) ∧
      ∀ item ∈ newItems, ∃ x ∈ selection (before ++ [.addItems newItems]), Covers x item ∧
        (x ∈ selection (before ++ .addItems newItems :: later) ∨ .clear ∈ later ∨ .removeItem x.id ∈ later) := by
  refine ⟨selection_distinct _, selection_sublist _, fun item hitem => ?_⟩
  obtain ⟨x, hx, hcovers⟩ := addItems_covers (selection before) 0 hitem
  have hbefore : x ∈ selection (before ++ [.addItems newItems]) := by
    unfold selection
    rw [History.after_snoc]
    exact hx
  refine ⟨x, hbefore, hcovers, ?_⟩
  by_cases hclear : Change.clear ∈ later
  · exact .inr (.inl hclear)
  by_cases hremove : Change.removeItem x.id ∈ later
  · exact .inr (.inr hremove)
  have hstays := selection_stays later hbefore hclear hremove
  rw [List.append_assoc, List.singleton_append] at hstays
  exact .inl hstays

end

end Nxfr.Staging

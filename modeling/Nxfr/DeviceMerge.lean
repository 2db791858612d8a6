/-
`HotspotAwareDiscovery.mergeDevices`: the list of devices that the beacon, NSD
and the probe share.

A device replaces the first entry that has its id or its address. An entry that
has the other one of the two stays beside it, unless a later device of the same
call replaces one of them. So the list has no two entries for one device
exactly as long as every call settles what it doubles (`Settles`). What a call
brings in is in the list after it: the devices of a call replace each other only
where they clash.
-/
import Mathlib.Data.List.Sort
import Nxfr.CodeUnits
import Nxfr.History

namespace Nxfr.DeviceMerge

open CodeUnits History

structure DeviceUiModel where
  name : Text
  host : Text
  port : Int
  deviceId : Text
  platform : Text := text "unknown"
  isPaired : Bool := false
  isDirect : Bool := false
  deriving DecidableEq

/-- The two name one device: by a non-empty id, or by the address. -/
def Clash (a b : DeviceUiModel) : Prop :=
  (a.deviceId ≠ [] ∧ a.deviceId = b.deviceId) ∨ (a.host = b.host ∧ a.port = b.port)

instance (a b : DeviceUiModel) : Decidable (Clash a b) := inferInstanceAs (Decidable (_ ∨ _))

/-- The place a device is put at: that of the first entry it clashes with, or the
end. -/
def place (current : List DeviceUiModel) (device : DeviceUiModel) : Nat :=
  current.findIdx fun existing => Clash existing device

def put (current : List DeviceUiModel) (device : DeviceUiModel) : List DeviceUiModel :=
  if place current device < current.length then current.set (place current device) device else current ++ [device]

/-- The order shown: paired first, then direct, then by name. -/
def precedes (a b : DeviceUiModel) : Bool :=
  if a.isPaired ≠ b.isPaired then a.isPaired else if a.isDirect ≠ b.isDirect then a.isDirect else a.name ≤ b.name

def mergeDevices (devices newDevices : List DeviceUiModel) : List DeviceUiModel :=
  (newDevices.foldl put devices).mergeSort precedes

/-- No two entries name one device. -/
def Distinct (devices : List DeviceUiModel) : Prop := devices.Pairwise fun a b => ¬ Clash a b

instance (devices : List DeviceUiModel) : Decidable (Distinct devices) := inferInstanceAs (Decidable (List.Pairwise _ _))

/-- The places that the devices of a call are put at, one after another. -/
def places : List DeviceUiModel → List DeviceUiModel → List Nat
  | _, [] => []
  | current, device :: devices => place current device :: places (put current device) devices

/-- Where a device is put beside an entry that it clashes with, a later device of
the call is put at the place of one of the two. -/
def Settles : List DeviceUiModel → List DeviceUiModel → Prop
  | _, [] => True
  | current, device :: devices =>
    (∀ i, (h : i < current.length) → i ≠ place current device → Clash current[i] device →
      i ∈ places (put current device) devices ∨ place current device ∈ places (put current device) devices) ∧
      Settles (put current device) devices

section

variable {current devices : List DeviceUiModel} {a b device : DeviceUiModel} {i j : Nat}

theorem Clash.symm (h : Clash a b) : Clash b a := by
  rcases h with ⟨hne, hid⟩ | ⟨hhost, hport⟩
  · exact .inl ⟨hid ▸ hne, hid.symm⟩
  · exact .inr ⟨hhost.symm, hport.symm⟩

theorem place_le (current : List DeviceUiModel) (device : DeviceUiModel) : place current device ≤ current.length :=
  List.findIdx_le_length

theorem put_length (current : List DeviceUiModel) (device : DeviceUiModel) :
    (put current device).length = max current.length (place current device + 1) := by
  have hle := place_le current device
  unfold put
  split
  · rw [List.length_set]
    omega
  · rw [List.length_append, List.length_singleton]
    omega

/-- The list after a device, place by place. -/
theorem put_getElem? : (put current device)[i]? = if i = place current device then some device else current[i]? := by
  have hle := place_le current device
  unfold put
  split
  · rename_i hlt
    rw [List.getElem?_set]
    split
    · rename_i heq
      rw [if_pos heq.symm]
    · rename_i hne
      rw [if_neg (Ne.symm hne)]
  · rename_i hge
    rw [List.getElem?_append]
    split
    · rename_i hlt
      rw [if_neg (by omega)]
    · split
      · rename_i heq
        rw [show i - current.length = 0 by omega, List.getElem?_cons_zero]
      · rename_i hne
        rw [List.getElem?_eq_none (by simp; omega), List.getElem?_eq_none (by omega)]

/-- An entry stays until a device is put at its place. -/
theorem getElem?_of_not_mem_places (h : i ∉ places current devices) (hlt : i < current.length) :
    (devices.foldl put current)[i]? = current[i]? := by
  induction devices generalizing current with
  | nil => rfl
  | cons device devices ih =>
    simp only [places, List.mem_cons, not_or] at h
    rw [List.foldl_cons, ih h.2 (by rw [put_length]; omega), put_getElem?, if_neg h.1]

theorem distinct_iff : Distinct devices ↔
    ∀ (i j : Nat) (a b : DeviceUiModel), i ≠ j → devices[i]? = some a → devices[j]? = some b → ¬ Clash a b := by
  unfold Distinct
  rw [List.pairwise_iff_getElem]
  constructor
  · intro h i j a b hne ha hb
    obtain ⟨hi, rfl⟩ := List.getElem?_eq_some_iff.mp ha
    obtain ⟨hj, rfl⟩ := List.getElem?_eq_some_iff.mp hb
    rcases Nat.lt_or_gt_of_ne hne with hlt | hlt
    · exact h i j hi hj hlt
    · exact fun hclash => h j i hj hi hlt hclash.symm
  · intro h i j hi hj hlt
    exact h i j _ _ (by omega) (List.getElem?_eq_getElem hi) (List.getElem?_eq_getElem hj)

/-- What two clashing entries come to, where every device settles what it doubles. -/
theorem distinct_of_settles (hsettles : Settles current devices)
    (hold : ∀ (i j : Nat) (a b : DeviceUiModel), i ≠ j → current[i]? = some a → current[j]? = some b → Clash a b →
      i ∈ places current devices ∨ j ∈ places current devices) : Distinct (devices.foldl put current) := by
  induction devices generalizing current with
  | nil =>
    refine distinct_iff.mpr ?_
    intro i j a b hne ha hb hclash
    simpa [places] using hold i j a b hne ha hb hclash
  | cons device devices ih =>
    obtain ⟨hnow, hlater⟩ := hsettles
    refine ih hlater ?_
    intro i j a b hne ha hb hclash
    rw [put_getElem?] at ha hb
    have hbeside : ∀ {k : Nat} {c : DeviceUiModel}, k ≠ place current device → current[k]? = some c → Clash c device →
        k ∈ places (put current device) devices ∨ place current device ∈ places (put current device) devices := by
      intro k c hk hc hclash
      obtain ⟨hlt, rfl⟩ := List.getElem?_eq_some_iff.mp hc
      exact hnow k hlt hk hclash
    split at ha
    · rename_i hi
      cases ha
      rw [if_neg (hi ▸ Ne.symm hne)] at hb
      subst hi
      exact (hbeside (Ne.symm hne) hb hclash.symm).symm
    · rename_i hi
      split at hb
      · rename_i hj
        cases hb
        subst hj
        exact hbeside hi ha hclash
      · rename_i hj
        simpa [places, hi, hj] using hold i j a b hne ha hb hclash

/-- **What a call leaves.** -/
theorem distinct_merged_iff (h : Distinct current) :
    Distinct (devices.foldl put current) ↔ Settles current devices := by
  constructor
  · intro hmerged
    clear h
    induction devices generalizing current with
    | nil => trivial
    | cons device devices ih =>
      refine ⟨?_, ih hmerged⟩
      intro i hi hne hclash
      by_contra hstays
      rw [not_or] at hstays
      have hlen := put_length current device
      have hentry : (devices.foldl put (put current device))[i]? = some current[i] := by
        rw [getElem?_of_not_mem_places hstays.1 (by omega), put_getElem?, if_neg hne, List.getElem?_eq_getElem hi]
      have hdevice : (devices.foldl put (put current device))[place current device]? = some device := by
        rw [getElem?_of_not_mem_places hstays.2 (by omega), put_getElem?, if_pos rfl]
      exact distinct_iff.mp hmerged i _ _ _ hne hentry hdevice hclash
  · intro hsettles
    refine distinct_of_settles hsettles ?_
    intro i j a b hne ha hb hclash
    exact absurd hclash (distinct_iff.mp h i j a b hne ha hb)

/-- An entry stays beside a device that it does not clash with. -/
theorem mem_put_of_mem (h : a ∈ current) (hclash : ¬ Clash a device) : a ∈ put current device := by
  obtain ⟨i, hi⟩ := List.mem_iff_getElem?.mp h
  refine List.mem_iff_getElem?.mpr ⟨i, ?_⟩
  rw [put_getElem?, if_neg, hi]
  intro hplace
  obtain ⟨hlt, hget⟩ := List.getElem?_eq_some_iff.mp hi
  subst hplace
  have hfound : decide (Clash current[place current device] device) = true := List.findIdx_getElem (w := hlt)
  exact hclash (hget ▸ of_decide_eq_true hfound)

theorem mem_merged_of_mem (h : a ∈ current) (hclash : ∀ d ∈ devices, ¬ Clash a d) : a ∈ devices.foldl put current := by
  induction devices generalizing current with
  | nil => exact h
  | cons device devices ih =>
    exact ih (mem_put_of_mem h (hclash device (by simp))) fun d hd => hclash d (by simp [hd])

/-- Every device of a call that has no clash of its own is in the list after it. -/
theorem mem_merged (h : Distinct devices) : ∀ d ∈ devices, d ∈ devices.foldl put current := by
  induction devices generalizing current with
  | nil => simp
  | cons device devices ih =>
    obtain ⟨hnow, hlater⟩ := List.pairwise_cons.mp h
    intro d hd
    rw [List.foldl_cons]
    rcases List.mem_cons.mp hd with rfl | hd
    · refine mem_merged_of_mem ?_ hnow
      exact List.mem_iff_getElem?.mpr ⟨place current d, by rw [put_getElem?, if_pos rfl]⟩
    · exact ih hlater d hd

/-- The order shown does not matter. -/
theorem distinct_mergeDevices : Distinct (mergeDevices current devices) ↔ Distinct (devices.foldl put current) :=
  (List.mergeSort_perm _ _).pairwise_iff fun hab hba => hab hba.symm

theorem mem_mergeDevices : a ∈ mergeDevices current devices ↔ a ∈ devices.foldl put current :=
  (List.mergeSort_perm _ _).mem_iff

end

/-! ## Any sequence of calls -/

/-- The list after the calls. -/
def listed (calls : List (List DeviceUiModel)) : List DeviceUiModel := after mergeDevices [] calls

/-- What the list is for: one entry for a device, and the devices of the last call
in it. -/
structure Deduplicated (calls : List (List DeviceUiModel)) : Prop where
  distinct : Distinct (listed calls)
  shown : ∀ earlier newDevices, calls = earlier ++ [newDevices] → Distinct newDevices →
    ∀ device ∈ newDevices, device ∈ listed calls

theorem listed_shown {calls earlier : List (List DeviceUiModel)} {newDevices : List DeviceUiModel}
    (hcalls : calls = earlier ++ [newDevices]) (h : Distinct newDevices) : ∀ d ∈ newDevices, d ∈ listed calls := by
  intro d hd
  rw [hcalls, listed, after_snoc, mem_mergeDevices]
  exact mem_merged h d hd

/-- **When the list stays free of duplicates.** After every part of a sequence of
calls the list is deduplicated exactly where every call settles what it doubles. -/
theorem deduplicated_iff (calls : List (List DeviceUiModel)) :
    (∀ done, done <+: calls → Deduplicated done) ↔ Always mergeDevices [] Settles calls := by
  constructor
  · intro h earlier newDevices later hcalls
    have hbefore := (h earlier ⟨newDevices :: later, hcalls.symm⟩).distinct
    have hafter := (h (earlier ++ [newDevices]) ⟨later, by simp [hcalls]⟩).distinct
    rw [listed, after_snoc, distinct_mergeDevices] at hafter
    exact (distinct_merged_iff hbefore).mp hafter
  · intro h done ⟨later, hcalls⟩
    refine ⟨?_, fun _ _ => listed_shown⟩
    rw [← hcalls] at h
    refine after_induction (I := fun done devices => Always mergeDevices [] Settles done → Distinct devices)
      (fun _ => .nil) ?_ done h.of_append
    intro done newDevices ih h
    rw [distinct_mergeDevices]
    exact (distinct_merged_iff (ih h.of_append)).mpr h.last

def sampleDesk : DeviceUiModel :=
  { name := text "desk", host := text "10.0.0.2", port := 17394, deviceId := text "aa" }

def samplePhone : DeviceUiModel :=
  { name := text "phone", host := text "10.0.0.3", port := 17394, deviceId := text "bb" }

theorem sample_listed : mergeDevices [] [sampleDesk, samplePhone] = [sampleDesk, samplePhone] :=
  List.mergeSort_of_pairwise (by decide +kernel)

/-- The desk comes to the address that the phone had, and both are listed there. -/
theorem address_doubled :
    ¬ ∀ done, done <+: [[sampleDesk, samplePhone], [{ sampleDesk with host := samplePhone.host }]] → Deduplicated done := by
  intro h
  have hdistinct := (h _ (List.prefix_refl _)).distinct
  rw [listed, after, List.foldl_cons, List.foldl_cons, List.foldl_nil, sample_listed, distinct_mergeDevices] at hdistinct
  revert hdistinct
  decide +kernel

end Nxfr.DeviceMerge

/-
`PersistentIdentity::load_or_generate` (`nxfr-daemon/src/identity.rs`), called
again and again on one directory, where a call may be cut at any point.

A file is written in place: cut in the middle, it holds the first bytes. The
key is written before the certificate, and a directory with both files is taken
for an identity. So a cut in the key is repaired by the next call, which
generates again; a cut in the certificate is not, and every later call fails.
Key generation is a parameter of each call, and `extract_spki` one of all.
-/
import Nxfr.Handshake
import Nxfr.History

namespace Nxfr.IdentityFiles

open Handshake History

/-- `identity.der` and `identity.crt`. -/
structure DataDir where
  identityDer : Option Bytes
  identityCrt : Option Bytes
  deriving DecidableEq

def fresh : DataDir := ⟨none, none⟩

/-- `NxfrIdentity`, and `PersistentIdentity` with the same fields. -/
structure Identity where
  privateKeyDer : Bytes
  certDer : Bytes
  deviceId : DeviceId
  deriving DecidableEq

/-- Where a call is cut: before it writes, in the key or in the certificate, with
so many bytes written. -/
inductive Cut
  | early
  | key (n : Nat)
  | cert (n : Nat)
  deriving DecidableEq

/-- A call, with what `generate_keypair` would give it. -/
structure Call where
  keypair : Except String (Bytes × Bytes)
  cut : Option Cut

section

variable (x : Ext) (extractSpki : Bytes → Except String Bytes)

def generateIdentity (keypair : Except String (Bytes × Bytes)) : Except String Identity := match keypair with
  | .error e => .error e
  | .ok (key, cert) => (deviceIdFromCert x extractSpki cert).map fun deviceId => ⟨key, cert, deviceId⟩

/-- `load_or_generate`: the directory after it, and what it returns, unless it is
cut. -/
def loadOrGenerate (dir : DataDir) (call : Call) : DataDir × Option (Except String Identity) :=
  match dir.identityDer, dir.identityCrt with
  | some keyDer, some certDer =>
    let result := match deviceIdFromCert x extractSpki certDer with
      | .error e => .error ("bad cert: " ++ e)
      | .ok deviceId => .ok ⟨keyDer, certDer, deviceId⟩
    (dir, if call.cut = none then some result else none)
  | _, _ => match generateIdentity x extractSpki call.keypair with
    | .error e => (dir, if call.cut = none then some (.error ("keygen: " ++ e)) else none)
    | .ok ident => match call.cut with
      | some .early => (dir, none)
      | some (.key n) => ({ dir with identityDer := some (ident.privateKeyDer.take n) }, none)
      | some (.cert n) => (⟨some ident.privateKeyDer, some (ident.certDer.take n)⟩, none)
      | none => (⟨some ident.privateKeyDer, some ident.certDer⟩, some (.ok ident))

def step (dir : DataDir) (call : Call) : DataDir := (loadOrGenerate x extractSpki dir call).1

/-- What a call returns after earlier ones. -/
def returned (es : List Call) (call : Call) : Option (Except String Identity) :=
  (loadOrGenerate x extractSpki (after (step x extractSpki) fresh es) call).2

/-- An identity that a call generates. -/
def Generates (call : Call) (ident : Identity) : Prop := generateIdentity x extractSpki call.keypair = .ok ident

/-- What the calls are for: after them a call that is not cut returns an identity
that was generated as a whole, by it or before, and where one has been returned,
that one. -/
structure Persists (es : List Call) : Prop where
  succeeds : ∀ call ident, call.cut = none → Generates x extractSpki call ident →
    ∃ i, returned x extractSpki es call = some (.ok i) ∧ (i = ident ∨ ∃ c ∈ es, Generates x extractSpki c i)
  same : ∀ es₁ c es₂ call i, es = es₁ ++ c :: es₂ → returned x extractSpki es₁ c = some (.ok i) → call.cut = none →
    returned x extractSpki es call = some (.ok i)

/-- The call does not leave a part of a certificate behind. -/
def WholeCert (dir : DataDir) (call : Call) : Prop :=
  ∀ n ident, call.cut = some (.cert n) → Generates x extractSpki call ident →
    dir.identityDer.isSome ∧ dir.identityCrt.isSome ∨ ident.certDer.length ≤ n

/-- A part of a certificate that `generate_keypair` gave to one of the calls is
no certificate. -/
def PartsRefused (es : List Call) : Prop :=
  ∀ call ∈ es, ∀ ident n, Generates x extractSpki call ident → n < ident.certDer.length →
    ∃ e, deviceIdFromCert x extractSpki (ident.certDer.take n) = .error e

end

section

variable {x : Ext} {extractSpki : Bytes → Except String Bytes} {dir : DataDir} {call : Call} {ident : Identity}

theorem generated_id (h : Generates x extractSpki call ident) :
    deviceIdFromCert x extractSpki ident.certDer = .ok ident.deviceId := by
  unfold Generates generateIdentity at h
  split at h
  · cases h
  · rename_i key cert heq
    cases hid : deviceIdFromCert x extractSpki cert with
    | error e =>
      rw [hid] at h
      cases h
    | ok id =>
      rw [hid] at h
      cases h
      exact hid

/-- The files hold an identity. -/
def Holds (dir : DataDir) (ident : Identity) : Prop := dir = ⟨some ident.privateKeyDer, some ident.certDer⟩

theorem Holds.load (h : Holds dir ident) (hid : deviceIdFromCert x extractSpki ident.certDer = .ok ident.deviceId)
    (call : Call) : loadOrGenerate x extractSpki dir call = (dir, if call.cut = none then some (.ok ident) else none) := by
  rw [h]
  simp only [loadOrGenerate, hid]

/-- What a call does where a file is missing. -/
theorem loadOrGenerate_missing (h : dir.identityDer = none ∨ dir.identityCrt = none) :
    loadOrGenerate x extractSpki dir call = match generateIdentity x extractSpki call.keypair with
      | .error e => (dir, if call.cut = none then some (.error ("keygen: " ++ e)) else none)
      | .ok ident => match call.cut with
        | some .early => (dir, none)
        | some (.key n) => ({ dir with identityDer := some (ident.privateKeyDer.take n) }, none)
        | some (.cert n) => (⟨some ident.privateKeyDer, some (ident.certDer.take n)⟩, none)
        | none => (⟨some ident.privateKeyDer, some ident.certDer⟩, some (.ok ident)) := by
  unfold loadOrGenerate
  split
  · rename_i hkey hcert
    rcases h with h | h
    · rw [h] at hkey
      cases hkey
    · rw [h] at hcert
      cases hcert
  · rfl

/-- What a call does where both are there. -/
theorem loadOrGenerate_both {key cert : Bytes} : loadOrGenerate x extractSpki ⟨some key, some cert⟩ call =
    (⟨some key, some cert⟩, if call.cut = none then some (match deviceIdFromCert x extractSpki cert with
      | .error e => .error ("bad cert: " ++ e)
      | .ok deviceId => .ok ⟨key, cert, deviceId⟩) else none) := rfl

/-- What a call that generates does. -/
theorem loadOrGenerate_generates (h : dir.identityDer = none ∨ dir.identityCrt = none)
    (hgen : Generates x extractSpki call ident) : loadOrGenerate x extractSpki dir call = match call.cut with
      | some .early => (dir, none)
      | some (.key n) => ({ dir with identityDer := some (ident.privateKeyDer.take n) }, none)
      | some (.cert n) => (⟨some ident.privateKeyDer, some (ident.certDer.take n)⟩, none)
      | none => (⟨some ident.privateKeyDer, some ident.certDer⟩, some (.ok ident)) := by
  rw [loadOrGenerate_missing h, show generateIdentity x extractSpki call.keypair = .ok ident from hgen]

/-- A directory whose certificate is missing or whose files hold an identity of
the calls so far. -/
def Settled (x : Ext) (extractSpki : Bytes → Except String Bytes) (es : List Call) (dir : DataDir) : Prop :=
  dir.identityCrt = none ∨ ∃ ident, Holds dir ident ∧ ∃ c ∈ es, Generates x extractSpki c ident

/-- What a call keeps, where it leaves no part of a certificate. -/
theorem Settled.step {es : List Call} (h : Settled x extractSpki es dir) (hwhole : WholeCert x extractSpki dir call) :
    Settled x extractSpki (es ++ [call]) (IdentityFiles.step x extractSpki dir call) := by
  rcases h with hfresh | ⟨ident, hholds, c, hc, hgen⟩
  · cases hgen : generateIdentity x extractSpki call.keypair with
    | error e =>
      rw [IdentityFiles.step, loadOrGenerate_missing (.inr hfresh), hgen]
      exact .inl hfresh
    | ok ident =>
      have hmem : ∃ c ∈ es ++ [call], Generates x extractSpki c ident := ⟨call, by simp, hgen⟩
      rw [IdentityFiles.step, loadOrGenerate_generates (.inr hfresh) hgen]
      cases hcut : call.cut with
      | none => exact .inr ⟨ident, rfl, hmem⟩
      | some cut =>
        cases cut with
        | early => exact .inl hfresh
        | key n => exact .inl hfresh
        | cert n =>
          rcases hwhole n ident hcut hgen with hboth | hlen
          · rw [hfresh] at hboth
            cases hboth.2
          · refine .inr ⟨ident, ?_, hmem⟩
            simp only [Holds, List.take_of_length_le hlen]
  · rw [IdentityFiles.step, hholds.load (generated_id hgen)]
    exact .inr ⟨ident, hholds, c, by simp [hc], hgen⟩

theorem always_settled {es : List Call} (h : Always (step x extractSpki) fresh (WholeCert x extractSpki) es) :
    Settled x extractSpki es (after (step x extractSpki) fresh es) := by
  refine after_induction (I := fun es dir => Always (step x extractSpki) fresh (WholeCert x extractSpki) es →
    Settled x extractSpki es dir) (fun _ => .inl rfl) ?_ es h
  intro es call ih h
  exact (ih h.of_append).step h.last

/-- After settled calls the next one returns an identity. -/
theorem Settled.returns {es : List Call}
    (h : Settled x extractSpki es (after (IdentityFiles.step x extractSpki) fresh es))
    (hcut : call.cut = none) (hgen : Generates x extractSpki call ident) :
    ∃ i, returned x extractSpki es call = some (.ok i) ∧ (i = ident ∨ ∃ c ∈ es, Generates x extractSpki c i) := by
  rcases h with hfresh | ⟨i, hholds, c, hc, hgen'⟩
  · refine ⟨ident, ?_, .inl rfl⟩
    rw [returned, loadOrGenerate_generates (.inr hfresh) hgen, hcut]
  · refine ⟨i, ?_, .inr ⟨c, hc, hgen'⟩⟩
    rw [returned, hholds.load (generated_id hgen'), if_pos hcut]

/-- What a call returns is in the files, as a whole. -/
theorem holds_of_returned (h : (loadOrGenerate x extractSpki dir call).2 = some (.ok ident)) :
    Holds (step x extractSpki dir call) ident ∧ deviceIdFromCert x extractSpki ident.certDer = .ok ident.deviceId := by
  by_cases hmissing : dir.identityDer = none ∨ dir.identityCrt = none
  · cases hgen : generateIdentity x extractSpki call.keypair with
    | error e =>
      rw [loadOrGenerate_missing hmissing, hgen] at h
      simp at h
    | ok i =>
      rw [step, loadOrGenerate_generates hmissing hgen]
      rw [loadOrGenerate_generates hmissing hgen] at h
      cases hcut : call.cut with
      | some cut =>
        rw [hcut] at h
        cases cut <;> cases h
      | none =>
        rw [hcut] at h
        cases h
        exact ⟨rfl, generated_id hgen⟩
  · obtain ⟨key, cert⟩ := dir
    simp only [not_or] at hmissing
    obtain ⟨key, rfl⟩ := Option.ne_none_iff_exists'.mp hmissing.1
    obtain ⟨cert, rfl⟩ := Option.ne_none_iff_exists'.mp hmissing.2
    rw [loadOrGenerate_both] at h
    rw [step, loadOrGenerate_both]
    split at h
    · cases hid : deviceIdFromCert x extractSpki cert with
      | error e =>
        rw [hid] at h
        cases h
      | ok id =>
        rw [hid] at h
        cases h
        exact ⟨rfl, hid⟩
    · cases h

/-- Files that hold an identity are not written again. -/
theorem Holds.after {es : List Call} (h : Holds dir ident)
    (hid : deviceIdFromCert x extractSpki ident.certDer = .ok ident.deviceId) :
    Holds (History.after (step x extractSpki) dir es) ident := by
  induction es generalizing dir with
  | nil => exact h
  | cons call es ih =>
    change Holds (History.after (step x extractSpki) (step x extractSpki dir call) es) ident
    refine ih ?_
    rw [step, h.load hid]
    exact h

/-- Once an identity is returned it is returned again, whatever calls were cut. -/
theorem returned_same {es₁ es₂ : List Call} {c : Call} (h : returned x extractSpki es₁ c = some (.ok ident))
    (hcut : call.cut = none) : returned x extractSpki (es₁ ++ c :: es₂) call = some (.ok ident) := by
  obtain ⟨hholds, hid⟩ := holds_of_returned h
  have hafter : Holds (after (step x extractSpki) fresh (es₁ ++ c :: es₂)) ident := by
    rw [after_middle]
    exact hholds.after hid
  rw [returned, hafter.load hid, if_pos hcut]

variable (x extractSpki) in
/-- **When the identity outlives every cut.** After every part of a run the next
call succeeds with a whole identity, and with the one that was returned before,
exactly where no call of the run is cut in the certificate. -/
theorem identity_persists_iff (es : List Call) (hparts : PartsRefused x extractSpki es) :
    (∀ es₁, es₁ <+: es → Persists x extractSpki es₁) ↔
      Always (step x extractSpki) fresh (WholeCert x extractSpki) es := by
  constructor
  · intro h es₁ call es₂ hes n ident hcut hgen
    by_contra hnot
    rw [not_or, not_le] at hnot
    obtain ⟨hmissing, hlt⟩ := hnot
    have hmissing : (after (step x extractSpki) fresh es₁).identityDer = none ∨
        (after (step x extractSpki) fresh es₁).identityCrt = none := by
      by_contra hboth
      rw [not_or] at hboth
      exact hmissing ⟨Option.isSome_iff_ne_none.mpr hboth.1, Option.isSome_iff_ne_none.mpr hboth.2⟩
    -- The next call finds both files, and the certificate is refused.
    obtain ⟨i, hreturned, -⟩ := (h (es₁ ++ [call]) ⟨es₂, by simp [hes]⟩).succeeds { call with cut := none } ident rfl hgen
    obtain ⟨e, hrefused⟩ := hparts call (by simp [hes]) ident n hgen hlt
    rw [returned, after_snoc, step, loadOrGenerate_generates hmissing hgen, hcut, loadOrGenerate_both, hrefused] at hreturned
    simp at hreturned
  · intro h es₁ ⟨rest, hes⟩
    rw [← hes] at h
    exact ⟨fun call ident hcut hgen => (always_settled h.of_append).returns hcut hgen,
      fun _ _ _ _ _ hsplit hfirst hcut => hsplit ▸ returned_same hfirst hcut⟩

end

/-- A call that generates the sample certificate. -/
def sampleCall (cut : Option Cut) : Call := ⟨.ok ([1, 2, 3], sampleCert), cut⟩

theorem sampleCall_generates (cut : Option Cut) :
    Generates samplePeers sampleExtractSpki (sampleCall cut) ⟨[1, 2, 3], sampleCert, sampleDeviceId⟩ := by
  simp only [Generates, generateIdentity, sampleCall, sampleCert_id, Except.map]

theorem sample_partsRefused (es : List Call) : PartsRefused samplePeers sampleExtractSpki es := by
  intro call _ ident n hgen hlt
  have hid : deviceIdFromCert samplePeers sampleExtractSpki ident.certDer = .ok ident.deviceId := generated_id hgen
  refine ⟨"X.509 parse failed", ?_⟩
  have hcert : ident.certDer = sampleCert := by
    by_contra hne
    simp only [deviceIdFromCert, sampleExtractSpki, if_neg hne] at hid
    cases hid
  have hpart : ident.certDer.take n ≠ sampleCert := by
    intro h
    have hlen := congrArg List.length (h.trans hcert.symm)
    rw [List.length_take] at hlen
    omega
  simp only [deviceIdFromCert, sampleExtractSpki, if_neg hpart, Except.map]

/-- A cut in the key, one in the certificate after its last byte, and a call that
is not cut. -/
def sampleCalls : List Call :=
  [sampleCall (some (.key 2)), sampleCall (some (.cert sampleCert.length)), sampleCall none]

theorem identity_persists_sample :
    PartsRefused samplePeers sampleExtractSpki sampleCalls ∧
      ∀ es₁, es₁ <+: sampleCalls → Persists samplePeers sampleExtractSpki es₁ := by
  have hparts := sample_partsRefused sampleCalls
  refine ⟨hparts, (identity_persists_iff samplePeers sampleExtractSpki _ hparts).mpr ?_⟩
  refine Always.of_forall ?_
  intro call hcall dir n ident hcut hgen
  simp only [sampleCalls, List.mem_cons, List.not_mem_nil, or_false] at hcall
  rcases hcall with rfl | rfl | rfl
  · cases hcut
  · have hident : Except.ok _ = Except.ok ident := (sampleCall_generates _).symm.trans hgen
    injection hident with hident
    simp only [sampleCall, Option.some.injEq, Cut.cert.injEq] at hcut
    rw [← hident, ← hcut]
    exact .inr (Nat.le_refl _)
  · cases hcut

/-- Cut before the first byte of the certificate, and the next call is refused. -/
theorem identity_lost :
    ¬ Persists samplePeers sampleExtractSpki [sampleCall (some (.cert 0))] ∧
      returned samplePeers sampleExtractSpki [sampleCall (some (.cert 0))] (sampleCall none) =
        some (.error "bad cert: X.509 parse failed") := by
  have hreturned : returned samplePeers sampleExtractSpki [sampleCall (some (.cert 0))] (sampleCall none) =
      some (.error "bad cert: X.509 parse failed") := by
    have hempty : [] ≠ sampleCert := (List.cons_ne_nil _ _).symm
    have hfresh : fresh.identityDer = none ∨ fresh.identityCrt = none := .inr rfl
    rw [returned, after, List.foldl_cons, List.foldl_nil, step,
      loadOrGenerate_generates hfresh (sampleCall_generates _)]
    simp only [sampleCall, loadOrGenerate_both, List.take_zero, deviceIdFromCert, sampleExtractSpki, if_neg hempty,
      Except.map, if_true]
    rfl
  refine ⟨?_, hreturned⟩
  intro h
  obtain ⟨i, hi, -⟩ := h.succeeds (sampleCall none) _ rfl (sampleCall_generates none)
  rw [hreturned] at hi
  cases hi

end Nxfr.IdentityFiles

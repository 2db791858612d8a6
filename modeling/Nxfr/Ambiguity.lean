/-
Payloads that can be read in two ways.

`decode_control` reads the first item of a payload and leaves what follows it,
and the maps it reads are collected into `BTreeMap`s, where a later entry
replaces an earlier one of its key. So any bytes may follow a payload, and any
entry may be put ahead of another of its key, and the message stays what it is:
`accepted_unambiguous_iff` says that nothing else makes an accepted payload
ambiguous.
-/
import Nxfr.UnknownKeys
import Nxfr.WireIntegers

namespace Nxfr.Codec
open Cbor (Value Integer Format)

/-! ## The maps that are read -/

/-- The entries of a map. -/
def entriesOf : Value → List (List (Value × Value))
  | .map entries => [entries]
  | _ => []

/-- The maps the decoder reads below the map of a message: the entries of its
manifest, or its resume files. -/
def mapsBelow (typeCode : Nat) (map : CborMap) : List (List (Value × Value)) := match typeCode with
  | 0x10 => (fieldItems map "manifest").flatMap entriesOf
  | 0x21 => match getBool map "resumable" with
    | .ok true => (fieldItems map "files").flatMap entriesOf
    | _ => []
  | _ => []

/-- The maps it reads of a payload's first item. -/
def mapsRead (val : Value) : List (List (Value × Value)) :=
  entriesOf val ++ match toCborMap val with
    | .error _ => []
    | .ok map => match getUint map "type" with
      | .error _ => []
      | .ok typeCode => mapsBelow typeCode map

/-- A payload is exactly one map, and no map of it that is read holds a key
twice. -/
def Unambiguous (c : Format) (payload : Bytes) : Prop :=
  ∃ entries, c.fromReader payload = .ok (.map entries, []) ∧
    ∀ es ∈ mapsRead (.map entries), (es.map Prod.fst).Nodup

/-- Entries, and the same with one put ahead of another of its key. -/
inductive PutAhead : List (Value × Value) → List (Value × Value) → Prop
  | here {k v : Value} {es : List (Value × Value)} (hk : k ∈ es.map Prod.fst) : PutAhead es ((k, v) :: es)
  | later {e : Value × Value} {es es' : List (Value × Value)} (h : PutAhead es es') : PutAhead (e :: es) (e :: es')

/-- The key of the array of maps that is read below the map of a message. -/
def mapsKey (typeCode : Nat) (map : CborMap) : Option String := match typeCode with
  | 0x10 => some "manifest"
  | 0x21 => match getBool map "resumable" with
    | .ok true => some "files"
    | _ => none
  | _ => none

/-- The map of a message, and the same with an entry put ahead of another of its key:
in the map itself, or in one of the array that is read, the last under its key. -/
inductive Doubled : Value → Value → Prop
  | message {es es' : List (Value × Value)} (h : PutAhead es es') : Doubled (.map es) (.map es')
  | below {typeCode : Nat} {map : CborMap} {key : String} {ahead behind es es' : List (Value × Value)}
      {items items' : List Value}
      (hmap : toCborMap (.map (ahead ++ (.text key, .array (items ++ .map es' :: items')) :: behind)) = .ok map)
      (htype : getUint map "type" = .ok typeCode) (hkey : mapsKey typeCode map = some key)
      (hlast : .text key ∉ behind.map Prod.fst) (h : PutAhead es es') :
      Doubled (.map (ahead ++ (.text key, .array (items ++ .map es :: items')) :: behind))
        (.map (ahead ++ (.text key, .array (items ++ .map es' :: items')) :: behind))

/-- A payload of the message, with bytes behind it. -/
def Extended (c : Format) (m : ControlMessage) (payload : Bytes) : Prop :=
  ∃ shorter extra, payload = shorter ++ extra ∧ extra ≠ [] ∧ decodeControl c shorter = .ok m

/-- The first item of a payload is a map of the message with an entry put ahead of
another of its key. -/
def Repeating (c : Format) (m : ControlMessage) (payload : Bytes) : Prop :=
  ∃ v v' rest, c.fromReader payload = .ok (v', rest) ∧ decodeValue v = .ok m ∧ Doubled v v'

/-! ## Collecting -/

section

variable {m n : CborMap} {es es' : List (Value × Value)} {key s : String} {v : Value}

theorem PutAhead.not_nodup (h : PutAhead es es') : ¬ (es'.map Prod.fst).Nodup := by
  induction h with
  | here hk => exact fun hnodup => (List.nodup_cons.mp hnodup).1 hk
  | later _ ih => exact fun hnodup => ih (List.nodup_cons.mp hnodup).2

/-- Where a key comes twice, an entry can be taken out ahead of another of its key. -/
theorem exists_putAhead (h : ¬ (es'.map Prod.fst).Nodup) : ∃ es, PutAhead es es' := by
  induction es' with
  | nil => exact absurd List.nodup_nil h
  | cons e es' ih =>
    by_cases hk : e.1 ∈ es'.map Prod.fst
    · exact ⟨es', .here hk⟩
    · obtain ⟨es, hes⟩ := ih fun hnodup => h (List.nodup_cons.mpr ⟨hk, hnodup⟩)
      exact ⟨e :: es, .later hes⟩

/-- What is replaced later on need not be there. -/
theorem collect_insert (h : .text s ∈ es.map Prod.fst) : collect (m.insert s v) es = collect m es := by
  induction es generalizing m with
  | nil => cases h
  | cons e es ih =>
    obtain ⟨k, w⟩ := e
    cases k with
    | text t =>
      rw [collect, collect]
      by_cases hst : s = t
      · subst hst
        congr 1
        refine CborMap.ext_get fun k => ?_
        simp only [CborMap.get_insert]
        split <;> rfl
      · have hswap : (m.insert s v).insert t w = (m.insert t w).insert s v := by
          refine CborMap.ext_get fun k => ?_
          simp only [CborMap.get_insert]
          grind
        rw [hswap]
        refine ih ?_
        rw [List.map_cons, List.mem_cons] at h
        refine h.resolve_left fun heq => hst ?_
        injection heq
    | _ => rfl

/-- An entry ahead of another of its key leaves no trace in the map. -/
theorem PutAhead.collect (h : PutAhead es es') (hn : Codec.collect m es' = .ok n) : Codec.collect m es = .ok n := by
  induction h generalizing m with
  | @here k v es hk =>
    cases k with
    | text s => rwa [Codec.collect, collect_insert hk] at hn
    | _ => cases hn
  | @later e es es' h ih =>
    obtain ⟨k, w⟩ := e
    cases k with
    | text t => exact ih hn
    | _ => cases hn

theorem collect_get_absent (h : collect m es = .ok n) (hs : .text s ∉ es.map Prod.fst) : n.get s = m.get s := by
  induction es generalizing m with
  | nil =>
    cases h
    rfl
  | cons e es ih =>
    obtain ⟨k, w⟩ := e
    rw [List.map_cons, List.mem_cons, not_or] at hs
    cases k with
    | text t =>
      rw [ih h hs.2, CborMap.get_insert, if_neg]
      rintro rfl
      exact hs.1 rfl
    | _ => cases h

/-- What a collected map holds is the value of the last entry of its key. -/
theorem collect_get_last {ahead behind : List (Value × Value)} (hn : collect m (ahead ++ (.text key, v) :: behind) = .ok n)
    (hlast : .text key ∉ behind.map Prod.fst) : n.get key = some v := by
  induction ahead generalizing m with
  | nil =>
    rw [List.nil_append, collect] at hn
    rw [collect_get_absent hn hlast, CborMap.get_insert, if_pos rfl]
  | cons e ahead ih =>
    obtain ⟨k, w⟩ := e
    cases k with
    | text t => exact ih hn
    | _ => cases hn

theorem exists_last (hn : collect m es = .ok n) (hv : n.get key = some v) (hm : m.get key = none) :
    ∃ ahead behind, es = ahead ++ (.text key, v) :: behind ∧ .text key ∉ behind.map Prod.fst := by
  have hkey : .text key ∈ es.map Prod.fst := by
    by_contra hkey
    rw [collect_get_absent hn hkey, hm] at hv
    cases hv
  -- The last of the entries with the key.
  have hsplit : ∀ es : List (Value × Value), .text key ∈ es.map Prod.fst →
      ∃ ahead w behind, es = ahead ++ (.text key, w) :: behind ∧ .text key ∉ behind.map Prod.fst := by
    intro es hes
    induction es with
    | nil => cases hes
    | cons e es ih =>
      by_cases hlater : .text key ∈ es.map Prod.fst
      · obtain ⟨ahead, w, behind, rfl, hbehind⟩ := ih hlater
        exact ⟨e :: ahead, w, behind, rfl, hbehind⟩
      · obtain ⟨k, w⟩ := e
        obtain rfl : .text key = k := by
          rw [List.map_cons, List.mem_cons] at hes
          exact hes.resolve_right hlater
        exact ⟨[], w, es, rfl, hlater⟩
  obtain ⟨ahead, w, behind, rfl, hbehind⟩ := hsplit es hkey
  have hw := collect_get_last hn hbehind
  rw [hv, Option.some.injEq] at hw
  exact ⟨ahead, behind, by rw [hw], hbehind⟩

/-! ## The depth check -/

theorem PutAhead.check {depth : Nat} (h : PutAhead es es') (hes : checkEntries es' depth = .ok ()) :
    checkEntries es depth = .ok () := by
  induction h with
  | here _ =>
    simp only [checkEntries, bind_eq_ok] at hes
    obtain ⟨_, -, _, -, hes⟩ := hes
    exact hes
  | @later e es es' _ ih =>
    obtain ⟨k, w⟩ := e
    simp only [checkEntries, bind_eq_ok] at hes ⊢
    obtain ⟨a, hk, b, hw, hes⟩ := hes
    exact ⟨a, hk, b, hw, ih hes⟩

theorem PutAhead.check_map {depth : Nat} (h : PutAhead es es') (hes : checkNestingDepth (.map es') depth = .ok ()) :
    checkNestingDepth (.map es) depth = .ok () := by
  rw [checkNestingDepth] at hes ⊢
  split
  · rename_i hdepth
    rw [if_pos hdepth] at hes
    cases hes
  · rename_i hdepth
    rw [if_neg hdepth] at hes
    exact h.check hes

/-- An item may stand for another where the depth check takes it. -/
theorem checkItems_replace {depth : Nat} {items items' : List Value} {x x' : Value}
    (hx : checkNestingDepth x' depth = .ok () → checkNestingDepth x depth = .ok ())
    (h : checkItems (items ++ x' :: items') depth = .ok ()) : checkItems (items ++ x :: items') depth = .ok () := by
  induction items with
  | nil =>
    simp only [List.nil_append, checkItems, bind_eq_ok] at h ⊢
    obtain ⟨a, hx', h⟩ := h
    exact ⟨a, hx hx', h⟩
  | cons item items ih =>
    simp only [List.cons_append, checkItems, bind_eq_ok] at h ⊢
    obtain ⟨a, hitem, h⟩ := h
    exact ⟨a, hitem, ih h⟩

theorem checkEntries_replace {depth : Nat} {ahead behind : List (Value × Value)} {k x x' : Value}
    (hx : checkNestingDepth x' depth = .ok () → checkNestingDepth x depth = .ok ())
    (h : checkEntries (ahead ++ (k, x') :: behind) depth = .ok ()) :
    checkEntries (ahead ++ (k, x) :: behind) depth = .ok () := by
  induction ahead with
  | nil =>
    simp only [List.nil_append, checkEntries, bind_eq_ok] at h ⊢
    obtain ⟨a, hk, b, hx', h⟩ := h
    exact ⟨a, hk, b, hx hx', h⟩
  | cons e ahead ih =>
    obtain ⟨k', w⟩ := e
    simp only [List.cons_append, checkEntries, bind_eq_ok] at h ⊢
    obtain ⟨a, hk, b, hw, h⟩ := h
    exact ⟨a, hk, b, hw, ih h⟩

theorem Doubled.check {x x' : Value} (h : Doubled x x') {depth : Nat}
    (hx : checkNestingDepth x' depth = .ok ()) : checkNestingDepth x depth = .ok () := by
  cases h with
  | message h => exact h.check_map hx
  | below _ _ _ _ h =>
    rw [checkNestingDepth] at hx ⊢
    split
    · rename_i hdepth
      rw [if_pos hdepth] at hx
      cases hx
    · rename_i hdepth
      rw [if_neg hdepth] at hx
      refine checkEntries_replace (fun harray => ?_) hx
      rw [checkNestingDepth] at harray ⊢
      split
      · rename_i hdepth'
        rw [if_pos hdepth'] at harray
        cases harray
      · rename_i hdepth'
        rw [if_neg hdepth'] at harray
        exact checkItems_replace (fun hmap => h.check_map hmap) harray

end

/-! ## Accepted payloads -/

theorem mapsBelow_eq {typeCode : Nat} {map : CborMap} :
    mapsBelow typeCode map = (mapsKey typeCode map).elim [] fun key => (fieldItems map key).flatMap entriesOf := by
  unfold mapsBelow mapsKey
  split
  · rfl
  · split <;> rfl
  · rfl

/-- A map that is read below another is an item of the array under the key. -/
theorem mem_mapsBelow {typeCode : Nat} {map : CborMap} {es : List (Value × Value)} :
    es ∈ mapsBelow typeCode map ↔
      ∃ key items, mapsKey typeCode map = some key ∧ map.get key = some (.array items) ∧ .map es ∈ items := by
  rw [mapsBelow_eq]
  cases hkey : mapsKey typeCode map with
  | none => simp
  | some key =>
    simp only [Option.elim_some, List.mem_flatMap, Option.some.injEq, exists_and_left, exists_eq_left', fieldItems]
    constructor
    · intro hes
      obtain ⟨item, hitem, hes⟩ := hes
      cases hget : map.get key with
      | none => simp [hget] at hitem
      | some v =>
        cases v with
        | array items =>
          rw [hget] at hitem
          cases item with
          | map entries =>
            rw [entriesOf, List.mem_singleton] at hes
            exact ⟨items, rfl, hes ▸ hitem⟩
          | _ => cases hes
        | _ => simp [hget, itemsOf] at hitem
    · intro hes
      obtain ⟨items, hget, hes⟩ := hes
      exact ⟨.map es, by rw [hget]; exact hes, List.mem_singleton_self es⟩

theorem mem_mapsRead {entries es : List (Value × Value)} {map : CborMap} {typeCode : Nat}
    (hmap : toCborMap (.map entries) = .ok map) (htype : getUint map "type" = .ok typeCode) :
    es ∈ mapsRead (.map entries) ↔ es = entries ∨ es ∈ mapsBelow typeCode map := by
  simp only [mapsRead, hmap, htype, entriesOf, List.mem_append, List.mem_singleton]

/-- What is put into a map that is decoded is not seen by the decoder. -/
theorem PutAhead.entryMap {es es' : List (Value × Value)} {field : String} {n : CborMap} (h : PutAhead es es')
    (hn : entryMap field (.map es') = .ok n) : entryMap field (.map es) = .ok n := h.collect hn

theorem PutAhead.decodeManifestEntry {es es' : List (Value × Value)} {e : ManifestEntry} (h : PutAhead es es')
    (he : decodeManifestEntry (.map es') = .ok e) :
    Codec.decodeManifestEntry (.map es) = Codec.decodeManifestEntry (.map es') := by
  obtain ⟨n, hn, -⟩ := decodeManifestEntry_ok he
  simp only [Codec.decodeManifestEntry, hn, h.entryMap hn]

theorem PutAhead.decodeResumeFile {es es' : List (Value × Value)} {f : ResumeFileStatus} (h : PutAhead es es')
    (hf : decodeResumeFile (.map es') = .ok f) :
    Codec.decodeResumeFile (.map es) = Codec.decodeResumeFile (.map es') := by
  obtain ⟨n, -, hn, -⟩ := decodeResumeFile_ok hf
  simp only [Codec.decodeResumeFile, hn, h.entryMap hn]

theorem forall₂_replace {α : Type} {R : α → α → Prop} {items items' : List α} {x x' : α} (hrefl : ∀ a, R a a)
    (hx : R x x') : List.Forall₂ R (items ++ x :: items') (items ++ x' :: items') := by
  induction items with
  | nil => exact .cons hx (List.forall₂_same.mpr fun a _ => hrefl a)
  | cons a items ih => exact .cons (hrefl a) ih

/-- An array that is read and one that lacks what was put into a map of it are the same
to the decoder. -/
theorem fieldSame_of_putAhead {typeCode : Nat} {map : CborMap} {m : ControlMessage} {key : String}
    {items items' : List Value} {es es' : List (Value × Value)} (hdecode : decodeType typeCode map = .ok m)
    (hkey : mapsKey typeCode map = some key) (hget : map.get key = some (.array (items ++ .map es' :: items')))
    (h : PutAhead es es') :
    FieldSame key (.array (items ++ .map es :: items')) (.array (items ++ .map es' :: items')) := by
  have hmem : .map es' ∈ items ++ .map es' :: items' := by simp
  refine ⟨_, _, rfl, rfl, ?_⟩
  unfold mapsKey at hkey
  split at hkey
  · cases hkey
    obtain ⟨_, _, _, _, _, all, manifest, -, -, -, hall, hdecoded⟩ := decodeTransferRequest_ok hdecode
    rw [hget, Option.some.injEq, Value.array.injEq] at hall
    subst hall
    obtain ⟨i, hi, hlt⟩ := List.getElem_of_mem hmem
    have he := List.forall₂_iff_get.mp hdecoded
    have he := he.2 i hi (by rw [← he.1]; exact hi)
    rw [List.get_eq_getElem, hlt] at he
    exact .inl ⟨rfl, forall₂_replace (fun _ => rfl) (h.decodeManifestEntry he)⟩
  · split at hkey
    · rename_i hresumable
      cases hkey
      replace hdecode : decodeResumeStatus map = .ok m := hdecode
      simp only [decodeResumeStatus, hresumable, bind_eq_ok, pure_eq_ok, Except.ok.injEq] at hdecode
      obtain ⟨t, -, resumable, rfl, expiry, -, files, hfiles, -⟩ := hdecode
      have hdecoded := decodeResumeFiles_items hfiles
      rw [fieldItems, hget, Option.map_some, Option.getD_some, itemsOf] at hdecoded
      obtain ⟨i, hi, hlt⟩ := List.getElem_of_mem hmem
      have hf := List.forall₂_iff_get.mp hdecoded
      have hf := hf.2 i hi (by rw [← hf.1]; exact hi)
      rw [List.get_eq_getElem, hlt] at hf
      exact .inr ⟨rfl, forall₂_replace (fun _ => rfl) (h.decodeResumeFile hf)⟩
    · cases hkey
  · cases hkey

/-- Entries of which one has another value. -/
theorem Inserted.replaced {R : String → Value → Value → Prop} {key : String} {v v' : Value} (hv : R key v v')
    (ahead behind : List (Value × Value)) :
    Inserted messageKeys 1 R (ahead ++ (.text key, v) :: behind) (ahead ++ (.text key, v') :: behind) := by
  have hsame : ∀ es : List (Value × Value), Inserted messageKeys 1 R es es := by
    intro es
    induction es with
    | nil => exact .nil
    | cons e es ih => exact .keep (.inl rfl) ih
  induction ahead with
  | nil => exact .keep (.inr ⟨key, rfl, hv⟩) (hsame behind)
  | cons e ahead ih => exact .keep (.inl rfl) ih

/-- What was put ahead of another entry can be left out of an accepted payload. -/
theorem Doubled.decodes {v v' : Value} {m : ControlMessage} (h : Doubled v v') (hm : decodeValue v' = .ok m) :
    decodeValue v = .ok m := by
  obtain ⟨map, typeCode, hcheck, hmap, htype, hdecode⟩ := decodeValue_ok hm
  have hcheck' := h.check hcheck
  cases h with
  | message h =>
    have hmap' : toCborMap (.map _) = .ok map := h.collect hmap
    rw [decodeValue, hcheck', hmap', ok_bind, ok_bind, decodeMap, htype, ok_bind, hdecode]
  | @below typeCode' map' key ahead behind es es' items items' hmap' htype' hkey hlast h =>
    rw [hmap, Except.ok.injEq] at hmap'
    subst hmap'
    rw [htype, Except.ok.injEq] at htype'
    subst htype'
    have hget := collect_get_last hmap hlast
    have hfield := fieldSame_of_putAhead hdecode hkey hget h
    have hcollect := (Inserted.replaced hfield ahead behind).collect SameFields.empty
    rcases hcollect with ⟨e, -, he⟩ | ⟨n, n', hn, hn', hsame⟩
    · rw [toCborMap, he] at hmap
      cases hmap
    · rw [toCborMap, hn', Except.ok.injEq] at hmap
      subst hmap
      rw [decodeValue, hcheck', ok_bind, toCborMap, hn, ok_bind, decodeMap_same hsame, decodeMap, htype, ok_bind, hdecode]

/-- Where a map that is read holds a key twice, an entry was put ahead of another. -/
theorem exists_doubled {entries es : List (Value × Value)} {m : ControlMessage} (hm : decodeValue (.map entries) = .ok m)
    (hes : es ∈ mapsRead (.map entries)) (htwice : ¬ (es.map Prod.fst).Nodup) : ∃ v, Doubled v (.map entries) := by
  obtain ⟨map, typeCode, -, hmap, htype, -⟩ := decodeValue_ok hm
  obtain ⟨es', hput⟩ := exists_putAhead htwice
  rcases (mem_mapsRead hmap htype).mp hes with rfl | hbelow
  · exact ⟨_, .message hput⟩
  · obtain ⟨key, items, hkey, hget, hmem⟩ := mem_mapsBelow.mp hbelow
    obtain ⟨items₁, items₂, rfl⟩ := List.append_of_mem hmem
    obtain ⟨ahead, behind, rfl, hlast⟩ := exists_last hmap hget CborMap.get_empty
    exact ⟨_, .below hmap htype hkey hlast hput⟩

theorem Doubled.twice {v : Value} {entries : List (Value × Value)} (h : Doubled v (.map entries)) :
    ∃ es ∈ mapsRead (.map entries), ¬ (es.map Prod.fst).Nodup := by
  cases h with
  | message h => exact ⟨entries, List.mem_append_left _ (List.mem_singleton_self _), h.not_nodup⟩
  | @below typeCode map key ahead behind es es' items items' hmap htype hkey hlast h =>
    refine ⟨es', (mem_mapsRead hmap htype).mpr (.inr ?_), h.not_nodup⟩
    exact mem_mapsBelow.mpr ⟨key, _, hkey, collect_get_last hmap hlast, by simp⟩

/-- A PAIR_ACCEPT, and a map that says PAIR_REJECT first and PAIR_ACCEPT
then. -/
def acceptValue : Value := .map [(.text "type", uintToValue 0x04)]

def undecidedValue : Value := .map [(.text "type", uintToValue 0x05), (.text "type", uintToValue 0x04)]

theorem mapsRead_acceptValue : mapsRead acceptValue = [[(.text "type", uintToValue 0x04)]] := by
  have htype : getUint (CborMap.empty.insert "type" (uintToValue 0x04)) "type" = .ok 0x04 :=
    getUint_uint (by rw [CborMap.get_insert, if_pos rfl]) (by decide)
  simp only [acceptValue, mapsRead, entriesOf, toCborMap, collect, htype]
  rfl

end Nxfr.Codec

/-
What a peer reads back from what was written: the offset and the parts of a
chunk payload, the messages the encoder takes, and the paths the sanitiser
leaves as they are.
-/
import Nxfr.BigEndian
import Nxfr.Sender

namespace Nxfr

/-! ## Chunk payloads -/

@[simp] theorem toBeBytes_length {n : Nat} : (toBeBytes n).length = 8 := by simp [toBeBytes]

theorem fromBeBytes_toBeBytes {n : Nat} (hn : n < 2 ^ 64) : fromBeBytes (toBeBytes n) = n :=
  BigEndian.value_bytes (show n < 256 ^ 8 by omega)

section

variable {x : Ext} {offset : Nat} {data : Bytes}

@[simp] theorem chunkPayload_length : (chunkPayload x offset data).length = 40 + data.length := by
  simp only [chunkPayload, List.length_append, toBeBytes_length, (x.sha256 data).size]

@[simp] theorem chunkPayload_offset : (chunkPayload x offset data).take 8 = toBeBytes offset := by
  rw [chunkPayload, List.append_assoc, List.take_left' toBeBytes_length]

@[simp] theorem chunkPayload_hash :
    ((chunkPayload x offset data).drop 8).take 32 = (x.sha256 data).bytes := by
  rw [chunkPayload, List.append_assoc, List.drop_left' toBeBytes_length, List.take_left' (x.sha256 data).size]

@[simp] theorem chunkPayload_data : (chunkPayload x offset data).drop 40 = data := by
  have hlen : (toBeBytes offset ++ (x.sha256 data).bytes).length = 40 := by simp [(x.sha256 data).size]
  rw [chunkPayload, List.drop_left' hlen]

end

/-! ## Control messages -/

theorem encodeControl_ok {x : Ext} (hx : x.Compact) {m : ControlMessage} (hv : m.volume ≤ 60000)
    (hm : ∀ {id type name n size manifest}, m = .transferRequest id type name n size manifest →
      manifest.length ≤ maxManifestEntries) : encodeControl x m = .ok () := by
  have hlen : ¬ x.cborLen m > controlPayloadMax := by
    have := hx m
    unfold controlPayloadMax
    omega
  unfold encodeControl
  split
  · rename_i manifest
    have := hm rfl
    rw [if_neg (by omega), if_neg hlen]
  · rw [if_neg hlen]

theorem Conn.sendControl_ok {x : Ext} {c : Conn} {m : ControlMessage} (he : encodeControl x m = .ok ())
    (hc : c.writesLeft = none) :
    c.sendControl x m = some { c with nextMessageId := c.nextMessageId + 1
                                      outbox := c.outbox ++ [controlFrame c.nextMessageId m] } := by
  simp [Conn.sendControl, Conn.write, he, hc]

/-! ## Paths -/

theorem keepComponents_eq {input : String} {cs kept : List String} (h : keepComponents input cs = .ok kept)
    (hcs : ∀ c ∈ cs, c ≠ "" ∧ c ≠ ".") : kept = cs := by
  induction cs generalizing kept with
  | nil => simpa [keepComponents] using h.symm
  | cons c cs ih =>
    have hc := hcs c (by simp)
    simp only [keepComponents] at h
    rw [if_neg (by simp [hc.1, hc.2])] at h
    split at h
    · cases h
    split at h
    · cases h
    split at h
    · cases h
    · rcases hk : keepComponents input cs with e | kept' <;> rw [hk] at h
      · cases h
      · rw [ih hk fun c' h' => hcs c' (by simp [h'])] at h
        simpa [Except.map] using h.symm

theorem splitSlash_joinSlash {cs : List String} (hne : cs ≠ []) (hcs : ∀ c ∈ cs, '/' ∉ c.toList) :
    splitSlash (joinSlash cs) = cs := by
  unfold splitSlash joinSlash
  rw [String.toList_ofList, List.splitOn_intercalate]
  · simp [List.map_map, Function.comp_def]
  · simpa using hcs
  · simpa using hne

/-- What an accepted path is. -/
theorem sanitizePath_kept {input sanitized : String} (h : sanitizePath input = .ok sanitized) :
    ∃ kept, keepComponents input (splitSlash input) = .ok kept ∧ kept ≠ [] ∧ sanitized = joinSlash kept ∧
      sanitized.utf8ByteSize ≤ maxRelativePath := by
  unfold sanitizePath at h
  dsimp only at h
  split at h
  · cases h
  split at h
  · cases h
  split at h
  · cases h
  split at h
  · cases h
  split at h
  · cases h
  split at h
  · cases h
  split at h
  · cases h
  rename_i kept hkept
  split at h
  · cases h
  split at h
  · cases h
  · rename_i hne hlen
    cases h
    exact ⟨kept, hkept, hne, rfl, by omega⟩

/-- A name the sanitiser takes it leaves as it is. -/
theorem sanitizePath_name {name sanitized : String} (hname : '/' ∉ name.toList)
    (h : sanitizePath name = .ok sanitized) : sanitized = name := by
  obtain ⟨kept, hkept, hne, rfl, _⟩ := sanitizePath_kept h
  have hsplit : splitSlash name = [name] := by
    have := splitSlash_joinSlash (List.cons_ne_nil name []) (by simpa using hname)
    simpa [joinSlash] using this
  rw [hsplit] at hkept
  have heq : kept = [name] := by
    refine keepComponents_eq hkept fun c hc => ?_
    by_contra hdot
    rw [List.mem_singleton.mp hc] at hdot
    have : name = "" ∨ name = "." := by tauto
    simp only [keepComponents, if_pos this, Except.ok.injEq] at hkept
    exact hne hkept.symm
  simp [heq, joinSlash]

theorem splitSlash_ne_nil {s : String} : splitSlash s ≠ [] := by
  simp [splitSlash, List.splitOn_ne_nil]

theorem resolveSafePath_ok {fs : Fs} {root : Path} {relative : String} (hs : sanitizePath relative = .ok relative)
    (hroot : fs.exists? root = true) : resolveSafePath fs root relative = .ok (joinPath root relative) := by
  have hne : joinPath root relative ≠ [] := by simp [joinPath, splitSlash_ne_nil]
  have hpre : root.isPrefixOf (joinPath root relative) = true := by simp [joinPath]
  obtain ⟨name, hname⟩ := Option.ne_none_iff_exists'.mp (mt List.getLast?_eq_none_iff.mp hne)
  have hlast : (joinPath root relative).dropLast ++ [name] = joinPath root relative :=
    List.dropLast_append_getLast? _ hname
  simp only [resolveSafePath, hs, canonicalize, hroot, if_true, hname]
  by_cases hex : fs.exists? (joinPath root relative) = true
  · simp [hex, Except.mapError, hpre]
  · by_cases hpar : fs.exists? (joinPath root relative).dropLast = true
    · simp [hex, hpar, hlast, hpre]
    · simp [hex, hpar, hpre]

theorem renameLast_dropLast {f : String → String} {p : Path} : (renameLast f p).dropLast = p.dropLast := by
  unfold renameLast
  split
  · rename_i h
    simp [List.getLast?_eq_none_iff.mp h]
  · simp

theorem renameLast_length {f : String → String} {p : Path} : (renameLast f p).length = p.length := by
  unfold renameLast
  split
  · rename_i h
    simp [List.getLast?_eq_none_iff.mp h]
  · rename_i name h
    have hne : p ≠ [] := by rintro rfl; simp at h
    have := List.length_pos_iff.mpr hne
    simp only [List.length_append, List.length_dropLast, List.length_singleton]
    omega

theorem resolveCollision_dropLast {now : Nat} {fs : Fs} {p : Path} :
    (resolveCollision now fs p).dropLast = p.dropLast := by
  unfold resolveCollision
  split
  · rfl
  split
  · rename_i candidate h
    obtain ⟨i, _, rfl⟩ := List.mem_map.mp (List.mem_of_find?_eq_some h)
    exact renameLast_dropLast
  · exact renameLast_dropLast

theorem resolveCollision_free {now : Nat} {fs : Fs} {p : Path} (h : fs p = none) : resolveCollision now fs p = p := by
  simp [resolveCollision, Disk.Fs.exists?, h]

theorem renameLast_append {f : String → String} {root p : Path} (hne : p ≠ []) :
    renameLast f (root ++ p) = root ++ renameLast f p := by
  obtain ⟨name, hname⟩ := Option.ne_none_iff_exists'.mp (mt List.getLast?_eq_none_iff.mp hne)
  simp [renameLast, List.getLast?_append, hname, List.dropLast_append_of_ne_nil hne]

theorem renameLast_ne {f : String → String} {p : Path} (hf : ∀ name, f name ≠ name) (hne : p ≠ []) :
    renameLast f p ≠ p := by
  obtain ⟨name, hname⟩ := Option.ne_none_iff_exists'.mp (mt List.getLast?_eq_none_iff.mp hne)
  simp only [renameLast, hname]
  intro he
  have hlast := congrArg List.getLast? he
  simp only [List.getLast?_concat, hname, Option.some.injEq] at hlast
  exact hf name hlast

/-- The two halves of a name with a dot in it. -/
theorem splitAtDot_length {name stem ext : String} (h : splitAtDot name = some (stem, ext)) :
    stem.toList.length + 1 + ext.toList.length = name.toList.length := by
  simp only [splitAtDot] at h
  split at h
  · cases h
  · rename_i hstem
    simp only [not_or] at hstem
    have hsplit := congrArg List.length (List.takeWhile_append_dropWhile (p := (· != '.')) (l := name.toList.reverse))
    have htail : (name.toList.reverse.dropWhile (· != '.')).tail.length ≠ 0 := by
      intro h0
      exact hstem.2 (by rw [List.eq_nil_of_length_eq_zero h0]; rfl)
    simp only [Option.some.injEq, Prod.mk.injEq] at h
    rw [← h.1, ← h.2]
    simp only [List.length_tail, List.length_append, List.length_reverse, String.toList_ofList] at *
    omega

theorem partName_ne (name : String) : partName name ≠ name := by
  intro he
  have hlen := congrArg (fun s => s.toList.length) he
  cases hs : splitAtDot name with
  | none =>
    simp [partName, fileStem, extension, hs] at hlen
  | some se =>
    obtain ⟨stem, ext⟩ := se
    have := splitAtDot_length hs
    simp [partName, fileStem, extension, hs] at hlen
    omega

/-- The name of last resort is another one, too. -/
theorem datedName_ne (now : Nat) (name : String) :
    fileStem name ++ "_" ++ toString now ++ ((extension name).map ("." ++ ·)).getD "" ≠ name := by
  intro he
  have hlen := congrArg (fun s => s.toList.length) he
  cases hs : splitAtDot name with
  | none =>
    simp [fileStem, extension, hs] at hlen
  | some se =>
    obtain ⟨stem, ext⟩ := se
    have := splitAtDot_length hs
    simp [fileStem, extension, hs] at hlen
    omega

/-- A path that is taken is not where the file goes. -/
theorem resolveCollision_taken {now : Nat} {fs : Fs} {p : Path} (hne : p ≠ []) (h : fs p ≠ none) :
    resolveCollision now fs p ≠ p := by
  have hex : fs.exists? p = true := by
    simpa [Disk.Fs.exists?, Option.isSome_iff_ne_none] using h
  unfold resolveCollision
  rw [hex]
  simp only [Bool.not_true, Bool.false_eq_true, if_false]
  split
  · rename_i candidate hc
    rintro rfl
    have := List.find?_some hc
    simp [hex] at this
  · exact renameLast_ne (datedName_ne now) hne

end Nxfr

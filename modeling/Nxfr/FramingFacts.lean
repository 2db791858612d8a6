/-
What the frame codec promises. A header and its 28 bytes determine each other,
and so `NxfrCodec` keeps the laws of an incremental codec: however a stream of
frames is cut into reads, the frames come out as they went in.
-/
import Nxfr.Framing

namespace Nxfr
open BigEndian (value bytes value_bytes bytes_value value_lt)

/-! ## The header -/

@[simp] theorem FrameKind.fromU8_toU8 {k : FrameKind} : FrameKind.fromU8 k.toU8 = .ok k := by cases k <;> rfl

theorem FrameKind.toU8_of_fromU8 {v : UInt8} {k : FrameKind} (h : FrameKind.fromU8 v = .ok k) : k.toU8 = v := by
  unfold fromU8 at h
  split at h
  · cases h
    symm
    assumption
  split at h
  · cases h
    symm
    assumption
  split at h
  · cases h
    symm
    assumption
  cases h

@[simp] theorem FrameHeader.serialize_length {h : FrameHeader} : h.serialize.length = 28 := by
  simp [serialize, frameMagic]

theorem byteRange_length {buf : Bytes} {i j : Nat} (hij : i ≤ j) (hj : j ≤ buf.length) : (byteRange buf i j).length = j - i := by
  rw [byteRange, List.length_take, List.length_drop]
  omega

theorem byteRange_append_drop {buf : Bytes} {i j : Nat} (hij : i ≤ j) : byteRange buf i j ++ buf.drop j = buf.drop i := by
  have hj : buf.drop j = (buf.drop i).drop (j - i) := by
    rw [List.drop_drop]
    congr 1
    omega
  rw [byteRange, hj, List.take_append_drop]

theorem byteAt_append_drop {buf : Bytes} {i : Nat} (hi : i < buf.length) : [byteAt buf i] ++ buf.drop (i + 1) = buf.drop i := by
  rw [byteAt, List.getD_eq_getElem _ _ hi, List.singleton_append, List.drop_eq_getElem_cons hi]

/-- The bytes of a header spell its fields. -/
theorem FrameHeader.ofFields_serialize {h : FrameHeader} : FrameHeader.ofFields h.kind h.serialize = h := by
  have hflags : byteRange h.serialize 6 8 = bytes 2 h.flags.toNat := rfl
  have hsession : byteRange h.serialize 8 12 = bytes 4 h.sessionId.toNat := rfl
  have hstream : byteRange h.serialize 12 16 = bytes 4 h.streamId.toNat := rfl
  have hmessage : byteRange h.serialize 16 24 = bytes 8 h.messageId.toNat := rfl
  have hpayload : byteRange h.serialize 24 28 = bytes 4 h.payloadLen.toNat := rfl
  have h16 : value (bytes 2 h.flags.toNat) = h.flags.toNat := value_bytes h.flags.toNat_lt
  have h32 : ∀ n : UInt32, value (bytes 4 n.toNat) = n.toNat := fun n => value_bytes n.toNat_lt
  have h64 : value (bytes 8 h.messageId.toNat) = h.messageId.toNat := value_bytes h.messageId.toNat_lt
  simp only [ofFields, hflags, hsession, hstream, hmessage, hpayload, h16, h32, h64, UInt16.ofNat_toNat,
    UInt32.ofNat_toNat, UInt64.ofNat_toNat]

/-- What `serialize` wrote is refused for its payload length or not at all. -/
theorem FrameHeader.parse_serialize_eq {h : FrameHeader} :
    FrameHeader.parse h.serialize = match h.validatePayloadLen with
      | .error e => .error e
      | .ok () => .ok h := by
  have hmagic : byteRange h.serialize 0 4 = frameMagic := rfl
  have hversion : byteAt h.serialize 4 = frameVersion := rfl
  have hkind : byteAt h.serialize 5 = h.kind.toU8 := rfl
  unfold parse
  rw [if_neg (by rw [serialize_length]; decide), if_neg (not_not_intro hmagic), if_neg (not_not_intro hversion), hkind]
  cases hvalid : h.validatePayloadLen with
  | error e => simp [FrameKind.fromU8_toU8, ofFields_serialize, hvalid]
  | ok _ => simp [FrameKind.fromU8_toU8, ofFields_serialize, hvalid]

/-- `parse` takes back what `serialize` wrote. -/
theorem FrameHeader.parse_serialize {h : FrameHeader} (hvalid : h.validatePayloadLen = .ok ()) :
    FrameHeader.parse h.serialize = .ok h := by
  rw [parse_serialize_eq, hvalid]

/-- A header that is parsed is valid, and is what the 28 bytes spell. -/
theorem FrameHeader.serialize_parse {buf : Bytes} {h : FrameHeader} (hlen : buf.length = 28)
    (hparse : FrameHeader.parse buf = .ok h) : h.validatePayloadLen = .ok () ∧ h.serialize = buf := by
  unfold parse at hparse
  split at hparse
  · cases hparse
  split at hparse
  · cases hparse
  rename_i hmagic
  split at hparse
  · cases hparse
  rename_i hversion
  split at hparse
  · cases hparse
  rename_i kind hkind
  split at hparse
  · cases hparse
  rename_i hvalid
  cases hparse
  refine ⟨hvalid, ?_⟩
  rw [not_not] at hmagic hversion
  have hfield : ∀ {i j : Nat}, i ≤ j → j ≤ 28 → value (byteRange buf i j) < 256 ^ (j - i) ∧
      bytes (j - i) (value (byteRange buf i j)) = byteRange buf i j := by
    intro i j hij hj
    have hl := byteRange_length hij (hlen ▸ hj)
    exact ⟨hl ▸ value_lt, bytes_value hl⟩
  obtain ⟨hflags, eflags⟩ := hfield (i := 6) (j := 8) (by omega) (by omega)
  obtain ⟨hsession, esession⟩ := hfield (i := 8) (j := 12) (by omega) (by omega)
  obtain ⟨hstream, estream⟩ := hfield (i := 12) (j := 16) (by omega) (by omega)
  obtain ⟨hmessage, emessage⟩ := hfield (i := 16) (j := 24) (by omega) (by omega)
  obtain ⟨hpayload, epayload⟩ := hfield (i := 24) (j := 28) (by omega) (by omega)
  have hend : byteRange buf 24 28 = buf.drop 24 := by
    rw [← byteRange_append_drop (show 24 ≤ 28 by omega), List.drop_eq_nil_of_le (by omega), List.append_nil]
  simp only [serialize, ofFields, FrameKind.toU8_of_fromU8 hkind, UInt16.toNat_ofNat_of_lt' hflags,
    UInt32.toNat_ofNat_of_lt' hsession, UInt32.toNat_ofNat_of_lt' hstream, UInt64.toNat_ofNat_of_lt' hmessage,
    UInt32.toNat_ofNat_of_lt' hpayload, List.append_assoc]
  rw [eflags, esession, estream, emessage, epayload, hend, byteRange_append_drop (by omega),
    byteRange_append_drop (by omega), byteRange_append_drop (by omega), byteRange_append_drop (by omega),
    byteAt_append_drop (by omega), ← hversion, byteAt_append_drop (by omega), ← hmagic, byteRange_append_drop (by omega),
    List.drop_zero]

/-- Only the first 28 bytes are looked at. -/
theorem FrameHeader.parse_take {buf : Bytes} (hlen : 28 ≤ buf.length) :
    FrameHeader.parse (buf.take 28) = FrameHeader.parse buf := by
  have hrange : ∀ {i j : Nat}, j ≤ 28 → byteRange (buf.take 28) i j = byteRange buf i j := by
    intro i j hj
    rw [byteRange, byteRange, List.drop_take, List.take_take, Nat.min_eq_left (by omega)]
  have hat : ∀ {i : Nat}, i < 28 → byteAt (buf.take 28) i = byteAt buf i := by
    intro i hi
    rw [byteAt, byteAt, List.getD_eq_getElem?_getD, List.getD_eq_getElem?_getD, List.getElem?_take_of_lt hi]
  have hfields : ∀ kind, FrameHeader.ofFields kind (buf.take 28) = FrameHeader.ofFields kind buf := by
    intro kind
    simp only [FrameHeader.ofFields, hrange (show 8 ≤ 28 by omega), hrange (show 12 ≤ 28 by omega),
      hrange (show 16 ≤ 28 by omega), hrange (show 24 ≤ 28 by omega), hrange (show 28 ≤ 28 by omega)]
  have hshort : ¬ buf.length < frameHeaderSize := Nat.not_lt.mpr hlen
  have hshort' : ¬ (buf.take 28).length < frameHeaderSize := by
    rw [List.length_take, Nat.min_eq_left hlen]
    decide
  simp only [FrameHeader.parse, hshort, hshort', if_false, hrange (show 4 ≤ 28 by omega), hat (show 4 < 28 by omega),
    hat (show 5 < 28 by omega), hfields]

/-- The payload lengths of each kind of frame. -/
def FrameHeader.LenAllowed (h : FrameHeader) : Prop := match h.kind with
  | .control => h.payloadLen.toNat ≤ 65536
  | .chunk => 41 ≤ h.payloadLen.toNat ∧ h.payloadLen.toNat ≤ 4194304
  | .keepalive => h.payloadLen.toNat = 0 ∨ h.payloadLen.toNat = 8

theorem FrameHeader.validatePayloadLen_ok_iff {h : FrameHeader} : h.validatePayloadLen = .ok () ↔ h.LenAllowed := by
  obtain ⟨kind, flags, sessionId, streamId, messageId, payloadLen⟩ := h
  cases kind with
  | control =>
    have hmax : controlPayloadLenMax.toNat = 65536 := rfl
    simp only [validatePayloadLen, LenAllowed, gt_iff_lt, UInt32.lt_iff_toNat_lt, hmax]
    split
    · simp; omega
    · simp; omega
  | chunk =>
    have hmin : chunkPayloadLenMin.toNat = 41 := rfl
    have hmax : chunkPayloadLenMax.toNat = 4194304 := rfl
    simp only [validatePayloadLen, LenAllowed, gt_iff_lt, UInt32.lt_iff_toNat_lt, hmin, hmax]
    split
    · simp; omega
    · split
      · simp; omega
      · simp; omega
  | keepalive =>
    have hmax : keepalivePayloadLenMax.toNat = 8 := rfl
    simp only [validatePayloadLen, LenAllowed, ne_eq, ← UInt32.toNat_inj, hmax, UInt32.toNat_zero]
    split
    · simp; omega
    · simp; omega

theorem FrameHeader.parse_serialize_error {h : FrameHeader} (hbad : ¬ h.LenAllowed) :
    ∃ e, FrameHeader.parse h.serialize = .error e := by
  rw [parse_serialize_eq]
  cases hvalid : h.validatePayloadLen with
  | error e => exact ⟨e, rfl⟩
  | ok u => exact absurd (validatePayloadLen_ok_iff.mp hvalid) hbad

/-- A parsed header is spelled by the first 28 bytes, whatever follows them. -/
theorem FrameHeader.parse_front {buf : Bytes} {h : FrameHeader} (hparse : FrameHeader.parse buf = .ok h) :
    h.LenAllowed ∧ h.serialize = buf.take 28 := by
  have hlen : 28 ≤ buf.length := by
    by_contra hshort
    rw [parse, if_pos (show buf.length < frameHeaderSize from Nat.lt_of_not_le hshort)] at hparse
    cases hparse
  rw [← parse_take hlen] at hparse
  obtain ⟨hvalid, hspelled⟩ := serialize_parse (by rw [List.length_take]; omega) hparse
  exact ⟨validatePayloadLen_ok_iff.mp hvalid, hspelled⟩

/-- **Headers and their bytes determine each other.** A header is read back as
it was written if its kind allows its payload length, and refused otherwise;
and the bytes accepted are exactly those of such headers followed by
anything. -/
theorem FrameHeader.parse_serialize_exact :
    (∀ h : FrameHeader, (h.LenAllowed → FrameHeader.parse h.serialize = .ok h) ∧
      (¬ h.LenAllowed → ∃ e, FrameHeader.parse h.serialize = .error e)) ∧
    (∀ (buf : Bytes) (h : FrameHeader), FrameHeader.parse buf = .ok h → h.serialize = buf.take 28) ∧
    ∀ (buf : Bytes) (h : FrameHeader),
      FrameHeader.parse buf = .ok h ↔ h.LenAllowed ∧ ∃ rest, buf = h.serialize ++ rest := by
  refine ⟨fun h => ⟨fun hallowed => ?_, parse_serialize_error⟩, fun buf h hparse => (parse_front hparse).2, ?_⟩
  · exact parse_serialize (validatePayloadLen_ok_iff.mpr hallowed)
  · intro buf h
    constructor
    · intro hparse
      obtain ⟨hallowed, hspelled⟩ := parse_front hparse
      exact ⟨hallowed, buf.drop 28, by rw [hspelled, List.take_append_drop]⟩
    · intro ⟨hallowed, rest, hbuf⟩
      subst hbuf
      rw [← parse_take (by rw [List.length_append, serialize_length]; omega), List.take_left' serialize_length]
      exact parse_serialize (validatePayloadLen_ok_iff.mpr hallowed)

/-! ## The codec -/

/-- A frame a peer may send: its header passes `validate_payload_len` and
says how long the payload is. -/
def WellFramed (f : NxfrFrame) : Prop := f.1.validatePayloadLen = .ok () ∧ f.1.payloadLen.toNat = f.2.length

instance (f : NxfrFrame) : Decidable (WellFramed f) :=
  inferInstanceAs (Decidable (f.1.validatePayloadLen = .ok () ∧ f.1.payloadLen.toNat = f.2.length))

/-- The next 28 bytes are a header. -/
def StartsWithHeader (src : Bytes) : Prop :=
  ∃ h : FrameHeader, h.validatePayloadLen = .ok () ∧ h.serialize = src.take 28

/-- Bytes that are no header are refused, and stay where they are. -/
theorem NxfrCodec.decode_refuses {src : Bytes} (hlen : 28 ≤ src.length) (hbad : ¬ StartsWithHeader src) :
    ∃ e, decode src = (.error e, src) := by
  unfold decode
  rw [if_neg (by omega)]
  cases hparse : FrameHeader.parse (src.take 28) with
  | error e => exact ⟨e, rfl⟩
  | ok h => exact absurd ⟨h, FrameHeader.serialize_parse (by rw [List.length_take]; omega) hparse⟩ hbad

/-- With a header in front, the decoder waits for the payload or takes the
frame off. -/
theorem NxfrCodec.decode_header {h : FrameHeader} (hvalid : h.validatePayloadLen = .ok ()) {rest : Bytes} :
    decode (h.serialize ++ rest) =
      if rest.length < h.payloadLen.toNat then (.ok none, h.serialize ++ rest)
      else (.ok (some (h, rest.take h.payloadLen.toNat)), rest.drop h.payloadLen.toNat) := by
  have hlen : (h.serialize ++ rest).length = 28 + rest.length := by rw [List.length_append, FrameHeader.serialize_length]
  unfold decode
  rw [if_neg (by omega), List.take_left' FrameHeader.serialize_length, List.drop_left' FrameHeader.serialize_length,
    FrameHeader.parse_serialize hvalid]
  simp only [hlen, Nat.add_lt_add_iff_left]

/-- A buffer that holds a header but not all of its frame. -/
theorem NxfrCodec.decode_short {h : FrameHeader} (hvalid : h.validatePayloadLen = .ok ()) {payload buf rest : Bytes}
    (hpayload : h.payloadLen.toNat = payload.length) (hbuf : buf ++ rest = h.serialize ++ payload) (hrest : rest ≠ []) :
    decode buf = (.ok none, buf) := by
  by_cases hlen : buf.length < 28
  · rw [decode, if_pos hlen]
  obtain ⟨got, rfl⟩ : ∃ got, buf = h.serialize ++ got := by
    refine ⟨buf.drop 28, ?_⟩
    have hhead := congrArg (List.take 28) hbuf
    rw [List.take_append_of_le_length (by omega), List.take_left' FrameHeader.serialize_length] at hhead
    rw [← hhead, List.take_append_drop]
  rw [List.append_assoc, List.append_cancel_left_eq] at hbuf
  have hpos := List.length_pos_of_ne_nil hrest
  rw [decode_header hvalid, if_pos]
  rw [hpayload, ← hbuf, List.length_append]
  omega

theorem NxfrCodec.decode_encode {f : NxfrFrame} (hf : WellFramed f) {rest : Bytes} :
    decode (encode f ++ rest) = (.ok (some f), rest) := by
  obtain ⟨hvalid, hpayload⟩ := hf
  rw [encode, List.append_assoc, decode_header hvalid, if_neg (by rw [List.length_append]; omega),
    List.take_left' hpayload.symm, List.drop_left' hpayload.symm]

@[simp] theorem nxfrCodec_encode : nxfrCodec.encode = NxfrCodec.encode := rfl

@[simp] theorem nxfrCodec_decode : nxfrCodec.decode = NxfrCodec.decode := rfl

theorem nxfrCodec_lawful : nxfrCodec.Lawful WellFramed where
  idle := rfl
  whole := by
    intro f hf rest
    rw [nxfrCodec_decode, nxfrCodec_encode]
    exact NxfrCodec.decode_encode hf
  short := by
    intro f hf buf rest hbuf hrest
    rw [nxfrCodec_decode]
    rw [nxfrCodec_encode] at hbuf
    exact NxfrCodec.decode_short hf.1 hf.2 hbuf hrest

/-- **The cuts do not show.** However the bytes of well-framed frames are cut
into reads, decoding as they arrive yields these frames in order and leaves
nothing; and bytes that are no header are refused where they stand. -/
theorem frames_received {frames : List NxfrFrame} (hframes : ∀ f ∈ frames, WellFramed f) {reads : List Bytes}
    (hreads : reads.flatten = frames.flatMap NxfrCodec.encode) :
    nxfrCodec.receive reads [] = (frames, none, []) ∧
      ∀ src, 28 ≤ src.length → ¬ StartsWithHeader src → ∃ e, NxfrCodec.decode src = (.error e, src) :=
  ⟨nxfrCodec_lawful.receive_eq hframes hreads, fun _ hlen hbad => NxfrCodec.decode_refuses hlen hbad⟩

/-- A keepalive without a payload and one with eight bytes. -/
def pingFrames : List NxfrFrame :=
  [({ kind := .keepalive, flags := 0, sessionId := 7, streamId := 0, messageId := 1, payloadLen := 0 }, []),
    ({ kind := .keepalive, flags := 1, sessionId := 7, streamId := 0, messageId := 2, payloadLen := 8 },
      [1, 2, 3, 4, 5, 6, 7, 8])]

/-- The two arrive one byte at a time. -/
theorem frames_received_bytewise :
    nxfrCodec.receive ((pingFrames.flatMap NxfrCodec.encode).map fun b => [b]) [] = (pingFrames, none, []) :=
  (frames_received (by decide +kernel) (by decide +kernel)).1

end Nxfr

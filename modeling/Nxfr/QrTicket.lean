/-
The ticket in a QR code: `NxfrQrTicketParser` reads it, and
`DesertModeOrchestrator.buildDesertQrPayload` writes the one of a hotspot.

A written ticket is read back whole, since nothing that `URLEncoder` leaves can
be taken for a delimiter. A read ticket is not always sound: the port is any
number that fits an `Int`, and the address is any text that
`InetAddress.getByName` resolves to a private address, a host name too.

`URLEncoder`, `URLDecoder` and `InetAddress.getByName` are parameters.
-/
import Nxfr.CodeUnits

namespace Nxfr.QrTicket

open CodeUnits

inductive InetAddress
  | inet4 (b0 b1 b2 b3 : UInt8)
  | inet6 (bytes : List UInt8)
  deriving DecidableEq

structure DesertTicket where
  ssid : Text
  pw : Text
  ip : Text
  port : Int
  deriving DecidableEq

inductive QrScanResult
  | connectTicket (deviceId addr : Text)
  | desertTicket (ticket : DesertTicket)
  | webUploadLink
  | invalid
  deriving DecidableEq

/-- RFC 1918 and link-local. -/
def isPrivate : InetAddress → Bool
  | .inet4 b0 b1 _ _ =>
    if b0 = 10 then true
    else if b0 = 172 ∧ 16 ≤ b1 ∧ b1 ≤ 31 then true
    else if b0 = 192 ∧ b1 = 168 then true
    else if b0 = 169 ∧ b1 = 254 then true
    else false
  | .inet6 _ => false

/-- What of the map of parameters a key was last set to. -/
def param (params : List (Text × Text)) (key : String) : Option Text := params.reverse.lookup (text key)

section

variable (decode : Text → Option Text) (getByName : Text → Option InetAddress)

def isPrivateIp (ip : Text) : Bool := match getByName ip with
  | none => false
  | some addr => isPrivate addr

/-- The parameters of a query, decoded, unless `URLDecoder` throws. -/
def readParams (queryStr : Text) : Option (List (Text × Text)) :=
  ((queryStr.splitOn 38).filterMap (cut 61)).mapM fun (key, value) => (decode value).map fun v => (key, v)

/-- The parameters of a Desert Mode ticket. -/
def desertParams (trimmed : Text) : Option (List (Text × Text)) :=
  if startsFold (text "nxfr://desert") trimmed then
    if substringAfter 63 trimmed ≠ [] then readParams decode (substringAfter 63 trimmed) else none
  else none

def ticketPort (params : List (Text × Text)) : Int := ((param params "port").bind toIntOrNull).getD 17394

def readDesert (trimmed : Text) : Option DesertTicket := match desertParams decode trimmed with
  | none => none
  | some params => match param params "ssid", param params "ip" with
    | some ssid, some ip =>
      if ssid ≠ [] ∧ ip ≠ [] ∧ isPrivateIp getByName ip then
        some ⟨ssid, (param params "pw").getD [], ip, ticketPort params⟩
      else none
    | _, _ => none

/-- The direct connect ticket, whose parameters are not decoded. -/
def readConnect (trimmed : Text) : Option (Text × Text) :=
  if startsFold (text "nxfr://connect") trimmed ∧ substringAfter 63 trimmed ≠ [] then
    let pairs := ((substringAfter 63 trimmed).splitOn 38).filterMap (cut 61)
    match param pairs "did", param pairs "addr" with
    | some did, some addr => if did ≠ [] ∧ addr ≠ [] then some (did, addr) else none
    | _, _ => none
  else none

def parse (content : Text) : QrScanResult :=
  if startsFold (text "https://") (trim content) ∨ startsFold (text "http://") (trim content) then .webUploadLink
  else match readDesert decode getByName (trim content) with
    | some ticket => .desertTicket ticket
    | none => match readConnect (trim content) with
      | some (did, addr) => .connectTicket did addr
      | none => .invalid

variable (encode : Text → Text)

def buildDesertQrPayload (ssid : Text) (passphrase : Option Text) (hostIp : Text) : Text :=
  text "nxfr://desert?ssid=" ++ encode ssid ++ text "&pw=" ++ encode (passphrase.getD []) ++ text "&ip=" ++
    encode hostIp ++ text "&port=17394"

end

/-! ## What a ticket is to be -/

/-- The textual form of an IPv4 address. -/
def dotted (b0 b1 b2 b3 : UInt8) : Text :=
  decimal b0.toNat ++ 46 :: (decimal b1.toNat ++ 46 :: (decimal b2.toNat ++ 46 :: decimal b3.toNat))

/-- The text is that of a private or link-local IPv4 address. -/
def PrivateIpv4 (ip : Text) : Prop :=
  ∃ b0 b1 b2 b3, ip = dotted b0 b1 b2 b3 ∧ isPrivate (.inet4 b0 b1 b2 b3)

structure Sound (ticket : DesertTicket) : Prop where
  ssid : ticket.ssid ≠ []
  ip : PrivateIpv4 ticket.ip
  port : 1 ≤ ticket.port ∧ ticket.port ≤ 65535

/-- `InetAddress.getByName` resolves literals to themselves. -/
def ResolvesLiterals (getByName : Text → Option InetAddress) : Prop :=
  ∀ b0 b1 b2 b3, getByName (dotted b0 b1 b2 b3) = some (.inet4 b0 b1 b2 b3)

/-- `URLEncoder` and `URLDecoder`: inverse on well-formed strings, the delimiters
of a query escaped, and nothing decoded where nothing is escaped. -/
structure UrlCodec (encode : Text → Text) (decode : Text → Option Text) : Prop where
  inverse : ∀ s, WellFormed s → decode (encode s) = some s
  escapes : ∀ s, ∀ c ∈ encode s, c ≠ 38 ∧ c ≠ 61 ∧ c ≠ 63
  plain : ∀ s, (∀ c ∈ s, c ≠ 37 ∧ c ≠ 43) → decode s = some s

/-- What the parameters of a scanned string are to be: where the checks let a
ticket through, its address is written as an IPv4 address, and its port, if it is
a number, is that of a socket. -/
def PlainParams (decode : Text → Option Text) (getByName : Text → Option InetAddress) (content : Text) : Prop :=
  ∀ params ssid ip, desertParams decode (trim content) = some params → param params "ssid" = some ssid → ssid ≠ [] →
    param params "ip" = some ip → ip ≠ [] → isPrivateIp getByName ip →
      (∃ b0 b1 b2 b3, ip = dotted b0 b1 b2 b3) ∧
        ∀ n, (param params "port").bind toIntOrNull = some n → 1 ≤ n ∧ n ≤ 65535

section

variable {encode : Text → Text} {decode : Text → Option Text} {getByName : Text → Option InetAddress} {s t : Text}
  {content : Text} {ticket : DesertTicket}

theorem startsFold_cons {p c : UInt16} {pat : Text} (h : startsFold (p :: pat) (c :: s) = true) : foldsTo p c = true :=
  (Bool.and_eq_true_iff.mp h).1

/-- A ticket is no link. -/
theorem not_link (h : startsFold (text "nxfr://desert") s = true) :
    ¬ (startsFold (text "https://") s = true ∨ startsFold (text "http://") s = true) := by
  cases s with
  | nil => cases h
  | cons c s =>
    have hn : foldsTo 110 c = true := startsFold_cons h
    have hcases : c = 110 ∨ c = 78 := by
      simp only [foldsTo, Bool.or_eq_true, Bool.and_eq_true, beq_iff_eq] at hn
      rcases hn with hn | ⟨-, ((hn | hn) | hn) | hn⟩
      · exact .inl hn
      · refine .inr ?_
        calc c = c + 32 - 32 := (UInt16.add_sub_cancel c 32).symm
          _ = 78 := by rw [hn]; rfl
      · exact absurd hn.1 (by decide)
      · exact absurd hn.1 (by decide)
      · exact absurd hn.1 (by decide)
    intro hlink
    have hh : foldsTo 104 c = true := hlink.elim startsFold_cons startsFold_cons
    rcases hcases with rfl | rfl
    · exact absurd hh (by decide)
    · exact absurd hh (by decide)

theorem isPrivateIp_dotted (h : ResolvesLiterals getByName) (b0 b1 b2 b3 : UInt8) :
    isPrivateIp getByName (dotted b0 b1 b2 b3) = isPrivate (.inet4 b0 b1 b2 b3) := by
  rw [isPrivateIp, h]

theorem starts_of_desertParams {params : List (Text × Text)} (h : desertParams decode s = some params) :
    startsFold (text "nxfr://desert") s = true := by
  unfold desertParams at h
  split at h
  · assumption
  · cases h

/-- When a Desert Mode ticket is read, and what it holds. -/
theorem readDesert_iff : readDesert decode getByName s = some ticket ↔
    ∃ params, desertParams decode s = some params ∧ param params "ssid" = some ticket.ssid ∧
      param params "ip" = some ticket.ip ∧ ticket.ssid ≠ [] ∧ ticket.ip ≠ [] ∧ isPrivateIp getByName ticket.ip ∧
      ticket.pw = (param params "pw").getD [] ∧ ticket.port = ticketPort params := by
  constructor
  · intro h
    unfold readDesert at h
    split at h
    · cases h
    · rename_i params hparams
      split at h
      · rename_i ssid ip hssid hip
        split at h
        · rename_i hchecks
          cases h
          exact ⟨params, hparams, hssid, hip, hchecks.1, hchecks.2.1, hchecks.2.2, rfl, rfl⟩
        · cases h
      · cases h
  · intro ⟨params, hparams, hssid, hip, hne, hipne, hprivate, hpw, hport⟩
    obtain ⟨ssid, pw, ip, port⟩ := ticket
    simp only at hssid hip hne hipne hprivate hpw hport
    rw [readDesert, hparams]
    simp only [hssid, hip]
    rw [if_pos ⟨hne, hipne, hprivate⟩, hpw, hport]

theorem parse_desert_iff : parse decode getByName content = .desertTicket ticket ↔
    readDesert decode getByName (trim content) = some ticket := by
  unfold parse
  constructor
  · intro h
    split at h
    · cases h
    · split at h
      · rename_i ticket' hread
        cases h
        exact hread
      · split at h
        · cases h
        · cases h
  · intro h
    obtain ⟨params, hparams, -⟩ := readDesert_iff.mp h
    rw [if_neg (not_link (starts_of_desertParams hparams)), h]

/-- A ticket read from the parameters of the code is sound exactly where they are
plain. -/
theorem sound_iff (hliterals : ResolvesLiterals getByName) (hprivate : isPrivateIp getByName ticket.ip)
    (hssid : ticket.ssid ≠ []) : Sound ticket ↔
      (∃ b0 b1 b2 b3, ticket.ip = dotted b0 b1 b2 b3) ∧ 1 ≤ ticket.port ∧ ticket.port ≤ 65535 := by
  constructor
  · intro h
    obtain ⟨b0, b1, b2, b3, hip, -⟩ := h.ip
    exact ⟨⟨b0, b1, b2, b3, hip⟩, h.port⟩
  · intro ⟨⟨b0, b1, b2, b3, hip⟩, hport⟩
    refine ⟨hssid, ⟨b0, b1, b2, b3, hip, ?_⟩, hport⟩
    rwa [hip, isPrivateIp_dotted hliterals] at hprivate

theorem ticketPort_iff {params : List (Text × Text)} : (1 ≤ ticketPort params ∧ ticketPort params ≤ 65535) ↔
    ∀ n, (param params "port").bind toIntOrNull = some n → 1 ≤ n ∧ n ≤ 65535 := by
  unfold ticketPort
  cases (param params "port").bind toIntOrNull with
  | none => simp
  | some n => simp

variable (decode) in
/-- **When the tickets are sound.** -/
theorem tickets_sound_iff (hliterals : ResolvesLiterals getByName) (content : Text) :
    (∀ ticket, parse decode getByName content = .desertTicket ticket → Sound ticket) ↔
      PlainParams decode getByName content := by
  constructor
  · intro h params ssid ip hparams hssid hne hip hipne hprivate
    have hsound := h ⟨ssid, (param params "pw").getD [], ip, ticketPort params⟩
      (parse_desert_iff.mpr (readDesert_iff.mpr ⟨params, hparams, hssid, hip, hne, hipne, hprivate, rfl, rfl⟩))
    obtain ⟨hliteral, hport⟩ := (sound_iff hliterals hprivate hne).mp hsound
    exact ⟨hliteral, ticketPort_iff.mp hport⟩
  · intro h ticket hparse
    obtain ⟨params, hparams, hssid, hip, hne, hipne, hprivate, -, hport⟩ :=
      readDesert_iff.mp (parse_desert_iff.mp hparse)
    obtain ⟨hliteral, hnumber⟩ := h params ticket.ssid ticket.ip hparams hssid hne hip hipne hprivate
    exact (sound_iff hliterals hprivate hne).mpr ⟨hliteral, hport ▸ ticketPort_iff.mpr hnumber⟩

/-! ## Reading what was written -/

/-- One parameter of a query. -/
def pair (encode : Text → Text) (key : String) (value : Text) : Text := text key ++ 61 :: encode value

theorem payload_eq (ssid : Text) (passphrase : Option Text) (hostIp : Text) :
    buildDesertQrPayload encode ssid passphrase hostIp = text "nxfr://desert" ++ 63 ::
      (pair encode "ssid" ssid ++ 38 :: (pair encode "pw" (passphrase.getD []) ++ 38 ::
        (pair encode "ip" hostIp ++ 38 :: pair id "port" (text "17394")))) := by
  have hstart : text "nxfr://desert?ssid=" = text "nxfr://desert" ++ 63 :: (text "ssid" ++ [61]) := rfl
  have hpw : text "&pw=" = 38 :: (text "pw" ++ [61]) := rfl
  have hip : text "&ip=" = 38 :: (text "ip" ++ [61]) := rfl
  have hport : text "&port=17394" = 38 :: (text "port" ++ 61 :: text "17394") := rfl
  simp only [buildDesertQrPayload, pair, hstart, hpw, hip, hport, id, List.append_assoc, List.cons_append,
    List.nil_append]

theorem pair_plain (hcodec : UrlCodec encode decode) {key : String} (hkey : 38 ∉ text key) (value : Text) :
    38 ∉ pair encode key value := by
  intro h
  rcases List.mem_append.mp h with h | h
  · exact hkey h
  · rcases List.mem_cons.mp h with h | h
    · cases h
    · exact (hcodec.escapes value 38 h).1 rfl

theorem cut_pair {key : String} (hkey : 61 ∉ text key) (value : Text) :
    cut 61 (pair encode key value) = some (text key, encode value) := cut_append hkey

/-- The written parameters, read back. -/
theorem readParams_written (hcodec : UrlCodec encode decode) {ssid pw hostIp : Text} (hssid : WellFormed ssid)
    (hpw : WellFormed pw) (hip : WellFormed hostIp) :
    readParams decode (pair encode "ssid" ssid ++ 38 :: (pair encode "pw" pw ++ 38 ::
      (pair encode "ip" hostIp ++ 38 :: pair id "port" (text "17394")))) =
        some [(text "ssid", ssid), (text "pw", pw), (text "ip", hostIp), (text "port", text "17394")] := by
  have hport : decode (text "17394") = some (text "17394") := by
    refine hcodec.plain _ fun c hc => ?_
    have hall : (text "17394").all (fun c => c != 37 && c != 43) = true := rfl
    simpa using List.all_eq_true.mp hall c hc
  rw [readParams, List.splitOn_append_cons_self_of_not_mem (pair_plain hcodec (by decide) _),
    List.splitOn_append_cons_self_of_not_mem (pair_plain hcodec (by decide) _),
    List.splitOn_append_cons_self_of_not_mem (pair_plain hcodec (by decide) _), List.splitOn_eq_singleton (by decide)]
  simp only [List.filterMap_cons, List.filterMap_nil, cut_pair (by decide : 61 ∉ text "ssid"),
    cut_pair (by decide : 61 ∉ text "pw"), cut_pair (by decide : 61 ∉ text "ip"),
    cut_pair (by decide : 61 ∉ text "port"), List.mapM_cons, List.mapM_nil, hcodec.inverse ssid hssid,
    hcodec.inverse pw hpw, hcodec.inverse hostIp hip, id, hport, Option.map_some]
  rfl

theorem wellFormed_ascii (h : ∀ c ∈ s, c.toNat < 0x80) : WellFormed s := by
  induction s with
  | nil => rfl
  | cons c s ih =>
    have hc := h c (by simp)
    have hhigh : ¬ 0xD800 ≤ c := by
      rw [UInt16.le_iff_toNat_le]
      have : (0xD800 : UInt16).toNat = 0xD800 := rfl
      omega
    have hlow : ¬ 0xDC00 ≤ c := by
      rw [UInt16.le_iff_toNat_le]
      have : (0xDC00 : UInt16).toNat = 0xDC00 := rfl
      omega
    unfold WellFormed
    simp only [hhigh, hlow, false_and, if_false, decide_false, Bool.false_and, Bool.not_false, Bool.true_and]
    exact ih fun d hd => h d (by simp [hd])

theorem dotted_ascii (b0 b1 b2 b3 : UInt8) : ∀ c ∈ dotted b0 b1 b2 b3, c.toNat < 0x80 := by
  intro c hc
  simp only [dotted, List.mem_append, List.mem_cons] at hc
  have hdigit : ∀ {n : Nat}, c ∈ decimal n → c.toNat < 0x80 := fun h => by
    have := mem_decimal h
    omega
  have hdot : c = 46 → c.toNat < 0x80 := fun h => by rw [h]; decide
  rcases hc with h | h | h | h | h | h | h
  · exact hdigit h
  · exact hdot h
  · exact hdigit h
  · exact hdot h
  · exact hdigit h
  · exact hdot h
  · exact hdigit h

variable (encode decode getByName) in
/-- **A written ticket is read back.** -/
theorem ticket_read_back (hcodec : UrlCodec encode decode) (hliterals : ResolvesLiterals getByName) (ssid : Text)
    (passphrase : Option Text) (hostIp : Text) (hne : ssid ≠ []) (hssid : WellFormed ssid)
    (hpass : ∀ p, passphrase = some p → WellFormed p) (hip : PrivateIpv4 hostIp) :
    parse decode getByName (buildDesertQrPayload encode ssid passphrase hostIp) =
      .desertTicket ⟨ssid, passphrase.getD [], hostIp, 17394⟩ := by
  obtain ⟨b0, b1, b2, b3, rfl, hprivate⟩ := hip
  have hpw : WellFormed (passphrase.getD []) := by
    cases passphrase with
    | none => rfl
    | some p => exact hpass p rfl
  have hquestion : 63 ∉ text "nxfr://desert" := by decide
  have hparams : desertParams decode (buildDesertQrPayload encode ssid passphrase (dotted b0 b1 b2 b3)) =
      some [(text "ssid", ssid), (text "pw", passphrase.getD []), (text "ip", dotted b0 b1 b2 b3),
        (text "port", text "17394")] := by
    rw [payload_eq, desertParams, if_pos startsFold_append, substringAfter_append hquestion, if_pos (by simp [pair]),
      readParams_written hcodec hssid hpw (wellFormed_ascii (dotted_ascii b0 b1 b2 b3))]
  have htrim : trim (buildDesertQrPayload encode ssid passphrase (dotted b0 b1 b2 b3)) =
      buildDesertQrPayload encode ssid passphrase (dotted b0 b1 b2 b3) := by
    refine trim_eq_self ?_ ?_
    · intro _
      rfl
    · intro _
      simp only [buildDesertQrPayload]
      rw [List.getLast_append_of_ne_nil _ (by decide)]
      rfl
  rw [parse_desert_iff, htrim, readDesert_iff]
  refine ⟨_, hparams, rfl, rfl, hne, ?_, ?_, rfl, rfl⟩
  · simp [dotted, decimal_ne_nil]
  · rw [isPrivateIp_dotted hliterals, hprivate]

end

/-! ## Samples -/

def isSafe (c : UInt16) : Bool :=
  (48 ≤ c && c < 58) || (65 ≤ c && c < 91) || (97 ≤ c && c < 123) || c == 45 || c == 46 || c == 95 || c == 42

def hexUnit (n : Nat) : UInt16 := if n < 10 then (48 + n).toUInt16 else (55 + n).toUInt16

def unhex (c : UInt16) : Option Nat :=
  if 48 ≤ c ∧ c < 58 then some (c.toNat - 48)
  else if 65 ≤ c ∧ c < 71 then some (c.toNat - 55)
  else if 97 ≤ c ∧ c < 103 then some (c.toNat - 87)
  else none

/-- `URLEncoder` on ASCII. -/
def sampleEncodeUnit (c : UInt16) : Text :=
  if 0x80 ≤ c ∨ isSafe c then [c] else if c = 32 then [43] else [37, hexUnit (c.toNat / 16), hexUnit (c.toNat % 16)]

def sampleEncode (s : Text) : Text := s.flatMap sampleEncodeUnit

/-- `URLDecoder` on ASCII. -/
def sampleDecode : Text → Option Text
  | [] => some []
  | c :: s =>
    if c = 43 then (sampleDecode s).map (32 :: ·)
    else if c = 37 then match s with
      | a :: b :: s => match unhex a, unhex b with
        | some hi, some lo => (sampleDecode s).map ((16 * hi + lo).toUInt16 :: ·)
        | _, _ => none
      | _ => none
    else (sampleDecode s).map (c :: ·)

def sampleOctet (s : Text) : Option UInt8 := ((List.range 256).find? fun n => decimal n = s).map (·.toUInt8)

/-- Literals, and the host name of a printer. -/
def sampleGetByName (host : Text) : Option InetAddress :=
  if host = text "printer.lan" then some (.inet4 192 168 1 9)
  else match host.splitOn 46 with
    | [a, b, c, d] => match sampleOctet a, sampleOctet b, sampleOctet c, sampleOctet d with
      | some b0, some b1, some b2, some b3 => some (.inet4 b0 b1 b2 b3)
      | _, _, _, _ => none
    | _ => none

theorem unhex_hexUnit : ∀ n < 16, unhex (hexUnit n) = some n := by decide

theorem sampleEncodeUnit_escapes {c d : UInt16} (h : d ∈ sampleEncodeUnit c) :
    0x80 ≤ d ∨ isSafe d ∨ d = 43 ∨ d = 37 := by
  have hhex : ∀ n < 16, isSafe (hexUnit n) := by decide
  have hlt := c.toNat_lt
  unfold sampleEncodeUnit at h
  split at h
  · rename_i hplain
    rw [List.mem_singleton] at h
    subst h
    exact hplain.imp_right .inl
  · rename_i hplain
    rw [not_or, UInt16.not_le, UInt16.lt_iff_toNat_lt] at hplain
    have hsmall : c.toNat < 128 := hplain.1
    split at h
    · simp_all
    · simp only [List.mem_cons, List.not_mem_nil, or_false] at h
      rcases h with rfl | rfl | rfl
      · exact .inr (.inr (.inr rfl))
      · exact .inr (.inl (hhex _ (by omega)))
      · exact .inr (.inl (hhex _ (by omega)))

theorem sampleDecode_plain {c : UInt16} {s : Text} (hplus : c ≠ 43) (hpercent : c ≠ 37) :
    sampleDecode (c :: s) = (sampleDecode s).map (c :: ·) := by
  cases s with
  | nil => simp only [sampleDecode, if_neg hplus, if_neg hpercent]
  | cons a s => cases s with
    | nil => simp only [sampleDecode, if_neg hplus, if_neg hpercent]
    | cons b s => rw [sampleDecode, if_neg hplus, if_neg hpercent]

theorem sampleDecode_plus {s : Text} : sampleDecode (43 :: s) = (sampleDecode s).map (32 :: ·) := by
  cases s with
  | nil => rfl
  | cons a s => cases s with
    | nil => rfl
    | cons b s => rfl

theorem sampleDecode_unit {c : UInt16} {s : Text} :
    sampleDecode (sampleEncodeUnit c ++ s) = (sampleDecode s).map (c :: ·) := by
  unfold sampleEncodeUnit
  split
  · rename_i hplain
    have hplus : c ≠ 43 := by
      intro h
      subst h
      exact absurd hplain (by decide)
    have hpercent : c ≠ 37 := by
      intro h
      subst h
      exact absurd hplain (by decide)
    rw [List.singleton_append, sampleDecode_plain hplus hpercent]
  · rename_i hplain
    rw [not_or, UInt16.not_le, UInt16.lt_iff_toNat_lt] at hplain
    have hsmall : c.toNat < 128 := hplain.1
    split
    · rename_i hspace
      rw [hspace, List.singleton_append, sampleDecode_plus]
    · have hvalue : (16 * (c.toNat / 16) + c.toNat % 16).toUInt16 = c := by
        rw [Nat.div_add_mod]
        exact UInt16.ofNat_toNat
      rw [List.cons_append, List.cons_append, List.cons_append, List.nil_append, sampleDecode, if_neg (by decide),
        if_pos rfl, unhex_hexUnit _ (by omega), unhex_hexUnit _ (by omega)]
      simp only [hvalue]

theorem sample_codec : UrlCodec sampleEncode sampleDecode := by
  have hinverse : ∀ s, sampleDecode (sampleEncode s) = some s := by
    intro s
    induction s with
    | nil => rfl
    | cons c s ih => rw [sampleEncode, List.flatMap_cons, sampleDecode_unit, ← sampleEncode, ih, Option.map_some]
  refine ⟨fun s _ => hinverse s, ?_, ?_⟩
  · intro s d hd
    obtain ⟨c, -, hd⟩ := List.mem_flatMap.mp hd
    have hplain := sampleEncodeUnit_escapes hd
    refine ⟨?_, ?_, ?_⟩ <;>
    · intro h
      subst h
      exact absurd hplain (by decide)
  · intro s h
    induction s with
    | nil => rfl
    | cons c s ih =>
      obtain ⟨hpercent, hplus⟩ := h c (by simp)
      rw [sampleDecode_plain hplus hpercent, ih fun d hd => h d (by simp [hd]), Option.map_some]

theorem sampleOctet_decimal (b : UInt8) : sampleOctet (decimal b.toNat) = some b := by
  have hlt := b.toNat_lt
  have hfind : ((List.range 256).find? fun n => decimal n = decimal b.toNat) = some b.toNat := by
    rw [List.find?_range_eq_some]
    refine ⟨by simp, by simpa using hlt, ?_⟩
    intro m hm
    have hne : decimal m ≠ decimal b.toNat := fun heq => by
      have := decimal_injective heq
      omega
    rw [decide_eq_false hne, Bool.not_false]
  rw [sampleOctet, hfind, Option.map_some]
  exact congrArg some UInt8.ofNat_toNat

theorem dotted_ne_name {b0 b1 b2 b3 : UInt8} : dotted b0 b1 b2 b3 ≠ text "printer.lan" := by
  intro h
  have hletter : (112 : UInt16) ∈ dotted b0 b1 b2 b3 := by
    rw [h]
    decide
  have hno : ∀ {n : Nat}, 112 ∉ decimal n := by
    intro n h
    exact absurd (mem_decimal h).2 (by decide)
  simp [dotted, hno] at hletter

theorem sample_literals : ResolvesLiterals sampleGetByName := by
  intro b0 b1 b2 b3
  have hdot : ∀ {n : Nat}, 46 ∉ decimal n := by
    intro n h
    have := mem_decimal h
    exact absurd this.1 (by decide)
  rw [sampleGetByName, if_neg dotted_ne_name, dotted, List.splitOn_append_cons_self_of_not_mem hdot,
    List.splitOn_append_cons_self_of_not_mem hdot, List.splitOn_append_cons_self_of_not_mem hdot,
    List.splitOn_eq_singleton hdot]
  simp only [sampleOctet_decimal]

/-- A network with delimiters in its name and in its passphrase. -/
theorem ticket_read_back_sample :
    UrlCodec sampleEncode sampleDecode ∧ ResolvesLiterals sampleGetByName ∧
      parse sampleDecode sampleGetByName
        (buildDesertQrPayload sampleEncode (text "Tom & Ann=100%") (some (text "a+b?c d")) (dotted 192 168 43 1)) =
          .desertTicket ⟨text "Tom & Ann=100%", text "a+b?c d", dotted 192 168 43 1, 17394⟩ := by
  have hne : text "Tom & Ann=100%" ≠ [] := by decide
  have hssid : WellFormed (text "Tom & Ann=100%") := by decide +kernel
  have hpass : ∀ p, some (text "a+b?c d") = some p → WellFormed p := by
    intro p hp
    rw [← Option.some.inj hp]
    decide +kernel
  have hip : PrivateIpv4 (dotted 192 168 43 1) := ⟨192, 168, 43, 1, rfl, rfl⟩
  exact ⟨sample_codec, sample_literals, ticket_read_back sampleEncode sampleDecode sampleGetByName sample_codec
    sample_literals (text "Tom & Ann=100%") (some (text "a+b?c d")) (dotted 192 168 43 1) hne hssid hpass hip⟩

/-- A ticket with the address of a hotspot and a port of its own. -/
theorem tickets_sound_sample :
    ResolvesLiterals sampleGetByName ∧ ∀ ticket, parse sampleDecode sampleGetByName
      (text "nxfr://desert?ssid=a&ip=10.0.0.1&port=8080") = .desertTicket ticket → Sound ticket := by
  refine ⟨sample_literals, (tickets_sound_iff sampleDecode sample_literals _).mpr ?_⟩
  have hread : desertParams sampleDecode (trim (text "nxfr://desert?ssid=a&ip=10.0.0.1&port=8080")) =
      some [(text "ssid", text "a"), (text "ip", dotted 10 0 0 1), (text "port", text "8080")] := by decide +kernel
  intro params ssid ip hparams _ _ hip _ _
  have hwritten := Option.some.inj (hread.symm.trans hparams)
  subst hwritten
  have hdotted : some (dotted 10 0 0 1) = some ip := by
    rw [← hip]
    decide +kernel
  refine ⟨⟨10, 0, 0, 1, (Option.some.inj hdotted).symm⟩, ?_⟩
  intro n hn
  have hport : some 8080 = some n := by
    rw [← hn]
    decide +kernel
  rw [← Option.some.inj hport]
  decide

theorem sample_large_port : parse sampleDecode sampleGetByName
    (text "nxfr://desert?ssid=a&ip=10.0.0.1&port=70000") = .desertTicket ⟨text "a", [], dotted 10 0 0 1, 70000⟩ := by
  decide +kernel

theorem sample_host_name : parse sampleDecode sampleGetByName
    (text "nxfr://desert?ssid=a&ip=printer.lan") = .desertTicket ⟨text "a", [], text "printer.lan", 17394⟩ := by
  decide +kernel

/-- A port that no socket has, and the name of a host in the place of an address. -/
theorem tickets_unsound :
    ¬ (∀ ticket, parse sampleDecode sampleGetByName (text "nxfr://desert?ssid=a&ip=10.0.0.1&port=70000") =
        .desertTicket ticket → Sound ticket) ∧
      ¬ ∀ ticket, parse sampleDecode sampleGetByName (text "nxfr://desert?ssid=a&ip=printer.lan") =
        .desertTicket ticket → Sound ticket := by
  constructor
  · intro h
    exact absurd (h _ sample_large_port).port.2 (by decide)
  · intro h
    obtain ⟨b0, b1, b2, b3, hip, -⟩ := (h _ sample_host_name).ip
    exact dotted_ne_name hip.symm

end Nxfr.QrTicket

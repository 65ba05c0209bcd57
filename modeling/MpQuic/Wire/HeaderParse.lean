import MpQuic.Library.Parser
import MpQuic.Wire.Length

namespace MpQuic.Wire

open MpQuic.Library List

inductive HeaderParseError where
  | eof
  | errPacketWithUnknownVersion
  | errReceivedTruncatedConnectionID
  | errInvalidConnectionID
  | invalidVersionNegotiationPacket
  deriving DecidableEq, Repr

abbrev HeaderParser := Parser UInt8 HeaderParseError

def versionUnknown : Int := -2

def tagDigit (v position : Nat) : Nat :=
  (v / 2 ^ position % 2 ^ 8 + 2 ^ 32 - 48) % 2 ^ 32

def versionTagToNumber (v : Nat) : Int :=
  ((tagDigit v 8 * 100 + tagDigit v 16 * 10 + tagDigit v 24) % 2 ^ 32 : Nat)

-- A header that was received. A version negotiation packet lists the versions of the server.
structure ReceivedHeader extends PublicHeader where
  supportedVersions : List Int
  deriving DecidableEq, Repr

def packetNumberLenOfBits (bits : UInt8) : Nat :=
  if bits = 0x30 then 6
  else if bits = 0x20 then 4
  else if bits = 0x10 then 2
  else 1

def readHeaderUint (order : ByteOrder) (length : Nat) : HeaderParser Nat :=
  order.value <$> Parser.take .eof length

def readVersions : Nat → HeaderParser (List Int)
  | 0 => pure []
  | count + 1 => do
      let versionTag ← readHeaderUint .littleEndian 4
      let later ← readVersions count
      return versionTagToNumber versionTag :: later

def parseHeaderEnd (header : PublicHeader) (packetSentBy : Perspective) (version : Int) :
    HeaderParser ReceivedHeader := do
  let versionSent := !header.resetFlag && header.versionFlag
  let versionTag ← Parser.optional versionSent 0 (readHeaderUint .littleEndian 4)
  let versionNumber := if versionSent then versionTagToNumber versionTag else 0
  let version := if versionSent then versionNumber else version
  let pathID ← Parser.optional header.multipathFlag 0 (UInt8.toNat <$> Parser.next .eof)
  let packetNumber ← Parser.optional (header.hasPacketNumber packetSentBy) 0
    (readHeaderUint (getByteOrder version) header.packetNumberLen)
  return { header with
    versionNumber := versionNumber, pathID := pathID, packetNumber := packetNumber
    supportedVersions := [] }

def parseVersionNegotiation (header : PublicHeader) : HeaderParser ReceivedHeader := do
  let left ← Parser.remaining
  Parser.check (left % 4 = 0) .invalidVersionNegotiationPacket
  let supportedVersions ← readVersions (left / 4)
  return { header with supportedVersions := supportedVersions }

def headerOfFlags (publicFlagByte : UInt8) (packetSentBy : Perspective) : PublicHeader :=
  let header : PublicHeader :=
    { connectionID := 0
      pathID := 0
      versionFlag := decide (publicFlagByte &&& 0x01 > 0)
      resetFlag := decide (publicFlagByte &&& 0x02 > 0)
      truncateConnectionID := decide (publicFlagByte &&& 0x08 = 0)
      multipathFlag := decide (publicFlagByte &&& 0x40 > 0)
      packetNumberLen := 0
      packetNumber := 0
      versionNumber := 0
      diversificationNonce := [] }
  if header.hasPacketNumber packetSentBy then
    { header with packetNumberLen := packetNumberLenOfBits (publicFlagByte &&& 0x30) }
  else header

-- A packet of the server with the version or the reset flag has no nonce, whatever its
-- flags say.
def parsePublicHeader (packetSentBy : Perspective) (version : Int) :
    HeaderParser ReceivedHeader := do
  let publicFlagByte ← Parser.next .eof
  let header := headerOfFlags publicFlagByte packetSentBy
  Parser.check (!(version = versionUnknown && !(header.versionFlag || header.resetFlag)))
    .errPacketWithUnknownVersion
  Parser.check (!(header.truncateConnectionID && packetSentBy = .client))
    .errReceivedTruncatedConnectionID
  let connectionID ← Parser.optional (!header.truncateConnectionID) 0
    (readHeaderUint .littleEndian 8)
  Parser.check (header.truncateConnectionID || connectionID ≠ 0) .errInvalidConnectionID
  let diversificationNonce ← Parser.optional
    (packetSentBy = .server && publicFlagByte &&& 0x04 > 0 && !header.versionFlag &&
      !header.resetFlag) [] (Parser.take .eof 32)
  let header :=
    { header with connectionID := connectionID, diversificationNonce := diversificationNonce }
  if !header.resetFlag && header.versionFlag && packetSentBy = .server then
    parseVersionNegotiation header
  else parseHeaderEnd header packetSentBy version

-- A header that is sent with a regular packet: only a client sends its version, only a server
-- a nonce, and only a server leaves out the connection ID.
structure PublicHeader.Regular (h : PublicHeader) (version : Int) (pers : Perspective) : Prop where
  noReset : h.resetFlag = false
  length : h.packetNumberLen ∈ [1, 2, 4, 6]
  versionSent : h.versionFlag = true → pers = .client ∧ h.versionNumber = version
  versionKept : h.versionFlag = false → h.versionNumber = 0
  nonce : h.diversificationNonce ≠ [] → pers = .server ∧ h.diversificationNonce.length = 32
  path : h.pathID < 2 ^ 8
  noPath : h.multipathFlag = false → h.pathID = 0
  id_pos : 0 < h.connectionID
  id_lt : h.connectionID < 2 ^ 64
  truncated : h.truncateConnectionID = true → pers = .server

-- What a receiver can know of a header: the connection ID if it was sent, and the lowest bytes
-- of the packet number.
def PublicHeader.received (h : PublicHeader) : ReceivedHeader :=
  { h with
    connectionID := if h.truncateConnectionID then 0 else h.connectionID
    packetNumber := h.packetNumber % 2 ^ (8 * h.packetNumberLen)
    supportedVersions := [] }

section Numbers

variable (order : ByteOrder)

theorem parses_readHeaderUint (length value : Nat) :
    Parses (readHeaderUint order length) (order.bytes length value) (value % 256 ^ length) := by
  have htake := Parses.take HeaderParseError.eof (order.bytes length value)
  rw [ByteOrder.length_bytes] at htake
  rw [← ByteOrder.value_bytes order length value]
  exact Parses.map order.value htake

theorem tagDigit_eq {a b c : Nat} (ha : a < 10) (hb : b < 10) (hc : c < 10) :
    let tag := (81 + (a + 48) * 2 ^ 8 + (b + 48) * 2 ^ 16 + (c + 48) * 2 ^ 24) % 2 ^ 32
    tagDigit tag 8 = a ∧ tagDigit tag 16 = b ∧ tagDigit tag 24 = c := by
  dsimp only
  rw [Nat.mod_eq_of_lt (by omega)]
  unfold tagDigit
  refine ⟨by omega, by omega, by omega⟩

theorem versionTagToNumber_versionNumberToTag {version : Int} (hpos : 0 ≤ version)
    (hlt : version < 1000) : versionTagToNumber (versionNumberToTag version) = version := by
  obtain ⟨v, rfl⟩ := Int.eq_ofNat_of_zero_le hpos
  have hv : ((v : Int) % 2 ^ 32).toNat = v := by omega
  have hdigits : v / 100 % 10 * 100 + v / 10 % 10 * 10 + v % 10 = v := by omega
  obtain ⟨hundreds, tens, ones⟩ := tagDigit_eq (Nat.mod_lt (v / 100) (by norm_num : 0 < 10))
    (Nat.mod_lt (v / 10) (by norm_num : 0 < 10)) (Nat.mod_lt v (by norm_num : 0 < 10))
  simp only [versionTagToNumber, versionNumberToTag, hv, hundreds, tens, ones, hdigits]
  rw [Nat.mod_eq_of_lt (by omega)]

end Numbers

section RoundTrip

variable {h : PublicHeader} {version : Int} {pers : Perspective}

theorem PublicHeader.Regular.hasPacketNumber (hr : h.Regular version pers) :
    h.hasPacketNumber pers = true := by
  unfold PublicHeader.hasPacketNumber
  rw [hr.noReset]
  cases hflag : h.versionFlag with
  | false => rfl
  | true =>
    rw [(hr.versionSent hflag).1]
    rfl

theorem PublicHeader.Regular.versionFlag_eq_false (hr : h.Regular version pers)
    (hserver : pers = .server) : h.versionFlag = false := by
  cases hflag : h.versionFlag with
  | false => rfl
  | true =>
    have hclient := (hr.versionSent hflag).1
    rw [hserver] at hclient
    cases hclient

theorem PublicHeader.Regular.not_negotiation (hr : h.Regular version pers) :
    (h.versionFlag && decide (pers = .server)) = false := by
  by_cases hserver : pers = .server
  · rw [hr.versionFlag_eq_false hserver]
    rfl
  · simp [hserver]

theorem PublicHeader.Regular.validLength (hr : h.Regular version pers) :
    PublicHeader.validLength h.packetNumberLen = true := by
  have hlength := hr.length
  simp only [mem_cons, not_mem_nil, or_false] at hlength
  rcases hlength with hl | hl | hl | hl <;> rw [hl] <;> rfl

theorem flags_spec (pers : Perspective) :
    ∀ (versionFlag truncate nonce multipath : Bool), ∀ length ∈ [1, 2, 4, 6],
      let h : PublicHeader := ⟨0, 0, versionFlag, false, truncate, multipath, length, 0, 0,
        if nonce then [0] else []⟩
      h.hasPacketNumber pers = true →
      let flags := h.publicFlagByte pers
      decide (flags &&& 0x01 > 0) = versionFlag ∧ decide (flags &&& 0x02 > 0) = false ∧
        decide (flags &&& 0x08 = 0) = truncate ∧ decide (flags &&& 0x04 > 0) = nonce ∧
        packetNumberLenOfBits (flags &&& 0x30) = length ∧
        decide (flags &&& 0x40 > 0) = multipath := by
  cases pers <;> decide +kernel

section

variable (hr : h.Regular version pers)

include hr

theorem PublicHeader.Regular.publicFlagByte_spec :
    decide (h.publicFlagByte pers &&& 0x04 > 0) = decide (h.diversificationNonce.length > 0) ∧
      headerOfFlags (h.publicFlagByte pers) pers =
        { h with
          connectionID := 0, pathID := 0, packetNumber := 0, versionNumber := 0
          diversificationNonce := [] } := by
  have hnumber : PublicHeader.hasPacketNumber
      ⟨0, 0, h.versionFlag, false, h.truncateConnectionID, h.multipathFlag, 0, 0, 0, []⟩ pers =
      true := by
    rw [← hr.hasPacketNumber]
    unfold PublicHeader.hasPacketNumber
    rw [hr.noReset]
  obtain ⟨hversion, hreset, htruncate, hnonce, hlength, hmultipath⟩ := flags_spec pers h.versionFlag
    h.truncateConnectionID (decide (h.diversificationNonce.length > 0)) h.multipathFlag
    h.packetNumberLen hr.length hnumber
  -- The flags do not depend on the bytes of the nonce.
  have hflags : h.publicFlagByte pers = PublicHeader.publicFlagByte ⟨0, 0, h.versionFlag, false,
      h.truncateConnectionID, h.multipathFlag, h.packetNumberLen, 0, 0,
      if decide (h.diversificationNonce.length > 0) then [0] else []⟩ pers := by
    unfold PublicHeader.publicFlagByte PublicHeader.hasPacketNumber
    rw [hr.noReset]
    cases h.diversificationNonce <;> simp
  rw [← hflags] at hversion hreset htruncate hnonce hlength hmultipath
  refine ⟨hnonce, ?_⟩
  unfold headerOfFlags
  simp only [hversion, hreset, htruncate, hlength, hmultipath, hnumber, if_true, hr.noReset]

theorem PublicHeader.Regular.parses_version (hpos : 0 ≤ version)
    (hlt : version < 1000) :
    ∃ versionTag, Parses (Parser.optional h.versionFlag 0 (readHeaderUint .littleEndian 4))
        (if h.versionFlag && pers = .client then
          ByteOrder.littleEndian.bytes 4 (versionNumberToTag h.versionNumber) else []) versionTag ∧
      (if h.versionFlag then versionTagToNumber versionTag else 0) = h.versionNumber ∧
      (if h.versionFlag then h.versionNumber else version) = version := by
  cases hflag : h.versionFlag with
  | false => exact ⟨0, Parses.absent _ 0, (hr.versionKept hflag).symm, rfl⟩
  | true =>
    obtain ⟨rfl, hversion⟩ := hr.versionSent hflag
    have htag : versionNumberToTag version % 256 ^ 4 = versionNumberToTag version :=
      Nat.mod_eq_of_lt (Nat.mod_lt _ (by norm_num))
    have hread := parses_readHeaderUint .littleEndian 4 (versionNumberToTag version)
    rw [htag] at hread
    have hback := versionTagToNumber_versionNumberToTag hpos hlt
    rw [hversion]
    exact ⟨versionNumberToTag version, Parses.present 0 hread, hback, rfl⟩

theorem PublicHeader.Regular.parses_pathID :
    Parses (Parser.optional h.multipathFlag 0 (UInt8.toNat <$> Parser.next HeaderParseError.eof))
      (if h.multipathFlag then [UInt8.ofNat h.pathID] else []) h.pathID := by
  cases hflag : h.multipathFlag with
  | false =>
    rw [hr.noPath hflag]
    exact Parses.absent _ 0
  | true =>
    have hread := Parses.map UInt8.toNat
      (Parses.next HeaderParseError.eof (UInt8.ofNat h.pathID))
    rw [UInt8.toNat_ofNat_of_lt' hr.path] at hread
    exact Parses.present 0 hread

theorem PublicHeader.Regular.parses_parseHeaderEnd
    (hpos : 0 ≤ version) (hlt : version < 1000) :
    Parses (parseHeaderEnd { h with
        connectionID := if h.truncateConnectionID then 0 else h.connectionID
        pathID := 0, packetNumber := 0, versionNumber := 0 } pers version)
      ((if h.versionFlag && pers = .client then
        ByteOrder.littleEndian.bytes 4 (versionNumberToTag h.versionNumber) else []) ++
        ((if h.multipathFlag then [UInt8.ofNat h.pathID] else []) ++
          (getByteOrder version).bytes h.packetNumberLen h.packetNumber))
      h.received := by
  obtain ⟨versionTag, hversion, hnumber, horder⟩ := hr.parses_version hpos hlt
  have hhas := hr.hasPacketNumber
  unfold PublicHeader.hasPacketNumber at hhas
  unfold parseHeaderEnd PublicHeader.hasPacketNumber
  dsimp only
  rw [hhas, hr.noReset, Bool.not_false, Bool.true_and]
  apply Parses.bind hversion
  rw [hnumber, horder]
  apply Parses.bind hr.parses_pathID
  apply Parses.last (Parses.present 0 (parses_readHeaderUint _ _ h.packetNumber))
  have hreceived : h.received = ⟨{ h with
      connectionID := if h.truncateConnectionID then 0 else h.connectionID
      packetNumber := h.packetNumber % 256 ^ h.packetNumberLen, resetFlag := false }, []⟩ := by
    unfold PublicHeader.received
    rw [Nat.pow_mul, hr.noReset]
  rw [hreceived]
  exact Parses.pure _

theorem PublicHeader.Regular.parses_connectionID :
    Parses (Parser.optional (!h.truncateConnectionID) 0 (readHeaderUint .littleEndian 8))
      (if h.truncateConnectionID then [] else ByteOrder.littleEndian.bytes 8 h.connectionID)
      (if h.truncateConnectionID then 0 else h.connectionID) := by
  cases h.truncateConnectionID with
  | true => exact Parses.absent _ 0
  | false =>
    have hread := parses_readHeaderUint .littleEndian 8 h.connectionID
    rw [Nat.mod_eq_of_lt (by have := hr.id_lt; omega)] at hread
    exact Parses.present 0 hread

theorem PublicHeader.Regular.parses_nonce :
    Parses (Parser.optional (decide (pers = .server) && decide (h.diversificationNonce.length > 0) &&
        !h.versionFlag && !false) [] (Parser.take HeaderParseError.eof 32))
      h.diversificationNonce h.diversificationNonce := by
  by_cases hnone : h.diversificationNonce = []
  · rw [hnone]
    have hfalse : (decide (pers = .server) && decide (([] : List UInt8).length > 0) &&
        !h.versionFlag && !false) = false := by simp
    rw [hfalse]
    exact Parses.absent _ []
  · obtain ⟨hserver, hlength⟩ := hr.nonce hnone
    have hflag := hr.versionFlag_eq_false hserver
    have htake := Parses.take HeaderParseError.eof h.diversificationNonce
    rw [hlength] at htake
    rw [hserver, hflag, hlength]
    exact Parses.present [] htake

-- The writer puts the version in front of the nonce and the parser reads it behind, but no
-- header has both.
theorem PublicHeader.Regular.write_eq :
    h.write version pers = .ok (h.publicFlagByte pers ::
      ((if h.truncateConnectionID then [] else ByteOrder.littleEndian.bytes 8 h.connectionID) ++
      (h.diversificationNonce ++
      ((if h.versionFlag && pers = .client then
        ByteOrder.littleEndian.bytes 4 (versionNumberToTag h.versionNumber)
      else []) ++ ((if h.multipathFlag then [UInt8.ofNat h.pathID] else []) ++
      (getByteOrder version).bytes h.packetNumberLen h.packetNumber))))) := by
  have hnonce : (decide (h.diversificationNonce.length > 0) &&
      decide (h.diversificationNonce.length ≠ 32)) = false := by
    by_cases hnone : h.diversificationNonce = []
    · simp [hnone]
    · simp [(hr.nonce hnone).2]
  have hswap : (if h.versionFlag && pers = .client then
      ByteOrder.littleEndian.bytes 4 (versionNumberToTag h.versionNumber) else []) ++
        h.diversificationNonce =
      h.diversificationNonce ++ if h.versionFlag && pers = .client then
        ByteOrder.littleEndian.bytes 4 (versionNumberToTag h.versionNumber) else [] := by
    by_cases hnone : h.diversificationNonce = []
    · simp [hnone]
    · simp [hr.versionFlag_eq_false (hr.nonce hnone).1]
  unfold PublicHeader.write
  rw [hr.hasPacketNumber, hr.noReset, hr.validLength, hnonce]
  simp only [Bool.and_false, Bool.false_eq_true, Bool.not_true, if_false, if_true]
  rw [append_assoc _ _ h.diversificationNonce, hswap]
  simp only [append_assoc, cons_append, nil_append]

theorem PublicHeader.Regular.getLength_eq {bytes : List UInt8}
    (hw : h.write version pers = .ok bytes) : h.getLength pers = .ok bytes.length := by
  have hsome : ∃ length, h.getLength pers = .ok length := by
    unfold PublicHeader.getLength
    rw [hr.noReset, hr.not_negotiation, hr.validLength, Bool.and_false, Bool.not_true, Bool.and_false]
    exact ⟨_, rfl⟩
  obtain ⟨length, hl⟩ := hsome
  rw [hl, PublicHeader.length_write hw hl]

theorem PublicHeader.Regular.parses_write (hpos : 0 ≤ version)
    (hlt : version < 1000) :
    ∃ bytes, h.write version pers = .ok bytes ∧
      Parses (parsePublicHeader pers version) bytes h.received := by
  obtain ⟨hnonce, hheader⟩ := hr.publicFlagByte_spec
  refine ⟨_, hr.write_eq, ?_⟩
  unfold parsePublicHeader
  apply Parses.bind_cons (Parses.next _ _)
  rw [hheader, hnonce]
  dsimp only
  rw [hr.noReset]
  have hknown : decide (version = versionUnknown) = false := by
    rw [decide_eq_false_iff_not]
    unfold versionUnknown
    omega
  have htruncated : (h.truncateConnectionID && decide (pers = .client)) = false := by
    cases ht : h.truncateConnectionID with
    | false => rfl
    | true =>
      rw [hr.truncated ht]
      rfl
  have hid : (h.truncateConnectionID ||
      decide ((if h.truncateConnectionID then 0 else h.connectionID) ≠ 0)) = true := by
    cases h.truncateConnectionID with
    | true => rfl
    | false => simpa using Nat.ne_of_gt hr.id_pos
  apply Parses.bind_nil (Parses.check _ (by rw [hknown]; rfl))
  apply Parses.bind_nil (Parses.check _ (by rw [htruncated]; rfl))
  apply Parses.bind hr.parses_connectionID
  apply Parses.bind_nil (Parses.check _ hid)
  apply Parses.bind hr.parses_nonce
  rw [Bool.not_false, Bool.true_and, hr.not_negotiation]
  have hend := hr.parses_parseHeaderEnd hpos hlt
  rw [hr.noReset] at hend
  exact hend

end

end RoundTrip

end MpQuic.Wire

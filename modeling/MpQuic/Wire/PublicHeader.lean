import MpQuic.Wire.Write

namespace MpQuic.Wire

open MpQuic.Library

inductive Perspective where
  | server
  | client
  deriving DecidableEq, Repr

inductive HeaderError where
  | errResetAndVersionFlagSet
  | errGetLengthNotForVersionNegotiation
  | errPacketNumberLenNotSet
  | invalidDiversificationNonceLength
  deriving DecidableEq, Repr

structure PublicHeader where
  connectionID : Nat
  pathID : Nat
  versionFlag : Bool
  resetFlag : Bool
  truncateConnectionID : Bool
  multipathFlag : Bool
  packetNumberLen : Nat
  packetNumber : Nat
  versionNumber : Int
  diversificationNonce : List UInt8
  deriving DecidableEq, Repr

-- The tag of a version is the letter Q with three decimal digits.
def versionNumberToTag (version : Int) : Nat :=
  let v := (version % 2 ^ 32).toNat
  (81 + (v / 100 % 10 + 48) * 2 ^ 8 + (v / 10 % 10 + 48) * 2 ^ 16 + (v % 10 + 48) * 2 ^ 24) %
    2 ^ 32

namespace PublicHeader

def hasPacketNumber (h : PublicHeader) (packetSentBy : Perspective) : Bool :=
  if h.resetFlag then false
  else if h.versionFlag && packetSentBy = .server then false
  else true

def validLength (packetNumberLen : Nat) : Bool :=
  packetNumberLen = 1 || packetNumberLen = 2 || packetNumberLen = 4 || packetNumberLen = 6

def getLength (h : PublicHeader) (pers : Perspective) : Except HeaderError Nat :=
  if h.versionFlag && h.resetFlag then .error .errResetAndVersionFlagSet
  else if h.versionFlag && pers = .server then .error .errGetLengthNotForVersionNegotiation
  else if h.hasPacketNumber pers && !validLength h.packetNumberLen then
    .error .errPacketNumberLenNotSet
  else
    .ok (1 + (if h.hasPacketNumber pers then h.packetNumberLen else 0) +
      (if h.truncateConnectionID then 0 else 8) + (if h.versionFlag then 4 else 0) +
      h.diversificationNonce.length + if h.multipathFlag then 1 else 0)

def publicFlagByte (h : PublicHeader) (pers : Perspective) : UInt8 :=
  let flags : UInt8 := 0
  let flags := if h.versionFlag then flags ||| 0x01 else flags
  let flags := if h.resetFlag then flags ||| 0x02 else flags
  let flags := if h.truncateConnectionID then flags else flags ||| 0x08
  let flags := if h.diversificationNonce.length > 0 then flags ||| 0x04 else flags
  let flags :=
    if h.hasPacketNumber pers then
      if h.packetNumberLen = 2 then flags ||| 0x10
      else if h.packetNumberLen = 4 then flags ||| 0x20
      else if h.packetNumberLen = 6 then flags ||| 0x30
      else flags
    else flags
  if h.multipathFlag then flags ||| 0x40 else flags

-- The connection ID and the version are always written in little endian.
def write (h : PublicHeader) (version : Int) (pers : Perspective) :
    Except HeaderError (List UInt8) :=
  if h.versionFlag && h.resetFlag then .error .errResetAndVersionFlagSet
  else if h.diversificationNonce.length > 0 && h.diversificationNonce.length ≠ 32 then
    .error .invalidDiversificationNonceLength
  else if h.hasPacketNumber pers && !validLength h.packetNumberLen then
    .error .errPacketNumberLenNotSet
  else
    .ok ([h.publicFlagByte pers] ++
      (if h.truncateConnectionID then [] else ByteOrder.littleEndian.bytes 8 h.connectionID) ++
      (if h.versionFlag && pers = .client then
        ByteOrder.littleEndian.bytes 4 (versionNumberToTag h.versionNumber)
      else []) ++
      h.diversificationNonce ++ (if h.multipathFlag then [UInt8.ofNat h.pathID] else []) ++
      (if h.hasPacketNumber pers then
        (getByteOrder version).bytes h.packetNumberLen h.packetNumber
      else []))

theorem length_le_of_ite {condition : Prop} [Decidable condition] {bytes : List UInt8} {bound : Nat}
    (h : condition → bytes.length ≤ bound) :
    (if condition then bytes else []).length ≤ bound := by
  by_cases hc : condition
  · rw [if_pos hc]
    exact h hc
  · rw [if_neg hc]
    exact Nat.zero_le bound

theorem length_write_le {h : PublicHeader} {version : Int} {pers : Perspective}
    {bytes : List UInt8} (hw : h.write version pers = .ok bytes) : bytes.length ≤ 52 := by
  unfold write at hw
  split at hw
  · cases hw
  split at hw
  · cases hw
  next hnonce =>
  split at hw
  · cases hw
  next hlen =>
  cases hw
  have hn : h.diversificationNonce.length ≤ 32 := by
    simp only [Bool.and_eq_true, decide_eq_true_eq, not_and, gt_iff_lt, ne_eq, not_not] at hnonce
    omega
  have hc : (if h.truncateConnectionID then []
      else ByteOrder.littleEndian.bytes 8 h.connectionID).length ≤ 8 := by
    cases h.truncateConnectionID <;> simp
  have hv : (if (h.versionFlag && decide (pers = .client)) = true then
      ByteOrder.littleEndian.bytes 4 (versionNumberToTag h.versionNumber) else []).length ≤ 4 := by
    apply length_le_of_ite
    simp
  have hm : (if h.multipathFlag = true then [UInt8.ofNat h.pathID] else []).length ≤ 1 := by
    apply length_le_of_ite
    simp
  have hp : (if h.hasPacketNumber pers = true then
      (getByteOrder version).bytes h.packetNumberLen h.packetNumber else []).length ≤ 6 := by
    apply length_le_of_ite
    intro hnumber
    rw [ByteOrder.length_bytes]
    simp only [hnumber, validLength, Bool.true_and, Bool.not_eq_true', Bool.not_eq_false,
      Bool.or_eq_true, decide_eq_true_eq] at hlen
    omega
  simp only [List.length_append, List.length_cons, List.length_nil]
  omega

end PublicHeader

end MpQuic.Wire

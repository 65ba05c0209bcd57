import MpQuic.Library.Parser
import MpQuic.Wire.Write

namespace MpQuic.Wire

open MpQuic.Library

-- The errors of the `Parse` functions. The input that ends too early is one of them.
inductive ParseError where
  | eof
  | dataLenTooLarge
  | dataOverflowsMaximumOffset
  | emptyStreamFrameNoFin
  | errInvalidAckRanges
  | errInvalidFirstAckRange
  | reasonPhraseTooLong
  | invalidLeastUnackedDelta
  | errUnknownIPVersion
  | errTooManyPaths
  deriving DecidableEq, Repr

abbrev FrameParser := Parser UInt8 ParseError

def readByte : FrameParser UInt8 :=
  Parser.next .eof

def readUintN (order : ByteOrder) (length : Nat) : FrameParser Nat := do
  let bytes ← Parser.take .eof length
  return order.value bytes

def ufloat16Value (val : Nat) : Nat :=
  if val < 2 ^ 12 then val
  else
    let exponent := val / 2 ^ 11 - 1
    (val - exponent * 2 ^ 11) * 2 ^ exponent

def readUfloat16 (order : ByteOrder) : FrameParser Nat := do
  let val ← readUintN order 2
  return ufloat16Value val

-- Without a length the frame takes the rest of the packet.
def parseStreamFrame (version : Int) : FrameParser StreamFrame := do
  let order := getByteOrder version
  let typeByte ← readByte
  let finBit := decide (typeByte &&& 0x40 > 0)
  let dataLenPresent := decide (typeByte &&& 0x20 > 0)
  let offsetLen := ((typeByte &&& 0x1c) >>> 2).toNat
  let offsetLen := if offsetLen ≠ 0 then offsetLen + 1 else offsetLen
  let streamIDLen := ((typeByte &&& 0x3) + 1).toNat
  let streamID ← readUintN order streamIDLen
  let offset ← readUintN order offsetLen
  let dataLen ← Parser.optional dataLenPresent 0 (readUintN order 2)
  Parser.check (dataLen ≤ maxPacketSize) .dataLenTooLarge
  let left ← Parser.remaining
  let data ← Parser.take .eof (if dataLenPresent then dataLen else left % 2 ^ 16)
  Parser.check (¬(offset + data.length) % 2 ^ 64 < offset) .dataOverflowsMaximumOffset
  Parser.check (finBit || data.length ≠ 0) .emptyStreamFrameNoFin
  return ⟨streamID, finBit, dataLenPresent, offset, data⟩

def lengthOfBits (bits : UInt8) : Nat :=
  if bits = 0 then 1 else 2 * bits.toNat

def largestAckedLen (flags : UInt8) : Nat :=
  lengthOfBits ((flags &&& 0x0C) >>> 2)

def missingSequenceNumberDeltaLen (flags : UInt8) : Nat :=
  lengthOfBits (flags &&& 0x03)

def parseBlocks (order : ByteOrder) (deltaLen : Nat) : Nat → FrameParser (List AckBlock)
  | 0 => pure []
  | count + 1 => do
      let gap ← readByte
      let length ← readUintN order deltaLen
      let later ← parseBlocks order deltaLen count
      return ⟨gap.toNat, length⟩ :: later

-- The variables of the loop over the blocks. The range that was read last comes first.
structure BlockState where
  ackRanges : List AckRange
  inLongBlock : Bool
  lastRangeComplete : Bool
  deriving DecidableEq, Repr

-- A block without received packets is continued by the next one.
def addBlock (st : BlockState) (block : AckBlock) : BlockState :=
  match st.ackRanges with
  | [] => st
  | lastAckRange :: before =>
    if st.inLongBlock then
      { ackRanges :=
          ⟨sub64 lastAckRange.first (block.gap + block.length),
            sub64 lastAckRange.last block.gap⟩ :: before
        inLongBlock := block.length = 0
        lastRangeComplete := st.lastRangeComplete || block.length > 0 }
    else
      let last := sub64 (sub64 lastAckRange.first block.gap) 1
      { ackRanges := ⟨(sub64 last block.length + 1) % 2 ^ 64, last⟩ :: lastAckRange :: before
        inLongBlock := block.length = 0
        lastRangeComplete := block.length > 0 }

-- The ranges that the blocks stand for. An incomplete range at the end is dropped.
def rangesOfBlocks (largestAcked ackBlockLength : Nat) (blocks : List AckBlock) :
    List AckRange :=
  let st := blocks.foldl addBlock
    ⟨[⟨(sub64 largestAcked ackBlockLength + 1) % 2 ^ 64, largestAcked⟩], false, false⟩
  (if st.lastRangeComplete then st.ackRanges else st.ackRanges.drop 1).reverse

def parseAckBlocks (order : ByteOrder) (hasMissingRanges : Bool)
    (numAckBlocks largestAcked deltaLen : Nat) : FrameParser AckBlocks := do
  let ackBlockLength ← readUintN order deltaLen
  Parser.check (!(largestAcked > 0 && ackBlockLength < 1)) .errInvalidFirstAckRange
  Parser.check (ackBlockLength ≤ largestAcked) .errInvalidAckRanges
  let blocks ← Parser.optional hasMissingRanges [] (parseBlocks order deltaLen numAckBlocks)
  let ackRanges :=
    if hasMissingRanges then rangesOfBlocks largestAcked ackBlockLength blocks else []
  let lowestAcked :=
    if hasMissingRanges then (ackRanges.getLast?.map AckRange.first).getD 0
    else if largestAcked = 0 then 0
    else sub64 (largestAcked + 1) ackBlockLength
  Parser.check (AckBlocks.validateAckRanges ⟨largestAcked, lowestAcked, ackRanges⟩)
    .errInvalidAckRanges
  return ⟨largestAcked, lowestAcked, ackRanges⟩

def parseNumBlocks (hasMissingRanges : Bool) : FrameParser Nat := do
  let numAckBlocks ← Parser.optional hasMissingRanges 0 (UInt8.toNat <$> readByte)
  Parser.check (!(hasMissingRanges && numAckBlocks = 0)) .errInvalidAckRanges
  return numAckBlocks

def parseAckFrame (version : Int) : FrameParser AckFrame := do
  let order := getByteOrder version
  let typeByte ← readByte
  let hasMissingRanges := decide (typeByte &&& 0x20 = 0x20)
  let pathID ← Parser.optional (typeByte &&& 0x10 = 0x10) 0 (UInt8.toNat <$> readByte)
  let largestAcked ← readUintN order (largestAckedLen typeByte)
  let delay ← readUfloat16 order
  let numAckBlocks ← parseNumBlocks hasMissingRanges
  let blocks ← parseAckBlocks order hasMissingRanges numAckBlocks largestAcked
    (missingSequenceNumberDeltaLen typeByte)
  let numTimestamp ← readByte
  -- the timestamps are skipped: five bytes for the first one, three for each other
  let _ ← Parser.take .eof
    (if numTimestamp > 0 then 1 + 4 + (numTimestamp.toNat - 1) * (1 + 2) else 0)
  return { blocks with pathID := pathID, delayTime := delay * 1000 }

def parseClosePathFrame (version : Int) : FrameParser ClosePathFrame := do
  let order := getByteOrder version
  let _ ← readByte
  let pathID ← readByte
  let flags ← readByte
  let hasMissingRanges := decide (flags &&& 0x10 = 0x10)
  let numAckBlocks ← parseNumBlocks hasMissingRanges
  let largestAcked ← readUintN order (largestAckedLen flags)
  let blocks ← parseAckBlocks order hasMissingRanges numAckBlocks largestAcked
    (missingSequenceNumberDeltaLen flags)
  return { blocks with pathID := pathID.toNat }

-- The packet number and its length are those of the public header.
def parseStopWaitingFrame (version : Int) (packetNumber packetNumberLen : Nat) :
    FrameParser StopWaitingFrame := do
  let order := getByteOrder version
  let _ ← readByte
  let leastUnackedDelta ← readUintN order packetNumberLen
  Parser.check (leastUnackedDelta < packetNumber) .invalidLeastUnackedDelta
  return ⟨packetNumber - leastUnackedDelta, 0, 0⟩

def parseRstStreamFrame (version : Int) : FrameParser RstStreamFrame := do
  let order := getByteOrder version
  let _ ← readByte
  let streamID ← readUintN order 4
  let byteOffset ← readUintN order 8
  let errorCode ← readUintN order 4
  return ⟨streamID, errorCode, byteOffset⟩

def parseWindowUpdateFrame (version : Int) : FrameParser WindowUpdateFrame := do
  let order := getByteOrder version
  let _ ← readByte
  let streamID ← readUintN order 4
  let byteOffset ← readUintN order 8
  return ⟨streamID, byteOffset⟩

def parseBlockedFrame (version : Int) : FrameParser BlockedFrame := do
  let _ ← readByte
  let streamID ← readUintN (getByteOrder version) 4
  return ⟨streamID⟩

def parsePingFrame : FrameParser Unit := do
  let _ ← readByte

def parseReasonPhrase (order : ByteOrder) : FrameParser (List UInt8) := do
  let reasonPhraseLen ← readUintN order 2
  Parser.check (reasonPhraseLen ≤ maxPacketSize) .reasonPhraseTooLong
  Parser.take .eof reasonPhraseLen

def parseGoawayFrame (version : Int) : FrameParser GoawayFrame := do
  let order := getByteOrder version
  let _ ← readByte
  let errorCode ← readUintN order 4
  let lastGoodStream ← readUintN order 4
  let reasonPhrase ← parseReasonPhrase order
  return ⟨errorCode, lastGoodStream, reasonPhrase⟩

def parseConnectionCloseFrame (version : Int) : FrameParser ConnectionCloseFrame := do
  let order := getByteOrder version
  let _ ← readByte
  let errorCode ← readUintN order 4
  let reasonPhrase ← parseReasonPhrase order
  return ⟨errorCode, reasonPhrase⟩

-- `net.IPv4` makes the long form of an address.
def parseAddAddressFrame (version : Int) : FrameParser AddAddressFrame := do
  let order := getByteOrder version
  let _ ← readByte
  let ipVersion ← readByte
  Parser.check (ipVersion = 4 || ipVersion = 6) .errUnknownIPVersion
  let ip ← Parser.take .eof (if ipVersion = 4 then 4 else 16)
  let port ← readUintN order 2
  return ⟨ipVersion.toNat, if ipVersion = 4 then v4InV6Prefix ++ ip else ip, port⟩

def parsePaths (order : ByteOrder) : Nat → FrameParser (List (Nat × Int))
  | 0 => pure []
  | count + 1 => do
      let pathID ← readByte
      let remoteRTT ← readUfloat16 order
      let later ← parsePaths order count
      return (pathID.toNat, (remoteRTT : Int) * 1000) :: later

def parsePathsFrame (version : Int) : FrameParser PathsFrame := do
  let order := getByteOrder version
  let _ ← readByte
  let maxNumPaths ← readByte
  let numPaths ← readByte
  Parser.check (numPaths ≤ maxNumPaths) .errTooManyPaths
  let paths ← parsePaths order numPaths.toNat
  return ⟨maxNumPaths.toNat, numPaths.toNat, paths.map Prod.fst, paths.map Prod.snd⟩

end MpQuic.Wire

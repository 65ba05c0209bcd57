import MpQuic.Library.ByteOrder
import MpQuic.Wire.Frame

namespace MpQuic.Wire

open MpQuic.Library

-- The errors of the `Write` and `MinLength` functions. `doesNotFit` is the panic of
-- the functions that write fewer bytes than the number needs.
inductive WireError where
  | emptyFrameWithoutFin
  | errInconsistentAckLargestAcked
  | errInconsistentAckLowestAcked
  | bugInconsistentAckRanges
  | errPacketNumberNotSet
  | errLeastUnackedHigherThanPacketNumber
  | errPacketNumberLenNotSet
  | reasonPhraseTooLong
  | errInconsistentAddrIPVersion
  | errUnknownIPVersion
  | errPathsNumber
  | errMissingRTT
  | doesNotFit
  deriving DecidableEq, Repr

def versionMP : Int := 512

def maxPacketSize : Nat := 1350

def getByteOrder (version : Int) : ByteOrder :=
  if version < 39 then .littleEndian else .bigEndian

def sub64 (a b : Nat) : Nat :=
  (a + 2 ^ 64 - b % 2 ^ 64) % 2 ^ 64

section Sub64

variable {a b : Nat}

theorem sub64_lt (a b : Nat) : sub64 a b < 2 ^ 64 :=
  Nat.mod_lt _ (Nat.two_pow_pos 64)

theorem sub64_of_le (hb : b ≤ a) (ha : a < 2 ^ 64) : sub64 a b = a - b := by
  unfold sub64
  rw [Nat.mod_eq_of_lt (Nat.lt_of_le_of_lt hb ha)]
  omega

end Sub64

def getPacketNumberLength (packetNumber : Nat) : Nat :=
  if packetNumber < 2 ^ 8 then 1
  else if packetNumber < 2 ^ 16 then 2
  else if packetNumber < 2 ^ 32 then 4
  else 6

def getPacketNumberLengthForPublicHeader (packetNumber leastUnacked : Nat) : Nat :=
  if sub64 packetNumber leastUnacked < 2 ^ 15 then 2
  else if sub64 packetNumber leastUnacked < 2 ^ 31 then 4
  else 6

def shiftDown : List Nat → Nat → Nat → Nat × Nat
  | [], value, exponent => (value, exponent)
  | offset :: rest, value, exponent =>
    if value ≥ 2 ^ (11 + offset) then shiftDown rest (value / 2 ^ offset) (exponent + offset)
    else shiftDown rest value exponent

def ufloat16 (value : Nat) : Nat :=
  if value < 2 ^ 12 then value
  else if value ≥ 0x3FFC0000000 then 0xFFFF
  else
    let (mantissa, exponent) := shiftDown [16, 8, 4, 2, 1] value 0
    (mantissa + exponent * 2 ^ 11) % 2 ^ 16

def writeUfloat16 (order : ByteOrder) (value : Nat) : List UInt8 :=
  order.bytes 2 (ufloat16 value)

def microseconds (duration : Int) : Nat :=
  (duration.tdiv 1000 % 2 ^ 64).toNat

def streamTypeByte (finBit dataLenPresent : Bool) (offsetLength streamIDLen : Nat) : UInt8 :=
  let typeByte : UInt8 := 0x80
  let typeByte := if finBit then typeByte ^^^ 0x40 else typeByte
  let typeByte := if dataLenPresent then typeByte ^^^ 0x20 else typeByte
  let typeByte :=
    if offsetLength > 0 then typeByte ^^^ ((UInt8.ofNat offsetLength - 1) <<< 2) else typeByte
  typeByte ^^^ (UInt8.ofNat streamIDLen - 1)

namespace StreamFrame

def typeByte (f : StreamFrame) : UInt8 :=
  streamTypeByte f.finBit f.dataLenPresent f.getOffsetLength f.calculateStreamIDLength

def write (version : Int) (f : StreamFrame) : Except WireError (List UInt8) :=
  let order := getByteOrder version
  if f.data.length = 0 ∧ f.finBit = false then .error .emptyFrameWithoutFin
  else
    .ok ([f.typeByte] ++ order.bytes f.calculateStreamIDLength f.streamID ++
      order.bytes f.getOffsetLength f.offset ++
      (if f.dataLenPresent then order.bytes 2 f.data.length else []) ++ f.data)

end StreamFrame

namespace AckRange

def length (r : AckRange) : Nat :=
  (sub64 r.last r.first + 1) % 2 ^ 64

def gap (lastAckRange ackRange : AckRange) : Nat :=
  sub64 (sub64 lastAckRange.first ackRange.last) 1

end AckRange

-- How many blocks a gap takes. One block reports at most 255 missing packets.
def numBlocks (gap : Nat) : Nat :=
  if gap % 0xFF = 0 then gap / 0xFF else gap / 0xFF + 1

structure AckBlock where
  gap : Nat
  length : Nat
  deriving DecidableEq, Repr

-- The blocks for one range. All but the last of them report no received packet.
def rangeBlocks (gap length : Nat) : List AckBlock :=
  if numBlocks gap = 1 then [⟨gap, length⟩]
  else
    (List.range (numBlocks gap)).map fun i =>
      if i = numBlocks gap - 1 then ⟨1 + (gap - 1) % 255, length⟩ else ⟨0xFF, 0⟩

namespace AckBlocks

def maxRangeLength (f : AckBlocks) : Nat :=
  if f.hasMissingRanges then (f.ackRanges.map AckRange.length).foldl max 0
  else (sub64 f.largestAcked f.lowestAcked + 1) % 2 ^ 64

def getMissingSequenceNumberDeltaLen (f : AckBlocks) : Nat :=
  if f.maxRangeLength ≤ 0xFF then 1
  else if f.maxRangeLength ≤ 0xFFFF then 2
  else if f.maxRangeLength ≤ 0xFFFFFFFF then 4
  else 6

-- The loop of `numWritableNackRanges`. It stops at the first range whose blocks do
-- not fit any more.
def countWritable : Nat → AckRange → List AckRange → Nat
  | numRanges, _, [] => numRanges
  | numRanges, lastAckRange, ackRange :: rest =>
    let rangeLength := numBlocks (lastAckRange.gap ackRange)
    if numRanges + rangeLength < 0xFF then
      countWritable (numRanges + rangeLength) ackRange rest
    else numRanges

def numWritableNackRanges (f : AckBlocks) : Nat :=
  match f.ackRanges with
  | [] => 0
  | ackRange :: rest => countWritable 0 ackRange rest + 1

-- The loop over the ranges in `Write`, which ends when `numRanges` blocks are
-- written. The count includes the first block.
def writtenBlocks (numRanges : Nat) : Nat → AckRange → List AckRange → List AckBlock × Nat
  | numRangesWritten, _, [] => ([], numRangesWritten)
  | numRangesWritten, lastAckRange, ackRange :: rest =>
    let blocks := rangeBlocks (lastAckRange.gap ackRange) ackRange.length
    let numRangesWritten := numRangesWritten + blocks.length
    if numRangesWritten ≥ numRanges then (blocks, numRangesWritten)
    else
      let later := writtenBlocks numRanges numRangesWritten ackRange rest
      (blocks ++ later.1, later.2)

def blocks (f : AckBlocks) : Except WireError (List AckBlock) :=
  match f.ackRanges with
  | [] => .ok []
  | ackRange :: rest =>
    if f.largestAcked ≠ ackRange.last then .error .errInconsistentAckLargestAcked
    else if f.lowestAcked ≠ ((ackRange :: rest).getLast?.map AckRange.first).getD 0 then
      .error .errInconsistentAckLowestAcked
    else
      let written := writtenBlocks f.numWritableNackRanges 1 ackRange rest
      if f.numWritableNackRanges ≠ written.2 then .error .bugInconsistentAckRanges
      else .ok written.1

def firstAckBlockLength (f : AckBlocks) : Nat :=
  match f.ackRanges with
  | [] => (sub64 f.largestAcked f.lowestAcked + 1) % 2 ^ 64
  | ackRange :: _ => (sub64 f.largestAcked ackRange.first + 1) % 2 ^ 64

def lengthBits (f : AckBlocks) : UInt8 :=
  let largestAckedLen := getPacketNumberLength f.largestAcked
  let deltaLen := f.getMissingSequenceNumberDeltaLen
  let bits : UInt8 := 0
  let bits := if largestAckedLen ≠ 1 then bits ^^^ (UInt8.ofNat (largestAckedLen / 2) <<< 2) else bits
  if deltaLen ≠ 1 then bits ^^^ UInt8.ofNat (deltaLen / 2) else bits

def numBlocksByte (f : AckBlocks) : List UInt8 :=
  if f.hasMissingRanges then [UInt8.ofNat (f.numWritableNackRanges - 1)] else []

def writeBlock (order : ByteOrder) (deltaLen : Nat) (block : AckBlock) : List UInt8 :=
  UInt8.ofNat block.gap :: order.bytes deltaLen block.length

def writeLargestAcked (order : ByteOrder) (f : AckBlocks) : List UInt8 :=
  order.bytes (getPacketNumberLength f.largestAcked) f.largestAcked

def writeBlocks (order : ByteOrder) (f : AckBlocks) (blocks : List AckBlock) : List UInt8 :=
  order.bytes f.getMissingSequenceNumberDeltaLen f.firstAckBlockLength ++
    blocks.flatMap (writeBlock order f.getMissingSequenceNumberDeltaLen)

end AckBlocks

-- `delayTime` is what `Write` sets it to before it writes it.
def AckFrame.write (version : Int) (f : AckFrame) : Except WireError (List UInt8) :=
  let order := getByteOrder version
  let typeByte : UInt8 := 0x40 ^^^ f.lengthBits
  let typeByte := if f.hasMissingRanges then typeByte ||| 0x20 else typeByte
  let typeByte := if f.pathID ≠ 0 then typeByte ||| 0x10 else typeByte
  match f.blocks with
  | .error err => .error err
  | .ok blocks =>
    .ok ([typeByte] ++ (if f.pathID ≠ 0 then [UInt8.ofNat f.pathID] else []) ++
      f.writeLargestAcked order ++ writeUfloat16 order (microseconds f.delayTime) ++
      f.numBlocksByte ++ f.writeBlocks order blocks ++ [0])

-- The CLOSE_PATH frame has no delay and no timestamps, and the number of blocks
-- comes before the largest packet number. It does not cut numbers down to 48 bits.
def ClosePathFrame.write (version : Int) (f : ClosePathFrame) :
    Except WireError (List UInt8) :=
  let order := getByteOrder version
  let flags := if f.hasMissingRanges then 0x10 ^^^ f.lengthBits else f.lengthBits
  match f.blocks with
  | .error err => .error err
  | .ok blocks =>
    if f.largestAcked ≥ 2 ^ 48 ∨ f.firstAckBlockLength ≥ 2 ^ 48 ∨
        blocks.any fun block => block.length ≥ 2 ^ 48 then
      .error .doesNotFit
    else
      .ok ([0x11, UInt8.ofNat f.pathID, flags] ++ f.numBlocksByte ++
        f.writeLargestAcked order ++ f.writeBlocks order blocks)

def StopWaitingFrame.write (version : Int) (f : StopWaitingFrame) :
    Except WireError (List UInt8) :=
  let order := getByteOrder version
  if f.packetNumber = 0 then .error .errPacketNumberNotSet
  else if f.leastUnacked > f.packetNumber then .error .errLeastUnackedHigherThanPacketNumber
  else if f.packetNumberLen = 1 ∨ f.packetNumberLen = 2 ∨ f.packetNumberLen = 4 ∨
      f.packetNumberLen = 6 then
    .ok ([0x06] ++ order.bytes f.packetNumberLen (f.packetNumber - f.leastUnacked))
  else .error .errPacketNumberLenNotSet

def RstStreamFrame.write (version : Int) (f : RstStreamFrame) : List UInt8 :=
  let order := getByteOrder version
  [0x01] ++ order.bytes 4 f.streamID ++ order.bytes 8 f.byteOffset ++ order.bytes 4 f.errorCode

def WindowUpdateFrame.write (version : Int) (f : WindowUpdateFrame) : List UInt8 :=
  let order := getByteOrder version
  [0x04] ++ order.bytes 4 f.streamID ++ order.bytes 8 f.byteOffset

def BlockedFrame.write (version : Int) (f : BlockedFrame) : List UInt8 :=
  [0x05] ++ (getByteOrder version).bytes 4 f.streamID

def GoawayFrame.write (version : Int) (f : GoawayFrame) : List UInt8 :=
  let order := getByteOrder version
  [0x03] ++ order.bytes 4 f.errorCode ++ order.bytes 4 f.lastGoodStream ++
    order.bytes 2 f.reasonPhrase.length ++ f.reasonPhrase

def ConnectionCloseFrame.write (version : Int) (f : ConnectionCloseFrame) :
    Except WireError (List UInt8) :=
  let order := getByteOrder version
  if f.reasonPhrase.length > 0xFFFF then .error .reasonPhraseTooLong
  else
    .ok ([0x02] ++ order.bytes 4 f.errorCode ++ order.bytes 2 f.reasonPhrase.length ++
      f.reasonPhrase)

def v4InV6Prefix : List UInt8 :=
  [0, 0, 0, 0, 0, 0, 0, 0, 0, 0, 0xff, 0xff]

-- `To4` and `To16` of an IP address, which has 4 or 16 bytes.
def to4 (ip : List UInt8) : Option (List UInt8) :=
  if ip.length = 4 then some ip
  else if ip.length = 16 ∧ ip.take 12 = v4InV6Prefix then some (ip.drop 12)
  else none

def to16 (ip : List UInt8) : Option (List UInt8) :=
  if ip.length = 4 then some (v4InV6Prefix ++ ip)
  else if ip.length = 16 then some ip
  else none

def AddAddressFrame.write (version : Int) (f : AddAddressFrame) :
    Except WireError (List UInt8) :=
  let order := getByteOrder version
  if f.ipVersion = 4 then
    match to4 f.ip with
    | none => .error .errInconsistentAddrIPVersion
    | some ip => .ok ([0x10, 4] ++ ip ++ order.bytes 2 f.port)
  else if f.ipVersion = 6 then
    match to16 f.ip with
    | none => .error .errInconsistentAddrIPVersion
    | some ip => .ok ([0x10, 6] ++ ip ++ order.bytes 2 f.port)
  else .error .errUnknownIPVersion

def PathsFrame.write (version : Int) (f : PathsFrame) : Except WireError (List UInt8) :=
  let order := getByteOrder version
  if f.numPaths ≠ f.pathIDs.length then .error .errPathsNumber
  else if f.pathIDs.length ≠ f.remoteRTTs.length then .error .errMissingRTT
  else
    .ok ([0x12, UInt8.ofNat f.maxNumPaths, UInt8.ofNat f.numPaths] ++
      (f.pathIDs.zip f.remoteRTTs).flatMap fun path =>
        UInt8.ofNat path.1 :: writeUfloat16 order (microseconds path.2))

def ControlFrame.write (version : Int) : ControlFrame → Except WireError (List UInt8)
  | .ack f => f.write version
  | .stopWaiting f => f.write version
  | .rstStream f => .ok (f.write version)
  | .windowUpdate f => .ok (f.write version)
  | .blocked f => .ok (f.write version)
  | .ping => .ok [0x07]
  | .goaway f => .ok (f.write version)
  | .connectionClose f => f.write version
  | .addAddress f => f.write version
  | .closePath f => f.write version
  | .paths f => f.write version

namespace AckBlocks

def blocksLength (f : AckBlocks) : Nat :=
  let deltaLen := f.getMissingSequenceNumberDeltaLen
  getPacketNumberLength f.largestAcked +
    if f.hasMissingRanges then (1 + deltaLen) * f.numWritableNackRanges else deltaLen

end AckBlocks

-- The length of a PATHS frame is computed with unsigned 8-bit integers.
def ControlFrame.minLength : ControlFrame → Except WireError Nat
  | .ack f => .ok (1 + 2 + 1 + f.blocksLength + if f.pathID ≠ 0 then 1 else 0)
  | .stopWaiting f =>
    if f.packetNumberLen = 0 then .error .errPacketNumberLenNotSet
    else .ok (1 + f.packetNumberLen)
  | .rstStream _ => .ok (1 + 4 + 8 + 4)
  | .windowUpdate _ => .ok (1 + 4 + 8)
  | .blocked _ => .ok (1 + 4)
  | .ping => .ok 1
  | .goaway f => .ok (1 + 4 + 4 + 2 + f.reasonPhrase.length)
  | .connectionClose f => .ok (1 + 4 + 2 + f.reasonPhrase.length)
  | .addAddress f =>
    if f.ipVersion = 4 then .ok (1 + 1 + 4 + 2)
    else if f.ipVersion = 6 then .ok (1 + 1 + 16 + 2)
    else .error .errUnknownIPVersion
  | .closePath f => .ok (1 + 1 + 1 + f.blocksLength)
  | .paths f => .ok ((1 + 1 + 1 + 3 * f.numPaths) % 2 ^ 8)

end MpQuic.Wire

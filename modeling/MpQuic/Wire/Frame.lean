import MpQuic.Wire.StreamFrame

namespace MpQuic.Wire

-- The packet numbers from `first` to `last`, both included.
@[ext] structure AckRange where
  first : Nat
  last : Nat
  deriving DecidableEq, Repr

-- What an ACK frame and a CLOSE_PATH frame say about received packets. The ranges
-- are empty if nothing is missing, and otherwise the highest one comes first.
structure AckBlocks where
  largestAcked : Nat
  lowestAcked : Nat
  ackRanges : List AckRange
  deriving DecidableEq, Repr

namespace AckBlocks

def hasMissingRanges (f : AckBlocks) : Bool :=
  f.ackRanges.length > 0

def acksPacket (f : AckBlocks) (p : Nat) : Bool :=
  if p < f.lowestAcked || p > f.largestAcked then false
  else if f.hasMissingRanges then
    f.ackRanges.any fun ackRange => p ≥ ackRange.first && p ≤ ackRange.last
  else p ≥ f.lowestAcked && p ≤ f.largestAcked

-- Every range lies above the next one, with at least one packet between them. The packet
-- numbers have 64 bits.
def rangesDescend : List AckRange → Bool
  | lastAckRange :: ackRange :: rest =>
    !(lastAckRange.first ≤ ackRange.first) &&
      !(lastAckRange.first ≤ (ackRange.last + 1) % 2 ^ 64) && rangesDescend (ackRange :: rest)
  | _ => true

-- The check with which the parsers of the two frames end.
def validateAckRanges (f : AckBlocks) : Bool :=
  match f.ackRanges with
  | [] => true
  | [_] => false
  | ackRange :: _ =>
    ackRange.last = f.largestAcked &&
      (f.ackRanges.all fun ackRange => !(ackRange.first > ackRange.last)) &&
      rangesDescend f.ackRanges

end AckBlocks

structure AckFrame extends AckBlocks where
  pathID : Nat
  delayTime : Int
  deriving DecidableEq, Repr

structure ClosePathFrame extends AckBlocks where
  pathID : Nat
  deriving DecidableEq, Repr

def AckFrame.acksPacket (f : AckFrame) (p : Nat) : Bool :=
  f.toAckBlocks.acksPacket p

def ClosePathFrame.acksPacket (f : ClosePathFrame) (p : Nat) : Bool :=
  f.toAckBlocks.acksPacket p

def ClosePathFrame.validateAckRanges (f : ClosePathFrame) : Bool :=
  f.toAckBlocks.validateAckRanges

structure StopWaitingFrame where
  leastUnacked : Nat
  packetNumberLen : Nat
  packetNumber : Nat
  deriving DecidableEq, Repr

structure RstStreamFrame where
  streamID : Nat
  errorCode : Nat
  byteOffset : Nat
  deriving DecidableEq, Repr

structure WindowUpdateFrame where
  streamID : Nat
  byteOffset : Nat
  deriving DecidableEq, Repr

structure BlockedFrame where
  streamID : Nat
  deriving DecidableEq, Repr

structure GoawayFrame where
  errorCode : Nat
  lastGoodStream : Nat
  reasonPhrase : List UInt8
  deriving DecidableEq, Repr

structure ConnectionCloseFrame where
  errorCode : Nat
  reasonPhrase : List UInt8
  deriving DecidableEq, Repr

structure AddAddressFrame where
  ipVersion : Nat
  ip : List UInt8
  port : Nat
  deriving DecidableEq, Repr

structure PathsFrame where
  maxNumPaths : Nat
  numPaths : Nat
  pathIDs : List Nat
  remoteRTTs : List Int
  deriving DecidableEq, Repr

inductive ControlFrame where
  | ack (f : AckFrame)
  | stopWaiting (f : StopWaitingFrame)
  | rstStream (f : RstStreamFrame)
  | windowUpdate (f : WindowUpdateFrame)
  | blocked (f : BlockedFrame)
  | ping
  | goaway (f : GoawayFrame)
  | connectionClose (f : ConnectionCloseFrame)
  | addAddress (f : AddAddressFrame)
  | closePath (f : ClosePathFrame)
  | paths (f : PathsFrame)
  deriving DecidableEq, Repr

-- A stream frame is a pointer in the source, so `σ` is either the frame itself or a
-- reference to it.
inductive Frame (σ : Type) where
  | stream (f : σ)
  | control (f : ControlFrame)
  deriving DecidableEq, Repr

end MpQuic.Wire

import Mathlib

namespace MpQuic.Wire

-- A stream frame. A nil slice of data is the empty list, since nothing that
-- handles frames tells the two apart.
structure StreamFrame where
  streamID : Nat
  finBit : Bool
  dataLenPresent : Bool
  offset : Nat
  data : List UInt8
  deriving DecidableEq, Repr

namespace StreamFrame

def dataLen (f : StreamFrame) : Nat :=
  f.data.length

def calculateStreamIDLength (f : StreamFrame) : Nat :=
  if f.streamID < 2 ^ 8 then 1
  else if f.streamID < 2 ^ 16 then 2
  else if f.streamID < 2 ^ 24 then 3
  else 4

def getOffsetLength (f : StreamFrame) : Nat :=
  if f.offset = 0 then 0
  else if f.offset < 2 ^ 16 then 2
  else if f.offset < 2 ^ 24 then 3
  else if f.offset < 2 ^ 32 then 4
  else if f.offset < 2 ^ 40 then 5
  else if f.offset < 2 ^ 48 then 6
  else if f.offset < 2 ^ 56 then 7
  else 8

-- The length of the header. The whole frame takes `minLength + dataLen` bytes.
def minLength (f : StreamFrame) : Nat :=
  1 + f.calculateStreamIDLength + f.getOffsetLength + if f.dataLenPresent then 2 else 0

end StreamFrame

end MpQuic.Wire

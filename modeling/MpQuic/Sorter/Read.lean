import MpQuic.Sorter.Defs

namespace MpQuic.Sorter

open MpQuic.Library MpQuic.Wire

-- The half of a stream that `Read` works on.
structure Reader where
  frameQueue : StreamFrameSorter
  readOffset : Nat
  finishedReading : Bool

def newReader : Reader where
  frameQueue := newStreamFrameSorter
  readOffset := 0
  finishedReading := false

inductive ReadError where
  | eof
  | findDiscard
  | bugReadPosInFrame
  deriving DecidableEq, Repr

structure Turn where
  data : List UInt8
  err : Option ReadError
  deriving DecidableEq, Repr

-- The bytes `abcd` as a whole frame.
def discardPattern : List UInt8 :=
  [97, 98, 99, 100]

namespace Reader

-- `Pop` of the queue, which is only called with a head.
def pop (s : Reader) : Reader :=
  match s.frameQueue.pop with
  | none => s
  | some popped => { s with frameQueue := popped.1 }

-- One turn of the loop, with `room` bytes left in the buffer of the caller. There
-- is no result when the turn has to wait for a frame, and none when a slice
-- expression is out of range.
def read (s : Reader) (room : Nat) : Option (Reader × Turn) :=
  if s.finishedReading then some (s, ⟨[], some .eof⟩)
  else
    match s.frameQueue.head with
    | none => none
    | some frame =>
      if s.readOffset < frame.offset then none
      else
        let readPosInFrame := s.readOffset - frame.offset
        if readPosInFrame > frame.dataLen then
          if frame.data = discardPattern then none
          else some (s, ⟨[], some .bugReadPosInFrame⟩)
        else
          let m := min room (frame.dataLen - readPosInFrame)
          let copied := (frame.data.drop readPosInFrame).take m
          let s := { s with readOffset := s.readOffset + m }
          if frame.data = discardPattern then
            some (if readPosInFrame + m ≥ frame.dataLen then s.pop else s,
              ⟨copied, some .findDiscard⟩)
          else if readPosInFrame + m ≥ frame.dataLen then
            if frame.finBit then
              some ({ s.pop with finishedReading := true }, ⟨copied, some .eof⟩)
            else some (s.pop, ⟨copied, none⟩)
          else some (s, ⟨copied, none⟩)

end Reader

inductive ReadEvent where
  | push (frame : StreamFrame)
  | read (room : Nat)
  deriving DecidableEq, Repr

def readStep (s : Reader) : ReadEvent → Option (Reader × List Turn)
  | .push frame => some ({ s with frameQueue := (s.frameQueue.push frame).1 }, [])
  | .read room => (s.read room).map fun turn => (turn.1, [turn.2])

end MpQuic.Sorter

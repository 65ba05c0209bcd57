import MpQuic.Library.Run
import MpQuic.Wire.StreamFrame

namespace MpQuic.Sorter

open MpQuic.Library MpQuic.Wire

def maxByteCount : Nat := 2 ^ 64 - 1

def maxStreamFrameSorterGaps : Nat := 2500

-- The positions from `start` up to, but not with, `stop`.
structure ByteInterval where
  start : Nat
  stop : Nat
  deriving DecidableEq, Repr

inductive SorterError where
  | errTooManyGapsInReceivedStreamData
  | errDuplicateStreamData
  | errEmptyStreamData
  | bugNoGapFound
  | bugNoEndGapFound
  deriving DecidableEq, Repr

-- `gaps` are the intervals of the stream that have not been received.
structure StreamFrameSorter where
  queuedFrames : Nat → Option StreamFrame
  readPosition : Nat
  gaps : List ByteInterval
  dupframesize : Nat

def newStreamFrameSorter : StreamFrameSorter where
  queuedFrames := fun _ => none
  readPosition := 0
  gaps := [⟨0, maxByteCount⟩]
  dupframesize := 0

-- A frame without its first bytes. No caller takes more than the frame has, so
-- the slice expression of the source is in range.
def cutFront (frame : StreamFrame) (count : Nat) : StreamFrame :=
  { frame with offset := frame.offset + count, data := frame.data.drop count }

def cutTail (frame : StreamFrame) (count : Nat) : StreamFrame :=
  { frame with data := frame.data.take (frame.dataLen - count) }

structure FoundGap where
  before : List ByteInterval
  gap : ByteInterval
  after : List ByteInterval

def findGap (start stop : Nat) : List ByteInterval → Except SorterError FoundGap
  | [] => .error .bugNoGapFound
  | gap :: rest =>
    if stop ≤ gap.start then .error .errDuplicateStreamData
    else if stop > gap.start ∧ start ≤ gap.stop then .ok ⟨[], gap, rest⟩
    else (findGap start stop rest).map fun found =>
      { found with before := gap :: found.before }

-- Where the walk over the gaps ends. `same` says that it has not left the first
-- gap, `listed` that `endGap` is still an element of the list, `found` that the
-- walk has not run off the list.
structure EndGap where
  endGap : ByteInterval
  same : Bool
  listed : Bool
  found : Bool
  after : List ByteInterval
  queuedFrames : Nat → Option StreamFrame

-- The loop that looks for the last gap the frame reaches. It removes the gaps on
-- its way, apart from the first, and the first frame of each block between them.
def findEndGap (stop : Nat) (queuedFrames : Nat → Option StreamFrame) (endGap : ByteInterval)
    (same : Bool) : List ByteInterval → EndGap
  | [] => ⟨endGap, same, true, decide (stop < endGap.stop), [], queuedFrames⟩
  | nextEndGap :: rest =>
    if stop ≥ endGap.stop then
      if stop ≤ nextEndGap.start then
        ⟨endGap, same, same, true, nextEndGap :: rest, queuedFrames⟩
      else
        findEndGap stop (Function.update queuedFrames endGap.stop none) nextEndGap false rest
    else ⟨endGap, same, true, true, nextEndGap :: rest, queuedFrames⟩

def shrinkGaps (gap : ByteInterval) (walk : EndGap) (start stop : Nat) : List ByteInterval :=
  let endGap := walk.endGap
  if walk.same then
    if start = gap.start then
      if stop ≥ gap.stop then [] else [⟨stop, gap.stop⟩]
    else if stop = gap.stop then [⟨gap.start, start⟩]
    else [⟨gap.start, start⟩, ⟨stop, gap.stop⟩]
  else
    let last := if walk.listed then [endGap] else []
    let shrunk := if walk.listed then [(⟨stop, endGap.stop⟩ : ByteInterval)] else []
    if start = gap.start then
      (if stop ≥ gap.stop then [] else [gap]) ++ if stop < endGap.stop then shrunk else last
    else if stop = endGap.stop then ⟨gap.start, start⟩ :: last
    else ⟨gap.start, start⟩ :: shrunk

namespace StreamFrameSorter

-- The part of `Push` behind the look at the frame with the same offset.
def insert (s : StreamFrameSorter) (frame : StreamFrame) :
    StreamFrameSorter × Option SorterError :=
  let stop := frame.offset + frame.dataLen
  match findGap frame.offset stop s.gaps with
  | .error err => (s, some err)
  | .ok found =>
    let gap := found.gap
    let frame :=
      if frame.offset < gap.start then cutFront frame (gap.start - frame.offset) else frame
    let walk := findEndGap stop s.queuedFrames gap true found.after
    if walk.found then
      let cutLen := stop - walk.endGap.stop
      let frame := cutTail frame cutLen
      let gaps := found.before ++ shrinkGaps gap walk frame.offset (stop - cutLen) ++ walk.after
      if gaps.length > maxStreamFrameSorterGaps then
        ({ s with gaps := gaps, queuedFrames := walk.queuedFrames },
          some .errTooManyGapsInReceivedStreamData)
      else
        ({ s with
            gaps := gaps
            queuedFrames := Function.update walk.queuedFrames frame.offset (some frame) },
          none)
    else
      ({ s with
          gaps := found.before ++ gap :: if walk.same then [] else [walk.endGap]
          queuedFrames := walk.queuedFrames },
        some .bugNoEndGapFound)

def push (s : StreamFrameSorter) (frame : StreamFrame) :
    StreamFrameSorter × Option SorterError :=
  if frame.dataLen = 0 then
    if frame.finBit then
      ({ s with queuedFrames := Function.update s.queuedFrames frame.offset (some frame) }, none)
    else (s, some .errEmptyStreamData)
  else
    match s.queuedFrames frame.offset with
    | none => s.insert frame
    | some oldFrame =>
      if frame.dataLen ≤ oldFrame.dataLen then
        ({ s with dupframesize := s.dupframesize + frame.dataLen },
          some .errDuplicateStreamData)
      else s.insert (cutFront frame oldFrame.dataLen)

def head (s : StreamFrameSorter) : Option StreamFrame :=
  s.queuedFrames s.readPosition

-- `Pop` reads a field of the head before it looks whether there is one, so
-- without a head it has no result.
def pop (s : StreamFrameSorter) : Option (StreamFrameSorter × StreamFrame) :=
  s.head.map fun frame =>
    ({ s with
        readPosition := s.readPosition + frame.dataLen
        queuedFrames := Function.update s.queuedFrames frame.offset none },
      frame)

end StreamFrameSorter

inductive Event where
  | push (frame : StreamFrame)
  | pop
  deriving DecidableEq, Repr

inductive Output where
  | pushed (err : Option SorterError)
  | popped (frame : StreamFrame)
  deriving DecidableEq, Repr

def step (s : StreamFrameSorter) : Event → Option (StreamFrameSorter × List Output)
  | .push frame => some ((s.push frame).1, [.pushed (s.push frame).2])
  | .pop => s.pop.map fun popped => (popped.1, [.popped popped.2])

def delivered (log : List Output) : List UInt8 :=
  log.flatMap fun out =>
    match out with
    | .pushed _ => []
    | .popped frame => frame.data

end MpQuic.Sorter

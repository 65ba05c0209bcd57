import MpQuic.Library.Slice
import MpQuic.Library.Run

namespace MpQuic.Stms

open MpQuic.Library

-- The fields of a stream that the STMS scheduler reads and writes. A nil slice
-- is `none`, which is not the same as an empty slice. `err` says whether an
-- error was recorded; a local reset always records one.
structure Stream where
  err : Bool
  finishedWriting : Bool
  finSent : Bool
  dataForWriting : Option (List UInt8)
  writeOffsetF : Nat
  writeOffsetSN : Nat
  writeOffsetSS : Nat
  gap : Nat
  deriving DecidableEq, Repr

def newStream : Stream where
  err := false
  finishedWriting := false
  finSent := false
  dataForWriting := none
  writeOffsetF := 0
  writeOffsetSN := 0
  writeOffsetSS := 0
  gap := 0

namespace Stream

def write (s : Stream) (p : List UInt8) : Stream :=
  if s.err then s
  else if s.finishedWriting then s
  else if p.length = 0 then s
  else { s with dataForWriting := some p }

def close (s : Stream) : Stream :=
  { s with finishedWriting := true }

def lenOfDataForWriting (s : Stream) : Nat :=
  if s.err then 0 else (s.dataForWriting.getD []).length

def shouldSendFin (s : Stream) : Bool :=
  s.finishedWriting && !s.finSent && !s.err && s.dataForWriting.isNone

def sentFin (s : Stream) : Stream :=
  { s with finSent := true }

-- The bytes left over after a pop. A slice that became empty is set to nil,
-- which wakes up the blocked writer.
def keep (s : Stream) (rest : List UInt8) : Stream :=
  { s with dataForWriting := if rest.length = 0 then none else some rest }

end Stream

-- What a pop leaves behind and returns. `errorCase` says that one of the
-- branches logged as ERROR CASE was taken.
structure Taken where
  stream : Stream
  ret : Option (List UInt8)
  errorCase : Bool
  deriving DecidableEq, Repr

-- `gap == -1`: the fastest of at least three paths. It fills the hole in front
-- of the slower paths and then follows them.
def fastestPath (s : Stream) (data : List UInt8) (maxBytes : Nat) : Option Taken :=
  if data.length > maxBytes then do
    let ret ← sliceTo data maxBytes
    if s.writeOffsetF + ret.length > s.writeOffsetSS ∧ s.writeOffsetF < s.writeOffsetSS then
      -- the hole ends inside this frame, so only the bytes of the hole go out
      let ret ← sliceTo data (s.writeOffsetSS - s.writeOffsetF)
      let rest ← sliceFrom data (s.writeOffsetSS - s.writeOffsetF)
      let t := { s with
        writeOffsetF := s.writeOffsetSN, writeOffsetSS := s.writeOffsetSN, gap := 0 }
      some ⟨t.keep rest, some ret, false⟩
    else if s.writeOffsetF + ret.length ≤ s.writeOffsetSS ∧ s.writeOffsetF < s.writeOffsetSS then
      let rest ← sliceFrom data maxBytes
      let t := { s with
        writeOffsetF := s.writeOffsetF + ret.length, gap := s.gap - ret.length }
      some ⟨t.keep rest, some ret, false⟩
    else if s.writeOffsetF = s.writeOffsetSS then
      let rest ← sliceFrom data maxBytes
      let t := { s with
        writeOffsetF := s.writeOffsetSN + ret.length
        writeOffsetSS := s.writeOffsetSN + ret.length
        writeOffsetSN := s.writeOffsetSN + ret.length
        gap := 0 }
      some ⟨t.keep rest, some ret, false⟩
    else some ⟨s.keep data, some ret, true⟩
  else
    if s.writeOffsetF + data.length ≥ s.writeOffsetSS ∧ s.writeOffsetF < s.writeOffsetSS then do
      let ret ← sliceTo data (s.writeOffsetSS - s.writeOffsetF)
      let rest ← sliceFrom data (s.writeOffsetSS - s.writeOffsetF)
      let t := { s with
        writeOffsetF := s.writeOffsetSN, writeOffsetSS := s.writeOffsetSN, gap := 0 }
      some ⟨t.keep rest, some ret, false⟩
    else if s.writeOffsetF + data.length < s.writeOffsetSS ∧ s.writeOffsetF < s.writeOffsetSS then
      some ⟨s.keep data, some data, true⟩
    else if s.writeOffsetF = s.writeOffsetSS then
      let t := { s with
        writeOffsetF := s.writeOffsetSN + data.length
        writeOffsetSS := s.writeOffsetSN + data.length
        writeOffsetSN := s.writeOffsetSN + data.length
        gap := 0 }
      some ⟨t.keep [], some data, false⟩
    else some ⟨s.keep data, some data, true⟩

-- `gap == -2`: too few paths, or a path without a measured delay. The three
-- offsets move together.
def onlyPath (s : Stream) (data : List UInt8) (maxBytes : Nat) : Option Taken :=
  if data.length > maxBytes then do
    let ret ← sliceTo data maxBytes
    let rest ← sliceFrom data maxBytes
    some ⟨{ s with
      dataForWriting := some rest
      writeOffsetF := s.writeOffsetF + ret.length
      writeOffsetSS := s.writeOffsetSS + ret.length
      writeOffsetSN := s.writeOffsetSN + ret.length }, some ret, false⟩
  else
    some ⟨{ s with
      dataForWriting := none
      writeOffsetF := s.writeOffsetF + data.length
      writeOffsetSS := s.writeOffsetSS + data.length
      writeOffsetSN := s.writeOffsetSN + data.length }, some data, false⟩

-- `gap >= 0`: a slower path leaves `gap` bytes to the faster ones.
def slowerPath (s : Stream) (data : List UInt8) (maxBytes gap : Nat) : Option Taken :=
  if gap ≥ data.length then some ⟨s, none, false⟩
  else if s.writeOffsetSN > s.writeOffsetSS then do
    -- a hole is open, and its stored size counts, not the argument
    let tail ← sliceFrom data s.gap
    let front ← sliceTo data s.gap
    if tail.length > maxBytes then
      let ret ← slice data s.gap (s.gap + maxBytes)
      let back ← sliceFrom data (s.gap + maxBytes)
      let t := { s with writeOffsetSN := s.writeOffsetSN + ret.length }
      some ⟨t.keep (front ++ back), some ret, false⟩
    else
      let t := { s with writeOffsetSN := s.writeOffsetSN + tail.length }
      some ⟨t.keep front, if tail.length = 0 then none else some tail, false⟩
  else do
    -- a new hole of `gap` bytes is opened
    let tail ← sliceFrom data gap
    let front ← sliceTo data gap
    if tail.length > maxBytes then
      let ret ← slice data gap (gap + maxBytes)
      let back ← sliceFrom data (gap + maxBytes)
      let t := { s with
        gap := gap
        writeOffsetSS := s.writeOffsetSS + gap
        writeOffsetSN := s.writeOffsetSS + gap + ret.length }
      some ⟨t.keep (front ++ back), some ret, false⟩
    else
      let t := { s with
        gap := gap
        writeOffsetSS := s.writeOffsetSS + gap
        writeOffsetSN := s.writeOffsetSS + gap + tail.length }
      some ⟨t.keep front, some tail, false⟩

def getDataForWritingSTMS (s : Stream) (maxBytes : Nat) (gap : Int) : Option Taken :=
  if s.err then some ⟨s, none, false⟩
  else
    match s.dataForWriting with
    | none => some ⟨s, none, false⟩
    | some data =>
      if gap < 0 then
        if gap = -1 then fastestPath s data maxBytes
        else if gap = -2 then onlyPath s data maxBytes
        else some ⟨s, none, false⟩
      else slowerPath s data maxBytes gap.toNat

-- The offset that `maybePopNormalFramesSTMS` writes into the frame before it
-- asks the stream for data.
def frameOffset (s : Stream) (gap : Int) : Nat :=
  if gap < 0 then
    if s.writeOffsetF = s.writeOffsetSS ∧ s.writeOffsetSS < s.writeOffsetSN then s.writeOffsetSN
    else s.writeOffsetF
  else
    if s.writeOffsetSN > s.writeOffsetSS then s.writeOffsetSN
    else s.writeOffsetF + gap.toNat

structure Pop where
  offset : Nat
  data : Option (List UInt8)
  errorCase : Bool
  deriving DecidableEq, Repr

inductive Event where
  | write (p : List UInt8)
  | pop (gap : Int) (maxBytes : Nat)
  deriving DecidableEq, Repr

def step (s : Stream) : Event → Option (Stream × List Pop)
  | .write p => some (s.write p, [])
  | .pop gap maxBytes =>
    (getDataForWritingSTMS s maxBytes gap).map fun taken =>
      (taken.stream, [⟨frameOffset s gap, taken.ret, taken.errorCase⟩])

def written (events : List Event) : List UInt8 :=
  events.flatMap fun event =>
    match event with
    | .write p => p
    | .pop _ _ => []

-- A write starts only when the buffer is nil, since the one before waits for that.
def Ready (s : Stream) : Event → Prop
  | .write _ => s.dataForWriting = none
  | .pop gap maxBytes => (gap = -1 ∨ 0 ≤ gap) ∧ 1 ≤ maxBytes

instance (s : Stream) : (event : Event) → Decidable (Ready s event)
  | .write _ => inferInstanceAs (Decidable (_ = none))
  | .pop _ _ => inferInstanceAs (Decidable ((_ ∨ _) ∧ _))

end MpQuic.Stms

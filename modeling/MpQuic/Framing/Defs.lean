import MpQuic.Wire.Frame
import MpQuic.Stms.Framer

namespace MpQuic.Framing

open MpQuic.Library MpQuic.Wire MpQuic.FlowControl
open MpQuic.Stms (contributesToConnection)

def patternDiscard : List UInt8 := [97, 98, 99, 100]

-- The length of a video frame header, without the byte that tells the kinds apart.
def headerlen : Nat := 12

def toInt (n : Nat) : Int :=
  if n < 2 ^ 63 then n else (n : Int) - 2 ^ 64

-- The offsets of the headers that come next in the buffer. There is always at least
-- one entry: -1 stands for no header, -3 for a stream that was never searched.
structure HeaderOffsets where
  first : Int
  rest : List Int
  deriving DecidableEq, Repr

namespace HeaderOffsets

def ofList : List Int → HeaderOffsets
  | [] => ⟨-1, []⟩
  | offset :: rest => ⟨offset, rest⟩

def toList (offsets : HeaderOffsets) : List Int :=
  offsets.first :: offsets.rest

-- `NextHeaderOff[1:]`, or -1 if that would be empty.
def next (offsets : HeaderOffsets) : HeaderOffsets :=
  ofList offsets.rest

def nextFromFirst (offsets : HeaderOffsets) : HeaderOffsets :=
  ofList (offsets.rest.map (· - offsets.first))

def behind (offsets : HeaderOffsets) (maxLen : Int) : HeaderOffsets :=
  ofList ((offsets.toList.filter (· > maxLen)).map (· - maxLen))

end HeaderOffsets

-- The fields of a stream that the framer reads and writes. A nil slice is `none`.
-- The indices of the I-frame are -1 without one, and the start is -2 once it was sent.
structure Stream where
  err : Bool
  finishedWriting : Bool
  finSent : Bool
  dataForWriting : Option (List UInt8)
  writeOffset : Nat
  iStartinx : Int
  iEndinx : Int
  nextHeaderOff : HeaderOffsets
  cansendpattern : Bool
  deriving DecidableEq, Repr

def newStream : Stream where
  err := false
  finishedWriting := false
  finSent := false
  dataForWriting := none
  writeOffset := 0
  iStartinx := -1
  iEndinx := -1
  nextHeaderOff := ⟨-3, []⟩
  cansendpattern := true

def isHeader (data : List UInt8) (i : Nat) : Bool :=
  (data.getD i 0 = 6 && data.getD (i + 1) 0 = 0 && data.getD (i + 7) 0 = 8 &&
      data.getD (i + 8) 0 = 1) ||
    (data.getD i 0 = 7 && data.getD (i + 1) 0 = 0 && data.getD (i + 7) 0 = 9 &&
      data.getD (i + 8) 0 = 1 && (data.getD (i + 12) 0 = 23 || data.getD (i + 12) 0 = 39))

def isIHeader (data : List UInt8) (i : Nat) : Bool :=
  data.getD i 0 = 7 && data.getD (i + 12) 0 = 23

structure FoundHeaders where
  headers : List Nat
  iStartinx : Int
  iEndinx : Int
  deriving DecidableEq, Repr

-- The loop of `FindIframe` over the positions. There is room for 30 headers, and the
-- loop ends at the first one behind an I-frame.
def findHeaders (data : List UInt8) : List Nat → Nat → Int → Int → Option FoundHeaders
  | [], _, iStartinx, iEndinx => some ⟨[], iStartinx, iEndinx⟩
  | i :: rest, countheader, iStartinx, iEndinx =>
    if isHeader data i then
      if countheader ≥ 30 then none
      else if iStartinx ≠ -1 then
        some ⟨[i], iStartinx, if i ≠ 0 then (i : Int) - 1 else -2⟩
      else
        (findHeaders data rest (countheader + 1) (if isIHeader data i then i else iStartinx)
          iEndinx).map fun found => { found with headers := i :: found.headers }
    else findHeaders data rest countheader iStartinx iEndinx

namespace Stream

def findIframe (s : Stream) : Option Stream :=
  let data := s.dataForWriting.getD []
  (findHeaders data (List.range (data.length - 12)) 0 s.iStartinx s.iEndinx).map fun found =>
    { s with
      iStartinx := found.iStartinx
      iEndinx := found.iEndinx
      nextHeaderOff := HeaderOffsets.ofList (found.headers.map Int.ofNat) }

def write (iPriority : Bool) (s : Stream) (p : List UInt8) : Option Stream :=
  if s.err then some s
  else if s.finishedWriting then some s
  else if p.length = 0 then some s
  else
    let s := { s with dataForWriting := some p }
    if iPriority then s.findIframe else some s

def close (s : Stream) : Stream :=
  { s with finishedWriting := true }

def lenOfDataForWriting (s : Stream) : Nat :=
  if s.err then 0 else (s.dataForWriting.getD []).length

def shouldSendFin (s : Stream) : Bool :=
  s.finishedWriting && !s.finSent && !s.err && s.dataForWriting.isNone

def sentFin (s : Stream) : Stream :=
  { s with finSent := true }

def getDataForWriting (s : Stream) (maxBytes : Nat) : Stream × Option (List UInt8) :=
  if s.err then (s, none)
  else
    match s.dataForWriting with
    | none => (s, none)
    | some data =>
      if data.length > maxBytes then
        ({ s with
            dataForWriting := some (data.drop maxBytes)
            writeOffset := s.writeOffset + maxBytes }, some (data.take maxBytes))
      else
        ({ s with
            dataForWriting := none
            writeOffset := s.writeOffset + data.length }, some data)

def dropToHeader (s : Stream) (data : List UInt8) : Option Stream :=
  (sliceFrom data s.nextHeaderOff.first.toNat).map fun rest =>
    { s with dataForWriting := some rest, nextHeaderOff := s.nextHeaderOff.nextFromFirst }

end Stream

def copyHeaders (data : List UInt8) : List Int → Option (List UInt8)
  | [] => some []
  | offset :: rest =>
    if offset < 0 then none
    else do
      let header ← slice data offset.toNat (offset.toNat + headerlen)
      let later ← copyHeaders data rest
      some (header ++ later)

structure Discarded where
  stream : Stream
  flagBwUnenough : Bool
  retPattern : List UInt8
  retPatternCnt : Nat
  deriving DecidableEq, Repr

namespace Stream

-- The bandwidth is too small. An I-frame that starts in this packet is sent. Otherwise
-- what comes before the next header is discarded, and if that is not the header of
-- an I-frame then only the headers are kept.
def discardLack (flagBwUnenough : Bool) (maxLen : Nat) (s : Stream) : Option Discarded :=
  let data := s.dataForWriting.getD []
  if 0 ≤ s.iStartinx ∧ s.iStartinx < toInt maxLen then
    some
      ⟨{ s with
          nextHeaderOff :=
            if s.nextHeaderOff.first < toInt maxLen then s.nextHeaderOff.next else s.nextHeaderOff
          cansendpattern := true },
        flagBwUnenough, [], 0⟩
  else if 0 ≤ s.nextHeaderOff.first then
    let change := if flagBwUnenough then 0 else 1
    if 0 ≤ s.iStartinx then
      let s : Stream := { s with iStartinx := 0, cansendpattern := false }
      (s.dropToHeader data).map fun s => ⟨s, flagBwUnenough, patternDiscard, change⟩
    else
      (copyHeaders data s.nextHeaderOff.toList).map fun headers =>
        ⟨{ s with
            dataForWriting := some headers
            nextHeaderOff := ⟨-1, []⟩
            cansendpattern := false },
          flagBwUnenough, patternDiscard, s.nextHeaderOff.toList.length + change⟩
  else if s.nextHeaderOff.first = -1 then
    let s' := { s with dataForWriting := none, cansendpattern := false }
    if flagBwUnenough = false ∨ s.cansendpattern = true then
      some ⟨s', flagBwUnenough, patternDiscard, 1⟩
    else some ⟨s', flagBwUnenough, [], 0⟩
  else some ⟨s, flagBwUnenough, [], 0⟩

-- The bandwidth has become sufficient. What comes before the next header is still
-- discarded.
def discardRest (s : Stream) : Option Discarded :=
  let data := s.dataForWriting.getD []
  if 0 ≤ s.nextHeaderOff.first then
    let s : Stream := { s with iStartinx := if 0 ≤ s.iStartinx then 0 else s.iStartinx }
    (s.dropToHeader data).map fun s => ⟨s, false, [], 0⟩
  else if s.nextHeaderOff.first = -1 then
    some ⟨{ s with dataForWriting := none }, false, [], 0⟩
  else some ⟨s, false, [], 0⟩

def discard (iPriority lackbw flagBwUnenough : Bool) (maxLen : Nat) (s : Stream) :
    Option Discarded :=
  let discarded :=
    if iPriority && lackbw && s.nextHeaderOff.first ≠ -3 then s.discardLack flagBwUnenough maxLen
    else if iPriority && !lackbw && flagBwUnenough then s.discardRest
    else some ⟨s, flagBwUnenough, [], 0⟩
  discarded.map fun d =>
    if iPriority && lackbw && d.stream.nextHeaderOff.first ≠ -3 then
      { d with flagBwUnenough := true }
    else d

end Stream

-- The variables of the framer once it has the data of a frame. `maxLen` is an
-- unsigned 64-bit integer, and `wrapped` says whether it went below zero.
structure Gathered where
  stream : Stream
  data : Option (List UInt8)
  maxLen : Nat
  wrapped : Bool
  deriving DecidableEq, Repr

namespace Stream

def addPattern (s : Stream) (pattern : List UInt8) : Stream :=
  { s with writeOffset := s.writeOffset + pattern.length }

def gatherHeaders (pattern : List UInt8) :
    Nat → Stream → Option (List UInt8) → Nat → Bool → Gathered
  | 0, s, data, maxLen, wrapped => ⟨s, data, maxLen, wrapped⟩
  | patterncnt + 1, s, data, maxLen, wrapped =>
    let taken := s.getDataForWriting headerlen
    gatherHeaders pattern patterncnt (taken.1.addPattern pattern)
      (some (data.getD [] ++ taken.2.getD [] ++ pattern))
      (if maxLen < headerlen then maxLen + 2 ^ 64 - headerlen else maxLen - headerlen)
      (wrapped || maxLen < headerlen)

-- The data of a frame. With more markers than headers one of them comes first.
def gather (s : Stream) (pattern : List UInt8) (patterncnt maxLen : Nat) : Gathered :=
  if patterncnt > 0 then
    if patterncnt > (s.dataForWriting.getD []).length / headerlen then
      let taken := s.getDataForWriting maxLen
      gatherHeaders pattern (patterncnt - 1) (taken.1.addPattern pattern)
        (some (pattern ++ taken.2.getD [])) maxLen false
    else gatherHeaders pattern patterncnt s none maxLen false
  else
    let taken := s.getDataForWriting maxLen
    ⟨taken.1, taken.2, maxLen, false⟩

def updateIndices (s : Stream) (maxLen : Int) : Stream :=
  if s.iStartinx = -1 ∧ s.iEndinx = -1 then s
  else if -2 ≤ s.iStartinx ∧ s.iStartinx < maxLen then
    if s.iEndinx = -1 then { s with iStartinx := -2 }
    else if s.iEndinx < maxLen then { s with iStartinx := -1, iEndinx := -1 }
    else { s with iStartinx := 0, iEndinx := s.iEndinx - maxLen }
  else if s.iStartinx ≥ maxLen then
    if s.iEndinx = -1 then { s with iStartinx := s.iStartinx - maxLen }
    else if s.iEndinx = -2 then { s with iStartinx := -1, iEndinx := -1 }
    else { s with iEndinx := s.iEndinx - maxLen }
  else s

def takeData (iPriority lackbw flagBwUnenough : Bool) (maxLen : Nat) (s : Stream) :
    Option (Gathered × Bool) :=
  (s.discard iPriority lackbw flagBwUnenough maxLen).map fun d =>
    let gathered := d.stream.gather d.retPattern d.retPatternCnt maxLen
    let stream := { gathered.stream with
      nextHeaderOff := gathered.stream.nextHeaderOff.behind (toInt gathered.maxLen) }
    ({ gathered with stream := stream.updateIndices (toInt gathered.maxLen) }, d.flagBwUnenough)

end Stream

-- The stream framer with the map of streams it iterates over. `openStreams` lists
-- the keys of the map in the order in which the streams were opened. The switch is
-- the one of the configuration, and the flag is the one of the scheduler.
structure Framer where
  iPriority : Bool
  streams : Nat → Option Stream
  openStreams : List Nat
  roundRobinIndex : Nat
  flowControlManager : FlowControlManager
  blockedFrameQueue : List BlockedFrame
  flagBwUnenough : Bool

def newFramer (iPriority : Bool) (params : ConnectionParameters) : Framer where
  iPriority := iPriority
  streams := fun _ => none
  openStreams := []
  roundRobinIndex := 0
  flowControlManager := newFlowControlManager params
  blockedFrameQueue := []
  flagBwUnenough := false

namespace Framer

def setStream (f : Framer) (streamID : Nat) (s : Stream) : Framer :=
  { f with streams := Function.update f.streams streamID (some s) }

def openStream (f : Framer) (streamID : Nat) : Framer :=
  match f.streams streamID with
  | some _ => f
  | none =>
    { f.setStream streamID newStream with
      openStreams := f.openStreams ++ [streamID]
      flowControlManager :=
        f.flowControlManager.newStream streamID (contributesToConnection streamID) }

def write (f : Framer) (streamID : Nat) (p : List UInt8) : Option Framer :=
  match f.streams streamID with
  | none => some f
  | some s => (s.write f.iPriority p).map (f.setStream streamID)

def close (f : Framer) (streamID : Nat) : Framer :=
  match f.streams streamID with
  | none => f
  | some s => f.setStream streamID s.close

def streamWindow (f : Framer) (streamID : Nat) : Nat :=
  match f.flowControlManager.streamFlowController streamID with
  | none => 0
  | some c => c.getSendWindow f.flowControlManager.params

def connWindow (f : Framer) : Nat :=
  f.flowControlManager.connFlowController.getSendWindow f.flowControlManager.params

end Framer

-- A frame with what the framer went by when it put it together: the bytes left in the
-- packet, what flow control allowed, the two windows, and whether `maxLen` wrapped.
structure Emission where
  frame : StreamFrame
  room : Nat
  sendWindowSize : Nat
  streamWindow : Nat
  connWindow : Nat
  wrapped : Bool
  deriving DecidableEq, Repr

-- The variables of `maybePopNormalFrames` that live across the streams. `cont` says
-- whether the iteration goes on.
structure PopState where
  framer : Framer
  currentLen : Nat
  cont : Bool

def frameHeaderBytes (streamID : Nat) (s : Stream) : Nat :=
  StreamFrame.minLength ⟨streamID, false, true, s.writeOffset, []⟩

def popData (f : Framer) (lackbw : Bool) (maxLen : Nat) (s : Stream) : Option (Gathered × Bool) :=
  if s.lenOfDataForWriting ≠ 0 then
    s.takeData f.iPriority lackbw f.flagBwUnenough maxLen
  else some (⟨s, none, maxLen, false⟩, f.flagBwUnenough)

-- The end of `fn`: a FIN that is due goes along, and the bytes are charged.
def finishFrame (maxBytes sendWindowSize headerBytes streamID : Nat) (st : PopState) (s : Stream)
    (gathered : Gathered) (flagBwUnenough : Bool) : PopState × List Emission :=
  let fin := gathered.stream.shouldSendFin
  let framer : Framer := { st.framer with flagBwUnenough := flagBwUnenough }
  if gathered.data.isNone && !fin then
    ({ st with framer := framer.setStream streamID gathered.stream }, [])
  else
    let frame : StreamFrame := ⟨streamID, fin, true, s.writeOffset, gathered.data.getD []⟩
    let fcm := framer.flowControlManager.addBytesSent streamID frame.dataLen
    let blocked : List BlockedFrame :=
      if fcm.remainingConnectionWindowSize = 0 then [⟨0⟩]
      else if !fin && sendWindowSize = frame.dataLen then [⟨streamID⟩]
      else []
    let currentLen := st.currentLen + (headerBytes + frame.dataLen)
    ({ framer := { framer.setStream streamID
          (if fin then gathered.stream.sentFin else gathered.stream) with
          flowControlManager := fcm
          blockedFrameQueue := framer.blockedFrameQueue ++ blocked }
       currentLen := currentLen
       cont := currentLen ≠ maxBytes },
      [⟨frame, maxBytes - st.currentLen, st.framer.flowControlManager.sendWindowSize streamID,
        st.framer.streamWindow streamID, st.framer.connWindow, gathered.wrapped⟩])

def popFromStream (maxBytes : Nat) (lackbw : Bool) (st : PopState) (streamID : Nat) (s : Stream) :
    Option (PopState × List Emission) :=
  if streamID = 1 then some (st, [])
  else
    let headerBytes := frameHeaderBytes streamID s
    if st.currentLen + headerBytes > maxBytes then some ({ st with cont := false }, [])
    else
      let maxLen := maxBytes - st.currentLen - headerBytes
      let sendWindowSize :=
        if s.lenOfDataForWriting ≠ 0 then st.framer.flowControlManager.sendWindowSize streamID
        else 0
      let maxLen := if s.lenOfDataForWriting ≠ 0 then min maxLen sendWindowSize else maxLen
      if maxLen = 0 then some (st, [])
      else
        (popData st.framer lackbw maxLen s).map fun popped =>
          finishFrame maxBytes sendWindowSize headerBytes streamID st s popped.1 popped.2

-- The streams 1 and 3 come first. The others follow, and the index moves on with
-- each of them.
inductive Visit where
  | prioritized (streamID : Nat)
  | inTurn (streamID : Nat)
  deriving DecidableEq, Repr

def PopState.moveOn (st : PopState) : PopState :=
  { st with
    framer := { st.framer with
      roundRobinIndex := (st.framer.roundRobinIndex + 1) % st.framer.openStreams.length } }

-- A prioritized stream that is not in the map is passed over. Another one that is not
-- there ends the iteration.
def visit (maxBytes : Nat) (lackbw : Bool) (st : PopState) :
    Visit → Option (PopState × List Emission)
  | .prioritized streamID =>
    if st.cont = false then some (st, [])
    else
      match st.framer.streams streamID with
      | none => some (st, [])
      | some s => popFromStream maxBytes lackbw st streamID s
  | .inTurn streamID =>
    if st.cont = false then some (st, [])
    else if streamID = 1 ∨ streamID = 3 then some (st, [])
    else
      match st.framer.streams streamID with
      | none => some ({ st with cont := false }, [])
      | some s =>
        (popFromStream maxBytes lackbw st streamID s).map fun popped =>
          (popped.1.moveOn, popped.2)

def Framer.visits (f : Framer) : List Visit :=
  [.prioritized 1, .prioritized 3] ++ (f.openStreams.rotate f.roundRobinIndex).map .inTurn

def maybePopNormalFrames (f : Framer) (maxBytes : Nat) (lackbw : Bool) :
    Option (Framer × List Emission) :=
  (run (visit maxBytes lackbw) ⟨f, 0, true⟩ f.visits).map fun popped => (popped.1.framer, popped.2)

-- What happens to the framer. `flag` stands for another writer of the flag.
inductive Event where
  | openStream (streamID : Nat)
  | write (streamID : Nat) (p : List UInt8)
  | close (streamID : Nat)
  | updateWindow (streamID offset : Nat)
  | flag (flagBwUnenough : Bool)
  | pop (maxBytes : Nat) (lackbw : Bool)
  deriving DecidableEq, Repr

def step (f : Framer) : Event → Option (Framer × List Emission)
  | .openStream streamID => some (f.openStream streamID, [])
  | .write streamID p => (f.write streamID p).map fun f => (f, [])
  | .close streamID => some (f.close streamID, [])
  | .updateWindow streamID offset =>
    some ({ f with flowControlManager := f.flowControlManager.updateWindow streamID offset }, [])
  | .flag flagBwUnenough => some ({ f with flagBwUnenough := flagBwUnenough }, [])
  | .pop maxBytes lackbw => maybePopNormalFrames f maxBytes lackbw

-- Only a stream that was opened is written to and closed. A write that is not
-- refused starts when the buffer is nil, since the one before waits for that.
def Ready (f : Framer) : Event → Prop
  | .write streamID _ =>
    ((f.streams streamID).any fun s => s.finishedWriting || s.dataForWriting.isNone) = true
  | .close streamID => (f.streams streamID).isSome = true
  | _ => True

instance (f : Framer) : (event : Event) → Decidable (Ready f event)
  | .write _ _ | .close _ => inferInstanceAs (Decidable (_ = true))
  | .openStream _ | .updateWindow _ _ | .flag _ | .pop _ _ => isTrue trivial

end MpQuic.Framing

import MpQuic.Stms.Defs
import MpQuic.Wire.StreamFrame
import MpQuic.FlowControl.Defs

namespace MpQuic.Stms

open MpQuic.Library MpQuic.Wire MpQuic.FlowControl

-- What `maybePopNormalFramesSTMS` does with one stream once the room in the
-- packet is known: `maxLen` bytes of payload are left, and `sendWindowSize` is
-- what flow control allows. A stream that has neither data nor a FIN to send
-- gives no frame.
def popStreamFrame (streamID : Nat) (s : Stream) (gap : Int) (maxLen sendWindowSize : Nat) :
    Option (Stream × Option StreamFrame) :=
  let lenStreamData := s.lenOfDataForWriting
  let maxLen := if lenStreamData ≠ 0 then min maxLen sendWindowSize else maxLen
  if maxLen = 0 then some (s, none)
  else do
    let taken ←
      if lenStreamData ≠ 0 then getDataForWritingSTMS s maxLen gap else some ⟨s, none, false⟩
    let shouldSendFin := taken.stream.shouldSendFin
    if taken.ret.isNone && !shouldSendFin then some (taken.stream, none)
    else
      some (if shouldSendFin then taken.stream.sentFin else taken.stream,
        some {
          streamID := streamID
          finBit := shouldSendFin
          dataLenPresent := true
          offset := frameOffset s gap
          data := taken.ret.getD [] })

-- The stream framer with the map of streams it iterates over. `openStreams` lists
-- the keys of the map in the order in which the streams were opened.
structure Framer where
  streams : Nat → Option Stream
  openStreams : List Nat
  roundRobinIndex : Nat
  flowControlManager : FlowControlManager
  blockedFrameQueue : List Nat

def newFramer (params : ConnectionParameters) : Framer where
  streams := fun _ => none
  openStreams := []
  roundRobinIndex := 0
  flowControlManager := newFlowControlManager params
  blockedFrameQueue := []

-- The crypto stream and the header stream have only a window of their own.
def contributesToConnection (streamID : Nat) : Bool :=
  streamID ≠ 1 && streamID ≠ 3

namespace Framer

def setStream (f : Framer) (streamID : Nat) (s : Stream) : Framer :=
  { f with streams := Function.update f.streams streamID (some s) }

def openStream (f : Framer) (streamID : Nat) : Framer :=
  match f.streams streamID with
  | some _ => f
  | none =>
    { f.setStream streamID newStream with
      openStreams := f.openStreams ++ [streamID]
      flowControlManager :=
        f.flowControlManager.newStream streamID (contributesToConnection streamID) }

def write (f : Framer) (streamID : Nat) (p : List UInt8) : Framer :=
  match f.streams streamID with
  | none => f
  | some s => f.setStream streamID (s.write p)

end Framer

structure PopState where
  framer : Framer
  res : List StreamFrame
  currentLen : Nat

def frameHeaderBytes (streamID : Nat) (s : Stream) (gap : Int) : Nat :=
  StreamFrame.minLength ⟨streamID, false, true, frameOffset s gap, []⟩

def allowedBytes (fcm : FlowControlManager) (streamID : Nat) (s : Stream) : Nat :=
  if s.lenOfDataForWriting ≠ 0 then fcm.sendWindowSize streamID else 0

-- The function passed to `RoundRobinIterate`. The answer says whether to go on.
def popFromStream (maxBytes : Nat) (gap : Int) (st : PopState) (streamID : Nat) (s : Stream) :
    Option (PopState × Bool) :=
  if streamID = 1 then some (st, true)
  else
    let headerBytes := frameHeaderBytes streamID s gap
    if st.currentLen + headerBytes > maxBytes then some (st, false)
    else
      let maxLen := maxBytes - st.currentLen - headerBytes
      let fcm := st.framer.flowControlManager
      let sendWindowSize := allowedBytes fcm streamID s
      match popStreamFrame streamID s gap maxLen sendWindowSize with
      | none => none
      | some (t, none) => some ({ st with framer := st.framer.setStream streamID t }, true)
      | some (t, some frame) =>
        let fcm := fcm.addBytesSent streamID frame.dataLen
        let blocked :=
          if fcm.remainingConnectionWindowSize = 0 then [0]
          else if !frame.finBit && sendWindowSize = frame.dataLen then [streamID]
          else []
        let currentLen := st.currentLen + (headerBytes + frame.dataLen)
        some
          ({ framer := { st.framer.setStream streamID t with
              flowControlManager := fcm
              blockedFrameQueue := st.framer.blockedFrameQueue ++ blocked }
             res := st.res ++ [frame]
             currentLen := currentLen }, currentLen ≠ maxBytes)

-- The streams 1 and 3 come first. A stream that is not in the map is passed over.
def iteratePrioritized (maxBytes : Nat) (gap : Int) :
    PopState → List Nat → Option (PopState × Bool)
  | st, [] => some (st, true)
  | st, streamID :: rest =>
    match st.framer.streams streamID with
    | none => iteratePrioritized maxBytes gap st rest
    | some s =>
      match popFromStream maxBytes gap st streamID s with
      | none => none
      | some (next, true) => iteratePrioritized maxBytes gap next rest
      | some (next, false) => some (next, false)

-- The others follow in the order of the list. The index moves on with each of them.
def iterateRest (maxBytes : Nat) (gap : Int) : PopState → List Nat → Option PopState
  | st, [] => some st
  | st, streamID :: rest =>
    if streamID = 1 ∨ streamID = 3 then iterateRest maxBytes gap st rest
    else
      match st.framer.streams streamID with
      | none => some st
      | some s =>
        match popFromStream maxBytes gap st streamID s with
        | none => none
        | some (next, cont) =>
          let next := { next with
            framer := { next.framer with
              roundRobinIndex :=
                (next.framer.roundRobinIndex + 1) % next.framer.openStreams.length } }
          if cont then iterateRest maxBytes gap next rest else some next

def maybePopNormalFramesSTMS (f : Framer) (maxBytes : Nat) (gap : Int) :
    Option (Framer × List StreamFrame) :=
  match iteratePrioritized maxBytes gap ⟨f, [], 0⟩ [1, 3] with
  | none => none
  | some (st, false) => some (st.framer, st.res)
  | some (st, true) =>
    (iterateRest maxBytes gap st (f.openStreams.rotate f.roundRobinIndex)).map fun st =>
      (st.framer, st.res)

section Equations

variable {s : Stream} (streamID : Nat) (gap : Int) (maxLen sendWindowSize : Nat)

theorem popStreamFrame_nil (hd : s.dataForWriting = none) :
    popStreamFrame streamID s gap maxLen sendWindowSize = some
      (if maxLen ≠ 0 ∧ s.shouldSendFin = true then
        (s.sentFin, some ⟨streamID, true, true, frameOffset s gap, []⟩)
      else (s, none)) := by
  have hlen : s.lenOfDataForWriting = 0 := by simp [Stream.lenOfDataForWriting, hd]
  by_cases hm : maxLen = 0
  · simp [popStreamFrame, hlen, hm]
  · cases hfin : s.shouldSendFin <;> simp [popStreamFrame, hlen, hm, hfin]

theorem popStreamFrame_blocked (hlen : s.lenOfDataForWriting ≠ 0)
    (hm : min maxLen sendWindowSize = 0) :
    popStreamFrame streamID s gap maxLen sendWindowSize = some (s, none) := by
  simp [popStreamFrame, hlen, hm]

theorem popStreamFrame_data (hlen : s.lenOfDataForWriting ≠ 0)
    (hm : min maxLen sendWindowSize ≠ 0) {taken : Taken}
    (ht : getDataForWritingSTMS s (min maxLen sendWindowSize) gap = some taken) :
    popStreamFrame streamID s gap maxLen sendWindowSize = some
      (if taken.ret = none ∧ taken.stream.shouldSendFin = false then (taken.stream, none)
      else (if taken.stream.shouldSendFin then taken.stream.sentFin else taken.stream,
        some ⟨streamID, taken.stream.shouldSendFin, true, frameOffset s gap,
          taken.ret.getD []⟩)) := by
  simp only [popStreamFrame, if_pos hlen, if_neg hm, ht, Option.bind_eq_bind, Option.bind_some]
  cases taken.ret <;> cases taken.stream.shouldSendFin <;> simp

end Equations

end MpQuic.Stms

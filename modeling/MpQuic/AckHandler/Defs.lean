import MpQuic.Library.Run
import MpQuic.Protocol
import MpQuic.Wire.Frame

namespace MpQuic.AckHandler

open MpQuic.Library MpQuic.Protocol MpQuic.Wire

variable {σ : Type}

def maxTrackedSkippedPackets : Nat := 10

def maxTrackedSentPackets : Nat := 300 * 2500

def maxTailLossProbes : Nat := 2

def maxNonRetransmittablePackets : Nat := 19

structure Packet (σ : Type) where
  packetNumber : Nat
  frames : List (Frame σ)
  length : Nat
  encryptionLevel : EncryptionLevel
  sendTime : Int
  needRetrans : Bool
  deriving DecidableEq, Repr

def isFrameRetransmittable : Frame σ → Bool
  | .control (.stopWaiting _) => false
  | .control (.ack _) => false
  | _ => true

def isFrameRetransmittableForRed : Frame σ → Bool
  | .control (.stopWaiting _) => false
  | .stream _ => false
  | _ => true

def Packet.getFramesForRetransmission (p : Packet σ) : List (Frame σ) :=
  p.frames.filter fun frame =>
    match frame with
    | .control (.ack _) => false
    | .control (.stopWaiting _) => false
    | _ => true

def stripNonRetransmittableFrames (fs : List (Frame σ)) : List (Frame σ) :=
  fs.filter isFrameRetransmittable

def hasRetransmittableFramesForRed (fs : List (Frame σ)) : Bool :=
  fs.any isFrameRetransmittableForRed

def Packet.isRetransmittable (p : Packet σ) : Bool :=
  p.frames.any fun f =>
    match f with
    | .stream _ => true
    | .control (.rstStream _) => true
    | .control (.windowUpdate _) => true
    | .control (.blocked _) => true
    | .control .ping => true
    | .control (.goaway _) => true
    | .control (.addAddress _) => true
    | .control (.paths _) => true
    | _ => false

structure StopWaitingManager where
  largestLeastUnackedSent : Nat
  nextLeastUnacked : Nat
  lastStopWaitingFrame : Option StopWaitingFrame
  deriving DecidableEq, Repr

def StopWaitingManager.receivedAck (s : StopWaitingManager) (ack : AckFrame) :
    StopWaitingManager :=
  if ack.largestAcked ≥ s.nextLeastUnacked then
    { s with nextLeastUnacked := ack.largestAcked + 1 }
  else s

def StopWaitingManager.queuedRetransmissionForPacketNumber (s : StopWaitingManager) (p : Nat) :
    StopWaitingManager :=
  if p ≥ s.nextLeastUnacked then { s with nextLeastUnacked := p + 1 } else s

-- The frame for the peer, unless it was sent before. With `force` it is sent again.
def StopWaitingManager.getStopWaitingFrame (s : StopWaitingManager) (force : Bool) :
    StopWaitingManager × Option StopWaitingFrame :=
  let swf : StopWaitingFrame := ⟨s.nextLeastUnacked, 0, 0⟩
  if s.nextLeastUnacked ≤ s.largestLeastUnackedSent then
    if force then
      if s.lastStopWaitingFrame = none ∧ s.largestLeastUnackedSent > 0 then
        ({ s with lastStopWaitingFrame := some swf }, some swf)
      else (s, s.lastStopWaitingFrame)
    else (s, none)
  else
    ({ s with largestLeastUnackedSent := s.nextLeastUnacked, lastStopWaitingFrame := some swf },
      some swf)

-- `lossTime` is `none` for the zero time. `bytesInFlight` is an unsigned 64-bit
-- integer.
structure SentPacketHandler (σ : Type) where
  lastSentPacketNumber : Nat
  skippedPackets : List Nat
  numNonRetransmittablePackets : Nat
  largestAcked : Nat
  largestReceivedPacketWithAck : Nat
  packetHistory : List (Packet σ)
  stopWaitingManager : StopWaitingManager
  retransmissionQueue : List (Packet σ)
  bytesInFlight : Nat
  rtoCount : Nat
  tlpCount : Nat
  lossTime : Option Int
  packets : Nat
  retransmissions : Nat
  losses : Nat
  lostbytes : Nat
  deriving DecidableEq, Repr

def newSentPacketHandler : SentPacketHandler σ where
  lastSentPacketNumber := 0
  skippedPackets := []
  numNonRetransmittablePackets := 0
  largestAcked := 0
  largestReceivedPacketWithAck := 0
  packetHistory := []
  stopWaitingManager := ⟨0, 0, none⟩
  retransmissionQueue := []
  bytesInFlight := 0
  rtoCount := 0
  tlpCount := 0
  lossTime := none
  packets := 0
  retransmissions := 0
  losses := 0
  lostbytes := 0

inductive AckError where
  | errPacketNumberNotIncreasing
  | errTooManyTrackedSentPackets
  | errAckForUnsentPacket
  | errDuplicateOrOutOfOrderAck
  | errAckForSkippedPacket
  | bugAckedWrongPacket
  deriving DecidableEq, Repr

-- The inner loop of the two functions that look for acknowledged packets: it goes
-- on to the range that reaches up to the packet, but not beyond the last one. The
-- ranges are walked from the lowest to the highest.
def skipRanges (packetNumber : Nat) : List AckRange → List AckRange
  | [] => []
  | [ackRange] => [ackRange]
  | ackRange :: next :: rest =>
    if packetNumber > ackRange.last then skipRanges packetNumber (next :: rest)
    else ackRange :: next :: rest

def determineNewlyAcked (f : AckBlocks) :
    List AckRange → List (Packet σ) → Except AckError (List (Packet σ))
  | _, [] => .ok []
  | ranges, packet :: rest =>
    if packet.packetNumber < f.lowestAcked then determineNewlyAcked f ranges rest
    else if packet.packetNumber > f.largestAcked then .ok []
    else if f.hasMissingRanges then
      match skipRanges packet.packetNumber ranges with
      | [] => .ok []
      | ackRange :: later =>
        if packet.packetNumber ≥ ackRange.first then
          if packet.packetNumber > ackRange.last then .error .bugAckedWrongPacket
          else (determineNewlyAcked f (ackRange :: later) rest).map (packet :: ·)
        else determineNewlyAcked f (ackRange :: later) rest
    else (determineNewlyAcked f ranges rest).map (packet :: ·)

namespace SentPacketHandler

def largestInOrderAcked (h : SentPacketHandler σ) : Nat :=
  match h.packetHistory with
  | f :: _ => f.packetNumber - 1
  | [] => h.largestAcked

def getLeastUnacked (h : SentPacketHandler σ) : Nat :=
  h.largestInOrderAcked + 1

def shouldSendRetransmittablePacket (h : SentPacketHandler σ) : Bool :=
  h.numNonRetransmittablePackets ≥ maxNonRetransmittablePackets

def getStopWaitingFrame (h : SentPacketHandler σ) (force : Bool) :
    SentPacketHandler σ × Option StopWaitingFrame :=
  let answer := h.stopWaitingManager.getStopWaitingFrame force
  ({ h with stopWaitingManager := answer.1 }, answer.2)

-- The packet numbers that were left out are remembered, but not more than
-- `maxTrackedSkippedPackets` of them.
def skip (skipped : List Nat) (p : Nat) : List Nat :=
  let skipped := skipped ++ [p]
  if skipped.length > maxTrackedSkippedPackets then skipped.drop 1 else skipped

def sentPacket (h : SentPacketHandler σ) (packet : Packet σ) (now : Int) :
    SentPacketHandler σ × Option AckError :=
  if packet.packetNumber ≤ h.lastSentPacketNumber then
    (h, some .errPacketNumberNotIncreasing)
  else if h.retransmissionQueue.length + h.packetHistory.length + 1 > maxTrackedSentPackets then
    (h, some .errTooManyTrackedSentPackets)
  else
    let skipped := (List.range' (h.lastSentPacketNumber + 1)
      (packet.packetNumber - (h.lastSentPacketNumber + 1))).foldl skip h.skippedPackets
    let h := { h with
      skippedPackets := skipped
      lastSentPacketNumber := packet.packetNumber
      packets := h.packets + 1 }
    let packet := { packet with frames := stripNonRetransmittableFrames packet.frames }
    let isRetransmittable := packet.frames.length ≠ 0 ∧
      ¬(packet.needRetrans = false ∧ hasRetransmittableFramesForRed packet.frames = false)
    if isRetransmittable then
      ({ h with
          bytesInFlight := (h.bytesInFlight + packet.length) % 2 ^ 64
          packetHistory := h.packetHistory ++ [{ packet with sendTime := now }]
          numNonRetransmittablePackets := 0 },
        none)
    else
      ({ h with numNonRetransmittablePackets := h.numNonRetransmittablePackets + 1 }, none)

def remove (history : List (Packet σ)) (packet : Packet σ) : List (Packet σ) :=
  history.eraseP fun p => p.packetNumber = packet.packetNumber

def onPacketAcked (h : SentPacketHandler σ) (packet : Packet σ) : SentPacketHandler σ :=
  { h with
    bytesInFlight := (h.bytesInFlight + 2 ^ 64 - packet.length % 2 ^ 64) % 2 ^ 64
    rtoCount := 0
    tlpCount := 0
    packetHistory := remove h.packetHistory packet }

def queuePacketForRetransmission (h : SentPacketHandler σ) (packet : Packet σ) :
    SentPacketHandler σ :=
  { h with
    bytesInFlight := (h.bytesInFlight + 2 ^ 64 - packet.length % 2 ^ 64) % 2 ^ 64
    retransmissionQueue := h.retransmissionQueue ++ [packet]
    packetHistory := remove h.packetHistory packet
    stopWaitingManager :=
      h.stopWaitingManager.queuedRetransmissionForPacketNumber packet.packetNumber }

def countLost (h : SentPacketHandler σ) (lostPackets : List (Packet σ)) : SentPacketHandler σ :=
  { h with
    losses := h.losses + lostPackets.length
    lostbytes := (h.lostbytes + (lostPackets.map (·.length)).sum) % 2 ^ 64 }

def upToLargestAcked (h : SentPacketHandler σ) : List (Packet σ) :=
  h.packetHistory.takeWhile fun p => p.packetNumber ≤ h.largestAcked

-- `delayUntilLost` is 9/8 of the larger one of the two round trip times.
def detectLostPackets (h : SentPacketHandler σ) (now delayUntilLost : Int) :
    SentPacketHandler σ :=
  let lostPackets := h.upToLargestAcked.filter fun p => now - p.sendTime > delayUntilLost
  let waiting := h.upToLargestAcked.find? fun p => ¬(now - p.sendTime > delayUntilLost)
  let h := { h with
    lossTime := waiting.map fun (p : Packet σ) => now + (delayUntilLost - (now - p.sendTime)) }
  lostPackets.foldl queuePacketForRetransmission (h.countLost lostPackets)

def setInflightAsLost (h : SentPacketHandler σ) : SentPacketHandler σ :=
  h.upToLargestAcked.foldl queuePacketForRetransmission (h.countLost h.upToLargestAcked)

-- Everything up to the last skipped number that is not above the acknowledged ones
-- is dropped.
def garbageCollectSkippedPackets (h : SentPacketHandler σ) : SentPacketHandler σ :=
  let lioa := h.largestInOrderAcked
  { h with skippedPackets := (h.skippedPackets.reverse.takeWhile fun p => ¬p ≤ lioa).reverse }

def skippedPacketsAcked (h : SentPacketHandler σ) (ackFrame : AckFrame) : Bool :=
  h.skippedPackets.any ackFrame.acksPacket

def skippedPacketsAckedClosePath (h : SentPacketHandler σ) (f : ClosePathFrame) : Bool :=
  h.skippedPackets.any f.acksPacket

def determineNewlyAckedPackets (h : SentPacketHandler σ) (ackFrame : AckFrame) :
    Except AckError (List (Packet σ)) :=
  determineNewlyAcked ackFrame.toAckBlocks ackFrame.ackRanges.reverse h.packetHistory

def determineNewlyAckedPacketsClosePath (h : SentPacketHandler σ) (f : ClosePathFrame) :
    Except AckError (List (Packet σ)) :=
  determineNewlyAcked f.toAckBlocks f.ackRanges.reverse h.packetHistory

def receivedAck (h : SentPacketHandler σ) (ackFrame : AckFrame) (withPacketNumber : Nat)
    (now delayUntilLost : Int) : SentPacketHandler σ × Option AckError :=
  if ackFrame.largestAcked > h.lastSentPacketNumber then (h, some .errAckForUnsentPacket)
  else if withPacketNumber ≤ h.largestReceivedPacketWithAck then
    (h, some .errDuplicateOrOutOfOrderAck)
  else
    let h := { h with largestReceivedPacketWithAck := withPacketNumber }
    if ackFrame.largestAcked ≤ h.largestInOrderAcked then (h, none)
    else
      let h := { h with largestAcked := ackFrame.largestAcked }
      if h.skippedPacketsAcked ackFrame then (h, some .errAckForSkippedPacket)
      else
        match h.determineNewlyAckedPackets ackFrame with
        | .error err => (h, some err)
        | .ok ackedPackets =>
          let h := ackedPackets.foldl onPacketAcked h
          let h := (h.detectLostPackets now delayUntilLost).garbageCollectSkippedPackets
          ({ h with stopWaitingManager := h.stopWaitingManager.receivedAck ackFrame }, none)

def receivedClosePath (h : SentPacketHandler σ) (f : ClosePathFrame) (withPacketNumber : Nat) :
    SentPacketHandler σ × Option AckError :=
  if f.largestAcked > h.lastSentPacketNumber then (h, some .errAckForUnsentPacket)
  else if withPacketNumber ≤ h.largestReceivedPacketWithAck then
    (h, some .errDuplicateOrOutOfOrderAck)
  else
    let h := { h with largestReceivedPacketWithAck := withPacketNumber }
    if h.skippedPacketsAckedClosePath f then (h, some .errAckForSkippedPacket)
    else
      match h.determineNewlyAckedPacketsClosePath f with
      | .error err => (h, some err)
      | .ok ackedPackets =>
        ((ackedPackets.foldl onPacketAcked h).setInflightAsLost.garbageCollectSkippedPackets,
          none)

def hasOutstandingRetransmittablePacket (h : SentPacketHandler σ) : Bool :=
  h.packetHistory.any (·.isRetransmittable)

def retransmitTLP (h : SentPacketHandler σ) : SentPacketHandler σ :=
  match h.packetHistory.getLast? with
  | none => h
  | some p => h.queuePacketForRetransmission p

def queueRTO (h : SentPacketHandler σ) (p : Packet σ) : SentPacketHandler σ :=
  (h.queuePacketForRetransmission p).countLost [p]

def retransmitAllPackets (h : SentPacketHandler σ) : SentPacketHandler σ :=
  h.packetHistory.foldl queueRTO h

def retransmitOldestPacket (h : SentPacketHandler σ) : SentPacketHandler σ :=
  match h.packetHistory with
  | [] => h
  | p :: _ => h.queueRTO p

def retransmitOldestTwoPackets (h : SentPacketHandler σ) : SentPacketHandler σ :=
  h.retransmitOldestPacket.retransmitOldestPacket

-- `potentiallyFailed` is the answer of the callback.
def onAlarm (h : SentPacketHandler σ) (now delayUntilLost : Int) (potentiallyFailed : Bool) :
    SentPacketHandler σ :=
  if h.hasOutstandingRetransmittablePacket then
    if h.lossTime ≠ none then h.detectLostPackets now delayUntilLost
    else if h.tlpCount < maxTailLossProbes then
      { h.retransmitTLP with tlpCount := h.tlpCount + 1 }
    else
      let h := if potentiallyFailed then h.retransmitAllPackets else h.retransmitOldestTwoPackets
      { h with rtoCount := h.rtoCount + 1 }
  else h

def dequeuePacketForRetransmission (h : SentPacketHandler σ) :
    SentPacketHandler σ × Option (Packet σ) :=
  match h.retransmissionQueue with
  | [] => (h, none)
  | packet :: rest =>
    ({ h with retransmissionQueue := rest, retransmissions := h.retransmissions + 1 },
      some packet)

def duplicatePacket (h : SentPacketHandler σ) (packet : Packet σ) : SentPacketHandler σ :=
  { h with retransmissionQueue := h.retransmissionQueue ++ [packet] }

end SentPacketHandler

inductive Event (σ : Type) where
  | sentPacket (packet : Packet σ) (now : Int)
  | receivedAck (ackFrame : AckFrame) (withPacketNumber : Nat) (now delayUntilLost : Int)
  | receivedClosePath (f : ClosePathFrame) (withPacketNumber : Nat)
  | onAlarm (now delayUntilLost : Int) (potentiallyFailed : Bool)
  | setInflightAsLost
  | dequeuePacketForRetransmission
  | duplicatePacket (packet : Packet σ)

def step (h : SentPacketHandler σ) :
    Event σ → Option (SentPacketHandler σ × List (Option AckError))
  | .sentPacket packet now =>
    some ((h.sentPacket packet now).1, [(h.sentPacket packet now).2])
  | .receivedAck ackFrame withPacketNumber now delayUntilLost =>
    let received := h.receivedAck ackFrame withPacketNumber now delayUntilLost
    some (received.1, [received.2])
  | .receivedClosePath f withPacketNumber =>
    some ((h.receivedClosePath f withPacketNumber).1, [(h.receivedClosePath f withPacketNumber).2])
  | .onAlarm now delayUntilLost potentiallyFailed =>
    some (h.onAlarm now delayUntilLost potentiallyFailed, [])
  | .setInflightAsLost => some (h.setInflightAsLost, [])
  | .dequeuePacketForRetransmission => some (h.dequeuePacketForRetransmission.1, [])
  | .duplicatePacket packet => some (h.duplicatePacket packet, [])

end MpQuic.AckHandler

import MpQuic.Wire.Write

namespace MpQuic.Congestion

open MpQuic.Wire (sub64)

def scale : Nat := 10

def defaultTCPMSS : Nat := 1460

def maxBurstBytes : Nat := 3 * defaultTCPMSS

def defaultMinimumCongestionWindow : Nat := 2

def defaultNumConnections : Nat := 2

def renoBeta : ℚ := 7 / 10

def utilityGainMin : ℚ := 4 / 5

def utilityGainMax : ℚ := 6 / 5

def utilityBackoffMin : ℚ := 9 / 10

def utilityBackoffMax : ℚ := 11 / 10

def int64 (x : Int) : Int :=
  x.bmod (2 ^ 64)

def uint64 (x : Int) : Nat :=
  (x % 2 ^ 64).toNat

def oliaScale (val : Nat) : Nat :=
  val * 2 ^ scale % 2 ^ 64

-- The byte counts are unsigned 64-bit integers, `epsilonDen` has 32 bits and
-- `sndCwndCnt` is a signed 64-bit integer.
structure Olia where
  loss1 : Nat
  loss2 : Nat
  loss3 : Nat
  epsilonNum : Int
  epsilonDen : Nat
  sndCwndCnt : Int
  deriving DecidableEq, Repr

namespace Olia

def new (ackedBytes : Nat) : Olia :=
  ⟨ackedBytes, ackedBytes, ackedBytes, 0, 1, 0⟩

def reset (_ : Olia) : Olia :=
  ⟨0, 0, 0, 0, 1, 0⟩

def smoothedBytesBetweenLosses (o : Olia) : Nat :=
  max (sub64 o.loss3 o.loss2) (sub64 o.loss2 o.loss1)

def updateAckedSinceLastLoss (o : Olia) (ackedBytes : Nat) : Olia :=
  { o with loss3 := (o.loss3 + ackedBytes) % 2 ^ 64 }

def onPacketLost (o : Olia) : Olia :=
  { o with loss1 := o.loss2, loss2 := o.loss3 }

def countAck (o : Olia) (currentCongestionWindow rate cwndScaled : Nat) : Int :=
  let incDen := o.epsilonDen * currentCongestionWindow * rate % 2 ^ 64
  let incDen := if incDen = 0 then 1 else incDen
  let square := o.epsilonDen * cwndScaled * cwndScaled % 2 ^ 64
  if o.epsilonNum = -1 then
    if square < rate then
      int64 (o.sndCwndCnt - int64 (oliaScale (rate - square) / incDen : Nat))
    else
      int64 (o.sndCwndCnt + int64 (oliaScale (square - rate) / incDen : Nat))
  else
    let incNum := (uint64 o.epsilonNum * rate + square) % 2 ^ 64
    int64 (o.sndCwndCnt + int64 (oliaScale incNum / incDen : Nat))

def congestionWindowAfterAck (o : Olia) (currentCongestionWindow rate cwndScaled : Nat) :
    Olia × Nat :=
  let sndCwndCnt := o.countAck currentCongestionWindow rate cwndScaled
  if sndCwndCnt ≥ 2 ^ scale - 1 then
    ({ o with sndCwndCnt := 0 }, (currentCongestionWindow + 1) % 2 ^ 64)
  else if sndCwndCnt ≤ 0 - 2 ^ scale + 1 then
    ({ o with sndCwndCnt := 0 }, max 1 (sub64 currentCongestionWindow 1))
  else ({ o with sndCwndCnt := sndCwndCnt }, currentCongestionWindow)

end Olia

-- A congestion window is a number of packets. The values of the utility control are
-- exact, and `smoothedRTT` is what the statistics of the path have in nanoseconds.
structure OliaSender where
  smoothedRTT : Int
  olia : Olia
  slowstartPacketsLost : Nat
  slowstartBytesLost : Nat
  largestSentPacketNumber : Nat
  largestAckedPacketNumber : Nat
  largestSentAtLastCutback : Nat
  congestionWindow : Nat
  slowstartThreshold : Nat
  lastCutbackExitedSlowstart : Bool
  slowStartLargeReduction : Bool
  minCongestionWindow : Nat
  maxTCPCongestionWindow : Nat
  numConnections : Nat
  utilityGain : ℚ
  utilityBackoff : ℚ
  utilitySsAckAccum : ℚ
  deriving DecidableEq

def newOliaSender (smoothedRTT : Int) (initialCongestionWindow initialMaxCongestionWindow : Nat) :
    OliaSender where
  smoothedRTT := smoothedRTT
  olia := Olia.new 0
  slowstartPacketsLost := 0
  slowstartBytesLost := 0
  largestSentPacketNumber := 0
  largestAckedPacketNumber := 0
  largestSentAtLastCutback := 0
  congestionWindow := initialCongestionWindow
  slowstartThreshold := initialMaxCongestionWindow
  lastCutbackExitedSlowstart := false
  slowStartLargeReduction := false
  minCongestionWindow := defaultMinimumCongestionWindow
  maxTCPCongestionWindow := initialMaxCongestionWindow
  numConnections := defaultNumConnections
  utilityGain := 1
  utilityBackoff := 1
  utilitySsAckAccum := 0

structure BestPath where
  bestRTT : Int
  bestBytes : Nat
  deriving DecidableEq, Repr

namespace OliaSender

def squaredRTT (os : OliaSender) : Int :=
  int64 (os.smoothedRTT * os.smoothedRTT)

def bytes (os : OliaSender) : Nat :=
  os.olia.smoothedBytesBetweenLosses

def asBestPath (os : OliaSender) : BestPath :=
  ⟨os.squaredRTT, os.bytes⟩

def reaches (os : OliaSender) (best : BestPath) : Bool :=
  int64 (int64 os.bytes * best.bestRTT) ≥ int64 (int64 best.bestBytes * os.squaredRTT)

end OliaSender

section Loops

variable (senders : Nat → OliaSender)

def getMaxCwnd (order : List Nat) : Nat :=
  order.foldl (fun bestCwnd id => max bestCwnd (senders id).congestionWindow) 0

def getRate (order : List Nat) (pathRTT : Int) : Nat :=
  let rate := order.foldl (fun rate id =>
    let scaledNum := oliaScale (senders id).congestionWindow * uint64 pathRTT % 2 ^ 64
    if (senders id).smoothedRTT ≠ 0 then
      (rate + scaledNum / uint64 (senders id).smoothedRTT) % 2 ^ 64
    else rate) 1
  rate * rate % 2 ^ 64

def getBestPath (order : List Nat) : BestPath :=
  order.foldl (fun best id =>
    if (senders id).reaches best then (senders id).asBestPath else best) ⟨0, 0⟩

-- The sizes of M, the paths with the largest window, and of the other best paths. The
-- counters have 8 bits.
def countPaths (maxCwnd : Nat) (best : BestPath) (order : List Nat) : Nat × Nat :=
  order.foldl (fun counts id =>
    if (senders id).congestionWindow = maxCwnd then ((counts.1 + 1) % 2 ^ 8, counts.2)
    else if (senders id).reaches best then (counts.1, (counts.2 + 1) % 2 ^ 8)
    else counts) (0, 0)

end Loops

-- The numerator and the denominator of epsilon for a path. `paths` is the number of
-- all paths, and `counts` the sizes of M and of the other best paths.
def epsilonOf (paths maxCwnd : Nat) (best : BestPath) (counts : Nat × Nat) (os : OliaSender) :
    Int × Nat :=
  if counts.2 = 0 then (0, 1)
  else if os.congestionWindow < maxCwnd ∧ os.reaches best = true then
    (1, paths * counts.2 % 2 ^ 32)
  else if os.congestionWindow = maxCwnd then (-1, paths * counts.1 % 2 ^ 32)
  else (0, 1)

structure Orders where
  maxCwnd : List Nat
  best : List Nat
  count : List Nat
  assign : List Nat
  rate : List Nat

structure Orders.Of (orders : Orders) (ids : List Nat) : Prop where
  maxCwnd : orders.maxCwnd.Perm ids
  best : orders.best.Perm ids
  count : orders.count.Perm ids
  assign : orders.assign.Perm ids
  rate : orders.rate.Perm ids

def OliaSender.setEpsilon (os : OliaSender) (epsilon : Int × Nat) : OliaSender :=
  { os with olia := { os.olia with epsilonNum := epsilon.1, epsilonDen := epsilon.2 } }

def getEpsilon (senders : Nat → OliaSender) (ids : List Nat) (orders : Orders) :
    Nat → OliaSender :=
  let maxCwnd := getMaxCwnd senders orders.maxCwnd
  let best := getBestPath senders orders.best
  let counts := countPaths senders maxCwnd best orders.count
  orders.assign.foldl (fun senders id => Function.update senders id
    ((senders id).setEpsilon (epsilonOf ids.length maxCwnd best counts (senders id)))) senders

namespace OliaSender

def setUtilityControl (o : OliaSender) (gain backoff : ℚ) : OliaSender :=
  { o with
    utilityGain := min utilityGainMax (max utilityGainMin gain)
    utilityBackoff := min utilityBackoffMax (max utilityBackoffMin backoff) }

def getCongestionWindow (o : OliaSender) : Nat :=
  o.congestionWindow * defaultTCPMSS % 2 ^ 64

def getSlowStartThreshold (o : OliaSender) : Nat :=
  o.slowstartThreshold * defaultTCPMSS % 2 ^ 64

def inSlowStart (o : OliaSender) : Bool :=
  o.getCongestionWindow < o.getSlowStartThreshold

def inRecovery (o : OliaSender) : Bool :=
  o.largestAckedPacketNumber ≤ o.largestSentAtLastCutback ∧ o.largestAckedPacketNumber ≠ 0

def onPacketSent (o : OliaSender) (packetNumber : Nat) (isRetransmittable : Bool) : OliaSender :=
  if isRetransmittable then { o with largestSentPacketNumber := packetNumber } else o

def exitSlowstart (o : OliaSender) : OliaSender :=
  { o with slowstartThreshold := o.congestionWindow, utilitySsAckAccum := 0 }

def isCwndLimited (o : OliaSender) (bytesInFlight : Nat) : Bool :=
  let congestionWindow := o.getCongestionWindow
  if bytesInFlight ≥ congestionWindow then true
  else
    let availableBytes := congestionWindow - bytesInFlight
    (o.inSlowStart && bytesInFlight > congestionWindow / 2) || availableBytes ≤ maxBurstBytes

-- The loop of the slow start takes whole packets from the accumulator until the window
-- is full. `room` is the number of packets that it may still grow by.
def growWindow (congestionWindow : Nat) (accum : ℚ) : Nat → Nat × ℚ
  | 0 => (congestionWindow, accum)
  | room + 1 =>
    if accum ≥ 1 then growWindow (congestionWindow + 1) (accum - 1) room
    else (congestionWindow, accum)

def renoBeta (o : OliaSender) : ℚ :=
  (o.numConnections - 1 + Congestion.renoBeta) / o.numConnections

-- The factor of the window after a loss, which is kept in (0, 1].
def effectiveBeta (o : OliaSender) : ℚ :=
  let effectiveBeta := o.renoBeta * o.utilityBackoff
  let effectiveBeta := if effectiveBeta > 1 then 1 else effectiveBeta
  if effectiveBeta ≤ 0 then 1 / 10 ^ 9 else effectiveBeta

def onFurtherLoss (o : OliaSender) (lostBytes : Nat) : OliaSender :=
  if o.lastCutbackExitedSlowstart then
    let bytesLost := (o.slowstartBytesLost + lostBytes) % 2 ^ 64
    let o := { o with
      slowstartPacketsLost := o.slowstartPacketsLost + 1
      slowstartBytesLost := bytesLost }
    if o.slowStartLargeReduction then
      let o :=
        if o.slowstartPacketsLost = 1 ∨
            bytesLost / defaultTCPMSS > sub64 bytesLost lostBytes / defaultTCPMSS then
          { o with congestionWindow := max (sub64 o.congestionWindow 1) o.minCongestionWindow }
        else o
      { o with slowstartThreshold := o.congestionWindow }
    else o
  else o

def onPacketLost (o : OliaSender) (packetNumber lostBytes : Nat) : OliaSender :=
  if packetNumber ≤ o.largestSentAtLastCutback then o.onFurtherLoss lostBytes
  else
    let slowStart := o.inSlowStart
    let congestionWindow :=
      if o.slowStartLargeReduction ∧ slowStart then sub64 o.congestionWindow 1
      else ⌊(o.congestionWindow : ℚ) * o.effectiveBeta⌋₊
    let congestionWindow :=
      if congestionWindow < o.minCongestionWindow then o.minCongestionWindow else congestionWindow
    { o with
      lastCutbackExitedSlowstart := slowStart
      slowstartPacketsLost := if slowStart then o.slowstartPacketsLost + 1
        else o.slowstartPacketsLost
      olia := o.olia.onPacketLost
      congestionWindow := congestionWindow
      slowstartThreshold := congestionWindow
      largestSentAtLastCutback := o.largestSentPacketNumber }

def onRetransmissionTimeout (o : OliaSender) (packetsRetransmitted : Bool) : OliaSender :=
  if packetsRetransmitted then
    { o with
      largestSentAtLastCutback := 0
      olia := o.olia.reset
      slowstartThreshold := o.congestionWindow / 2
      congestionWindow := o.minCongestionWindow }
  else { o with largestSentAtLastCutback := 0 }

end OliaSender

-- Half packets are rounded away from zero.
def mathRound (x : ℚ) : Int :=
  if x ≥ 0 then ⌊x + 1 / 2⌋ else ⌈x - 1 / 2⌉

def scaledWindow (o : OliaSender) (newCwnd : Nat) : Nat :=
  let delta : ℚ := newCwnd - o.congestionWindow
  let adjusted := o.congestionWindow + delta * o.utilityGain
  (max (o.minCongestionWindow : Int) (min o.maxTCPCongestionWindow (mathRound adjusted))).toNat

-- The second result is the change before it is scaled: a packet in the slow start, and
-- what the algorithm computes in the congestion avoidance.
def maybeIncreaseCwnd (senders : Nat → OliaSender) (ids : List Nat) (orders : Orders) (id : Nat)
    (bytesInFlight : Nat) : (Nat → OliaSender) × Int :=
  let o := senders id
  if o.isCwndLimited bytesInFlight = false then (senders, 0)
  else if o.congestionWindow ≥ o.maxTCPCongestionWindow then (senders, 0)
  else if o.inSlowStart then
    let grown := OliaSender.growWindow o.congestionWindow (o.utilitySsAckAccum + o.utilityGain)
      (o.maxTCPCongestionWindow - o.congestionWindow)
    (Function.update senders id
      { o with congestionWindow := grown.1, utilitySsAckAccum := grown.2 }, 1)
  else
    let senders := getEpsilon senders ids orders
    let o := senders id
    let rate := getRate senders orders.rate o.smoothedRTT
    let cwndScaled := oliaScale o.congestionWindow
    let after := o.olia.congestionWindowAfterAck o.congestionWindow rate cwndScaled
    let newCwnd := min o.maxTCPCongestionWindow after.2
    (Function.update senders id
      { o with olia := after.1, congestionWindow := scaledWindow o newCwnd },
      newCwnd - o.congestionWindow)

def onPacketAcked (senders : Nat → OliaSender) (ids : List Nat) (orders : Orders) (id : Nat)
    (ackedPacketNumber ackedBytes bytesInFlight : Nat) : (Nat → OliaSender) × Int :=
  let o := senders id
  let o := { o with
    largestAckedPacketNumber := max ackedPacketNumber o.largestAckedPacketNumber }
  if o.inRecovery then (Function.update senders id o, 0)
  else
    let o := { o with olia := o.olia.updateAckedSinceLastLoss ackedBytes }
    maybeIncreaseCwnd (Function.update senders id o) ids orders id bytesInFlight

end MpQuic.Congestion

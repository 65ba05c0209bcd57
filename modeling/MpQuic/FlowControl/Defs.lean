import Mathlib

namespace MpQuic.FlowControl

structure ConnectionParameters where
  sendStreamFlowControlWindow : Nat
  sendConnectionFlowControlWindow : Nat
  receiveStreamFlowControlWindow : Nat
  receiveConnectionFlowControlWindow : Nat
  maxReceiveStreamFlowControlWindow : Nat
  maxReceiveConnectionFlowControlWindow : Nat
  deriving DecidableEq, Repr

-- `lastWindowUpdateTime` is `none` for the zero time. Byte counts are unsigned
-- 64-bit integers. The sums and differences that can leave that range are
-- reduced explicitly.
structure FlowController where
  streamID : Nat
  contributesToConnection : Bool
  bytesSent : Nat
  sendWindow : Nat
  lastWindowUpdateTime : Option Int
  bytesRead : Nat
  highestReceived : Nat
  receiveWindow : Nat
  receiveWindowIncrement : Nat
  maxReceiveWindowIncrement : Nat
  deriving DecidableEq, Repr

def newFlowController (params : ConnectionParameters) (streamID : Nat)
    (contributesToConnection : Bool) : FlowController :=
  let window := if streamID = 0 then params.receiveConnectionFlowControlWindow
    else params.receiveStreamFlowControlWindow
  let maxIncrement := if streamID = 0 then params.maxReceiveConnectionFlowControlWindow
    else params.maxReceiveStreamFlowControlWindow
  { streamID := streamID
    contributesToConnection := contributesToConnection
    bytesSent := 0
    sendWindow := 0
    lastWindowUpdateTime := none
    bytesRead := 0
    highestReceived := 0
    receiveWindow := window
    receiveWindowIncrement := window
    maxReceiveWindowIncrement := maxIncrement }

-- The clock and the round trip times that one call reads: `now` when it asks for
-- the time since the last update, `after` when it stores the time of this one.
structure Readings where
  now : Int
  after : Int
  smoothedRTT : Int
  remoteRTTs : List Int
  deriving DecidableEq, Repr

structure MaybeUpdated where
  controller : FlowController
  necessary : Bool
  newIncrement : Nat
  offset : Nat

namespace FlowController

-- As long as no WINDOW_UPDATE has come in, the negotiated window is in force.
def getSendWindow (params : ConnectionParameters) (c : FlowController) : Nat :=
  if c.sendWindow = 0 then
    if c.streamID = 0 then params.sendConnectionFlowControlWindow
    else params.sendStreamFlowControlWindow
  else c.sendWindow

def addBytesSent (c : FlowController) (n : Nat) : FlowController :=
  { c with bytesSent := c.bytesSent + n }

def updateSendWindow (c : FlowController) (newOffset : Nat) : FlowController :=
  if newOffset > c.sendWindow then { c with sendWindow := newOffset } else c

def sendWindowSize (params : ConnectionParameters) (c : FlowController) : Nat :=
  if c.bytesSent > c.getSendWindow params then 0 else c.getSendWindow params - c.bytesSent

-- The new state and the increment. A smaller offset gives an error in the
-- source, which the caller ignores.
def updateHighestReceived (c : FlowController) (byteOffset : Nat) : FlowController × Nat :=
  if byteOffset > c.highestReceived then
    ({ c with highestReceived := byteOffset }, byteOffset - c.highestReceived)
  else (c, 0)

def incrementHighestReceived (c : FlowController) (increment : Nat) : FlowController :=
  { c with highestReceived := (c.highestReceived + increment) % 2 ^ 64 }

def checkFlowControlViolation (c : FlowController) : Bool :=
  c.highestReceived > c.receiveWindow

def addBytesRead (c : FlowController) (n : Nat) (now : Int) : FlowController :=
  { c with
    lastWindowUpdateTime := if c.bytesRead = 0 then some now else c.lastWindowUpdateTime
    bytesRead := (c.bytesRead + n) % 2 ^ 64 }

def tunes (c : FlowController) (r : Readings) : Bool :=
  match c.lastWindowUpdateTime with
  | none => false
  | some last =>
    r.smoothedRTT ≠ 0 && r.now - last < 2 * max r.smoothedRTT (r.remoteRTTs.foldl max 0)

def maybeAdjustWindowIncrement (c : FlowController) (r : Readings) : FlowController :=
  if c.tunes r then
    { c with
      receiveWindowIncrement :=
        min (2 * c.receiveWindowIncrement % 2 ^ 64) c.maxReceiveWindowIncrement }
  else c

def due (c : FlowController) : Bool :=
  (c.receiveWindow + 2 ^ 64 - c.bytesRead) % 2 ^ 64 < c.receiveWindowIncrement / 2

def maybeUpdateWindow (c : FlowController) (r : Readings) : MaybeUpdated :=
  if c.due then
    let adjusted := c.maybeAdjustWindowIncrement r
    let increment := adjusted.receiveWindowIncrement
    let window := (c.bytesRead + increment) % 2 ^ 64
    { controller :=
        { adjusted with lastWindowUpdateTime := some r.after, receiveWindow := window }
      necessary := true
      newIncrement := if increment ≠ c.receiveWindowIncrement then increment else 0
      offset := window }
  else
    { controller := c
      necessary := false
      newIncrement := c.receiveWindowIncrement
      offset := c.receiveWindow }

def ensureMinimumWindowIncrement (c : FlowController) (inc : Nat) : FlowController :=
  if inc > c.receiveWindowIncrement then
    { c with
      receiveWindowIncrement := min inc c.maxReceiveWindowIncrement
      lastWindowUpdateTime := none }
  else c

end FlowController

structure FlowControlManager where
  params : ConnectionParameters
  streamFlowController : Nat → Option FlowController
  connFlowController : FlowController

inductive FlowControlError where
  | errMapAccess
  | flowControlReceivedTooMuchData (message : String)
  | streamDataAfterTermination
  deriving DecidableEq, Repr

structure WindowUpdate where
  streamID : Nat
  offset : Nat
  deriving DecidableEq, Repr

def newFlowControlManager (params : ConnectionParameters) : FlowControlManager where
  params := params
  streamFlowController := fun _ => none
  connFlowController := newFlowController params 0 false

namespace FlowControlManager

def setStream (m : FlowControlManager) (streamID : Nat) (c : FlowController) :
    FlowControlManager :=
  { m with streamFlowController := Function.update m.streamFlowController streamID (some c) }

def newStream (m : FlowControlManager) (streamID : Nat) (contributesToConnection : Bool) :
    FlowControlManager :=
  match m.streamFlowController streamID with
  | some _ => m
  | none => m.setStream streamID (newFlowController m.params streamID contributesToConnection)

def updateHighestReceived (m : FlowControlManager) (streamID byteOffset : Nat) :
    FlowControlManager × Option FlowControlError :=
  match m.streamFlowController streamID with
  | none => (m, some .errMapAccess)
  | some c =>
    let (c, increment) := c.updateHighestReceived byteOffset
    let m := m.setStream streamID c
    let allowed := c.receiveWindow
    if c.checkFlowControlViolation then
      (m, some (.flowControlReceivedTooMuchData
        s!"Received {byteOffset} bytes on stream {streamID}, allowed {allowed} bytes"))
    else if c.contributesToConnection then
      let conn := m.connFlowController.incrementHighestReceived increment
      let received := conn.highestReceived
      let allowed := conn.receiveWindow
      ({ m with connFlowController := conn },
        if conn.checkFlowControlViolation then
          some (.flowControlReceivedTooMuchData
            s!"Received {received} bytes for the connection, allowed {allowed} bytes")
        else none)
    else (m, none)

-- Only here it is an error if the offset is smaller than one that was received before.
def resetStream (m : FlowControlManager) (streamID byteOffset : Nat) :
    FlowControlManager × Option FlowControlError :=
  match m.streamFlowController streamID with
  | none => (m, some .errMapAccess)
  | some c =>
    if byteOffset < c.highestReceived then (m, some .streamDataAfterTermination)
    else m.updateHighestReceived streamID byteOffset

def removeStream (m : FlowControlManager) (streamID : Nat) : FlowControlManager :=
  { m with streamFlowController := Function.update m.streamFlowController streamID none }

def addBytesSent (m : FlowControlManager) (streamID n : Nat) : FlowControlManager :=
  match m.streamFlowController streamID with
  | none => m
  | some c =>
    let m := m.setStream streamID (c.addBytesSent n)
    if c.contributesToConnection then
      { m with connFlowController := m.connFlowController.addBytesSent n }
    else m

-- The source returns 0 with an error for an unknown stream.
def sendWindowSize (m : FlowControlManager) (streamID : Nat) : Nat :=
  match m.streamFlowController streamID with
  | none => 0
  | some c =>
    if c.contributesToConnection then
      min (c.sendWindowSize m.params) (m.connFlowController.sendWindowSize m.params)
    else c.sendWindowSize m.params

def remainingConnectionWindowSize (m : FlowControlManager) : Nat :=
  m.connFlowController.sendWindowSize m.params

def updateWindow (m : FlowControlManager) (streamID offset : Nat) : FlowControlManager :=
  if streamID = 0 then
    { m with connFlowController := m.connFlowController.updateSendWindow offset }
  else
    match m.streamFlowController streamID with
    | none => m
    | some c => m.setStream streamID (c.updateSendWindow offset)

def addBytesRead (m : FlowControlManager) (streamID n : Nat) (now connNow : Int) :
    FlowControlManager :=
  match m.streamFlowController streamID with
  | none => m
  | some c =>
    let m := m.setStream streamID (c.addBytesRead n now)
    if c.contributesToConnection then
      { m with connFlowController := m.connFlowController.addBytesRead n connNow }
    else m

-- One turn of the loop over the streams. The connection window has to stay
-- larger than the one of the stream by a factor of 1.5.
def streamWindowUpdate (force : Bool) (r : Readings) (m : FlowControlManager) (streamID : Nat) :
    FlowControlManager × List WindowUpdate :=
  match m.streamFlowController streamID with
  | none => (m, [])
  | some c =>
    let update := c.maybeUpdateWindow r
    let m := m.setStream streamID update.controller
    if force || update.necessary then
      (if c.contributesToConnection && update.newIncrement ≠ 0 then
          { m with connFlowController :=
              m.connFlowController.ensureMinimumWindowIncrement (update.newIncrement * 3 / 2) }
        else m,
        [⟨streamID, update.offset⟩])
    else (m, [])

def streamWindowUpdates (force : Bool) (readings : Nat → Readings) :
    FlowControlManager → List Nat → FlowControlManager × List WindowUpdate
  | m, [] => (m, [])
  | m, streamID :: rest =>
    let first := streamWindowUpdate force (readings streamID) m streamID
    let later := streamWindowUpdates force readings first.1 rest
    (later.1, first.2 ++ later.2)

-- `order` is the order in which the loop meets the streams of the map. The
-- connection reads the clock as stream 0.
def getWindowUpdates (m : FlowControlManager) (force : Bool) (order : List Nat)
    (readings : Nat → Readings) : FlowControlManager × List WindowUpdate :=
  let streams := streamWindowUpdates force readings m order
  let update := streams.1.connFlowController.maybeUpdateWindow (readings 0)
  ({ streams.1 with connFlowController := update.controller },
    if force || update.necessary then streams.2 ++ [⟨0, update.offset⟩] else streams.2)

end FlowControlManager

end MpQuic.FlowControl

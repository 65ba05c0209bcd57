import MpQuic.Library.Run
import MpQuic.Wire.PublicHeader

namespace MpQuic.Streams

open MpQuic.Library
open MpQuic.Wire (Perspective)

def maxStreamsPerConnection : UInt32 := 100

def maxIncomingDynamicStreamsPerConnection : UInt32 := 100

def maxStreamsMinimumIncrement : UInt32 := 10

def maxNewStreamIDDelta : Nat := 4 * maxStreamsPerConnection.toNat

structure ConnectionParameters where
  maxIncomingDynamicStreamsPerConnection : UInt32
  deriving DecidableEq, Repr

def newConnectionParametersManager : ConnectionParameters :=
  ⟨maxStreamsPerConnection⟩

namespace ConnectionParameters

-- `SetFromMap` with a value for the tag MIDS.
def setFromMap (_h : ConnectionParameters) (clientValue : UInt32) : ConnectionParameters :=
  ⟨min clientValue Streams.maxIncomingDynamicStreamsPerConnection⟩

def getMaxOutgoingStreams (h : ConnectionParameters) : Nat :=
  h.maxIncomingDynamicStreamsPerConnection.toNat

-- The multiplier is 1.1, and the product is rounded down.
def getMaxIncomingStreams (_h : ConnectionParameters) : Nat :=
  let maxStreams := Streams.maxIncomingDynamicStreamsPerConnection
  max (maxStreams + maxStreamsMinimumIncrement).toNat (maxStreams.toNat * 11 / 10)

end ConnectionParameters

inductive StreamsError where
  | tooManyOpenStreams
  | invalidStreamID (message : String)
  | nonExistingStream (message : String)
  | closed (message : String)
  deriving DecidableEq, Repr

-- The counters and the stream IDs have 32 bits. A stream is what `newStream` makes for
-- its ID.
structure StreamsMap (σ : Type*) where
  perspective : Perspective
  connectionParameters : ConnectionParameters
  newStream : Nat → σ
  streams : Nat → Option σ
  openStreams : List Nat
  roundRobinIndex : Nat
  nextStream : Nat
  highestStreamOpenedByPeer : Nat
  closeErr : Option String
  numOutgoingStreams : Nat
  numIncomingStreams : Nat

def increment (n : Nat) : Nat := (n + 1) % 2 ^ 32

def decrement (n : Nat) : Nat := if n = 0 then 2 ^ 32 - 1 else n - 1

variable {σ : Type*}

def newStreamsMap (newStream : Nat → σ) (pers : Perspective) (params : ConnectionParameters) :
    StreamsMap σ where
  perspective := pers
  connectionParameters := params
  newStream := newStream
  streams := fun _ => none
  openStreams := []
  roundRobinIndex := 0
  nextStream := if pers = .client then 1 else 2
  highestStreamOpenedByPeer := 0
  closeErr := none
  numOutgoingStreams := 0
  numIncomingStreams := 0

def opensItself (pers : Perspective) (id : Nat) : Bool :=
  match pers with
  | .server => id % 2 = 0
  | .client => id % 2 = 1

namespace StreamsMap

-- The callers ignore the error for an ID that is already there.
def putStream (m : StreamsMap σ) (id : Nat) : StreamsMap σ :=
  match m.streams id with
  | some _ => m
  | none =>
    { m with
      streams := Function.update m.streams id (some (m.newStream id))
      openStreams := m.openStreams ++ [id] }

def openRemoteStream (m : StreamsMap σ) (id : Nat) : Except StreamsError (StreamsMap σ) :=
  if m.numIncomingStreams ≥ m.connectionParameters.getMaxIncomingStreams then
    .error .tooManyOpenStreams
  else if (id + maxNewStreamIDDelta) % 2 ^ 32 < m.highestStreamOpenedByPeer then
    let highest := m.highestStreamOpenedByPeer
    .error (.invalidStreamID
      s!"attempted to open stream {id}, which is a lot smaller than the highest opened stream, {highest}")
  else
    let m :=
      if m.perspective = .server then
        { m with numIncomingStreams := increment m.numIncomingStreams }
      else { m with numOutgoingStreams := increment m.numOutgoingStreams }
    let m := { m with highestStreamOpenedByPeer := max m.highestStreamOpenedByPeer id }
    .ok (m.putStream id)

-- The loop of `GetOrOpenStream`. The stream IDs at the end of the range are refused by
-- `openRemoteStream`, so that `sid` does not wrap around.
def openRemoteStreams (id : Nat) (m : StreamsMap σ) (sid : Nat) :
    StreamsMap σ × Option StreamsError :=
  if sid ≤ id then
    match m.openRemoteStream sid with
    | .error err => (m, some err)
    | .ok m => openRemoteStreams id m (sid + 2)
  else (m, none)
termination_by id + 1 - sid

def nextRemoteStream (m : StreamsMap σ) : Nat :=
  if m.highestStreamOpenedByPeer + 2 = 2 ∧ m.perspective = .server then 1
  else m.highestStreamOpenedByPeer + 2

def openUpTo (m : StreamsMap σ) (id : Nat) :
    StreamsMap σ × Except StreamsError (Option σ) :=
  match openRemoteStreams id m m.nextRemoteStream with
  | (m, some err) => (m, .error err)
  | (m, none) => (m, .ok (m.streams id))

def getOrOpenStream (m : StreamsMap σ) (id : Nat) :
    StreamsMap σ × Except StreamsError (Option σ) :=
  match m.streams id with
  | some s => (m, .ok (some s))
  | none =>
    match m.perspective with
    | .server =>
      if id % 2 = 0 then
        if id ≤ m.nextStream then (m, .ok none)
        else
          (m, .error (.invalidStreamID s!"attempted to open stream {id} from client-side"))
      else if id ≤ m.highestStreamOpenedByPeer then (m, .ok none)
      else m.openUpTo id
    | .client =>
      if id % 2 = 1 then
        if id ≤ m.nextStream then (m, .ok none)
        else
          (m, .error (.invalidStreamID s!"attempted to open stream {id} from server-side"))
      else if id ≤ m.highestStreamOpenedByPeer then (m, .ok none)
      else m.openUpTo id

def openStreamImpl (m : StreamsMap σ) : Except StreamsError (StreamsMap σ) :=
  if m.numOutgoingStreams ≥ m.connectionParameters.getMaxOutgoingStreams then
    .error .tooManyOpenStreams
  else
    let id := m.nextStream
    let m :=
      if m.perspective = .server then
        { m with numOutgoingStreams := increment m.numOutgoingStreams }
      else { m with numIncomingStreams := increment m.numIncomingStreams }
    let m := { m with nextStream := (m.nextStream + 2) % 2 ^ 32 }
    .ok (m.putStream id)

def openStream (m : StreamsMap σ) : Except StreamsError (StreamsMap σ) :=
  match m.closeErr with
  | some err => .error (.closed err)
  | none => m.openStreamImpl

def removeStream (m : StreamsMap σ) (id : Nat) : Except StreamsError (StreamsMap σ) :=
  match m.streams id with
  | none => .error (.nonExistingStream s!"attempted to remove non-existing stream: {id}")
  | some _ =>
    let m :=
      if id % 2 = 0 then { m with numOutgoingStreams := decrement m.numOutgoingStreams }
      else { m with numIncomingStreams := decrement m.numIncomingStreams }
    .ok { m with
      streams := Function.update m.streams id none
      openStreams := m.openStreams.erase id
      roundRobinIndex :=
        if id ∈ m.openStreams ∧ m.openStreams.idxOf id < m.roundRobinIndex then
          m.roundRobinIndex - 1
        else m.roundRobinIndex }

def closeWithError (m : StreamsMap σ) (err : String) : StreamsMap σ :=
  { m with closeErr := some err }

end StreamsMap

inductive StreamsEvent where
  | openStream
  | getOrOpenStream (id : Nat)
  | removeStream (id : Nat)
  | closeWithError (err : String)
  deriving DecidableEq, Repr

-- What the calls did: `opened` are the streams that a call of `GetOrOpenStream` added.
inductive Entry (σ : Type*) where
  | openStream (id : Nat)
  | getOrOpenStream (id : Nat) (opened : List Nat) (result : Except StreamsError (Option σ))
  | removeStream (id : Nat)

-- Calls of `OpenStream` and `RemoveStream` that fail change nothing.
def streamsStep (m : StreamsMap σ) : StreamsEvent → Option (StreamsMap σ × List (Entry σ))
  | .openStream =>
    match m.openStream with
    | .error _ => some (m, [])
    | .ok next => some (next, [.openStream m.nextStream])
  | .getOrOpenStream id =>
    let got := m.getOrOpenStream id
    some (got.1,
      [.getOrOpenStream id (got.1.openStreams.drop m.openStreams.length) got.2])
  | .removeStream id =>
    match m.removeStream id with
    | .error _ => some (m, [])
    | .ok next => some (next, [.removeStream id])
  | .closeWithError err => some (m.closeWithError err, [])

section Steps

variable {m next : StreamsMap σ} {id : Nat}

@[simp] theorem getMaxIncomingStreams_eq (h : ConnectionParameters) :
    h.getMaxIncomingStreams = 110 := rfl

theorem openRemoteStream_lt (ho : m.openRemoteStream id = .ok next) (hid : id < 2 ^ 32)
    (hhighest : m.highestStreamOpenedByPeer + 2 = id) : id + 2 < 2 ^ 32 := by
  unfold StreamsMap.openRemoteStream at ho
  split at ho
  · cases ho
  split at ho
  · cases ho
  next hdelta =>
    have hd : maxNewStreamIDDelta = 400 := rfl
    rw [hd] at hdelta
    omega

end Steps

end MpQuic.Streams

import MpQuic.AckHandler.Defs
import MpQuic.Packing.Defs

namespace MpQuic.Scheduler

open MpQuic.Library MpQuic.Protocol MpQuic.Wire MpQuic.AckHandler MpQuic.Packing

-- A path with what keeps track of the packets sent on it. Stream frames are references.
structure SessionPath where
  packetNumberGenerator : PacketNumberGenerator
  leastUnacked : Nat
  sentPacketHandler : SentPacketHandler Nat

def SessionPath.toPath (pth : SessionPath) (pathID : Nat) : Packing.Path :=
  ⟨pathID, pth.packetNumberGenerator, pth.leastUnacked⟩

structure Session where
  crypto : CryptoSetup
  packer : Packer
  store : Store
  paths : Nat → Option SessionPath
  pathsFrame : Option PathsFrame

def Session.IsOrder (s : Session) (order : List Nat) : Prop :=
  order.Nodup ∧ ∀ pathID, pathID ∈ order ↔ s.paths pathID ≠ none

-- What the session asks its other parts for when it sends frames again: the receive
-- windows, where there is an error for a stream that is closed, and a PATHS frame.
structure Environment where
  getReceiveWindow : Nat → Option Nat
  newPathsFrame : PathsFrame

namespace Session

def setPath (s : Session) (pathID : Nat) (pth : SessionPath) : Session :=
  { s with paths := Function.update s.paths pathID (some pth) }

def queueControlFrame (s : Session) (frame : ControlFrame) (pathID : Nat) : Session :=
  { s with packer := s.packer.queueControlFrame frame pathID }

def addFrameForRetransmission (s : Session) (ref : Nat) : Session :=
  { s with
    packer := { s.packer with
      streamFramer := { s.packer.streamFramer with
        retransmissionQueue := s.packer.streamFramer.retransmissionQueue ++ [ref] } } }

def retransmissionQueue (s : Session) : List Nat :=
  s.packer.streamFramer.retransmissionQueue

def dequeuePacket (s : Session) : List Nat → Option (Nat × Packet Nat × Session)
  | [] => none
  | pathID :: rest =>
    match s.paths pathID with
    | none => s.dequeuePacket rest
    | some pth =>
      match pth.sentPacketHandler.dequeuePacketForRetransmission with
      | (_, none) => s.dequeuePacket rest
      | (handler, some packet) =>
        some (pathID, packet, s.setPath pathID { pth with sentPacketHandler := handler })

-- A frame of a lost packet is queued again. A window update that is no longer the
-- newest one is left out, and a new PATHS frame replaces the old one.
def requeueFrame (env : Environment) (pathID : Nat) (s : Session) : Frame Nat → Session
  | .stream ref => s.addFrameForRetransmission ref
  | .control (.windowUpdate f) =>
    match env.getReceiveWindow f.streamID with
    | none => s
    | some currentOffset =>
      if f.byteOffset ≥ currentOffset then s.queueControlFrame (.windowUpdate f) pathID else s
  | .control (.paths _) => { s with pathsFrame := some env.newPathsFrame }
  | .control frame => s.queueControlFrame frame pathID

end Session

structure Retransmission where
  session : Session
  hasRetransmission : Bool
  retransmitPacket : Option (Packet Nat)
  pth : Option Nat
  dequeued : List (Packet Nat)

def Retransmission.after (pathID : Nat) (packet : Packet Nat) (later : Retransmission) :
    Retransmission :=
  { later with
    hasRetransmission := true
    pth := later.pth.orElse fun _ => some pathID
    dequeued := packet :: later.dequeued }

namespace Session

-- The loop of `getRetransmission`. Every round goes over the paths in some order, and
-- it takes a packet, so there are no more rounds than packets.
def retransmitLoop (env : Environment) : Nat → (Nat → List Nat) → Session → Retransmission
  | 0, _, s => ⟨s, false, none, none, []⟩
  | fuel + 1, orders, s =>
    match s.dequeuePacket (orders 0) with
    | none => ⟨s, false, none, none, []⟩
    | some (pathID, packet, s) =>
      if packet.encryptionLevel ≠ .forwardSecure then
        if s.crypto.handshakeComplete then
          (retransmitLoop env fuel (fun round => orders (round + 1)) s).after pathID packet
        else ⟨s, true, some packet, some pathID, [packet]⟩
      else
        (retransmitLoop env fuel (fun round => orders (round + 1))
          (packet.getFramesForRetransmission.foldl (requeueFrame env pathID) s)).after
          pathID packet

def queuedOn (s : Session) (pathID : Nat) : List (Packet Nat) :=
  match s.paths pathID with
  | none => []
  | some pth => pth.sentPacketHandler.retransmissionQueue

def queuedTotal (s : Session) (order : List Nat) : Nat :=
  (order.map fun pathID => (s.queuedOn pathID).length).sum

def getRetransmission (env : Environment) (orders : Nat → List Nat) (s : Session) :
    Retransmission :=
  s.retransmitLoop env (s.queuedTotal (orders 0) + 1) orders

def pack (s : Session) (pathID : Nat) (routine : Packer → Store → Path → Packed) :
    Session × Except PackError (Option PackedPacket) :=
  match s.paths pathID with
  | none => (s, .ok none)
  | some pth =>
    let packed := routine s.packer s.store (pth.toPath pathID)
    ({ s with packer := packed.packer, store := packed.store }.setPath pathID
        { pth with packetNumberGenerator := packed.path.packetNumberGenerator },
      packed.result)

def trackedPacket (packet : PackedPacket) (needRetrans : Bool) : Packet Nat where
  packetNumber := packet.number
  frames := packet.frames
  length := (packet.raw.map Raw.length).getD 0
  encryptionLevel := packet.encryptionLevel
  sendTime := 0
  needRetrans := needRetrans

def sendPackedPacket (s : Session) (packet : PackedPacket) (pathID : Nat) (needRetrans : Bool)
    (now : Int) : Session × Option AckError :=
  match s.paths pathID with
  | none => (s, none)
  | some pth =>
    let sent := pth.sentPacketHandler.sentPacket (trackedPacket packet needRetrans) now
    (s.setPath pathID { pth with sentPacketHandler := sent.1 }, sent.2)

def queueStopWaiting (s : Session) (pathID : Nat) (force : Bool) : Session :=
  match s.paths pathID with
  | none => s
  | some pth =>
    let answer := pth.sentPacketHandler.getStopWaitingFrame force
    let s := s.setPath pathID { pth with sentPacketHandler := answer.1 }
    match answer.2 with
    | none => s
    | some swf => s.queueControlFrame (.stopWaiting swf) pathID

-- An ACK frame that is nil takes the place of the one that was queued.
def queueAckFrame (s : Session) (pathID : Nat) (ack : Option AckFrame) : Session :=
  { s with packer := { s.packer with
      ackFrame := Function.update s.packer.ackFrame pathID ack } }

end Session

structure SendCall where
  pathID : Nat
  packet : Option PackedPacket
  deriving DecidableEq, Repr

def SendCall.IsPacket (call : SendCall) : Prop :=
  call.packet.any (fun packet => packet.raw.isSome) = true

instance (call : SendCall) : Decidable call.IsPacket :=
  inferInstanceAs (Decidable (_ = true))

structure Ongoing where
  session : Session
  running : Bool

-- What was packed is sent, unless there is an error. Without a packet the call panics,
-- and without its bytes they cannot be given back to the buffer pool.
def Session.sendPacked (pathID : Nat) (needRetrans : Bool) (now : Int)
    (packed : Session × Except PackError (Option PackedPacket)) : Ongoing × List SendCall :=
  match packed.2 with
  | .error _ => (⟨packed.1, false⟩, [])
  | .ok none => (⟨packed.1, false⟩, [⟨pathID, none⟩])
  | .ok (some packet) =>
    let sent := packed.1.sendPackedPacket packet pathID needRetrans now
    (⟨sent.1, sent.2.isNone && packet.raw.isSome⟩, [⟨pathID, some packet⟩])

-- The turn of a path in `ackRemainingPaths`: the ACK frame it has to send, and what the
-- packer asks for.
structure AckTurn where
  pathID : Nat
  ack : Option AckFrame
  streams : Streams
  random : Option Nat
  now : Int

namespace Session

def queueWindowUpdates (s : Session) (pathID : Nat) (frames : List WindowUpdateFrame) : Session :=
  frames.foldl (fun s wuf => s.queueControlFrame (.windowUpdate wuf) pathID) s

def prepareAck (s : Session) (turn : AckTurn) : Session :=
  (s.queueStopWaiting turn.pathID false).queueAckFrame turn.pathID turn.ack

def packAck (s : Session) (turn : AckTurn) : Session × Except PackError (Option PackedPacket) :=
  match turn.ack with
  | some _ => s.pack turn.pathID (Packer.packAckPacket s.crypto turn.random)
  | none => s.pack turn.pathID (Packer.packPacket s.crypto turn.streams turn.random)

end Session

-- The body of the loop of `ackRemainingPaths`. The first path is left out if it has no
-- ACK frame to send.
def ackPath (windowUpdateFrames : List WindowUpdateFrame) (st : Ongoing) (turn : AckTurn) :
    Option (Ongoing × List SendCall) :=
  if st.running = false ∨ st.session.paths turn.pathID = none then some (st, [])
  else
    let s := st.session.queueWindowUpdates turn.pathID windowUpdateFrames
    if turn.ack = none ∧ (windowUpdateFrames = [] ∨ turn.pathID = 0) then some (⟨s, true⟩, [])
    else
      let s := s.prepareAck turn
      some (Session.sendPacked turn.pathID true turn.now (s.packAck turn))

def Session.ackRemainingPaths (s : Session) (windowUpdateFrames : List WindowUpdateFrame)
    (turns : List AckTurn) : Option (Ongoing × List SendCall) :=
  run (ackPath windowUpdateFrames) ⟨s, true⟩ turns

-- The branch of the schedulers for a handshake packet that has to be sent again.
def Session.retransmitHandshake (s : Session) (packet : Packet Nat) (firstpath : Nat)
    (hasSealer : Bool) (random : Option Nat) (now : Int) : Ongoing × List SendCall :=
  match s.paths firstpath with
  | none => (⟨s, false⟩, [])
  | some pth =>
    let answer := pth.sentPacketHandler.getStopWaitingFrame true
    let s := s.setPath firstpath { pth with sentPacketHandler := answer.1 }
    let s := { s with packer := { s.packer with
      stopWaiting := Function.update s.packer.stopWaiting firstpath answer.2 } }
    Session.sendPacked firstpath true now (s.pack firstpath
      (Packer.packHandshakeRetransmission s.crypto hasSealer packet.encryptionLevel packet.frames
        random))

end MpQuic.Scheduler

import MpQuic.Library.Heap
import MpQuic.Protocol
import MpQuic.Wire.PublicHeader

namespace MpQuic.Packing

open MpQuic.Library MpQuic.Protocol MpQuic.Wire

def nonForwardSecurePacketSizeReduction : Nat := 50

def overhead : Nat := 12

-- The stream frames are objects that queues, histories and packets share.
abbrev Store := Heap StreamFrame

structure PacketNumberGenerator where
  averagePeriod : Nat
  next : Nat
  nextToSkip : Nat
  deriving DecidableEq, Repr

namespace PacketNumberGenerator

def peek (g : PacketNumberGenerator) : Nat :=
  g.next

-- `random` is the random number, or nothing if the source of randomness fails.
def generateNewSkip (g : PacketNumberGenerator) (random : Option Nat) : PacketNumberGenerator :=
  match random with
  | none => g
  | some num =>
    { g with nextToSkip := g.next + 2 + num * (g.averagePeriod - 1) / (0xFFFF / 2) }

def pop (g : PacketNumberGenerator) (random : Option Nat) : PacketNumberGenerator × Nat :=
  let next := g.next
  let g := { g with next := g.next + 1 }
  if g.next = g.nextToSkip then
    (({ g with next := g.next + 1 } : PacketNumberGenerator).generateNewSkip random, next)
  else (g, next)

end PacketNumberGenerator

structure Path where
  pathID : Nat
  packetNumberGenerator : PacketNumberGenerator
  leastUnacked : Nat
  deriving DecidableEq, Repr

-- What the packer asks the crypto setup and the session for. The levels are those of
-- `GetSealer` and of `GetSealerForCryptoStream`. A nonce has 32 bytes once it is made.
structure CryptoSetup where
  level : EncryptionLevel
  cryptoStreamLevel : EncryptionLevel
  diversificationNonce : List UInt8
  handshakeComplete : Bool
  nonce_le : diversificationNonce.length ≤ 32
  deriving DecidableEq, Repr

-- A frame that a stream hands out. It is a new object, and its length is written.
structure NewFrame where
  streamID : Nat
  finBit : Bool
  offset : Nat
  data : List UInt8
  streamID_lt : streamID < 2 ^ 32
  end_lt : offset + data.length < 2 ^ 64

def NewFrame.toStreamFrame (f : NewFrame) : StreamFrame where
  streamID := f.streamID
  finBit := f.finBit
  dataLenPresent := true
  offset := f.offset
  data := f.data

structure Handout where
  frames : List NewFrame
  blocked : List BlockedFrame

-- What a call gets from the streams: the buffer and the offset of the crypto stream,
-- and what the other streams hand out for a number of bytes, and a gap with STMS.
structure Streams where
  cryptoData : List UInt8
  cryptoOffset : Nat
  cryptoEnd_lt : cryptoOffset + cryptoData.length < 2 ^ 64
  maybePopNormalFrames : Nat → Handout
  maybePopNormalFramesSTMS : Nat → Int → Handout

namespace Streams

def hasCryptoStreamFrame (s : Streams) : Bool :=
  s.cryptoData.length > 0

-- The frame of the crypto stream has no length, as it is alone in its packet.
def popCryptoStreamFrame (s : Streams) (maxLen : Nat) : StreamFrame :=
  let frame : StreamFrame := ⟨1, false, false, s.cryptoOffset, []⟩
  { frame with data := s.cryptoData.take (maxLen - frame.minLength) }

end Streams

structure StreamFramer where
  retransmissionQueue : List Nat
  blockedFrameQueue : List BlockedFrame
  deriving DecidableEq, Repr

def maybeSplitOffFrame (frame : StreamFrame) (n : Nat) : Option (StreamFrame × StreamFrame) :=
  if n ≥ frame.dataLen then none
  else
    some
      ({ streamID := frame.streamID
         finBit := false
         dataLenPresent := frame.dataLenPresent
         offset := frame.offset
         data := frame.data.take n },
       { frame with data := frame.data.drop n, offset := frame.offset + n })

structure Popped where
  store : Store
  queue : List Nat
  res : List Nat
  currentLen : Nat

-- The loop of `maybePopFramesForRetransmission`. The frame in front of the queue gets
-- its length back before it is looked at.
def maybePopFramesForRetransmission (maxLen : Nat) : Store → List Nat → Nat → Popped
  | store, [], currentLen => ⟨store, [], [], currentLen⟩
  | store, ref :: rest, currentLen =>
    let frame := { store.get ref with dataLenPresent := true }
    let store := store.set ref frame
    let frameHeaderLen := frame.minLength
    if currentLen + frameHeaderLen ≥ maxLen then ⟨store, ref :: rest, [], currentLen⟩
    else
      let currentLen := currentLen + frameHeaderLen
      match maybeSplitOffFrame frame (maxLen - currentLen) with
      | some (split, left) =>
        ⟨(store.set ref left).alloc split, ref :: rest, [store.next],
          currentLen + split.dataLen⟩
      | none =>
        let later :=
          maybePopFramesForRetransmission maxLen store rest (currentLen + frame.dataLen)
        { later with res := ref :: later.res }

structure PoppedFrames where
  framer : StreamFramer
  store : Store
  frames : List Nat

-- `PopStreamFrames` and `PopStreamFramesSTMS`, which differ in what they ask the
-- streams for.
def popStreamFrames (popNormal : Nat → Handout) (framer : StreamFramer) (store : Store)
    (maxLen : Nat) : PoppedFrames :=
  let popped := maybePopFramesForRetransmission maxLen store framer.retransmissionQueue 0
  let handout := popNormal (maxLen - popped.currentLen)
  { framer :=
      { retransmissionQueue := popped.queue
        blockedFrameQueue := framer.blockedFrameQueue ++ handout.blocked }
    store := popped.store.allocAll (handout.frames.map NewFrame.toStreamFrame)
    frames := popped.res ++ List.range' popped.store.next handout.frames.length }

structure Packer where
  connectionID : Nat
  perspective : Perspective
  version : Int
  truncateConnectionID : Bool
  streamFramer : StreamFramer
  controlFrames : List ControlFrame
  stopWaiting : Nat → Option StopWaitingFrame
  ackFrame : Nat → Option AckFrame
  firstpayloadFrames : List Nat

inductive PackError where
  | wire (err : WireError)
  | header (err : HeaderError)
  | payloadTooLarge (payloadLength maxFrameSize : Nat)
  | bugPeekedAndPopped
  | bugNoAckFrameQueued
  | bugForwardSecureHandshake
  | bugNoStopWaitingFrame
  | noSealer
  deriving DecidableEq, Repr

structure Raw where
  header : List UInt8
  payload : List UInt8
  deriving DecidableEq, Repr

def Raw.length (raw : Raw) : Nat :=
  raw.header.length + raw.payload.length + overhead

structure PackedPacket where
  number : Nat
  raw : Option Raw
  frames : List (Frame Nat)
  encryptionLevel : EncryptionLevel
  deriving DecidableEq, Repr

-- What a call leaves behind and returns. Nothing is returned for the nil packet.
structure Packed where
  packer : Packer
  store : Store
  path : Path
  result : Except PackError (Option PackedPacket)

def writeFrame (version : Int) (store : Store) : Frame Nat → Except WireError (List UInt8)
  | .stream ref => (store.get ref).write version
  | .control frame => frame.write version

def writeFrames (version : Int) (store : Store) :
    List (Frame Nat) → Except WireError (List UInt8)
  | [] => .ok []
  | frame :: rest =>
    match writeFrame version store frame with
    | .error err => .error err
    | .ok bytes =>
      match writeFrames version store rest with
      | .error err => .error err
      | .ok later => .ok (bytes ++ later)

structure TakenControl where
  taken : List ControlFrame
  left : List ControlFrame
  payloadLength : Nat
  err : Option WireError

-- The loop goes from the last control frame to the first one. The list given to it
-- is reversed, and so is the one it leaves.
def takeControlFrames (maxFrameSize : Nat) : List ControlFrame → Nat → TakenControl
  | [], payloadLength => ⟨[], [], payloadLength, none⟩
  | frame :: rest, payloadLength =>
    match frame.minLength with
    | .error err => ⟨[], frame :: rest, payloadLength, some err⟩
    | .ok minLength =>
      if payloadLength + minLength > maxFrameSize then
        ⟨[], frame :: rest, payloadLength, none⟩
      else
        let later := takeControlFrames maxFrameSize rest (payloadLength + minLength)
        { later with taken := frame :: later.taken }

-- What `composeNextPacket` leaves behind and returns. `blocked` are the BLOCKED frames
-- that it took from the framer and queued for the next packet.
structure Composed where
  packer : Packer
  store : Store
  blocked : List BlockedFrame
  result : Except PackError (List (Frame Nat))

-- The last frame of a packet does not need a length.
def clearLastDataLen (store : Store) (frames : List Nat) : Store :=
  match frames.getLast? with
  | none => store
  | some ref => store.set ref { store.get ref with dataLenPresent := false }

namespace Packer

def canSendData (p : Packer) (encLevel : EncryptionLevel) : Bool :=
  match p.perspective with
  | .client => encLevel.rank ≥ EncryptionLevel.secure.rank
  | .server => encLevel = .forwardSecure

def getPublicHeader (p : Packer) (crypto : CryptoSetup) (encLevel : EncryptionLevel) (pth : Path) :
    PublicHeader :=
  let multipath := crypto.handshakeComplete && p.version ≥ versionMP
  let clientVersion := p.perspective = .client ∧ encLevel ≠ .forwardSecure
  { connectionID := p.connectionID
    pathID := if multipath then pth.pathID else 0
    versionFlag := clientVersion
    resetFlag := false
    truncateConnectionID := if multipath then false else p.truncateConnectionID
    multipathFlag := multipath
    packetNumberLen := getPacketNumberLengthForPublicHeader pth.packetNumberGenerator.peek
      pth.leastUnacked
    packetNumber := pth.packetNumberGenerator.peek
    versionNumber := if clientVersion then p.version else 0
    diversificationNonce :=
      if p.perspective = .server ∧ encLevel = .secure then crypto.diversificationNonce else [] }

def queueControlFrame (p : Packer) (frame : ControlFrame) (pathID : Nat) : Packer :=
  match frame with
  | .stopWaiting f => { p with stopWaiting := Function.update p.stopWaiting pathID (some f) }
  | .ack f => { p with ackFrame := Function.update p.ackFrame pathID (some f) }
  | f => { p with controlFrames := p.controlFrames ++ [f] }

-- The STOP_WAITING frame of the path gets the number of the packet that is packed.
def numberStopWaiting (p : Packer) (pathID : Nat) (publicHeader : PublicHeader) : Packer :=
  match p.stopWaiting pathID with
  | none => p
  | some f =>
    { p with
      stopWaiting := Function.update p.stopWaiting pathID
        (some { f with
          packetNumber := publicHeader.packetNumber
          packetNumberLen := publicHeader.packetNumberLen }) }

def clearPending (p : Packer) (pathID : Nat) : Packer :=
  { p with
    stopWaiting := Function.update p.stopWaiting pathID none
    ackFrame := Function.update p.ackFrame pathID none }

-- The STOP_WAITING and the ACK frame come first in a packet.
def pending (p : Packer) (pathID : Nat) : List ControlFrame :=
  ((p.stopWaiting pathID).map ControlFrame.stopWaiting).toList ++
    ((p.ackFrame pathID).map ControlFrame.ack).toList

def totalMinLength : List ControlFrame → Except WireError Nat
  | [] => .ok 0
  | frame :: rest =>
    match frame.minLength with
    | .error err => .error err
    | .ok minLength =>
      match totalMinLength rest with
      | .error err => .error err
      | .ok later => .ok (minLength + later)

-- `composeNextPacket` and `composeNextPacketSTMS`, which differ in what they ask the
-- streams for. For the stream frames the limit is raised by the two bytes that the
-- last of them saves.
def composeWith (popNormal : Nat → Handout) (p : Packer) (store : Store) (maxFrameSize : Nat)
    (canSendStreamFrames : Bool) (pathID : Nat) : Composed :=
  match totalMinLength (p.pending pathID) with
  | .error err => ⟨p, store, [], .error (.wire err)⟩
  | .ok payloadLength =>
    let control := takeControlFrames maxFrameSize p.controlFrames.reverse payloadLength
    let payloadFrames := (p.pending pathID ++ control.taken).map Frame.control
    let payloadLength := control.payloadLength
    let p := { p with controlFrames := control.left.reverse }
    match control.err with
    | some err => ⟨p, store, [], .error (.wire err)⟩
    | none =>
      if payloadLength > maxFrameSize then
        ⟨p, store, [], .error (.payloadTooLarge payloadLength maxFrameSize)⟩
      else if canSendStreamFrames then
        let popped :=
          popStreamFrames popNormal p.streamFramer store (maxFrameSize + 2 - payloadLength)
        ⟨{ p with
            streamFramer := { popped.framer with blockedFrameQueue := [] }
            controlFrames :=
              p.controlFrames ++ popped.framer.blockedFrameQueue.map ControlFrame.blocked },
          clearLastDataLen popped.store popped.frames, popped.framer.blockedFrameQueue,
          .ok (payloadFrames ++ popped.frames.map Frame.stream)⟩
      else ⟨p, store, [], .ok payloadFrames⟩

def composeNextPacket (streams : Streams) : Packer → Store → Nat → Bool → Nat → Composed :=
  composeWith streams.maybePopNormalFrames

def composeNextPacketSTMS (streams : Streams) (gap : Int) :
    Packer → Store → Nat → Bool → Nat → Composed :=
  composeWith fun maxBytes => streams.maybePopNormalFramesSTMS maxBytes gap

-- The bytes of a packet, or nothing if they are too many. The number of the packet
-- is used up only when it is sealed.
def writeAndSealPacket (p : Packer) (store : Store) (publicHeader : PublicHeader)
    (payloadFrames : List (Frame Nat)) (random : Option Nat) (pth : Path) :
    Path × Except PackError (Option Raw) :=
  match publicHeader.write p.version p.perspective with
  | .error err => (pth, .error (.header err))
  | .ok header =>
    match writeFrames p.version store payloadFrames with
    | .error err => (pth, .error (.wire err))
    | .ok payload =>
      if header.length + payload.length + overhead > maxPacketSize then (pth, .ok none)
      else
        let popped := pth.packetNumberGenerator.pop random
        let pth := { pth with packetNumberGenerator := popped.1 }
        if popped.2 ≠ publicHeader.packetNumber then (pth, .error .bugPeekedAndPopped)
        else (pth, .ok (some ⟨header, payload⟩))

def packCryptoPacket (crypto : CryptoSetup) (streams : Streams) (random : Option Nat)
    (p : Packer) (store : Store) (pth : Path) : Packed :=
  let encLevel := crypto.cryptoStreamLevel
  let publicHeader := p.getPublicHeader crypto encLevel pth
  match publicHeader.getLength p.perspective with
  | .error err => ⟨p, store, pth, .error (.header err)⟩
  | .ok publicHeaderLength =>
    let maxLen :=
      maxPacketSize - overhead - nonForwardSecurePacketSizeReduction - publicHeaderLength
    let frames := [Frame.stream store.next]
    let store := store.alloc (streams.popCryptoStreamFrame maxLen)
    let sealed := p.writeAndSealPacket store publicHeader frames random pth
    ⟨p, store, sealed.1, sealed.2.map fun raw =>
      some ⟨publicHeader.packetNumber, raw, frames, encLevel⟩⟩

-- The end of the packing routines. Frames that are too few are not sent, and neither
-- is a STOP_WAITING frame alone.
def sealPayload (p : Packer) (store : Store) (publicHeader : PublicHeader)
    (payloadFrames : List (Frame Nat)) (encLevel : EncryptionLevel) (random : Option Nat)
    (pth : Path) : Packed :=
  if payloadFrames.length = 0 then ⟨p, store, pth, .ok none⟩
  else if payloadFrames.length = 1 ∧ p.stopWaiting pth.pathID ≠ none then
    ⟨p, store, pth, .ok none⟩
  else
    let p := p.clearPending pth.pathID
    let sealed := p.writeAndSealPacket store publicHeader payloadFrames random pth
    ⟨p, store, sealed.1, sealed.2.map fun raw =>
      some ⟨publicHeader.packetNumber, raw, payloadFrames, encLevel⟩⟩

-- A packet that became too large is not returned.
def dropUnsealed (packed : Packed) : Packed :=
  { packed with
    result := packed.result.map fun packet => packet.filter fun packet => packet.raw.isSome }

def isPing : List ControlFrame → Bool
  | .ping :: _ => true
  | _ => false

def packComposed (composed : Composed) (publicHeader : PublicHeader) (encLevel : EncryptionLevel)
    (random : Option Nat) (pth : Path) : Packed :=
  match composed.result with
  | .error err => ⟨composed.packer, composed.store, pth, .error err⟩
  | .ok payloadFrames =>
    composed.packer.sealPayload composed.store publicHeader payloadFrames encLevel random pth

-- A PING frame in front of the control frames is sent alone.
def packPing (p : Packer) (store : Store) (publicHeader : PublicHeader)
    (encLevel : EncryptionLevel) (random : Option Nat) (pth : Path) : Packed :=
  sealPayload { p with controlFrames := p.controlFrames.drop 1 } store publicHeader
    [Frame.control .ping] encLevel random pth

def maxSize (publicHeaderLength : Nat) : Nat :=
  maxPacketSize - overhead - publicHeaderLength

def packWith (compose : Packer → Store → Nat → Bool → Nat → Composed) (crypto : CryptoSetup)
    (streams : Streams) (random : Option Nat) (p : Packer) (store : Store) (pth : Path) :
    Packed :=
  if streams.hasCryptoStreamFrame then p.packCryptoPacket crypto streams random store pth
  else
    let encLevel := crypto.level
    let publicHeader := p.getPublicHeader crypto encLevel pth
    match publicHeader.getLength p.perspective with
    | .error err => ⟨p, store, pth, .error (.header err)⟩
    | .ok publicHeaderLength =>
      let p := p.numberStopWaiting pth.pathID publicHeader
      if isPing p.controlFrames then p.packPing store publicHeader encLevel random pth
      else
        packComposed (compose p store (maxSize publicHeaderLength) (p.canSendData encLevel)
          pth.pathID) publicHeader encLevel random pth

def packPacket (crypto : CryptoSetup) (streams : Streams) :
    Option Nat → Packer → Store → Path → Packed :=
  packWith (composeNextPacket streams) crypto streams

def packPacketSTMS (crypto : CryptoSetup) (streams : Streams) (gap : Int) :
    Option Nat → Packer → Store → Path → Packed :=
  packWith (composeNextPacketSTMS streams gap) crypto streams

def streamFrames (frames : List (Frame Nat)) : List Nat :=
  frames.filterMap fun frame =>
    match frame with
    | .stream ref => some ref
    | .control _ => none

-- The first path of a round composes a packet, and remembers its stream frames also
-- when that failed. The other paths repeat them.
def composeRedundancy (streams : Streams) (isfirst : Bool) (p : Packer) (store : Store)
    (maxFrameSize : Nat) (canSendStreamFrames : Bool) (pathID : Nat) : Composed :=
  if isfirst then
    let composed := p.composeNextPacket streams store maxFrameSize canSendStreamFrames pathID
    { composed with
      packer := { composed.packer with
        firstpayloadFrames :=
          match composed.result with
          | .error _ => []
          | .ok payloadFrames => streamFrames payloadFrames } }
  else ⟨p, store, [], .ok (p.firstpayloadFrames.map Frame.stream)⟩

def packPacketRedundancy (crypto : CryptoSetup) (streams : Streams) (isfirst : Bool)
    (random : Option Nat) (p : Packer) (store : Store) (pth : Path) : Packed :=
  if streams.hasCryptoStreamFrame then p.packCryptoPacket crypto streams random store pth
  else
    let encLevel := crypto.level
    let publicHeader := p.getPublicHeader crypto encLevel pth
    match publicHeader.getLength p.perspective with
    | .error err => ⟨p, store, pth, .error (.header err)⟩
    | .ok publicHeaderLength =>
      let p := p.numberStopWaiting pth.pathID publicHeader
      if isPing p.controlFrames then
        dropUnsealed (p.packPing store publicHeader encLevel random pth)
      else
        dropUnsealed (packComposed (p.composeRedundancy streams isfirst store
          (maxSize publicHeaderLength) (p.canSendData encLevel) pth.pathID)
          publicHeader encLevel random pth)

def sealFrames (p : Packer) (store : Store) (publicHeader : PublicHeader)
    (frames : List (Frame Nat)) (encLevel : EncryptionLevel) (random : Option Nat) (pth : Path) :
    Packed :=
  let sealed := p.writeAndSealPacket store publicHeader frames random pth
  ⟨p, store, sealed.1, sealed.2.map fun raw =>
    some ⟨publicHeader.packetNumber, raw, frames, encLevel⟩⟩

def packAckPacket (crypto : CryptoSetup) (random : Option Nat) (p : Packer) (store : Store)
    (pth : Path) : Packed :=
  match p.ackFrame pth.pathID with
  | none => ⟨p, store, pth, .error .bugNoAckFrameQueued⟩
  | some ack =>
    let publicHeader := p.getPublicHeader crypto crypto.level pth
    let p := p.numberStopWaiting pth.pathID publicHeader
    let frames := ControlFrame.ack ack ::
      ((p.stopWaiting pth.pathID).map ControlFrame.stopWaiting).toList
    (p.clearPending pth.pathID).sealFrames store publicHeader (frames.map Frame.control)
      crypto.level random pth

-- The frames of a handshake packet are sent again at the same level, behind the
-- STOP_WAITING frame. `hasSealer` says whether the keys of that level are there.
def packHandshakeRetransmission (crypto : CryptoSetup) (hasSealer : Bool)
    (encryptionLevel : EncryptionLevel) (frames : List (Frame Nat)) (random : Option Nat)
    (p : Packer) (store : Store) (pth : Path) : Packed :=
  if encryptionLevel = .forwardSecure then ⟨p, store, pth, .error .bugForwardSecureHandshake⟩
  else if hasSealer = false then ⟨p, store, pth, .error .noSealer⟩
  else
    let publicHeader := p.getPublicHeader crypto encryptionLevel pth
    match (p.numberStopWaiting pth.pathID publicHeader).stopWaiting pth.pathID with
    | none => ⟨p, store, pth, .error .bugNoStopWaitingFrame⟩
    | some swf =>
      let p := { p with stopWaiting := Function.update p.stopWaiting pth.pathID none }
      p.sealFrames store publicHeader (.control (.stopWaiting swf) :: frames) encryptionLevel
        random pth

end Packer

end MpQuic.Packing

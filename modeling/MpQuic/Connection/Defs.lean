import MpQuic.AckHandler.Defs
import MpQuic.AckHandler.ReceivedAcks
import MpQuic.Wire.PacketNumber
import MpQuic.Wire.PublicHeader
import MpQuic.Wire.Unpack

namespace MpQuic.Connection

open MpQuic.AckHandler MpQuic.Wire

structure Address where
  ip : List UInt8
  port : Nat
  deriving DecidableEq, Repr

def getIPVersion (ip : List UInt8) : Nat :=
  if (to4 ip).isSome then 4 else 6

-- Addresses are compared as they are printed.
def Address.printed (addr : Address) : List UInt8 × Nat :=
  ((to4 addr.ip).getD addr.ip, addr.port)

-- `closeRequested` says that the path was told to stop, which it does later on its own.
structure Path (σ : Type) where
  localAddr : Address
  remoteAddr : Address
  sentPacketHandler : SentPacketHandler σ
  receivedPacketHandler : ReceivedPacketHandler
  isOpen : Bool
  closeRequested : Bool
  potentiallyFailed : Bool
  lastRcvdPacketNumber : Nat
  largestRcvdPacketNumber : Nat
  lastNetworkActivityTime : Int

def newPath {σ : Type} (version now : Int) (localAddr remoteAddr : Address) : Path σ where
  localAddr := localAddr
  remoteAddr := remoteAddr
  sentPacketHandler := newSentPacketHandler
  receivedPacketHandler := newReceivedPacketHandler version
  isOpen := true
  closeRequested := false
  potentiallyFailed := false
  lastRcvdPacketNumber := 0
  largestRcvdPacketNumber := 0
  lastNetworkActivityTime := now

-- Path IDs are single bytes.
structure PathManager where
  nxtPathID : Nat
  remoteAddrs4 : List Address
  remoteAddrs6 : List Address
  advertisedLocAddrs : List (List UInt8 × Nat)
  deriving DecidableEq, Repr

def PathManager.withAddress (pm : PathManager) (f : AddAddressFrame) : Option PathManager :=
  if f.ipVersion = 4 then some { pm with remoteAddrs4 := pm.remoteAddrs4 ++ [⟨f.ip, f.port⟩] }
  else if f.ipVersion = 6 then some { pm with remoteAddrs6 := pm.remoteAddrs6 ++ [⟨f.ip, f.port⟩] }
  else none

-- What the session keeps of the paths and of what it receives. There is no path manager in a
-- session without a manager of connections. `streams` stands for the streams and their flow
-- control, which know nothing of the paths.
structure Session (σ S : Type) where
  perspective : Perspective
  version : Int
  createPaths : Bool
  paths : Nat → Option (Path σ)
  closedPaths : Nat → Bool
  pathManager : Option PathManager
  remoteRTTs : Nat → Option Int
  lastNetworkActivityTime : Int
  keepAlivePingSent : Bool
  peerBlocked : Bool
  closeRemote : Option ConnectionCloseFrame
  diversificationNonces : List (List UInt8)
  pathsFrame : Option PathsFrame
  lastPathsFrameSent : Int
  addAddressFrames : List AddAddressFrame
  streams : S

-- The errors of the session. Those of streams, flow control and sending are `other`.
inductive SessionError (ε : Type) where
  | ack (err : AckError)
  | errRstStreamOnInvalidStream
  | errWindowUpdateOnClosedStream
  | unimplementedGoaway
  | errUnknownIPVersion
  | alreadyExistingPath
  | serverCreatesOddPathID
  | clientCreatesEvenPathID
  | unpack (err : UnpackError)
  | receivedPacket
  | other (err : ε)
  deriving DecidableEq, Repr

inductive Crash where
  | nilPath (pathID : Nat)
  | nilPathManager
  | indexOutOfRange
  deriving DecidableEq, Repr

-- What the session finds around it: the time, the delay after which a packet of a path is lost,
-- the local addresses, the PATHS frame that it would send, the outcome of a PING on a path, the
-- decryption, and the handlers of the frames of streams.
structure Environment (σ S ε : Type) where
  now : Int
  delayUntilLost : Nat → Int
  localAddrs : List Address
  newPathsFrame : PathsFrame
  sendPing : Path σ → Path σ × Option ε
  aead : Opener
  handleStreamFrame : S → StreamFrame → Nat → Int → S × Option ε
  handleRstStreamFrame : S → RstStreamFrame → S × Option (SessionError ε)
  handleWindowUpdateFrame : S → WindowUpdateFrame → S × Option (SessionError ε)

structure ReceivedPacket where
  publicHeader : PublicHeader
  publicHeaderBinary : List UInt8
  data : List UInt8
  rcvTime : Option Int
  localAddr : Address
  remoteAddr : Address
  deriving DecidableEq, Repr

namespace Session

variable {σ S ε : Type}

def setPath (s : Session σ S) (pathID : Nat) (pth : Path σ) : Session σ S :=
  { s with paths := Function.update s.paths pathID (some pth) }

theorem setPath_paths_self (s : Session σ S) (pathID : Nat) (pth : Path σ) :
    (s.setPath pathID pth).paths pathID = some pth :=
  Function.update_self _ _ _

theorem setPath_paths_of_ne (s : Session σ S) {pathID other : Nat} (hne : other ≠ pathID)
    (pth : Path σ) : (s.setPath pathID pth).paths other = s.paths other :=
  Function.update_of_ne hne _ _

def schedulePathsFrame (env : Environment σ S ε) (s : Session σ S) : Session σ S :=
  { s with lastPathsFrameSent := env.now, pathsFrame := some env.newPathsFrame }

section PathManagement

def hasPath (s : Session σ S) (locAddr remAddr : Address) : Bool :=
  (List.range 256).any fun pathID =>
    match s.paths pathID with
    | none => false
    | some pth =>
      pth.localAddr.printed = locAddr.printed && pth.remoteAddr.printed = remAddr.printed

-- The path is in the map before the PING is sent.
def createPath (env : Environment σ S ε) (s : Session σ S) (pm : PathManager)
    (locAddr remAddr : Address) : Session σ S × Option ε :=
  if s.hasPath locAddr remAddr then (s, none)
  else
    let pinged := env.sendPing (newPath s.version env.now locAddr remAddr)
    ({ s.setPath pm.nxtPathID pinged.1 with
        pathManager := some { pm with nxtPathID := (pm.nxtPathID + 2) % 256 } },
      pinged.2)

def advertiseAddresses (env : Environment σ S ε) (s : Session σ S) (pm : PathManager) :
    Session σ S :=
  let fresh := env.localAddrs.foldl (fun (acc : List (List UInt8 × Nat) × List AddAddressFrame) addr =>
    if addr.printed ∈ acc.1 then acc
    else (acc.1 ++ [addr.printed], acc.2 ++ [⟨getIPVersion addr.ip, addr.ip, addr.port⟩]))
    (pm.advertisedLocAddrs, [])
  { s with
    addAddressFrames := s.addAddressFrames ++ fresh.2
    pathManager := some { pm with advertisedLocAddrs := fresh.1 } }

def addressPairs (env : Environment σ S ε) (pm : PathManager) : List (Address × Address) :=
  env.localAddrs.flatMap fun locAddr =>
    (if getIPVersion locAddr.ip = 4 then pm.remoteAddrs4 else pm.remoteAddrs6).map (locAddr, ·)

def createPathsLoop (env : Environment σ S ε) :
    Session σ S → List (Address × Address) → Session σ S × Option ε
  | s, [] => (s, none)
  | s, (locAddr, remAddr) :: rest =>
    match s.pathManager with
    | none => (s, none)
    | some pm =>
      match s.createPath env pm locAddr remAddr with
      | (s, some err) => (s, some err)
      | (s, none) => createPathsLoop env s rest

def runCreatePaths (env : Environment σ S ε) (s : Session σ S) (pm : PathManager) :
    Session σ S × Option ε :=
  match s.perspective with
  | .server => (s.advertiseAddresses env pm, none)
  | .client =>
    match s.createPathsLoop env (addressPairs env pm) with
    | (s, some err) => (s, some err)
    | (s, none) => (s.schedulePathsFrame env, none)

def handleAddAddressFrame (env : Environment σ S ε) (s : Session σ S) (pm : PathManager)
    (f : AddAddressFrame) : Session σ S × Option (SessionError ε) :=
  match pm.withAddress f with
  | none => (s, some .errUnknownIPVersion)
  | some pm =>
    let s := { s with pathManager := some pm }
    if s.createPaths then
      let created := s.runCreatePaths env pm
      (created.1, created.2.map .other)
    else (s, none)

-- A path ID that the endpoint itself could give to a path is refused.
def createPathFromRemote (env : Environment σ S ε) (s : Session σ S) (p : ReceivedPacket) :
    Except Crash (Session σ S × Option (SessionError ε)) :=
  let pathID := p.publicHeader.pathID
  match s.pathManager with
  | none => .error .nilPathManager
  | some _ =>
    if (s.paths pathID).isSome then .ok (s, some .alreadyExistingPath)
    else if s.perspective = .client ∧ pathID % 2 ≠ 0 then .ok (s, some .serverCreatesOddPathID)
    else if s.perspective = .server ∧ pathID % 2 = 0 then .ok (s, some .clientCreatesEvenPathID)
    else
      .ok (s.setPath pathID (newPath s.version env.now p.localAddr p.remoteAddr), none)

end PathManagement

section Frames

-- The path is looked up without a check.
def handleAckFrame (env : Environment σ S ε) (s : Session σ S) (frame : AckFrame) :
    Except Crash (Session σ S × Option (SessionError ε)) :=
  match s.paths frame.pathID with
  | none => .error (.nilPath frame.pathID)
  | some pth =>
    let received := pth.sentPacketHandler.receivedAck frame pth.lastRcvdPacketNumber env.now
      (env.delayUntilLost frame.pathID)
    .ok (s.setPath frame.pathID { pth with sentPacketHandler := received.1 },
      received.2.map .ack)

-- `closePath` for a path that the peer closes. Nothing is returned for an unknown path.
def closePath (s : Session σ S) (pathID : Nat) : Option (Session σ S) :=
  match s.paths pathID with
  | none => none
  | some pth =>
    if s.closedPaths pathID then some s
    else
      let s :=
        if s.pathManager.isSome && pth.isOpen then
          s.setPath pathID { pth with closeRequested := true }
        else s
      some { s with closedPaths := Function.update s.closedPaths pathID true }

-- The caller ignores the error.
def handleClosePathFrame (s : Session σ S) (frame : ClosePathFrame) :
    Except Crash (Session σ S) :=
  match s.closePath frame.pathID with
  | none => .ok s
  | some s =>
    match s.paths frame.pathID with
    | none => .error (.nilPath frame.pathID)
    | some pth =>
      let received := pth.sentPacketHandler.receivedClosePath frame pth.lastRcvdPacketNumber
      .ok (s.setPath frame.pathID { pth with sentPacketHandler := received.1 })

def failedRTT : Int := 30 * 60 * 1000000000

def handlePathsEntry (frame : PathsFrame) (s : Session σ S) (i : Nat) :
    Except Crash (Session σ S) :=
  match frame.pathIDs[i]?, frame.remoteRTTs[i]? with
  | some pathID, some remoteRTT =>
    let s := { s with remoteRTTs := Function.update s.remoteRTTs pathID (some remoteRTT) }
    if remoteRTT ≥ failedRTT then
      match s.paths pathID with
      | none => .error (.nilPath pathID)
      | some pth => .ok (s.setPath pathID { pth with potentiallyFailed := true })
    else .ok s
  | _, _ => .error .indexOutOfRange

def handlePathsFrame (s : Session σ S) (frame : PathsFrame) : Except Crash (Session σ S) :=
  (List.range frame.numPaths).foldlM (handlePathsEntry frame) s

def setLowerLimit (s : Session σ S) (pathID : Nat) (p : Nat) : Session σ S :=
  match s.paths pathID with
  | none => s
  | some pth =>
    s.setPath pathID
      { pth with receivedPacketHandler := pth.receivedPacketHandler.setLowerLimit p }

def handleFrame (env : Environment σ S ε) (pathID : Nat) (rcvTime : Int) (s : Session σ S) :
    Frame StreamFrame → Except Crash (Session σ S × Option (SessionError ε))
  | .stream frame =>
    let handled := env.handleStreamFrame s.streams frame pathID rcvTime
    .ok ({ s with streams := handled.1 }, handled.2.map .other)
  | .control (.ack frame) => s.handleAckFrame env frame
  | .control (.connectionClose frame) =>
    .ok ({ s with closeRemote := s.closeRemote.orElse fun _ => some frame }, none)
  | .control (.goaway _) => .ok (s, some .unimplementedGoaway)
  | .control (.stopWaiting frame) => .ok (s.setLowerLimit pathID (sub64 frame.leastUnacked 1), none)
  | .control (.rstStream frame) =>
    let handled := env.handleRstStreamFrame s.streams frame
    .ok ({ s with streams := handled.1 }, handled.2)
  | .control (.windowUpdate frame) =>
    let handled := env.handleWindowUpdateFrame s.streams frame
    .ok ({ s with streams := handled.1 }, handled.2)
  | .control (.blocked _) => .ok ({ s with peerBlocked := true }, none)
  | .control .ping => .ok (s, none)
  | .control (.addAddress frame) =>
    match s.pathManager with
    | none => .ok (s, none)
    | some pm =>
      let handled := s.handleAddAddressFrame env pm frame
      .ok (handled.1.schedulePathsFrame env, handled.2)
  | .control (.closePath frame) => (s.handleClosePathFrame frame).map (·, none)
  | .control (.paths frame) => (s.handlePathsFrame frame).map (·, none)

end Frames

end Session

def SessionError.isIgnored {ε : Type} : SessionError ε → Bool
  | .ack .errDuplicateOrOutOfOrderAck => true
  | .errRstStreamOnInvalidStream => true
  | .errWindowUpdateOnClosedStream => true
  | _ => false

namespace Session

variable {σ S ε : Type}

def handleFrames (env : Environment σ S ε) (pathID : Nat) (rcvTime : Int) :
    Session σ S → List (Frame StreamFrame) →
    Except Crash (Session σ S × Option (SessionError ε))
  | s, [] => .ok (s, none)
  | s, frame :: rest =>
    match s.handleFrame env pathID rcvTime frame with
    | .error crash => .error crash
    | .ok (s, err) =>
      if err.all SessionError.isIgnored then handleFrames env pathID rcvTime s rest
      else .ok (s, err)

def handleUnpacked (env : Environment σ S ε) (s : Session σ S) (pathID : Nat) (pth : Path σ)
    (pkt : ReceivedPacket) (packetNumber : Nat) (packet : UnpackedPacket) :
    Except Crash (Session σ S × Option (SessionError ε)) :=
  let pth := { pth with
    lastRcvdPacketNumber := packetNumber
    largestRcvdPacketNumber := max pth.largestRcvdPacketNumber packetNumber }
  match pth.receivedPacketHandler.receivedPacket packetNumber
      (packet.frames.any isFrameRetransmittable) env.now with
  | none => .ok (s.setPath pathID pth, some .receivedPacket)
  | some handler =>
    (s.setPath pathID { pth with receivedPacketHandler := handler }).handleFrames env pathID
      (pkt.rcvTime.getD env.now) packet.frames

-- `handlePacketImpl` of a path. The remote address is only taken over if the packet could be
-- decrypted.
def handlePathPacket (env : Environment σ S ε) (s : Session σ S) (pathID : Nat) (pth : Path σ)
    (pkt : ReceivedPacket) : Except Crash (Session σ S × Option (SessionError ε)) :=
  if !pth.isOpen then .ok (s, none)
  else
    let pth := { pth with
      lastNetworkActivityTime := pkt.rcvTime.getD pth.lastNetworkActivityTime
      potentiallyFailed := false }
    let hdr := pkt.publicHeader
    let packetNumber :=
      inferPacketNumber hdr.packetNumberLen pth.largestRcvdPacketNumber hdr.packetNumber
    match unpack s.version env.aead pkt.publicHeaderBinary packetNumber hdr.packetNumberLen
        pkt.data with
    | .error .decryptionFailure =>
      .ok (s.setPath pathID pth, some (.unpack .decryptionFailure))
    | unpacked =>
      let pth :=
        if s.perspective = .server then { pth with remoteAddr := pkt.remoteAddr } else pth
      match unpacked with
      | .error err => .ok (s.setPath pathID pth, some (.unpack err))
      | .ok packet => s.handleUnpacked env pathID pth pkt packetNumber packet

def noteArrival (s : Session σ S) (p : ReceivedPacket) (rcvTime : Int) : Session σ S :=
  let nonce := p.publicHeader.diversificationNonce
  { s with
    diversificationNonces :=
      if s.perspective = .client ∧ nonce.length > 0 then s.diversificationNonces ++ [nonce]
      else s.diversificationNonces
    lastNetworkActivityTime := rcvTime
    keepAlivePingSent := false }

def handlePacketImpl (env : Environment σ S ε) (s : Session σ S) (p : ReceivedPacket) :
    Except Crash (Session σ S × Option (SessionError ε)) :=
  let rcvTime := p.rcvTime.getD env.now
  let p := { p with rcvTime := some rcvTime }
  let s := s.noteArrival p rcvTime
  let pathID := p.publicHeader.pathID
  match s.paths pathID with
  | some pth => s.handlePathPacket env pathID pth p
  | none =>
    match s.createPathFromRemote env p with
    | .error crash => .error crash
    | .ok (s, some err) => .ok (s, some err)
    | .ok (s, none) =>
      match s.paths pathID with
      | none => .error (.nilPath pathID)
      | some pth => s.handlePathPacket env pathID pth p

end Session

end MpQuic.Connection

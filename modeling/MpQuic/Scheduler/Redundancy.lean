import MpQuic.Packing.Repeat
import MpQuic.Scheduler.SendCalls

namespace MpQuic.Scheduler

open MpQuic.Library MpQuic.Protocol MpQuic.Wire MpQuic.AckHandler MpQuic.Packing List

structure Slot where
  pathID : Nat
  streams : Streams
  random : Option Nat
  now : Int

-- The turn of a path in a round of `sendPacketRedundancy`. After it there is a PING on
-- the path from which packets were taken, if that has potentially failed.
structure RoundTurn where
  slot : Slot
  ack : Option AckFrame
  ping : Option Slot

-- The first path of a round, the other ones, and the packets that are sent besides.
inductive Role where
  | first
  | other
  | extra
  deriving DecidableEq, Repr

def Role.ofIsfirst : Bool → Role
  | true => .first
  | false => .other

-- What was packed and sent: the frames as they were then, the frames whose data was taken
-- from the streams or from the frames that are sent again, the packet that was sent, and
-- what it added to the history of the path.
structure Delivery where
  role : Role
  store : Store
  taken : List Nat
  packet : Option PackedPacket
  tracked : List (Packet Nat)

namespace Delivery

def streamRefs (d : Delivery) : List Nat :=
  match d.packet with
  | none => []
  | some packet => Packer.streamFrames packet.frames

def dataFrames (d : Delivery) : List Nat :=
  d.streamRefs.filter fun ref => (d.store.get ref).streamID ≠ 1

end Delivery

-- The frames that a packer takes data for when it composes a packet: the one of the crypto
-- stream, which is a new object, or those that `composeNextPacket` gets.
def takenFrames (crypto : CryptoSetup) (p : Packer) (store : Store) (streams : Streams)
    (pth : Path) : List Nat :=
  if streams.hasCryptoStreamFrame then [store.next]
  else if Packer.isPing p.controlFrames then []
  else
    match (p.getPublicHeader crypto crypto.level pth).getLength p.perspective with
    | .error _ => []
    | .ok publicHeaderLength =>
      match (p.composeFirst crypto streams store pth publicHeaderLength).result with
      | .error _ => []
      | .ok payloadFrames => Packer.streamFrames payloadFrames

namespace Session

def history (s : Session) (pathID : Nat) : List (Packet Nat) :=
  match s.paths pathID with
  | none => []
  | some pth => pth.sentPacketHandler.packetHistory

-- The frames that are taken at a place. A path that repeats frames only takes crypto data.
def takenAt (s : Session) (slot : Slot) (composes : Bool) : List Nat :=
  match s.paths slot.pathID with
  | none => []
  | some pth =>
    if composes || slot.streams.hasCryptoStreamFrame then
      takenFrames s.crypto s.packer s.store slot.streams (pth.toPath slot.pathID)
    else []

-- What was packed is sent. Nothing is sent for the nil packet. The window updates are
-- queued once more behind a packet that was sent.
def deliver (s : Session) (slot : Slot) (role : Role) (composes needRetrans : Bool)
    (windowUpdateFrames : List WindowUpdateFrame)
    (packed : Session × Except PackError (Option PackedPacket)) : Ongoing × Delivery :=
  match packed.2 with
  | .error _ =>
    (⟨packed.1, false⟩, ⟨role, packed.1.store, s.takenAt slot composes, none, []⟩)
  | .ok none =>
    (⟨packed.1, true⟩, ⟨role, packed.1.store, s.takenAt slot composes, none, []⟩)
  | .ok (some packet) =>
    let sent := packed.1.sendPackedPacket packet slot.pathID needRetrans slot.now
    (⟨if sent.2.isNone then sent.1.queueWindowUpdates slot.pathID windowUpdateFrames else sent.1,
        sent.2.isNone && packet.raw.isSome⟩,
      ⟨role, packed.1.store, s.takenAt slot composes, some packet,
        (sent.1.history slot.pathID).drop (s.history slot.pathID).length⟩)

def queuePing (s : Session) (pathID : Nat) : Session :=
  match s.paths pathID with
  | none => s
  | some pth =>
    if pth.sentPacketHandler.shouldSendRetransmittablePacket then
      s.queueControlFrame .ping pathID
    else s

def performPacketSendingRedundancy (s : Session) (windowUpdateFrames : List WindowUpdateFrame)
    (slot : Slot) (isfirst : Bool) : Ongoing × Delivery :=
  let s := s.queuePing slot.pathID
  s.deliver slot (Role.ofIsfirst isfirst) isfirst isfirst windowUpdateFrames
    (s.pack slot.pathID (Packer.packPacketRedundancy s.crypto slot.streams isfirst slot.random))

def frontPing (s : Session) (pathID : Nat) (pth : SessionPath) : Session :=
  { s.setPath pathID { pth with leastUnacked := pth.sentPacketHandler.getLeastUnacked } with
    packer := { s.packer with controlFrames := .ping :: s.packer.controlFrames } }

def sendPing (s : Session) (slot : Slot) : Ongoing × List Delivery :=
  match s.paths slot.pathID with
  | none => (⟨s, true⟩, [])
  | some pth =>
    let s := s.frontPing slot.pathID pth
    let done := s.deliver slot .extra true true []
      (s.pack slot.pathID (Packer.packPacket s.crypto slot.streams slot.random))
    (done.1, [done.2])

def prepareTurn (s : Session) (hasStreamRetransmission : Bool) (turn : RoundTurn) : Session :=
  let s :=
    match turn.ack with
    | none => s
    | some ack => s.queueControlFrame (.ack ack) turn.slot.pathID
  if turn.ack.isSome || hasStreamRetransmission then
    s.queueStopWaiting turn.slot.pathID hasStreamRetransmission
  else s

def takeTurn (s : Session) (hasStreamRetransmission : Bool)
    (windowUpdateFrames : List WindowUpdateFrame) (isfirst : Bool) (turn : RoundTurn) :
    Ongoing × List Delivery :=
  let done := (s.prepareTurn hasStreamRetransmission turn).performPacketSendingRedundancy
    windowUpdateFrames turn.slot isfirst
  match done.1.running, turn.ping with
  | true, some slot =>
    let pinged := done.1.session.sendPing slot
    (pinged.1, done.2 :: pinged.2)
  | _, _ => (done.1, [done.2])

-- The loop over the paths of a round. Only the path in front is the first one.
def takeTurns (hasStreamRetransmission : Bool) (windowUpdateFrames : List WindowUpdateFrame) :
    Bool → Session → List RoundTurn → Ongoing × List Delivery
  | _, s, [] => (⟨s, true⟩, [])
  | isfirst, s, turn :: rest =>
    let done := s.takeTurn hasStreamRetransmission windowUpdateFrames isfirst turn
    if done.1.running then
      let later := takeTurns hasStreamRetransmission windowUpdateFrames false done.1.session rest
      (later.1, done.2 ++ later.2)
    else done

end Session

def Session.ackPrepared (s : Session) (windowUpdateFrames : List WindowUpdateFrame)
    (turn : AckTurn) : Session :=
  (s.queueWindowUpdates turn.pathID windowUpdateFrames).prepareAck turn

def AckDue (windowUpdateFrames : List WindowUpdateFrame) (st : Ongoing) (turn : AckTurn) : Prop :=
  ¬(st.running = false ∨ st.session.paths turn.pathID = none) ∧
    ¬(turn.ack = none ∧ (windowUpdateFrames = [] ∨ turn.pathID = 0))

instance (windowUpdateFrames : List WindowUpdateFrame) (st : Ongoing) (turn : AckTurn) :
    Decidable (AckDue windowUpdateFrames st turn) :=
  inferInstanceAs (Decidable (_ ∧ _))

-- The body of the loop of `ackRemainingPaths` with what it took and tracked. With an ACK
-- frame no data goes along.
def ackDelivery (windowUpdateFrames : List WindowUpdateFrame) (st : Ongoing) (turn : AckTurn) :
    Option (Ongoing × List Delivery) :=
  (ackPath windowUpdateFrames st turn).map fun result =>
    let prepared := st.session.ackPrepared windowUpdateFrames turn
    let slot : Slot := ⟨turn.pathID, turn.streams, turn.random, turn.now⟩
    (result.1,
      if AckDue windowUpdateFrames st turn then
        [⟨.extra, result.1.session.store,
          if turn.ack = none then prepared.takenAt slot true else [],
          result.2.head?.bind SendCall.packet,
          (result.1.session.history turn.pathID).drop (st.session.history turn.pathID).length⟩]
      else [])

-- One pass of the loop of `sendPacketRedundancy`: what `getRetransmission` asks for, the
-- frames that are queued before the paths take their turns, the turns of the paths that
-- were selected, and what the last branch needs.
structure Pass where
  env : Environment
  orders : Nat → List Nat
  closePathFrames : List ClosePathFrame
  addAddressFrames : List AddAddressFrame
  windowUpdateFrames : List WindowUpdateFrame
  turns : List RoundTurn
  hasSealer : Bool
  random : Option Nat
  now : Int
  ackWindowUpdateFrames : List WindowUpdateFrame
  ackTurns : List AckTurn

namespace Session

def queueRoundFrames (s : Session) (pass : Pass) : Session :=
  let frames := pass.closePathFrames.map ControlFrame.closePath ++
    pass.addAddressFrames.map ControlFrame.addAddress ++
    (s.pathsFrame.map ControlFrame.paths).toList
  frames.foldl (fun s frame => s.queueControlFrame frame 0) { s with pathsFrame := none }

def ackDeliveries (s : Session) (pass : Pass) : Session × List Delivery :=
  match run (ackDelivery pass.ackWindowUpdateFrames) ⟨s, true⟩ pass.ackTurns with
  | none => (s, [])
  | some (last, deliveries) => (last.session, deliveries)

def sendRound (s : Session) (pass : Pass) : Ongoing × List Delivery :=
  takeTurns (s.retransmissionQueue ≠ []) pass.windowUpdateFrames true (s.queueRoundFrames pass)
    pass.turns

-- Without a path only ACK frames are sent. A handshake packet is sent again at once.
-- After a round in which nothing was sent come the ACK frames.
def sendPass (s : Session) (pass : Pass) : Session × List Delivery :=
  let retransmission := s.getRetransmission pass.env pass.orders
  match pass.turns, retransmission.retransmitPacket with
  | [], _ => retransmission.session.ackDeliveries pass
  | first :: _, some packet =>
    ((retransmission.session.retransmitHandshake packet first.slot.pathID pass.hasSealer
      pass.random pass.now).1.session, [])
  | _ :: _, none =>
    let done := retransmission.session.sendRound pass
    if done.1.running && done.2.all (fun d => d.role = .extra || d.packet.isNone) then
      let acked := done.1.session.ackDeliveries pass
      (acked.1, done.2 ++ acked.2)
    else (done.1.session, done.2)

end Session

-- The passes of the scheduler, with anything that happens to the session in between. The
-- output of a pass is the list of its deliveries.
inductive SchedulerEvent where
  | pass (pass : Pass)
  | change (change : Session → Session)

def redundancyStep (s : Session) : SchedulerEvent → Option (Session × List (List Delivery))
  | .pass pass => some ((s.sendPass pass).1, [(s.sendPass pass).2])
  | .change change => some (change s, [])

abbrev Session.remembered (s : Session) : List Nat :=
  s.packer.firstpayloadFrames

section Keeps

variable {s : Session}

theorem queueControlFrame_remembered (frame : ControlFrame) (pathID : Nat) :
    (s.queueControlFrame frame pathID).remembered = s.remembered := by
  cases frame <;> rfl

theorem queueStopWaiting_remembered (pathID : Nat) (force : Bool) :
    (s.queueStopWaiting pathID force).remembered = s.remembered := by
  unfold Session.queueStopWaiting
  split
  · rfl
  dsimp only
  split
  · rfl
  · exact queueControlFrame_remembered _ pathID

theorem queuePing_remembered (pathID : Nat) : (s.queuePing pathID).remembered = s.remembered := by
  unfold Session.queuePing
  split
  · rfl
  split
  · exact queueControlFrame_remembered _ pathID
  · rfl

theorem prepareTurn_remembered (hasStreamRetransmission : Bool) (turn : RoundTurn) :
    (s.prepareTurn hasStreamRetransmission turn).remembered = s.remembered := by
  unfold Session.prepareTurn
  dsimp only
  have hack : (match turn.ack with
      | none => s
      | some ack => s.queueControlFrame (.ack ack) turn.slot.pathID).remembered =
      s.remembered := by
    split
    · rfl
    · exact queueControlFrame_remembered _ _
  split
  · exact (queueStopWaiting_remembered _ _).trans hack
  · exact hack

theorem sendPackedPacket_packer (packet : PackedPacket) (pathID : Nat) (needRetrans : Bool)
    (now : Int) : (s.sendPackedPacket packet pathID needRetrans now).1.packer = s.packer := by
  unfold Session.sendPackedPacket
  split <;> rfl

theorem deliver_packed (slot : Slot) (role : Role) (composes needRetrans : Bool)
    (windowUpdateFrames : List WindowUpdateFrame)
    (packed : Session × Except PackError (Option PackedPacket)) :
    (s.deliver slot role composes needRetrans windowUpdateFrames packed).1.session.remembered =
        packed.1.remembered ∧
      (s.deliver slot role composes needRetrans windowUpdateFrames packed).2.role = role ∧
      (s.deliver slot role composes needRetrans windowUpdateFrames packed).2.store =
        packed.1.store ∧
      ∀ packet, (s.deliver slot role composes needRetrans windowUpdateFrames packed).2.packet =
        some packet ↔ packed.2 = .ok (some packet) := by
  unfold Session.deliver
  split
  next err herr => exact ⟨rfl, rfl, rfl, fun packet => by simp [herr]⟩
  next hnone => exact ⟨rfl, rfl, rfl, fun packet => by simp [hnone]⟩
  next packet hpacket =>
    have hsame : (packed.1.sendPackedPacket packet slot.pathID needRetrans
        slot.now).1.remembered = packed.1.remembered :=
      congrArg Packer.firstpayloadFrames (sendPackedPacket_packer _ _ _ _)
    refine ⟨?_, rfl, rfl, fun other => by simp [hpacket]⟩
    dsimp only
    split
    · rw [queueWindowUpdates_eq]
      exact hsame
    · exact hsame

theorem composeWith_remembered (popNormal : Nat → Handout) (p : Packer) (store : Store)
    (maxFrameSize : Nat) (canSendStreamFrames : Bool) (pathID : Nat) :
    (p.composeWith popNormal store maxFrameSize canSendStreamFrames
      pathID).packer.firstpayloadFrames = p.firstpayloadFrames := by
  unfold Packer.composeWith
  dsimp only
  split
  · rfl
  split
  · rfl
  split
  · rfl
  split <;> rfl

theorem packPacket_remembered (crypto : CryptoSetup) (streams : Streams) (random : Option Nat)
    (p : Packer) (store : Store) (pth : Path) :
    (p.packPacket crypto streams random store pth).packer.firstpayloadFrames =
      p.firstpayloadFrames := by
  unfold Packer.packPacket Packer.packWith
  split
  · exact congrArg Packer.firstpayloadFrames packCryptoPacket_packer
  dsimp only
  split
  · rfl
  split
  · exact packPing_frame.trans (numberStopWaiting_firstpayloadFrames _ _ _)
  · exact packComposed_frame.1.trans ((composeWith_remembered _ _ _ _ _ _).trans
      (numberStopWaiting_firstpayloadFrames _ _ _))

end Keeps

section Turns

variable {s : Session}

theorem pack_of_some {pathID : Nat} {pth : SessionPath} (h : s.paths pathID = some pth)
    (routine : Packer → Store → Path → Packed) :
    (s.pack pathID routine).1.packer = (routine s.packer s.store (pth.toPath pathID)).packer ∧
      (s.pack pathID routine).1.store = (routine s.packer s.store (pth.toPath pathID)).store ∧
      (s.pack pathID routine).2 = (routine s.packer s.store (pth.toPath pathID)).result := by
  unfold Session.pack
  rw [h]
  exact ⟨rfl, rfl, rfl⟩

theorem pack_of_none {pathID : Nat} (h : s.paths pathID = none)
    (routine : Packer → Store → Path → Packed) : s.pack pathID routine = (s, .ok none) := by
  unfold Session.pack
  rw [h]

theorem performPacketSendingRedundancy_other (windowUpdateFrames : List WindowUpdateFrame)
    (slot : Slot) :
    (s.performPacketSendingRedundancy windowUpdateFrames slot false).1.session.remembered =
        s.remembered ∧
      (s.performPacketSendingRedundancy windowUpdateFrames slot false).2.role = .other ∧
      ∀ ref ∈ (s.performPacketSendingRedundancy windowUpdateFrames slot false).2.dataFrames,
        ref ∈ s.remembered := by
  rw [← queuePing_remembered (s := s) slot.pathID]
  unfold Session.performPacketSendingRedundancy
  generalize s.queuePing slot.pathID = t
  dsimp only
  generalize hpacked : t.pack slot.pathID
    (Packer.packPacketRedundancy t.crypto slot.streams false slot.random) = packed
  obtain ⟨hremembered, hrole, hstore, hpacket⟩ :=
    deliver_packed (s := t) slot .other false false windowUpdateFrames packed
  refine ⟨?_, hrole, ?_⟩
  · rw [Role.ofIsfirst, hremembered, ← hpacked]
    cases hpth : t.paths slot.pathID with
    | none => rw [pack_of_none hpth]
    | some pth =>
      exact (congrArg Packer.firstpayloadFrames (pack_of_some hpth _).1).trans
        packPacketRedundancy_repeats.1
  · intro ref href
    obtain ⟨hin, hdata⟩ := mem_filter.mp href
    have hdata : (packed.1.store.get ref).streamID ≠ 1 := by
      rw [← hstore]
      exact of_decide_eq_true hdata
    unfold Delivery.streamRefs at hin
    split at hin
    · cases hin
    next packet hsome =>
      have hresult := (hpacket packet).mp hsome
      rw [← hpacked] at hresult hdata
      cases hpth : t.paths slot.pathID with
      | none =>
        rw [pack_of_none hpth] at hresult
        cases hresult
      | some pth =>
        obtain ⟨-, hsame, hlast⟩ := pack_of_some hpth
          (Packer.packPacketRedundancy t.crypto slot.streams false slot.random)
        rw [hlast] at hresult
        rw [hsame] at hdata
        exact packPacketRedundancy_repeats.2 packet hresult ref hin hdata

theorem sendPing_extra (slot : Slot) :
    (s.sendPing slot).1.session.remembered = s.remembered ∧
      ∀ d ∈ (s.sendPing slot).2, d.role = .extra := by
  unfold Session.sendPing
  cases hpth : s.paths slot.pathID with
  | none => exact ⟨rfl, nofun⟩
  | some pth =>
    have hfront : (s.frontPing slot.pathID pth).remembered = s.remembered := rfl
    rw [← hfront]
    dsimp only
    generalize s.frontPing slot.pathID pth = t
    obtain ⟨hremembered, hrole, -, -⟩ := deliver_packed (s := t) slot .extra true true []
      (t.pack slot.pathID (Packer.packPacket t.crypto slot.streams slot.random))
    refine ⟨hremembered.trans ?_, ?_⟩
    · cases hpath : t.paths slot.pathID with
      | none => rw [pack_of_none hpath]
      | some other =>
        exact (congrArg Packer.firstpayloadFrames (pack_of_some hpath _).1).trans
          (packPacket_remembered _ _ _ _ _ _)
    · intro d hd
      rw [mem_singleton.mp hd]
      exact hrole

theorem takeTurn_other (hasStreamRetransmission : Bool)
    (windowUpdateFrames : List WindowUpdateFrame) (turn : RoundTurn) :
    (s.takeTurn hasStreamRetransmission windowUpdateFrames false turn).1.session.remembered =
        s.remembered ∧
      ∀ d ∈ (s.takeTurn hasStreamRetransmission windowUpdateFrames false turn).2,
        d.role ≠ .first ∧ (d.role = .other → ∀ ref ∈ d.dataFrames, ref ∈ s.remembered) := by
  rw [← prepareTurn_remembered (s := s) hasStreamRetransmission turn]
  unfold Session.takeTurn
  dsimp only
  generalize s.prepareTurn hasStreamRetransmission turn = t
  obtain ⟨hremembered, hrole, hdata⟩ := performPacketSendingRedundancy_other (s := t)
    windowUpdateFrames turn.slot
  generalize t.performPacketSendingRedundancy windowUpdateFrames turn.slot false = done
    at hremembered hrole hdata ⊢
  have hturn : done.2.role ≠ .first ∧
      (done.2.role = .other → ∀ ref ∈ done.2.dataFrames, ref ∈ t.remembered) := by
    refine ⟨?_, fun _ => hdata⟩
    rw [hrole]
    decide
  split
  next slot _ _ =>
    obtain ⟨hping, hextra⟩ := sendPing_extra (s := done.1.session) slot
    refine ⟨hping.trans hremembered, ?_⟩
    intro d hd
    rcases mem_cons.mp hd with rfl | hlater
    · exact hturn
    · rw [hextra d hlater]
      exact ⟨by decide, nofun⟩
  next =>
    refine ⟨hremembered, ?_⟩
    intro d hd
    rw [mem_singleton.mp hd]
    exact hturn

theorem takeTurns_other (hasStreamRetransmission : Bool)
    (windowUpdateFrames : List WindowUpdateFrame) (turns : List RoundTurn) :
    ∀ d ∈ (Session.takeTurns hasStreamRetransmission windowUpdateFrames false s turns).2,
      d.role ≠ .first ∧ (d.role = .other → ∀ ref ∈ d.dataFrames, ref ∈ s.remembered) := by
  induction turns generalizing s with
  | nil => exact nofun
  | cons turn rest ih =>
    obtain ⟨hremembered, hturn⟩ := takeTurn_other (s := s) hasStreamRetransmission
      windowUpdateFrames turn
    unfold Session.takeTurns
    dsimp only
    split
    · intro d hd
      rcases mem_append.mp hd with hnow | hlater
      · exact hturn d hnow
      · rw [← hremembered]
        exact ih d hlater
    · exact hturn

end Turns

-- The other paths of a round send no frame of a data stream that is not in the packet of
-- the first path.
def RepeatsFirst (deliveries : List Delivery) : Prop :=
  ∀ d ∈ deliveries, d.role = .other → ∀ ref ∈ d.dataFrames,
    ∃ first ∈ deliveries, first.role = .first ∧ ref ∈ first.streamRefs

instance (deliveries : List Delivery) : Decidable (RepeatsFirst deliveries) :=
  inferInstanceAs (Decidable (∀ d ∈ deliveries, d.role = .other → ∀ ref ∈ d.dataFrames,
    ∃ first ∈ deliveries, first.role = .first ∧ ref ∈ first.streamRefs))

def Session.atFirst (s : Session) (pass : Pass) (turn : RoundTurn) : Session :=
  let retransmitted := (s.getRetransmission pass.env pass.orders).session
  ((retransmitted.queueRoundFrames pass).prepareTurn (retransmitted.retransmissionQueue ≠ [])
    turn).queuePing turn.slot.pathID

-- The first path composes a packet that is not too large, or nothing is remembered from
-- an earlier round.
def Session.Refreshes (s : Session) (slot : Slot) : Prop :=
  match s.paths slot.pathID with
  | none => s.remembered = []
  | some pth => s.packer.Refreshes s.crypto slot.streams s.store (pth.toPath slot.pathID)

def FirstRefreshes (s : Session) : SchedulerEvent → Prop
  | .change _ => True
  | .pass pass => ∀ turn ∈ pass.turns.head?, (s.atFirst pass turn).Refreshes turn.slot

section Rounds

variable {s : Session}

theorem performPacketSendingRedundancy_first (windowUpdateFrames : List WindowUpdateFrame)
    {slot : Slot}
    (hfresh : (s.queuePing slot.pathID).Refreshes slot) :
    (s.performPacketSendingRedundancy windowUpdateFrames slot true).2.role = .first ∧
      ((s.performPacketSendingRedundancy windowUpdateFrames slot true).1.running = true →
        ∀ ref ∈ (s.performPacketSendingRedundancy windowUpdateFrames slot
            true).1.session.remembered,
          ref ∈ (s.performPacketSendingRedundancy windowUpdateFrames slot true).2.streamRefs) := by
  unfold Session.performPacketSendingRedundancy
  generalize s.queuePing slot.pathID = t at hfresh ⊢
  dsimp only
  generalize hpacked : t.pack slot.pathID
    (Packer.packPacketRedundancy t.crypto slot.streams true slot.random) = packed
  obtain ⟨hremembered, hrole, -, hpacket⟩ :=
    deliver_packed (s := t) slot .first true true windowUpdateFrames packed
  refine ⟨hrole, ?_⟩
  intro hrunning ref href
  rw [Role.ofIsfirst] at hrunning href ⊢
  rw [hremembered, ← hpacked] at href
  unfold Session.Refreshes at hfresh
  cases hpth : t.paths slot.pathID with
  | none =>
    rw [hpth] at hfresh
    rw [pack_of_none hpth, hfresh] at href
    cases href
  | some pth =>
    rw [hpth] at hfresh
    obtain ⟨hpacker, -, hresult⟩ := pack_of_some hpth
      (Packer.packPacketRedundancy t.crypto slot.streams true slot.random)
    rw [hpacked] at hresult
    rcases packPacketRedundancy_first hfresh with ⟨err, herr⟩ | hkept
    · -- the round ends with the error
      have hstopped : packed.2 = .error err := hresult.trans herr
      unfold Session.deliver at hrunning
      rw [hstopped] at hrunning
      cases hrunning
    · have href : ref ∈ (Packer.packPacketRedundancy t.crypto slot.streams true slot.random
          t.packer t.store (pth.toPath slot.pathID)).packer.firstpayloadFrames := hpacker ▸ href
      obtain ⟨packet, hsome, hin⟩ := hkept ref href
      have hsent := (hpacket packet).mpr (hresult.trans hsome)
      unfold Delivery.streamRefs
      rw [hsent]
      exact hin

theorem takeTurns_repeatsFirst {hasStreamRetransmission : Bool} {turn : RoundTurn}
    (windowUpdateFrames : List WindowUpdateFrame) (rest : List RoundTurn)
    (hfresh : ((s.prepareTurn hasStreamRetransmission turn).queuePing
      turn.slot.pathID).Refreshes turn.slot) :
    RepeatsFirst (Session.takeTurns hasStreamRetransmission windowUpdateFrames true s
      (turn :: rest)).2 := by
  obtain ⟨hrole, hkept⟩ := performPacketSendingRedundancy_first windowUpdateFrames hfresh
  have hturn : ∃ pings, (s.takeTurn hasStreamRetransmission windowUpdateFrames true turn).2 =
        ((s.prepareTurn hasStreamRetransmission turn).performPacketSendingRedundancy
          windowUpdateFrames turn.slot true).2 :: pings ∧
      (∀ d ∈ pings, d.role = .extra) ∧
      ((s.takeTurn hasStreamRetransmission windowUpdateFrames true turn).1.running = true →
        ∀ ref ∈ (s.takeTurn hasStreamRetransmission windowUpdateFrames true
            turn).1.session.remembered,
          ref ∈ ((s.prepareTurn hasStreamRetransmission turn).performPacketSendingRedundancy
            windowUpdateFrames turn.slot true).2.streamRefs) := by
    unfold Session.takeTurn
    dsimp only
    generalize (s.prepareTurn hasStreamRetransmission turn).performPacketSendingRedundancy
      windowUpdateFrames turn.slot true = done at hkept ⊢
    split
    next slot hrunning _ =>
      obtain ⟨hping, hextra⟩ := sendPing_extra (s := done.1.session) slot
      refine ⟨_, rfl, hextra, fun _ => ?_⟩
      rw [hping]
      exact hkept hrunning
    next => exact ⟨[], rfl, nofun, hkept⟩
  obtain ⟨pings, hdeliveries, hextra, hleft⟩ := hturn
  unfold Session.takeTurns
  dsimp only
  intro d hd hother ref href
  split at hd
  next hrunning =>
    rw [if_pos hrunning]
    refine ⟨_, mem_append_left _ (hdeliveries ▸ mem_cons_self), hrole, ?_⟩
    rcases mem_append.mp hd with hnow | hlater
    · rw [hdeliveries] at hnow
      rcases mem_cons.mp hnow with rfl | hping
      · rw [hrole] at hother
        cases hother
      · rw [hextra d hping] at hother
        cases hother
    · exact hleft hrunning ref ((takeTurns_other hasStreamRetransmission windowUpdateFrames rest d
        hlater).2 hother ref href)
  next =>
    rw [hdeliveries] at hd
    rcases mem_cons.mp hd with rfl | hping
    · rw [hrole] at hother
      cases hother
    · rw [hextra d hping] at hother
      cases hother

theorem ackDeliveries_extra (pass : Pass) : ∀ d ∈ (s.ackDeliveries pass).2, d.role = .extra := by
  unfold Session.ackDeliveries
  split
  · exact nofun
  next last deliveries hrun =>
    refine run_invariant (fun _ log _ => ∀ d ∈ log, d.role = .extra) ?_ [] [] _ last pass.ackTurns
      deliveries nofun (Along.always _ _) hrun
    intro _ log st turn next out hlog _ hstep
    obtain ⟨result, -, heq⟩ := Option.map_eq_some_iff.mp hstep
    cases heq
    intro d hd
    rcases mem_append.mp hd with hold | hnew
    · exact hlog d hold
    · split at hnew
      · rw [mem_singleton.mp hnew]
      · cases hnew

theorem RepeatsFirst.append_extra {round extra : List Delivery} (h : RepeatsFirst round)
    (hextra : ∀ d ∈ extra, d.role = .extra) : RepeatsFirst (round ++ extra) := by
  intro d hd hother ref href
  rcases mem_append.mp hd with hin | hlater
  · obtain ⟨first, hfirst, hrole, href⟩ := h d hin hother ref href
    exact ⟨first, mem_append_left _ hfirst, hrole, href⟩
  · rw [hextra d hlater] at hother
    cases hother

theorem sendPass_repeatsFirst {pass : Pass} (hfresh : FirstRefreshes s (.pass pass)) :
    RepeatsFirst (s.sendPass pass).2 := by
  have hnone : RepeatsFirst [] := nofun
  unfold Session.sendPass
  dsimp only
  split
  · exact hnone.append_extra (ackDeliveries_extra pass)
  · exact hnone
  next turn rest hturns hretransmit =>
    have hround : RepeatsFirst
        ((s.getRetransmission pass.env pass.orders).session.sendRound pass).2 := by
      unfold Session.sendRound
      rw [hturns]
      exact takeTurns_repeatsFirst _ rest (hfresh turn (by rw [hturns]; rfl))
    split
    · exact hround.append_extra (ackDeliveries_extra pass)
    · exact hround

end Rounds

-- In every run of the scheduler in which the first path of each round refreshes what is
-- remembered, the other paths only repeat frames of the first path of their round.
theorem rounds_repeat_first_path (s last : Session) (events : List SchedulerEvent)
    (log : List (List Delivery)) (hrun : run redundancyStep s events = some (last, log))
    (hfresh : Along redundancyStep FirstRefreshes s events) :
    ∀ deliveries ∈ log, RepeatsFirst deliveries := by
  refine run_invariant (fun _ log _ => ∀ deliveries ∈ log, RepeatsFirst deliveries) ?_ [] [] s last
    events log nofun hfresh hrun
  intro _ log s event next out hlog hcond hstep deliveries hin
  rcases List.mem_append.mp hin with hold | hnew
  · exact hlog deliveries hold
  · cases event with
    | change change =>
      cases hstep
      cases hnew
    | pass pass =>
      cases hstep
      rw [List.mem_singleton.mp hnew]
      exact sendPass_repeatsFirst hcond

section Example

def twoPathSession : Session where
  crypto := readyCrypto
  packer := readyPacker [] none none []
  store := oneFrameStore
  paths := fun pathID =>
    if pathID = 1 ∨ pathID = 2 then some ⟨⟨500, 1, 0⟩, 1, newSentPacketHandler⟩ else none
  pathsFrame := none

def dataStreams : Streams :=
  { quietStreams with
    maybePopNormalFrames := fun _ =>
      ⟨[⟨5, false, 0, [42], Nat.lt_of_sub_eq_succ rfl, Nat.lt_of_sub_eq_succ rfl⟩], []⟩ }

def cryptoStreams : Streams :=
  { quietStreams with cryptoData := [7], cryptoEnd_lt := Nat.lt_of_sub_eq_succ rfl }

def twoPathPass (first second : Streams) : Pass where
  env := quietEnvironment
  orders := fun _ => [1, 2]
  closePathFrames := []
  addAddressFrames := []
  windowUpdateFrames := []
  turns := [⟨⟨1, first, none, 0⟩, none, none⟩, ⟨⟨2, second, none, 0⟩, none, none⟩]
  hasSealer := true
  random := none
  now := 0
  ackWindowUpdateFrames := []
  ackTurns := []

theorem rounds_repeat_first_path_example :
    ∃ last log, run redundancyStep twoPathSession [.pass (twoPathPass dataStreams quietStreams)] =
        some (last, log) ∧
      (∃ deliveries ∈ log, ∃ d ∈ deliveries, d.role = .other ∧ d.dataFrames ≠ []) ∧
      ∀ deliveries ∈ log, RepeatsFirst deliveries := by
  refine ⟨_, _, rfl, ⟨_, List.mem_singleton_self _, ?_⟩, ?_⟩
  · decide +kernel
  · apply rounds_repeat_first_path twoPathSession _
      [.pass (twoPathPass dataStreams quietStreams)] _ rfl
    refine ⟨?_, trivial⟩
    intro turn hturn
    cases hturn
    show Packer.Refreshes _ _ _ _ _
    unfold Packer.Refreshes
    rw [if_neg (by decide +kernel)]
    right
    intro length payloadFrames hlength hframes
    cases hlength
    cases hframes
    decide +kernel

-- In the second pass the first path sends crypto data, and the second path repeats the
-- frame of the first pass.
theorem stale_frames_are_repeated :
    ¬∀ (s last : Session) (events : List SchedulerEvent) (log : List (List Delivery)),
      run redundancyStep s events = some (last, log) →
        ∀ deliveries ∈ log, RepeatsFirst deliveries := by
  intro h
  have hstale := h twoPathSession _ [.pass (twoPathPass dataStreams quietStreams),
    .pass (twoPathPass cryptoStreams quietStreams)] _ rfl _
    (List.mem_cons_of_mem _ (List.mem_singleton_self _))
  exact absurd hstale (by decide +kernel)

end Example

end MpQuic.Scheduler

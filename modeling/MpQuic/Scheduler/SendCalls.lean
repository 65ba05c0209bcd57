import MpQuic.Packing.Delivery
import MpQuic.Scheduler.Retransmission

namespace MpQuic.Scheduler

open MpQuic.Library MpQuic.Protocol MpQuic.Wire MpQuic.AckHandler MpQuic.Packing Function

def Session.Sendable (s : Session) (turn : AckTurn) (pth : Path) : Prop :=
  match turn.ack with
  | some ack => s.packer.AckFits s.crypto s.store pth ack
  | none => s.packer.Sendable s.crypto turn.streams s.store pth

def PacketDue (windowUpdateFrames : List WindowUpdateFrame) (st : Ongoing) (turn : AckTurn) :
    Prop :=
  ∀ pth, st.running = true → st.session.paths turn.pathID = some pth →
    turn.ack ≠ none ∨ windowUpdateFrames ≠ [] ∧ turn.pathID ≠ 0 →
    ((st.session.queueWindowUpdates turn.pathID windowUpdateFrames).prepareAck turn).Sendable turn
      (pth.toPath turn.pathID)

-- The STOP_WAITING frame of the path still fits in a handshake packet that is sent again.
def Session.HandshakeFits (s : Session) (packet : Packet Nat) (firstpath : Nat) (hasSealer : Bool) :
    Prop :=
  ∀ pth, s.paths firstpath = some pth → packet.encryptionLevel ≠ .forwardSecure →
    hasSealer = true → ∀ swf, (pth.sentPacketHandler.getStopWaitingFrame true).2 = some swf →
    let publicHeader :=
      s.packer.getPublicHeader s.crypto packet.encryptionLevel (pth.toPath firstpath)
    s.packer.Fits s.store publicHeader
      (.control (.stopWaiting { swf with
        packetNumber := publicHeader.packetNumber
        packetNumberLen := publicHeader.packetNumberLen }) :: packet.frames)

theorem sendPacked_isPacket_iff (pathID : Nat) (needRetrans : Bool) (now : Int)
    (packed : Session × Except PackError (Option PackedPacket)) :
    (∀ call ∈ (Session.sendPacked pathID needRetrans now packed).2, call.IsPacket) ↔
      Delivers packed.2 := by
  obtain ⟨s, result⟩ := packed
  unfold Session.sendPacked Delivers
  cases result with
  | error err => simp
  | ok packet =>
    cases packet with
    | none => simp [SendCall.IsPacket]
    | some packet => simp [SendCall.IsPacket]

section Turn

variable (s : Session) (turn : AckTurn) (windowUpdateFrames : List WindowUpdateFrame)

theorem queueWindowUpdates_eq (pathID : Nat) :
    s.queueWindowUpdates pathID windowUpdateFrames =
      { s with packer := { s.packer with
          controlFrames :=
            s.packer.controlFrames ++ windowUpdateFrames.map ControlFrame.windowUpdate } } := by
  unfold Session.queueWindowUpdates
  induction windowUpdateFrames generalizing s with
  | nil => simp
  | cons wuf rest ih =>
    rw [List.foldl_cons, ih]
    simp [Session.queueControlFrame, Packer.queueControlFrame]

structure Prepared (s t : Session) (turn : AckTurn) : Prop where
  crypto : t.crypto = s.crypto
  controlFrames : t.packer.controlFrames = s.packer.controlFrames
  ackFrame : t.packer.ackFrame turn.pathID = turn.ack
  path : (t.paths turn.pathID).map (fun pth => pth.toPath turn.pathID) =
    (s.paths turn.pathID).map fun pth => pth.toPath turn.pathID

theorem prepareAck_prepared : Prepared s (s.prepareAck turn) turn := by
  unfold Session.prepareAck Session.queueAckFrame Session.queueStopWaiting
  cases hpath : s.paths turn.pathID with
  | none => exact ⟨rfl, rfl, update_self .., by simp [hpath]⟩
  | some pth =>
    dsimp only
    cases hswf : (pth.sentPacketHandler.getStopWaitingFrame false).2 with
    | none =>
      exact ⟨rfl, rfl, update_self .., by
        simp [Session.setPath, SessionPath.toPath, hpath]⟩
    | some swf =>
      exact ⟨rfl, rfl, update_self .., by
        simp [Session.setPath, Session.queueControlFrame, SessionPath.toPath, hpath]⟩

end Turn

section Pack

variable {s : Session} {pathID : Nat} {routine : Packer → Store → Path → Packed}

theorem pack_result {pth : SessionPath} (h : s.paths pathID = some pth) :
    (s.pack pathID routine).2 = (routine s.packer s.store (pth.toPath pathID)).result := by
  unfold Session.pack
  rw [h]

end Pack

theorem packAck_delivers_iff {s : Session} {turn : AckTurn} {pth : SessionPath}
    (hpath : s.paths turn.pathID = some pth) (hack : s.packer.ackFrame turn.pathID = turn.ack)
    (hlast : turn.ack = none →
      ∃ f, s.packer.controlFrames.getLast? = some (.windowUpdate f)) :
    Delivers (s.packAck turn).2 ↔ s.Sendable turn (pth.toPath turn.pathID) := by
  unfold Session.packAck Session.Sendable
  cases hturn : turn.ack with
  | some ack =>
    dsimp only
    rw [pack_result hpath]
    exact packAckPacket_delivers_iff (hack.trans hturn)
  | none =>
    dsimp only
    rw [pack_result hpath]
    obtain ⟨f, hf⟩ := hlast hturn
    exact packPacket_delivers_iff hf (hack.trans hturn)

theorem ackPath_isPacket_iff {windowUpdateFrames : List WindowUpdateFrame} {st next : Ongoing}
    {turn : AckTurn} {out : List SendCall}
    (h : ackPath windowUpdateFrames st turn = some (next, out)) :
    (∀ call ∈ out, call.IsPacket) ↔ PacketDue windowUpdateFrames st turn := by
  unfold ackPath at h
  unfold PacketDue
  by_cases hidle : st.running = false ∨ st.session.paths turn.pathID = none
  · rw [if_pos hidle] at h
    cases h
    refine iff_of_true (by simp) ?_
    intro pth hrunning hpath
    rcases hidle with hstopped | hnone
    · rw [hstopped] at hrunning
      cases hrunning
    · rw [hnone] at hpath
      cases hpath
  rw [if_neg hidle] at h
  dsimp only at h
  by_cases hskip : turn.ack = none ∧ (windowUpdateFrames = [] ∨ turn.pathID = 0)
  · rw [if_pos hskip] at h
    cases h
    refine iff_of_true (by simp) ?_
    rintro pth - - (hack | ⟨hsome, hother⟩)
    · exact absurd hskip.1 hack
    · exact absurd hskip.2 (not_or.mpr ⟨hsome, hother⟩)
  rw [if_neg hskip] at h
  obtain ⟨hrunning, hknown⟩ := not_or.mp hidle
  obtain ⟨pth, hpath⟩ := Option.ne_none_iff_exists'.mp hknown
  have hprepared := prepareAck_prepared
    (st.session.queueWindowUpdates turn.pathID windowUpdateFrames) turn
  have hsame : (st.session.queueWindowUpdates turn.pathID windowUpdateFrames).paths =
      st.session.paths := by
    rw [queueWindowUpdates_eq]
  have hpacket := hprepared.path
  rw [hsame, hpath, Option.map_some, Option.map_eq_some_iff] at hpacket
  obtain ⟨ready, hready, htoPath⟩ := hpacket
  have hdelivers := packAck_delivers_iff hready hprepared.ackFrame (by
    intro hnone
    rw [hprepared.controlFrames, queueWindowUpdates_eq]
    have hsome : windowUpdateFrames ≠ [] := fun hnil => hskip ⟨hnone, Or.inl hnil⟩
    refine ⟨windowUpdateFrames.getLast hsome, ?_⟩
    simp [List.getLast?_append, List.getLast?_eq_some_getLast hsome])
  have hout : (Session.sendPacked turn.pathID true turn.now _).2 = out :=
    congrArg Prod.snd (Option.some.inj h)
  rw [← hout, sendPacked_isPacket_iff, hdelivers, htoPath]
  constructor
  · intro hsend other _ hother _
    rw [hpath] at hother
    cases hother
    exact hsend
  · intro hdue
    refine hdue pth (by simpa using hrunning) hpath ?_
    by_cases hack : turn.ack = none
    · exact Or.inr (not_or.mp fun hno => hskip ⟨hack, hno⟩)
    · exact Or.inl hack

theorem retransmitHandshake_isPacket_iff (s : Session) (packet : Packet Nat) (firstpath : Nat)
    (hasSealer : Bool) (random : Option Nat) (now : Int) :
    (∀ call ∈ (s.retransmitHandshake packet firstpath hasSealer random now).2, call.IsPacket) ↔
      s.HandshakeFits packet firstpath hasSealer := by
  unfold Session.retransmitHandshake Session.HandshakeFits
  cases hpath : s.paths firstpath with
  | none => simp
  | some pth =>
    dsimp only
    rw [sendPacked_isPacket_iff, pack_result (update_self ..),
      packHandshakeRetransmission_delivers_iff]
    simp only [Option.some.injEq, forall_eq']
    refine forall₂_congr fun _ _ => ?_
    cases hswf : (pth.sentPacketHandler.getStopWaitingFrame true).2 with
    | none => simp [Packer.numberStopWaiting, SessionPath.toPath]
    | some swf =>
      simp only [Packer.numberStopWaiting, SessionPath.toPath, update_self,
        Option.some.injEq, forall_eq']
      exact Packer.Fits.congr rfl rfl

-- Every call is made with a packet and its bytes, in the loop over the paths exactly if
-- a packet is due whenever a path sends, and for a handshake packet exactly if the frames
-- that are sent again are not too long.
theorem send_calls_are_packets_iff (s : Session) (windowUpdateFrames : List WindowUpdateFrame)
    (turns : List AckTurn) (last : Ongoing) (log : List SendCall)
    (hr : s.ackRemainingPaths windowUpdateFrames turns = some (last, log)) (packet : Packet Nat)
    (firstpath : Nat) (hasSealer : Bool) (random : Option Nat) (now : Int) :
    ((∀ call ∈ log, call.IsPacket) ↔
      Along (ackPath windowUpdateFrames) (PacketDue windowUpdateFrames) ⟨s, true⟩ turns) ∧
    ((∀ call ∈ (s.retransmitHandshake packet firstpath hasSealer random now).2, call.IsPacket) ↔
      s.HandshakeFits packet firstpath hasSealer) := by
  refine ⟨run_forall_iff ?_ hr, retransmitHandshake_isPacket_iff s packet firstpath hasSealer random
    now⟩
  intro st turn next out h
  exact ackPath_isPacket_iff h

section Example

def busySession (controlFrames : List ControlFrame) : Session where
  crypto := readyCrypto
  packer := readyPacker controlFrames none none []
  store := oneFrameStore
  paths := Function.update (fun _ => none) 1
    (some ⟨⟨500, 7, 0⟩, 1, { newSentPacketHandler with stopWaitingManager := ⟨0, 2, none⟩ }⟩)
  pathsFrame := none

def quietTurn (ack : Option AckFrame) : AckTurn := ⟨1, ack, quietStreams, none, 0⟩

def handshakePacket : Packet Nat := ⟨1, [.stream 0], 100, .secure, 0, true⟩

theorem send_calls_are_packets_example :
    ∃ last log, (busySession [.ping]).ackRemainingPaths [⟨5, 1000⟩]
      [quietTurn (some pendingAck)] = some (last, log) ∧ log.length = 1 ∧
      (∀ call ∈ log, call.IsPacket) ∧
      ((busySession []).retransmitHandshake handshakePacket 1 true none 0).2.length = 1 ∧
      ∀ call ∈ ((busySession []).retransmitHandshake handshakePacket 1 true none 0).2,
        call.IsPacket := by
  refine ⟨_, _, rfl, rfl, ?_, rfl, ?_⟩
  · apply (send_calls_are_packets_iff (busySession [.ping]) [⟨5, 1000⟩] [quietTurn (some pendingAck)]
      _ _ rfl handshakePacket 1 true none 0).1.mpr
    refine ⟨?_, trivial⟩
    intro pth _ hpath _
    cases hpath
    show Packer.AckFits _ _ _ _ _
    unfold Packer.AckFits
    decide +kernel
  · apply (send_calls_are_packets_iff (busySession []) [] [] _ _ rfl handshakePacket 1 true none
      0).2.mpr
    intro pth hpath _ _ swf hswf
    cases hpath
    cases hswf
    decide +kernel

def fullSession : Session :=
  { busySession [] with
    crypto := ⟨.secure, .secure, [], false, Nat.zero_le 32⟩
    store := ⟨fun _ => ⟨5, false, false, 0, List.replicate 1321 42⟩, 1⟩ }

-- With a PING frame in front of the control frames and a STOP_WAITING frame for the path
-- nothing is packed, and the call is made with nil. A full packet has no room for the
-- STOP_WAITING frame when it is sent again, and the call is made without its bytes.
theorem nil_is_sent :
    (∃ last, (busySession [.ping]).ackRemainingPaths [⟨5, 1000⟩] [quietTurn none] =
      some (last, [⟨1, none⟩]) ∧ ¬SendCall.IsPacket ⟨1, none⟩) ∧
    fullSession.packer.Fits fullSession.store (fullSession.packer.getPublicHeader
      fullSession.crypto .secure ⟨1, ⟨500, 7, 0⟩, 1⟩) handshakePacket.frames ∧
    ∃ call ∈ (fullSession.retransmitHandshake handshakePacket 1 true none 0).2,
      ¬call.IsPacket := by
  refine ⟨⟨_, rfl, by decide⟩, by decide +kernel, ?_⟩
  refine ⟨⟨1, some ⟨7, none, [.control (.stopWaiting ⟨2, 2, 7⟩), .stream 0], .secure⟩⟩, ?_, ?_⟩
  · decide +kernel
  · decide

end Example

end MpQuic.Scheduler

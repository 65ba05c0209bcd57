import MpQuic.Scheduler.Redundancy

namespace MpQuic.Packing

open MpQuic.Library MpQuic.Protocol MpQuic.Wire List Function

def Packer.Writes (p : Packer) (store : Store) (publicHeader : PublicHeader)
    (frames : List (Frame Nat)) : Prop :=
  ∃ header payload, publicHeader.write p.version p.perspective = .ok header ∧
    writeFrames p.version store frames = .ok payload

section Sealing

variable {p : Packer} {store : Store} {frames : List (Frame Nat)} {crypto : CryptoSetup}
  {encLevel : EncryptionLevel} {pth : Path}

variable {q : Packer}

theorem writeAndSealPacket_some (random : Option Nat)
    (hwrites : p.Writes store (p.getPublicHeader crypto encLevel pth) frames)
    (hfits : p.Fits store (p.getPublicHeader crypto encLevel pth) frames)
    (hversion : q.version = p.version) (hperspective : q.perspective = p.perspective) :
    ∃ raw, (q.writeAndSealPacket store (p.getPublicHeader crypto encLevel pth) frames random
      pth).2 = .ok (some raw) := by
  obtain ⟨header, payload, hheader, hpayload⟩ := hwrites
  have hnumber : (pth.packetNumberGenerator.pop random).2 =
      (p.getPublicHeader crypto encLevel pth).packetNumber := by
    unfold PacketNumberGenerator.pop
    dsimp only
    split <;> rfl
  unfold Packer.writeAndSealPacket
  rw [hversion, hperspective, hheader]
  dsimp only
  rw [hpayload]
  dsimp only
  rw [if_neg (Nat.not_lt.mpr (hfits header payload hheader hpayload)),
    if_neg (not_not_intro hnumber)]
  exact ⟨_, rfl⟩

theorem sealPayload_streams (random : Option Nat) {composed : Composed}
    (c : ComposedFrom q pth.pathID composed frames) (hversion : composed.packer.version = p.version)
    (hperspective : composed.packer.perspective = p.perspective)
    (hwrites : p.Writes composed.store (p.getPublicHeader crypto encLevel pth) frames)
    (hfits : p.Fits composed.store (p.getPublicHeader crypto encLevel pth) frames) {ref : Nat}
    (href : ref ∈ Packer.streamFrames frames) :
    ∃ raw, (composed.packer.sealPayload composed.store (p.getPublicHeader crypto encLevel pth) frames
      encLevel random pth).result =
        .ok (some ⟨pth.packetNumberGenerator.peek, some raw, frames, encLevel⟩) := by
  obtain ⟨raw, hraw⟩ := writeAndSealPacket_some random hwrites hfits
    (q := composed.packer.clearPending pth.pathID) hversion hperspective
  have hsome : ¬frames.length = 0 := by
    intro hzero
    rw [length_eq_zero_iff.mp hzero] at href
    cases href
  have hmore : ¬(frames.length = 1 ∧ composed.packer.stopWaiting pth.pathID ≠ none) := by
    intro halone
    rw [c.stopWaiting] at halone
    rw [c.streamFrames_alone halone] at href
    cases href
  unfold Packer.sealPayload
  rw [if_neg hsome, if_neg hmore]
  dsimp only
  rw [hraw]
  exact ⟨raw, rfl⟩

end Sealing

-- Crypto data needs a public header that can be written. Other data needs this too, with
-- frames that can be written, and queues in order or a packet that is not too large.
def Packer.SealsTaken (p : Packer) (crypto : CryptoSetup) (streams : Streams) (store : Store)
    (pth : Path) : Prop :=
  if streams.hasCryptoStreamFrame then
    ∃ header, (p.getPublicHeader crypto crypto.cryptoStreamLevel pth).write p.version
      p.perspective = .ok header
  else
    Packer.isPing p.controlFrames = false →
      ∀ publicHeaderLength payloadFrames,
        (p.getPublicHeader crypto crypto.level pth).getLength p.perspective =
          .ok publicHeaderLength →
        (p.composeFirst crypto streams store pth publicHeaderLength).result = .ok payloadFrames →
        Packer.streamFrames payloadFrames ≠ [] →
        p.Writes (p.composeFirst crypto streams store pth publicHeaderLength).store
            (p.getPublicHeader crypto crypto.level pth) payloadFrames ∧
          (p.Orderly streams store ∨
            p.Fits (p.composeFirst crypto streams store pth publicHeaderLength).store
              (p.getPublicHeader crypto crypto.level pth) payloadFrames)

section Taken

variable {p : Packer} {crypto : CryptoSetup} {streams : Streams} {store : Store} {pth : Path}
  {ref : Nat}

def Packed.Carries (packed : Packed) (pth : Path) (ref : Nat) : Prop :=
  ∃ packet, packed.result = .ok (some packet) ∧ .stream ref ∈ packet.frames ∧
    packet.number = pth.packetNumberGenerator.peek

-- There is data, and room for some of it whatever the header takes.
theorem cryptoFrame_writes (store : Store) {length : Nat}
    (hcrypto : streams.hasCryptoStreamFrame = true) (hlength : length ≤ 52) (version : Int) :
    ∃ payload, writeFrames version (store.alloc (streams.popCryptoStreamFrame (maxPacketSize -
      overhead - nonForwardSecurePacketSizeReduction - length))) [.stream store.next] =
        .ok payload := by
  have hdata : streams.cryptoData.length > 0 := of_decide_eq_true hcrypto
  have hmin := StreamFrame.minLength_le ⟨1, false, false, streams.cryptoOffset, []⟩
  have hsome : (streams.popCryptoStreamFrame (maxPacketSize - overhead -
      nonForwardSecurePacketSizeReduction - length)).data.length ≠ 0 := by
    unfold Streams.popCryptoStreamFrame
    rw [length_take]
    unfold maxPacketSize overhead nonForwardSecurePacketSizeReduction
    omega
  simp only [writeFrames, writeFrame, Heap.get_alloc_next, StreamFrame.write]
  rw [if_neg fun hempty => hsome hempty.1]
  exact ⟨_, rfl⟩

theorem packCryptoPacket_carries (random : Option Nat) (hcrypto : streams.hasCryptoStreamFrame = true)
    (h : p.SealsTaken crypto streams store pth) :
    (p.packCryptoPacket crypto streams random store pth).Carries pth store.next := by
  obtain ⟨length, hlength⟩ := getPublicHeader_getLength p crypto crypto.cryptoStreamLevel pth
  unfold Packer.SealsTaken at h
  rw [if_pos hcrypto] at h
  obtain ⟨header, hheader⟩ := h
  obtain ⟨payload, hpayload⟩ := cryptoFrame_writes store hcrypto
    (getPublicHeader_length_le hlength) p.version
  obtain ⟨raw, hraw⟩ := writeAndSealPacket_some random ⟨header, payload, hheader, hpayload⟩
    (cryptoFrame_fits hlength) rfl rfl
  unfold Packer.packCryptoPacket Packed.Carries
  dsimp only
  rw [hlength]
  dsimp only
  rw [hraw]
  exact ⟨_, rfl, mem_singleton_self _, rfl⟩

theorem sealPayload_carries (random : Option Nat) (hcrypto : streams.hasCryptoStreamFrame = false)
    (hping : Packer.isPing p.controlFrames = false) {length : Nat}
    (hlength : (p.getPublicHeader crypto crypto.level pth).getLength p.perspective = .ok length)
    (h : p.SealsTaken crypto streams store pth) {composed : Composed}
    {payloadFrames : List (Frame Nat)}
    (hc : Nonempty (ComposedFrom (p.numberStopWaiting pth.pathID
      (p.getPublicHeader crypto crypto.level pth)) pth.pathID composed payloadFrames))
    (hresult : (p.composeFirst crypto streams store pth length).result = .ok payloadFrames)
    (hstore : composed.store = (p.composeFirst crypto streams store pth length).store)
    (hversion : composed.packer.version = p.version)
    (hperspective : composed.packer.perspective = p.perspective)
    (href : ref ∈ Packer.streamFrames payloadFrames) :
    ∃ raw, (composed.packer.sealPayload composed.store (p.getPublicHeader crypto crypto.level pth)
      payloadFrames crypto.level random pth).result =
        .ok (some ⟨pth.packetNumberGenerator.peek, some raw, payloadFrames, crypto.level⟩) := by
  obtain ⟨c⟩ := hc
  unfold Packer.SealsTaken at h
  rw [if_neg (by simp [hcrypto])] at h
  obtain ⟨hwrites, hfits⟩ := h hping length payloadFrames hlength hresult (ne_nil_of_mem href)
  have hfits := hfits.elim (fun horderly => horderly.fits hlength hresult) id
  rw [← hstore] at hwrites hfits
  exact sealPayload_streams random c hversion hperspective hwrites hfits href

end Taken

end MpQuic.Packing

namespace MpQuic.Scheduler

open MpQuic.Library MpQuic.Protocol MpQuic.Wire MpQuic.AckHandler MpQuic.Packing List Function

section Packing

variable {p : Packer} {crypto : CryptoSetup} {streams : Streams} {store : Store} {pth : Path}
  {ref : Nat}

theorem mem_takenFrames (h : ref ∈ takenFrames crypto p store streams pth) :
    streams.hasCryptoStreamFrame = true ∧ ref = store.next ∨
      streams.hasCryptoStreamFrame = false ∧ Packer.isPing p.controlFrames = false ∧
        ∃ length payloadFrames,
          (p.getPublicHeader crypto crypto.level pth).getLength p.perspective = .ok length ∧
          (p.composeFirst crypto streams store pth length).result = .ok payloadFrames ∧
          ref ∈ Packer.streamFrames payloadFrames := by
  unfold takenFrames at h
  cases hcrypto : streams.hasCryptoStreamFrame with
  | true =>
    rw [if_pos hcrypto] at h
    exact Or.inl ⟨rfl, mem_singleton.mp h⟩
  | false =>
    rw [if_neg (by simp [hcrypto])] at h
    cases hping : Packer.isPing p.controlFrames with
    | true =>
      rw [if_pos hping] at h
      cases h
    | false =>
      rw [if_neg (by simp [hping])] at h
      split at h
      · cases h
      next length hlength =>
        split at h
        · cases h
        next payloadFrames hresult =>
          exact Or.inr ⟨rfl, rfl, length, payloadFrames, hlength, hresult, h⟩

theorem packPacketRedundancy_carries (random : Option Nat) (h : p.SealsTaken crypto streams store pth)
    (href : ref ∈ takenFrames crypto p store streams pth) :
    (p.packPacketRedundancy crypto streams true random store pth).Carries pth ref := by
  rcases mem_takenFrames href with ⟨hcrypto, rfl⟩ |
    ⟨hcrypto, hping, length, payloadFrames, hlength, hresult, hin⟩
  · rw [packPacketRedundancy_crypto hcrypto]
    exact packCryptoPacket_carries random hcrypto h
  · obtain ⟨hversion, hperspective⟩ := composeFirst_writes p crypto streams store pth length
    rw [packPacketRedundancy_composed hcrypto hping hlength]
    have hcomposed : ((p.numberStopWaiting pth.pathID
        (p.getPublicHeader crypto crypto.level pth)).composeRedundancy streams true store
        (Packer.maxSize length) (p.canSendData crypto.level) pth.pathID).result =
        .ok payloadFrames := hresult
    obtain ⟨raw, hraw⟩ := sealPayload_carries random hcrypto hping hlength h
      (composeRedundancy_first hcomposed) hresult rfl hversion hperspective hin
    unfold Packed.Carries Packer.dropUnsealed Packer.packComposed
    rw [hcomposed]
    dsimp only
    rw [hraw]
    exact ⟨_, rfl, mem_streamFrames.mp hin, rfl⟩

theorem packPacket_carries (random : Option Nat) (h : p.SealsTaken crypto streams store pth)
    (href : ref ∈ takenFrames crypto p store streams pth) :
    (p.packPacket crypto streams random store pth).Carries pth ref := by
  unfold Packer.packPacket Packer.packWith
  rcases mem_takenFrames href with ⟨hcrypto, rfl⟩ |
    ⟨hcrypto, hping, length, payloadFrames, hlength, hresult, hin⟩
  · rw [if_pos hcrypto]
    exact packCryptoPacket_carries random hcrypto h
  · obtain ⟨hversion, hperspective⟩ := composeFirst_writes p crypto streams store pth length
    rw [if_neg (by simp [hcrypto])]
    dsimp only
    rw [hlength]
    dsimp only
    rw [numberStopWaiting_controlFrames, if_neg (by simp [hping]), numberStopWaiting_canSendData]
    have hcomposed : ((p.numberStopWaiting pth.pathID
        (p.getPublicHeader crypto crypto.level pth)).composeNextPacket streams store
        (Packer.maxSize length) (p.canSendData crypto.level) pth.pathID).result =
        .ok payloadFrames := hresult
    obtain ⟨raw, hraw⟩ := sealPayload_carries random hcrypto hping hlength h
      (composeWith_ok _ _ _ _ _ _ hcomposed) hresult rfl hversion hperspective hin
    unfold Packed.Carries Packer.packComposed
    rw [hcomposed]
    dsimp only
    exact ⟨_, hraw, mem_streamFrames.mp hin, rfl⟩

end Packing

def Accepts (h : SentPacketHandler Nat) (number : Nat) : Prop :=
  h.lastSentPacketNumber < number ∧
    h.retransmissionQueue.length + h.packetHistory.length + 1 ≤ maxTrackedSentPackets

section Sending

variable {ref : Nat}

theorem sentPacket_tracks {h : SentPacketHandler Nat} {p : Packet Nat} (now : Int)
    (haccepts : Accepts h p.packetNumber) (hneed : p.needRetrans = true)
    (href : .stream ref ∈ p.frames) :
    ∃ tracked, (h.sentPacket p now).1.packetHistory = h.packetHistory ++ [tracked] ∧
      .stream ref ∈ tracked.frames := by
  obtain ⟨hnumber, hroom⟩ := haccepts
  have hkept : .stream ref ∈ stripNonRetransmittableFrames p.frames :=
    mem_filter.mpr ⟨href, rfl⟩
  unfold SentPacketHandler.sentPacket
  rw [if_neg (Nat.not_le.mpr hnumber), if_neg (Nat.not_lt.mpr hroom)]
  dsimp only
  rw [if_pos]
  · exact ⟨_, rfl, hkept⟩
  · refine ⟨?_, ?_⟩
    · intro hzero
      rw [length_eq_zero_iff.mp hzero] at hkept
      cases hkept
    · rw [hneed]
      exact fun hboth => nomatch hboth.1

variable {s : Session} {slot : Slot}

theorem deliver_taken (role : Role) (composes needRetrans : Bool)
    (windowUpdateFrames : List WindowUpdateFrame)
    (packed : Session × Except PackError (Option PackedPacket)) :
    (s.deliver slot role composes needRetrans windowUpdateFrames packed).2.taken =
      s.takenAt slot composes := by
  unfold Session.deliver
  split <;> rfl

variable {pathID : Nat} {pth : SessionPath}

theorem history_of_some (h : s.paths pathID = some pth) :
    s.history pathID = pth.sentPacketHandler.packetHistory := by
  unfold Session.history
  rw [h]

theorem pack_paths (h : s.paths pathID = some pth) (routine : Packer → Store → Path → Packed) :
    ∃ generator, (s.pack pathID routine).1.paths pathID =
      some { pth with packetNumberGenerator := generator } := by
  unfold Session.pack
  rw [h]
  exact ⟨_, update_self _ _ _⟩

theorem sendPackedPacket_tracks {packet : PackedPacket} (hpth : s.paths pathID = some pth)
    (now : Int) (haccepts : Accepts pth.sentPacketHandler packet.number)
    (href : .stream ref ∈ packet.frames) :
    ∃ tracked ∈ ((s.sendPackedPacket packet pathID true now).1.history pathID).drop
      pth.sentPacketHandler.packetHistory.length, .stream ref ∈ tracked.frames := by
  obtain ⟨tracked, hhistory, hin⟩ := sentPacket_tracks (h := pth.sentPacketHandler)
    (p := Session.trackedPacket packet true) now haccepts rfl href
  have hafter : (s.sendPackedPacket packet pathID true now).1.paths pathID =
      some { pth with sentPacketHandler :=
        (pth.sentPacketHandler.sentPacket (Session.trackedPacket packet true) now).1 } := by
    unfold Session.sendPackedPacket
    rw [hpth]
    exact update_self _ _ _
  rw [history_of_some hafter, hhistory, drop_left]
  exact ⟨tracked, mem_singleton_self _, hin⟩

def Delivery.Kept (d : Delivery) : Prop :=
  ∀ ref ∈ d.taken, ∃ packet ∈ d.tracked, .stream ref ∈ packet.frames

theorem deliver_kept (hpth : s.paths slot.pathID = some pth)
    {routine : Packer → Store → Path → Packed}
    (haccepts : Accepts pth.sentPacketHandler pth.packetNumberGenerator.peek)
    (hcarries : ∀ ref ∈ s.takenAt slot true,
      (routine s.packer s.store (pth.toPath slot.pathID)).Carries (pth.toPath slot.pathID) ref)
    (role : Role) (windowUpdateFrames : List WindowUpdateFrame) :
    (s.deliver slot role true true windowUpdateFrames (s.pack slot.pathID routine)).2.Kept := by
  intro ref href
  rw [deliver_taken] at href
  obtain ⟨packet, hresult, hin, hnumber⟩ := hcarries ref href
  obtain ⟨generator, hpaths⟩ := pack_paths hpth routine
  have hpacked : (s.pack slot.pathID routine).2 = .ok (some packet) :=
    (pack_of_some hpth routine).2.2.trans hresult
  unfold Session.deliver
  rw [hpacked]
  dsimp only
  rw [history_of_some hpth]
  exact sendPackedPacket_tracks hpaths slot.now (hnumber ▸ haccepts) hin

end Sending

-- What a path needs so that all data it takes is tracked: its packet can be sealed, and
-- it is not refused. Another path than the first one must not take any.
def Session.CanTrack (s : Session) (slot : Slot) (isfirst : Bool) : Prop :=
  ∀ pth, s.paths slot.pathID = some pth →
    if isfirst then
      s.packer.SealsTaken s.crypto slot.streams s.store (pth.toPath slot.pathID) ∧
        Accepts pth.sentPacketHandler pth.packetNumberGenerator.peek
    else slot.streams.hasCryptoStreamFrame = false

section Turns

variable {s : Session} {slot : Slot}

theorem takenAt_of_none (h : s.paths slot.pathID = none) (composes : Bool) :
    s.takenAt slot composes = [] := by
  unfold Session.takenAt
  rw [h]

theorem takenAt_of_some {pth : SessionPath} (h : s.paths slot.pathID = some pth) :
    s.takenAt slot true =
      takenFrames s.crypto s.packer s.store slot.streams (pth.toPath slot.pathID) := by
  unfold Session.takenAt
  rw [h]
  exact if_pos rfl

theorem performPacketSendingRedundancy_kept (windowUpdateFrames : List WindowUpdateFrame)
    (isfirst : Bool) (h : (s.queuePing slot.pathID).CanTrack slot isfirst) :
    (s.performPacketSendingRedundancy windowUpdateFrames slot isfirst).2.Kept := by
  unfold Session.performPacketSendingRedundancy
  generalize s.queuePing slot.pathID = t at h ⊢
  dsimp only
  cases hpth : t.paths slot.pathID with
  | none =>
    intro ref href
    rw [deliver_taken, takenAt_of_none hpth] at href
    cases href
  | some pth =>
    have hneeds := h pth hpth
    cases isfirst with
    | true =>
      rw [if_pos rfl] at hneeds
      apply deliver_kept hpth hneeds.2
      intro ref href
      rw [takenAt_of_some hpth] at href
      exact packPacketRedundancy_carries slot.random hneeds.1 href
    | false =>
      rw [if_neg Bool.false_ne_true] at hneeds
      intro ref href
      rw [deliver_taken] at href
      unfold Session.takenAt at href
      rw [hpth] at href
      dsimp only at href
      rw [hneeds, if_neg (by decide)] at href
      cases href

theorem sendPing_kept
    (h : ∀ pth, s.paths slot.pathID = some pth → (s.frontPing slot.pathID pth).CanTrack slot true) :
    ∀ d ∈ (s.sendPing slot).2, d.Kept := by
  unfold Session.sendPing
  cases hpth : s.paths slot.pathID with
  | none => exact nofun
  | some pth =>
    have hfront := h pth hpth
    intro d hd
    rw [mem_singleton.mp hd]
    have hpath : (s.frontPing slot.pathID pth).paths slot.pathID =
        some { pth with leastUnacked := pth.sentPacketHandler.getLeastUnacked } :=
      update_self _ _ _
    have hneeds := hfront _ hpath
    rw [if_pos rfl] at hneeds
    apply deliver_kept hpath hneeds.2
    intro ref href
    rw [takenAt_of_some hpath] at href
    exact packPacket_carries slot.random hneeds.1 href

end Turns

def TurnsTrack (hasStreamRetransmission : Bool) (windowUpdateFrames : List WindowUpdateFrame) :
    Bool → Session → List RoundTurn → Prop
  | _, _, [] => True
  | isfirst, s, turn :: rest =>
    let prepared := s.prepareTurn hasStreamRetransmission turn
    let done := prepared.performPacketSendingRedundancy windowUpdateFrames turn.slot isfirst
    let after := s.takeTurn hasStreamRetransmission windowUpdateFrames isfirst turn
    (prepared.queuePing turn.slot.pathID).CanTrack turn.slot isfirst ∧
      (∀ slot ∈ turn.ping, ∀ pth, done.1.session.paths slot.pathID = some pth →
        (done.1.session.frontPing slot.pathID pth).CanTrack slot true) ∧
      (after.1.running = true →
        TurnsTrack hasStreamRetransmission windowUpdateFrames false after.1.session rest)

def AckTracks (windowUpdateFrames : List WindowUpdateFrame) (st : Ongoing) (turn : AckTurn) : Prop :=
  AckDue windowUpdateFrames st turn → turn.ack = none →
    (st.session.ackPrepared windowUpdateFrames turn).CanTrack
      ⟨turn.pathID, turn.streams, turn.random, turn.now⟩ true

def AcksTrack (s : Session) (pass : Pass) : Prop :=
  Along (ackDelivery pass.ackWindowUpdateFrames) (AckTracks pass.ackWindowUpdateFrames) ⟨s, true⟩
    pass.ackTurns

def PassTracks (s : Session) : SchedulerEvent → Prop
  | .change _ => True
  | .pass pass =>
    let retransmission := s.getRetransmission pass.env pass.orders
    if pass.turns = [] then AcksTrack retransmission.session pass
    else
      retransmission.retransmitPacket = none →
        TurnsTrack (retransmission.session.retransmissionQueue ≠ []) pass.windowUpdateFrames true
          (retransmission.session.queueRoundFrames pass) pass.turns ∧
        AcksTrack (retransmission.session.sendRound pass).1.session pass

section Passes

variable {s : Session}

variable {windowUpdateFrames : List WindowUpdateFrame} {pass : Pass}

theorem takeTurns_kept {hasStreamRetransmission isfirst : Bool} {turns : List RoundTurn}
    (h : TurnsTrack hasStreamRetransmission windowUpdateFrames isfirst s turns) :
    ∀ d ∈ (Session.takeTurns hasStreamRetransmission windowUpdateFrames isfirst s turns).2,
      d.Kept := by
  induction turns generalizing s isfirst with
  | nil => exact nofun
  | cons turn rest ih =>
    obtain ⟨hturn, hping, hrest⟩ := h
    have hdone := performPacketSendingRedundancy_kept windowUpdateFrames isfirst hturn
    have hnow : ∀ d ∈ (s.takeTurn hasStreamRetransmission windowUpdateFrames isfirst turn).2,
        d.Kept := by
      unfold Session.takeTurn
      dsimp only
      split
      next slot _ hslot =>
        intro d hd
        rcases mem_cons.mp hd with rfl | hlater
        · exact hdone
        · exact sendPing_kept (hping slot hslot) d hlater
      next =>
        intro d hd
        rw [mem_singleton.mp hd]
        exact hdone
    unfold Session.takeTurns
    dsimp only
    split
    next hrunning =>
      intro d hd
      rcases mem_append.mp hd with hin | hlater
      · exact hnow d hin
      · exact ih (hrest hrunning) d hlater
    next => exact hnow

theorem queueStopWaiting_history (pathID : Nat) (force : Bool) :
    (s.queueStopWaiting pathID force).history pathID = s.history pathID := by
  unfold Session.queueStopWaiting
  cases hpth : s.paths pathID with
  | none => rfl
  | some pth =>
    have hset : ∀ t : Session, t.paths = (s.setPath pathID { pth with
        sentPacketHandler := (pth.sentPacketHandler.getStopWaitingFrame force).1 }).paths →
        t.history pathID = s.history pathID := by
      intro t ht
      have hafter : t.paths pathID = some { pth with
          sentPacketHandler := (pth.sentPacketHandler.getStopWaitingFrame force).1 } :=
        (congrFun ht pathID).trans (update_self _ _ _)
      rw [history_of_some hafter, history_of_some hpth]
      rfl
    dsimp only
    split <;> exact hset _ rfl

theorem ackPrepared_history (windowUpdateFrames : List WindowUpdateFrame) (turn : AckTurn) :
    (s.ackPrepared windowUpdateFrames turn).history turn.pathID = s.history turn.pathID := by
  have hqueued : (s.queueWindowUpdates turn.pathID windowUpdateFrames).history turn.pathID =
      s.history turn.pathID := by
    rw [queueWindowUpdates_eq]
    rfl
  exact (queueStopWaiting_history turn.pathID false).trans hqueued

theorem ackDelivery_kept {st next : Ongoing}
    {turn : AckTurn} {out : List Delivery} (h : AckTracks windowUpdateFrames st turn)
    (hstep : ackDelivery windowUpdateFrames st turn = some (next, out)) : ∀ d ∈ out, d.Kept := by
  obtain ⟨result, hresult, heq⟩ := Option.map_eq_some_iff.mp hstep
  cases heq
  intro d hd
  split at hd
  next hdue =>
    rw [mem_singleton.mp hd]
    intro ref href
    dsimp only at href ⊢
    by_cases hack : turn.ack = none
    · rw [if_pos hack] at href
      have hneeds := h hdue hack
      obtain ⟨hrunning, hworth⟩ := hdue
      unfold ackPath at hresult
      rw [if_neg hrunning] at hresult
      dsimp only at hresult
      rw [if_neg hworth] at hresult
      cases hresult
      have hprepared : (st.session.queueWindowUpdates turn.pathID windowUpdateFrames).prepareAck
          turn = st.session.ackPrepared windowUpdateFrames turn := rfl
      rw [← ackPrepared_history windowUpdateFrames turn, hprepared]
      generalize st.session.ackPrepared windowUpdateFrames turn = t at hneeds href ⊢
      cases hpth : t.paths turn.pathID with
      | none =>
        rw [takenAt_of_none hpth] at href
        cases href
      | some pth =>
        obtain ⟨hseals, haccepts⟩ := hneeds pth hpth
        rw [takenAt_of_some hpth] at href
        obtain ⟨packet, hresult, hin, hnumber⟩ := packPacket_carries turn.random hseals href
        have hpacked : (t.packAck turn).2 = .ok (some packet) := by
          unfold Session.packAck
          rw [hack]
          exact (pack_of_some hpth _).2.2.trans hresult
        have hpaths : ∃ generator, (t.packAck turn).1.paths turn.pathID =
            some { pth with packetNumberGenerator := generator } := by
          unfold Session.packAck
          rw [hack]
          exact pack_paths hpth _
        obtain ⟨generator, hpaths⟩ := hpaths
        unfold Session.sendPacked
        rw [hpacked, history_of_some hpth]
        exact sendPackedPacket_tracks hpaths turn.now (hnumber ▸ haccepts) hin
    · rw [if_neg hack] at href
      cases href
  next => cases hd

theorem ackDeliveries_kept (h : AcksTrack s pass) : ∀ d ∈ (s.ackDeliveries pass).2, d.Kept := by
  unfold Session.ackDeliveries
  split
  · exact nofun
  next last deliveries hrun =>
    refine run_invariant (fun _ log _ => ∀ d ∈ log, d.Kept) ?_ [] [] _ last pass.ackTurns deliveries
      nofun h hrun
    intro _ log st turn next out hlog hcond hstep d hd
    rcases mem_append.mp hd with hold | hnew
    · exact hlog d hold
    · exact ackDelivery_kept hcond hstep d hnew

theorem sendPass_kept (h : PassTracks s (.pass pass)) : ∀ d ∈ (s.sendPass pass).2, d.Kept := by
  unfold PassTracks at h
  unfold Session.sendPass
  dsimp only at h ⊢
  split
  next hturns =>
    rw [if_pos hturns] at h
    exact ackDeliveries_kept h
  next => exact nofun
  next turn rest hturns hretransmit =>
    rw [if_neg (by rw [hturns]; exact cons_ne_nil _ _)] at h
    obtain ⟨hround, hacks⟩ := h hretransmit
    have hkept : ∀ d ∈ ((s.getRetransmission pass.env pass.orders).session.sendRound pass).2,
        d.Kept := takeTurns_kept hround
    split
    · intro d hd
      rcases mem_append.mp hd with hin | hlater
      · exact hkept d hin
      · exact ackDeliveries_kept hacks d hlater
    · exact hkept

end Passes

-- In every run of the redundancy scheduler in which every packet with data can be sealed and
-- is not refused, and no other path than the first one of a round finds crypto data, every
-- frame for which data was taken is in a packet that is tracked.
theorem redundancy_tracks_data (s last : Session) (events : List SchedulerEvent)
    (log : List (List Delivery)) (hrun : run redundancyStep s events = some (last, log))
    (htracks : Along redundancyStep PassTracks s events) :
    ∀ deliveries ∈ log, ∀ d ∈ deliveries, ∀ ref ∈ d.taken,
      ∃ packet ∈ d.tracked, .stream ref ∈ packet.frames := by
  refine run_invariant (fun _ log _ => ∀ deliveries ∈ log, ∀ d ∈ deliveries, d.Kept) ?_ [] [] s last
    events log nofun htracks hrun
  intro _ log s event next out hlog hcond hstep deliveries hin
  rcases List.mem_append.mp hin with hold | hnew
  · exact hlog deliveries hold
  · cases event with
    | change change =>
      cases hstep
      cases hnew
    | pass pass =>
      cases hstep
      rw [List.mem_singleton.mp hnew]
      exact sendPass_kept hcond

theorem redundancy_tracks_data_example :
    ∃ last log, run redundancyStep twoPathSession [.pass (twoPathPass dataStreams quietStreams)] =
        some (last, log) ∧ (∃ deliveries ∈ log, ∃ d ∈ deliveries, d.taken ≠ []) ∧
      ∀ deliveries ∈ log, ∀ d ∈ deliveries, ∀ ref ∈ d.taken,
        ∃ packet ∈ d.tracked, .stream ref ∈ packet.frames := by
  refine ⟨_, _, rfl, ⟨_, List.mem_singleton_self _, ?_⟩, ?_⟩
  · decide +kernel
  · apply redundancy_tracks_data twoPathSession _ [.pass (twoPathPass dataStreams quietStreams)] _
      rfl
    refine ⟨?_, trivial⟩
    show _ → _
    intro _
    refine ⟨⟨?_, nofun, fun _ => ⟨?_, nofun, fun _ => trivial⟩⟩, trivial⟩
    · intro pth hpth
      cases hpth
      refine ⟨?_, Nat.zero_lt_one, by decide +kernel⟩
      unfold Packer.SealsTaken
      rw [if_neg (by decide +kernel)]
      intro _ length payloadFrames hlength hframes _
      cases hlength
      cases hframes
      exact ⟨⟨_, _, rfl, rfl⟩, Or.inr (by decide +kernel)⟩
    · intro pth hpth
      rfl

-- The second path of a round finds crypto data. Its packet is not to be sent again, and
-- so no packet that is tracked in the run has the frame.
theorem crypto_data_is_not_tracked :
    ∃ last log, run redundancyStep twoPathSession [.pass (twoPathPass dataStreams cryptoStreams)] =
        some (last, log) ∧
      ∃ deliveries ∈ log, ∃ d ∈ deliveries, ∃ ref ∈ d.taken,
        ∀ others ∈ log, ∀ other ∈ others, ∀ packet ∈ other.tracked,
          .stream ref ∉ packet.frames := by
  refine ⟨_, _, rfl, _, List.mem_singleton_self _, ?_⟩
  decide +kernel

end MpQuic.Scheduler

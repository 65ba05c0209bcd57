import MpQuic.Packing.Fit

namespace MpQuic.Packing

open MpQuic.Library MpQuic.Protocol MpQuic.Wire List

-- What the first path composes is not too large, or has no control frame that is not queued
-- again at once.
def Packer.FirstSafe (p : Packer) (crypto : CryptoSetup) (streams : Streams) (store : Store)
    (pth : Path) : Prop :=
  p.FirstComposes crypto streams store pth fun composed payloadFrames =>
    p.Fits composed.store (p.getPublicHeader crypto crypto.level pth) payloadFrames ∨
      ((controlsOf payloadFrames).map bare).Subperm
        ((composed.blocked.map ControlFrame.blocked).map bare)

def Packer.Safe (p : Packer) (call : Call) (crypto : CryptoSetup) (streams : Streams)
    (store : Store) (pth : Path) : Prop :=
  if streams.hasCryptoStreamFrame then True
  else if Packer.isPing p.controlFrames then p.pending pth.pathID = []
  else
    match call with
    | .packPacket => True
    | .packPacketSTMS _ => True
    | .packPacketRedundancy isfirst =>
      if isfirst then p.FirstSafe crypto streams store pth else p.RepeatSafe pth.pathID

section Calls

variable {crypto : CryptoSetup} {streams : Streams} {random : Option Nat} {p : Packer}
  {store : Store} {pth : Path} {packet : Option PackedPacket}

theorem packWith_keeps_iff (popNormal : Nat → Handout)
    (h : (p.packWith (Packer.composeWith popNormal) crypto streams random store pth).result =
      .ok packet) :
    Keeps p (p.packWith (Packer.composeWith popNormal) crypto streams random store pth).packer
      pth.pathID packet ↔
      (streams.hasCryptoStreamFrame = false → Packer.isPing p.controlFrames = true →
        p.pending pth.pathID = []) := by
  unfold Packer.packWith at h ⊢
  cases hcrypto : streams.hasCryptoStreamFrame with
  | true =>
    simp only [hcrypto, if_true] at h ⊢
    rw [packCryptoPacket_packer]
    simp [Keeps.of_same packet rfl]
  | false =>
    simp only [hcrypto, Bool.false_eq_true, if_false, forall_const] at h ⊢
    cases hlen : (p.getPublicHeader crypto crypto.level pth).getLength p.perspective with
    | error err => simp [hlen] at h
    | ok publicHeaderLength =>
      simp only [hlen] at h ⊢
      rw [← numberStopWaiting_pending_eq_nil p pth.pathID
        (p.getPublicHeader crypto crypto.level pth), ← keeps_numbered p _ pth.pathID
        (p.getPublicHeader crypto crypto.level pth)]
      rw [numberStopWaiting_controlFrames] at h ⊢
      cases hping : Packer.isPing p.controlFrames with
      | true =>
        simp only [hping, if_true, forall_const] at h ⊢
        apply packPing_keeps_iff _ h
        rw [numberStopWaiting_controlFrames]
        exact hping
      | false =>
        simp only [hping, Bool.false_eq_true, if_false, false_implies, iff_true] at h ⊢
        exact packComposed_keeps (fun _ hr => composeWith_ok _ _ _ _ _ _ hr) h

variable {isfirst : Bool} {publicHeaderLength : Nat}

theorem packPacketRedundancy_crypto (hcrypto : streams.hasCryptoStreamFrame = true) :
    p.packPacketRedundancy crypto streams isfirst random store pth =
      p.packCryptoPacket crypto streams random store pth := by
  unfold Packer.packPacketRedundancy
  rw [if_pos hcrypto]

theorem packPacketRedundancy_ping (hcrypto : streams.hasCryptoStreamFrame = false)
    (hping : Packer.isPing p.controlFrames = true) :
    p.packPacketRedundancy crypto streams isfirst random store pth =
      Packer.dropUnsealed ((p.numberStopWaiting pth.pathID
        (p.getPublicHeader crypto crypto.level pth)).packPing store
        (p.getPublicHeader crypto crypto.level pth) crypto.level random pth) := by
  obtain ⟨length, hlength⟩ := getPublicHeader_getLength p crypto crypto.level pth
  unfold Packer.packPacketRedundancy
  rw [if_neg (by simp [hcrypto])]
  dsimp only
  rw [hlength]
  dsimp only
  rw [numberStopWaiting_controlFrames, if_pos hping]

theorem packPacketRedundancy_composed (hcrypto : streams.hasCryptoStreamFrame = false)
    (hping : Packer.isPing p.controlFrames = false)
    (hlength : (p.getPublicHeader crypto crypto.level pth).getLength p.perspective =
      .ok publicHeaderLength) :
    p.packPacketRedundancy crypto streams isfirst random store pth =
      Packer.dropUnsealed (Packer.packComposed ((p.numberStopWaiting pth.pathID
        (p.getPublicHeader crypto crypto.level pth)).composeRedundancy streams isfirst store
        (Packer.maxSize publicHeaderLength) (p.canSendData crypto.level) pth.pathID)
        (p.getPublicHeader crypto crypto.level pth) crypto.level random pth) := by
  unfold Packer.packPacketRedundancy
  rw [if_neg (by simp [hcrypto])]
  dsimp only
  rw [hlength]
  dsimp only
  rw [numberStopWaiting_controlFrames, if_neg (by simp [hping]), numberStopWaiting_canSendData]

theorem packPacketRedundancy_keeps_iff
    (h : (p.packPacketRedundancy crypto streams isfirst random store pth).result = .ok packet) :
    Keeps p (p.packPacketRedundancy crypto streams isfirst random store pth).packer pth.pathID
      packet ↔ p.Safe (.packPacketRedundancy isfirst) crypto streams store pth := by
  unfold Packer.Safe
  cases hcrypto : streams.hasCryptoStreamFrame with
  | true =>
    rw [packPacketRedundancy_crypto hcrypto, packCryptoPacket_packer, if_pos rfl]
    exact iff_of_true (Keeps.of_same packet rfl) trivial
  | false =>
    rw [if_neg Bool.false_ne_true,
      ← keeps_numbered p _ pth.pathID (p.getPublicHeader crypto crypto.level pth)]
    cases hping : Packer.isPing p.controlFrames with
    | true =>
      rw [packPacketRedundancy_ping hcrypto hping] at h ⊢
      rw [if_pos rfl, ← numberStopWaiting_pending_eq_nil p pth.pathID
        (p.getPublicHeader crypto crypto.level pth)]
      apply packPing_keeps_iff _ (dropUnsealed_packPing h)
      rw [numberStopWaiting_controlFrames]
      exact hping
    | false =>
      obtain ⟨length, hlength⟩ := getPublicHeader_getLength p crypto crypto.level pth
      rw [packPacketRedundancy_composed hcrypto hping hlength] at h ⊢
      rw [if_neg Bool.false_ne_true]
      cases isfirst with
      | false =>
        dsimp only
        rw [if_neg Bool.false_ne_true, ← numberStopWaiting_repeatSafe p pth.pathID
          (p.getPublicHeader crypto crypto.level pth)]
        exact repeat_keeps_iff h
      | true =>
        dsimp only
        rw [if_pos rfl, first_keeps_iff (fun _ hr => composeRedundancy_first hr) h]
        unfold Packer.FirstSafe
        rw [firstComposes_iff hlength fun _ => Or.inl]
        obtain ⟨hversion, hperspective⟩ := composeFirst_writes p crypto streams store pth length
        refine forall₂_congr fun payloadFrames hr => ?_
        rw [← Packer.Fits.congr hversion hperspective]
        exact imp_iff_not_or.trans (or_congr_left writeAndSealPacket_ne_none_iff)

end Calls

-- After a call that returns no error every frame that was queued for the path is in
-- the packet or still queued, exactly if the call takes a branch that loses nothing.
theorem control_frames_kept_iff (call : Call) (crypto : CryptoSetup) (streams : Streams)
    (random : Option Nat) (p : Packer) (store : Store) (pth : Path)
    (packet : Option PackedPacket)
    (h : (p.pack call crypto streams random store pth).result = .ok packet) :
    Keeps p (p.pack call crypto streams random store pth).packer pth.pathID packet ↔
      p.Safe call crypto streams store pth := by
  have hboth : (streams.hasCryptoStreamFrame = false → Packer.isPing p.controlFrames = true →
      p.pending pth.pathID = []) ↔
      (if streams.hasCryptoStreamFrame then True
        else if Packer.isPing p.controlFrames then p.pending pth.pathID = [] else True) := by
    cases streams.hasCryptoStreamFrame <;> cases Packer.isPing p.controlFrames <;> simp
  cases call with
  | packPacket => exact (packWith_keeps_iff _ h).trans hboth
  | packPacketSTMS gap => exact (packWith_keeps_iff _ h).trans hboth
  | packPacketRedundancy isfirst => exact packPacketRedundancy_keeps_iff h

section Example

theorem control_frames_kept_iff_example :
    Keeps (readyPacker [.windowUpdate ⟨5, 1000⟩] (some ⟨2, 0, 0⟩) (some pendingAck) [])
      (Packer.pack .packPacket readyCrypto quietStreams none
        (readyPacker [.windowUpdate ⟨5, 1000⟩] (some ⟨2, 0, 0⟩) (some pendingAck) [])
        oneFrameStore readyPath).packer 1
      (some ⟨7, some ⟨[88, 0, 0, 0, 0, 0, 0, 0, 0, 1, 0, 7],
        [6, 0, 5, 80, 1, 3, 0, 0, 3, 0, 4, 0, 0, 0, 5, 0, 0, 0, 0, 0, 0, 3, 232]⟩,
        [.control (.stopWaiting ⟨2, 2, 7⟩), .control (.ack pendingAck),
          .control (.windowUpdate ⟨5, 1000⟩)], .forwardSecure⟩) ∧
    Keeps resendingPacker
      (Packer.pack (.packPacketRedundancy true) readyCrypto quietStreams none resendingPacker
        oneFrameStore readyPath).packer 1
      (some ⟨7, some ⟨[88, 0, 0, 0, 0, 0, 0, 0, 0, 1, 0, 7],
        [4, 0, 0, 0, 5, 0, 0, 0, 0, 0, 0, 3, 232, 128, 5, 42]⟩,
        [.control (.windowUpdate ⟨5, 1000⟩), .stream 0], .forwardSecure⟩) := by
  refine ⟨(control_frames_kept_iff .packPacket readyCrypto quietStreams none _ oneFrameStore
    readyPath _ ?_).mpr trivial, (control_frames_kept_iff (.packPacketRedundancy true) readyCrypto
    quietStreams none _ oneFrameStore readyPath _ ?_).mpr (Or.inl resendingPacker_orderly)⟩
  · decide +kernel
  · decide +kernel

-- A PING frame takes the place of a pending ACK frame, is dropped if a STOP_WAITING
-- frame is pending, and a path that repeats frames drops its ACK frame.
theorem pending_frames_lost :
    (∃ packet, (Packer.pack .packPacket readyCrypto quietStreams none
        (readyPacker [.ping] none (some pendingAck) []) oneFrameStore readyPath).result =
        .ok packet ∧
      ¬Keeps (readyPacker [.ping] none (some pendingAck) [])
        (Packer.pack .packPacket readyCrypto quietStreams none
          (readyPacker [.ping] none (some pendingAck) []) oneFrameStore readyPath).packer 1
        packet) ∧
    (∃ packet, (Packer.pack .packPacket readyCrypto quietStreams none
        (readyPacker [.ping] (some ⟨2, 0, 0⟩) none []) oneFrameStore readyPath).result =
        .ok packet ∧
      ¬Keeps (readyPacker [.ping] (some ⟨2, 0, 0⟩) none [])
        (Packer.pack .packPacket readyCrypto quietStreams none
          (readyPacker [.ping] (some ⟨2, 0, 0⟩) none []) oneFrameStore readyPath).packer 1
        packet) ∧
    (∃ packet, (Packer.pack (.packPacketRedundancy false) readyCrypto quietStreams none
        (readyPacker [] none (some pendingAck) [0]) oneFrameStore readyPath).result =
        .ok packet ∧
      ¬Keeps (readyPacker [] none (some pendingAck) [0])
        (Packer.pack (.packPacketRedundancy false) readyCrypto quietStreams none
          (readyPacker [] none (some pendingAck) [0]) oneFrameStore readyPath).packer 1
        packet) := by
  refine ⟨⟨some ⟨7, some ⟨[88, 0, 0, 0, 0, 0, 0, 0, 0, 1, 0, 7], [7]⟩, [.control .ping],
    .forwardSecure⟩, ?_, ?_⟩, ⟨none, ?_, ?_⟩, ⟨some ⟨7, some ⟨[88, 0, 0, 0, 0, 0, 0, 0, 0, 1, 0, 7],
    [160, 5, 0, 1, 42]⟩, [.stream 0], .forwardSecure⟩, ?_, ?_⟩⟩ <;> decide

end Example

end MpQuic.Packing

import MpQuic.Packing.Fit

namespace MpQuic.Packing

open MpQuic.Library MpQuic.Protocol MpQuic.Wire List Option

def Delivers (result : Except PackError (Option PackedPacket)) : Prop :=
  ∀ packet, result = .ok packet → packet.any (fun packet => packet.raw.isSome) = true

def Packer.AckFits (p : Packer) (crypto : CryptoSetup) (store : Store) (pth : Path)
    (ack : AckFrame) : Prop :=
  let publicHeader := p.getPublicHeader crypto crypto.level pth
  let stopWaiting := (p.numberStopWaiting pth.pathID publicHeader).stopWaiting pth.pathID
  p.Fits store publicHeader
    ((.ack ack :: (stopWaiting.map ControlFrame.stopWaiting).toList).map Frame.control)

-- A PING frame is not held back by a STOP_WAITING frame, and other frames are not too
-- long. Crypto data is always sent.
def Packer.Sendable (p : Packer) (crypto : CryptoSetup) (streams : Streams) (store : Store)
    (pth : Path) : Prop :=
  streams.hasCryptoStreamFrame = false →
    if Packer.isPing p.controlFrames then p.stopWaiting pth.pathID = none
    else p.FirstFits crypto streams store pth

section Routines

variable {crypto : CryptoSetup} {streams : Streams} {random : Option Nat} {p : Packer}
  {store : Store} {pth : Path}

theorem delivers_error (err : PackError) : Delivers (.error err) := by
  intro packet h
  cases h

variable {frames : List (Frame Nat)} {encLevel : EncryptionLevel} {publicHeader : PublicHeader}

theorem delivers_sealed_iff {sealed : Except PackError (Option Raw)} {number : Nat} :
    Delivers (sealed.map fun raw => some ⟨number, raw, frames, encLevel⟩) ↔ sealed ≠ .ok none := by
  unfold Delivers
  cases sealed with
  | error err => simp [Except.map]
  | ok raw => cases raw <;> simp [Except.map]

theorem sealFrames_delivers_iff :
    Delivers (p.sealFrames store publicHeader frames encLevel random pth).result ↔
      p.Fits store publicHeader frames :=
  delivers_sealed_iff.trans writeAndSealPacket_ne_none_iff

theorem packAckPacket_delivers_iff {ack : AckFrame} (hack : p.ackFrame pth.pathID = some ack) :
    Delivers (p.packAckPacket crypto random store pth).result ↔
      p.AckFits crypto store pth ack := by
  unfold Packer.packAckPacket Packer.AckFits
  rw [hack]
  obtain ⟨hversion, hperspective⟩ := numberStopWaiting_writes p pth.pathID
    (p.getPublicHeader crypto crypto.level pth)
  exact sealFrames_delivers_iff.trans (Packer.Fits.congr hversion hperspective)

theorem packHandshakeRetransmission_delivers_iff {hasSealer : Bool}
    {encryptionLevel : EncryptionLevel} :
    Delivers (p.packHandshakeRetransmission crypto hasSealer encryptionLevel frames random store
      pth).result ↔
      (encryptionLevel ≠ .forwardSecure → hasSealer = true →
        ∀ swf, (p.numberStopWaiting pth.pathID
          (p.getPublicHeader crypto encryptionLevel pth)).stopWaiting pth.pathID = some swf →
        p.Fits store (p.getPublicHeader crypto encryptionLevel pth)
          (.control (.stopWaiting swf) :: frames)) := by
  unfold Packer.packHandshakeRetransmission
  by_cases hlevel : encryptionLevel = .forwardSecure
  · rw [if_pos hlevel]
    exact iff_of_true (delivers_error _) fun hne => absurd hlevel hne
  rw [if_neg hlevel]
  cases hasSealer with
  | false => exact iff_of_true (delivers_error _) fun _ hsealer => Bool.noConfusion hsealer
  | true =>
    rw [if_neg Bool.noConfusion]
    simp only [hlevel, ne_eq, not_false_eq_true, forall_const]
    cases hswf : (p.numberStopWaiting pth.pathID
        (p.getPublicHeader crypto encryptionLevel pth)).stopWaiting pth.pathID with
    | none =>
      refine iff_of_true (delivers_error _) ?_
      intro swf h
      cases h
    | some swf =>
      refine sealFrames_delivers_iff.trans ?_
      constructor
      · intro hfits other hother
        cases hother
        exact hfits
      · intro hfits
        exact hfits swf rfl

theorem packCryptoPacket_delivers :
    Delivers (p.packCryptoPacket crypto streams random store pth).result := by
  unfold Packer.packCryptoPacket
  dsimp only
  cases hl : (p.getPublicHeader crypto crypto.cryptoStreamLevel pth).getLength p.perspective with
  | error err => exact delivers_error _
  | ok publicHeaderLength =>
    exact delivers_sealed_iff.mpr (writeAndSealPacket_ne_none_iff.mpr (cryptoFrame_fits hl))

theorem sealPayload_delivers_iff {payloadFrames : List (Frame Nat)} :
    Delivers (p.sealPayload store publicHeader payloadFrames encLevel random pth).result ↔
      payloadFrames ≠ [] ∧ ¬(payloadFrames.length = 1 ∧ p.stopWaiting pth.pathID ≠ none) ∧
        p.Fits store publicHeader payloadFrames := by
  have hnil : ¬Delivers (.ok none) := fun h => Bool.noConfusion (h none rfl)
  unfold Packer.sealPayload
  by_cases hempty : payloadFrames.length = 0
  · rw [if_pos hempty]
    exact iff_of_false hnil fun h => h.1 (length_eq_zero_iff.mp hempty)
  · rw [if_neg hempty]
    by_cases halone : payloadFrames.length = 1 ∧ p.stopWaiting pth.pathID ≠ none
    · rw [if_pos halone]
      exact iff_of_false hnil fun h => h.2.1 halone
    · rw [if_neg halone]
      have hfits : (p.clearPending pth.pathID).Fits store publicHeader payloadFrames ↔
          p.Fits store publicHeader payloadFrames := Packer.Fits.congr rfl rfl
      refine (delivers_sealed_iff.trans (writeAndSealPacket_ne_none_iff.trans hfits)).trans ?_
      have hsome : payloadFrames ≠ [] := fun h => hempty (length_eq_zero_iff.mpr h)
      exact ⟨fun h => ⟨hsome, halone, h⟩, fun h => h.2.2⟩

theorem packPing_delivers_iff :
    Delivers (p.packPing store publicHeader encLevel random pth).result ↔
      p.stopWaiting pth.pathID = none := by
  unfold Packer.packPing
  refine sealPayload_delivers_iff.trans ?_
  constructor
  · rintro ⟨-, halone, -⟩
    by_contra hsome
    exact halone ⟨rfl, hsome⟩
  · intro hnone
    refine ⟨cons_ne_nil _ _, fun halone => halone.2 hnone, ?_⟩
    have hsmall : (p.writeAndSealPacket store publicHeader [Frame.control .ping] random pth).2 ≠
        .ok none := writeAndSealPacket_small rfl (by simp)
    exact (Packer.Fits.congr rfl rfl).mpr (writeAndSealPacket_ne_none_iff.mp hsmall)

theorem packComposed_delivers_iff {composed : Composed}
    (hworth : ∀ payloadFrames, composed.result = .ok payloadFrames → payloadFrames ≠ [] ∧
      ¬(payloadFrames.length = 1 ∧ composed.packer.stopWaiting pth.pathID ≠ none)) :
    Delivers (Packer.packComposed composed publicHeader encLevel random pth).result ↔
      ∀ payloadFrames, composed.result = .ok payloadFrames →
        composed.packer.Fits composed.store publicHeader payloadFrames := by
  unfold Packer.packComposed
  cases hr : composed.result with
  | error err =>
    refine iff_of_true (delivers_error _) ?_
    intro payloadFrames h
    cases h
  | ok payloadFrames =>
    obtain ⟨hsome, halone⟩ := hworth payloadFrames hr
    refine sealPayload_delivers_iff.trans ?_
    constructor
    · rintro ⟨-, -, hfits⟩ other hother
      cases hother
      exact hfits
    · intro hfits
      exact ⟨hsome, halone, hfits payloadFrames rfl⟩

end Routines

section Composed

variable {crypto : CryptoSetup} {p : Packer} {pth : Path}

theorem totalMinLength_stopWaiting {swf : StopWaitingFrame} {length : Nat}
    (h : Packer.totalMinLength [.stopWaiting swf] = .ok length) :
    length = 1 + swf.packetNumberLen := by
  simp only [Packer.totalMinLength, ControlFrame.minLength] at h
  by_cases hzero : swf.packetNumberLen = 0
  · simp [hzero] at h
  · rw [if_neg hzero] at h
    cases h
    rfl

variable {payloadLength : Nat} {f : WindowUpdateFrame}

theorem pending_small (hack : p.ackFrame pth.pathID = none)
    (htotal : Packer.totalMinLength ((p.numberStopWaiting pth.pathID
      (p.getPublicHeader crypto crypto.level pth)).pending pth.pathID) = .ok payloadLength) :
    payloadLength ≤ 7 := by
  have hnumber : (p.getPublicHeader crypto crypto.level pth).packetNumberLen ≤ 6 := by
    show getPacketNumberLengthForPublicHeader pth.packetNumberGenerator.peek pth.leastUnacked ≤ 6
    rcases getPacketNumberLengthForPublicHeader_cases pth.packetNumberGenerator.peek
      pth.leastUnacked with h | h | h <;> rw [h] <;> decide
  generalize p.getPublicHeader crypto crypto.level pth = publicHeader at hnumber htotal
  unfold Packer.numberStopWaiting at htotal
  cases hswf : p.stopWaiting pth.pathID with
  | none =>
    simp only [hswf, Packer.pending, hack, map_none, toList_none,
      append_nil] at htotal
    cases htotal
    exact Nat.zero_le 7
  | some swf =>
    simp only [hswf, Packer.pending, hack, Function.update_self, map_some,
      map_none, toList_some, toList_none, append_nil] at htotal
    rw [totalMinLength_stopWaiting htotal]
    exact Nat.add_le_add_left hnumber 1

theorem takeControlFrames_windowUpdate {maxFrameSize : Nat} {frames : List ControlFrame}
    (hlast : frames.getLast? = some (.windowUpdate f)) (hroom : payloadLength + 13 ≤ maxFrameSize) :
    (takeControlFrames maxFrameSize frames.reverse payloadLength).taken ≠ [] := by
  obtain ⟨front, rfl⟩ := List.getLast?_eq_some_iff.mp hlast
  rw [reverse_append, reverse_singleton, singleton_append, takeControlFrames]
  simp only [ControlFrame.minLength]
  rw [if_neg (by omega)]
  exact cons_ne_nil _ _

theorem composed_worth {streams : Streams} {store : Store} {publicHeaderLength : Nat}
    (hlast : p.controlFrames.getLast? = some (.windowUpdate f))
    (hack : p.ackFrame pth.pathID = none)
    (hl : (p.getPublicHeader crypto crypto.level pth).getLength p.perspective =
      .ok publicHeaderLength)
    {payloadFrames : List (Frame Nat)}
    (h : (p.composeFirst crypto streams store pth publicHeaderLength).result = .ok payloadFrames) :
    payloadFrames ≠ [] ∧ ¬(payloadFrames.length = 1 ∧
      (p.composeFirst crypto streams store pth publicHeaderLength).packer.stopWaiting pth.pathID ≠
        none) := by
  unfold Packer.composeFirst Packer.composeNextPacket at h ⊢
  obtain ⟨payloadLength, control, refs, htotal, rfl, -, rfl, -, -⟩ := composeWith_frames h
  obtain ⟨c⟩ := composeWith_ok _ _ _ _ _ _ h
  rw [← numberStopWaiting_controlFrames p pth.pathID
    (p.getPublicHeader crypto crypto.level pth)] at hlast
  have hroom : payloadLength + 13 ≤ Packer.maxSize publicHeaderLength := by
    have hpending := pending_small hack htotal
    have hheader := getPublicHeader_length_le hl
    unfold Packer.maxSize maxPacketSize overhead
    omega
  have htaken := length_pos_iff.mpr (takeControlFrames_windowUpdate hlast hroom)
  refine ⟨?_, ?_⟩
  · intro hnil
    have hzero := congrArg List.length hnil
    simp only [length_append, length_map, length_nil] at hzero
    omega
  · rintro ⟨hone, hswf⟩
    have hpending := length_pos_iff.mpr (pending_ne_nil (c.stopWaiting ▸ hswf))
    simp only [length_append, length_map] at hone
    omega

end Composed

section Calls

variable {crypto : CryptoSetup} {streams : Streams} {random : Option Nat} {p : Packer}
  {store : Store} {pth : Path}

theorem packPacket_delivers_iff {f : WindowUpdateFrame}
    (hlast : p.controlFrames.getLast? = some (.windowUpdate f))
    (hack : p.ackFrame pth.pathID = none) :
    Delivers (p.packPacket crypto streams random store pth).result ↔
      p.Sendable crypto streams store pth := by
  unfold Packer.packPacket Packer.packWith Packer.Sendable
  cases hcrypto : streams.hasCryptoStreamFrame with
  | true =>
    rw [if_pos rfl]
    exact iff_of_true packCryptoPacket_delivers fun h => Bool.noConfusion h
  | false =>
    rw [if_neg Bool.false_ne_true]
    simp only [forall_const]
    obtain ⟨publicHeaderLength, hl⟩ := getPublicHeader_getLength p crypto crypto.level pth
    simp only [hl, numberStopWaiting_controlFrames]
    by_cases hping : Packer.isPing p.controlFrames = true
    · rw [if_pos hping, if_pos hping]
      exact packPing_delivers_iff.trans (numberStopWaiting_stopWaiting _ _ _)
    · rw [if_neg hping, if_neg hping, numberStopWaiting_canSendData]
      unfold Packer.FirstFits
      rw [firstComposes_iff hl fun _ hfits => hfits]
      obtain ⟨hversion, hperspective⟩ := composeFirst_writes p crypto streams store pth
        publicHeaderLength
      refine (packComposed_delivers_iff fun payloadFrames h =>
        composed_worth hlast hack hl h).trans ?_
      exact forall₂_congr fun payloadFrames h => Packer.Fits.congr hversion hperspective

end Calls

end MpQuic.Packing

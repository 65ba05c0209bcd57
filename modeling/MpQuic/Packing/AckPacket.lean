import MpQuic.AckHandler.ReceivedAcks
import MpQuic.Packing.Header

namespace MpQuic.Packing

open MpQuic.Library MpQuic.Protocol MpQuic.Wire MpQuic.AckHandler

section Lengths

variable {version : Int} {bytes : List UInt8}

theorem numWritableNackRanges_le (f : AckBlocks) : f.numWritableNackRanges ≤ 0xFF := by
  unfold AckBlocks.numWritableNackRanges
  split
  · exact Nat.zero_le _
  · rename_i ackRange rest _
    exact countWritable_lt (by omega) ackRange rest

theorem deltaLen_le {f : AckBlocks} (hconsistent : f.Consistent)
    (hlargest : f.largestAcked < 2 ^ 32) : f.getMissingSequenceNumberDeltaLen ≤ 4 := by
  have hrange := hconsistent.maxRangeLength_le
  unfold AckBlocks.getMissingSequenceNumberDeltaLen
  split_ifs <;> omega

theorem length_ack_le {f : AckFrame} (hconsistent : f.Consistent)
    (hlargest : f.largestAcked < 2 ^ 32) (hwrite : f.write version = .ok bytes) :
    bytes.length ≤ 1284 := by
  have hblocks : f.blocksLength ≤ 4 + 5 * 0xFF := by
    have hdelta := deltaLen_le hconsistent hlargest
    have hcount := numWritableNackRanges_le f.toAckBlocks
    have hnumber : getPacketNumberLength f.largestAcked ≤ 4 := by
      unfold getPacketNumberLength
      split_ifs <;> omega
    unfold AckBlocks.blocksLength
    dsimp only
    split
    · have hproduct := Nat.mul_le_mul (Nat.add_le_add_left hdelta 1) hcount
      omega
    · omega
  have hpath : (if f.pathID ≠ 0 then 1 else 0) ≤ 1 := by
    split <;> omega
  rw [AckFrame.length_write hwrite]
  omega

theorem length_forwardSecure_header_le {p : Packer} {crypto : CryptoSetup} {pth : Path}
    (hwrite : (p.getPublicHeader crypto .forwardSecure pth).write p.version p.perspective =
      .ok bytes) : bytes.length ≤ 20 := by
  obtain ⟨length, hlength⟩ := getPublicHeader_getLength p crypto .forwardSecure pth
  have hnonce : (p.getPublicHeader crypto .forwardSecure pth).diversificationNonce = [] := by
    simp [Packer.getPublicHeader]
  have hle := PublicHeader.getLength_le hlength
  rw [hnonce, List.length_nil] at hle
  rw [PublicHeader.length_write hwrite hlength]
  exact hle

end Lengths

-- An ACK frame that the receiver generates for packet numbers of 32 bits fits in a packet along
-- with a STOP_WAITING frame.
theorem ack_with_stop_waiting_fits (version : Int) (events : List ReceiveEvent)
    (h next : ReceivedPacketHandler) (log : List GeneratedAck) (f : GeneratedAck)
    (he : ∀ event ∈ events, event.Valid) (hnumbers : ∀ number ∈ receivedNumbers events, number < 2 ^ 32)
    (hrun : run receiveStep (newReceivedPacketHandler version) events = some (h, log))
    (now delayTime : Int) (hgot : h.getAckFrame now = some (next, some f)) (p : Packer)
    (crypto : CryptoSetup) (pth : Path) (swf : StopWaitingFrame) (header stop ack : List UInt8)
    (hheader : (p.getPublicHeader crypto .forwardSecure pth).write p.version p.perspective = .ok header)
    (hstop : swf.write p.version = .ok stop)
    (hack : AckFrame.write p.version ⟨f.toAckBlocks, pth.pathID, delayTime⟩ = .ok ack) :
    header.length + stop.length + ack.length + overhead ≤ maxPacketSize := by
  have hr := receiving_run he hrun
  obtain ⟨after, generated, hagain, -, hspec⟩ := hr.getAckFrame now
  rw [hgot] at hagain
  obtain ⟨-, rfl⟩ := Prod.mk.inj (Option.some.inj hagain)
  obtain ⟨hreports, hlargest, hpos⟩ := hspec f rfl
  have hbound : f.largestAcked < 2 ^ 32 := by
    rw [hlargest]
    exact hnumbers _ (hr.received.resolve_right (Nat.ne_of_gt hpos))
  have hconsistent : f.Consistent := hr.separated.consistent hreports
  have hackLength := length_ack_le hconsistent hbound hack
  have hstopLength := length_write_stopWaiting_le hstop
  have hheaderLength := length_forwardSecure_header_le hheader
  unfold overhead maxPacketSize
  omega

theorem ack_with_stop_waiting_fits_example :
    ∃ h next log f header stop ack,
      run receiveStep (newReceivedPacketHandler 512) [.packet 3 true [] 0, .packet 1 true [] 1] =
          some (h, log) ∧
        h.getAckFrame 2 = some (next, some f) ∧
        ((freshPacker .client false).getPublicHeader startedSetup .forwardSecure freshPath).write
          (freshPacker .client false).version (freshPacker .client false).perspective = .ok header ∧
        StopWaitingFrame.write (freshPacker .client false).version ⟨2, 2, 3⟩ = .ok stop ∧
        AckFrame.write (freshPacker .client false).version ⟨f.toAckBlocks, freshPath.pathID, 0⟩ =
          .ok ack ∧
        header.length + stop.length + ack.length + overhead ≤ maxPacketSize := by
  refine ⟨_, _, _, _, _, _, _, rfl, rfl, rfl, rfl, rfl, ?_⟩
  exact ack_with_stop_waiting_fits 512 [.packet 3 true [] 0, .packet 1 true [] 1] _ _ _ _
    (by simp [ReceiveEvent.Valid])
    (by simp [receivedNumbers, ReceiveEvent.numbers]) rfl 2 0 rfl (freshPacker .client false)
    startedSetup freshPath ⟨2, 2, 3⟩ _ _ _ rfl rfl rfl

end MpQuic.Packing

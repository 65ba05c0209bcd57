import MpQuic.Packing.Delivery
import MpQuic.Packing.Kept

namespace MpQuic.Packing

open MpQuic.Library MpQuic.Protocol MpQuic.Wire List

section Lists

variable {ref : Nat}

theorem mem_streamFrames_map_stream {refs : List Nat} :
    ref ∈ Packer.streamFrames (refs.map Frame.stream) ↔ ref ∈ refs := by
  rw [mem_streamFrames, mem_map]
  constructor
  · rintro ⟨other, hother, heq⟩
    cases heq
    exact hother
  · intro href
    exact ⟨ref, href, rfl⟩

end Lists

section Sealing

variable {p : Packer} {store : Store} {publicHeader : PublicHeader}
  {payloadFrames : List (Frame Nat)} {encLevel : EncryptionLevel} {random : Option Nat} {pth : Path}

theorem sealPayload_frame :
    (p.sealPayload store publicHeader payloadFrames encLevel random pth).packer.firstpayloadFrames =
        p.firstpayloadFrames ∧
      (p.sealPayload store publicHeader payloadFrames encLevel random pth).store = store := by
  unfold Packer.sealPayload
  split
  · exact ⟨rfl, rfl⟩
  split <;> exact ⟨rfl, rfl⟩

variable {composed : Composed} {packet : PackedPacket}

theorem packComposed_frame :
    (Packer.packComposed composed publicHeader encLevel random pth).packer.firstpayloadFrames =
        composed.packer.firstpayloadFrames ∧
      (Packer.packComposed composed publicHeader encLevel random pth).store = composed.store := by
  unfold Packer.packComposed
  split
  · exact ⟨rfl, rfl⟩
  · exact sealPayload_frame

theorem packPing_frame :
    (p.packPing store publicHeader encLevel random pth).packer.firstpayloadFrames =
      p.firstpayloadFrames :=
  sealPayload_frame.1

theorem sealPayload_frames
    (h : (p.sealPayload store publicHeader payloadFrames encLevel random pth).result =
      .ok (some packet)) : packet.frames = payloadFrames := by
  rcases sealPayload_ok h with ⟨-, -, hnone⟩ | ⟨-, -, hnone⟩ | ⟨-, -, raw, hsome, -⟩
  · cases hnone
  · cases hnone
  · cases hsome
    rfl

theorem packComposed_frames
    (h : (Packer.packComposed composed publicHeader encLevel random pth).result =
      .ok (some packet)) : composed.result = .ok packet.frames := by
  unfold Packer.packComposed at h
  split at h
  · cases h
  next payloadFrames hresult =>
    rw [sealPayload_frames h]
    exact hresult

theorem dropUnsealed_some {packed : Packed}
    (h : (Packer.dropUnsealed packed).result = .ok (some packet)) :
    packed.result = .ok (some packet) := by
  obtain ⟨whole, hresult, hfilter⟩ := dropUnsealed_ok h
  rw [hresult]
  cases whole with
  | none => cases hfilter
  | some other =>
    obtain ⟨hsame, -⟩ := Option.filter_eq_some_iff.mp hfilter.symm
    rw [hsame]

end Sealing

section Branches

variable {crypto : CryptoSetup} {streams : Streams} {isfirst : Bool} {random : Option Nat}
  {p : Packer} {store : Store} {pth : Path} {publicHeaderLength : Nat}

theorem packPacketRedundancy_ping_frame (hcrypto : streams.hasCryptoStreamFrame = false)
    (hping : Packer.isPing p.controlFrames = true) :
    (p.packPacketRedundancy crypto streams isfirst random store pth).packer.firstpayloadFrames =
      p.firstpayloadFrames := by
  rw [packPacketRedundancy_ping hcrypto hping]
  exact packPing_frame.trans (numberStopWaiting_firstpayloadFrames _ _ _)

theorem packCryptoPacket_frames {packet : PackedPacket}
    (h : (p.packCryptoPacket crypto streams random store pth).result = .ok (some packet)) :
    packet.frames = [.stream store.next] ∧
      ((p.packCryptoPacket crypto streams random store pth).store.get store.next).streamID = 1 := by
  obtain ⟨length, hlength⟩ := getPublicHeader_getLength p crypto crypto.cryptoStreamLevel pth
  unfold Packer.packCryptoPacket at h ⊢
  dsimp only at h ⊢
  rw [hlength] at h ⊢
  dsimp only at h ⊢
  refine ⟨?_, ?_⟩
  · generalize (p.writeAndSealPacket _ _ _ _ _).2 = sealed at h
    cases sealed with
    | error err => cases h
    | ok raw =>
      cases h
      rfl
  · rw [Heap.get_alloc_next]
    rfl

theorem packPacketRedundancy_repeats :
    (p.packPacketRedundancy crypto streams false random store pth).packer.firstpayloadFrames =
        p.firstpayloadFrames ∧
      ∀ packet, (p.packPacketRedundancy crypto streams false random store pth).result =
          .ok (some packet) →
        ∀ ref ∈ Packer.streamFrames packet.frames,
          ((p.packPacketRedundancy crypto streams false random store pth).store.get ref).streamID ≠
              1 → ref ∈ p.firstpayloadFrames := by
  cases hcrypto : streams.hasCryptoStreamFrame with
  | true =>
    rw [packPacketRedundancy_crypto hcrypto]
    refine ⟨congrArg Packer.firstpayloadFrames packCryptoPacket_packer, ?_⟩
    intro packet hpacket ref href hdata
    obtain ⟨hframes, hstream⟩ := packCryptoPacket_frames hpacket
    rw [hframes] at href
    obtain rfl : ref = store.next := by simpa [Packer.streamFrames] using href
    exact absurd hstream hdata
  | false =>
    cases hping : Packer.isPing p.controlFrames with
    | true =>
      refine ⟨packPacketRedundancy_ping_frame hcrypto hping, ?_⟩
      rw [packPacketRedundancy_ping hcrypto hping]
      intro packet hpacket ref href
      rw [sealPayload_frames (dropUnsealed_some hpacket)] at href
      cases href
    | false =>
      obtain ⟨length, hlength⟩ := getPublicHeader_getLength p crypto crypto.level pth
      rw [packPacketRedundancy_composed hcrypto hping hlength]
      refine ⟨packComposed_frame.1.trans (numberStopWaiting_firstpayloadFrames _ _ _), ?_⟩
      intro packet hpacket ref href _
      have hframes := packComposed_frames (dropUnsealed_some hpacket)
      have hframes : packet.frames = p.firstpayloadFrames.map Frame.stream := by
        rw [← numberStopWaiting_firstpayloadFrames p pth.pathID
          (p.getPublicHeader crypto crypto.level pth)]
        exact (Except.ok.inj hframes).symm
      rw [hframes] at href
      exact mem_streamFrames_map_stream.mp href

end Branches

-- The first path of a round composes a packet that is not too large. Otherwise nothing is
-- remembered from before.
def Packer.Refreshes (p : Packer) (crypto : CryptoSetup) (streams : Streams) (store : Store)
    (pth : Path) : Prop :=
  if streams.hasCryptoStreamFrame || Packer.isPing p.controlFrames then p.firstpayloadFrames = []
  else p.FirstFits crypto streams store pth

section First

variable {crypto : CryptoSetup} {streams : Streams} {random : Option Nat} {p : Packer}
  {store : Store} {pth : Path}

variable {composed : Composed} {payloadFrames : List (Frame Nat)}

theorem ComposedFrom.streamFrames_alone {pathID : Nat}
    (c : ComposedFrom p pathID composed payloadFrames)
    (halone : payloadFrames.length = 1 ∧ p.stopWaiting pathID ≠ none) :
    Packer.streamFrames payloadFrames = [] := by
  have hlen := congrArg List.length c.payload
  simp only [length_append, length_map] at hlen
  have hpos := length_pos_iff.mpr (pending_ne_nil halone.2)
  have hrefs : c.refs = [] := eq_nil_of_length_eq_zero (by omega)
  rw [eq_nil_iff_forall_not_mem]
  intro ref href
  rw [mem_streamFrames, c.payload, hrefs, map_nil, append_nil, mem_map] at href
  obtain ⟨frame, -, heq⟩ := href
  cases heq

theorem composeRedundancy_firstpayloadFrames {maxFrameSize pathID : Nat}
    {canSendStreamFrames : Bool}
    (h : (p.composeRedundancy streams true store maxFrameSize canSendStreamFrames pathID).result =
      .ok payloadFrames) :
    (p.composeRedundancy streams true store maxFrameSize canSendStreamFrames
      pathID).packer.firstpayloadFrames = Packer.streamFrames payloadFrames := by
  have h : (p.composeNextPacket streams store maxFrameSize canSendStreamFrames pathID).result =
    .ok payloadFrames := h
  unfold Packer.composeRedundancy
  rw [if_pos rfl]
  dsimp only
  rw [h]

theorem packComposed_streams {q : Packer} {publicHeader : PublicHeader}
    {encLevel : EncryptionLevel}
    (hc : ∀ payloadFrames, composed.result = .ok payloadFrames →
      Nonempty (ComposedFrom q pth.pathID composed payloadFrames))
    (hfits : ∀ payloadFrames, composed.result = .ok payloadFrames →
      composed.packer.Fits composed.store publicHeader payloadFrames) :
    (∃ err, (Packer.dropUnsealed (Packer.packComposed composed publicHeader encLevel random
        pth)).result = .error err) ∨
      ∃ payloadFrames, composed.result = .ok payloadFrames ∧
        ∀ ref ∈ Packer.streamFrames payloadFrames,
          ∃ packet, (Packer.dropUnsealed (Packer.packComposed composed publicHeader encLevel random
            pth)).result = .ok (some packet) ∧ packet.frames = payloadFrames := by
  unfold Packer.dropUnsealed Packer.packComposed
  cases hresult : composed.result with
  | error err => exact Or.inl ⟨err, rfl⟩
  | ok payloadFrames =>
    dsimp only
    cases hsealed : (composed.packer.sealPayload composed.store publicHeader payloadFrames
        encLevel random pth).result with
    | error err => exact Or.inl ⟨err, rfl⟩
    | ok packet =>
      refine Or.inr ⟨payloadFrames, rfl, ?_⟩
      intro ref href
      obtain ⟨c⟩ := hc payloadFrames hresult
      rcases sealPayload_ok hsealed with ⟨hnil, -⟩ | ⟨halone, -⟩ | ⟨-, -, raw, rfl, hraw⟩
      · rw [hnil] at href
        cases href
      · rw [c.stopWaiting] at halone
        rw [c.streamFrames_alone halone] at href
        cases href
      · cases raw with
        | none =>
          have hfits : (composed.packer.clearPending pth.pathID).Fits composed.store
              publicHeader payloadFrames := hfits payloadFrames hresult
          exact absurd hraw (writeAndSealPacket_ne_none_iff.mpr hfits)
        | some raw => exact ⟨_, rfl, rfl⟩

theorem packPacketRedundancy_first (hfresh : p.Refreshes crypto streams store pth) :
    (∃ err, (p.packPacketRedundancy crypto streams true random store pth).result = .error err) ∨
      ∀ ref ∈ (p.packPacketRedundancy crypto streams true random store
          pth).packer.firstpayloadFrames,
        ∃ packet, (p.packPacketRedundancy crypto streams true random store pth).result =
          .ok (some packet) ∧ ref ∈ Packer.streamFrames packet.frames := by
  unfold Packer.Refreshes at hfresh
  cases hcrypto : streams.hasCryptoStreamFrame with
  | true =>
    rw [if_pos (by simp [hcrypto])] at hfresh
    rw [packPacketRedundancy_crypto hcrypto, packCryptoPacket_packer, hfresh]
    exact Or.inr nofun
  | false =>
    cases hping : Packer.isPing p.controlFrames with
    | true =>
      rw [if_pos (by simp [hping])] at hfresh
      rw [packPacketRedundancy_ping_frame hcrypto hping, hfresh]
      exact Or.inr nofun
    | false =>
      rw [if_neg (by simp [hcrypto, hping])] at hfresh
      obtain ⟨length, hlength⟩ := getPublicHeader_getLength p crypto crypto.level pth
      obtain ⟨hversion, hperspective⟩ := composeFirst_writes p crypto streams store pth length
      rw [packPacketRedundancy_composed hcrypto hping hlength]
      rcases packComposed_streams (fun _ hr => composeRedundancy_first hr)
        (fun payloadFrames hr => (Packer.Fits.congr hversion hperspective).mpr
          ((firstComposes_iff hlength fun _ hfits => hfits).mp hfresh payloadFrames hr))
        with herr | ⟨payloadFrames, hresult, hsent⟩
      · exact Or.inl herr
      · right
        intro ref href
        have hremembered : ref ∈ Packer.streamFrames payloadFrames := by
          rw [← composeRedundancy_firstpayloadFrames hresult]
          exact packComposed_frame.1 ▸ href
        obtain ⟨packet, hpacket, rfl⟩ := hsent ref hremembered
        exact ⟨packet, hpacket, hremembered⟩

end First

end MpQuic.Packing

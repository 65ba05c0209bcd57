import MpQuic.Wire.Length
import MpQuic.Packing.Control

namespace MpQuic.Packing

open MpQuic.Library MpQuic.Protocol MpQuic.Wire List StreamFrame

def Packer.Fits (p : Packer) (store : Store) (publicHeader : PublicHeader)
    (frames : List (Frame Nat)) : Prop :=
  ∀ header payload, publicHeader.write p.version p.perspective = .ok header →
    writeFrames p.version store frames = .ok payload →
    header.length + payload.length + overhead ≤ maxPacketSize

section Sealing

variable {p : Packer} {store : Store} {publicHeader : PublicHeader} {frames : List (Frame Nat)}
  {random : Option Nat} {pth : Path}

theorem writeAndSealPacket_ne_none_iff :
    (p.writeAndSealPacket store publicHeader frames random pth).2 ≠ .ok none ↔
      p.Fits store publicHeader frames := by
  unfold Packer.writeAndSealPacket Packer.Fits
  cases hh : publicHeader.write p.version p.perspective with
  | error err => simp
  | ok header =>
    cases hp : writeFrames p.version store frames with
    | error err => simp
    | ok payload =>
      dsimp only
      by_cases hlarge : header.length + payload.length + overhead > maxPacketSize
      · rw [if_pos hlarge]
        refine iff_of_false (fun hne => hne rfl) fun hfits => ?_
        have hsmall := hfits header payload rfl rfl
        omega
      · rw [if_neg hlarge]
        refine iff_of_true ?_ ?_
        · split <;> simp
        · intro _ _ hheader hpayload
          cases hheader
          cases hpayload
          omega

theorem Packer.Fits.congr {q : Packer} (hversion : q.version = p.version)
    (hperspective : q.perspective = p.perspective) :
    q.Fits store publicHeader frames ↔ p.Fits store publicHeader frames := by
  unfold Packer.Fits
  rw [hversion, hperspective]

instance : Decidable (p.Fits store publicHeader frames) :=
  decidable_of_iff ((p.writeAndSealPacket store publicHeader frames none ⟨0, ⟨0, 0, 0⟩, 0⟩).2 ≠
    .ok none) writeAndSealPacket_ne_none_iff

end Sealing

theorem getPacketNumberLengthForPublicHeader_cases (packetNumber leastUnacked : Nat) :
    getPacketNumberLengthForPublicHeader packetNumber leastUnacked = 2 ∨
      getPacketNumberLengthForPublicHeader packetNumber leastUnacked = 4 ∨
      getPacketNumberLengthForPublicHeader packetNumber leastUnacked = 6 := by
  unfold getPacketNumberLengthForPublicHeader
  split_ifs <;> simp

theorem getPublicHeader_getLength (p : Packer) (crypto : CryptoSetup) (encLevel : EncryptionLevel)
    (pth : Path) :
    ∃ length, (p.getPublicHeader crypto encLevel pth).getLength p.perspective = .ok length := by
  have hnumber : PublicHeader.validLength (p.getPublicHeader crypto encLevel pth).packetNumberLen =
      true := by
    show PublicHeader.validLength (getPacketNumberLengthForPublicHeader _ _) = true
    rcases getPacketNumberLengthForPublicHeader_cases pth.packetNumberGenerator.peek
      pth.leastUnacked with h | h | h <;> rw [h] <;> rfl
  have hreset : (p.getPublicHeader crypto encLevel pth).resetFlag = false := rfl
  have hversion : ((p.getPublicHeader crypto encLevel pth).versionFlag &&
      decide (p.perspective = .server)) = false := by
    unfold Packer.getPublicHeader
    cases p.perspective <;> simp
  unfold PublicHeader.getLength
  rw [hreset, hversion, hnumber, Bool.and_false, Bool.not_true, Bool.and_false]
  exact ⟨_, rfl⟩

variable {p : Packer} {crypto : CryptoSetup} {encLevel : EncryptionLevel} {pth : Path}
  {length : Nat}

theorem getPublicHeader_length_le
    (hl : (p.getPublicHeader crypto encLevel pth).getLength p.perspective = .ok length) :
    length ≤ 52 := by
  have hle := PublicHeader.getLength_le hl
  have hnonce : (p.getPublicHeader crypto encLevel pth).diversificationNonce.length ≤ 32 := by
    unfold Packer.getPublicHeader
    dsimp only
    split
    · exact crypto.nonce_le
    · exact Nat.zero_le 32
  omega

section Frames

variable {version : Int} {store : Store}

variable {bytes : List UInt8}

theorem writeFrames_append {first second : List (Frame Nat)}
    (h : writeFrames version store (first ++ second) = .ok bytes) :
    ∃ front back, writeFrames version store first = .ok front ∧
      writeFrames version store second = .ok back ∧ bytes = front ++ back := by
  induction first generalizing bytes with
  | nil => exact ⟨[], bytes, rfl, h, rfl⟩
  | cons frame rest ih =>
    rw [cons_append, writeFrames] at h
    split at h
    · cases h
    next head hhead =>
      split at h
      · cases h
      next later hlater =>
        cases h
        obtain ⟨front, back, hfront, hback, rfl⟩ := ih hlater
        refine ⟨head ++ front, back, ?_, hback, (append_assoc _ _ _).symm⟩
        simp only [writeFrames, hhead, hfront]

theorem length_write_streams {refs : List Nat}
    (h : writeFrames version store (refs.map Frame.stream) = .ok bytes) :
    bytes.length = StreamFrame.total (refs.map store.get) := by
  induction refs generalizing bytes with
  | nil =>
    cases h
    rfl
  | cons ref rest ih =>
    rw [map_cons, writeFrames] at h
    split at h
    · cases h
    next head hhead =>
      split at h
      · cases h
      next later hlater =>
        cases h
        rw [length_append, ih hlater, length_write hhead, map_cons,
          total_cons]

theorem length_write_controls {frames : List ControlFrame} {length : Nat}
    (hfew : ∀ frame ∈ frames, frame.FewPaths) (hl : Packer.totalMinLength frames = .ok length)
    (h : writeFrames version store (frames.map Frame.control) = .ok bytes) :
    bytes.length = length := by
  induction frames generalizing length bytes with
  | nil =>
    cases h
    cases hl
    rfl
  | cons frame rest ih =>
    rw [map_cons, writeFrames] at h
    rw [Packer.totalMinLength] at hl
    split at h
    · cases h
    next head hhead =>
      split at h
      · cases h
      next later hlater =>
        split at hl
        · cases hl
        next minLength hmin =>
          split at hl
          · cases hl
          next total htotal =>
            cases h
            cases hl
            have hframe := ControlFrame.length_write (hfew frame mem_cons_self) hhead hmin
            have hrest := ih (fun other hother => hfew other (mem_cons_of_mem _ hother))
              htotal hlater
            rw [length_append, hframe, hrest]

theorem totalMinLength_append {first second : List ControlFrame} {front back : Nat}
    (hfirst : Packer.totalMinLength first = .ok front)
    (hsecond : Packer.totalMinLength second = .ok back) :
    Packer.totalMinLength (first ++ second) = .ok (front + back) := by
  induction first generalizing front with
  | nil =>
    cases hfirst
    rw [nil_append, Nat.zero_add]
    exact hsecond
  | cons frame rest ih =>
    rw [Packer.totalMinLength] at hfirst
    split at hfirst
    · cases hfirst
    next minLength hmin =>
      split at hfirst
      · cases hfirst
      next total htotal =>
        cases hfirst
        simp only [cons_append, Packer.totalMinLength, hmin, ih htotal, Nat.add_assoc]

theorem takeControlFrames_total (maxFrameSize : Nat) (frames : List ControlFrame)
    (payloadLength : Nat) :
    ∃ total, Packer.totalMinLength (takeControlFrames maxFrameSize frames payloadLength).taken =
        .ok total ∧
      (takeControlFrames maxFrameSize frames payloadLength).payloadLength =
        payloadLength + total := by
  induction frames generalizing payloadLength with
  | nil => exact ⟨0, rfl, rfl⟩
  | cons frame rest ih =>
    unfold takeControlFrames
    cases hmin : frame.minLength with
    | error err => exact ⟨0, rfl, rfl⟩
    | ok minLength =>
      dsimp only
      by_cases hover : payloadLength + minLength > maxFrameSize
      · rw [if_pos hover]
        exact ⟨0, rfl, rfl⟩
      · rw [if_neg hover]
        obtain ⟨total, htotal, hlength⟩ := ih (payloadLength + minLength)
        refine ⟨minLength + total, ?_, ?_⟩
        · simp only [Packer.totalMinLength, hmin, htotal]
        · dsimp only
          rw [hlength, Nat.add_assoc]

end Frames

section Composing

variable {popNormal : Nat → Handout} {p : Packer} {store : Store} {maxFrameSize : Nat}
  {canSendStreamFrames : Bool} {pathID : Nat}

theorem composeWith_writes (popNormal : Nat → Handout) (p : Packer) (store : Store)
    (maxFrameSize : Nat) (canSendStreamFrames : Bool) (pathID : Nat) :
    (p.composeWith popNormal store maxFrameSize canSendStreamFrames pathID).packer.version =
        p.version ∧
      (p.composeWith popNormal store maxFrameSize canSendStreamFrames pathID).packer.perspective =
        p.perspective := by
  unfold Packer.composeWith
  dsimp only
  split
  · exact ⟨rfl, rfl⟩
  split
  · exact ⟨rfl, rfl⟩
  split
  · exact ⟨rfl, rfl⟩
  split <;> exact ⟨rfl, rfl⟩

end Composing

theorem numberStopWaiting_writes (p : Packer) (pathID : Nat) (publicHeader : PublicHeader) :
    (p.numberStopWaiting pathID publicHeader).version = p.version ∧
      (p.numberStopWaiting pathID publicHeader).perspective = p.perspective := by
  unfold Packer.numberStopWaiting
  cases p.stopWaiting pathID <;> exact ⟨rfl, rfl⟩

theorem cryptoFrame_fits {streams : Streams} {store : Store}
    (hl : (p.getPublicHeader crypto encLevel pth).getLength p.perspective = .ok length) :
    p.Fits (store.alloc (streams.popCryptoStreamFrame
        (maxPacketSize - overhead - nonForwardSecurePacketSizeReduction - length)))
      (p.getPublicHeader crypto encLevel pth) [Frame.stream store.next] := by
  intro header payload hheader hpayload
  have hbound := getPublicHeader_length_le hl
  have hlength := PublicHeader.length_write hheader hl
  have hbytes : payload.length = StreamFrame.total ([store.next].map _) :=
    length_write_streams hpayload
  simp only [map_cons, map_nil, total_cons, total_nil,
    Nat.add_zero, Heap.get_alloc_next] at hbytes
  have hmin := minLength_le ⟨1, false, false, streams.cryptoOffset, []⟩
  have htaken : (streams.popCryptoStreamFrame (maxPacketSize - overhead -
      nonForwardSecurePacketSizeReduction - length)).dataLen ≤ maxPacketSize - overhead -
      nonForwardSecurePacketSizeReduction - length -
      StreamFrame.minLength ⟨1, false, false, streams.cryptoOffset, []⟩ :=
    length_take_le _ _
  have hsame : (streams.popCryptoStreamFrame (maxPacketSize - overhead -
      nonForwardSecurePacketSizeReduction - length)).minLength =
      StreamFrame.minLength ⟨1, false, false, streams.cryptoOffset, []⟩ := rfl
  rw [hsame] at hbytes
  unfold maxPacketSize overhead nonForwardSecurePacketSizeReduction at *
  omega

end MpQuic.Packing

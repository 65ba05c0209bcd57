import MpQuic.Wire.PublicHeader

namespace MpQuic.Wire

open MpQuic.Library List ByteOrder

variable {h : PublicHeader} {version : Int} {pers : Perspective} {bytes : List UInt8} {length : Nat}

theorem PublicHeader.length_write (hw : h.write version pers = .ok bytes)
    (hl : h.getLength pers = .ok length) : bytes.length = length := by
  unfold write at hw
  unfold getLength at hl
  split at hl
  · cases hl
  next hreset =>
  split at hl
  · cases hl
  next hserver =>
  split at hl
  · cases hl
  next hnumber =>
  rw [if_neg hreset] at hw
  split at hw
  · cases hw
  cases hl
  cases hw
  have hversion : (if (h.versionFlag && decide (pers = .client)) = true then
      ByteOrder.littleEndian.bytes 4 (versionNumberToTag h.versionNumber) else []).length =
      if h.versionFlag = true then 4 else 0 := by
    cases hflag : h.versionFlag with
    | false => rfl
    | true =>
      cases pers with
      | client => simp
      | server => simp [hflag] at hserver
  simp only [length_append, hversion]
  have hid : (if h.truncateConnectionID = true then []
      else ByteOrder.littleEndian.bytes 8 h.connectionID).length =
      if h.truncateConnectionID = true then 0 else 8 := by
    split <;> simp
  have hpath : (if h.multipathFlag = true then [UInt8.ofNat h.pathID] else []).length =
      if h.multipathFlag = true then 1 else 0 := by
    split <;> simp
  have hnumber : (if h.hasPacketNumber pers = true then
      (getByteOrder version).bytes h.packetNumberLen h.packetNumber else []).length =
      if h.hasPacketNumber pers = true then h.packetNumberLen else 0 := by
    split <;> simp
  rw [hid, hpath, hnumber]
  simp only [length_cons, length_nil]
  omega

theorem PublicHeader.getLength_le
    (hl : h.getLength pers = .ok length) : length ≤ 20 + h.diversificationNonce.length := by
  unfold getLength at hl
  split at hl
  · cases hl
  split at hl
  · cases hl
  split at hl
  · cases hl
  next hlen =>
  cases hl
  have hnumber : (if h.hasPacketNumber pers = true then h.packetNumberLen else 0) ≤ 6 := by
    split
    next hset =>
      simp only [hset, validLength, Bool.true_and, Bool.not_eq_true', Bool.not_eq_false,
        Bool.or_eq_true, decide_eq_true_eq] at hlen
      omega
    · omega
  have hid : (if h.truncateConnectionID = true then 0 else 8) ≤ 8 := by
    split <;> omega
  have hversion : (if h.versionFlag = true then 4 else 0) ≤ 4 := by
    split <;> omega
  have hpath : (if h.multipathFlag = true then 1 else 0) ≤ 1 := by
    split <;> omega
  omega

theorem StreamFrame.length_write {f : StreamFrame}
    (h : f.write version = .ok bytes) : bytes.length = f.minLength + f.dataLen := by
  unfold write at h
  dsimp only at h
  split at h
  · cases h
  cases h
  have hlen : (if f.dataLenPresent = true then (getByteOrder version).bytes 2 f.data.length
      else []).length = if f.dataLenPresent = true then 2 else 0 := by
    split <;> simp
  unfold minLength dataLen
  simp only [length_append, length_cons, length_nil, length_bytes, hlen]

def StreamFrame.total (frames : List StreamFrame) : Nat :=
  (frames.map fun f => f.minLength + f.dataLen).sum

@[simp] theorem StreamFrame.total_nil : StreamFrame.total [] = 0 := rfl

@[simp] theorem StreamFrame.total_cons (f : StreamFrame) (frames : List StreamFrame) :
    StreamFrame.total (f :: frames) = f.minLength + f.dataLen + StreamFrame.total frames := rfl

@[simp] theorem StreamFrame.total_append (first second : List StreamFrame) :
    StreamFrame.total (first ++ second) = StreamFrame.total first + StreamFrame.total second := by
  unfold total
  rw [map_append, sum_append]

theorem StreamFrame.minLength_le (f : StreamFrame) : f.minLength ≤ 15 := by
  have hid : f.calculateStreamIDLength ≤ 4 := by
    unfold calculateStreamIDLength
    split_ifs <;> omega
  have hoffset : f.getOffsetLength ≤ 8 := by
    unfold getOffsetLength
    split_ifs <;> omega
  have hlen : (if f.dataLenPresent = true then 2 else 0) ≤ 2 := by
    split <;> omega
  unfold minLength
  omega

namespace AckBlocks

theorem writtenBlocks_snd (numRanges numRangesWritten : Nat) (lastAckRange : AckRange)
    (ranges : List AckRange) :
    (writtenBlocks numRanges numRangesWritten lastAckRange ranges).2 =
      numRangesWritten + (writtenBlocks numRanges numRangesWritten lastAckRange ranges).1.length := by
  induction ranges generalizing numRangesWritten lastAckRange with
  | nil => simp [writtenBlocks]
  | cons ackRange rest ih =>
    rw [writtenBlocks]
    dsimp only
    by_cases hdone : numRangesWritten +
        (rangeBlocks (lastAckRange.gap ackRange) ackRange.length).length ≥ numRanges
    · rw [if_pos hdone]
    · rw [if_neg hdone]
      dsimp only
      rw [ih, length_append, Nat.add_assoc]

variable {f : AckBlocks} {blocks : List AckBlock}

theorem length_blocks (h : f.blocks = .ok blocks) :
    (f.hasMissingRanges = true ∧ f.numWritableNackRanges = 1 + blocks.length) ∨
      (f.hasMissingRanges = false ∧ blocks = []) := by
  unfold AckBlocks.blocks at h
  split at h
  next hnil =>
    cases h
    exact Or.inr ⟨by simp [hasMissingRanges, hnil], rfl⟩
  next ackRange rest hranges =>
    split at h
    · cases h
    split at h
    · cases h
    dsimp only at h
    split at h
    · cases h
    next hcount =>
      cases h
      refine Or.inl ⟨by simp [hasMissingRanges, hranges], ?_⟩
      rw [← writtenBlocks_snd]
      exact not_not.mp hcount

theorem length_writeBlocks (order : ByteOrder) (f : AckBlocks) (blocks : List AckBlock) :
    (f.writeBlocks order blocks).length = f.getMissingSequenceNumberDeltaLen +
      blocks.length * (1 + f.getMissingSequenceNumberDeltaLen) := by
  unfold writeBlocks
  rw [length_append, length_bytes, length_flatMap]
  have hblock : ∀ block : AckBlock,
      (writeBlock order f.getMissingSequenceNumberDeltaLen block).length =
        1 + f.getMissingSequenceNumberDeltaLen := by
    intro block
    simp [writeBlock, Nat.add_comm]
  simp [hblock]

theorem length_ranges (order : ByteOrder) (h : f.blocks = .ok blocks) :
    f.numBlocksByte.length + (f.writeLargestAcked order).length +
      (f.writeBlocks order blocks).length = f.blocksLength := by
  rw [length_writeBlocks]
  unfold numBlocksByte writeLargestAcked blocksLength
  rw [length_bytes]
  dsimp only
  rcases length_blocks h with ⟨hmissing, hcount⟩ | ⟨hmissing, hnone⟩
  · rw [hmissing, hcount, if_pos rfl, if_pos rfl]
    rw [length_singleton, Nat.mul_comm blocks.length, Nat.mul_add, Nat.mul_one]
    omega
  · rw [hmissing, hnone, if_neg Bool.false_ne_true, if_neg Bool.false_ne_true]
    simp only [length_nil]
    omega

end AckBlocks

-- Fewer than 64 paths are few enough for the length of a PATHS frame.
def ControlFrame.FewPaths : ControlFrame → Prop
  | .paths f => f.numPaths < 64
  | _ => True

section Control

variable {version : Int} {bytes : List UInt8}

theorem AckFrame.length_write {f : AckFrame} (h : f.write version = .ok bytes) :
    bytes.length = 1 + 2 + 1 + f.blocksLength + if f.pathID ≠ 0 then 1 else 0 := by
  unfold AckFrame.write at h
  dsimp only at h
  split at h
  · cases h
  next blocks hblocks =>
    cases h
    have hranges := f.toAckBlocks.length_ranges (getByteOrder version) hblocks
    have hpath : (if f.pathID ≠ 0 then [UInt8.ofNat f.pathID] else []).length =
        if f.pathID ≠ 0 then 1 else 0 := by
      split <;> rfl
    simp only [length_append, hpath, length_cons, length_nil, writeUfloat16,
      length_bytes]
    omega

theorem ClosePathFrame.length_write {f : ClosePathFrame} (h : f.write version = .ok bytes) :
    bytes.length = 1 + 1 + 1 + f.blocksLength := by
  unfold ClosePathFrame.write at h
  dsimp only at h
  split at h
  · cases h
  next blocks hblocks =>
    split at h
    · cases h
    cases h
    have hranges := f.toAckBlocks.length_ranges (getByteOrder version) hblocks
    simp only [length_append, length_cons, length_nil]
    omega

theorem StopWaitingFrame.length_write {f : StopWaitingFrame} (h : f.write version = .ok bytes) :
    bytes.length = 1 + f.packetNumberLen := by
  unfold StopWaitingFrame.write at h
  split at h
  · cases h
  split at h
  · cases h
  split at h
  · cases h
    simp [Nat.add_comm]
  · cases h

theorem length_to4 {ip short : List UInt8} (h : to4 ip = some short) : short.length = 4 := by
  unfold to4 at h
  split at h
  next hshort =>
    cases h
    exact hshort
  split at h
  next hlong =>
    cases h
    rw [length_drop, hlong.1]
  · cases h

theorem length_to16 {ip long : List UInt8} (h : to16 ip = some long) : long.length = 16 := by
  unfold to16 at h
  split at h
  next hshort =>
    cases h
    rw [length_append, hshort]
    rfl
  split at h
  next hlong =>
    cases h
    exact hlong
  · cases h

theorem AddAddressFrame.length_write {f : AddAddressFrame} (h : f.write version = .ok bytes) :
    f.ipVersion = 4 ∧ bytes.length = 8 ∨ f.ipVersion = 6 ∧ bytes.length = 20 := by
  unfold AddAddressFrame.write at h
  dsimp only at h
  split at h
  next hfour =>
    split at h
    · cases h
    next ip hip =>
      cases h
      left
      simp [hfour, length_to4 hip]
  split at h
  next hsix =>
    split at h
    · cases h
    next ip hip =>
      cases h
      right
      simp [hsix, length_to16 hip]
  · cases h

theorem PathsFrame.length_write {f : PathsFrame} (h : f.write version = .ok bytes) :
    bytes.length = 3 + 3 * f.numPaths := by
  unfold PathsFrame.write at h
  dsimp only at h
  split at h
  · cases h
  next hnum =>
  split at h
  · cases h
  next hrtts =>
    cases h
    rw [length_append, length_flatMap]
    have hpath : ∀ path : Nat × Int, (UInt8.ofNat path.1 ::
        writeUfloat16 (getByteOrder version) (microseconds path.2)).length = 3 := by
      intro path
      simp [writeUfloat16]
    simp only [hpath, map_const', sum_replicate, length_zip, smul_eq_mul]
    have hpaths : f.numPaths = f.pathIDs.length := not_not.mp hnum
    have hboth : f.pathIDs.length = f.remoteRTTs.length := not_not.mp hrtts
    rw [← hboth, Nat.min_self, hpaths, Nat.mul_comm]
    rfl

-- What is left of a length in the integers that `MinLength` computes with.
def ControlFrame.narrow : ControlFrame → Nat → Nat
  | .paths _, length => length % 2 ^ 8
  | _, length => length

variable {frame : ControlFrame}

theorem ControlFrame.minLength_eq (hw : frame.write version = .ok bytes) :
    frame.minLength = .ok (frame.narrow bytes.length) := by
  cases frame with
  | ack f => exact congrArg Except.ok (AckFrame.length_write hw).symm
  | stopWaiting f =>
    have hlength := StopWaitingFrame.length_write hw
    unfold ControlFrame.write StopWaitingFrame.write at hw
    dsimp only at hw
    split_ifs at hw with _ _ hlen
    unfold ControlFrame.minLength ControlFrame.narrow
    dsimp only
    rw [if_neg (by omega), hlength]
  | rstStream f =>
    cases hw
    simp [ControlFrame.minLength, ControlFrame.narrow, RstStreamFrame.write]
  | windowUpdate f =>
    cases hw
    simp [ControlFrame.minLength, ControlFrame.narrow, WindowUpdateFrame.write]
  | blocked f =>
    cases hw
    simp [ControlFrame.minLength, ControlFrame.narrow, BlockedFrame.write]
  | ping =>
    cases hw
    rfl
  | goaway f =>
    cases hw
    simp only [ControlFrame.minLength, ControlFrame.narrow, GoawayFrame.write,
      length_append, length_cons, length_nil, length_bytes]
  | connectionClose f =>
    replace hw : f.write version = .ok bytes := hw
    unfold ConnectionCloseFrame.write at hw
    dsimp only at hw
    split at hw
    · cases hw
    cases hw
    simp only [ControlFrame.minLength, ControlFrame.narrow, length_append,
      length_cons, length_nil, length_bytes]
  | addAddress f =>
    unfold ControlFrame.minLength ControlFrame.narrow
    dsimp only
    rcases AddAddressFrame.length_write hw with ⟨hversion, hlength⟩ | ⟨hversion, hlength⟩
    · rw [if_pos hversion, hlength]
    · rw [if_neg (by omega), if_pos hversion, hlength]
  | closePath f => exact congrArg Except.ok (ClosePathFrame.length_write hw).symm
  | paths f =>
    unfold ControlFrame.minLength ControlFrame.narrow
    dsimp only
    rw [PathsFrame.length_write hw]

theorem ControlFrame.length_write {length : Nat} (hfew : frame.FewPaths)
    (hw : frame.write version = .ok bytes) (hl : frame.minLength = .ok length) :
    bytes.length = length := by
  rw [ControlFrame.minLength_eq hw] at hl
  obtain rfl : frame.narrow bytes.length = length := Except.ok.inj hl
  cases frame with
  | paths f =>
    have hfew : f.numPaths < 64 := hfew
    have hlength := PathsFrame.length_write hw
    unfold ControlFrame.narrow
    dsimp only
    omega
  | _ => rfl

end Control

-- A PATHS frame is short enough for the eight bits in which its length is computed.
def ControlFrame.PathsFit : ControlFrame → Prop
  | .paths f => f.numPaths ≤ 84
  | _ => True

-- The length of a frame is predicted exactly if and only if it is no PATHS frame with
-- more than 84 paths.
theorem frame_length_predicted_iff (version : Int) :
    (∀ (f : StreamFrame) (bytes : List UInt8), f.write version = .ok bytes →
      bytes.length = f.minLength + f.dataLen) ∧
    ∀ (frame : ControlFrame) (bytes : List UInt8), frame.write version = .ok bytes →
      (frame.minLength = .ok bytes.length ↔ frame.PathsFit) := by
  refine ⟨fun f bytes hw => StreamFrame.length_write hw, fun frame bytes hw => ?_⟩
  rw [ControlFrame.minLength_eq hw, Except.ok.injEq]
  cases frame with
  | paths f =>
    have hlength := PathsFrame.length_write hw
    unfold ControlFrame.narrow ControlFrame.PathsFit
    dsimp only
    omega
  | _ => exact ⟨fun _ => trivial, fun _ => rfl⟩

section Examples

def pathsFrame (count : Nat) : PathsFrame :=
  ⟨255, count, List.range count, List.replicate count 1000000⟩

theorem frame_length_predicted_iff_example :
    ∃ bytes, ControlFrame.write versionMP (.paths (pathsFrame 2)) = .ok bytes ∧
      (ControlFrame.minLength (.paths (pathsFrame 2)) = .ok bytes.length ↔
        ControlFrame.PathsFit (.paths (pathsFrame 2))) := by
  refine ⟨_, rfl, ?_⟩
  exact (frame_length_predicted_iff versionMP).2 (.paths (pathsFrame 2)) _ rfl

-- A frame with 85 paths takes 258 bytes, and two are predicted.
theorem paths_length_wraps :
    ∃ bytes, ControlFrame.write versionMP (.paths (pathsFrame 85)) = .ok bytes ∧
      bytes.length = 258 ∧ ControlFrame.minLength (.paths (pathsFrame 85)) = .ok 2 := by
  obtain ⟨bytes, hw⟩ : ∃ bytes, (pathsFrame 85).write versionMP = .ok bytes := by
    have hnum : ¬(pathsFrame 85).numPaths ≠ (pathsFrame 85).pathIDs.length := by
      simp [pathsFrame]
    have hrtts : ¬(pathsFrame 85).pathIDs.length ≠ (pathsFrame 85).remoteRTTs.length := by
      simp [pathsFrame]
    unfold PathsFrame.write
    dsimp only
    rw [if_neg hnum, if_neg hrtts]
    exact ⟨_, rfl⟩
  exact ⟨bytes, hw, PathsFrame.length_write hw, rfl⟩

end Examples

end MpQuic.Wire

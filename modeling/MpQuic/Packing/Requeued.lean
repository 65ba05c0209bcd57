import MpQuic.Packing.Fit

namespace MpQuic.Packing

open MpQuic.Library MpQuic.Wire List Heap

-- What a frame carries, in the order of the stream: its bytes with their places, and the place
-- of the end of the stream.
def bytesOf (frame : StreamFrame) : List (Nat × Nat × UInt8) :=
  (frame.data.zipIdx frame.offset).map fun entry => (frame.streamID, entry.2, entry.1)

def finsOf (frame : StreamFrame) : List (Nat × Nat) :=
  if frame.finBit then [(frame.streamID, frame.offset + frame.dataLen)] else []

theorem bytesOf_divisible : Divisible bytesOf where
  dataLenPresent _ _ := rfl
  split frame split left n hsplit := by
    obtain ⟨hless, rfl, rfl⟩ := maybeSplitOffFrame_eq hsplit
    have hlength : (frame.data.take n).length = n := length_take_of_le hless.le
    unfold bytesOf
    dsimp only
    rw [← map_append]
    congr 1
    conv_rhs => rw [← take_append_drop n frame.data, zipIdx_append, hlength]

theorem finsOf_divisible : Divisible finsOf where
  dataLenPresent _ _ := rfl
  split frame split left n hsplit := by
    obtain ⟨hless, rfl, rfl⟩ := maybeSplitOffFrame_eq hsplit
    have hend : frame.offset + n + (frame.data.drop n).length = frame.offset + frame.data.length := by
      unfold StreamFrame.dataLen at hless
      rw [length_drop]
      omega
    simp only [finsOf, StreamFrame.dataLen, hend, Bool.false_eq_true, if_false, nil_append]

-- The frames taken for a retransmission, followed by the queue they leave behind, carry the
-- bytes and the ends of the queue before in the same order. None of those taken is empty, and
-- their lengths add up to the length that is returned, for which there is room.
theorem retransmission_conserves_data (maxLen : Nat) (store : Store) (queue : List Nat)
    (hnodup : queue.Nodup) (hvalid : ∀ ref ∈ queue, ref < store.next)
    (hcontent : ∀ ref ∈ queue, HasContent (store.get ref)) :
    let popped := maybePopFramesForRetransmission maxLen store queue 0
    (popped.res ++ popped.queue).flatMap (fun ref => bytesOf (popped.store.get ref)) =
        queue.flatMap (fun ref => bytesOf (store.get ref)) ∧
      (popped.res ++ popped.queue).flatMap (fun ref => finsOf (popped.store.get ref)) =
        queue.flatMap (fun ref => finsOf (store.get ref)) ∧
      (∀ ref ∈ popped.res, HasContent (popped.store.get ref)) ∧
      (popped.res.map fun ref =>
        (popped.store.get ref).minLength + (popped.store.get ref).dataLen).sum = popped.currentLen ∧
      popped.currentLen ≤ maxLen := by
  have hwithin := maybePopFramesForRetransmission_within queue store 0 (Nat.zero_le maxLen) hnodup
    hvalid
  have htotal := hwithin.total
  unfold StreamFrame.total at htotal
  rw [Nat.zero_add, List.map_map] at htotal
  exact ⟨hwithin.conserves bytesOf_divisible, hwithin.conserves finsOf_divisible,
    hwithin.content hcontent, htotal, hwithin.room⟩

theorem retransmission_conserves_data_example :
    let store : Store := ⟨fun _ => ⟨5, true, false, 10, [1, 2, 3]⟩, 1⟩
    let popped := maybePopFramesForRetransmission 8 store [0] 0
    popped.res.map popped.store.get = [⟨5, false, true, 10, [1, 2]⟩] ∧
      (popped.res ++ popped.queue).flatMap (fun ref => bytesOf (popped.store.get ref)) =
        [(5, 10, 1), (5, 11, 2), (5, 12, 3)] ∧
      (popped.res ++ popped.queue).flatMap (fun ref => finsOf (popped.store.get ref)) = [(5, 13)] := by
  have hconserved := retransmission_conserves_data 8 ⟨fun _ => ⟨5, true, false, 10, [1, 2, 3]⟩, 1⟩ [0]
    (by decide) (by decide) (by decide)
  exact ⟨by decide, hconserved.1, hconserved.2.1⟩

end MpQuic.Packing

import MpQuic.Packing.Requeued
import MpQuic.Sorter.Fin
import MpQuic.Sorter.Reassembly
import MpQuic.Stms.Theorems

namespace MpQuic.Transfer

open MpQuic.Library MpQuic.Wire MpQuic.Sorter MpQuic.Packing

-- What becomes of a frame that is lost and sent again: its length field changes with its place in
-- a packet, and it is split where it does not fit.
inductive Part (sent : StreamFrame) : StreamFrame → Prop
  | whole : Part sent sent
  | length {frame : StreamFrame} (present : Bool) (h : Part sent frame) :
      Part sent { frame with dataLenPresent := present }
  | split {frame split left : StreamFrame} {n : Nat} (h : Part sent frame)
      (hsplit : maybeSplitOffFrame frame n = some (split, left)) : Part sent split
  | left {frame split left : StreamFrame} {n : Nat} (h : Part sent frame)
      (hsplit : maybeSplitOffFrame frame n = some (split, left)) : Part sent left

-- The network loses, repeats and reorders what was sent. The receiver does not run out of gaps,
-- and only a head that is there is popped.
def Arriving (sent : List StreamFrame) (s : StreamFrameSorter) : Sorter.Event → Prop
  | .push frame =>
    (∃ whole ∈ sent, Part whole frame) ∧ 0 < frame.dataLen ∧
      (s.push frame).2 ≠ some .errTooManyGapsInReceivedStreamData
  | .pop => s.head.isSome = true

def Complete (bytes : List UInt8) (arrivals : List Sorter.Event) : Prop :=
  ∀ i < bytes.length, ∃ frame, .push frame ∈ arrivals ∧ frame.offset ≤ i ∧
    i < frame.offset + frame.dataLen

-- The reader gets a front part of the bytes, and all of them by popping on once they are complete.
def Reads (bytes : List UInt8) (arrivals : List Sorter.Event) : Prop :=
  ∃ s out, run Sorter.step newStreamFrameSorter arrivals = some (s, out) ∧
    delivered out <+: bytes ∧
    (Complete bytes arrivals → ∃ k t later,
      run Sorter.step s (List.replicate k .pop) = some (t, later) ∧
        delivered (out ++ later) = bytes)

section Receiver

variable {bytes : List UInt8} {sent : List StreamFrame} {arrivals : List Sorter.Event}

theorem Part.segment {whole frame : StreamFrame} (h : Part whole frame)
    (hwhole : Segment bytes whole) : Segment bytes frame := by
  induction h with
  | whole => exact hwhole
  | length present h ih => exact ⟨⟨ih.1.bound, ih.1.data⟩, ih.2⟩
  | @split frame split left n h hsplit ih =>
    obtain ⟨hless, rfl, -⟩ := maybeSplitOffFrame_eq hsplit
    have hlen : (frame.data.take n).length = n := List.length_take_of_le hless.le
    have hbound := ih.1.bound
    refine ⟨⟨?_, ?_⟩, fun hfin => by cases hfin⟩
    · simp only [StreamFrame.dataLen, hlen] at hless hbound ⊢
      omega
    · simp only [StreamFrame.dataLen, hlen]
      rw [ih.1.data, take_stretch _ (by omega)]
  | @left frame split left n h hsplit ih =>
    obtain ⟨hless, -, rfl⟩ := maybeSplitOffFrame_eq hsplit
    have hend : frame.offset + n + (frame.data.drop n).length = frame.offset + frame.dataLen := by
      simp only [StreamFrame.dataLen, List.length_drop] at hless ⊢
      omega
    refine ⟨⟨?_, ?_⟩, ?_⟩
    · exact hend.le.trans ih.1.bound
    · show frame.data.drop n = stretch bytes (frame.offset + n)
        (frame.offset + n + (frame.data.drop n).length)
      rw [hend, ih.1.data, drop_stretch]
    · intro hfin
      exact hend.trans (ih.2 hfin)

theorem Arriving.proper (hsent : ∀ frame ∈ sent, Segment bytes frame) {s : StreamFrameSorter}
    {event : Sorter.Event} (h : Arriving sent s event) : Proper bytes s event := by
  cases event with
  | push frame =>
    obtain ⟨⟨whole, hwhole, hpart⟩, hlen, hfew⟩ := h
    obtain ⟨hpiece, hfin⟩ := hpart.segment (hsent whole hwhole)
    exact ⟨hpiece, hlen, hfin, hfew⟩
  | pop => exact h

theorem arrivals_are_read (hsize : bytes.length < 2 ^ 63)
    (hsent : ∀ frame ∈ sent, Segment bytes frame)
    (ha : Along Sorter.step (Arriving sent) newStreamFrameSorter arrivals) :
    Reads bytes arrivals := by
  have hmax : bytes.length < maxByteCount := hsize.trans (by decide)
  obtain ⟨s, out, hrun, hfaithful⟩ := run_progress (Faithful bytes)
    (fun _ _ _ _ h hproper => step_faithful hmax h hproper) [] [] _ arrivals (faithful_new bytes)
    (ha.mono fun _ _ h => h.proper hsent)
  rw [List.nil_append, List.nil_append] at hfaithful
  refine ⟨s, out, hrun, hfaithful.delivered ▸ stretch_prefix bytes _, fun hcomplete => ?_⟩
  obtain ⟨k, t, later, hpops, -, hdata, hle, hbound, hall⟩ := hfaithful.assembled.drain hmax
  have hend : t.readPosition = bytes.length := by
    refine hbound.antisymm (hall _ fun i hi => ?_)
    obtain ⟨frame, hframe, hlow, hhigh⟩ := hcomplete i hi
    exact hfaithful.received frame hframe i hlow hhigh
  refine ⟨k, t, later, hpops, ?_⟩
  have hsplit : delivered (out ++ later) = delivered out ++ delivered later := by
    simp [delivered]
  rw [hsplit, hfaithful.delivered, hdata, hend, stretch_append_stretch bytes (Nat.zero_le _)
    hfaithful.assembled.position, stretch_zero_length]

end Receiver

section Framer

open MpQuic.Framing

theorem framesOf_segment {log : List Emission} (h : Logged Placed log) {streamID : Nat}
    {frame : StreamFrame} (hframe : frame ∈ framesOf streamID log) :
    Segment (dataOf streamID log) frame := by
  refine ⟨?_, fun hfin => ?_⟩
  · obtain ⟨hin, hid⟩ := List.mem_filter.mp hframe
    obtain ⟨e, he, rfl⟩ := List.mem_map.mp hin
    obtain ⟨before, after, rfl⟩ := List.append_of_mem he
    obtain rfl : e.frame.streamID = streamID := by simpa using hid
    have hoffset := (h before e after rfl).1
    have hdata : dataOf e.frame.streamID (before ++ e :: after) =
        dataOf e.frame.streamID before ++ (e.frame.data ++ dataOf e.frame.streamID after) := by
      simp [dataOf, framesOf]
    refine ⟨?_, ?_⟩
    · rw [hdata, hoffset, List.length_append, List.length_append, StreamFrame.dataLen]
      omega
    · rw [hdata, hoffset, stretch, List.drop_left, Nat.add_sub_cancel_left, StreamFrame.dataLen,
        List.take_left]
  · obtain ⟨-, -, -, hend⟩ := fin_last h hframe hfin
    exact hend

-- Whatever the network does with the frames of a stream, and however often they are sent again
-- and split, the reader gets what the framer took from the stream, in order and up to what is
-- missing. If nothing is discarded, that is a front part of what was written.
theorem framed_bytes_reach_reader (iPriority : Bool) (params : FlowControl.ConnectionParameters)
    (events : List Framing.Event)
    (hready : Along Framing.step Ready (newFramer iPriority params) events) (f : Framer)
    (log : List Emission)
    (hrun : run Framing.step (newFramer iPriority params) events = some (f, log)) (streamID : Nat)
    (hsize : (dataOf streamID log).length < 2 ^ 63) (arrivals : List Sorter.Event)
    (ha : Along Sorter.step (Arriving (framesOf streamID log)) newStreamFrameSorter arrivals) :
    Reads (dataOf streamID log) arrivals ∧
      (iPriority = false → dataOf streamID log <+: accepted streamID events) := by
  have h := run_framed hready hrun
  refine ⟨arrivals_are_read hsize (fun _ hframe => framesOf_segment h.placed hframe) ha,
    fun hoff => ?_⟩
  cases hstream : f.streams streamID with
  | none =>
    rw [dataOf, (h.absent streamID hstream).1]
    exact List.nil_prefix
  | some stream =>
    rw [← (h.known streamID stream hstream).bytes ((run_iPriority hrun).trans hoff)]
    exact List.prefix_append _ _

-- Two frames that arrive in the wrong order, the first one in two halves.
theorem framed_bytes_reach_reader_example :
    ∃ f log, run Framing.step (newFramer false ⟨100, 100, 0, 0, 0, 0⟩)
        [.openStream 5, .write 5 [1, 2, 3, 4, 5], .pop 8 false, .pop 40 false] = some (f, log) ∧
      Reads (dataOf 5 log) [.push ⟨5, false, true, 4, [5]⟩, .push ⟨5, false, true, 1, [2, 3, 4]⟩,
        .push ⟨5, false, true, 0, [1]⟩] := by
  refine ⟨_, _, rfl, (framed_bytes_reach_reader false ⟨100, 100, 0, 0, 0, 0⟩
    [.openStream 5, .write 5 [1, 2, 3, 4, 5], .pop 8 false, .pop 40 false] (by decide) _ _ rfl 5
    (by decide) _ ?_).1⟩
  have hsplit : maybeSplitOffFrame ⟨5, false, true, 0, [1, 2, 3, 4]⟩ 1 =
    some (⟨5, false, true, 0, [1]⟩, ⟨5, false, true, 1, [2, 3, 4]⟩) := rfl
  exact ⟨⟨⟨_, by decide, .whole⟩, by decide, by decide⟩,
    ⟨⟨_, by decide, .left .whole hsplit⟩, by decide, by decide⟩,
    ⟨⟨_, by decide, .split .whole hsplit⟩, by decide, by decide⟩, trivial⟩

end Framer

section Split

open MpQuic.Stms

def framesOfPops (streamID : Nat) (pops : List Pop) : List StreamFrame :=
  pops.flatMap fun p => p.data.toList.map fun data => ⟨streamID, false, true, p.offset, data⟩

-- The same for a stream that is split over several paths: the frames of the slower paths are ahead
-- of those of the faster ones. When the buffer is empty, all that was written is on its way.
theorem split_bytes_reach_reader (events : List Stms.Event)
    (hready : Along Stms.step NoHole newStream events) (hsize : (written events).length < 2 ^ 63)
    (streamID : Nat) :
    ∃ stream pops, run Stms.step newStream events = some (stream, pops) ∧
      ∀ arrivals, Along Sorter.step (Arriving (framesOfPops streamID pops)) newStreamFrameSorter
          arrivals → Reads (written events) arrivals ∧
        (stream.dataForWriting = none →
          (∀ frame ∈ framesOfPops streamID pops, .push frame ∈ arrivals) →
            Complete (written events) arrivals) := by
  obtain ⟨stream, pops, hrun, hsent, -⟩ := run_newStream_sent events hready
  have hmem : ∀ frame, frame ∈ framesOfPops streamID pops ↔ ∃ p ∈ pops, ∃ data,
      p.data = some data ∧ frame = ⟨streamID, false, true, p.offset, data⟩ := by
    intro frame
    simp [framesOfPops, eq_comm]
  refine ⟨stream, pops, hrun, fun arrivals ha => ⟨arrivals_are_read hsize ?_ ha, ?_⟩⟩
  · intro frame hframe
    obtain ⟨p, hp, data, hdata, rfl⟩ := (hmem frame).mp hframe
    obtain ⟨hbound, hexact⟩ := hsent.intact.exact p hp data hdata
    exact ⟨⟨hbound, hexact⟩, fun hfin => by cases hfin⟩
  · intro hnil harrived i hi
    obtain ⟨hsame, hend⟩ := hsent.layout.of_nil hnil
    obtain ⟨p, hp, hlow, hhigh⟩ := (hsent.covered i hi).mpr (by simp only [Unsent]; omega)
    cases hdata : p.data with
    | none =>
      rw [hdata, Option.getD_none, List.length_nil] at hhigh
      omega
    | some data =>
      rw [hdata, Option.getD_some] at hhigh
      exact ⟨⟨streamID, false, true, p.offset, data⟩,
        harrived _ ((hmem _).mpr ⟨p, hp, data, hdata, rfl⟩), hlow, hhigh⟩

-- A slower path has sent the last bytes first.
theorem split_bytes_reach_reader_example :
    ∃ stream pops, run Stms.step newStream [.write [1, 2, 3, 4, 5], .pop 3 2, .pop (-1) 9] =
        some (stream, pops) ∧
      Reads [1, 2, 3, 4, 5] [.push ⟨7, false, true, 3, [4, 5]⟩, .push ⟨7, false, true, 0, [1, 2, 3]⟩,
        .pop] := by
  obtain ⟨stream, pops, hrun, hall⟩ := split_bytes_reach_reader
    [.write [1, 2, 3, 4, 5], .pop 3 2, .pop (-1) 9] (by decide) (by decide) 7
  refine ⟨stream, pops, hrun, (hall _ ?_).1⟩
  cases hrun
  exact ⟨⟨⟨_, by decide, .whole⟩, by decide, by decide⟩,
    ⟨⟨_, by decide, .whole⟩, by decide, by decide⟩, rfl, trivial⟩

end Split

end MpQuic.Transfer

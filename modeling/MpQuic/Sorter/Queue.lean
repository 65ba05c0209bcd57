import MpQuic.Library.Stretch
import MpQuic.Sorter.Gaps

namespace MpQuic.Sorter

open MpQuic.Library MpQuic.Wire

inductive Pushed (s : StreamFrameSorter) (frame : StreamFrame) :
    StreamFrameSorter × Option SorterError → Prop
  | onlyFin (hempty : frame.dataLen = 0) (hfin : frame.finBit = true) :
      Pushed s frame
        ({ s with queuedFrames := Function.update s.queuedFrames frame.offset (some frame) }, none)
  | empty (hempty : frame.dataLen = 0) : Pushed s frame (s, some .errEmptyStreamData)
  | again (oldFrame : StreamFrame) (hold : s.queuedFrames frame.offset = some oldFrame)
      (hlen : frame.dataLen ≤ oldFrame.dataLen) :
      Pushed s frame
        ({ s with dupframesize := s.dupframesize + frame.dataLen }, some .errDuplicateStreamData)
  | longer (oldFrame : StreamFrame) (hold : s.queuedFrames frame.offset = some oldFrame)
      (hlen : oldFrame.dataLen < frame.dataLen) :
      Pushed s frame (s.insert (cutFront frame oldFrame.dataLen))
  | fresh (hlen : 0 < frame.dataLen) (hnone : s.queuedFrames frame.offset = none) :
      Pushed s frame (s.insert frame)

theorem push_pushed (s : StreamFrameSorter) (frame : StreamFrame) :
    Pushed s frame (s.push frame) := by
  simp only [StreamFrameSorter.push]
  split_ifs with hempty hfin
  · exact .onlyFin hempty hfin
  · exact .empty hempty
  · cases hold : s.queuedFrames frame.offset with
    | none => exact .fresh (Nat.pos_of_ne_zero hempty) hold
    | some oldFrame =>
      simp only
      split_ifs with hlen
      · exact .again oldFrame hold hlen
      · exact .longer oldFrame hold (Nat.lt_of_not_le hlen)

variable {queued : Nat → Option StreamFrame} {frame : StreamFrame} {bytes : List UInt8}

theorem forall_update {rel : Nat → StreamFrame → Prop} {key : Nat}
    (hold : ∀ k f, queued k = some f → rel k f) (hnew : rel key frame) (k : Nat) (f : StreamFrame)
    (hk : Function.update queued key (some frame) k = some f) : rel k f := by
  by_cases hkey : k = key
  · subst hkey
    rw [Function.update_self] at hk
    exact Option.some.inj hk ▸ hnew
  · rw [Function.update_of_ne hkey] at hk
    exact hold k f hk

-- A byte string of the source. The length of a slice is a signed 64-bit integer.
def ByteString : Type :=
  { bytes : List UInt8 // bytes.length < 2 ^ 63 }

theorem ByteString.length_lt (bytes : ByteString) : bytes.val.length < maxByteCount :=
  Nat.lt_of_lt_of_le bytes.property (by decide)

structure Piece (bytes : List UInt8) (f : StreamFrame) : Prop where
  bound : f.offset + f.dataLen ≤ bytes.length
  data : f.data = stretch bytes f.offset (f.offset + f.dataLen)

instance (bytes : List UInt8) (f : StreamFrame) : Decidable (Piece bytes f) :=
  decidable_of_iff (f.offset + f.dataLen ≤ bytes.length ∧
    f.data = stretch bytes f.offset (f.offset + f.dataLen))
    ⟨fun h => ⟨h.1, h.2⟩, fun h => ⟨h.bound, h.data⟩⟩

-- A queued frame lies at its offset, is a piece of the stream, and none of its
-- positions is missing.
structure Stored (bytes : List UInt8) (gaps : List ByteInterval) (k : Nat) (f : StreamFrame) :
    Prop where
  offset : f.offset = k
  piece : Piece bytes f
  received : ∀ i, k ≤ i → i < k + f.dataLen → ¬Missing gaps i

theorem Stored.mono {gaps gaps' : List ByteInterval} {k : Nat}
    {f : StreamFrame} (h : Stored bytes gaps k f)
    (hmissing : ∀ i, Missing gaps' i → Missing gaps i) : Stored bytes gaps' k f :=
  ⟨h.offset, h.piece, fun i hlow hhigh hi => h.received i hlow hhigh (hmissing i hi)⟩

section Cuts

variable {bytes : List UInt8} {frame : StreamFrame} {gap : ByteInterval}

theorem cutFront_piece (h : Piece bytes frame) {count : Nat} (hcount : count ≤ frame.dataLen) :
    Piece bytes (cutFront frame count) ∧
      (cutFront frame count).offset = frame.offset + count ∧
      (cutFront frame count).offset + (cutFront frame count).dataLen =
        frame.offset + frame.dataLen := by
  have hbound := h.bound
  have hlen : (cutFront frame count).dataLen = frame.dataLen - count := List.length_drop
  have hoffset : (cutFront frame count).offset = frame.offset + count := rfl
  have hend : (cutFront frame count).offset + (cutFront frame count).dataLen =
      frame.offset + frame.dataLen := by omega
  refine ⟨⟨by omega, ?_⟩, hoffset, hend⟩
  rw [hend, hoffset, ← drop_stretch, ← h.data]
  rfl

theorem place_dataLen (endGap : ByteInterval) (hstop : gap.start < frame.offset + frame.dataLen) :
    (place frame gap endGap).dataLen =
      min (frame.offset + frame.dataLen) endGap.stop - max frame.offset gap.start := by
  simp only [place, StreamFrame.dataLen, List.length_take, List.length_drop] at hstop ⊢
  omega

theorem place_piece (endGap : ByteInterval) (h : Piece bytes frame)
    (hstop : gap.start < frame.offset + frame.dataLen) :
    Piece bytes (place frame gap endGap) := by
  have hbound := h.bound
  have hlen := place_dataLen endGap hstop
  have hoffset : (place frame gap endGap).offset = max frame.offset gap.start := rfl
  refine ⟨by omega, ?_⟩
  have hfront : max frame.offset gap.start = frame.offset + (gap.start - frame.offset) := by omega
  have hback : max frame.offset gap.start +
      (min (frame.offset + frame.dataLen) endGap.stop - max frame.offset gap.start) ≤
        frame.offset + frame.dataLen := by omega
  rw [hlen, hoffset, ← take_stretch bytes hback, hfront, ← drop_stretch, ← h.data, ← hfront]
  rfl

end Cuts

theorem Slot.stored {P : Nat → Nat → Prop} {lo hi : Nat}
    {gaps before passed after : List ByteInterval} {gap endGap : ByteInterval}
    (hle : ∀ a b, P a b → a ≤ b) (hpath : Path (Block P) lo gaps hi)
    (hslot : Slot gaps frame.offset (frame.offset + frame.dataLen) before gap passed endGap after)
    (hframe : Piece bytes frame) (hstored : ∀ k f, queued k = some f → Stored bytes gaps k f) :
    Stored bytes (filled before gap endGap after frame.offset (frame.offset + frame.dataLen))
        (place frame gap endGap).offset (place frame gap endGap) ∧
      ∀ k f, remaining queued passed k = some f →
        Stored bytes (filled before gap endGap after frame.offset (frame.offset + frame.dataLen))
          k f := by
  refine ⟨⟨rfl, place_piece endGap hframe hslot.gapStart, ?_⟩, ?_⟩
  · intro i hlow hhigh hi
    have hout := (hslot.missing hle hpath hi).2
    have hlen := place_dataLen endGap hslot.gapStart
    have hoffset : (place frame gap endGap).offset = max frame.offset gap.start := rfl
    omega
  · intro k f hk
    exact (hstored k f (remaining_some hk)).mono fun i hi => (hslot.missing hle hpath hi).1

end MpQuic.Sorter

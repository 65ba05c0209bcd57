import MpQuic.Sorter.Queue
import MpQuic.Sorter.Read

namespace MpQuic.Sorter

open MpQuic.Library MpQuic.Wire

-- Queued frames are pieces of the stream and have the FIN only at its end. Unlike
-- the chains, this also survives a frame that was one gap too many.
structure Ending (bytes : List UInt8) (s : StreamFrameSorter) : Prop where
  stored : ∀ k f, s.queuedFrames k = some f → Stored bytes s.gaps k f
  fin : ∀ k f, s.queuedFrames k = some f → f.finBit = true → k + f.dataLen = bytes.length
  gaps : Path (Block (· ≤ ·)) 0 s.gaps maxByteCount

def Segment (bytes : List UInt8) (frame : StreamFrame) : Prop :=
  Piece bytes frame ∧ (frame.finBit = true → frame.offset + frame.dataLen = bytes.length)

-- The last byte of a frame with the FIN is missing, or nothing of the frame is
-- missing and no gap ends where it starts.
def LastMissing (s : StreamFrameSorter) (frame : StreamFrame) : Prop :=
  frame.finBit = true → 0 < frame.dataLen →
    Missing s.gaps (frame.offset + frame.dataLen - 1) ∨
      (∀ i, frame.offset ≤ i → i < frame.offset + frame.dataLen → ¬Missing s.gaps i) ∧
        ∀ g ∈ s.gaps, g.stop ≠ frame.offset

instance (bytes : List UInt8) (frame : StreamFrame) : Decidable (Segment bytes frame) :=
  inferInstanceAs (Decidable (_ ∧ (_ = true → _ = _)))

instance (s : StreamFrameSorter) (frame : StreamFrame) : Decidable (LastMissing s frame) :=
  inferInstanceAs (Decidable (frame.finBit = true → 0 < frame.dataLen →
    Missing s.gaps (frame.offset + frame.dataLen - 1) ∨
      (∀ i, frame.offset ≤ i → i < frame.offset + frame.dataLen → ¬Missing s.gaps i) ∧
        ∀ g ∈ s.gaps, g.stop ≠ frame.offset))

section Push

variable {bytes : List UInt8} {s : StreamFrameSorter} {frame : StreamFrame}

theorem Ending.filled {before passed after : List ByteInterval} {gap endGap : ByteInterval}
    (h : Ending bytes s)
    (hslot : Slot s.gaps frame.offset (frame.offset + frame.dataLen) before gap passed endGap
      after) :
    Path (Block (· ≤ ·)) 0
      (Sorter.filled before gap endGap after frame.offset (frame.offset + frame.dataLen))
      maxByteCount := by
  have hpath := h.gaps
  rw [hslot.gaps] at hpath
  have haround := around (fun _ _ hab => hab) hpath hslot.first
  have hgap := haround.nonempty
  have horder := haround.order
  have hstop := hslot.gapStart
  have hlow := hslot.gapStop
  refine haround.fill (fun _ _ hab => hab) (fun _ _ _ => Nat.le_trans) (fun _ _ _ hab => hab)
    (fun _ _ _ hab => hab) (by omega) (by omega) (by omega) ?_
  intro hmin
  rcases hslot.ends with hin | ⟨-, next, rest, rfl, -⟩
  · omega
  · exact List.cons_ne_nil _ _

theorem Ending.insert (h : Ending bytes s) (hmax : bytes.length < maxByteCount)
    (hpiece : Piece bytes frame) (hlen : 0 < frame.dataLen)
    (hfin : frame.finBit = true → frame.offset + frame.dataLen = bytes.length)
    (hlast : frame.finBit = true →
      Missing s.gaps (frame.offset + frame.dataLen - 1) ∨
      (∀ i, frame.offset ≤ i → i < frame.offset + frame.dataLen → ¬Missing s.gaps i) ∧
        ∀ g ∈ s.gaps, g.stop ≠ frame.offset) :
    Ending bytes (s.insert frame).1 ∧ (s.insert frame).1.readPosition = s.readPosition := by
  have hle : ∀ a b : Nat, a ≤ b → a ≤ b := fun _ _ hab => hab
  have hbound := hpiece.bound
  have hinserted := insert_inserted hle h.gaps (by decide) (Nat.lt_of_le_of_lt hbound hmax)
  generalize s.insert frame = result at hinserted ⊢
  cases hinserted with
  | duplicate => exact ⟨h, rfl⟩
  | tooMany before gap passed endGap after hslot =>
    obtain ⟨-, hold⟩ := hslot.stored hle h.gaps hpiece h.stored
    exact ⟨⟨hold, fun k f hk => h.fin k f (remaining_some hk), h.filled hslot⟩, rfl⟩
  | placed before gap passed endGap after hslot =>
    obtain ⟨hplaced, hold⟩ := hslot.stored hle h.gaps hpiece h.stored
    have hstop := hslot.gapStart
    have hlow := hslot.gapStop
    have hsize := place_dataLen endGap hstop
    have hoffset : (place frame gap endGap).offset = max frame.offset gap.start := rfl
    have hgap := (gap_bounds hle h.gaps hslot.gap_mem).2.1
    have hend : (place frame gap endGap).finBit = true →
        (place frame gap endGap).offset + (place frame gap endGap).dataLen = bytes.length := by
      intro hbit
      have htotal := hfin hbit
      rcases hlast hbit with hmissing | ⟨hnone, hfresh⟩
      · have hinside : ¬endGap.stop ≤ frame.offset + frame.dataLen - 1 := fun hcut =>
          hslot.tail hle h.gaps hcut (by omega) (by omega) hmissing
        omega
      · -- the first gap of the frame would be one of its missing positions
        have hne := hfresh gap hslot.gap_mem
        exact absurd ⟨gap, hslot.gap_mem, by omega, by omega⟩
          (hnone (max frame.offset gap.start) (by omega) (by omega))
    exact ⟨⟨forall_update hold hplaced,
      forall_update (fun k f hk => h.fin k f (remaining_some hk)) hend, h.filled hslot⟩, rfl⟩

theorem Ending.push (h : Ending bytes s) (hmax : bytes.length < maxByteCount)
    (hsegment : Segment bytes frame) (hlast : LastMissing s frame) :
    Ending bytes (s.push frame).1 ∧ (s.push frame).1.readPosition = s.readPosition := by
  obtain ⟨hpiece, hfin⟩ := hsegment
  have hpushed := push_pushed s frame
  generalize s.push frame = result at hpushed ⊢
  cases hpushed with
  | onlyFin hempty hbit =>
    have hstored : Stored bytes s.gaps frame.offset frame :=
      ⟨rfl, hpiece, fun i hlow hhigh => by omega⟩
    exact ⟨⟨forall_update h.stored hstored, forall_update h.fin hfin, h.gaps⟩, rfl⟩
  | empty => exact ⟨h, rfl⟩
  | again => exact ⟨⟨h.stored, h.fin, h.gaps⟩, rfl⟩
  | longer oldFrame hold hlong =>
    obtain ⟨hcut, hoffset, hend⟩ := cutFront_piece hpiece (Nat.le_of_lt hlong)
    refine h.insert hmax hcut (by omega) (by rw [hend]; exact hfin) ?_
    intro hbit
    rw [hend]
    refine (hlast hbit (by omega)).imp_right fun hnone => ⟨?_, ?_⟩
    · intro i hlow hhigh
      exact hnone.1 i (by omega) hhigh
    · intro g hg hstop
      by_cases hzero : oldFrame.dataLen = 0
      · exact hnone.2 g hg (by omega)
      · -- the position in front of the cut frame has been received
        have hbounds := gap_bounds (fun _ _ hab => hab) h.gaps hg
        exact (h.stored _ _ hold).received (frame.offset + oldFrame.dataLen - 1) (by omega)
          (by omega) ⟨g, hg, by omega, by omega⟩
  | fresh hlen hnone => exact h.insert hmax hpiece hlen hfin fun hbit => hlast hbit hlen

theorem Ending.pop (h : Ending bytes s) {t : StreamFrameSorter} {popped : StreamFrame}
    (hpop : s.pop = some (t, popped)) :
    Ending bytes t ∧ s.queuedFrames s.readPosition = some popped ∧
      t.readPosition = s.readPosition + popped.dataLen := by
  obtain ⟨frame, hhead, heq⟩ := Option.map_eq_some_iff.mp hpop
  cases heq
  have hkeep : ∀ k f, Function.update s.queuedFrames popped.offset none k = some f →
      s.queuedFrames k = some f := by
    intro k f hk
    by_cases hkey : k = popped.offset
    · simp [hkey] at hk
    · rwa [Function.update_of_ne hkey] at hk
  exact ⟨⟨fun k f hk => h.stored k f (hkeep k f hk), fun k f hk => h.fin k f (hkeep k f hk),
    h.gaps⟩, hhead, rfl⟩

end Push

theorem ending_new (bytes : List UInt8) : Ending bytes newStreamFrameSorter :=
  ⟨by simp [newStreamFrameSorter], by simp [newStreamFrameSorter],
    Path.single ⟨Nat.le_refl _, by decide, rfl⟩⟩

-- Only segments are pushed, and those with the FIN while their end is missing.
def FinSafe (bytes : List UInt8) (s : StreamFrameSorter) : Event → Prop
  | .push frame => Segment bytes frame ∧ LastMissing s frame
  | .pop => True

def FinSafeRead (bytes : List UInt8) (s : Reader) : ReadEvent → Prop
  | .push frame => Segment bytes frame ∧ LastMissing s.frameQueue frame
  | .read _ => True

instance (bytes : List UInt8) (s : StreamFrameSorter) :
    (event : Event) → Decidable (FinSafe bytes s event)
  | .push _ => inferInstanceAs (Decidable (_ ∧ _))
  | .pop => isTrue trivial

instance (bytes : List UInt8) (s : Reader) :
    (event : ReadEvent) → Decidable (FinSafeRead bytes s event)
  | .push _ => inferInstanceAs (Decidable (_ ∧ _))
  | .read _ => isTrue trivial

def EndsStream (bytes : List UInt8) (before : List Output) (out : Output) : Prop :=
  ∀ frame, out = .popped frame → frame.finBit = true →
    (delivered before).length + frame.dataLen = bytes.length

structure Popping (bytes : List UInt8) (log : List Output) (s : StreamFrameSorter) : Prop where
  ending : Ending bytes s
  count : s.readPosition = (delivered log).length
  logged : Logged (EndsStream bytes) log

theorem step_popping {bytes : List UInt8} (hmax : bytes.length < maxByteCount)
    {log out : List Output} {s t : StreamFrameSorter} {event : Event} (h : Popping bytes log s)
    (hsafe : FinSafe bytes s event) (hstep : step s event = some (t, out)) :
    Popping bytes (log ++ out) t := by
  cases event with
  | push frame =>
    cases hstep
    obtain ⟨hnext, hposition⟩ := h.ending.push hmax hsafe.1 hsafe.2
    refine ⟨hnext, ?_, h.logged.snoc fun _ hout => by cases hout⟩
    rw [hposition, h.count]
    simp [delivered]
  | pop =>
    obtain ⟨⟨next, frame⟩, hpop, heq⟩ := Option.map_eq_some_iff.mp hstep
    cases heq
    obtain ⟨hnext, hhead, hposition⟩ := h.ending.pop hpop
    refine ⟨hnext, ?_, h.logged.snoc ?_⟩
    · simp only at hposition ⊢
      rw [hposition, h.count]
      simp [delivered, StreamFrame.dataLen]
    · rintro frame ⟨⟩ hfin
      rw [← h.count]
      exact h.ending.fin _ _ hhead hfin

section Reading

variable {bytes : List UInt8} {s t : Reader} {turn : Turn}

structure Copies (s t : Reader) (turn : Turn) (frame : StreamFrame) (m : Nat) : Prop where
  head : s.frameQueue.head = some frame
  offset : frame.offset ≤ s.readOffset
  inside : s.readOffset + m ≤ frame.offset + frame.dataLen
  data : turn.data = (frame.data.drop (s.readOffset - frame.offset)).take m
  readOffset : t.readOffset = s.readOffset + m
  queue : t.frameQueue = s.frameQueue ∨
    ∃ popped, s.frameQueue.pop = some (t.frameQueue, popped)
  finished : t.finishedReading = true → turn.err = some .eof
  eof : turn.err = some .eof →
    frame.finBit = true ∧ frame.offset + frame.dataLen ≤ s.readOffset + m

theorem pop_queue (s : Reader) : s.pop.frameQueue = s.frameQueue ∨
    ∃ popped, s.frameQueue.pop = some (s.pop.frameQueue, popped) := by
  simp only [Reader.pop]
  cases s.frameQueue.pop with
  | none => exact Or.inl rfl
  | some popped => exact Or.inr ⟨popped.2, rfl⟩

theorem pop_fields (s : Reader) :
    s.pop.readOffset = s.readOffset ∧ s.pop.finishedReading = s.finishedReading := by
  simp only [Reader.pop]
  cases s.frameQueue.pop <;> exact ⟨rfl, rfl⟩

theorem read_cases {room : Nat} (h : s.read room = some (t, turn)) :
    (s.finishedReading = true ∧ t = s ∧ turn.data = []) ∨
    (t = s ∧ turn.data = [] ∧ turn.err ≠ some .eof) ∨ ∃ frame m, Copies s t turn frame m := by
  simp only [Reader.read] at h
  by_cases hfinished : s.finishedReading = true
  · rw [if_pos hfinished] at h
    cases h
    exact Or.inl ⟨hfinished, rfl, rfl⟩
  · right
    rw [if_neg hfinished] at h
    cases hhead : s.frameQueue.head with
    | none =>
      rw [hhead] at h
      cases h
    | some frame =>
      rw [hhead] at h
      simp only at h
      generalize hm : min room (frame.dataLen - (s.readOffset - frame.offset)) = m at h
      have hqueue := pop_queue { s with readOffset := s.readOffset + m }
      obtain ⟨hoffset, hflag⟩ := pop_fields { s with readOffset := s.readOffset + m }
      have hpopped := hfinished
      rw [← hflag] at hpopped
      split_ifs at h with hlow hpast hpattern hpattern hwhole hwhole hfin <;> cases h
      · exact Or.inl ⟨rfl, rfl, by simp⟩
      · exact Or.inr ⟨frame, m, hhead, by omega, by omega, rfl, hoffset, hqueue,
          fun hset => absurd hset hpopped, by simp⟩
      · exact Or.inr ⟨frame, m, hhead, by omega, by omega, rfl, rfl, Or.inl rfl,
          fun hset => absurd hset hfinished, by simp⟩
      · exact Or.inr ⟨frame, m, hhead, by omega, by omega, rfl, hoffset, hqueue,
          fun _ => rfl, fun _ => ⟨hfin, by omega⟩⟩
      · exact Or.inr ⟨frame, m, hhead, by omega, by omega, rfl, hoffset, hqueue,
          fun hset => absurd hset hpopped, by simp⟩
      · exact Or.inr ⟨frame, m, hhead, by omega, by omega, rfl, rfl, Or.inl rfl,
          fun hset => absurd hset hfinished, by simp⟩

structure ReadUpTo (bytes : List UInt8) (log : List Turn) (s : Reader) : Prop where
  ending : Ending bytes s.frameQueue
  copied : log.flatMap (·.data) = stretch bytes 0 s.readOffset
  bound : s.readOffset ≤ bytes.length
  finished : s.finishedReading = true → s.readOffset = bytes.length
  logged : Logged (fun before turn => turn.err = some .eof →
    (before ++ [turn]).flatMap (·.data) = bytes) log

theorem ReadUpTo.read {log : List Turn} {room : Nat} (h : ReadUpTo bytes log s)
    (hread : s.read room = some (t, turn)) : ReadUpTo bytes (log ++ [turn]) t := by
  have hcopied := h.copied
  rcases read_cases hread with ⟨hfinished, rfl, hdata⟩ | ⟨rfl, hdata, herr⟩ | ⟨frame, m, hc⟩
  · have hsame : (log ++ [turn]).flatMap (·.data) = stretch bytes 0 t.readOffset := by
      simp [hdata, hcopied]
    refine ⟨h.ending, hsame, h.bound, h.finished, h.logged.snoc fun _ => ?_⟩
    rw [hsame, h.finished hfinished, stretch_zero_length]
  · exact ⟨h.ending, by simp [hdata, hcopied], h.bound, h.finished,
      h.logged.snoc fun heof => absurd heof herr⟩
  · have hstored := h.ending.stored _ _ hc.head
    have hkey := hstored.offset
    have hbound := hstored.piece.bound
    have hoffset := hc.offset
    have hinside := hc.inside
    have hreadOffset := hc.readOffset
    have heof : turn.err = some .eof → t.readOffset = bytes.length := by
      intro herr
      obtain ⟨hfin, hwhole⟩ := hc.eof herr
      have hend := h.ending.fin _ _ hc.head hfin
      omega
    have hdata : turn.data = stretch bytes s.readOffset t.readOffset := by
      have hstart : s.readOffset = frame.offset + (s.readOffset - frame.offset) := by omega
      have hstop : frame.offset + (s.readOffset - frame.offset) + m ≤
          frame.offset + frame.dataLen := by omega
      rw [hc.data, hstored.piece.data, drop_stretch, take_stretch bytes hstop, hreadOffset,
        ← hstart]
    have hmore : (log ++ [turn]).flatMap (·.data) = stretch bytes 0 t.readOffset := by
      rw [List.flatMap_append, hcopied, List.flatMap_singleton, hdata]
      exact stretch_append_stretch bytes (Nat.zero_le _) (by omega)
    refine ⟨?_, hmore, by omega, fun hset => heof (hc.finished hset), h.logged.snoc ?_⟩
    · rcases hc.queue with hsame | ⟨popped, hpop⟩
      · rw [hsame]
        exact h.ending
      · exact (h.ending.pop hpop).1
    · intro herr
      rw [hmore, heof herr, stretch_zero_length]

theorem readStep_readUpTo (hmax : bytes.length < maxByteCount) {log out : List Turn}
    {event : ReadEvent} (h : ReadUpTo bytes log s) (hsafe : FinSafeRead bytes s event)
    (hstep : readStep s event = some (t, out)) : ReadUpTo bytes (log ++ out) t := by
  cases event with
  | push frame =>
    cases hstep
    rw [List.append_nil]
    exact ⟨(h.ending.push hmax hsafe.1 hsafe.2).1, h.copied, h.bound, h.finished, h.logged⟩
  | read room =>
    obtain ⟨⟨next, turn⟩, hread, heq⟩ := Option.map_eq_some_iff.mp hstep
    cases heq
    exact h.read hread

end Reading

-- A frame with the FIN is popped as the last one, and `Read` reports the end of the
-- stream only after it has copied out every byte.
theorem no_premature_end (bytes : ByteString) :
    (∀ events s log, Along step (FinSafe bytes.val) newStreamFrameSorter events →
      run step newStreamFrameSorter events = some (s, log) →
      ∀ before frame after, log = before ++ .popped frame :: after → frame.finBit = true →
        (delivered before).length + frame.dataLen = bytes.val.length) ∧
    (∀ events s log, Along readStep (FinSafeRead bytes.val) newReader events →
      run readStep newReader events = some (s, log) →
      ∀ before turn after, log = before ++ turn :: after → turn.err = some .eof →
        (before ++ [turn]).flatMap (·.data) = bytes.val) := by
  have hmax := bytes.length_lt
  constructor
  · intro events s log ha hrun before frame after hlog
    have hnew : Popping bytes.val [] newStreamFrameSorter := ⟨ending_new bytes.val, rfl, .nil _⟩
    have hinv := run_invariant (fun _ => Popping bytes.val)
      (fun _ _ _ _ _ _ h hsafe hstep => step_popping hmax h hsafe hstep) [] [] _ s events log
      hnew ha hrun
    exact hinv.logged before _ after hlog frame rfl
  · intro events s log ha hrun before turn after hlog
    have hnew : ReadUpTo bytes.val [] newReader :=
      ⟨ending_new bytes.val, by rw [newReader, stretch_empty _ (Nat.le_refl _)]; rfl, Nat.zero_le _,
        by simp [newReader], .nil _⟩
    have hinv := run_invariant (fun _ => ReadUpTo bytes.val)
      (fun _ _ _ _ _ _ h hsafe hstep => readStep_readUpTo hmax h hsafe hstep) [] [] _ s events log
      hnew ha hrun
    exact hinv.logged before turn after hlog

theorem no_premature_end_example :
    let bytes : ByteString := ⟨[1, 2, 3], by decide⟩
    let first : StreamFrame := ⟨5, true, true, 1, [2, 3]⟩
    let second : StreamFrame := ⟨5, false, true, 0, [1, 2]⟩
    let events : List Event := [.push first, .push second, .pop, .pop]
    let reads : List ReadEvent := [.push first, .push second, .read 10, .read 10]
    Along step (FinSafe bytes.val) newStreamFrameSorter events ∧
    Along readStep (FinSafeRead bytes.val) newReader reads ∧
    (∃ s before frame, run step newStreamFrameSorter events = some (s, before ++ [.popped frame]) ∧
      frame.finBit = true ∧ (delivered before).length + frame.dataLen = bytes.val.length) ∧
    (∃ s before turn, run readStep newReader reads = some (s, before ++ [turn]) ∧
      turn.err = some .eof ∧ (before ++ [turn]).flatMap (·.data) = bytes.val) := by
  intro bytes first second events reads
  have ha : Along step (FinSafe bytes.val) newStreamFrameSorter events := by decide
  have hr : Along readStep (FinSafeRead bytes.val) newReader reads := by decide
  obtain ⟨hpops, hreads⟩ := no_premature_end bytes
  have hlog : (run step newStreamFrameSorter events).map (·.2) =
      some ([.pushed none, .pushed none, .popped ⟨5, false, true, 0, [1]⟩] ++ [.popped first]) := by
    decide
  have hturns : (run readStep newReader reads).map (·.2) =
      some ([⟨[1], none⟩] ++ [⟨[2, 3], some .eof⟩]) := by decide
  obtain ⟨⟨s, log⟩, hrun, rfl⟩ := Option.map_eq_some_iff.mp hlog
  obtain ⟨⟨r, turns⟩, hread, rfl⟩ := Option.map_eq_some_iff.mp hturns
  exact ⟨ha, hr, ⟨s, _, first, hrun, rfl, hpops _ _ _ ha hrun _ _ [] rfl rfl⟩,
    ⟨r, _, _, hread, rfl, hreads _ _ _ hr hread _ _ [] rfl rfl⟩⟩

-- The second half of a frame that was split for retransmission arrives before the
-- frame as a whole. The whole frame is cut at its tail and keeps the FIN.
theorem split_retransmission_ends_early :
    let bytes : List UInt8 := [1, 2]
    let half : StreamFrame := ⟨5, true, true, 1, [2]⟩
    let whole : StreamFrame := ⟨5, true, true, 0, [1, 2]⟩
    Segment bytes half ∧ Segment bytes whole ∧
    (run step newStreamFrameSorter [.push half, .push whole, .pop]).map (·.2) =
      some [.pushed none, .pushed none, .popped ⟨5, true, true, 0, [1]⟩] ∧
    (run readStep newReader [.push half, .push whole, .read 10]).map (·.2) =
      some [⟨[1], some .eof⟩] := by
  decide

end MpQuic.Sorter

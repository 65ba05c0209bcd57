import MpQuic.Sorter.Queue

namespace MpQuic.Sorter

open MpQuic.Library MpQuic.Wire List Function

-- The queued frame at one position leads to the position behind it.
def Next (queued : Nat → Option StreamFrame) (a : Nat) (f : StreamFrame) (b : Nat) : Prop :=
  queued a = some f ∧ 0 < f.dataLen ∧ b = a + f.dataLen

def Chain (queued : Nat → Option StreamFrame) (a b : Nat) : Prop :=
  ∃ frames, Path (Next queued) a frames b

section Chains

variable {queued queued' : Nat → Option StreamFrame} {a b c : Nat}

theorem Next.le (a : Nat) (f : StreamFrame) (b : Nat) (h : Next queued a f b) : a ≤ b := by
  have hend := h.2.2
  omega

theorem Chain.le (a b : Nat) (h : Chain queued a b) : a ≤ b := by
  obtain ⟨frames, hpath⟩ := h
  exact hpath.le Next.le

theorem Chain.trans (h₁ : Chain queued a b) (h₂ : Chain queued b c) : Chain queued a c := by
  obtain ⟨first, hfirst⟩ := h₁
  obtain ⟨second, hsecond⟩ := h₂
  exact ⟨first ++ second, hfirst.trans hsecond⟩

theorem Chain.congr (h : Chain queued a b)
    (hsame : ∀ k, a ≤ k → k < b → queued' k = queued k) : Chain queued' a b := by
  obtain ⟨frames, hpath⟩ := h
  refine ⟨frames, hpath.imp Next.le ?_⟩
  rintro k f next hlow hhigh ⟨hk, hpos, rfl⟩
  exact ⟨(hsame k hlow (by omega)).trans hk, hpos, rfl⟩

end Chains

-- The blocks between the gaps are the chains of the queue, and the queue holds
-- nothing but pieces of the stream.
structure Assembled (bytes : List UInt8) (s : StreamFrameSorter) : Prop where
  stored : ∀ k f, s.queuedFrames k = some f → Stored bytes s.gaps k f ∧ 0 < f.dataLen
  blocks : Path (Block (Chain s.queuedFrames)) s.readPosition s.gaps maxByteCount
  position : s.readPosition ≤ bytes.length

structure Taken (bytes : List UInt8) (s : StreamFrameSorter) (frame : StreamFrame)
    (t : StreamFrameSorter) : Prop where
  assembled : Assembled bytes t
  position : t.readPosition = s.readPosition
  missing : ∀ i, Missing t.gaps i → Missing s.gaps i
  received : ∀ i, frame.offset ≤ i → i < frame.offset + frame.dataLen → ¬Missing t.gaps i

section Push

variable {bytes : List UInt8} {s : StreamFrameSorter} {frame : StreamFrame}

theorem Assembled.place {before passed after : List ByteInterval} {gap endGap : ByteInterval}
    (h : Assembled bytes s) (hframe : Piece bytes frame) (hlen : 0 < frame.dataLen)
    (hstart : ∀ g ∈ s.gaps, g.stop = frame.offset → Missing s.gaps frame.offset)
    (hslot : Slot s.gaps frame.offset (frame.offset + frame.dataLen) before gap passed endGap
      after) :
    Taken bytes s frame
      { s with
        gaps := filled before gap endGap after frame.offset (frame.offset + frame.dataLen)
        queuedFrames := update (remaining s.queuedFrames passed)
          (Sorter.place frame gap endGap).offset (some (Sorter.place frame gap endGap)) } := by
  have hle : ∀ a b, Chain s.queuedFrames a b → a ≤ b := Chain.le
  have hpath := h.blocks
  rw [hslot.gaps] at hpath
  have haround := around hle hpath hslot.first
  have hgap := haround.nonempty
  have horder := haround.order
  have hend : endGap.start < endGap.stop := (gap_bounds hle hpath (by simp)).2.1
  have hstop := hslot.gapStart
  have hlow := hslot.gapStop
  -- a frame that starts where a gap ends starts in the next gap
  have hinside : frame.offset < endGap.stop := by
    by_contra hnot
    have heq : gap.stop = frame.offset := by omega
    exact hslot.tail hle h.blocks (by omega) (by omega) (Nat.le_refl _)
      (hstart gap hslot.gap_mem heq)
  have hoffset : (Sorter.place frame gap endGap).offset = max frame.offset gap.start := rfl
  have hsize := place_dataLen endGap hstop
  have hpos : 0 < (Sorter.place frame gap endGap).dataLen := by omega
  obtain ⟨hplaced, hold⟩ := hslot.stored hle h.blocks hframe fun k f hk => (h.stored k f hk).1
  have houtside : ∀ k, k < gap.start ∨ endGap.stop ≤ k →
      update (remaining s.queuedFrames passed) (Sorter.place frame gap endGap).offset
        (some (Sorter.place frame gap endGap)) k = s.queuedFrames k := by
    intro k hk
    rw [update_of_ne (by omega), remaining, if_neg]
    rintro ⟨g, hg, rfl⟩
    have hpassed := hslot.passed_bounds hle h.blocks hg
    omega
  refine ⟨⟨?_, ?_, h.position⟩, rfl, fun i hi => (hslot.missing hle h.blocks hi).1, ?_⟩
  · exact forall_update
      (fun k f hk => ⟨hold k f hk, (h.stored k f (remaining_some hk)).2⟩) ⟨hplaced, hpos⟩
  · refine haround.fill hle (fun _ _ _ => Chain.trans) ?_ ?_ ?_ (by omega) (by omega) ?_
    · intro a b hb hchain
      exact hchain.congr fun k _ hk => houtside k (Or.inl (by omega))
    · intro a b ha hchain
      exact hchain.congr fun k hk _ => houtside k (Or.inr (by omega))
    · refine ⟨[Sorter.place frame gap endGap], Path.single ⟨?_, hpos, by omega⟩⟩
      exact update_self _ _ _
    · intro hmin
      rcases hslot.ends with hin | ⟨-, next, rest, rfl, -⟩
      · omega
      · exact cons_ne_nil _ _
  · intro i hlow hhigh hi
    exact (hslot.missing hle h.blocks hi).2 ⟨hlow, hhigh⟩

theorem Assembled.duplicate (h : Assembled bytes s) (size : Nat)
    (hreceived : ∀ i, frame.offset ≤ i → i < frame.offset + frame.dataLen → ¬Missing s.gaps i) :
    Taken bytes s frame { s with dupframesize := size } :=
  ⟨⟨h.stored, h.blocks, h.position⟩, rfl, fun _ hi => hi, hreceived⟩

theorem Assembled.insert (h : Assembled bytes s) (hmax : bytes.length < maxByteCount)
    (hframe : Piece bytes frame) (hlen : 0 < frame.dataLen)
    (hstart : ∀ g ∈ s.gaps, g.stop = frame.offset → Missing s.gaps frame.offset)
    (hfew : (s.insert frame).2 ≠ some .errTooManyGapsInReceivedStreamData) :
    Taken bytes s frame (s.insert frame).1 := by
  have hle : ∀ a b, Chain s.queuedFrames a b → a ≤ b := Chain.le
  have hbound := hframe.bound
  have hinserted := insert_inserted hle h.blocks (Nat.lt_of_le_of_lt h.position hmax)
    (Nat.lt_of_le_of_lt hbound hmax)
  generalize s.insert frame = result at hinserted hfew ⊢
  cases hinserted with
  | duplicate before gap after hgaps hbefore hstop =>
    refine h.duplicate s.dupframesize ?_
    rintro i hlow hhigh ⟨g, hg, hi₁, hi₂⟩
    have hblocks := h.blocks
    rw [hgaps] at hblocks hg
    obtain ⟨middle, -, hrest⟩ := path_append.mp hblocks
    obtain ⟨next, ⟨-, hgap, rfl⟩, hafter⟩ := hrest
    rcases mem_append.mp hg with hg | hg
    · have hfront := hbefore g hg
      omega
    · rcases mem_cons.mp hg with rfl | hg
      · omega
      · have hback := (gap_bounds hle hafter hg).1
        omega
  | placed before gap passed endGap after hslot => exact h.place hframe hlen hstart hslot
  | tooMany before gap passed endGap after hslot => exact absurd rfl hfew

theorem Assembled.missing_of_none (h : Assembled bytes s) {g : ByteInterval} (hg : g ∈ s.gaps)
    (hnone : s.queuedFrames g.stop = none) (hmax : g.stop < maxByteCount) :
    Missing s.gaps g.stop := by
  obtain ⟨front, back, hgaps⟩ := append_of_mem hg
  have hblocks := h.blocks
  rw [hgaps] at hblocks
  obtain ⟨middle, -, next, ⟨-, -, rfl⟩, hback⟩ := path_append.mp hblocks
  cases back with
  | nil =>
    have hend : g.stop = maxByteCount := hback
    omega
  | cons second rest =>
    obtain ⟨last, ⟨⟨frames, hchain⟩, hsecond, -⟩, -⟩ := hback
    cases frames with
    | nil =>
      have hsame : g.stop = second.start := hchain
      exact ⟨second, by simp [hgaps], by omega, by omega⟩
    | cons f later =>
      obtain ⟨after, ⟨hsome, -⟩, -⟩ := hchain
      rw [hnone] at hsome
      cases hsome

-- A push that changes more than a counter inserts the part of the frame behind the one that is
-- queued at its offset.
structure Cut (bytes : List UInt8) (s : StreamFrameSorter) (frame cut : StreamFrame) : Prop where
  insert : s.push frame = s.insert cut
  piece : Piece bytes cut
  nonempty : 0 < cut.dataLen
  low : frame.offset ≤ cut.offset
  stop : cut.offset + cut.dataLen = frame.offset + frame.dataLen
  received : ∀ i, frame.offset ≤ i → i < cut.offset → ¬Missing s.gaps i
  start : ∀ g ∈ s.gaps, g.stop = cut.offset → Missing s.gaps cut.offset

theorem Assembled.push_cases (h : Assembled bytes s) (hmax : bytes.length < maxByteCount)
    (hframe : Piece bytes frame) (hlen : 0 < frame.dataLen) :
    (∃ size err, s.push frame = ({ s with dupframesize := size }, err) ∧
      ∀ i, frame.offset ≤ i → i < frame.offset + frame.dataLen → ¬Missing s.gaps i) ∨
    ∃ cut, Cut bytes s frame cut := by
  have hbound := hframe.bound
  have hpushed := push_pushed s frame
  generalize hresult : s.push frame = result at hpushed
  cases hpushed with
  | onlyFin hempty => omega
  | empty hempty => omega
  | again oldFrame hold hshort =>
    have hreceived := (h.stored _ _ hold).1.received
    exact Or.inl ⟨_, _, rfl, fun i hlow hhigh => hreceived i hlow (by omega)⟩
  | longer oldFrame hold hlong =>
    obtain ⟨hstored, hpos⟩ := h.stored _ _ hold
    have hreceived := hstored.received
    obtain ⟨hcut, hoffset, hend⟩ := cutFront_piece hframe (Nat.le_of_lt hlong)
    refine Or.inr ⟨_, hresult, hcut, by omega, by omega, hend, ?_, ?_⟩
    · exact fun i hlow hhigh => hreceived i hlow (by omega)
    · -- the position in front of the cut frame has been received
      intro g hg hstop
      have hbounds := gap_bounds Chain.le h.blocks hg
      exact absurd ⟨g, hg, by omega, by omega⟩
        (hreceived (frame.offset + oldFrame.dataLen - 1) (by omega) (by omega))
  | fresh _ hnone =>
    refine Or.inr ⟨frame, hresult, hframe, hlen, Nat.le_refl _, rfl, by omega, ?_⟩
    intro g hg hstop
    rw [← hstop] at hnone ⊢
    exact h.missing_of_none hg hnone (by omega)

theorem Assembled.push (h : Assembled bytes s) (hmax : bytes.length < maxByteCount)
    (hframe : Piece bytes frame) (hlen : 0 < frame.dataLen)
    (hfew : (s.push frame).2 ≠ some .errTooManyGapsInReceivedStreamData) :
    Taken bytes s frame (s.push frame).1 := by
  rcases h.push_cases hmax hframe hlen with ⟨size, err, hpush, hreceived⟩ | ⟨cut, hcut⟩
  · rw [hpush]
    exact h.duplicate size hreceived
  · rw [hcut.insert] at hfew ⊢
    have htaken := h.insert hmax hcut.piece hcut.nonempty hcut.start hfew
    have hstop := hcut.stop
    refine ⟨htaken.assembled, htaken.position, htaken.missing, ?_⟩
    intro i hlow hhigh hi
    by_cases hcase : i < cut.offset
    · exact hcut.received i hlow hcase (htaken.missing i hi)
    · exact htaken.received i (by omega) (by omega) hi

end Push

section Read

variable {bytes : List UInt8} {s : StreamFrameSorter}

structure Read (bytes : List UInt8) (s : StreamFrameSorter) (frame : StreamFrame)
    (t : StreamFrameSorter) : Prop where
  assembled : Assembled bytes t
  gaps : t.gaps = s.gaps
  data : frame.data = stretch bytes s.readPosition t.readPosition
  position : s.readPosition < t.readPosition

section

variable (h : Assembled bytes s) (hmax : bytes.length < maxByteCount)

include h hmax

theorem Assembled.first_block :
    ∃ g rest, s.gaps = g :: rest ∧ Block (Chain s.queuedFrames) s.readPosition g g.stop ∧
      Path (Block (Chain s.queuedFrames)) g.stop rest maxByteCount := by
  have hblocks := h.blocks
  have hposition := h.position
  cases hgaps : s.gaps with
  | nil =>
    rw [hgaps] at hblocks
    have hend : s.readPosition = maxByteCount := hblocks
    omega
  | cons g rest =>
    rw [hgaps] at hblocks
    obtain ⟨next, ⟨hchain, hgap, rfl⟩, hrest⟩ := hblocks
    exact ⟨g, rest, rfl, ⟨hchain, hgap, rfl⟩, hrest⟩

theorem Assembled.pop
    {frame : StreamFrame} (hhead : s.head = some frame) :
    ∃ t, s.pop = some (t, frame) ∧ Read bytes s frame t := by
  obtain ⟨hstored, hpos⟩ := h.stored _ _ hhead
  have hoffset := hstored.offset
  have hbound := hstored.piece.bound
  obtain ⟨g, rest, hgaps, ⟨⟨frames, hchain⟩, hgap, -⟩, hrest⟩ := h.first_block hmax
  refine ⟨_, by rw [StreamFrameSorter.pop, hhead]; rfl, ?_⟩
  rw [hoffset]
  cases frames with
  | nil =>
    -- the head would lie in the first gap
    have hsame : s.readPosition = g.start := hchain
    exact absurd ⟨g, by simp [hgaps], by omega, by omega⟩
      (hstored.received s.readPosition (Nat.le_refl _) (by omega))
  | cons f later =>
    obtain ⟨next, ⟨hsome, -, rfl⟩, hlater⟩ := hchain
    obtain rfl : frame = f := Option.some.inj (hhead.symm.trans hsome)
    have hend := hlater.le Next.le
    have hkeep : ∀ k, s.readPosition < k →
        update s.queuedFrames s.readPosition none k = s.queuedFrames k :=
      fun k hk => update_of_ne (by omega) _ _
    refine ⟨⟨?_, ?_, ?_⟩, rfl, ?_, by simp only; omega⟩
    · intro k f hk
      by_cases hkey : k = s.readPosition
      · simp [hkey] at hk
      · simp only [update_of_ne hkey] at hk
        exact h.stored k f hk
    · simp only [hgaps]
      refine ⟨g.stop, ⟨?_, hgap, rfl⟩, ?_⟩
      · exact Chain.congr ⟨later, hlater⟩ fun k hk _ => hkeep k (by omega)
      · refine hrest.imp (Block.le Chain.le) ?_
        rintro a x b ha - ⟨hblock, hx⟩
        exact ⟨hblock.congr fun k hk _ => hkeep k (by omega), hx⟩
    · simp only
      omega
    · simp only
      rw [← hoffset]
      exact hstored.piece.data

theorem Assembled.drain :
    ∃ k t later, run step s (List.replicate k .pop) = some (t, later) ∧ t.head = none ∧
      delivered later = stretch bytes s.readPosition t.readPosition ∧
      s.readPosition ≤ t.readPosition ∧ t.readPosition ≤ bytes.length ∧
      ∀ n, (∀ i < n, ¬Missing s.gaps i) → n ≤ t.readPosition := by
  generalize hleft : bytes.length - s.readPosition = left
  induction left using Nat.strong_induction_on generalizing s with
  | _ left ih =>
    have hposition := h.position
    cases hhead : s.head with
    | none =>
      refine ⟨0, s, [], rfl, hhead, ?_, Nat.le_refl _, hposition, ?_⟩
      · rw [stretch_empty _ (Nat.le_refl _)]
        rfl
      · intro n hn
        obtain ⟨g, rest, hgaps, ⟨⟨frames, hchain⟩, hgap, -⟩, -⟩ := h.first_block hmax
        cases frames with
        | nil =>
          have hsame : s.readPosition = g.start := hchain
          by_contra hlt
          exact hn s.readPosition (by omega) ⟨g, by simp [hgaps], by omega, by omega⟩
        | cons f later =>
          obtain ⟨next, ⟨hsome, -⟩, -⟩ := hchain
          exact absurd (hhead.symm.trans hsome) (by simp)
    | some frame =>
      obtain ⟨middle, hpop, hread⟩ := h.pop hmax hhead
      have hmiddle := hread.assembled.position
      have hmore := hread.position
      obtain ⟨k, t, later, hrun, hnone, hdata, hle, hbound, hall⟩ :=
        ih (bytes.length - middle.readPosition) (by omega) hread.assembled rfl
      have hstep : step s .pop = some (middle, [.popped frame]) := by simp [step, hpop]
      refine ⟨k + 1, t, .popped frame :: later, ?_, hnone, ?_, by omega, hbound, ?_⟩
      · rw [replicate_succ, run_cons _ hstep, hrun]
        rfl
      · have hfirst : delivered (.popped frame :: later) = frame.data ++ delivered later := rfl
        rw [hfirst, hdata, hread.data]
        exact stretch_append_stretch bytes (Nat.le_of_lt hmore) hle
      · intro n hn
        rw [← hread.gaps] at hn
        exact hall n hn

end

end Read

-- The frames are pieces of the stream that are not empty, with the FIN only at its
-- end, and the sorter does not run out of gaps. Only a head that is there is popped.
def Proper (bytes : List UInt8) (s : StreamFrameSorter) : Event → Prop
  | .push frame =>
    Piece bytes frame ∧ 0 < frame.dataLen ∧
      (frame.finBit = true → frame.offset + frame.dataLen = bytes.length) ∧
      (s.push frame).2 ≠ some .errTooManyGapsInReceivedStreamData
  | .pop => s.head.isSome = true

instance (bytes : List UInt8) (s : StreamFrameSorter) :
    (event : Event) → Decidable (Proper bytes s event)
  | .push _ => inferInstanceAs (Decidable (_ ∧ _ ∧ (_ = true → _ = _) ∧ _ ≠ _))
  | .pop => inferInstanceAs (Decidable (_ = true))

structure Faithful (bytes : List UInt8) (past : List Event) (log : List Output)
    (s : StreamFrameSorter) : Prop where
  assembled : Assembled bytes s
  delivered : delivered log = stretch bytes 0 s.readPosition
  received : ∀ frame, .push frame ∈ past → ∀ i, frame.offset ≤ i →
    i < frame.offset + frame.dataLen → ¬Missing s.gaps i

theorem faithful_new (bytes : List UInt8) : Faithful bytes [] [] newStreamFrameSorter := by
  refine ⟨⟨by simp [newStreamFrameSorter], ?_, Nat.zero_le _⟩, ?_, by simp⟩
  · exact Path.single ⟨⟨[], rfl⟩, by decide, rfl⟩
  · rw [newStreamFrameSorter, stretch_empty _ (Nat.le_refl _)]
    rfl

theorem step_faithful {bytes : List UInt8} (hmax : bytes.length < maxByteCount)
    {past : List Event} {log : List Output} {s : StreamFrameSorter} {event : Event}
    (h : Faithful bytes past log s) (hproper : Proper bytes s event) :
    ∃ t out, step s event = some (t, out) ∧ Faithful bytes (past ++ [event]) (log ++ out) t := by
  cases event with
  | push frame =>
    obtain ⟨hpiece, hlen, -, hfew⟩ := hproper
    have htaken := h.assembled.push hmax hpiece hlen hfew
    refine ⟨_, _, rfl, htaken.assembled, ?_, ?_⟩
    · rw [htaken.position, ← h.delivered]
      simp [delivered]
    · intro other hother i hlow hhigh
      simp only [mem_append, mem_singleton, Event.push.injEq] at hother
      rcases hother with hother | rfl
      · exact fun hi => h.received other hother i hlow hhigh (htaken.missing i hi)
      · exact htaken.received i hlow hhigh
  | pop =>
    obtain ⟨frame, hhead⟩ := Option.isSome_iff_exists.mp hproper
    obtain ⟨t, hpop, hread⟩ := h.assembled.pop hmax hhead
    refine ⟨t, [.popped frame], by simp [step, hpop], hread.assembled, ?_, ?_⟩
    · have hmore : delivered (log ++ [.popped frame]) = delivered log ++ frame.data := by
        simp [delivered]
      rw [hmore, h.delivered, hread.data]
      exact stretch_append_stretch bytes (Nat.zero_le _) (Nat.le_of_lt hread.position)
    · intro other hother
      rw [hread.gaps]
      exact h.received other (by simpa using hother)

theorem stretch_prefix (bytes : List UInt8) (stop : Nat) : stretch bytes 0 stop <+: bytes := by
  simpa [stretch] using take_prefix stop bytes

-- What the reader gets is a prefix of the stream, and it gets all bytes in front
-- of the first one that was never pushed.
theorem reassembly_faithful (bytes : ByteString) (events : List Event)
    (ha : Along step (Proper bytes.val) newStreamFrameSorter events) :
    ∃ s log, run step newStreamFrameSorter events = some (s, log) ∧ delivered log <+: bytes.val ∧
      ∀ n, (∀ i < n, ∃ frame, .push frame ∈ events ∧ frame.offset ≤ i ∧
          i < frame.offset + frame.dataLen) →
        ∃ k t later, run step s (List.replicate k .pop) = some (t, later) ∧ t.head = none ∧
          delivered (log ++ later) <+: bytes.val ∧ n ≤ (delivered (log ++ later)).length := by
  have hmax := bytes.length_lt
  obtain ⟨s, log, hrun, hfaithful⟩ := run_progress (Faithful bytes.val)
    (fun _ _ _ _ h hproper => step_faithful hmax h hproper) [] [] _ events (faithful_new bytes.val)
    ha
  rw [List.nil_append, List.nil_append] at hfaithful
  refine ⟨s, log, hrun, ?_, ?_⟩
  · rw [hfaithful.delivered]
    exact stretch_prefix bytes.val _
  · intro n hcover
    obtain ⟨k, t, later, hpops, hhead, hdata, hle, hbound, hall⟩ := hfaithful.assembled.drain hmax
    have hread : delivered (log ++ later) = stretch bytes.val 0 t.readPosition := by
      have hsplit : delivered (log ++ later) = delivered log ++ delivered later := by
        simp [delivered]
      rw [hsplit, hfaithful.delivered, hdata]
      exact stretch_append_stretch bytes.val (Nat.zero_le _) hle
    refine ⟨k, t, later, hpops, hhead, ?_, ?_⟩
    · rw [hread]
      exact stretch_prefix bytes.val _
    · rw [hread, length_stretch _ hbound]
      refine Nat.le_trans (hall n ?_) (by omega)
      intro i hi
      obtain ⟨frame, hframe, hlow, hhigh⟩ := hcover i hi
      exact hfaithful.received frame hframe i hlow hhigh

theorem reassembly_faithful_example :
    let bytes : ByteString := ⟨[1, 2, 3, 4, 5, 6], by decide⟩
    let events : List Event := [.push ⟨5, true, true, 3, [4, 5, 6]⟩,
      .push ⟨5, false, true, 0, [1, 2, 3, 4]⟩, .pop]
    Along step (Proper bytes.val) newStreamFrameSorter events ∧
    ∃ s log, run step newStreamFrameSorter events = some (s, log) ∧ delivered log <+: bytes.val ∧
      ∃ k t later, run step s (List.replicate k .pop) = some (t, later) ∧ t.head = none ∧
        delivered (log ++ later) <+: bytes.val ∧ 6 ≤ (delivered (log ++ later)).length := by
  intro bytes events
  have ha : Along step (Proper bytes.val) newStreamFrameSorter events := by decide
  obtain ⟨s, log, hrun, hprefix, hall⟩ := reassembly_faithful bytes events ha
  refine ⟨ha, s, log, hrun, hprefix, hall 6 ?_⟩
  intro i hi
  by_cases hfirst : i < 4
  · exact ⟨⟨5, false, true, 0, [1, 2, 3, 4]⟩, by simp [events], Nat.zero_le i, hfirst⟩
  · exact ⟨⟨5, true, true, 3, [4, 5, 6]⟩, by simp [events], Nat.le_of_not_lt fun h =>
      hfirst (Nat.lt_succ_of_lt h), hi⟩

end MpQuic.Sorter

import MpQuic.Stms.Pop

namespace MpQuic.Stms

open MpQuic.Library List Option

namespace Pop

def Covers (p : Pop) (i : Nat) : Prop :=
  p.offset ≤ i ∧ i < p.offset + (p.data.getD []).length

def Disjoint (p q : Pop) : Prop :=
  ∀ i, ¬(p.Covers i ∧ q.Covers i)

end Pop

-- The frames carry the bytes that belong at their offsets, and no byte twice.
structure Intact (bytes : List UInt8) (pops : List Pop) : Prop where
  exact : ∀ p ∈ pops, ∀ data, p.data = some data →
    p.offset + data.length ≤ bytes.length ∧
      data = stretch bytes p.offset (p.offset + data.length)
  disjoint : pops.Pairwise Pop.Disjoint

-- A run in which the frames put out so far and the positions the stream still
-- holds make up all of the written bytes.
structure Sent (bytes : List UInt8) (pops : List Pop) (s : Stream) : Prop where
  layout : Layout s bytes
  intact : Intact bytes pops
  noError : ∀ p ∈ pops, p.errorCase = false
  nonempty : ∀ p ∈ pops, p.data ≠ some []
  covered : ∀ i, i < bytes.length → ((∃ p ∈ pops, p.Covers i) ↔ ¬Unsent s bytes i)

theorem sent_newStream : Sent [] [] newStream := by
  refine ⟨⟨⟨?_, ?_, ?_, ?_⟩, rfl, ?_, ?_, ?_⟩, ⟨?_, .nil⟩, ?_, ?_, ?_⟩ <;> simp [newStream, stretch]

variable {bytes : List UInt8} {pops log : List Pop} {s : Stream} {offset : Nat} {taken : Taken}
  {event : Event} {past : List Event}

theorem Intact.append {more : List UInt8} (h : Intact bytes pops) :
    Intact (bytes ++ more) pops := by
  refine ⟨?_, h.disjoint⟩
  intro p hp data hd
  obtain ⟨hb, he⟩ := h.exact p hp data hd
  refine ⟨?_, ?_⟩
  · rw [length_append]
    omega
  · rw [stretch_of_append _ _ hb]
    exact he

theorem Intact.covers_lt (h : Intact bytes pops) {p : Pop}
    (hp : p ∈ pops) {i : Nat} (hc : p.Covers i) : i < bytes.length := by
  obtain ⟨hlo, hhi⟩ := hc
  cases hd : p.data with
  | none =>
    simp only [hd, getD_none, length_nil] at hhi
    omega
  | some data =>
    have hb := (h.exact p hp data hd).1
    simp only [hd, getD_some] at hhi
    omega

theorem Layout.of_nil (h : Layout s bytes) (hnil : s.dataForWriting = none) :
    s.writeOffsetF = s.writeOffsetSS ∧ s.writeOffsetSN = bytes.length := by
  have hdata := congrArg List.length h.data
  have hb := h.bound
  have hf := h.offsets.fastest
  rw [hnil, length_append, length_stretch _ (Nat.le_refl _), length_stretch _ h.start_le] at hdata
  simp only [getD_none, length_nil] at hdata
  omega

theorem Layout.write_open (h : Layout s bytes) (hopen : s.finishedWriting = false)
    (hnil : s.dataForWriting = none) (p : List UInt8) : Layout (s.write p) (bytes ++ p) := by
  by_cases hp : p = []
  · simpa [Stream.write, hp] using h
  have hwrite : s.write p = { s with dataForWriting := some p } := by
    simp [Stream.write, h.err, hopen, hp]
  obtain ⟨hsame, hend⟩ := h.of_nil hnil
  rw [hwrite]
  refine ⟨⟨h.offsets.fastest, h.offsets.slower, h.offsets.closed, h.offsets.hole⟩, h.err, ?_, ?_, ?_⟩
  · simp only [length_append]
    omega
  · simp only [getD_some, hsame]
    rw [stretch_empty _ (Nat.le_refl _), stretch_append_tail _ _ h.bound, hend,
      stretch_empty _ (Nat.le_refl _), nil_append, nil_append]
  · simpa using hp

theorem write_offsets (s : Stream) (p : List UInt8) :
    (s.write p).writeOffsetF = s.writeOffsetF ∧ (s.write p).writeOffsetSS = s.writeOffsetSS ∧
      (s.write p).writeOffsetSN = s.writeOffsetSN := by
  unfold Stream.write
  split_ifs <;> exact ⟨rfl, rfl, rfl⟩

theorem write_finishedWriting (s : Stream) (p : List UInt8) :
    (s.write p).finishedWriting = s.finishedWriting := by
  unfold Stream.write
  split_ifs <;> rfl

theorem write_finSent (s : Stream) (p : List UInt8) : (s.write p).finSent = s.finSent := by
  unfold Stream.write
  split_ifs <;> rfl

theorem Sent.write (h : Sent bytes pops s) (hopen : s.finishedWriting = false)
    (hnil : s.dataForWriting = none) (p : List UInt8) : Sent (bytes ++ p) pops (s.write p) := by
  obtain ⟨hsame, hend⟩ := h.layout.of_nil hnil
  obtain ⟨hf, hss, hsn⟩ := write_offsets s p
  refine ⟨h.layout.write_open hopen hnil p, h.intact.append, h.noError, h.nonempty, ?_⟩
  intro i hi
  by_cases hold : i < bytes.length
  · rw [h.covered i hold]
    simp only [Unsent, hf, hss, hsn]
    omega
  · constructor
    · rintro ⟨q, hq, hc⟩
      exact absurd (h.intact.covers_lt hq hc) hold
    · intro hsent
      simp only [Unsent, hf, hss, hsn] at hsent
      omega

theorem Served.frame
    (h : Served s bytes offset taken) {p : Pop} (hp : p = ⟨offset, taken.ret, taken.errorCase⟩) :
    (∀ data, p.data = some data → data ≠ [] ∧ p.offset + data.length ≤ bytes.length ∧
      data = stretch bytes p.offset (p.offset + data.length)) ∧
    (∀ i, p.Covers i → Unsent s bytes i) ∧
    ∀ i, Unsent taken.stream bytes i ↔ Unsent s bytes i ∧ ¬p.Covers i := by
  subst hp
  rcases h.sends with ⟨hret, hsame⟩ | ⟨ret, hret, hsends⟩
  · have hnone : ∀ i, ¬Pop.Covers ⟨offset, none, taken.errorCase⟩ i := by
      rintro i ⟨hlo, hhi⟩
      simp only [getD_none, length_nil, Nat.add_zero] at hlo hhi
      omega
    rw [hret, hsame]
    exact ⟨by simp, fun i hc => absurd hc (hnone i), fun i => by simp [hnone i]⟩
  · rw [hret]
    refine ⟨?_, fun i hc => hsends.fresh i hc.1 hc.2, hsends.unsent⟩
    rintro data ⟨⟩
    exact ⟨hsends.nonempty, hsends.bound, hsends.exact⟩

theorem Sent.pop (h : Sent bytes pops s) (hserved : Served s bytes offset taken) :
    Sent bytes (pops ++ [⟨offset, taken.ret, taken.errorCase⟩]) taken.stream := by
  obtain ⟨p, hp⟩ : ∃ p : Pop, p = ⟨offset, taken.ret, taken.errorCase⟩ := ⟨_, rfl⟩
  obtain ⟨hexact, hfresh, hunsent⟩ := hserved.frame hp
  have hall : ∀ {P : Pop → Prop}, (∀ q ∈ pops, P q) → P p → ∀ q ∈ pops ++ [p], P q := by
    intro P hold hnew q hq
    rcases mem_append.mp hq with hq | hq
    · exact hold q hq
    · exact mem_singleton.mp hq ▸ hnew
  rw [← hp]
  refine ⟨hserved.layout, ⟨?_, ?_⟩, ?_, ?_, ?_⟩
  · exact hall h.intact.exact fun data hd => (hexact data hd).2
  · refine pairwise_append.mpr ⟨h.intact.disjoint, pairwise_singleton _ _, ?_⟩
    intro q hq r hr i hc
    rw [mem_singleton.mp hr] at hc
    have hlt := h.intact.covers_lt hq hc.1
    exact (h.covered i hlt).mp ⟨q, hq, hc.1⟩ (hfresh i hc.2)
  · exact hall h.noError (hp ▸ hserved.errorCase)
  · exact hall h.nonempty fun hd => (hexact [] hd).1 rfl
  · intro i hi
    rw [hunsent i, not_and_not_right]
    constructor
    · rintro ⟨q, hq, hc⟩ hu
      rcases mem_append.mp hq with hq | hq
      · exact absurd hu ((h.covered i hi).mp ⟨q, hq, hc⟩)
      · exact mem_singleton.mp hq ▸ hc
    · intro hsent
      by_cases hu : Unsent s bytes i
      · exact ⟨p, mem_append_right _ (mem_singleton_self _), hsent hu⟩
      · obtain ⟨q, hq, hc⟩ := (h.covered i hi).mpr hu
        exact ⟨q, mem_append_left _ hq, hc⟩

-- A write waits for the buffer to be nil, and mode -2 is chosen only while no
-- hole is open.
def NoHole (s : Stream) : Event → Prop
  | .write _ => s.dataForWriting = none
  | .pop gap maxBytes => 1 ≤ maxBytes ∧ (gap = -2 → s.writeOffsetF = s.writeOffsetSS)

instance (s : Stream) : (event : Event) → Decidable (NoHole s event)
  | .write _ => inferInstanceAs (Decidable (_ = none))
  | .pop _ _ => inferInstanceAs (Decidable (_ ∧ (_ = -2 → _ = _)))

theorem Ready.noHole (h : Ready s event) : NoHole s event := by
  cases event with
  | write p => exact h
  | pop gap maxBytes => exact ⟨h.2, fun hg => by have := h.1; omega⟩

theorem written_append (first second : List Event) :
    written (first ++ second) = written first ++ written second := by
  simp [written]

theorem step_sent
    (h : Sent (written past) log s ∧ s.finishedWriting = false) (hready : NoHole s event) :
    ∃ t out, step s event = some (t, out) ∧
      Sent (written (past ++ [event])) (log ++ out) t ∧ t.finishedWriting = false := by
  obtain ⟨hsent, hopen⟩ := h
  rw [written_append]
  cases event with
  | write p =>
    refine ⟨s.write p, [], rfl, ?_, ?_⟩
    · simpa [written] using hsent.write hopen hready p
    · rw [write_finishedWriting, hopen]
  | pop gap maxBytes =>
    obtain ⟨taken, htaken, hserved⟩ :=
      getDataForWritingSTMS_served hsent.layout hready.1 gap hready.2
    refine ⟨taken.stream, [⟨frameOffset s gap, taken.ret, taken.errorCase⟩], ?_, ?_, ?_⟩
    · simp only [step, htaken, map_some]
    · simpa [written] using hsent.pop hserved
    · have hflags := getDataForWritingSTMS_flags htaken
      simp only [Stream.flags, Prod.mk.injEq] at hflags
      rw [hflags.2.1, hopen]

theorem run_sent (events : List Event) (h : Sent (written past) log s ∧ s.finishedWriting = false)
    (ha : Along step NoHole s events) :
    ∃ t out, run step s events = some (t, out) ∧
      Sent (written (past ++ events)) (log ++ out) t ∧ t.finishedWriting = false :=
  run_progress (fun past log s => Sent (written past) log s ∧ s.finishedWriting = false)
    (fun _ _ _ _ hinv hcond => step_sent hinv hcond) past log s events h ha

theorem run_newStream_sent (events : List Event) (ha : Along step NoHole newStream events) :
    ∃ s pops, run step newStream events = some (s, pops) ∧ Sent (written events) pops s ∧
      s.finishedWriting = false := by
  have hinit : Sent (written []) [] newStream ∧ newStream.finishedWriting = false :=
    ⟨sent_newStream, rfl⟩
  simpa using run_sent events hinit ha

-- Splitting a stream over the paths loses no byte, sends none twice and puts
-- none at a wrong offset. No slice is out of range, since the run has a result.
theorem split_stream_intact (events : List Event) (ha : Along step Ready newStream events) :
    ∃ s pops, run step newStream events = some (s, pops) ∧
      (∀ p ∈ pops, p.errorCase = false) ∧
      (∀ p ∈ pops, ∀ data, p.data = some data → data ≠ [] ∧
        p.offset + data.length ≤ (written events).length ∧
        data = stretch (written events) p.offset (p.offset + data.length)) ∧
      pops.Pairwise Pop.Disjoint ∧
      (s.dataForWriting = none →
        ∀ i, (∃ p ∈ pops, p.Covers i) ↔ i < (written events).length) := by
  obtain ⟨s, pops, hrun, hsent, -⟩ := run_newStream_sent events (ha.mono fun _ _ h => h.noHole)
  refine ⟨s, pops, hrun, hsent.noError, ?_, hsent.intact.disjoint, ?_⟩
  · intro p hp data hd
    exact ⟨fun he => hsent.nonempty p hp (he ▸ hd), hsent.intact.exact p hp data hd⟩
  · intro hnil i
    obtain ⟨hsame, hend⟩ := hsent.layout.of_nil hnil
    constructor
    · rintro ⟨p, hp, hc⟩
      exact hsent.intact.covers_lt hp hc
    · intro hi
      refine (hsent.covered i hi).mpr ?_
      simp only [Unsent]
      omega

theorem split_stream_intact_example :
    ∃ s pops, run step newStream
        [.write [1, 2, 3, 4, 5, 6, 7], .pop 3 2, .pop (-1) 2, .pop 0 9, .pop (-1) 9,
          .write [8], .pop (-1) 1] = some (s, pops) ∧
      pops.Pairwise Pop.Disjoint ∧ ∀ i, (∃ p ∈ pops, p.Covers i) ↔ i < 8 := by
  obtain ⟨s, pops, hrun, -, -, hdisjoint, hcover⟩ := split_stream_intact
    [.write [1, 2, 3, 4, 5, 6, 7], .pop 3 2, .pop (-1) 2, .pop 0 9, .pop (-1) 9,
      .write [8], .pop (-1) 1] (by decide)
  have hnil : s.dataForWriting = none := by
    cases hrun
    rfl
  exact ⟨s, pops, hrun, hdisjoint, hcover hnil⟩

end MpQuic.Stms

import MpQuic.Stms.Theorems

namespace MpQuic.Stms

open MpQuic.Library List Option

-- A pop in mode -2 keeps the stream intact: its own frame and those of every
-- later run, in which mode -2 again meets no open hole, are exact and disjoint.
def SwitchIntact (events : List Event) (pops : List Pop) (s : Stream) (maxBytes : Nat) : Prop :=
  ∀ t out later, step s (.pop (-2) maxBytes) = some (t, out) → Along step NoHole t later →
    ∃ last more, run step t later = some (last, more) ∧
      Intact (written (events ++ later)) (pops ++ out ++ more)

def Stream.shift (s : Stream) (count : Nat) : Stream :=
  { s with
    writeOffsetF := s.writeOffsetF + count
    writeOffsetSS := s.writeOffsetSS + count
    writeOffsetSN := s.writeOffsetSN + count }

section Damage

variable {bytes : List UInt8} {pops : List Pop} {s : Stream}

theorem Sent.start_covered (h : Sent bytes pops s) (hopen : s.writeOffsetF < s.writeOffsetSS) :
    ∃ p ∈ pops, p.Covers s.writeOffsetSS := by
  have ho := h.layout.offsets
  have hb := h.layout.bound
  have hlt : s.writeOffsetSS < s.writeOffsetSN := by
    have := ho.slower
    have := ho.closed
    omega
  refine (h.covered s.writeOffsetSS (by omega)).mpr ?_
  simp only [Unsent]
  omega

theorem not_intact_of_covers {first second : List Pop} {i : Nat}
    (hp : ∃ p ∈ first, p.Covers i) (hq : ∃ q ∈ second, q.Covers i) :
    ¬Intact bytes (first ++ second) := by
  intro h
  obtain ⟨p, hp, hpc⟩ := hp
  obtain ⟨q, hq, hqc⟩ := hq
  exact (pairwise_append.mp h.disjoint).2.2 p hp q hq i ⟨hpc, hqc⟩

theorem step_fastest_of_open {t : Stream} {data : List UInt8} (herr : t.err = false)
    (hd : t.dataForWriting = some data) (hne : data ≠ [])
    (hopen : t.writeOffsetF < t.writeOffsetSS) :
    ∃ u p, step t (.pop (-1) data.length) = some (u, [p]) ∧ p.Covers t.writeOffsetF ∧
      (u = t ∨ ∀ i, t.writeOffsetF ≤ i → i < t.writeOffsetSS → p.Covers i) := by
  have hpos : 0 < data.length := length_pos_iff.mpr hne
  obtain ⟨taken, htaken⟩ :=
    isSome_iff_exists.mp (fastestPath_isSome t data data.length)
  have hstep : step t (.pop (-1) data.length) =
      some (taken.stream, [⟨frameOffset t (-1), taken.ret, taken.errorCase⟩]) := by
    simp [step, getDataForWritingSTMS, herr, hd, htaken]
  rw [frameOffset_hole (by omega) hopen] at hstep
  have hout := fastestPath_outcome htaken
  refine ⟨_, _, hstep, ?_⟩
  generalize hgap : (-1 : Int) = gap at hout
  cases hout with
  | idle _ hmode => exact absurd hgap.symm (hmode herr).1
  | stuck count hlen hshort =>
    obtain rfl : count = data.length := by omega
    have hkeep : t.keep data = t := by
      simp only [Stream.keep, if_neg (Nat.ne_of_gt hpos), ← hd]
    rw [hkeep]
    refine ⟨⟨Nat.le_refl _, ?_⟩, Or.inl rfl⟩
    simp only [getD_some, take_length]
    omega
  | fill hlen => omega
  | meet hlen hmax =>
    have hsize : (data.take (t.writeOffsetSS - t.writeOffsetF)).length =
        t.writeOffsetSS - t.writeOffsetF := length_take_of_le hlen
    have hcovers : ∀ i, t.writeOffsetF ≤ i → i < t.writeOffsetSS →
        Pop.Covers ⟨t.writeOffsetF, some (data.take (t.writeOffsetSS - t.writeOffsetF)),
          false⟩ i := by
      intro i hlo hhi
      refine ⟨hlo, ?_⟩
      simp only [getD_some, hsize]
      omega
    exact ⟨hcovers _ (Nat.le_refl _) hopen, Or.inr hcovers⟩
  | _ => omega

theorem step_fastest_isSome (t : Stream) (maxBytes : Nat) :
    (step t (.pop (-1) maxBytes)).isSome := by
  simp only [step, getDataForWritingSTMS, isSome_map]
  cases t.err with
  | true => rfl
  | false =>
    cases t.dataForWriting with
    | none => rfl
    | some data => exact fastestPath_isSome t data maxBytes

theorem fastest_noHole (t : Stream) {maxBytes : Nat} (hm : 1 ≤ maxBytes) :
    Along step NoHole t [.pop (-1) maxBytes, .pop (-1) maxBytes] := by
  have hcond : ∀ u, NoHole u (.pop (-1) maxBytes) := fun u => ⟨hm, by omega⟩
  refine ⟨hcond t, ?_⟩
  split
  · trivial
  · rename_i u _ _
    refine ⟨hcond u, ?_⟩
    split <;> trivial

theorem overlap_of_sent_hole {t : Stream} {data : List UInt8} {log : List Pop} {i : Nat}
    (herr : t.err = false) (hd : t.dataForWriting = some data) (hne : data ≠ [])
    (hsent : ∃ p ∈ log, p.Covers i) (hlo : t.writeOffsetF ≤ i) (hhi : i < t.writeOffsetSS) :
    ∃ last more, run step t [.pop (-1) data.length, .pop (-1) data.length] = some (last, more) ∧
      ∀ bytes, ¬Intact bytes (log ++ more) := by
  obtain ⟨u, p, hfirst, hstart, hnext⟩ := step_fastest_of_open herr hd hne (by omega)
  rcases hnext with rfl | hcovers
  · -- the buffer was not cut, and the same frame goes out a second time
    refine ⟨u, [p, p], ?_, ?_⟩
    · rw [run_cons _ hfirst, run_cons _ hfirst]
      rfl
    · intro bytes h
      have hpair := (pairwise_append.mp h.disjoint).2.1
      exact rel_of_pairwise_cons hpair (mem_singleton_self p) _ ⟨hstart, hstart⟩
  · -- the whole hole goes out, with the position that had been sent
    obtain ⟨⟨last, out⟩, hsecond⟩ :=
      isSome_iff_exists.mp (step_fastest_isSome u data.length)
    refine ⟨last, [p] ++ (out ++ []), ?_, ?_⟩
    · rw [run_cons _ hfirst, run_cons _ hsecond]
      rfl
    · intro bytes
      exact not_intact_of_covers hsent ⟨p, by simp, hcovers i hlo hhi⟩

end Damage

section Exactness

variable {events : List Event} {pops : List Pop} {s : Stream} {data : List UInt8}

-- Mode -2 shifts the hole by the bytes it takes, so that the first byte behind
-- the hole comes to lie in it although it has been sent.
theorem step_alone_of_open (h : Sent (written events) pops s)
    (hd : s.dataForWriting = some data) (maxBytes count : Nat)
    (hc : count = min maxBytes data.length) (hopen : s.writeOffsetF < s.writeOffsetSS) :
    step s (.pop (-2) maxBytes) = some
      ((s.shift count).keep (data.drop count),
        [⟨s.writeOffsetF, some (data.take count), false⟩]) := by
  have hoff : frameOffset s (-2) = s.writeOffsetF := frameOffset_hole (by omega) hopen
  simp [step, getDataForWritingSTMS, h.layout.err, hd, onlyPath_eq s data maxBytes count hc, hoff,
    Stream.shift]

theorem not_switchIntact_of_open (h : Sent (written events) pops s)
    (hwriting : s.finishedWriting = false) {maxBytes : Nat} (hm : 1 ≤ maxBytes)
    (hopen : s.writeOffsetF < s.writeOffsetSS) : ¬SwitchIntact events pops s maxBytes := by
  intro hswitch
  obtain ⟨data, hd⟩ : ∃ data, s.dataForWriting = some data := by
    cases hd : s.dataForWriting with
    | none =>
      have := (h.layout.of_nil hd).1
      omega
    | some data => exact ⟨data, rfl⟩
  have hl := h.layout.length hd
  have hsent := h.start_covered hopen
  obtain ⟨count, hc⟩ : ∃ count, count = min maxBytes data.length := ⟨_, rfl⟩
  have hstep := step_alone_of_open h hd maxBytes count hc hopen
  have hpast : ∃ p ∈ pops ++ [⟨s.writeOffsetF, some (data.take count), false⟩],
      p.Covers s.writeOffsetSS := by
    obtain ⟨p, hp, hcover⟩ := hsent
    exact ⟨p, mem_append_left _ hp, hcover⟩
  by_cases hover : s.writeOffsetF + count > s.writeOffsetSS
  · -- the frame itself runs over the end of the hole
    obtain ⟨last, more, -, hintact⟩ := hswitch _ _ [] hstep trivial
    rw [append_assoc] at hintact
    refine not_intact_of_covers hsent
      ⟨_, mem_append_left _ (mem_singleton_self _), ?_⟩ hintact
    refine ⟨by simp only; omega, ?_⟩
    simp only [getD_some, length_take]
    omega
  have hlo : (s.shift count).writeOffsetF ≤ s.writeOffsetSS := by
    simp only [Stream.shift]
    omega
  have hhi : s.writeOffsetSS < (s.shift count).writeOffsetSS := by
    simp only [Stream.shift]
    omega
  by_cases hrest : (data.drop count).length = 0
  · -- the buffer is nil, so that a write can start
    let t : Stream := { s.shift count with dataForWriting := some [0] }
    obtain ⟨last, more, hrun, hbad⟩ := overlap_of_sent_hole (t := t)
      h.layout.err rfl (cons_ne_nil _ _) hpast hlo hhi
    have hwrite : step ((s.shift count).keep (data.drop count)) (.write [0]) = some (t, []) := by
      simp [step, Stream.write, Stream.keep, hrest, Stream.shift, h.layout.err, hwriting, t]
    have hnil : ((s.shift count).keep (data.drop count)).dataForWriting = none := by
      simp only [Stream.keep, if_pos hrest]
    obtain ⟨u, all, hall, hintact⟩ := hswitch _ _ [.write [0], .pop (-1) 1, .pop (-1) 1] hstep
      ⟨hnil, by rw [hwrite]; exact fastest_noHole t (Nat.le_refl 1)⟩
    rw [length_singleton] at hrun
    rw [run_cons _ hwrite, hrun] at hall
    cases hall
    exact hbad _ hintact
  · have hkeep : ((s.shift count).keep (data.drop count)).dataForWriting = some (data.drop count) := by
      simp only [Stream.keep, if_neg hrest]
    obtain ⟨last, more, hrun, hbad⟩ := overlap_of_sent_hole (t := (s.shift count).keep (data.drop count))
      h.layout.err hkeep (by rintro he; simp [he] at hrest) hpast hlo hhi
    obtain ⟨u, all, hall, hintact⟩ := hswitch _ _ _ hstep
      (fastest_noHole _ (Nat.pos_of_ne_zero hrest))
    rw [hrun] at hall
    cases hall
    exact hbad _ hintact

end Exactness

-- Fewer paths than the split needs, in the state that a run of the other modes
-- leaves: the stream stays intact exactly when no hole is open at that moment.
theorem switch_intact_iff_closed (events : List Event) (ha : Along step Ready newStream events)
    (s : Stream) (pops : List Pop) (hrun : run step newStream events = some (s, pops))
    (maxBytes : Nat) (hm : 1 ≤ maxBytes) :
    SwitchIntact events pops s maxBytes ↔ s.writeOffsetF = s.writeOffsetSS := by
  obtain ⟨s', pops', hrun', hsent, hwriting⟩ :=
    run_newStream_sent events (ha.mono fun _ _ h => h.noHole)
  obtain ⟨rfl, rfl⟩ : s' = s ∧ pops' = pops := by simpa [hrun] using hrun'.symm
  constructor
  · intro hswitch
    by_contra hopen
    have := hsent.layout.offsets.fastest
    exact not_switchIntact_of_open hsent hwriting hm (by omega) hswitch
  · intro hclosed t out later hstep hlater
    have hcond : NoHole s' (.pop (-2) maxBytes) := ⟨hm, fun _ => hclosed⟩
    obtain ⟨t', out', hstep', hsent', hwriting'⟩ := step_sent ⟨hsent, hwriting⟩ hcond
    obtain ⟨rfl, rfl⟩ : t' = t ∧ out' = out := by simpa [hstep] using hstep'.symm
    obtain ⟨last, more, hmore, hlast, -⟩ := run_sent later ⟨hsent', hwriting'⟩ hlater
    refine ⟨last, more, hmore, ?_⟩
    have hbytes : written (events ++ [.pop (-2) maxBytes] ++ later) = written (events ++ later) := by
      simp [written]
    rw [← hbytes]
    exact hlast.intact

theorem switch_intact_after_slower_path :
    SwitchIntact [.write [1, 2, 3, 4], .pop 0 2] [⟨0, some [1, 2], false⟩]
      { newStream with dataForWriting := some [3, 4], writeOffsetSN := 2 } 5 :=
  (switch_intact_iff_closed [.write [1, 2, 3, 4], .pop 0 2] (by decide) _ _ (by decide) 5
    (by decide)).mpr rfl

-- The frame in mode -2 glues the byte before the hole to the one behind it.
theorem switch_misplaces_bytes :
    ¬∀ (events : List Event) (s t : Stream) (pops out : List Pop) (maxBytes : Nat),
      Along step Ready newStream events → run step newStream events = some (s, pops) →
        1 ≤ maxBytes → step s (.pop (-2) maxBytes) = some (t, out) →
          Intact (written events) (pops ++ out) := by
  intro h
  have hintact := h [.write [1, 2, 3], .pop 1 1] _ _ _ _ 2 (by decide) rfl (by decide) rfl
  have hexact := hintact.exact ⟨0, some [1, 3], false⟩ (by decide) [1, 3] rfl
  exact absurd hexact (by decide)

end MpQuic.Stms

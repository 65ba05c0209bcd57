import MpQuic.Framing.Visit

namespace MpQuic.Framing

open MpQuic.Library MpQuic.Wire MpQuic.FlowControl List Option

section Gather

variable {s : Stream}

theorem gatherHeaders_spec (pattern : List UInt8) (patterncnt : Nat) (data : Option (List UInt8))
    (maxLen : Nat) (wrapped : Bool) (herr : s.err = false) :
    ((s.gatherHeaders pattern patterncnt data maxLen wrapped).data.getD []).length =
        (data.getD []).length + min s.pending.length (headerlen * patterncnt) +
          patterncnt * pattern.length ∧
      ((s.gatherHeaders pattern patterncnt data maxLen wrapped).wrapped = true ↔
        wrapped = true ∨ maxLen < headerlen * patterncnt) := by
  induction patterncnt generalizing s data maxLen wrapped with
  | zero => simp [Stream.gatherHeaders]
  | succ patterncnt ih =>
    obtain ⟨hadv, htaken, hleft, -⟩ := getDataForWriting_spec headerlen herr
    have hnext := ih (s := (s.getDataForWriting headerlen).1.addPattern pattern)
      (some (data.getD [] ++ (s.getDataForWriting headerlen).2.getD [] ++ pattern))
      (if maxLen < headerlen then maxLen + 2 ^ 64 - headerlen else maxLen - headerlen)
      (wrapped || maxLen < headerlen) (hadv.err.trans herr)
    have hpending : ((s.getDataForWriting headerlen).1.addPattern pattern).pending =
        s.pending.drop headerlen := hleft
    unfold Stream.gatherHeaders
    dsimp only
    refine ⟨?_, ?_⟩
    · rw [hnext.1, hpending, htaken]
      simp only [getD_some, length_append, length_take, length_drop,
        Nat.add_mul, Nat.one_mul, Nat.mul_add, Nat.mul_one]
      omega
    · rw [hnext.2, Bool.or_eq_true, decide_eq_true_eq]
      by_cases hsmall : maxLen < headerlen
      · have hmore : maxLen < headerlen * (patterncnt + 1) := by
          rw [Nat.mul_add, Nat.mul_one]
          omega
        simp [hsmall, hmore]
      · have hless : maxLen - headerlen < headerlen * patterncnt ↔
            maxLen < headerlen * (patterncnt + 1) := by
          rw [Nat.mul_add, Nat.mul_one]
          omega
        rw [if_neg hsmall, hless]
        simp [hsmall]

variable {patterncnt : Nat}

theorem gather_first (pattern : List UInt8) (maxLen : Nat)
    (herr : s.err = false) (hcnt : patterncnt > s.pending.length / headerlen) :
    ((s.gather pattern patterncnt maxLen).data.getD []).length =
        pattern.length + min s.pending.length maxLen +
          min (s.pending.length - maxLen) (headerlen * (patterncnt - 1)) +
          (patterncnt - 1) * pattern.length ∧
      ((s.gather pattern patterncnt maxLen).wrapped = true ↔
        maxLen < headerlen * (patterncnt - 1)) := by
  obtain ⟨hadv, htaken, hleft, -⟩ := getDataForWriting_spec maxLen herr
  have hpos : patterncnt > 0 := Nat.lt_of_le_of_lt (Nat.zero_le _) hcnt
  have hmore : patterncnt > (s.dataForWriting.getD []).length / headerlen := hcnt
  have hpending : ((s.getDataForWriting maxLen).1.addPattern pattern).pending =
      s.pending.drop maxLen := hleft
  obtain ⟨hlength, hwrapped⟩ := gatherHeaders_spec
    (s := (s.getDataForWriting maxLen).1.addPattern pattern) pattern (patterncnt - 1)
    (some (pattern ++ (s.getDataForWriting maxLen).2.getD [])) maxLen false (hadv.err.trans herr)
  unfold Stream.gather
  rw [if_pos hpos, if_pos hmore]
  dsimp only
  refine ⟨?_, ?_⟩
  · rw [hlength, hpending, htaken]
    simp only [getD_some, length_append, length_take, length_drop]
    omega
  · rw [hwrapped]
    simp

theorem gather_headers (pattern : List UInt8) (maxLen : Nat) (herr : s.err = false)
    (hpos : patterncnt > 0) (hcnt : ¬patterncnt > s.pending.length / headerlen) :
    ((s.gather pattern patterncnt maxLen).data.getD []).length =
        headerlen * patterncnt + patterncnt * pattern.length ∧
      ((s.gather pattern patterncnt maxLen).wrapped = true ↔ maxLen < headerlen * patterncnt) := by
  have hmore : ¬patterncnt > (s.dataForWriting.getD []).length / headerlen := hcnt
  obtain ⟨hlength, hwrapped⟩ := gatherHeaders_spec pattern patterncnt none maxLen false herr
  have hfits : headerlen * patterncnt ≤ s.pending.length := by
    have hle : patterncnt ≤ s.pending.length / headerlen := Nat.le_of_not_gt hcnt
    rw [Nat.mul_comm]
    exact (Nat.le_div_iff_mul_le (by decide)).mp hle
  unfold Stream.gather
  rw [if_pos hpos, if_neg hmore]
  refine ⟨?_, ?_⟩
  · rw [hlength, Nat.min_eq_right hfits]
    simp
  · rw [hwrapped]
    simp

theorem gather_none (pattern : List UInt8) (maxLen : Nat) (herr : s.err = false) :
    ((s.gather pattern 0 maxLen).data.getD []).length ≤ maxLen ∧
      (s.gather pattern 0 maxLen).wrapped = false := by
  obtain ⟨-, htaken, -, -⟩ := getDataForWriting_spec maxLen herr
  refine ⟨?_, rfl⟩
  show ((s.getDataForWriting maxLen).2.getD []).length ≤ maxLen
  rw [htaken]
  exact length_take_le _ _

theorem gatherHeaders_data_ne_none (pattern : List UInt8) (patterncnt : Nat)
    (data : Option (List UInt8)) (maxLen : Nat) (wrapped : Bool)
    (hsome : data ≠ none ∨ patterncnt > 0) :
    (s.gatherHeaders pattern patterncnt data maxLen wrapped).data ≠ none := by
  induction patterncnt generalizing s data maxLen wrapped with
  | zero => exact hsome.resolve_right (Nat.lt_irrefl 0)
  | succ patterncnt ih =>
    unfold Stream.gatherHeaders
    exact ih _ _ _ (Or.inl (some_ne_none _))

theorem gather_wrapped_of_none {pattern : List UInt8} {maxLen : Nat}
    (h : (s.gather pattern patterncnt maxLen).data = none) :
    (s.gather pattern patterncnt maxLen).wrapped = false := by
  unfold Stream.gather at h ⊢
  split_ifs at h ⊢ with hpos hmore
  · exact absurd h (gatherHeaders_data_ne_none _ _ _ _ _ (Or.inl (some_ne_none _)))
  · exact absurd h (gatherHeaders_data_ne_none _ _ _ _ _ (Or.inr hpos))
  · rfl

end Gather

def Stream.needed (lackbw flagBwUnenough : Bool) (maxLen : Nat) (s : Stream) : Nat :=
  if lackbw = false ∨ s.nextHeaderOff.first = -3 then 0
  else if 0 ≤ s.iStartinx ∧ s.iStartinx < toInt maxLen then 0
  else if 0 ≤ s.nextHeaderOff.first then
    if 0 ≤ s.iStartinx then
      if flagBwUnenough then 0 else 4 + min (s.pending.length - s.nextHeaderOff.first.toNat) 12
    else 16 * s.nextHeaderOff.toList.length + if flagBwUnenough then 0 else 4
  else if s.nextHeaderOff.first = -1 ∧ (flagBwUnenough = false ∨ s.cansendpattern = true) then 4
  else 0

section Bounds

variable {s : Stream} {lackbw flag : Bool} {maxLen : Nat}

theorem copyHeaders_length {data : List UInt8} {offsets : List Int} {headers : List UInt8}
    (h : copyHeaders data offsets = some headers) :
    headers.length = headerlen * offsets.length := by
  induction offsets generalizing headers with
  | nil =>
    cases h
    rfl
  | cons offset rest ih =>
    unfold copyHeaders at h
    split at h
    · cases h
    · obtain ⟨header, hheader, h⟩ := bind_eq_some_iff.mp h
      obtain ⟨later, hlater, h⟩ := bind_eq_some_iff.mp h
      cases h
      unfold slice at hheader
      split at hheader
      next hbounds =>
        cases hheader
        rw [length_append, ih hlater, length_cons, length_take,
          length_drop]
        unfold headerlen at hbounds ⊢
        omega
      · cases hheader

def Gathered.Bounded (gathered : Gathered) (maxLen : Nat) : Prop :=
  (gathered.data.getD []).length ≤ maxLen ∧ gathered.wrapped = false

variable {t : Stream} {patterncnt length : Nat} {d : Discarded}

theorem bounded_first_iff (herr : t.err = false)
    (hpending : t.pending.length = length) (hcnt : patterncnt > length / headerlen)
    (hall : length = headerlen * (patterncnt - 1) ∨ patterncnt = 1) :
    (t.gather patternDiscard patterncnt maxLen).Bounded maxLen ↔
      4 * patterncnt + length ≤ maxLen := by
  subst hpending
  obtain ⟨hlength, hwrapped⟩ := gather_first patternDiscard maxLen herr hcnt
  unfold Gathered.Bounded
  rw [hlength, ← Bool.not_eq_true, hwrapped]
  have hpattern : patternDiscard.length = 4 := rfl
  rw [hpattern]
  unfold headerlen at hcnt hall ⊢
  omega

theorem bounded_headers_iff (herr : t.err = false) (hpending : t.pending.length = length)
    (hpos : patterncnt > 0) (hcnt : ¬patterncnt > length / headerlen) :
    (t.gather patternDiscard patterncnt maxLen).Bounded maxLen ↔ 16 * patterncnt ≤ maxLen := by
  subst hpending
  obtain ⟨hlength, hwrapped⟩ := gather_headers patternDiscard maxLen herr hpos hcnt
  unfold Gathered.Bounded
  rw [hlength, ← Bool.not_eq_true, hwrapped]
  have hpattern : patternDiscard.length = 4 := rfl
  rw [hpattern]
  unfold headerlen
  omega

theorem discardLack_bounded_iff (herr : s.err = false)
    (hfirst : s.nextHeaderOff.first ≠ -3) (h : s.discardLack flag maxLen = some d) :
    (d.stream.gather d.retPattern d.retPatternCnt maxLen).Bounded maxLen ↔
      s.needed true flag maxLen ≤ maxLen := by
  have hlack : ¬(true = false ∨ s.nextHeaderOff.first = -3) := by simp [hfirst]
  have hkept : d.stream.err = false := (discardLack_advanced h).err.trans herr
  unfold Stream.needed
  rw [if_neg hlack]
  unfold Stream.discardLack at h
  dsimp only at h
  by_cases hnow : 0 ≤ s.iStartinx ∧ s.iStartinx < toInt maxLen
  · -- the I-frame starts in this packet
    rw [if_pos hnow] at h ⊢
    cases h
    exact iff_of_true (gather_none _ _ hkept) (Nat.zero_le _)
  rw [if_neg hnow] at h ⊢
  by_cases hheader : 0 ≤ s.nextHeaderOff.first
  · rw [if_pos hheader] at h ⊢
    by_cases hstart : 0 ≤ s.iStartinx
    · -- the buffer starts at the header of the I-frame
      rw [if_pos hstart] at h ⊢
      obtain ⟨t, ht, rfl⟩ := map_eq_some_iff.mp h
      obtain ⟨rest, hrest, rfl⟩ := map_eq_some_iff.mp ht
      have hlength : rest.length = s.pending.length - s.nextHeaderOff.first.toNat := by
        unfold sliceFrom at hrest
        split at hrest
        · cases hrest
          exact length_drop
        · cases hrest
      dsimp only
      cases flag with
      | true => exact iff_of_true (gather_none _ _ hkept) (Nat.zero_le _)
      | false =>
        rw [if_neg Bool.false_ne_true, if_neg Bool.false_ne_true, ← hlength]
        by_cases hshort : 1 > rest.length / headerlen
        · refine (bounded_first_iff hkept rfl hshort (Or.inr rfl)).trans ?_
          unfold headerlen at hshort
          show 4 * 1 + rest.length ≤ maxLen ↔ 4 + min rest.length 12 ≤ maxLen
          omega
        · refine (bounded_headers_iff hkept rfl Nat.one_pos hshort).trans ?_
          unfold headerlen at hshort
          omega
    · -- only the headers are left
      rw [if_neg hstart] at h ⊢
      obtain ⟨headers, hheaders, rfl⟩ := map_eq_some_iff.mp h
      have hlength := copyHeaders_length hheaders
      have hpos : s.nextHeaderOff.toList.length > 0 := by simp [HeaderOffsets.toList]
      dsimp only
      cases flag with
      | true =>
        have hcnt : ¬s.nextHeaderOff.toList.length + 0 > headers.length / headerlen := by
          rw [hlength, Nat.mul_div_cancel_left _ (by decide)]
          omega
        exact bounded_headers_iff hkept rfl hpos hcnt
      | false =>
        have hcnt : s.nextHeaderOff.toList.length + 1 > headers.length / headerlen := by
          rw [hlength, Nat.mul_div_cancel_left _ (by decide)]
          omega
        rw [if_neg Bool.false_ne_true, if_neg Bool.false_ne_true]
        refine (bounded_first_iff hkept rfl hcnt (Or.inl hlength)).trans ?_
        show 4 * (s.nextHeaderOff.toList.length + 1) + headers.length ≤ maxLen ↔ _
        rw [hlength]
        unfold headerlen
        omega
  rw [if_neg hheader] at h ⊢
  by_cases hnone : s.nextHeaderOff.first = -1
  · rw [if_pos hnone] at h
    by_cases hmarker : flag = false ∨ s.cansendpattern = true
    · rw [if_pos hmarker] at h
      cases h
      rw [if_pos ⟨hnone, hmarker⟩]
      exact bounded_first_iff hkept rfl (by decide : 1 > 0 / headerlen) (Or.inr rfl)
    · rw [if_neg hmarker] at h
      cases h
      rw [if_neg (fun hboth => hmarker hboth.2)]
      exact iff_of_true (gather_none _ _ hkept) (Nat.zero_le _)
  · rw [if_neg hnone] at h
    cases h
    rw [if_neg (fun hboth => hnone hboth.1)]
    exact iff_of_true (gather_none _ _ hkept) (Nat.zero_le _)

theorem discardRest_retPatternCnt (h : s.discardRest = some d) : d.retPatternCnt = 0 := by
  unfold Stream.discardRest at h
  dsimp only at h
  split at h
  · obtain ⟨t, -, rfl⟩ := map_eq_some_iff.mp h
    rfl
  split at h <;> cases h <;> rfl

theorem takeData_bounded_iff {flag' : Bool} {gathered : Gathered} (herr : s.err = false)
    (h : s.takeData true lackbw flag maxLen = some (gathered, flag')) :
    gathered.Bounded maxLen ↔ s.needed lackbw flag maxLen ≤ maxLen := by
  obtain ⟨d, hd, he⟩ := map_eq_some_iff.mp h
  cases he
  have hkept : d.stream.err = false := (discard_advanced hd).err.trans herr
  show (d.stream.gather d.retPattern d.retPatternCnt maxLen).Bounded maxLen ↔ _
  rcases discard_stream hd with ⟨-, rfl, hfirst, flag', hlack⟩ | ⟨-, rfl, -, hrest⟩ |
    ⟨hcalm, -, -, hcnt⟩
  · have hiff := discardLack_bounded_iff herr hfirst hlack
    exact hiff
  · rw [discardRest_retPatternCnt hrest, Stream.needed, if_pos (Or.inl rfl)]
    exact iff_of_true (gather_none _ _ hkept) (Nat.zero_le _)
  · rw [hcnt, Stream.needed, if_pos ((hcalm rfl).imp_left And.left)]
    exact iff_of_true (gather_none _ _ hkept) (Nat.zero_le _)

end Bounds

def Emission.InBounds (e : Emission) : Prop :=
  e.frame.minLength + e.frame.dataLen ≤ e.room ∧ e.frame.dataLen ≤ e.sendWindowSize ∧
    e.wrapped = false

def MarkerRoom (maxBytes : Nat) (lackbw : Bool) (st : PopState) (v : Visit) : Prop :=
  match asks maxBytes st v with
  | none => True
  | some (streamID, s) =>
    st.framer.iPriority = true → s.lenOfDataForWriting ≠ 0 →
      s.needed lackbw st.framer.flagBwUnenough (maxLenFor maxBytes st streamID s) ≤
        maxLenFor maxBytes st streamID s

instance (maxBytes : Nat) (lackbw : Bool) (st : PopState) (v : Visit) :
    Decidable (MarkerRoom maxBytes lackbw st v) := by
  unfold MarkerRoom
  split <;> infer_instance

def MarkersFit (f : Framer) : Event → Prop
  | .pop maxBytes lackbw =>
    Along (visit maxBytes lackbw) (MarkerRoom maxBytes lackbw) ⟨f, 0, true⟩ f.visits
  | _ => True

instance (f : Framer) : (event : Event) → Decidable (MarkersFit f event)
  | .pop maxBytes lackbw => inferInstanceAs (Decidable (Along (visit maxBytes lackbw) _ _ _))
  | .openStream _ | .write _ _ | .close _ | .updateWindow _ _ | .flag _ => isTrue trivial

section Visit

variable {maxBytes maxLen streamID : Nat} {lackbw flag : Bool} {st : PopState} {s : Stream}
  {gathered : Gathered}

section

variable (asked : Asked maxBytes lackbw st streamID s maxLen gathered flag)

include asked

theorem Asked.bounded_iff :
    gathered.Bounded maxLen ↔
      (st.framer.iPriority = true → s.lenOfDataForWriting ≠ 0 →
        s.needed lackbw st.framer.flagBwUnenough maxLen ≤ maxLen) := by
  have hdata := asked.data
  unfold popData at hdata
  split at hdata
  next hlen =>
    have herr : s.err = false := by
      by_contra hbroken
      exact hlen (if_pos (by simpa using hbroken))
    cases hpriority : st.framer.iPriority with
    | true =>
      rw [hpriority] at hdata
      rw [takeData_bounded_iff herr hdata]
      simp [hlen]
    | false =>
      rw [hpriority] at hdata
      obtain ⟨htaken, -, hwrapped, -⟩ := takeData_plain herr hdata
      refine iff_of_true ⟨?_, hwrapped⟩ (fun hon => absurd hon Bool.false_ne_true)
      rw [htaken]
      exact length_take_le _ _
  next hlen =>
    cases hdata
    exact iff_of_true ⟨Nat.zero_le _, rfl⟩ (fun _ hne => absurd hne hlen)

theorem Asked.inBounds_iff
    (fin : Bool) (streamWindow connWindow : Nat) :
    Emission.InBounds ⟨⟨streamID, fin, true, s.writeOffset, gathered.data.getD []⟩,
        maxBytes - st.currentLen, st.framer.flowControlManager.sendWindowSize streamID,
        streamWindow, connWindow, gathered.wrapped⟩ ↔ gathered.Bounded maxLen := by
  have hheader := asked.header
  have hmax := asked.maxLen_eq
  have hdata := asked.data
  unfold maxLenFor at hmax
  unfold Emission.InBounds Gathered.Bounded
  dsimp only
  show frameHeaderBytes streamID s + _ ≤ _ ∧ _ ↔ _
  unfold StreamFrame.dataLen
  dsimp only
  by_cases hlen : s.lenOfDataForWriting ≠ 0
  · rw [if_pos hlen] at hmax
    rw [← and_assoc]
    apply and_congr_left'
    omega
  · rw [if_neg hlen] at hmax
    rw [popData, if_neg hlen] at hdata
    cases hdata
    refine iff_of_true ⟨?_, Nat.zero_le _, rfl⟩ ⟨Nat.zero_le _, rfl⟩
    show frameHeaderBytes streamID s + 0 ≤ _
    omega

theorem Asked.bounded_of_none
    (hnone : gathered.data = none) : gathered.Bounded maxLen := by
  have hdata := asked.data
  refine ⟨by rw [hnone]; exact Nat.zero_le _, ?_⟩
  unfold popData at hdata
  split at hdata
  · obtain ⟨d, -, he⟩ := map_eq_some_iff.mp hdata
    cases he
    exact gather_wrapped_of_none hnone
  · cases hdata
    rfl

end

variable {out : List Emission}

theorem visit_inBounds_iff {next : PopState} {v : Visit}
    (hv : visit maxBytes lackbw st v = some (next, out)) :
    (∀ e ∈ out, e.InBounds) ↔ MarkerRoom maxBytes lackbw st v := by
  obtain ⟨asked, hasks, hvisited⟩ := visit_visited hv
  unfold MarkerRoom
  rw [hasks]
  cases hvisited with
  | idle index cont => simp
  | silent streamID maxLen index s gathered flag cont asked data fin =>
    have hmax := asked.maxLen_eq
    subst hmax
    exact iff_of_true (by simp) (asked.bounded_iff.mp (asked.bounded_of_none data))
  | framed streamID maxLen index s gathered flag cont blocked asked due =>
    have hmax := asked.maxLen_eq
    subst hmax
    simp only [mem_singleton, forall_eq]
    exact (asked.inBounds_iff _ _ _).trans asked.bounded_iff

theorem step_inBounds_iff {f next : Framer} {event : Event}
    (hstep : step f event = some (next, out)) : (∀ e ∈ out, e.InBounds) ↔ MarkersFit f event := by
  cases event with
  | pop maxBytes lackbw =>
    obtain ⟨st, hpop, he⟩ := map_eq_some_iff.mp hstep
    cases he
    exact run_forall_iff (fun _ _ _ _ => visit_inBounds_iff) hpop
  | write streamID p =>
    obtain ⟨g, -, he⟩ := map_eq_some_iff.mp hstep
    cases he
    exact iff_of_true (by simp) trivial
  | _ => cases hstep; exact iff_of_true (by simp) trivial

end Visit

-- The frames of a run fit into their packets and into the windows, and no budget wraps,
-- exactly if at every visit the markers fit into the frame.
theorem discard_in_bounds_iff (params : ConnectionParameters) (events : List Event) (f : Framer)
    (log : List Emission) (hrun : run step (newFramer true params) events = some (f, log)) :
    (∀ e ∈ log, e.InBounds) ↔ Along step MarkersFit (newFramer true params) events :=
  run_forall_iff (fun _ _ _ _ => step_inBounds_iff) hrun

def audioPacket : List UInt8 := [6, 0, 0, 0, 0, 0, 0, 8, 1, 0, 0, 0, 1]

theorem discard_in_bounds_example :
    ∃ f log, run step (newFramer true ⟨100, 100, 0, 0, 0, 0⟩)
        [.openStream 5, .write 5 audioPacket, .pop 24 true] = some (f, log) ∧
      ∀ e ∈ log, e.InBounds :=
  ⟨_, _, rfl, (discard_in_bounds_iff ⟨100, 100, 0, 0, 0, 0⟩
    [.openStream 5, .write 5 audioPacket, .pop 24 true] _ _ rfl).mpr (by decide)⟩

-- Two headers and their markers take 36 bytes, but the packet has room for 20.
theorem markers_out_of_bounds :
    ¬∀ (params : ConnectionParameters) (events : List Event) (f : Framer) (log : List Emission),
      Along step Ready (newFramer true params) events →
        run step (newFramer true params) events = some (f, log) → ∀ e ∈ log, e.InBounds := by
  intro h
  have hfits := h ⟨100, 100, 0, 0, 0, 0⟩
    [.openStream 5, .write 5 (audioPacket ++ audioPacket), .pop 24 true] _ _ (by decide) rfl
    _ (List.mem_singleton_self _)
  exact absurd hfits.1 (by decide)

end MpQuic.Framing

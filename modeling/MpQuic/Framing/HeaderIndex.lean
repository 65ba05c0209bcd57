import MpQuic.Framing.IframeRun

namespace MpQuic.Framing

open MpQuic.Library MpQuic.Wire MpQuic.FlowControl List

-- `offset` is the position in the buffer of a header that was recorded, with all of its
-- twelve bytes. The buffer is what is left of the payload in which it was recorded.
def HeaderAt (recorded : List UInt8 → Nat → Prop) (data : List UInt8) (offset : Int) : Prop :=
  ∃ payload start, data = payload.drop start ∧ recorded payload (start + offset.toNat) ∧
    offset.toNat + headerlen ≤ data.length

-- The offsets grow, and a negative one stands alone.
structure Tracked (recorded : List UInt8 → Nat → Prop) (data : List UInt8)
    (offsets : HeaderOffsets) : Prop where
  ascending : offsets.toList.Pairwise (· < ·)
  alone : offsets.first < 0 → offsets.rest = []
  located : ∀ offset ∈ offsets.toList, 0 ≤ offset → HeaderAt recorded data offset

section Offsets

variable {recorded : List UInt8 → Nat → Prop} {data : List UInt8} {offsets : HeaderOffsets}

variable {offset : Int} {other : List UInt8 → Nat → Prop} {list : List Int}

theorem HeaderAt.drop {n : Nat} (h : HeaderAt recorded data offset)
    (hn : (n : Int) ≤ offset) : HeaderAt recorded (data.drop n) (offset - n) := by
  obtain ⟨payload, start, rfl, hrecorded, hlength⟩ := h
  have hoffset : n + (offset - n).toNat = offset.toNat := by omega
  refine ⟨payload, start + n, drop_drop, ?_, ?_⟩
  · rw [Nat.add_assoc, hoffset]
    exact hrecorded
  · rw [length_drop]
    omega

theorem HeaderAt.mono (h : HeaderAt recorded data offset)
    (himp : ∀ payload i, recorded payload i → other payload i) : HeaderAt other data offset := by
  obtain ⟨payload, start, hdata, hrecorded, hlength⟩ := h
  exact ⟨payload, start, hdata, himp payload _ hrecorded, hlength⟩

theorem Tracked.mono (h : Tracked recorded data offsets)
    (himp : ∀ payload i, recorded payload i → other payload i) : Tracked other data offsets :=
  ⟨h.ascending, h.alone, fun offset hoffset hpos => (h.located offset hoffset hpos).mono himp⟩

theorem tracked_none {first : Int} (h : first < 0) : Tracked recorded data ⟨first, []⟩ := by
  refine ⟨pairwise_singleton _ _, fun _ => rfl, ?_⟩
  intro offset hoffset hpos
  obtain rfl : offset = first := mem_singleton.mp hoffset
  omega

theorem tracked_ofList (hsorted : list.Pairwise (· < ·))
    (hlocated : ∀ offset ∈ list, 0 ≤ offset ∧ HeaderAt recorded data offset) :
    Tracked recorded data (HeaderOffsets.ofList list) := by
  cases list with
  | nil => exact tracked_none (by decide)
  | cons first rest =>
    refine ⟨hsorted, ?_, fun offset hoffset _ => (hlocated offset hoffset).2⟩
    intro hneg
    have hpos : 0 ≤ first := (hlocated first mem_cons_self).1
    exact absurd hneg (Int.not_lt.mpr hpos)

theorem Tracked.rest (h : Tracked recorded data offsets) (hoffset : offset ∈ offsets.rest) :
    0 ≤ offsets.first ∧ offsets.first < offset ∧ HeaderAt recorded data offset := by
  have hfirst : 0 ≤ offsets.first := by
    by_contra hneg
    rw [h.alone (Int.not_le.mp hneg)] at hoffset
    cases hoffset
  have hlater : offsets.first < offset := (pairwise_cons.mp h.ascending).1 offset hoffset
  exact ⟨hfirst, hlater, h.located offset (mem_cons_of_mem _ hoffset) (by omega)⟩

theorem Tracked.next (h : Tracked recorded data offsets) : Tracked recorded data offsets.next := by
  apply tracked_ofList (pairwise_cons.mp h.ascending).2
  intro offset hoffset
  obtain ⟨hfirst, hlater, hat⟩ := h.rest hoffset
  exact ⟨by omega, hat⟩

theorem tracked_shift (n : Nat) (hsorted : list.Pairwise (· < ·))
    (hlocated : ∀ offset ∈ list, (n : Int) ≤ offset ∧ HeaderAt recorded data offset) :
    Tracked recorded (data.drop n) (HeaderOffsets.ofList (list.map (· - (n : Int)))) := by
  apply tracked_ofList
  · rw [pairwise_map]
    exact hsorted.imp fun hlt => by omega
  · intro offset hoffset
    obtain ⟨old, hold, rfl⟩ := mem_map.mp hoffset
    obtain ⟨hle, hat⟩ := hlocated old hold
    exact ⟨by omega, hat.drop hle⟩

theorem Tracked.nextFromFirst (h : Tracked recorded data offsets) (hfirst : 0 ≤ offsets.first) :
    Tracked recorded (data.drop offsets.first.toNat) offsets.nextFromFirst := by
  have hlocated : ∀ offset ∈ offsets.rest,
      (offsets.first.toNat : Int) ≤ offset ∧ HeaderAt recorded data offset := by
    intro offset hoffset
    obtain ⟨-, hlater, hat⟩ := h.rest hoffset
    exact ⟨by omega, hat⟩
  have hshift := tracked_shift offsets.first.toNat (pairwise_cons.mp h.ascending).2 hlocated
  rw [Int.toNat_of_nonneg hfirst] at hshift
  exact hshift

theorem Tracked.behind (h : Tracked recorded data offsets) (n : Nat) :
    Tracked recorded (data.drop n) (offsets.behind n) := by
  apply tracked_shift n (h.ascending.filter _)
  intro offset hoffset
  obtain ⟨hin, hlater⟩ := mem_filter.mp hoffset
  have hlater : (n : Int) < offset := of_decide_eq_true hlater
  exact ⟨by omega, h.located offset hin (by omega)⟩

theorem behind_eq_none {maxLen : Int} (h : ∀ offset ∈ offsets.toList, offset ≤ maxLen) :
    offsets.behind maxLen = ⟨-1, []⟩ := by
  have hnone : offsets.toList.filter (· > maxLen) = [] := by
    rw [filter_eq_nil_iff]
    intro offset hoffset
    have hle := h offset hoffset
    simpa using hle
  rw [HeaderOffsets.behind, hnone]
  rfl

theorem copyHeaders_isSome (h : ∀ offset ∈ list, 0 ≤ offset ∧ HeaderAt recorded data offset) :
    ∃ headers, copyHeaders data list = some headers := by
  induction list with
  | nil => exact ⟨[], rfl⟩
  | cons offset rest ih =>
    obtain ⟨hpos, _, _, _, _, hlength⟩ := h offset mem_cons_self
    obtain ⟨later, hlater⟩ := ih fun other hother => h other (mem_cons_of_mem _ hother)
    have hslice := slice_eq (Nat.le_add_right offset.toNat headerlen) hlength
    exact ⟨_, by rw [copyHeaders, if_neg (Int.not_lt.mpr hpos), hslice, hlater]; rfl⟩

end Offsets

section Gather

variable {s : Stream}

theorem getDataForWriting_nextHeaderOff (maxBytes : Nat) :
    (s.getDataForWriting maxBytes).1.nextHeaderOff = s.nextHeaderOff := by
  unfold Stream.getDataForWriting
  split
  · rfl
  split
  · rfl
  split <;> rfl

theorem gatherHeaders_index (pattern : List UInt8) (patterncnt : Nat) (data : Option (List UInt8))
    {maxLen : Nat} (wrapped : Bool) (herr : s.err = false) (hmax : maxLen < 2 ^ 63)
    (hfits : headerlen * patterncnt ≤ maxLen + 1) :
    (s.gatherHeaders pattern patterncnt data maxLen wrapped).stream.pending =
        s.pending.drop (headerlen * patterncnt) ∧
      (s.gatherHeaders pattern patterncnt data maxLen wrapped).stream.nextHeaderOff =
        s.nextHeaderOff ∧
      toInt (s.gatherHeaders pattern patterncnt data maxLen wrapped).maxLen =
        (maxLen : Int) - (headerlen * patterncnt : Nat) := by
  induction patterncnt generalizing s data maxLen wrapped with
  | zero =>
    refine ⟨rfl, rfl, ?_⟩
    rw [Nat.mul_zero]
    exact (toInt_of_lt hmax).trans (by omega)
  | succ patterncnt ih =>
    obtain ⟨hadv, -, hleft, -⟩ := getDataForWriting_spec headerlen herr
    have hpending : ((s.getDataForWriting headerlen).1.addPattern pattern).pending =
        s.pending.drop headerlen := hleft
    have hoffsets : ((s.getDataForWriting headerlen).1.addPattern pattern).nextHeaderOff =
        s.nextHeaderOff := getDataForWriting_nextHeaderOff headerlen
    have hheaderlen : headerlen = 12 := rfl
    rw [Nat.mul_add, Nat.mul_one] at hfits ⊢
    unfold Stream.gatherHeaders
    dsimp only
    by_cases hsmall : maxLen < headerlen
    · -- only the last header can go below zero
      obtain rfl : patterncnt = 0 := by
        by_contra hne
        have hmore : headerlen * 1 ≤ headerlen * patterncnt :=
          Nat.mul_le_mul_left _ (Nat.pos_of_ne_zero hne)
        omega
      obtain rfl : maxLen = 11 := by omega
      refine ⟨?_, hoffsets, ?_⟩
      · rw [Nat.mul_zero, Nat.zero_add]
        exact hpending
      · show toInt (11 + 2 ^ 64 - 12) = _
        decide
    · rw [if_neg hsmall]
      obtain ⟨hdrop, hsame, hbudget⟩ := ih
        (s := (s.getDataForWriting headerlen).1.addPattern pattern)
        (some (data.getD [] ++ (s.getDataForWriting headerlen).2.getD [] ++ pattern))
        (wrapped || maxLen < headerlen) (hadv.err.trans herr)
        (show maxLen - headerlen < 2 ^ 63 by omega) (by omega)
      refine ⟨?_, hsame.trans hoffsets, ?_⟩
      · rw [hdrop, hpending, drop_drop, Nat.add_comm]
      · rw [hbudget]
        omega

end Gather

-- The index is shifted by what is taken from the buffer. That is so unless a marker
-- goes in front of headers that are left, and even then if there is room for the
-- headers that come with a marker and no later header is out of this packet. For a
-- room of 24 bytes the shift is right by chance.
def Stream.ShiftFits (lackbw flagBwUnenough : Bool) (maxLen : Nat) (s : Stream) : Prop :=
  maxLen < 2 ^ 63 ∧
    (lackbw = true → 0 ≤ s.nextHeaderOff.first →
      ¬(0 ≤ s.iStartinx ∧ s.iStartinx < (maxLen : Int)) →
        if 0 ≤ s.iStartinx then
          flagBwUnenough = false → headerlen ≤ maxLen + 1 ∧
            (maxLen = 2 * headerlen ∨ ∀ offset ∈ s.nextHeaderOff.rest,
              offset - s.nextHeaderOff.first ≤ (maxLen : Int) - headerlen)
        else headerlen * s.nextHeaderOff.toList.length ≤ maxLen + 1)

instance (lackbw flagBwUnenough : Bool) (maxLen : Nat) (s : Stream) :
    Decidable (s.ShiftFits lackbw flagBwUnenough maxLen) := by
  unfold Stream.ShiftFits
  infer_instance

section Take

variable {recorded : List UInt8 → Nat → Prop} {s : Stream} {lackbw flag : Bool} {maxLen : Nat}

def Gathered.Tracked (recorded : List UInt8 → Nat → Prop) (gathered : Gathered) : Prop :=
  MpQuic.Framing.Tracked recorded gathered.stream.pending
    (gathered.stream.nextHeaderOff.behind (toInt gathered.maxLen))

theorem gather_none_tracked (pattern : List UInt8) (herr : s.err = false) (hmax : maxLen < 2 ^ 63)
    (h : Tracked recorded s.pending s.nextHeaderOff) :
    (s.gather pattern 0 maxLen).Tracked recorded := by
  obtain ⟨-, -, hleft, -⟩ := getDataForWriting_spec maxLen herr
  show Tracked recorded (s.getDataForWriting maxLen).1.pending
    ((s.getDataForWriting maxLen).1.nextHeaderOff.behind (toInt maxLen))
  rw [hleft, getDataForWriting_nextHeaderOff, toInt_of_lt hmax]
  exact h.behind maxLen

theorem gather_tracked_of_le (pattern : List UInt8) {patterncnt : Nat} (headers : Nat)
    (herr : s.err = false) (hmax : maxLen < 2 ^ 63) (hfits : headerlen * headers ≤ maxLen + 1)
    (hcnt : patterncnt = headers ∧ 0 < headers ∧ headerlen * headers ≤ s.pending.length ∨
      patterncnt = headers + 1 ∧ s.pending.length < headerlen * (headers + 1))
    (hle : ∀ offset ∈ s.nextHeaderOff.toList,
      offset ≤ (maxLen : Int) - (headerlen * headers : Nat)) :
    (s.gather pattern patterncnt maxLen).Tracked recorded := by
  have hheaderlen : headerlen = 12 := rfl
  unfold Gathered.Tracked Stream.gather
  have hpending : s.pending = s.dataForWriting.getD [] := rfl
  rcases hcnt with ⟨rfl, hpos, hlength⟩ | ⟨rfl, hlength⟩
  · have hless : ¬patterncnt > (s.dataForWriting.getD []).length / headerlen := by
      rw [← hpending, Nat.not_lt, Nat.le_div_iff_mul_le (by decide), Nat.mul_comm]
      exact hlength
    obtain ⟨-, hoffsets, hbudget⟩ := gatherHeaders_index pattern patterncnt none false herr hmax hfits
    rw [if_pos hpos, if_neg hless, hoffsets, hbudget, behind_eq_none hle]
    exact tracked_none (by decide)
  · have hmore : headers + 1 > (s.dataForWriting.getD []).length / headerlen := by
      rw [← hpending, gt_iff_lt, Nat.div_lt_iff_lt_mul (by decide), Nat.mul_comm]
      exact hlength
    obtain ⟨hadv, -, -, -⟩ := getDataForWriting_spec maxLen herr
    obtain ⟨-, hoffsets, hbudget⟩ := gatherHeaders_index
      (s := (s.getDataForWriting maxLen).1.addPattern pattern) pattern headers
      (some (pattern ++ (s.getDataForWriting maxLen).2.getD [])) false (hadv.err.trans herr) hmax
      hfits
    have hsame : ((s.getDataForWriting maxLen).1.addPattern pattern).nextHeaderOff =
        s.nextHeaderOff := getDataForWriting_nextHeaderOff maxLen
    rw [if_pos (Nat.succ_pos _), if_pos hmore]
    dsimp only
    rw [Nat.add_sub_cancel, hoffsets, hsame, hbudget, behind_eq_none hle]
    exact tracked_none (by decide)

theorem gather_tracked_of_twice (pattern : List UInt8) (herr : s.err = false)
    (hlength : headerlen ≤ s.pending.length) (h : Tracked recorded s.pending s.nextHeaderOff) :
    (s.gather pattern 1 (2 * headerlen)).Tracked recorded := by
  unfold Gathered.Tracked Stream.gather
  have hless : ¬1 > (s.dataForWriting.getD []).length / headerlen := by
    have hpending : s.pending = s.dataForWriting.getD [] := rfl
    rw [← hpending, Nat.not_lt, Nat.le_div_iff_mul_le (by decide), Nat.one_mul]
    exact hlength
  obtain ⟨hdrop, hoffsets, hbudget⟩ := gatherHeaders_index pattern 1 none false herr
    (show 2 * headerlen < 2 ^ 63 by decide) (by decide)
  rw [if_pos Nat.one_pos, if_neg hless, hdrop, hoffsets, hbudget]
  exact h.behind headerlen

variable (herr : s.err = false) (h : Tracked recorded s.pending s.nextHeaderOff)

include herr h

theorem discardLack_tracked (hfits : s.ShiftFits true flag maxLen) :
    ∃ d, s.discardLack flag maxLen = some d ∧
      (d.stream.gather d.retPattern d.retPatternCnt maxLen).Tracked recorded := by
  obtain ⟨hmax, hshift⟩ := hfits
  have hint := toInt_of_lt hmax
  unfold Stream.discardLack
  dsimp only
  by_cases hnow : 0 ≤ s.iStartinx ∧ s.iStartinx < toInt maxLen
  · -- the I-frame starts in this packet
    rw [if_pos hnow]
    refine ⟨_, rfl, gather_none_tracked [] herr hmax ?_⟩
    show Tracked recorded s.pending (if s.nextHeaderOff.first < toInt maxLen then
      s.nextHeaderOff.next else s.nextHeaderOff)
    split
    · exact h.next
    · exact h
  rw [if_neg hnow]
  rw [hint] at hnow
  by_cases hheader : 0 ≤ s.nextHeaderOff.first
  · rw [if_pos hheader]
    have hneed := hshift rfl hheader hnow
    obtain ⟨-, -, -, -, hlength⟩ := h.located s.nextHeaderOff.first mem_cons_self hheader
    by_cases hstart : 0 ≤ s.iStartinx
    · -- the buffer starts at the header of the I-frame
      rw [if_pos hstart] at hneed ⊢
      have hslice : sliceFrom (s.dataForWriting.getD []) s.nextHeaderOff.first.toNat =
          some (s.pending.drop s.nextHeaderOff.first.toNat) :=
        sliceFrom_eq (Nat.le_trans (Nat.le_add_right _ _) hlength)
      unfold Stream.dropToHeader
      dsimp only
      rw [hslice]
      refine ⟨_, rfl, ?_⟩
      have hnext := h.nextFromFirst hheader
      have hleft : headerlen ≤ (s.pending.drop s.nextHeaderOff.first.toNat).length := by
        rw [length_drop]
        omega
      cases flag with
      | true => exact gather_none_tracked _ herr hmax hnext
      | false =>
        obtain ⟨hroom, rfl | hbehind⟩ := hneed rfl
        · exact gather_tracked_of_twice _ herr hleft hnext
        · refine gather_tracked_of_le _ 1 herr hmax hroom (Or.inl ⟨rfl, Nat.one_pos, hleft⟩) ?_
          intro offset hoffset
          rw [Nat.mul_one]
          have hoffset : offset ∈ s.nextHeaderOff.nextFromFirst.toList := hoffset
          unfold HeaderOffsets.nextFromFirst at hoffset
          cases hrest : s.nextHeaderOff.rest with
          | nil =>
            rw [hrest] at hoffset
            obtain rfl : offset = -1 := by simpa [HeaderOffsets.ofList, HeaderOffsets.toList]
              using hoffset
            omega
          | cons second others =>
            rw [toList_ofList (by simp [hrest])] at hoffset
            obtain ⟨old, hold, rfl⟩ := mem_map.mp hoffset
            exact hbehind old hold
    · -- only the headers are left
      rw [if_neg hstart] at hneed ⊢
      have hall : ∀ offset ∈ s.nextHeaderOff.toList,
          0 ≤ offset ∧ HeaderAt recorded s.pending offset := by
        intro offset hoffset
        rcases mem_cons.mp hoffset with rfl | hlater
        · exact ⟨hheader, h.located _ mem_cons_self hheader⟩
        · obtain ⟨-, hlt, hat⟩ := h.rest hlater
          exact ⟨by omega, hat⟩
      obtain ⟨headers, hheaders⟩ := copyHeaders_isSome hall
      have hcopied : copyHeaders (s.dataForWriting.getD []) s.nextHeaderOff.toList = some headers :=
        hheaders
      have hcopy := copyHeaders_length hheaders
      rw [hcopied]
      refine ⟨_, rfl, ?_⟩
      refine gather_tracked_of_le _ s.nextHeaderOff.toList.length herr hmax hneed ?_ ?_
      · show (s.nextHeaderOff.toList.length + _ = _ ∧ _ ∧ _ ≤ headers.length) ∨
          (s.nextHeaderOff.toList.length + _ = _ ∧ headers.length < _)
        rw [hcopy]
        cases flag with
        | true => exact Or.inl ⟨rfl, Nat.succ_pos _, Nat.le_refl _⟩
        | false => exact Or.inr ⟨rfl, Nat.mul_lt_mul_of_pos_left (Nat.lt_succ_self _) (by decide)⟩
      · intro offset hoffset
        obtain rfl : offset = -1 := by simpa [HeaderOffsets.toList] using hoffset
        omega
  rw [if_neg hheader]
  have hneg : s.nextHeaderOff.first < 0 := Int.not_le.mp hheader
  have halone : s.nextHeaderOff = ⟨s.nextHeaderOff.first, []⟩ := by
    rw [← h.alone hneg]
  by_cases hnone : s.nextHeaderOff.first = -1
  · rw [if_pos hnone]
    have hle : ∀ offset ∈ s.nextHeaderOff.toList, offset ≤ (maxLen : Int) - (headerlen * 0 : Nat) := by
      intro offset hoffset
      rw [halone] at hoffset
      obtain rfl : offset = s.nextHeaderOff.first := mem_singleton.mp hoffset
      omega
    by_cases hmarker : flag = false ∨ s.cansendpattern = true
    · rw [if_pos hmarker]
      exact ⟨_, rfl, gather_tracked_of_le _ 0 herr hmax (Nat.zero_le _)
        (Or.inr ⟨rfl, Nat.zero_lt_succ 11⟩) hle⟩
    · rw [if_neg hmarker]
      refine ⟨_, rfl, gather_none_tracked _ herr hmax ?_⟩
      show Tracked recorded [] s.nextHeaderOff
      rw [halone]
      exact tracked_none hneg
  · rw [if_neg hnone]
    exact ⟨_, rfl, gather_none_tracked _ herr hmax h⟩

theorem discardRest_tracked (hmax : maxLen < 2 ^ 63) :
    ∃ d, s.discardRest = some d ∧
      (d.stream.gather d.retPattern d.retPatternCnt maxLen).Tracked recorded := by
  unfold Stream.discardRest
  dsimp only
  by_cases hheader : 0 ≤ s.nextHeaderOff.first
  · rw [if_pos hheader]
    obtain ⟨-, -, -, -, hlength⟩ := h.located s.nextHeaderOff.first mem_cons_self hheader
    have hslice : sliceFrom (s.dataForWriting.getD []) s.nextHeaderOff.first.toNat =
        some (s.pending.drop s.nextHeaderOff.first.toNat) :=
      sliceFrom_eq (Nat.le_trans (Nat.le_add_right _ _) hlength)
    unfold Stream.dropToHeader
    dsimp only
    rw [hslice]
    exact ⟨_, rfl, gather_none_tracked _ herr hmax (h.nextFromFirst hheader)⟩
  rw [if_neg hheader]
  by_cases hnone : s.nextHeaderOff.first = -1
  · rw [if_pos hnone]
    refine ⟨_, rfl, gather_none_tracked _ herr hmax ?_⟩
    show Tracked recorded [] s.nextHeaderOff
    have hneg : s.nextHeaderOff.first < 0 := Int.not_le.mp hheader
    have halone : s.nextHeaderOff = ⟨s.nextHeaderOff.first, []⟩ := by
      rw [← h.alone hneg]
    rw [halone]
    exact tracked_none hneg
  · rw [if_neg hnone]
    exact ⟨_, rfl, gather_none_tracked _ herr hmax h⟩

theorem discard_tracked (hfits : s.ShiftFits lackbw flag maxLen) :
    ∃ d, s.discard true lackbw flag maxLen = some d ∧
      (d.stream.gather d.retPattern d.retPatternCnt maxLen).Tracked recorded := by
  have hfirst : ∃ d, (if true && lackbw && s.nextHeaderOff.first ≠ -3 then
      s.discardLack flag maxLen
      else if true && !lackbw && flag then s.discardRest
      else some ⟨s, flag, [], 0⟩) = some d ∧
        (d.stream.gather d.retPattern d.retPatternCnt maxLen).Tracked recorded := by
    split
    next hlack =>
      simp only [Bool.true_and, Bool.and_eq_true] at hlack
      rw [hlack.1] at hfits
      exact discardLack_tracked herr h hfits
    next =>
      split
      · exact discardRest_tracked herr h hfits.1
      · exact ⟨_, rfl, gather_none_tracked [] herr hfits.1 h⟩
  obtain ⟨d, hd, htracked⟩ := hfirst
  unfold Stream.discard
  dsimp only
  rw [hd]
  refine ⟨_, rfl, ?_⟩
  dsimp only
  split <;> exact htracked

theorem takeData_tracked (hfits : s.ShiftFits lackbw flag maxLen) :
    ∃ gathered flag', s.takeData true lackbw flag maxLen = some (gathered, flag') ∧
      Tracked recorded gathered.stream.pending gathered.stream.nextHeaderOff := by
  obtain ⟨d, hd, htracked⟩ := discard_tracked herr h hfits
  unfold Stream.takeData
  rw [hd]
  refine ⟨_, _, rfl, ?_⟩
  dsimp only
  generalize hindices : Stream.updateIndices _ _ = settled
  obtain ⟨start, stop, rfl⟩ := updateIndices_eq hindices
  exact htracked

end Take

end MpQuic.Framing

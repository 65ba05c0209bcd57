import MpQuic.Wire.Parse

namespace MpQuic.Wire

open MpQuic.Library List

-- What a receiver may rely on: the ranges lie below each other, with a missing packet
-- number between them, and nothing is beyond the largest packet number.
structure AckBlocks.Sound (f : AckBlocks) : Prop where
  lowest : f.lowestAcked ≤ f.largestAcked
  several : f.ackRanges ≠ [] → 2 ≤ f.ackRanges.length
  ordered : ∀ r ∈ f.ackRanges, r.first ≤ r.last ∧ r.last ≤ f.largestAcked
  descend : f.ackRanges.Pairwise fun upper lower => lower.last + 1 < upper.first
  highest : ∀ r, f.ackRanges.head? = some r → r.last = f.largestAcked

def AckRange.Spans (r : AckRange) (length : Nat) : Prop :=
  r.last < 2 ^ 64 ∧ r.first = (sub64 r.last length + 1) % 2 ^ 64

-- The end of the range is not the largest integer, or the range starts beyond every
-- packet number.
def AckRange.Tame (r : AckRange) : Prop :=
  r.last + 1 < 2 ^ 64 ∨ 2 ^ 48 ≤ r.first

section Ranges

variable {r : AckRange} {length gap : Nat}

theorem AckRange.Spans.tame (h : r.Spans length) (hpos : 0 < length) (hlt : length < 2 ^ 48) :
    r.Tame := by
  by_cases hlast : r.last + 1 < 2 ^ 64
  · exact Or.inl hlast
  · right
    have heq : r.last = 2 ^ 64 - 1 := by
      have := h.1
      omega
    rw [h.2, heq, sub64_of_le (by omega) (by omega)]
    omega

theorem AckRange.Spans.continued (h : r.Spans 0) (hgap : gap < 2 ^ 8) (hlength : length < 2 ^ 48) :
    AckRange.Spans ⟨sub64 r.first (gap + length), sub64 r.last gap⟩ length := by
  refine ⟨sub64_lt _ _, ?_⟩
  obtain ⟨hlast, hfirst⟩ := h
  rw [sub64_of_le (Nat.zero_le _) hlast] at hfirst
  dsimp only
  rw [hfirst]
  unfold sub64
  omega

end Ranges

-- The ranges that the loop over the blocks has read. Only the one at the front may still
-- be continued.
def BlockState.Kept (st : BlockState) : Prop :=
  ∃ head before, st.ackRanges = head :: before ∧ (∀ r ∈ before, r.Tame) ∧
    (st.inLongBlock = true → head.Spans 0) ∧ (st.inLongBlock = false → head.Tame) ∧
    (st.lastRangeComplete = true → st.inLongBlock = false)

section Blocks

variable {st : BlockState} {block : AckBlock}

theorem kept_of_spans {head : AckRange} {before : List AckRange} {complete : Bool}
    (hspans : head.Spans block.length) (hlength : block.length < 2 ^ 48)
    (hbefore : ∀ r ∈ before, r.Tame) (hcomplete : complete = true → block.length ≠ 0) :
    BlockState.Kept ⟨head :: before, block.length = 0, complete⟩ := by
  refine ⟨head, before, rfl, hbefore, fun hlong => ?_, fun hshort => ?_, fun hdone => ?_⟩
  · rw [of_decide_eq_true hlong] at hspans
    exact hspans
  · exact hspans.tame (Nat.pos_of_ne_zero (of_decide_eq_false hshort)) hlength
  · exact decide_eq_false (hcomplete hdone)

theorem BlockState.Kept.addBlock (h : st.Kept) (hgap : block.gap < 2 ^ 8)
    (hlength : block.length < 2 ^ 48) : (addBlock st block).Kept := by
  obtain ⟨head, before, hranges, hbefore, hlong, hshort, hcomplete⟩ := h
  unfold Wire.addBlock
  rw [hranges]
  dsimp only
  split
  next hin =>
    have hspans := (hlong hin).continued hgap hlength
    refine kept_of_spans hspans hlength hbefore fun hdone => ?_
    have hopen : st.lastRangeComplete = false := by
      by_contra hc
      rw [hcomplete (Bool.eq_true_of_not_eq_false hc)] at hin
      cases hin
    rw [hopen, Bool.false_or, decide_eq_true_eq] at hdone
    exact Nat.ne_of_gt hdone
  next hout =>
    have hspans : AckRange.Spans
        ⟨(sub64 (sub64 (sub64 head.first block.gap) 1) block.length + 1) % 2 ^ 64,
          sub64 (sub64 head.first block.gap) 1⟩ block.length := ⟨sub64_lt _ _, rfl⟩
    have htame := hshort (Bool.eq_false_of_not_eq_true hout)
    refine kept_of_spans hspans hlength ?_ fun hdone => ?_
    · intro r hr
      rcases mem_cons.mp hr with rfl | hr
      · exact htame
      · exact hbefore r hr
    · exact Nat.ne_of_gt (of_decide_eq_true hdone)

theorem BlockState.Kept.foldl (blocks : List AckBlock) (h : st.Kept)
    (hblocks : ∀ block ∈ blocks, block.gap < 2 ^ 8 ∧ block.length < 2 ^ 48) :
    (blocks.foldl Wire.addBlock st).Kept := by
  induction blocks generalizing st with
  | nil => exact h
  | cons block rest ih =>
    obtain ⟨hgap, hlength⟩ := hblocks block mem_cons_self
    exact ih (h.addBlock hgap hlength) fun b hb => hblocks b (mem_cons_of_mem _ hb)

theorem rangesOfBlocks_tame {largestAcked ackBlockLength : Nat} {blocks : List AckBlock}
    (hlargest : largestAcked < 2 ^ 48)
    (hblocks : ∀ block ∈ blocks, block.gap < 2 ^ 8 ∧ block.length < 2 ^ 48) :
    ∀ r ∈ rangesOfBlocks largestAcked ackBlockLength blocks, r.Tame := by
  have hstart : BlockState.Kept
      ⟨[⟨(sub64 largestAcked ackBlockLength + 1) % 2 ^ 64, largestAcked⟩], false, false⟩ := by
    refine ⟨_, [], rfl, ?_, fun hlong => absurd hlong Bool.false_ne_true, fun _ => ?_, fun _ => rfl⟩
    · intro r hr
      cases hr
    · left
      dsimp only
      omega
  obtain ⟨head, before, hranges, hbefore, -, hshort, hcomplete⟩ := hstart.foldl blocks hblocks
  intro r hr
  unfold rangesOfBlocks at hr
  rw [mem_reverse] at hr
  split at hr
  next hdone =>
    rw [hranges] at hr
    rcases mem_cons.mp hr with rfl | hr
    · exact hshort (hcomplete hdone)
    · exact hbefore r hr
  next =>
    rw [hranges] at hr
    exact hbefore r hr

end Blocks

section Valid

variable {f : AckBlocks}

theorem descend_of_rangesDescend {ranges : List AckRange}
    (hd : AckBlocks.rangesDescend ranges = true) (hordered : ∀ r ∈ ranges, r.first ≤ r.last)
    (htame : ∀ r ∈ ranges, r.Tame) (hhead : ∀ r, ranges.head? = some r → r.first < 2 ^ 48) :
    ranges.Pairwise fun upper lower => lower.last + 1 < upper.first := by
  induction ranges with
  | nil => exact List.Pairwise.nil
  | cons upper rest ih =>
    cases rest with
    | nil => exact pairwise_singleton _ _
    | cons lower later =>
      simp only [AckBlocks.rangesDescend, Bool.and_eq_true, Bool.not_eq_true',
        decide_eq_false_iff_not, Nat.not_le] at hd
      obtain ⟨⟨hfirst, hlast⟩, hrest⟩ := hd
      have hsmall : upper.first < 2 ^ 48 := hhead upper rfl
      have hwrap : lower.last + 1 < 2 ^ 64 := by
        rcases htame lower (by simp) with hwrap | hbeyond
        · exact hwrap
        · omega
      rw [Nat.mod_eq_of_lt hwrap] at hlast
      have hlater := ih hrest (fun r hr => hordered r (mem_cons_of_mem _ hr))
        (fun r hr => htame r (mem_cons_of_mem _ hr))
        (fun r hr => by cases hr; omega)
      refine pairwise_cons.mpr ⟨fun r hr => ?_, hlater⟩
      rcases mem_cons.mp hr with rfl | hr
      · exact hlast
      · have hbelow := (pairwise_cons.mp hlater).1 r hr
        omega

theorem validateAckRanges_cons {a b : AckRange} {rest : List AckRange}
    (hranges : f.ackRanges = a :: b :: rest) (hv : f.validateAckRanges = true) :
    a.last = f.largestAcked ∧ (∀ r ∈ f.ackRanges, r.first ≤ r.last) ∧
      AckBlocks.rangesDescend f.ackRanges = true := by
  unfold AckBlocks.validateAckRanges at hv
  rw [hranges] at hv ⊢
  simp only [Bool.and_eq_true, all_eq_true, Bool.not_eq_true', decide_eq_false_iff_not,
    Nat.not_lt, decide_eq_true_eq, gt_iff_lt] at hv
  exact ⟨hv.1.1, hv.1.2, hv.2⟩

theorem sound_of_validateAckRanges (hlargest : f.largestAcked < 2 ^ 48)
    (htame : ∀ r ∈ f.ackRanges, r.Tame)
    (hlowest : ∀ r, f.ackRanges.getLast? = some r → f.lowestAcked = r.first)
    (hnone : f.ackRanges = [] → f.lowestAcked ≤ f.largestAcked)
    (hv : f.validateAckRanges = true) : f.Sound := by
  cases hranges : f.ackRanges with
  | nil =>
    refine ⟨hnone hranges, fun hne => absurd hranges hne, ?_, ?_, ?_⟩
    · simp [hranges]
    · simp [hranges]
    · simp [hranges]
  | cons a rest =>
    cases rest with
    | nil => simp [AckBlocks.validateAckRanges, hranges] at hv
    | cons b later =>
      obtain ⟨hlast, hordered, hd⟩ := validateAckRanges_cons hranges hv
      have ha : a.first ≤ a.last := hordered a (by simp [hranges])
      have hdescend := descend_of_rangesDescend hd hordered htame (fun r hr => by
        rw [hranges] at hr
        cases hr
        omega)
      have hbelow : ∀ r ∈ f.ackRanges, r.last ≤ f.largestAcked := by
        intro r hr
        rw [hranges] at hr hdescend
        rcases mem_cons.mp hr with rfl | hr
        · exact Nat.le_of_eq hlast
        · have := (pairwise_cons.mp hdescend).1 r hr
          omega
      refine ⟨?_, fun _ => by simp [hranges], fun r hr => ⟨hordered r hr, hbelow r hr⟩, hdescend,
        fun r hr => ?_⟩
      · have hne : f.ackRanges ≠ [] := by simp [hranges]
        have hmem := getLast_mem hne
        rw [hlowest _ (List.getLast?_eq_some_getLast hne)]
        exact Nat.le_trans (hordered _ hmem) (hbelow _ hmem)
      · rw [hranges] at hr
        cases hr
        exact hlast

end Valid

section Parsers

variable (order : ByteOrder)

theorem yields_readUintN (length : Nat) :
    Yields (readUintN order length) fun value => value < 256 ^ length := by
  unfold readUintN
  refine Yields.bind (Yields.take _ length) fun bytes hlength => ?_
  apply Yields.pure
  rw [← hlength]
  cases order with
  | littleEndian => exact ofLowBytes_lt bytes
  | bigEndian =>
    have h := ofLowBytes_lt bytes.reverse
    rw [length_reverse] at h
    exact h

theorem lengthOfBits_le {bits : UInt8} (h : bits ≤ 3) : lengthOfBits bits ≤ 6 := by
  have hnat : bits.toNat ≤ 3 := UInt8.le_iff_toNat_le.mp h
  unfold lengthOfBits
  split <;> omega

theorem largestAckedLen_le (flags : UInt8) : largestAckedLen flags ≤ 6 := by
  apply lengthOfBits_le
  revert flags
  decide +kernel

theorem missingSequenceNumberDeltaLen_le (flags : UInt8) :
    missingSequenceNumberDeltaLen flags ≤ 6 := by
  apply lengthOfBits_le
  revert flags
  decide +kernel

theorem yields_lt48 {length : Nat} (h : length ≤ 6) :
    Yields (readUintN order length) fun value => value < 2 ^ 48 := by
  intro tokens value rest hrun
  have hlt := yields_readUintN order length tokens value rest hrun
  have hpow : 256 ^ length ≤ 256 ^ 6 := Nat.pow_le_pow_right (by norm_num) h
  omega

theorem yields_parseBlocks {deltaLen : Nat} (h : deltaLen ≤ 6) (count : Nat) :
    Yields (parseBlocks order deltaLen count) fun blocks =>
      ∀ block ∈ blocks, block.gap < 2 ^ 8 ∧ block.length < 2 ^ 48 := by
  induction count with
  | zero =>
    apply Yields.pure
    intro block hblock
    cases hblock
  | succ count ih =>
    rw [parseBlocks]
    refine Yields.bind (Yields.any readByte) fun gap _ => ?_
    refine Yields.bind (yields_lt48 order h) fun length hlength => ?_
    refine Yields.bind ih fun later hlater => ?_
    apply Yields.pure
    intro block hblock
    rcases mem_cons.mp hblock with rfl | hblock
    · exact ⟨gap.toNat_lt, hlength⟩
    · exact hlater block hblock

theorem yields_parseAckBlocks {hasMissingRanges : Bool} {numAckBlocks largestAcked deltaLen : Nat}
    (hlargest : largestAcked < 2 ^ 48) (hdelta : deltaLen ≤ 6) :
    Yields (parseAckBlocks order hasMissingRanges numAckBlocks largestAcked deltaLen)
      AckBlocks.Sound := by
  have hoptional : Yields (Parser.optional hasMissingRanges [] (parseBlocks order deltaLen numAckBlocks))
      fun blocks => ∀ block ∈ blocks, block.gap < 2 ^ 8 ∧ block.length < 2 ^ 48 := by
    apply Yields.optional
    · intro _ block hblock
      cases hblock
    · intro _
      exact yields_parseBlocks order hdelta numAckBlocks
  unfold parseAckBlocks
  refine Yields.bind (yields_lt48 order hdelta) fun ackBlockLength hlength => ?_
  refine Yields.bind (Yields.check _ _) fun _ hfirst => ?_
  refine Yields.bind (Yields.check _ _) fun _ hle => ?_
  refine Yields.bind hoptional fun blocks hblocks => ?_
  refine Yields.bind (Yields.check _ _) fun _ hv => ?_
  apply Yields.pure
  apply sound_of_validateAckRanges hlargest _ _ _ hv
  · intro r hr
    dsimp only at hr
    split at hr
    · exact rangesOfBlocks_tame hlargest hblocks r hr
    · cases hr
  · intro r hr
    dsimp only at hr ⊢
    cases hasMissingRanges with
    | true =>
      simp only [if_true] at hr ⊢
      rw [hr]
      rfl
    | false => cases hr
  · intro hnil
    dsimp only at hnil ⊢
    cases hasMissingRanges with
    | true =>
      simp only [if_true] at hnil ⊢
      rw [hnil]
      exact Nat.zero_le _
    | false =>
      simp only [Bool.false_eq_true, if_false]
      split
      · exact Nat.zero_le _
      next hzero =>
        have hle := of_decide_eq_true hle
        simp [Nat.pos_of_ne_zero hzero] at hfirst
        rw [sub64_of_le (by omega) (by omega)]
        omega

theorem yields_parseAckFrame (version : Int) :
    Yields (parseAckFrame version) fun f => f.toAckBlocks.Sound := by
  unfold parseAckFrame
  refine Yields.bind (Yields.any readByte) fun typeByte _ => ?_
  refine Yields.bind (Yields.any _) fun pathID _ => ?_
  refine Yields.bind (yields_lt48 _ (largestAckedLen_le typeByte)) fun largestAcked hlargest => ?_
  refine Yields.bind (Yields.any _) fun delay _ => ?_
  refine Yields.bind (Yields.any _) fun numAckBlocks _ => ?_
  refine Yields.bind (yields_parseAckBlocks _ hlargest
    (missingSequenceNumberDeltaLen_le typeByte)) fun blocks hblocks => ?_
  refine Yields.bind (Yields.any _) fun numTimestamp _ => ?_
  refine Yields.bind (Yields.any _) fun _ _ => ?_
  exact Yields.pure hblocks

theorem yields_parseClosePathFrame (version : Int) :
    Yields (parseClosePathFrame version) fun f => f.toAckBlocks.Sound := by
  unfold parseClosePathFrame
  refine Yields.bind (Yields.any readByte) fun _ _ => ?_
  refine Yields.bind (Yields.any readByte) fun pathID _ => ?_
  refine Yields.bind (Yields.any readByte) fun flags _ => ?_
  refine Yields.bind (Yields.any _) fun numAckBlocks _ => ?_
  refine Yields.bind (yields_lt48 _ (largestAckedLen_le flags)) fun largestAcked hlargest => ?_
  refine Yields.bind (yields_parseAckBlocks _ hlargest
    (missingSequenceNumberDeltaLen_le flags)) fun blocks hblocks => ?_
  exact Yields.pure hblocks

end Parsers

-- Whatever the two parsers accept is sound, and no integer wrapped around.
theorem parsed_acks_are_sound (version : Int) :
    (∀ bytes f rest, (parseAckFrame version).run bytes = .ok (f, rest) → f.toAckBlocks.Sound) ∧
      ∀ bytes f rest, (parseClosePathFrame version).run bytes = .ok (f, rest) →
        f.toAckBlocks.Sound :=
  ⟨yields_parseAckFrame version, yields_parseClosePathFrame version⟩

theorem parsed_acks_are_sound_example :
    (parseAckFrame 512).run [0x60, 10, 0, 0, 1, 3, 2, 5, 0] =
        .ok (⟨⟨10, 1, [⟨8, 10⟩, ⟨1, 5⟩]⟩, 0, 0⟩, []) ∧
      AckBlocks.Sound ⟨10, 1, [⟨8, 10⟩, ⟨1, 5⟩]⟩ :=
  ⟨rfl, (parsed_acks_are_sound 512).1 [0x60, 10, 0, 0, 1, 3, 2, 5, 0]
    ⟨⟨10, 1, [⟨8, 10⟩, ⟨1, 5⟩]⟩, 0, 0⟩ [] rfl⟩

end MpQuic.Wire

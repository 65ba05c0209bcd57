import MpQuic.Wire.AckBlocks
import MpQuic.Wire.ReadBack

namespace MpQuic.Wire

open MpQuic.Library List Parses

-- A report of received packets, as unsigned 64-bit integers, that starts at a positive packet
-- number, where its lowest range does.
structure AckBlocks.Consistent (f : AckBlocks) : Prop extends AckBlocks.Sound f where
  positive : 1 ≤ f.lowestAcked
  unsigned : f.largestAcked < 2 ^ 64
  consistent : ∀ r, f.ackRanges.getLast? = some r → r.first = f.lowestAcked

-- On the wire there are at most 48 bits for a packet number.
structure AckBlocks.WellFormed (f : AckBlocks) : Prop extends AckBlocks.Consistent f where
  bounded : f.largestAcked < 2 ^ 48

-- What a frame with at most 255 blocks can say about the ranges: `g` has as many of them
-- as fit, from the highest one on.
structure AckBlocks.LongestFitting (f g : AckBlocks) : Prop where
  largest : g.largestAcked = f.largestAcked
  front : g.ackRanges <+: f.ackRanges
  fits : blockCount g.ackRanges ≤ 0xFF
  longest : ∀ ranges, ranges <+: f.ackRanges → blockCount ranges ≤ 0xFF → ranges <+: g.ackRanges
  lowest : g.lowestAcked = (g.ackRanges.getLast?.map AckRange.first).getD f.lowestAcked

-- The packets missing between the two highest ranges fit in 254 blocks.
def AckBlocks.FirstGapFits (f : AckBlocks) : Prop :=
  match f.ackRanges with
  | upper :: lower :: _ => upper.first - lower.last - 1 ≤ 254 * 255
  | _ => True

def AckBlocks.fitting (f : AckBlocks) : AckBlocks :=
  match f.ackRanges with
  | [] => f
  | ackRange :: rest =>
    let front := ackRange :: fittingRest 0 ackRange rest
    ⟨f.largestAcked, (front.getLast?.map AckRange.first).getD f.lowestAcked, front⟩

section Lengths

variable {f : AckBlocks}

namespace AckBlocks.Consistent

theorem lowest_le (h : f.Consistent) : ∀ r ∈ f.ackRanges, f.lowestAcked ≤ r.first := by
  intro r hr
  obtain ⟨front, last, hranges⟩ :=
    (eq_nil_or_concat' f.ackRanges).resolve_left (ne_nil_of_mem hr)
  have hlast : last.first = f.lowestAcked := h.consistent last (by simp [hranges])
  have hordered := (h.ordered last (by simp [hranges])).1
  rw [hranges] at hr
  rcases mem_append.mp hr with hfront | hmem
  · have hdescend := h.descend
    rw [hranges] at hdescend
    have hbelow := (pairwise_append.mp hdescend).2.2 r hfront last (by simp)
    omega
  · rw [mem_singleton.mp hmem]
    omega

theorem chain (h : f.Consistent) : f.ackRanges.IsChain AckRange.Above := by
  refine (h.descend.imp_of_mem fun {upper lower} hupper hlower hbelow => ?_).isChain
  have hpos := h.positive
  have hlow := h.lowest_le lower hlower
  have hup := h.ordered upper hupper
  have hbound := h.unsigned
  exact ⟨by omega, (h.ordered lower hlower).1, hbelow, by omega⟩

theorem length_le (h : f.Consistent) :
    ∀ r ∈ f.ackRanges, 0 < r.length ∧ r.length ≤ f.largestAcked := by
  intro r hr
  have hpos := h.positive
  have hlow := h.lowest_le r hr
  have hr := h.ordered r hr
  have hbound := h.unsigned
  rw [AckRange.length_eq (by omega) hr.1 (by omega)]
  omega

end AckBlocks.Consistent

theorem le_foldl_max (values : List Nat) (start : Nat) :
    start ≤ values.foldl max start ∧ ∀ value ∈ values, value ≤ values.foldl max start := by
  induction values generalizing start with
  | nil => simp
  | cons head tail ih =>
    obtain ⟨hstart, htail⟩ := ih (max start head)
    rw [foldl_cons]
    refine ⟨by omega, fun value hvalue => ?_⟩
    rcases mem_cons.mp hvalue with rfl | hvalue
    · omega
    · exact htail value hvalue

theorem foldl_max_lt {values : List Nat} {start bound : Nat} (hstart : start < bound)
    (hvalues : ∀ value ∈ values, value < bound) : values.foldl max start < bound := by
  induction values generalizing start with
  | nil => exact hstart
  | cons head tail ih =>
    have hhead := hvalues head mem_cons_self
    exact ih (Nat.max_lt.mpr ⟨hstart, hhead⟩) fun value hvalue =>
      hvalues value (mem_cons_of_mem _ hvalue)

theorem AckBlocks.Consistent.maxRangeLength_le (h : f.Consistent) :
    f.maxRangeLength ≤ f.largestAcked := by
  have hbound := h.unsigned
  have hpos := h.positive
  unfold AckBlocks.maxRangeLength
  split
  · refine Nat.lt_succ_iff.mp (foldl_max_lt (Nat.succ_pos _) fun value hvalue => ?_)
    obtain ⟨r, hr, rfl⟩ := mem_map.mp hvalue
    exact Nat.lt_succ_iff.mpr (h.length_le r hr).2
  · have hlowest := h.lowest
    rw [sub64_of_le hlowest (by omega), Nat.mod_eq_of_lt (by omega)]
    omega

namespace AckBlocks.WellFormed

theorem firstAckBlockLength_eq (h : f.WellFormed) :
    f.firstAckBlockLength =
      f.largestAcked - (f.ackRanges.head?.elim f.lowestAcked AckRange.first) + 1 := by
  have hbound := h.bounded
  have hlow := h.lowest
  cases hranges : f.ackRanges with
  | nil =>
    simp only [firstAckBlockLength, hranges, List.head?_nil, Option.elim_none]
    rw [sub64_of_le hlow (by omega), Nat.mod_eq_of_lt (by omega)]
  | cons a rest =>
    have ha := h.ordered a (by simp [hranges])
    simp only [firstAckBlockLength, hranges, List.head?_cons, Option.elim_some]
    rw [sub64_of_le (by omega) (by omega), Nat.mod_eq_of_lt (by omega)]

theorem firstAckBlockLength_le (h : f.WellFormed) : f.firstAckBlockLength ≤ f.maxRangeLength := by
  unfold firstAckBlockLength maxRangeLength hasMissingRanges
  cases hranges : f.ackRanges with
  | nil => simp
  | cons a rest =>
    have hlast : a.last = f.largestAcked := h.highest a (by simp [hranges])
    have hle := (le_foldl_max ((a :: rest).map AckRange.length) 0).2 a.length (by simp)
    simp only [length_cons, gt_iff_lt, Nat.zero_lt_succ, decide_true, if_true]
    rw [← hlast]
    exact hle

theorem length_le_maxRangeLength {r : AckRange} (hr : r ∈ f.ackRanges) :
    r.length ≤ f.maxRangeLength := by
  have hmissing : f.hasMissingRanges = true := by
    simp only [hasMissingRanges, gt_iff_lt, decide_eq_true_eq]
    exact length_pos_of_mem hr
  unfold maxRangeLength
  rw [if_pos hmissing]
  exact (le_foldl_max _ 0).2 _ (mem_map_of_mem hr)

end AckBlocks.WellFormed

theorem deltaLen_spec (h : f.WellFormed) :
    f.getMissingSequenceNumberDeltaLen ∈ packetNumberLengths ∧
      f.maxRangeLength < 256 ^ f.getMissingSequenceNumberDeltaLen := by
  have hle := h.maxRangeLength_le
  have hbound := h.bounded
  unfold AckBlocks.getMissingSequenceNumberDeltaLen packetNumberLengths
  split_ifs <;> refine ⟨by simp, ?_⟩ <;> omega

end Lengths

section Fields

variable {f : AckBlocks} (order : ByteOrder)

theorem ackTypeByte_spec (h : f.WellFormed) (missing : Bool) (pathID : Nat) :
    let typeByte : UInt8 := 0x40 ^^^ f.lengthBits
    let typeByte := if missing then typeByte ||| 0x20 else typeByte
    let typeByte := if pathID ≠ 0 then typeByte ||| 0x10 else typeByte
    decide (typeByte &&& 0x20 = 0x20) = missing ∧
      decide (typeByte &&& 0x10 = 0x10) = decide (pathID ≠ 0) ∧
      largestAckedLen typeByte = getPacketNumberLength f.largestAcked ∧
      missingSequenceNumberDeltaLen typeByte = f.getMissingSequenceNumberDeltaLen := by
  have hlargest := (getPacketNumberLength_spec h.bounded).1
  have hdelta := (deltaLen_spec h).1
  obtain ⟨onPath, hpath⟩ : ∃ onPath : Bool, (pathID ≠ 0) = (onPath = true) :=
    ⟨decide (pathID ≠ 0), by simp⟩
  rw [AckBlocks.lengthBits]
  generalize getPacketNumberLength f.largestAcked = largestLen at hlargest ⊢
  generalize f.getMissingSequenceNumberDeltaLen = deltaLen at hdelta ⊢
  simp only [hpath, Bool.decide_eq_true]
  clear hpath
  revert missing onPath largestLen deltaLen
  decide +kernel

theorem closePathFlags_spec (h : f.WellFormed) (missing : Bool) :
    let flags := if missing then 0x10 ^^^ f.lengthBits else f.lengthBits
    decide (flags &&& 0x10 = 0x10) = missing ∧
      largestAckedLen flags = getPacketNumberLength f.largestAcked ∧
      missingSequenceNumberDeltaLen flags = f.getMissingSequenceNumberDeltaLen := by
  have hlargest := (getPacketNumberLength_spec h.bounded).1
  have hdelta := (deltaLen_spec h).1
  rw [AckBlocks.lengthBits]
  generalize getPacketNumberLength f.largestAcked = largestLen at hlargest ⊢
  generalize f.getMissingSequenceNumberDeltaLen = deltaLen at hdelta ⊢
  revert missing largestLen deltaLen
  decide +kernel

theorem parses_parseBlocks {deltaLen : Nat} {blocks : List AckBlock}
    (h : ∀ block ∈ blocks, block.gap < 2 ^ 8 ∧ block.length < 256 ^ deltaLen) :
    Parses (parseBlocks order deltaLen blocks.length)
      (blocks.flatMap (AckBlocks.writeBlock order deltaLen)) blocks := by
  induction blocks with
  | nil => exact Parses.pure []
  | cons block rest ih =>
    obtain ⟨hgap, hlength⟩ := h block mem_cons_self
    have hrest := ih fun b hb => h b (mem_cons_of_mem _ hb)
    have hread : (UInt8.ofNat block.gap).toNat = block.gap := UInt8.toNat_ofNat_of_lt' hgap
    rw [flatMap_cons, AckBlocks.writeBlock, cons_append, length_cons, parseBlocks]
    apply bind_cons (parses_readByte _)
    apply Parses.bind (parses_readUintN order hlength)
    apply Parses.last hrest
    rw [hread]
    exact Parses.pure _

theorem mem_rangeBlocks {gap length : Nat} (hgap : 0 < gap) :
    ∀ block ∈ rangeBlocks gap length, block.gap < 2 ^ 8 ∧ block.length ≤ length := by
  intro block hblock
  rw [rangeBlocks_eq hgap] at hblock
  rcases mem_append.mp hblock with hfront | hlast
  · rw [eq_of_mem_replicate hfront]
    exact ⟨by norm_num, Nat.zero_le _⟩
  · rw [mem_singleton.mp hlast]
    refine ⟨?_, Nat.le_refl _⟩
    dsimp only
    unfold numBlocks
    split <;> omega

theorem mem_chainBlocks {bound : Nat} {a : AckRange} {rest : List AckRange}
    (hchain : List.IsChain AckRange.Above (a :: rest)) (hbound : ∀ r ∈ rest, r.length ≤ bound) :
    ∀ block ∈ chainBlocks a rest, block.gap < 2 ^ 8 ∧ block.length ≤ bound := by
  induction rest generalizing a with
  | nil =>
    intro block hblock
    cases hblock
  | cons b later ih =>
    obtain ⟨habove, hlater⟩ := isChain_cons_cons.mp hchain
    intro block hblock
    rw [chainBlocks] at hblock
    rcases mem_append.mp hblock with hfirst | hrest
    · have hgap := habove.gap_eq
      have hbelow := habove.below
      obtain ⟨hlt, hle⟩ := mem_rangeBlocks (by omega) block hfirst
      exact ⟨hlt, Nat.le_trans hle (hbound b mem_cons_self)⟩
    · exact ih hlater (fun r hr => hbound r (mem_cons_of_mem _ hr)) block hrest

theorem rangesDescend_of_chain {ranges : List AckRange}
    (hchain : ranges.IsChain AckRange.Above) : AckBlocks.rangesDescend ranges = true := by
  induction ranges with
  | nil => rfl
  | cons a rest ih =>
    cases rest with
    | nil => rfl
    | cons b later =>
      obtain ⟨habove, hlater⟩ := isChain_cons_cons.mp hchain
      have hordered := habove.ordered
      have hbelow := habove.below
      have hbound := habove.bound
      rw [AckBlocks.rangesDescend, ih hlater, Nat.mod_eq_of_lt (by omega)]
      simp only [Bool.and_true, Bool.and_eq_true, Bool.not_eq_true', decide_eq_false_iff_not,
        Nat.not_le]
      omega

end Fields

theorem parses_everything (order : ByteOrder) {f : AckBlocks} (h : f.WellFormed)
    (hnone : f.ackRanges = []) :
    Parses (parseAckBlocks order false 0 f.largestAcked f.getMissingSequenceNumberDeltaLen)
      (f.writeBlocks order []) f := by
  have hpos := h.positive
  have hlow := h.lowest
  have hbound := h.bounded
  have hfirst := h.firstAckBlockLength_eq
  simp only [hnone, List.head?_nil, Option.elim_none] at hfirst
  have hread := Nat.lt_of_le_of_lt h.firstAckBlockLength_le (deltaLen_spec h).2
  unfold AckBlocks.writeBlocks parseAckBlocks
  apply Parses.bind (parses_readUintN order hread)
  rw [hfirst]
  apply bind_nil (Parses.check _ (by simp))
  apply bind_nil (Parses.check _ (by rw [decide_eq_true_eq]; omega))
  apply bind_nil (Parses.absent _ _)
  apply bind_nil (Parses.check _ rfl)
  have hresult : f = ⟨f.largestAcked, sub64 (f.largestAcked + 1)
      (f.largestAcked - f.lowestAcked + 1), []⟩ := by
    rw [sub64_of_le (by omega) (by omega), ← hnone,
      show f.largestAcked + 1 - (f.largestAcked - f.lowestAcked + 1) = f.lowestAcked by omega]
  simp only [Bool.false_eq_true, if_false]
  rw [if_neg (by omega), ← hresult]
  exact Parses.pure f

section Ranges

variable {f : AckBlocks} {a b : AckRange} {front : List AckRange}

theorem numBlocks_lt_iff {gap : Nat} : numBlocks gap < 0xFF ↔ gap ≤ 254 * 255 := by
  unfold numBlocks
  split <;> omega

namespace AckBlocks.Consistent

section

variable (h : f.Consistent)

include h

theorem chain_front (hfront : front <+: f.ackRanges) :
    front.IsChain AckRange.Above := by
  obtain ⟨beyond, hranges⟩ := hfront
  have hchain := h.chain
  rw [← hranges] at hchain
  exact hchain.left_of_append

theorem last_eq (hfront : a :: front <+: f.ackRanges) :
    a.last = f.largestAcked := by
  obtain ⟨beyond, hranges⟩ := hfront
  exact h.highest a (by simp [← hranges])

theorem validate (hfront : a :: b :: front <+: f.ackRanges)
    (lowestAcked : Nat) :
    AckBlocks.validateAckRanges ⟨f.largestAcked, lowestAcked, a :: b :: front⟩ = true := by
  have hlast : a.last = f.largestAcked := h.last_eq hfront
  have hordered : ∀ r ∈ a :: b :: front, r.first ≤ r.last := fun r hr =>
    (h.ordered r (hfront.subset hr)).1
  simp only [validateAckRanges, Bool.and_eq_true, decide_eq_true_eq, all_eq_true,
    Bool.not_eq_true', decide_eq_false_iff_not, Nat.not_lt, gt_iff_lt]
  exact ⟨⟨hlast, hordered⟩, rangesDescend_of_chain (h.chain_front hfront)⟩

theorem fittingRest_eq {rest : List AckRange}
    (hranges : f.ackRanges = a :: rest) (hfit : f.FirstGapFits) :
    ∃ b front beyond, fittingRest 0 a rest = b :: front ∧ rest = b :: front ++ beyond := by
  obtain ⟨beyond, hbeyond⟩ := fittingRest_front 0 a rest
  cases rest with
  | nil =>
    have hseveral := h.several (by simp [hranges])
    simp [hranges] at hseveral
  | cons b later =>
    have hchain := h.chain
    rw [hranges] at hchain
    have hgap := (isChain_cons_cons.mp hchain).1.gap_eq
    simp only [AckBlocks.FirstGapFits, hranges] at hfit
    have hlt : numBlocks (a.gap b) < 0xFF := numBlocks_lt_iff.mpr (by omega)
    have hcons : fittingRest 0 a (b :: later) = b :: fittingRest (0 + numBlocks (a.gap b)) b later := by
      rw [fittingRest, if_pos (by omega)]
    exact ⟨b, _, beyond, hcons, by rw [← hcons, hbeyond]⟩

theorem numWritableNackRanges_eq {rest : List AckRange}
    (hranges : f.ackRanges = a :: rest) :
    f.numWritableNackRanges = (chainBlocks a (fittingRest 0 a rest)).length + 1 := by
  have hchain := h.chain
  rw [hranges] at hchain
  simp only [numWritableNackRanges, hranges]
  rw [countWritable_eq 0 hchain, Nat.zero_add]

theorem blocks_eq_written {rest : List AckRange}
    (hranges : f.ackRanges = a :: rest) :
    f.blocks =
      if f.numWritableNackRanges ≠ (writtenBlocks f.numWritableNackRanges 1 a rest).2 then
        .error .bugInconsistentAckRanges
      else .ok (writtenBlocks f.numWritableNackRanges 1 a rest).1 := by
  have hlast : a.last = f.largestAcked := h.highest a (by simp [hranges])
  have hlowest : f.lowestAcked = ((a :: rest).getLast?.map AckRange.first).getD 0 := by
    have hsome := List.getLast?_eq_some_getLast (cons_ne_nil a rest)
    rw [hsome]
    exact (h.consistent _ (by rw [hranges, hsome])).symm
  unfold blocks
  rw [hranges]
  dsimp only
  rw [if_neg (not_not_intro hlast.symm), if_neg (not_not_intro hlowest)]

theorem blocks_eq {rest beyond : List AckRange} (hranges : f.ackRanges = a :: rest)
    (hrest : rest = b :: front ++ beyond) (hfitting : fittingRest 0 a rest = b :: front) :
    f.blocks = .ok (chainBlocks a (b :: front)) := by
  have hnum := h.numWritableNackRanges_eq hranges
  rw [hfitting] at hnum
  have hwritten := writtenBlocks_eq 1 beyond
    (h.chain_front ⟨beyond, by rw [hranges, hrest]; rfl⟩)
  rw [Nat.add_comm 1, ← hrest, ← hnum] at hwritten
  rw [h.blocks_eq_written hranges, hwritten]
  exact if_neg (not_not_intro rfl)

theorem blocks_error (hfit : ¬f.FirstGapFits) :
    f.blocks = .error .bugInconsistentAckRanges := by
  cases hranges : f.ackRanges with
  | nil => exact absurd (by simp [FirstGapFits, hranges]) hfit
  | cons a rest =>
    cases rest with
    | nil => exact absurd (by simp [FirstGapFits, hranges]) hfit
    | cons b later =>
      have hchain := h.chain
      rw [hranges] at hchain
      have habove := (isChain_cons_cons.mp hchain).1
      have hgap := habove.gap_eq
      simp only [FirstGapFits, hranges] at hfit
      have hmany : ¬numBlocks (a.gap b) < 0xFF := fun hlt =>
        hfit (by rw [← hgap]; exact numBlocks_lt_iff.mp hlt)
      have hnum : f.numWritableNackRanges = 1 := by
        simp only [numWritableNackRanges, hranges, countWritable]
        rw [if_neg (by omega)]
      have hwritten : writtenBlocks 1 1 a (b :: later) =
          (rangeBlocks (a.gap b) b.length, 1 + numBlocks (a.gap b)) := by
        simp only [writtenBlocks, habove.length_rangeBlocks]
        rw [if_pos (by omega)]
      rw [h.blocks_eq_written hranges, hnum, hwritten, if_pos (by dsimp only; omega)]

theorem blocks_ok_iff : (∃ blocks, f.blocks = .ok blocks) ↔ f.FirstGapFits := by
  constructor
  · rintro ⟨blocks, hblocks⟩
    by_contra hfit
    rw [h.blocks_error hfit] at hblocks
    cases hblocks
  · intro hfit
    cases hranges : f.ackRanges with
    | nil => exact ⟨[], by simp [blocks, hranges]⟩
    | cons a rest =>
      obtain ⟨b, front, beyond, hfitting, hrest⟩ := h.fittingRest_eq hranges hfit
      exact ⟨_, h.blocks_eq hranges hrest hfitting⟩

theorem longestFitting : f.LongestFitting f.fitting := by
  cases hranges : f.ackRanges with
  | nil =>
    simp only [fitting, hranges]
    refine ⟨rfl, prefix_rfl, by simp [hranges, blockCount], fun ranges hfront _ => hfront, ?_⟩
    simp [hranges]
  | cons a rest =>
    have hchain := h.chain
    have hfront : a :: fittingRest 0 a rest <+: f.ackRanges := by
      rw [hranges]
      exact cons_prefix_cons.mpr ⟨rfl, fittingRest_front 0 a rest⟩
    rw [hranges] at hchain
    simp only [fitting, hranges]
    refine ⟨rfl, hfront, ?_, ?_, rfl⟩
    · have hcount := countWritable_eq 0 hchain
      have hlt := countWritable_lt (by omega : 0 < 0xFF) a rest
      rw [blockCount_cons (h.chain_front hfront)]
      omega
    · intro ranges hothers hfits
      cases ranges with
      | nil => exact nil_prefix
      | cons c later =>
        rw [blockCount_cons (h.chain_front hothers)] at hfits
        rw [hranges] at hothers
        obtain ⟨rfl, hlater⟩ := cons_prefix_cons.mp hothers
        have hlonger : later <+: fittingRest 0 c rest :=
          fittingRest_longest hchain hlater (by omega)
        exact cons_prefix_cons.mpr ⟨rfl, hlonger⟩

end

end AckBlocks.Consistent

theorem AckBlocks.WellFormed.parses_ranges (h : f.WellFormed) (order : ByteOrder)
    (hfront : a :: b :: front <+: f.ackRanges) :
    Parses (parseAckBlocks order true (chainBlocks a (b :: front)).length f.largestAcked
        f.getMissingSequenceNumberDeltaLen)
      (f.writeBlocks order (chainBlocks a (b :: front)))
      ⟨f.largestAcked, ((a :: b :: front).getLast?.map AckRange.first).getD 0,
        a :: b :: front⟩ := by
  have hchain := h.chain_front hfront
  have hlast := h.last_eq hfront
  have hmem := hfront.subset mem_cons_self
  have ha := (h.ordered a hmem).1
  have hpos := h.positive
  have hlow := h.lowest_le a hmem
  have hfirst := h.firstAckBlockLength_eq
  rw [show f.ackRanges.head? = some a by obtain ⟨beyond, hranges⟩ := hfront; simp [← hranges],
    Option.elim_some] at hfirst
  have hread := Nat.lt_of_le_of_lt h.firstAckBlockLength_le (deltaLen_spec h).2
  have hblocks : ∀ block ∈ chainBlocks a (b :: front), block.gap < 2 ^ 8 ∧
      block.length < 256 ^ f.getMissingSequenceNumberDeltaLen := by
    intro block hblock
    have hbound : ∀ r ∈ b :: front, r.length ≤ f.maxRangeLength := fun r hr =>
      AckBlocks.WellFormed.length_le_maxRangeLength (hfront.subset (mem_cons_of_mem _ hr))
    obtain ⟨hgap, hlength⟩ := mem_chainBlocks hchain hbound block hblock
    exact ⟨hgap, Nat.lt_of_le_of_lt hlength (deltaLen_spec h).2⟩
  have hback : rangesOfBlocks f.largestAcked (f.largestAcked - a.first + 1)
      (chainBlocks a (b :: front)) = a :: b :: front := by
    rw [← hlast]
    exact rangesOfBlocks_chainBlocks ha (by rw [hlast]; exact h.unsigned) hchain
  unfold AckBlocks.writeBlocks parseAckBlocks
  apply Parses.bind (parses_readUintN order hread)
  rw [hfirst]
  apply bind_nil (Parses.check _ (by simp))
  apply bind_nil (Parses.check _ (by rw [decide_eq_true_eq]; omega))
  apply Parses.last (Parses.present _ (parses_parseBlocks order hblocks))
  dsimp only
  simp only [if_true, hback]
  apply bind_nil (Parses.check _ (h.validate hfront _))
  exact Parses.pure _

end Ranges

structure AckBlocks.Readable (order : ByteOrder) (f : AckBlocks) (blocks : List AckBlock)
    (numAckBlocks : Nat) : Prop where
  written : f.blocks = .ok blocks
  short : ∀ block ∈ blocks, block.length < 2 ^ 48
  counted : Parses (parseNumBlocks f.hasMissingRanges) f.numBlocksByte numAckBlocks
  ranges : Parses (parseAckBlocks order f.hasMissingRanges numAckBlocks f.largestAcked
    f.getMissingSequenceNumberDeltaLen) (f.writeBlocks order blocks) f.fitting

section Frames

variable {f : AckBlocks}

theorem AckBlocks.WellFormed.readable (h : f.WellFormed) (hfit : f.FirstGapFits)
    (order : ByteOrder) : ∃ blocks numAckBlocks, f.Readable order blocks numAckBlocks := by
  cases hranges : f.ackRanges with
  | nil =>
    have hmissing : f.hasMissingRanges = false := by simp [hasMissingRanges, hranges]
    have hfitting : f.fitting = f := by simp [fitting, hranges]
    refine ⟨[], 0, by simp [blocks, hranges], by simp, ?_, ?_⟩
    · rw [numBlocksByte, hmissing]
      unfold parseNumBlocks
      apply bind_nil (Parses.absent _ _)
      apply bind_nil (Parses.check _ rfl)
      exact Parses.pure 0
    · rw [hmissing, hfitting]
      exact parses_everything order h hranges
  | cons a rest =>
    obtain ⟨b, front, beyond, hfitting, hrest⟩ := h.fittingRest_eq hranges hfit
    have hfront : a :: b :: front <+: f.ackRanges := ⟨beyond, by rw [hranges, hrest]; rfl⟩
    have hchain := h.chain
    rw [hranges] at hchain
    have hmissing : f.hasMissingRanges = true := by simp [hasMissingRanges, hranges]
    have hnum := h.numWritableNackRanges_eq hranges
    have hcount := countWritable_eq 0 hchain
    have hlt := countWritable_lt (by omega : 0 < 0xFF) a rest
    rw [hfitting] at hnum hcount
    have habove := (isChain_cons_cons.mp (h.chain_front hfront)).1
    have hsome : 0 < (chainBlocks a (b :: front)).length := by
      rw [chainBlocks, length_append, habove.length_rangeBlocks]
      have hpos := habove.numBlocks_pos
      omega
    refine ⟨chainBlocks a (b :: front), (chainBlocks a (b :: front)).length,
      h.blocks_eq hranges hrest hfitting, ?_, ?_, ?_⟩
    · have hbound : ∀ r ∈ b :: front, r.length ≤ 2 ^ 48 - 1 := fun r hr => by
        have hle := (h.length_le r (hfront.subset (mem_cons_of_mem _ hr))).2
        have hbounded := h.bounded
        omega
      intro block hblock
      have := (mem_chainBlocks (h.chain_front hfront) hbound block hblock).2
      omega
    · rw [numBlocksByte, hmissing, if_pos rfl, hnum, Nat.add_sub_cancel]
      unfold parseNumBlocks
      apply Parses.last (Parses.present _ (parses_count (by omega)))
      apply bind_nil (Parses.check _ (by
        rw [Bool.true_and, decide_eq_false (Nat.ne_of_gt hsome)]
        rfl))
      exact Parses.pure _
    · have hresult : f.fitting = ⟨f.largestAcked,
          ((a :: b :: front).getLast?.map AckRange.first).getD 0, a :: b :: front⟩ := by
        simp only [fitting, hranges, hfitting]
        rw [List.getLast?_eq_some_getLast (cons_ne_nil a (b :: front))]
        rfl
      rw [hmissing, hresult]
      exact h.parses_ranges order hfront

theorem parses_pathID {pathID : Nat} (h : pathID < 2 ^ 8) :
    Parses (Parser.optional (decide (pathID ≠ 0)) 0 (UInt8.toNat <$> readByte))
      (if pathID ≠ 0 then [UInt8.ofNat pathID] else []) pathID := by
  by_cases hzero : pathID = 0
  · subst hzero
    exact Parses.absent _ 0
  · rw [if_pos hzero, decide_eq_true hzero]
    exact Parses.present 0 (parses_count h)

theorem AckFrame.parses_write (version : Int) {f : AckFrame} (h : f.WellFormed)
    (hpath : f.pathID < 2 ^ 8) (hfit : f.FirstGapFits) :
    ∃ bytes, f.write version = .ok bytes ∧ Parses (parseAckFrame version) bytes
      { f.fitting with
        pathID := f.pathID, delayTime := (rounded (microseconds f.delayTime) : Int) * 1000 } := by
  obtain ⟨blocks, numAckBlocks, hreadable⟩ := h.readable hfit (getByteOrder version)
  obtain ⟨hmissing, honPath, hlargest, hdelta⟩ := ackTypeByte_spec h f.hasMissingRanges f.pathID
  have hlargestLen := (getPacketNumberLength_spec h.bounded).2
  unfold AckFrame.write
  rw [hreadable.written]
  refine ⟨_, rfl, ?_⟩
  simp only [append_assoc, singleton_append]
  unfold parseAckFrame
  apply bind_cons (parses_readByte _)
  dsimp only
  rw [hmissing, honPath, hlargest, hdelta]
  apply Parses.bind (parses_pathID hpath)
  apply Parses.bind (parses_readUintN _ hlargestLen)
  apply Parses.bind (parses_readUfloat16 _ _)
  apply Parses.bind hreadable.counted
  apply Parses.bind hreadable.ranges
  apply bind_cons (parses_readByte 0)
  apply bind_nil (Parses.take _ [])
  exact Parses.pure _

theorem ClosePathFrame.parses_write (version : Int) {f : ClosePathFrame} (h : f.WellFormed)
    (hpath : f.pathID < 2 ^ 8) (hfit : f.FirstGapFits) :
    ∃ bytes, f.write version = .ok bytes ∧ Parses (parseClosePathFrame version) bytes
      { f.fitting with pathID := f.pathID } := by
  obtain ⟨blocks, numAckBlocks, hreadable⟩ := h.readable hfit (getByteOrder version)
  obtain ⟨hmissing, hlargest, hdelta⟩ := closePathFlags_spec h f.hasMissingRanges
  have hlargestLen := (getPacketNumberLength_spec h.bounded).2
  have hbound := h.bounded
  have hfirst : f.firstAckBlockLength < 2 ^ 48 :=
    (h.firstAckBlockLength_le.trans h.maxRangeLength_le).trans_lt h.bounded
  have hshort : ¬blocks.any (fun block => block.length ≥ 2 ^ 48) = true := by
    rw [any_eq_true]
    rintro ⟨block, hblock, hlong⟩
    have := hreadable.short block hblock
    have := of_decide_eq_true hlong
    omega
  have hread : (UInt8.ofNat f.pathID).toNat = f.pathID := UInt8.toNat_ofNat_of_lt' hpath
  unfold ClosePathFrame.write
  rw [hreadable.written]
  dsimp only
  rw [if_neg (by rintro (hlarge | hlong | hany) <;> first | omega | exact hshort hany)]
  refine ⟨_, rfl, ?_⟩
  simp only [append_assoc, cons_append, nil_append]
  unfold parseClosePathFrame
  apply bind_cons (parses_readByte _)
  apply bind_cons (parses_readByte _)
  apply bind_cons (parses_readByte _)
  dsimp only
  rw [hmissing, hlargest, hdelta, hread]
  apply Parses.bind hreadable.counted
  apply Parses.bind (parses_readUintN _ hlargestLen)
  apply Parses.last hreadable.ranges
  exact Parses.pure _

end Frames

theorem AckFrame.write_ok_iff (version : Int) {f : AckFrame} (h : f.Consistent) :
    (∃ bytes, f.write version = .ok bytes) ↔ f.FirstGapFits := by
  rw [← h.blocks_ok_iff]
  unfold AckFrame.write
  cases hblocks : f.blocks with
  | error err => simp
  | ok blocks => simp

-- Both frames come back from the wire, with as many ranges as fit, unless the gap below the
-- highest range takes 255 blocks or more. The writer refuses such a frame.
theorem acks_survive_wire_iff (version : Int) :
    (∀ f : AckFrame, f.WellFormed → f.pathID < 2 ^ 8 →
      ((∃ bytes g, f.write version = .ok bytes ∧ Parses (parseAckFrame version) bytes g ∧
        g.pathID = f.pathID ∧ f.LongestFitting g.toAckBlocks) ↔ f.FirstGapFits)) ∧
    ∀ f : ClosePathFrame, f.WellFormed → f.pathID < 2 ^ 8 →
      ((∃ bytes g, f.write version = .ok bytes ∧ Parses (parseClosePathFrame version) bytes g ∧
        g.pathID = f.pathID ∧ f.LongestFitting g.toAckBlocks) ↔ f.FirstGapFits) := by
  constructor
  · intro f h hpath
    constructor
    · rintro ⟨bytes, g, hwrite, -⟩
      by_contra hfit
      simp only [AckFrame.write, h.blocks_error hfit] at hwrite
      cases hwrite
    · intro hfit
      obtain ⟨bytes, hwrite, hparses⟩ := AckFrame.parses_write version h hpath hfit
      exact ⟨bytes, _, hwrite, hparses, rfl, h.longestFitting⟩
  · intro f h hpath
    constructor
    · rintro ⟨bytes, g, hwrite, -⟩
      by_contra hfit
      simp only [ClosePathFrame.write, h.blocks_error hfit] at hwrite
      cases hwrite
    · intro hfit
      obtain ⟨bytes, hwrite, hparses⟩ := ClosePathFrame.parses_write version h hpath hfit
      exact ⟨bytes, _, hwrite, hparses, rfl, h.longestFitting⟩

theorem acks_survive_wire_example :
    (∃ bytes g, AckFrame.write 512 ⟨⟨10, 1, [⟨8, 10⟩, ⟨1, 5⟩]⟩, 3, 0⟩ = .ok bytes ∧
      Parses (parseAckFrame 512) bytes g ∧ g.pathID = 3 ∧
      AckBlocks.LongestFitting ⟨10, 1, [⟨8, 10⟩, ⟨1, 5⟩]⟩ g.toAckBlocks) ∧
    ∃ bytes g, ClosePathFrame.write 512 ⟨⟨10, 1, [⟨8, 10⟩, ⟨1, 5⟩]⟩, 3⟩ = .ok bytes ∧
      Parses (parseClosePathFrame 512) bytes g ∧ g.pathID = 3 ∧
      AckBlocks.LongestFitting ⟨10, 1, [⟨8, 10⟩, ⟨1, 5⟩]⟩ g.toAckBlocks := by
  have hf : AckBlocks.WellFormed ⟨10, 1, [⟨8, 10⟩, ⟨1, 5⟩]⟩ :=
    ⟨⟨by constructor <;> simp, by simp, by simp, by simp⟩, by simp⟩
  have hfit : AckBlocks.FirstGapFits ⟨10, 1, [⟨8, 10⟩, ⟨1, 5⟩]⟩ := by
    simp [AckBlocks.FirstGapFits]
  exact ⟨((acks_survive_wire_iff 512).1 ⟨_, 3, 0⟩ hf (by norm_num)).mpr hfit,
    ((acks_survive_wire_iff 512).2 ⟨_, 3⟩ hf (by norm_num)).mpr hfit⟩

-- Packet 100000 and packet 1 were received, so 99998 packets are missing between them. They
-- take 393 blocks. Both frames could report packet 100000, but they are not written.
theorem long_gap_is_not_written :
    AckBlocks.WellFormed ⟨100000, 1, [⟨100000, 100000⟩, ⟨1, 1⟩]⟩ ∧
      AckFrame.write 512 ⟨⟨100000, 1, [⟨100000, 100000⟩, ⟨1, 1⟩]⟩, 0, 0⟩ =
        .error .bugInconsistentAckRanges ∧
      ClosePathFrame.write 512 ⟨⟨100000, 1, [⟨100000, 100000⟩, ⟨1, 1⟩]⟩, 0⟩ =
        .error .bugInconsistentAckRanges := by
  refine ⟨?_, by decide +kernel, by decide +kernel⟩
  exact ⟨⟨by constructor <;> simp, by simp, by simp, by simp⟩, by simp⟩

end MpQuic.Wire

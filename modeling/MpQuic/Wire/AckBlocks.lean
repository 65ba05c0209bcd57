import MpQuic.Wire.AckSound

namespace MpQuic.Wire

open MpQuic.Library List

structure AckRange.Above (upper lower : AckRange) : Prop where
  positive : 0 < lower.first
  ordered : lower.first ≤ lower.last
  below : lower.last + 1 < upper.first
  bound : upper.first < 2 ^ 64

section Gaps

variable {a b : AckRange}

theorem AckRange.Above.gap_eq (h : a.Above b) : a.gap b = a.first - b.last - 1 := by
  have hbelow := h.below
  have hbound := h.bound
  have hfirst : sub64 a.first b.last = a.first - b.last := sub64_of_le (by omega) (by omega)
  unfold AckRange.gap
  rw [hfirst, sub64_of_le (by omega) (by omega)]

theorem AckRange.length_eq (hpos : 0 < a.first) (hordered : a.first ≤ a.last)
    (hlast : a.last < 2 ^ 64) : a.length = a.last - a.first + 1 := by
  unfold AckRange.length
  rw [sub64_of_le hordered (by omega), Nat.mod_eq_of_lt (by omega)]

theorem rangeBlocks_eq {gap : Nat} (hgap : 0 < gap) (length : Nat) :
    rangeBlocks gap length = List.replicate (numBlocks gap - 1) ⟨255, 0⟩ ++
      [⟨gap - 255 * (numBlocks gap - 1), length⟩] := by
  have hlast : 1 + (gap - 1) % 255 = gap - 255 * (numBlocks gap - 1) := by
    unfold numBlocks
    split <;> omega
  have hpos : 0 < numBlocks gap := by
    unfold numBlocks
    split <;> omega
  unfold rangeBlocks
  split
  next hone =>
    rw [hone]
    rfl
  next =>
    obtain ⟨n, hn⟩ : ∃ n, numBlocks gap = n + 1 := ⟨numBlocks gap - 1, by omega⟩
    rw [hlast, hn, range_succ, map_append]
    have hfront : (List.range n).map (fun i => if i = n + 1 - 1 then
        (⟨gap - 255 * (n + 1 - 1), length⟩ : AckBlock) else ⟨0xFF, 0⟩) =
        List.replicate n ⟨255, 0⟩ := by
      rw [eq_replicate_iff]
      refine ⟨by simp, fun block hblock => ?_⟩
      obtain ⟨i, hi, rfl⟩ := mem_map.mp hblock
      have := mem_range.mp hi
      rw [if_neg (by omega)]
    rw [hfront]
    simp

theorem AckRange.Above.numBlocks_pos (h : a.Above b) : 0 < numBlocks (a.gap b) := by
  have hbelow := h.below
  have hgap := h.gap_eq
  unfold numBlocks
  split <;> omega

theorem AckRange.Above.length_rangeBlocks (h : a.Above b) (length : Nat) :
    (rangeBlocks (a.gap b) length).length = numBlocks (a.gap b) := by
  have hbelow := h.below
  have hgap := h.gap_eq
  have hpos := h.numBlocks_pos
  rw [rangeBlocks_eq (by omega)]
  simp only [length_append, length_replicate, length_singleton]
  omega

end Gaps

section Loop

variable {a b : AckRange} {before : List AckRange}

variable {block : AckBlock}

theorem addBlock_start (complete : Bool) (hgap : block.gap < a.first)
    (hlength : block.length < a.first - block.gap) (hbound : a.first < 2 ^ 64) :
    addBlock ⟨a :: before, false, complete⟩ block =
      ⟨⟨a.first - block.gap - block.length, a.first - block.gap - 1⟩ :: a :: before,
        block.length = 0, block.length > 0⟩ := by
  have hskip : sub64 a.first block.gap = a.first - block.gap := sub64_of_le (by omega) (by omega)
  have hlast : sub64 (a.first - block.gap) 1 = a.first - block.gap - 1 :=
    sub64_of_le (by omega) (by omega)
  have hfirst : (sub64 (a.first - block.gap - 1) block.length + 1) % 2 ^ 64 =
      a.first - block.gap - block.length := by
    rw [sub64_of_le (by omega) (by omega), Nat.mod_eq_of_lt (by omega)]
    omega
  simp only [addBlock, Bool.false_eq_true, if_false]
  rw [hskip, hlast, hfirst]

theorem addBlock_continue (hlast : block.gap ≤ b.last) (hfirst : block.gap + block.length ≤ b.first)
    (hbound : b.first < 2 ^ 64) (hend : b.last < 2 ^ 64) :
    addBlock ⟨b :: before, true, false⟩ block =
      ⟨⟨b.first - (block.gap + block.length), b.last - block.gap⟩ :: before,
        block.length = 0, block.length > 0⟩ := by
  simp only [addBlock, if_true, Bool.false_or]
  rw [sub64_of_le hfirst (by omega), sub64_of_le hlast (by omega)]

theorem foldl_replicate {count : Nat} (complete : Bool) (hfit : 255 * (count + 1) < a.first)
    (hbound : a.first < 2 ^ 64) :
    (List.replicate (count + 1) (⟨255, 0⟩ : AckBlock)).foldl addBlock
        ⟨a :: before, false, complete⟩ =
      ⟨⟨a.first - 255 * (count + 1), a.first - 255 * (count + 1) - 1⟩ :: a :: before, true, false⟩ := by
  induction count with
  | zero =>
    rw [replicate_one, foldl_cons, foldl_nil,
      addBlock_start complete (by dsimp only; omega) (by dsimp only; omega) hbound]
    simp
  | succ count ih =>
    rw [replicate_succ', foldl_append, ih (by omega), foldl_cons, foldl_nil,
      addBlock_continue (by dsimp only; omega) (by dsimp only; omega) (by dsimp only; omega)
        (by dsimp only; omega)]
    simp only [decide_true, Nat.lt_irrefl, gt_iff_lt, decide_false, BlockState.mk.injEq,
      List.cons.injEq, AckRange.mk.injEq, and_true]
    omega

theorem foldl_rangeBlocks (h : a.Above b) (complete : Bool) :
    (rangeBlocks (a.gap b) b.length).foldl addBlock ⟨a :: before, false, complete⟩ =
      ⟨b :: a :: before, false, true⟩ := by
  have hpos := h.positive
  have hordered := h.ordered
  have hbelow := h.below
  have hbound := h.bound
  have hgap := h.gap_eq
  have hlength := AckRange.length_eq hpos hordered (by omega)
  rw [rangeBlocks_eq (by omega), foldl_append, foldl_cons, foldl_nil]
  have hnum : 255 * (numBlocks (a.gap b) - 1) < a.gap b := by
    unfold numBlocks
    split <;> omega
  generalize numBlocks (a.gap b) - 1 = count at hnum ⊢
  have hsome : (b.length = 0) = False ∧ (b.length > 0) = True := by
    simp only [eq_iff_iff, iff_false, iff_true]
    omega
  cases count with
  | zero =>
    rw [replicate_zero, foldl_nil,
      addBlock_start complete (by dsimp only; omega) (by dsimp only; omega) hbound]
    simp only [hsome.1, hsome.2, decide_true, decide_false, BlockState.mk.injEq,
      List.cons.injEq, and_true]
    rw [AckRange.ext_iff]
    dsimp only
    omega
  | succ count =>
    rw [foldl_replicate complete (by omega) hbound,
      addBlock_continue (by dsimp only; omega) (by dsimp only; omega) (by dsimp only; omega)
        (by dsimp only; omega)]
    simp only [hsome.1, hsome.2, decide_true, decide_false, BlockState.mk.injEq,
      List.cons.injEq, and_true]
    rw [AckRange.ext_iff]
    dsimp only
    omega

end Loop

def blockCount : List AckRange → Nat
  | [] => 0
  | [_] => 1
  | upper :: lower :: rest => numBlocks (upper.gap lower) + blockCount (lower :: rest)

def chainBlocks : AckRange → List AckRange → List AckBlock
  | _, [] => []
  | upper, lower :: rest => rangeBlocks (upper.gap lower) lower.length ++ chainBlocks lower rest

def fittingRest : Nat → AckRange → List AckRange → List AckRange
  | _, _, [] => []
  | numRanges, upper, lower :: rest =>
    let rangeLength := numBlocks (upper.gap lower)
    if numRanges + rangeLength < 0xFF then
      lower :: fittingRest (numRanges + rangeLength) lower rest
    else []

section Chain

variable {a : AckRange} {rest : List AckRange}

theorem blockCount_cons (h : List.IsChain AckRange.Above (a :: rest)) :
    blockCount (a :: rest) = (chainBlocks a rest).length + 1 := by
  induction rest generalizing a with
  | nil => rfl
  | cons b later ih =>
    obtain ⟨habove, hlater⟩ := isChain_cons_cons.mp h
    rw [blockCount, ih hlater, chainBlocks, length_append, habove.length_rangeBlocks]
    omega

theorem fittingRest_front (numRanges : Nat) (a : AckRange) (rest : List AckRange) :
    fittingRest numRanges a rest <+: rest := by
  induction rest generalizing numRanges a with
  | nil => exact nil_prefix
  | cons b later ih =>
    unfold fittingRest
    dsimp only
    split
    · exact cons_prefix_cons.mpr ⟨rfl, ih _ b⟩
    · exact nil_prefix

theorem countWritable_eq (numRanges : Nat) (h : List.IsChain AckRange.Above (a :: rest)) :
    AckBlocks.countWritable numRanges a rest =
      numRanges + (chainBlocks a (fittingRest numRanges a rest)).length := by
  induction rest generalizing numRanges a with
  | nil => rfl
  | cons b later ih =>
    obtain ⟨habove, hlater⟩ := isChain_cons_cons.mp h
    unfold AckBlocks.countWritable fittingRest
    dsimp only
    split
    · rw [ih _ hlater, chainBlocks, length_append, habove.length_rangeBlocks, Nat.add_assoc]
    · rfl

variable {numRanges : Nat} {front : List AckRange} {b : AckRange}

theorem countWritable_lt (hlt : numRanges < 0xFF) (a : AckRange)
    (rest : List AckRange) : AckBlocks.countWritable numRanges a rest < 0xFF := by
  induction rest generalizing numRanges a with
  | nil => exact hlt
  | cons b later ih =>
    unfold AckBlocks.countWritable
    dsimp only
    split
    next hfits => exact ih hfits b
    next => exact hlt

theorem fittingRest_longest (h : List.IsChain AckRange.Above (a :: rest)) (hfront : front <+: rest)
    (hfits : numRanges + (chainBlocks a front).length < 0xFF) :
    front <+: fittingRest numRanges a rest := by
  induction rest generalizing numRanges a front with
  | nil =>
    rw [prefix_nil.mp hfront]
    exact nil_prefix
  | cons b later ih =>
    obtain ⟨habove, hlater⟩ := isChain_cons_cons.mp h
    cases front with
    | nil => exact nil_prefix
    | cons c others =>
      obtain ⟨rfl, hothers⟩ := cons_prefix_cons.mp hfront
      rw [chainBlocks, length_append, habove.length_rangeBlocks] at hfits
      unfold fittingRest
      dsimp only
      rw [if_pos (by omega)]
      exact cons_prefix_cons.mpr ⟨rfl, ih hlater hothers (by omega)⟩

theorem writtenBlocks_eq (numRangesWritten : Nat)
    (beyond : List AckRange) (h : List.IsChain AckRange.Above (a :: b :: front)) :
    AckBlocks.writtenBlocks (numRangesWritten + (chainBlocks a (b :: front)).length)
        numRangesWritten a (b :: front ++ beyond) =
      (chainBlocks a (b :: front), numRangesWritten + (chainBlocks a (b :: front)).length) := by
  induction front generalizing numRangesWritten a b with
  | nil => simp [AckBlocks.writtenBlocks, chainBlocks]
  | cons c later ih =>
    obtain ⟨habove, hlater⟩ := isChain_cons_cons.mp h
    have hpos := (isChain_cons_cons.mp hlater).1.numBlocks_pos
    have hcount : (chainBlocks b (c :: later)).length =
        numBlocks (b.gap c) + (chainBlocks c later).length := by
      rw [chainBlocks, length_append,
        (isChain_cons_cons.mp hlater).1.length_rangeBlocks]
    have hrest := ih (numRangesWritten + (rangeBlocks (a.gap b) b.length).length) hlater
    rw [chainBlocks, length_append, ← Nat.add_assoc, cons_append,
      AckBlocks.writtenBlocks]
    dsimp only
    rw [if_neg (by omega), hrest]

theorem foldl_chainBlocks (before : List AckRange) (complete : Bool)
    (h : List.IsChain AckRange.Above (a :: rest)) :
    (chainBlocks a rest).foldl addBlock ⟨a :: before, false, complete⟩ =
      ⟨rest.reverse ++ a :: before, false, complete || !rest.isEmpty⟩ := by
  induction rest generalizing a before complete with
  | nil => simp [chainBlocks]
  | cons b later ih =>
    obtain ⟨habove, hlater⟩ := isChain_cons_cons.mp h
    rw [chainBlocks, foldl_append, foldl_rangeBlocks habove, ih _ _ hlater]
    simp

theorem rangesOfBlocks_chainBlocks (hordered : a.first ≤ a.last)
    (hbound : a.last < 2 ^ 64) (h : List.IsChain AckRange.Above (a :: b :: rest)) :
    rangesOfBlocks a.last (a.last - a.first + 1) (chainBlocks a (b :: rest)) = a :: b :: rest := by
  have hpos : 0 < a.first := by
    have hbelow := (isChain_cons_cons.mp h).1.below
    omega
  have hfirst : (sub64 a.last (a.last - a.first + 1) + 1) % 2 ^ 64 = a.first := by
    rw [sub64_of_le (by omega) (by omega), Nat.mod_eq_of_lt (by omega)]
    omega
  unfold rangesOfBlocks
  rw [hfirst, foldl_chainBlocks [] false h]
  simp

end Chain

end MpQuic.Wire

import MpQuic.Library.Path
import MpQuic.Sorter.Defs

namespace MpQuic.Sorter

open MpQuic.Library MpQuic.Wire List

-- One gap with the block of received data in front of it. `P` says what is known
-- about a block.
def Block (P : Nat → Nat → Prop) (lo : Nat) (gap : ByteInterval) (hi : Nat) : Prop :=
  P lo gap.start ∧ gap.start < gap.stop ∧ hi = gap.stop

def Missing (gaps : List ByteInterval) (i : Nat) : Prop :=
  ∃ g ∈ gaps, g.start ≤ i ∧ i < g.stop

instance (gaps : List ByteInterval) (i : Nat) : Decidable (Missing gaps i) :=
  inferInstanceAs (Decidable (∃ g ∈ gaps, g.start ≤ i ∧ i < g.stop))

section Search

variable {start stop : Nat}

inductive GapSearch (start stop : Nat) (gaps : List ByteInterval) :
    Except SorterError FoundGap → Prop
  | found (before : List ByteInterval) (gap : ByteInterval) (after : List ByteInterval)
      (hgaps : gaps = before ++ gap :: after) (hbefore : ∀ g ∈ before, g.stop < start)
      (hstop : gap.start < stop) (hstart : start ≤ gap.stop) :
      GapSearch start stop gaps (.ok ⟨before, gap, after⟩)
  | duplicate (before : List ByteInterval) (gap : ByteInterval) (after : List ByteInterval)
      (hgaps : gaps = before ++ gap :: after) (hbefore : ∀ g ∈ before, g.stop < start)
      (hstop : stop ≤ gap.start) :
      GapSearch start stop gaps (.error .errDuplicateStreamData)
  | off (hall : ∀ g ∈ gaps, g.stop < start) : GapSearch start stop gaps (.error .bugNoGapFound)

theorem Block.le {P : Nat → Nat → Prop} (hle : ∀ a b, P a b → a ≤ b) (a : Nat) (g : ByteInterval)
    (b : Nat) (h : Block P a g b) : a ≤ b := by
  have hfront := hle _ _ h.1
  have hgap := h.2.1
  have hend := h.2.2
  omega

theorem findGap_search (start stop : Nat) (gaps : List ByteInterval) :
    GapSearch start stop gaps (findGap start stop gaps) := by
  induction gaps with
  | nil => exact .off (by simp)
  | cons gap rest ih =>
    simp only [findGap]
    split_ifs with hdup hfound
    · exact .duplicate [] gap rest rfl (by simp) hdup
    · exact .found [] gap rest rfl (by simp) hfound.1 hfound.2
    · have hskip : gap.stop < start := by omega
      cases hrest : findGap start stop rest with
      | error err =>
        rw [hrest] at ih
        cases ih with
        | duplicate before dup after hgaps hbefore hstop =>
          exact .duplicate (gap :: before) dup after (by simp [hgaps])
            (by simpa using ⟨hskip, hbefore⟩) hstop
        | off hall => exact .off (by simpa using ⟨hskip, hall⟩)
      | ok found =>
        rw [hrest] at ih
        cases ih with
        | found before first after hgaps hbefore hstop hstart =>
          exact .found (gap :: before) first after (by simp [hgaps])
            (by simpa using ⟨hskip, hbefore⟩) hstop hstart

end Search

section Walk

-- What the walk to the last gap does. `passed` are the gaps it leaves behind.
structure Walked (stop : Nat) (queued : Nat → Option StreamFrame) (gap : ByteInterval)
    (same : Bool) (after : List ByteInterval) (walk : EndGap) (passed : List ByteInterval) :
    Prop where
  split : gap :: after = passed ++ walk.endGap :: walk.after
  first : walk.same = (same && passed.isEmpty)
  start : walk.endGap.start < stop
  covered : ∀ g ∈ passed, g.stop ≤ stop
  deleted : ∀ k, walk.queuedFrames k = if ∃ g ∈ passed, k = g.stop then none else queued k
  ends : walk.found = true →
    (stop < walk.endGap.stop ∧ walk.listed = true) ∨
    (walk.endGap.stop ≤ stop ∧ walk.listed = walk.same ∧
      ∃ next rest, walk.after = next :: rest ∧ stop ≤ next.start)
  lost : walk.found = false → walk.after = [] ∧ walk.endGap.stop ≤ stop

theorem findEndGap_walked {stop : Nat} (queued : Nat → Option StreamFrame) (gap : ByteInterval)
    (same : Bool) (after : List ByteInterval) (hstart : gap.start < stop) :
    ∃ passed, Walked stop queued gap same after (findEndGap stop queued gap same after) passed := by
  induction after generalizing queued gap same with
  | nil =>
    refine ⟨[], rfl, by simp [findEndGap], hstart, by simp, by simp [findEndGap], ?_, ?_⟩
    · intro hfound
      exact Or.inl ⟨by simpa [findEndGap] using hfound, rfl⟩
    · intro hlost
      exact ⟨rfl, by simpa [findEndGap] using hlost⟩
  | cons next rest ih =>
    simp only [findEndGap]
    split_ifs with hpast hbreak
    · refine ⟨[], rfl, by simp, hstart, by simp, by simp, ?_, by simp⟩
      exact fun _ => Or.inr ⟨hpast, rfl, next, rest, rfl, hbreak⟩
    · obtain ⟨passed, hw⟩ := ih (Function.update queued gap.stop none) next false
        (Nat.lt_of_not_le hbreak)
      refine ⟨gap :: passed, by rw [hw.split, cons_append], ?_, hw.start, ?_, ?_, hw.ends,
        hw.lost⟩
      · simpa using hw.first
      · simpa using ⟨hpast, hw.covered⟩
      · intro k
        rw [hw.deleted]
        by_cases hk : k = gap.stop
        · simp [hk]
        · simp [hk]
    · exact ⟨[], rfl, by simp, hstart, by simp, by simp,
        fun _ => Or.inl ⟨Nat.lt_of_not_le hpast, rfl⟩, by simp⟩

end Walk

def trimmed (gap endGap : ByteInterval) (start stop : Nat) : List ByteInterval :=
  (if start = gap.start then [] else [⟨gap.start, start⟩]) ++
    if stop < endGap.stop then [⟨stop, endGap.stop⟩] else []

theorem Walked.shrinkGaps {stop start : Nat} {queued : Nat → Option StreamFrame}
    {gap : ByteInterval} {after passed : List ByteInterval} {walk : EndGap}
    (h : Walked stop queued gap true after walk passed) (hfound : walk.found = true)
    (horder : gap.stop ≤ walk.endGap.stop) :
    shrinkGaps gap walk start (min stop walk.endGap.stop) =
      trimmed gap walk.endGap start (min stop walk.endGap.stop) := by
  cases passed with
  | nil =>
    have hsame : walk.same = true := by simp [h.first]
    have hgap : gap = walk.endGap := (List.cons.inj h.split).1
    simp only [MpQuic.Sorter.shrinkGaps, trimmed, hsame, if_true, hgap]
    split_ifs <;> first | rfl | omega
  | cons first rest =>
    have hsame : walk.same = false := by simp [h.first]
    have hgap : gap = first := (List.cons.inj h.split).1
    have hpast : gap.stop ≤ stop := hgap ▸ h.covered first mem_cons_self
    simp only [MpQuic.Sorter.shrinkGaps, trimmed, hsame, Bool.false_eq_true, if_false]
    rcases h.ends hfound with ⟨hin, hlisted⟩ | ⟨hout, hlisted, -⟩
    · simp only [hlisted, Nat.min_eq_left (Nat.le_of_lt hin), ge_iff_le, hpast, hin,
        Nat.ne_of_lt hin, if_true, if_false]
      split_ifs <;> rfl
    · simp only [hlisted, hsame, Nat.min_eq_right hout, ge_iff_le, horder, Nat.lt_irrefl,
        Bool.false_eq_true, if_true, if_false]
      split_ifs <;> rfl

section Fill

variable {P : Nat → Nat → Prop} {lo hi : Nat} {before passed after : List ByteInterval}
  {gap endGap : ByteInterval}

structure Around (P : Nat → Nat → Prop) (lo hi : Nat) (before : List ByteInterval)
    (gap endGap : ByteInterval) (after : List ByteInterval) : Prop where
  front : ∃ middle, Path (Block P) lo before middle ∧ P middle gap.start
  nonempty : gap.start < gap.stop
  order : gap.stop ≤ endGap.stop
  back : Path (Block P) endGap.stop after hi

theorem around (hle : ∀ a b, P a b → a ≤ b)
    (h : Path (Block P) lo (before ++ (passed ++ endGap :: after)) hi)
    (hfirst : (passed ++ [endGap]).head? = some gap) :
    Around P lo hi before gap endGap after := by
  obtain ⟨middle, hbefore, hrest⟩ := path_append.mp h
  obtain ⟨inner, hpassed, stop, hend, hafter⟩ := path_append.mp hrest
  obtain ⟨hblock, hnonempty, rfl⟩ := hend
  cases passed with
  | nil =>
    obtain rfl : middle = inner := hpassed
    obtain rfl : endGap = gap := by simpa using hfirst
    exact ⟨⟨middle, hbefore, hblock⟩, hnonempty, Nat.le_refl _, hafter⟩
  | cons first rest =>
    obtain rfl : first = gap := by simpa using hfirst
    obtain ⟨next, ⟨hfront, hgap, rfl⟩, hlater⟩ := hpassed
    have hreach := hlater.le (Block.le hle)
    have hlast := hle _ _ hblock
    exact ⟨⟨middle, hbefore, hfront⟩, hgap, by omega, hafter⟩

theorem Around.fill {Q : Nat → Nat → Prop} (h : Around P lo hi before gap endGap after)
    {start stop : Nat} (hle : ∀ a b, P a b → a ≤ b) (htrans : ∀ a b c, Q a b → Q b c → Q a c)
    (hbefore : ∀ a b, b ≤ gap.start → P a b → Q a b)
    (hafter : ∀ a b, endGap.stop ≤ a → P a b → Q a b)
    (hnew : Q start stop) (hstart : gap.start ≤ start) (hstop : stop ≤ endGap.stop)
    (hnext : stop = endGap.stop → after ≠ []) :
    Path (Block Q) lo (before ++ trimmed gap endGap start stop ++ after) hi := by
  obtain ⟨middle, hfront, hblock⟩ := h.front
  have hmiddle := hle _ _ hblock
  have hfront' : Path (Block Q) lo before middle :=
    hfront.imp (Block.le hle) fun a g b _ hb hg => by
      have hgap := hg.2.1
      have hend := hg.2.2
      exact ⟨hbefore _ _ (by omega) hg.1, hg.2⟩
  have hblock' := hbefore _ _ (Nat.le_refl _) hblock
  have hback : Path (Block Q) endGap.stop after hi :=
    h.back.imp (Block.le hle) fun a g b ha _ hg => ⟨hafter _ _ ha hg.1, hg.2⟩
  -- the blocks behind the frame, seen from a place from which it is reached
  have hrest : ∀ a, Q a stop → Path (Block Q) a
      ((if stop < endGap.stop then [⟨stop, endGap.stop⟩] else []) ++ after) hi := by
    intro a ha
    split_ifs with hlt
    · exact ⟨endGap.stop, ⟨ha, hlt, rfl⟩, hback⟩
    · obtain rfl : stop = endGap.stop := by omega
      cases after with
      | nil => exact absurd rfl (hnext rfl)
      | cons next rest =>
        obtain ⟨b, ⟨hone, hgap⟩, hlater⟩ := hback
        exact ⟨b, ⟨htrans _ _ _ ha hone, hgap⟩, hlater⟩
  rw [trimmed, append_assoc, append_assoc]
  refine hfront'.trans ?_
  by_cases hsame : start = gap.start
  · rw [if_pos hsame]
    subst hsame
    exact hrest middle (htrans _ _ _ hblock' hnew)
  · rw [if_neg hsame]
    have hleft : gap.start < start := by omega
    exact ⟨start, ⟨hblock', hleft, rfl⟩, hrest start hnew⟩

theorem exists_last_gap {gaps : List ByteInterval} (h : Path (Block P) lo gaps hi)
    (hne : lo ≠ hi) : ∃ g ∈ gaps, g.stop = hi := by
  induction gaps generalizing lo with
  | nil => exact absurd h hne
  | cons g rest ih =>
    obtain ⟨next, ⟨-, -, rfl⟩, hrest⟩ := h
    by_cases hend : g.stop = hi
    · exact ⟨g, mem_cons_self, hend⟩
    · obtain ⟨last, hlast, hstop⟩ := ih hrest hend
      exact ⟨last, mem_cons_of_mem _ hlast, hstop⟩

end Fill

section Insert

structure Slot (gaps : List ByteInterval) (start stop : Nat) (before : List ByteInterval)
    (gap : ByteInterval) (passed : List ByteInterval) (endGap : ByteInterval)
    (after : List ByteInterval) : Prop where
  gaps : gaps = before ++ (passed ++ endGap :: after)
  first : (passed ++ [endGap]).head? = some gap
  front : ∀ g ∈ before, g.stop < start
  gapStart : gap.start < stop
  gapStop : start ≤ gap.stop
  endStart : endGap.start < stop
  covered : ∀ g ∈ passed, g.stop ≤ stop
  ends : stop < endGap.stop ∨
    endGap.stop ≤ stop ∧ ∃ next rest, after = next :: rest ∧ stop ≤ next.start

def place (frame : StreamFrame) (gap endGap : ByteInterval) : StreamFrame :=
  { frame with
    offset := max frame.offset gap.start
    data := (frame.data.drop (gap.start - frame.offset)).take
      (min (frame.offset + frame.dataLen) endGap.stop - max frame.offset gap.start) }

def remaining (queued : Nat → Option StreamFrame) (passed : List ByteInterval) :
    Nat → Option StreamFrame :=
  fun k => if ∃ g ∈ passed, k = g.stop then none else queued k

theorem remaining_some {queued : Nat → Option StreamFrame} {passed : List ByteInterval} {k : Nat}
    {f : StreamFrame} (h : remaining queued passed k = some f) : queued k = some f := by
  simp only [remaining] at h
  split_ifs at h
  exact h

def filled (before : List ByteInterval) (gap endGap : ByteInterval) (after : List ByteInterval)
    (start stop : Nat) : List ByteInterval :=
  before ++ trimmed gap endGap (max start gap.start) (min stop endGap.stop) ++ after

inductive Inserted (s : StreamFrameSorter) (frame : StreamFrame) :
    StreamFrameSorter × Option SorterError → Prop
  | duplicate (before : List ByteInterval) (gap : ByteInterval) (after : List ByteInterval)
      (hgaps : s.gaps = before ++ gap :: after) (hbefore : ∀ g ∈ before, g.stop < frame.offset)
      (hstop : frame.offset + frame.dataLen ≤ gap.start) :
      Inserted s frame (s, some .errDuplicateStreamData)
  | placed (before : List ByteInterval) (gap : ByteInterval) (passed : List ByteInterval)
      (endGap : ByteInterval) (after : List ByteInterval)
      (hslot : Slot s.gaps frame.offset (frame.offset + frame.dataLen) before gap passed endGap
        after) :
      Inserted s frame
        ({ s with
            gaps := filled before gap endGap after frame.offset (frame.offset + frame.dataLen)
            queuedFrames := Function.update (remaining s.queuedFrames passed)
              (place frame gap endGap).offset (some (place frame gap endGap)) },
          none)
  | tooMany (before : List ByteInterval) (gap : ByteInterval) (passed : List ByteInterval)
      (endGap : ByteInterval) (after : List ByteInterval)
      (hslot : Slot s.gaps frame.offset (frame.offset + frame.dataLen) before gap passed endGap
        after) :
      Inserted s frame
        ({ s with
            gaps := filled before gap endGap after frame.offset (frame.offset + frame.dataLen)
            queuedFrames := remaining s.queuedFrames passed },
          some .errTooManyGapsInReceivedStreamData)

theorem cut_eq_place {frame : StreamFrame} {gap endGap : ByteInterval}
    (hstop : gap.start < frame.offset + frame.dataLen) :
    cutTail
      (if frame.offset < gap.start then cutFront frame (gap.start - frame.offset) else frame)
      (frame.offset + frame.dataLen - endGap.stop) = place frame gap endGap := by
  have hfront : (if frame.offset < gap.start then cutFront frame (gap.start - frame.offset)
      else frame) = { frame with
        offset := max frame.offset gap.start
        data := frame.data.drop (gap.start - frame.offset) } := by
    split_ifs with hlt
    · rw [cutFront, Nat.max_eq_right (Nat.le_of_lt hlt)]
      congr 1
      omega
    · rw [Nat.max_eq_left (by omega), Nat.sub_eq_zero_of_le (by omega), drop_zero]
  rw [hfront, cutTail, place]
  simp only [StreamFrame.dataLen] at hstop ⊢
  congr 2
  rw [length_drop]
  omega

theorem insert_inserted {P : Nat → Nat → Prop} {lo : Nat} {s : StreamFrameSorter}
    {frame : StreamFrame} (hle : ∀ a b, P a b → a ≤ b)
    (hpath : Path (Block P) lo s.gaps maxByteCount) (hlo : lo < maxByteCount)
    (hstop : frame.offset + frame.dataLen < maxByteCount) : Inserted s frame (s.insert frame) := by
  have hsearch := findGap_search frame.offset (frame.offset + frame.dataLen) s.gaps
  simp only [StreamFrameSorter.insert]
  cases hfind : findGap frame.offset (frame.offset + frame.dataLen) s.gaps with
  | error err =>
    rw [hfind] at hsearch
    cases hsearch with
    | duplicate before gap after hgaps hbefore hdup =>
      exact .duplicate before gap after hgaps hbefore hdup
    | off hall =>
      obtain ⟨g, hg, hend⟩ := exists_last_gap hpath (Nat.ne_of_lt hlo)
      have hskip := hall g hg
      omega
  | ok found =>
    rw [hfind] at hsearch
    cases hsearch with
    | found before gap after hgaps hbefore hgap hstart =>
      obtain ⟨passed, hw⟩ := findEndGap_walked s.queuedFrames gap true after hgap
      simp only
      generalize findEndGap (frame.offset + frame.dataLen) s.queuedFrames gap true after =
        walk at hw ⊢
      have hfirst : (passed ++ [walk.endGap]).head? = some gap := by
        have hsplit := congrArg List.head? hw.split
        cases passed <;> simpa using hsplit.symm
      rw [hw.split] at hgaps
      rw [hgaps] at hpath
      have haround := around hle hpath hfirst
      cases hfound : walk.found with
      | false =>
        -- the last gap reaches to the end, so the walk does not leave the list
        obtain ⟨hnil, hpast⟩ := hw.lost hfound
        have hback := haround.back
        rw [hnil] at hback
        have hend : walk.endGap.stop = maxByteCount := hback
        omega
      | true =>
        have hslot : Slot s.gaps frame.offset (frame.offset + frame.dataLen) before gap
            passed walk.endGap walk.after :=
          ⟨hgaps, hfirst, hbefore, hgap, hstart, hw.start, hw.covered,
            (hw.ends hfound).imp (·.1) fun h => ⟨h.1, h.2.2⟩⟩
        have hqueued : walk.queuedFrames = remaining s.queuedFrames passed :=
          funext hw.deleted
        have hstop : frame.offset + frame.dataLen -
            (frame.offset + frame.dataLen - walk.endGap.stop) =
              min (frame.offset + frame.dataLen) walk.endGap.stop := by omega
        rw [if_pos rfl, cut_eq_place hgap, hstop, hw.shrinkGaps hfound haround.order, hqueued]
        split_ifs
        · exact .tooMany before gap passed walk.endGap walk.after hslot
        · exact .placed before gap passed walk.endGap walk.after hslot

end Insert

section Positions

variable {P : Nat → Nat → Prop} {lo hi start stop : Nat} {gaps before passed after : List ByteInterval}
  {gap endGap : ByteInterval}

theorem gap_bounds (hle : ∀ a b, P a b → a ≤ b) (h : Path (Block P) lo gaps hi)
    {g : ByteInterval} (hg : g ∈ gaps) : lo ≤ g.start ∧ g.start < g.stop ∧ g.stop ≤ hi := by
  obtain ⟨front, back, rfl⟩ := append_of_mem hg
  obtain ⟨middle, hfront, next, ⟨hblock, hgap, rfl⟩, hback⟩ := path_append.mp h
  have h₁ := hfront.le (Block.le hle)
  have h₂ := hle _ _ hblock
  have h₃ := hback.le (Block.le hle)
  exact ⟨by omega, hgap, h₃⟩

theorem Slot.gap_mem (h : Slot gaps start stop before gap passed endGap after) : gap ∈ gaps := by
  have hfirst := List.mem_of_mem_head? h.first
  rw [h.gaps]
  simp only [mem_append, mem_cons, not_mem_nil, or_false] at hfirst ⊢
  tauto

section

variable (hle : ∀ a b, P a b → a ≤ b) (hpath : Path (Block P) lo gaps hi)
  (h : Slot gaps start stop before gap passed endGap after)

include hle hpath h

theorem Slot.passed_bounds {g : ByteInterval}
    (hg : g ∈ passed) : gap.start ≤ g.start ∧ g.start < g.stop ∧ g.stop ≤ endGap.start := by
  rw [h.gaps] at hpath
  obtain ⟨middle, -, hrest⟩ := path_append.mp hpath
  obtain ⟨inner, hpassed, next, ⟨hblock, -, -⟩, -⟩ := path_append.mp hrest
  have hlast := hle _ _ hblock
  obtain ⟨-, hgap, hstop⟩ := gap_bounds hle hpassed hg
  cases passed with
  | nil => cases hg
  | cons first rest =>
    obtain rfl : first = gap := by simpa using h.first
    obtain ⟨after, ⟨-, hfirst, rfl⟩, hlater⟩ := hpassed
    rcases mem_cons.mp hg with rfl | hg
    · exact ⟨Nat.le_refl _, hgap, by omega⟩
    · have hstart := (gap_bounds hle hlater hg).1
      exact ⟨by omega, hgap, by omega⟩

theorem Slot.after_start {g : ByteInterval}
    (hg : g ∈ after) : endGap.stop ≤ g.start ∧ stop ≤ g.start := by
  rw [h.gaps] at hpath
  have hback := (around hle hpath h.first).back
  have hstart := (gap_bounds hle hback hg).1
  rcases h.ends with hin | ⟨-, next, rest, rfl, hnext⟩
  · exact ⟨hstart, by omega⟩
  · obtain ⟨middle, ⟨-, hgap, rfl⟩, hrest⟩ := hback
    rcases mem_cons.mp hg with rfl | hg
    · exact ⟨hstart, hnext⟩
    · have hlater := (gap_bounds hle hrest hg).1
      exact ⟨hstart, by omega⟩

theorem Slot.tail {i : Nat} (hi : endGap.stop ≤ i)
    (hstop : i < stop) (hstart : start ≤ i) : ¬Missing gaps i := by
  rintro ⟨g, hg, hlow, hhigh⟩
  rw [h.gaps, mem_append, mem_append, mem_cons] at hg
  rcases hg with hg | hg | rfl | hg
  · have hfront := h.front g hg
    omega
  · have hpassed := h.passed_bounds hle hpath hg
    rw [h.gaps] at hpath
    have hend := (gap_bounds (g := endGap) hle hpath (by simp)).2.1
    omega
  · omega
  · have hafter := h.after_start hle hpath hg
    omega

theorem Slot.missing {i : Nat}
    (hi : Missing (filled before gap endGap after start stop) i) :
    Missing gaps i ∧ ¬(start ≤ i ∧ i < stop) := by
  have hmem := h.gap_mem
  have hlow := h.gapStop
  have hend := h.endStart
  obtain ⟨g, hg, hi₁, hi₂⟩ := hi
  simp only [filled, trimmed, mem_append] at hg
  rcases hg with (hg | hg | hg) | hg
  · have hfront := h.front g hg
    exact ⟨⟨g, by simp [h.gaps, hg], hi₁, hi₂⟩, by omega⟩
  · -- the rest of the first gap
    split_ifs at hg with hsame
    · cases hg
    · rw [mem_singleton] at hg
      subst hg
      simp only at hi₁ hi₂
      exact ⟨⟨gap, hmem, hi₁, by omega⟩, by omega⟩
  · -- the rest of the last gap
    split_ifs at hg with hrest
    · rw [mem_singleton] at hg
      subst hg
      simp only at hi₁ hi₂
      exact ⟨⟨endGap, by simp [h.gaps], by omega, hi₂⟩, by omega⟩
    · cases hg
  · have hafter := h.after_start hle hpath hg
    exact ⟨⟨g, by simp [h.gaps, hg], hi₁, hi₂⟩, by omega⟩

end

end Positions

end MpQuic.Sorter

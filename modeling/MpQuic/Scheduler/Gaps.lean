import MpQuic.Scheduler.Order

namespace MpQuic.Scheduler

open List

structure GapState where
  leftover : Int
  gap : Nat → Option Int

def addPackets (leftover : Int) : Nat → Int → Int
  | 0, computedNeeded => computedNeeded
  | n + 1, computedNeeded =>
    if leftover - computedNeeded > 0 then addPackets leftover n (computedNeeded + 1322)
    else computedNeeded

-- The bytes that the next path leaves to the path before it. There is no result if the
-- program divides by zero. The conversion to a float and back is exact for sizes in memory.
def computeNeeded (leftover : Int) (i : Nat) (rtt0 rtt1 : Nat) : Option Int :=
  if i = 0 ∧ rtt1 = 0 then some leftover
  else if rtt0 = 0 then none
  else
    let n := ((rtt1 : Int) - rtt0).tdiv rtt0
    let computedNeeded := addPackets leftover n.toNat 0
    some (if computedNeeded ≥ leftover then leftover else computedNeeded)

def GapState.assign (st : GapState) (inx inx1 : Nat) (computedNeeded : Int) : GapState :=
  let gap := Function.update st.gap inx1 (some (if computedNeeded < 0 then 0 else computedNeeded))
  { leftover := st.leftover - (gap inx).getD 0, gap := gap }

def gapLoop (stateOwd : Nat → Nat) : Nat → List Nat → GapState → Option GapState
  | i, inx :: inx1 :: rest, st =>
    match computeNeeded st.leftover i (stateOwd inx) (stateOwd inx1) with
    | none => none
    | some computedNeeded =>
      let st := st.assign inx inx1 computedNeeded
      if i = 0 ∧ stateOwd inx1 = 0 then some st
      else gapLoop stateOwd (i + 1) (inx1 :: rest) st
  | _, _, st => some st

-- The initial path, which is the last one, gets no gap.
def stmsGaps (paths : List Nat) (stateOwd : Nat → Nat) (total : Nat) : Option GapState :=
  gapLoop stateOwd 0 (orderPaths paths stateOwd).1.dropLast ⟨total, fun _ => none⟩

section Bounds

variable {stateOwd : Nat → Nat} {total : Int}

theorem computeNeeded_le {leftover needed : Int} {i rtt0 rtt1 : Nat}
    (hneeded : computeNeeded leftover i rtt0 rtt1 = some needed) : needed ≤ leftover := by
  unfold computeNeeded at hneeded
  dsimp only at hneeded
  split_ifs at hneeded with hfirst hzero hall
  · exact (Option.some.inj hneeded).symm.le
  · exact (Option.some.inj hneeded).symm.le
  · have hrest := Option.some.inj hneeded
    omega

structure GapState.Bounded (st : GapState) (total : Int) : Prop where
  leftover : st.leftover ≤ total
  gap : ∀ pathID g, st.gap pathID = some g → 0 ≤ g ∧ g ≤ total

theorem GapState.Bounded.assign {st : GapState} {needed : Int} (hst : st.Bounded total)
    (htotal : 0 ≤ total) (hneeded : needed ≤ st.leftover) (inx inx1 : Nat) :
    (st.assign inx inx1 needed).Bounded total := by
  have hgap : ∀ pathID g, (st.assign inx inx1 needed).gap pathID = some g →
      0 ≤ g ∧ g ≤ total := by
    intro pathID g hg
    unfold GapState.assign at hg
    dsimp only at hg
    by_cases hpath : pathID = inx1
    · rw [hpath, Function.update_self] at hg
      have hle := hst.leftover
      split_ifs at hg <;> cases hg <;> omega
    · rw [Function.update_of_ne hpath] at hg
      exact hst.gap pathID g hg
  refine ⟨?_, hgap⟩
  have hread : 0 ≤ ((st.assign inx inx1 needed).gap inx).getD 0 := by
    cases hinx : (st.assign inx inx1 needed).gap inx with
    | none => exact le_refl 0
    | some g => exact (hgap inx g hinx).1
  calc (st.assign inx inx1 needed).leftover
      = st.leftover - ((st.assign inx inx1 needed).gap inx).getD 0 := rfl
    _ ≤ total := by
      have hle := hst.leftover
      omega

theorem gapLoop_bounded (htotal : 0 ≤ total) (order : List Nat) {i : Nat} {st last : GapState}
    (hst : st.Bounded total) (hlast : gapLoop stateOwd i order st = some last) :
    last.Bounded total := by
  induction order generalizing i st with
  | nil =>
    cases hlast
    exact hst
  | cons inx rest ih =>
    cases rest with
    | nil =>
      cases hlast
      exact hst
    | cons inx1 rest =>
      unfold gapLoop at hlast
      split at hlast
      · cases hlast
      · rename_i needed hneeded
        have hnext := hst.assign htotal (computeNeeded_le hneeded) inx inx1
        dsimp only at hlast
        split at hlast
        · cases hlast
          exact hnext
        · exact ih hnext hlast

end Bounds

section Division

variable {stateOwd : Nat → Nat}

theorem computeNeeded_isSome_iff (leftover : Int) (i rtt0 rtt1 : Nat) :
    (computeNeeded leftover i rtt0 rtt1).isSome = true ↔ (i = 0 ∧ rtt1 = 0) ∨ rtt0 ≠ 0 := by
  unfold computeNeeded
  split_ifs <;> simp_all

theorem gapLoop_later_isSome_iff (order : List Nat) {i : Nat} (hi : i ≠ 0) (st : GapState) :
    (gapLoop stateOwd i order st).isSome = true ↔ ∀ pathID ∈ order.dropLast, stateOwd pathID ≠ 0 := by
  induction order generalizing i st with
  | nil => simp [gapLoop]
  | cons inx rest ih =>
    cases rest with
    | nil => simp [gapLoop]
    | cons inx1 rest =>
      have hsome := computeNeeded_isSome_iff st.leftover i (stateOwd inx) (stateOwd inx1)
      rw [dropLast_cons_cons, forall_mem_cons]
      unfold gapLoop
      cases hneeded : computeNeeded st.leftover i (stateOwd inx) (stateOwd inx1) with
      | none =>
        rw [hneeded] at hsome
        simp only [Option.isSome_none, Bool.false_eq_true, false_iff, not_or] at hsome ⊢
        exact fun hall => hsome.2 hall.1
      | some needed =>
        rw [hneeded] at hsome
        have hdivisor : stateOwd inx ≠ 0 := by
          rcases hsome.mp rfl with ⟨hzero, -⟩ | hne
          · exact absurd hzero hi
          · exact hne
        dsimp only
        rw [if_neg fun hfirst => hi hfirst.1, ih (by omega)]
        exact (and_iff_right hdivisor).symm

theorem gapLoop_first_isSome_iff (inx inx1 : Nat) (rest : List Nat) (st : GapState) :
    (gapLoop stateOwd 0 (inx :: inx1 :: rest) st).isSome = true ↔
      stateOwd inx1 = 0 ∨ ∀ pathID ∈ (inx :: inx1 :: rest).dropLast, stateOwd pathID ≠ 0 := by
  have hsome := computeNeeded_isSome_iff st.leftover 0 (stateOwd inx) (stateOwd inx1)
  rw [dropLast_cons_cons, forall_mem_cons]
  unfold gapLoop
  cases hneeded : computeNeeded st.leftover 0 (stateOwd inx) (stateOwd inx1) with
  | none =>
    rw [hneeded] at hsome
    simp only [Option.isSome_none, Bool.false_eq_true, false_iff, not_or, true_and] at hsome ⊢
    exact ⟨hsome.1, fun hall => hsome.2 hall.1⟩
  | some needed =>
    rw [hneeded] at hsome
    by_cases hbreak : stateOwd inx1 = 0
    · simp [hbreak]
    · have hdivisor : stateOwd inx ≠ 0 := by
        rcases hsome.mp rfl with ⟨-, hzero⟩ | hne
        · exact absurd hzero hbreak
        · exact hne
      dsimp only
      rw [if_neg fun hfirst => hbreak hfirst.2, gapLoop_later_isSome_iff _ (by omega),
        or_iff_right hbreak, and_iff_right hdivisor]

theorem gapLoop_sorted_isSome_iff (measured unmeasured : List Nat) (st : GapState)
    (hmeasured : ∀ pathID ∈ measured, stateOwd pathID ≠ 0)
    (hunmeasured : ∀ pathID ∈ unmeasured, stateOwd pathID = 0) :
    (gapLoop stateOwd 0 (measured ++ unmeasured) st).isSome = true ↔
      measured.length ≤ 1 ∨ unmeasured.length ≤ 1 := by
  rcases measured with _ | ⟨first, _ | ⟨second, measured⟩⟩
  · rcases unmeasured with _ | ⟨third, _ | ⟨fourth, unmeasured⟩⟩
    · simp [gapLoop]
    · simp [gapLoop]
    · rw [nil_append, gapLoop_first_isSome_iff]
      simp [hunmeasured fourth (by simp)]
  · rcases unmeasured with _ | ⟨third, unmeasured⟩
    · simp [gapLoop]
    · rw [singleton_append, gapLoop_first_isSome_iff]
      simp [hunmeasured third (by simp)]
  · have hsecond : stateOwd second ≠ 0 := hmeasured second (by simp)
    have hlong : ¬(first :: second :: measured).length ≤ 1 := by simp
    rw [cons_append, cons_append, gapLoop_first_isSome_iff, or_iff_right hsecond,
      ← cons_append, ← cons_append, or_iff_right hlong]
    constructor
    · intro hall
      by_contra hmany
      -- The first path without a measurement is not the last one.
      obtain ⟨third, fourth, rest, rfl⟩ : ∃ third fourth rest, unmeasured = third :: fourth :: rest := by
        rcases unmeasured with _ | ⟨third, _ | ⟨fourth, rest⟩⟩
        · simp at hmany
        · simp at hmany
        · exact ⟨third, fourth, rest, rfl⟩
      refine hall third ?_ (hunmeasured third (by simp))
      rw [dropLast_append_of_ne_nil (by simp), dropLast_cons_cons]
      simp
    · intro hfew pathID hmem
      rcases unmeasured with _ | ⟨third, _ | ⟨fourth, rest⟩⟩
      · rw [append_nil] at hmem
        exact hmeasured pathID (mem_of_mem_dropLast hmem)
      · rw [dropLast_concat] at hmem
        exact hmeasured pathID hmem
      · simp at hfew

end Division

def measuredCount (paths : List Nat) (stateOwd : Nat → Nat) : Nat :=
  (paths.filter (· ≠ initialPathID)).countP fun pathID => stateOwd pathID ≠ 0

def unmeasuredCount (paths : List Nat) (stateOwd : Nat → Nat) : Nat :=
  (paths.filter (· ≠ initialPathID)).countP fun pathID => stateOwd pathID = 0

-- The gaps are computed without a division by zero and lie between zero and the pending bytes,
-- unless at least two paths are measured and at least two are not.
theorem gaps_are_safe_iff (paths : List Nat) (stateOwd : Nat → Nat) (total : Nat) :
    (∃ st, stmsGaps paths stateOwd total = some st ∧
      ∀ pathID g, st.gap pathID = some g → 0 ≤ g ∧ g ≤ total) ↔
      measuredCount paths stateOwd ≤ 1 ∨ unmeasuredCount paths stateOwd ≤ 1 := by
  obtain ⟨sorted, horder, hperm, hsorted⟩ := orderPaths_sorted paths stateOwd
  obtain ⟨measured, unmeasured, rfl, hmeasured, -, hunmeasured⟩ := split_measured hsorted
  have hcount : measuredCount paths stateOwd = measured.length := by
    unfold measuredCount
    rw [← hperm.countP_eq, List.countP_append, List.countP_eq_length.mpr (by simpa using hmeasured),
      List.countP_eq_zero.mpr (by simpa using hunmeasured), Nat.add_zero]
  have huncount : unmeasuredCount paths stateOwd = unmeasured.length := by
    unfold unmeasuredCount
    rw [← hperm.countP_eq, List.countP_append, List.countP_eq_zero.mpr (by simpa using hmeasured),
      List.countP_eq_length.mpr (by simpa using hunmeasured), Nat.zero_add]
  have hloop : stmsGaps paths stateOwd total =
      gapLoop stateOwd 0 (measured ++ unmeasured) ⟨total, fun _ => none⟩ := by
    unfold stmsGaps
    rw [horder, List.dropLast_concat]
  have hstart : GapState.Bounded ⟨total, fun _ => none⟩ (total : Int) :=
    ⟨le_refl _, fun _ _ hnone => by cases hnone⟩
  rw [hcount, huncount, ← gapLoop_sorted_isSome_iff measured unmeasured ⟨total, fun _ => none⟩
    hmeasured hunmeasured, hloop, Option.isSome_iff_exists]
  constructor
  · rintro ⟨st, hst, -⟩
    exact ⟨st, hst⟩
  · rintro ⟨st, hst⟩
    exact ⟨st, hst, (gapLoop_bounded (Int.natCast_nonneg total) _ hstart hst).gap⟩

-- Two paths with delays of 10 and 20 and two that have none yet.
theorem two_unmeasured_paths_divide_by_zero :
    stmsGaps [0, 1, 3, 5, 7] (fun pathID => if pathID = 1 then 10 else if pathID = 3 then 20 else 0)
      5000 = none := by
  rfl

end MpQuic.Scheduler

import MpQuic.Utility.Defs

namespace MpQuic.Utility

open List

section Power

variable {K : Type*} [Field K] [LinearOrder K]

-- What the two sides assume of the power function for a positive exponent.
structure IsPower (power : K → K → K) : Prop where
  zero : ∀ alpha, 0 < alpha → power 0 alpha = 0
  one : ∀ alpha, power 1 alpha = 1
  strictMono : ∀ alpha, 0 < alpha → ∀ x y, 0 ≤ x → x < y → power x alpha < power y alpha

theorem isPower_rpow : IsPower fun x alpha : ℝ => x ^ alpha where
  zero _ hpos := Real.zero_rpow hpos.ne'
  one alpha := Real.one_rpow alpha
  strictMono _ hpos _ _ hx hlt := Real.rpow_lt_rpow hx hlt hpos

structure Coefficients.Valid (c : Coefficients K) : Prop where
  alpha : 0 < c.alpha ∧ c.alpha ≤ 2
  beta : 0 ≤ c.beta ∧ c.beta ≤ 1
  gamma : 0 ≤ c.gamma ∧ c.gamma ≤ 1

-- In every matrix the row of the sample has what the controller has computed.
def Agrees (power : K → K → K) (signal : ControlSignal K) (sample : Sample K) : Prop :=
  ∀ (samples : List (Sample K)) (i : Nat), samples[i]? = some sample →
    (Worker.featureMatrix power samples sample.coefficients)[i]? =
      some ⟨signal.utility, signal.gain, signal.backoff⟩

theorem agrees_iff {power : K → K → K} {signal : ControlSignal K} {sample : Sample K} :
    Agrees power signal sample ↔ Worker.featureRow power sample.coefficients sample =
      ⟨signal.utility, signal.gain, signal.backoff⟩ := by
  constructor
  · intro h
    exact Option.some.inj (h [sample] 0 rfl)
  · intro h samples i hi
    rw [Worker.featureMatrix, List.getElem?_map, hi, Option.map_some, h]

structure PathMetrics.NonNegative (pm : PathMetrics K) : Prop where
  bwBps : 0 ≤ pm.bwBps
  owdMs : 0 ≤ pm.owdMs
  lossRate : 0 ≤ pm.lossRate

end Power

section Total

variable {K : Type*} [Field K] [LinearOrder K]

variable {x : K} {pm : PathMetrics K} {paths : List (PathMetrics K)}

theorem clamp_of_nonneg (hx : 0 ≤ x) : clamp x 0 1 = min x 1 := by
  unfold clamp
  rw [if_neg (not_lt.mpr hx)]
  split_ifs with hone
  · exact (min_eq_right hone.le).symm
  · exact (min_eq_left (not_lt.mp hone)).symm

theorem sanitizeMetric_of_nonneg (hx : 0 ≤ x) : sanitizeMetric x = x :=
  if_neg (not_lt.mpr hx)

theorem bwBps_of_inactive (hpm : pm.NonNegative)
    (hidle : pathMetricsActive pm = false) : pm.bwBps = 0 := by
  unfold pathMetricsActive at hidle
  simp only [Bool.or_eq_false_iff, decide_eq_false_iff_not, not_lt] at hidle
  have hle := hidle.1.1
  rw [sanitizeMetric_of_nonneg hpm.bwBps] at hle
  exact le_antisymm hle hpm.bwBps

theorem foldl_total (hpaths : ∀ pm ∈ paths, pm.NonNegative) (sum : K) :
    paths.foldl (fun sum pm =>
      if pathMetricsActive pm then sum + sanitizeMetric pm.bwBps / bwRefBps else sum) sum =
      sum + (paths.map fun pm => pm.bwBps / bwRefBps).sum := by
  induction paths generalizing sum with
  | nil => simp
  | cons pm rest ih =>
    have hpm := hpaths pm mem_cons_self
    rw [foldl_cons, ih fun other hother => hpaths other (mem_cons_of_mem _ hother),
      map_cons, sum_cons]
    cases hactive : pathMetricsActive pm with
    | false =>
      rw [if_neg Bool.false_ne_true, bwBps_of_inactive hpm hactive]
      ring
    | true =>
      rw [if_pos rfl, sanitizeMetric_of_nonneg hpm.bwBps]
      ring

-- The other paths of the round have no throughput, or this one alone reaches the reference.
def OwnTotal (paths : List (PathMetrics K)) (pm : PathMetrics K) : Prop :=
  bwRefBps ≤ pm.bwBps ∨ ∀ other ∈ paths, other.pathID ≠ pm.pathID → other.bwBps = 0

omit [LinearOrder K] in
theorem total_split (hdistinct : (paths.map PathMetrics.pathID).Nodup) (hpm : pm ∈ paths) :
    (paths.map fun pm => pm.bwBps / bwRefBps).sum = pm.bwBps / bwRefBps +
      ((paths.filter fun other => other.pathID ≠ pm.pathID).map fun other =>
        other.bwBps / bwRefBps).sum := by
  induction paths with
  | nil => cases hpm
  | cons head rest ih =>
    rw [map_cons, nodup_cons] at hdistinct
    obtain ⟨hfresh, hrest⟩ := hdistinct
    rw [map_cons, sum_cons]
    rcases mem_cons.mp hpm with rfl | hpm
    · rw [filter_cons_of_neg (by simp), filter_eq_self.mpr]
      intro other hother
      refine decide_eq_true fun heq => hfresh ?_
      rw [← heq]
      exact mem_map_of_mem hother
    · have hne : head.pathID ≠ pm.pathID := by
        intro heq
        rw [heq] at hfresh
        exact hfresh (mem_map_of_mem hpm)
      rw [filter_cons_of_pos (by simpa using hne), map_cons, sum_cons,
        ih hrest hpm]
      ring

variable [IsStrictOrderedRing K]

theorem bwRefBps_pos : (0 : K) < bwRefBps := by
  unfold bwRefBps
  positivity

theorem normalizeG_of_nonneg (hx : 0 ≤ x) : normalizeG x = min (x / bwRefBps) 1 := by
  unfold normalizeG
  rw [sanitizeMetric_of_nonneg hx, clamp_of_nonneg (div_nonneg hx bwRefBps_pos.le)]

theorem shares_nonneg (hpaths : ∀ pm ∈ paths, pm.NonNegative) :
    ∀ x ∈ paths.map fun pm => pm.bwBps / bwRefBps, 0 ≤ x := by
  intro x hx
  obtain ⟨pm, hpm, rfl⟩ := mem_map.mp hx
  exact div_nonneg (hpaths pm hpm).bwBps bwRefBps_pos.le

theorem computeRoundGTotal_eq (hpaths : ∀ pm ∈ paths, pm.NonNegative) :
    computeRoundGTotal paths = min (paths.map fun pm => pm.bwBps / bwRefBps).sum 1 := by
  unfold computeRoundGTotal
  rw [foldl_total hpaths, zero_add, clamp_of_nonneg (sum_nonneg (shares_nonneg hpaths))]

theorem total_eq_own_iff (hpaths : ∀ pm ∈ paths, pm.NonNegative)
    (hdistinct : (paths.map PathMetrics.pathID).Nodup) (hpm : pm ∈ paths) :
    computeRoundGTotal paths = normalizeG pm.bwBps ↔ OwnTotal paths pm := by
  have hothers : ∀ other ∈ paths.filter (fun other => other.pathID ≠ pm.pathID),
      other.NonNegative := fun other hother => hpaths other (mem_of_mem_filter hother)
  rw [computeRoundGTotal_eq hpaths, normalizeG_of_nonneg (hpaths pm hpm).bwBps,
    total_split hdistinct hpm]
  have hshares := shares_nonneg hothers
  have hrest := sum_nonneg hshares
  unfold OwnTotal
  constructor
  · intro heq
    by_cases hfull : bwRefBps ≤ pm.bwBps
    · exact Or.inl hfull
    · have hless : pm.bwBps / bwRefBps < 1 := (div_lt_one bwRefBps_pos).mpr (not_le.mp hfull)
      rw [min_eq_left hless.le] at heq
      have hzero : ((paths.filter fun other => other.pathID ≠ pm.pathID).map fun other =>
          other.bwBps / bwRefBps).sum = 0 := by
        rcases min_choice (pm.bwBps / bwRefBps + ((paths.filter fun other =>
          other.pathID ≠ pm.pathID).map fun other => other.bwBps / bwRefBps).sum) 1 with h | h
        · linarith
        · linarith
      refine Or.inr fun other hother hne => ?_
      have hmem : other ∈ paths.filter fun other => other.pathID ≠ pm.pathID :=
        mem_filter.mpr ⟨hother, decide_eq_true hne⟩
      have hshare := mem_map_of_mem (f := fun other => other.bwBps / bwRefBps) hmem
      have hle := (single_le_sum hshares _ hshare).trans_eq hzero
      have hnone := le_antisymm hle (hshares _ hshare)
      exact (div_eq_zero_iff.mp hnone).resolve_right bwRefBps_pos.ne'
  · rintro (hfull | hzero)
    · have hone : 1 ≤ pm.bwBps / bwRefBps := (one_le_div bwRefBps_pos).mpr hfull
      rw [min_eq_right hone, min_eq_right (by linarith)]
    · have hsum : ((paths.filter fun other => other.pathID ≠ pm.pathID).map fun other =>
          other.bwBps / bwRefBps).sum = 0 := by
        refine sum_eq_zero fun x hx => ?_
        obtain ⟨other, hother, rfl⟩ := mem_map.mp hx
        obtain ⟨hmem, hne⟩ := mem_filter.mp hother
        rw [hzero other hmem (of_decide_eq_true hne), zero_div]
      rw [hsum, add_zero]

end Total

end MpQuic.Utility

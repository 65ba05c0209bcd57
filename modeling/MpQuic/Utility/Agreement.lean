import MpQuic.Utility.Total

namespace MpQuic.Utility

section Formulas

variable {K : Type*} [Field K] [LinearOrder K] {power : K → K → K}

theorem worker_normalizeG [IsStrictOrderedRing K] (bwBps : K) :
    Worker.normalizeG bwBps = normalizeG bwBps := by
  have href : (bwRefBps : K) = 30000000 := by
    unfold bwRefBps
    norm_num
  unfold normalizeG
  rw [href]
  rfl

theorem gTotalPowAlpha_eq (hpower : IsPower power) {gTotal alpha : K} (hgTotal : 0 ≤ gTotal)
    (halpha : 0 < alpha) : gTotalPowAlpha power gTotal alpha = power gTotal alpha := by
  unfold gTotalPowAlpha
  split_ifs with hzero
  · rw [le_antisymm hzero hgTotal, hpower.zero alpha halpha]
  · rfl

theorem worker_qaccessGainBackoff (hpower : IsPower power) {gTotal : K} (hgTotal : 0 ≤ gTotal)
    (normD normL : K) {c : Coefficients K} (hc : c.Valid) :
    Worker.qaccessGainBackoff power gTotal normD normL c =
      (clamp (gainRaw power gTotal normD normL c) legacyGainMin legacyGainMax,
        clamp (retentionRaw power gTotal normD normL c) legacyRetMin legacyRetMax) := by
  unfold Worker.qaccessGainBackoff gainRaw retentionRaw throughputReward lossPenalty delayPenalty
  rw [gTotalPowAlpha_eq hpower hgTotal hc.alpha.1]
  refine Prod.ext (congrArg (clamp · _ _) ?_) (congrArg (clamp · _ _) ?_)
  · ring
  · ring

theorem IsPower.bounds (hpower : IsPower power) {x alpha : K} (halpha : 0 < alpha) (hx : 0 ≤ x)
    (hone : x ≤ 1) : 0 ≤ power x alpha ∧ power x alpha ≤ 1 := by
  constructor
  · rcases hx.eq_or_lt with rfl | hpos
    · exact (hpower.zero alpha halpha).ge
    · rw [← hpower.zero alpha halpha]
      exact (hpower.strictMono alpha halpha 0 x le_rfl hpos).le
  · rcases hone.eq_or_lt with rfl | hless
    · exact (hpower.one alpha).le
    · rw [← hpower.one alpha]
      exact (hpower.strictMono alpha halpha x 1 hx hless).le

theorem gain_without_penalties [IsStrictOrderedRing K] (hpower : IsPower power) {gTotal : K}
    (hgTotal : 0 ≤ gTotal) (hone : gTotal ≤ 1) (normD normL : K) :
    clamp (gainRaw power gTotal normD normL ⟨1, 0, 0⟩) legacyGainMin legacyGainMax =
      1 + 2 / 10 * power gTotal 1 := by
  have hraw : gainRaw power gTotal normD normL ⟨1, 0, 0⟩ = 1 + 2 / 10 * power gTotal 1 := by
    unfold gainRaw throughputReward lossPenalty delayPenalty
    rw [gTotalPowAlpha_eq hpower hgTotal one_pos]
    ring
  obtain ⟨hlow, hhigh⟩ := hpower.bounds one_pos hgTotal hone
  rw [hraw]
  unfold clamp legacyGainMin legacyGainMax
  rw [if_neg (by linarith), if_neg (by linarith)]

theorem valid_without_penalties [IsStrictOrderedRing K] : (⟨1, 0, 0⟩ : Coefficients K).Valid where
  alpha := ⟨one_pos, one_le_two⟩
  beta := ⟨le_rfl, zero_le_one⟩
  gamma := ⟨le_rfl, zero_le_one⟩

end Formulas

section Round

variable {K : Type*}

structure UtilityController.Keeps (uc state : UtilityController K) : Prop where
  mode : state.mode = uc.mode
  controlLawMode : state.controlLawMode = uc.controlLawMode
  gains : state.minGain = uc.minGain ∧ state.maxGain = uc.maxGain
  backoffs : state.minBackoff = uc.minBackoff ∧ state.maxBackoff = uc.maxBackoff
  roundGTotal : state.roundGTotal = uc.roundGTotal
  coefficients : state.coefficients = uc.coefficients
  collected : state.collected = uc.collected
  exports : state.exports = uc.exports

namespace UtilityController

theorem Keeps.refl (uc : UtilityController K) : uc.Keeps uc :=
  ⟨rfl, rfl, ⟨rfl, rfl⟩, ⟨rfl, rfl⟩, rfl, rfl, rfl, rfl⟩

theorem Keeps.trans {uc state later : UtilityController K} (h : uc.Keeps state)
    (hlater : state.Keeps later) : uc.Keeps later where
  mode := hlater.mode.trans h.mode
  controlLawMode := hlater.controlLawMode.trans h.controlLawMode
  gains := ⟨hlater.gains.1.trans h.gains.1, hlater.gains.2.trans h.gains.2⟩
  backoffs := ⟨hlater.backoffs.1.trans h.backoffs.1, hlater.backoffs.2.trans h.backoffs.2⟩
  roundGTotal := hlater.roundGTotal.trans h.roundGTotal
  coefficients := hlater.coefficients.trans h.coefficients
  collected := hlater.collected.trans h.collected
  exports := hlater.exports.trans h.exports

variable [Field K] [LinearOrder K] {power : K → K → K}

theorem keeps_lawFor (uc : UtilityController K) (pm : PathMetrics K) :
    uc.Keeps (uc.lawFor power pm).2 := by
  unfold lawFor gainBackoff qaccessGainBackoffForPath
  split_ifs
  · cases hlaw : uc.controlLawMode with
    | legacy => exact Keeps.refl uc
    | safeTV1 => exact ⟨rfl, hlaw.symm, ⟨rfl, rfl⟩, ⟨rfl, rfl⟩, rfl, rfl, rfl, rfl⟩
  · exact Keeps.refl uc
  · exact Keeps.refl uc

theorem keeps_compute (uc : UtilityController K) (pm : PathMetrics K) :
    uc.Keeps (uc.compute power pm).2 := by
  obtain ⟨hmode, hlaw, hgains, hbackoffs, htotal, hcoefficients, hcollected, hexports⟩ :=
    @keeps_lawFor K _ _ power uc (uc.prepare pm)
  exact ⟨hmode, hlaw, hgains, hbackoffs, htotal, hcoefficients, hcollected, hexports⟩

theorem mem_applyUtility {uc : UtilityController K} {paths : List (PathMetrics K)}
    {computed : Computed K} (hcomputed : computed ∈ (applyUtility power uc paths).1) :
    ∃ pm ∈ paths, ∃ state, uc.Keeps state ∧ computed = (state.compute power pm).1 := by
  induction paths generalizing uc with
  | nil => cases hcomputed
  | cons pm rest ih =>
    rcases List.mem_cons.mp hcomputed with rfl | hlater
    · exact ⟨pm, List.mem_cons_self, uc, Keeps.refl uc, rfl⟩
    · obtain ⟨other, hother, state, hkeeps, heq⟩ := ih hlater
      exact ⟨other, List.mem_cons_of_mem _ hother, state, (keeps_compute uc pm).trans hkeeps, heq⟩

theorem computed_of_mem {uc : UtilityController K} {paths : List (PathMetrics K)}
    {pm : PathMetrics K} (hpm : pm ∈ paths) :
    ∃ state, uc.Keeps state ∧ (state.compute power pm).1 ∈ (applyUtility power uc paths).1 := by
  induction paths generalizing uc with
  | nil => cases hpm
  | cons head rest ih =>
    rcases List.mem_cons.mp hpm with rfl | hrest
    · exact ⟨uc, Keeps.refl uc, List.mem_cons_self⟩
    · obtain ⟨state, hkeeps, hmem⟩ := @ih (uc.compute power head).2 hrest
      exact ⟨state, (keeps_compute uc head).trans hkeeps, List.mem_cons_of_mem _ hmem⟩

end UtilityController

end Round

section Agreement

variable {K : Type*} [Field K] [LinearOrder K] {power : K → K → K}

-- The bounds that `NewUtilityController` sets.
structure UtilityController.LegacyBounds (uc : UtilityController K) : Prop where
  gains : uc.minGain = legacyGainMin ∧ uc.maxGain = legacyGainMax
  backoffs : uc.minBackoff = legacyRetMin ∧ uc.maxBackoff = legacyRetMax

def legacyScores (power : K → K → K) (gTotal normD normL : K) (c : Coefficients K) :
    Worker.Features K where
  utility := qaccessUtility power gTotal normD normL c
  gain := clamp (gainRaw power gTotal normD normL c) legacyGainMin legacyGainMax
  backoff := clamp (retentionRaw power gTotal normD normL c) legacyRetMin legacyRetMax

theorem signalFor_legacy {uc : UtilityController K} (hlaw : uc.controlLawMode = .legacy)
    (hbounds : uc.LegacyBounds) {pm : PathMetrics K} (hcontrols : uc.controls pm = true) :
    (⟨(uc.signalFor power pm).utility, (uc.signalFor power pm).gain,
        (uc.signalFor power pm).backoff⟩ : Worker.Features K) =
      legacyScores power (uc.totalFor pm) (normalizeD pm.owdMs pm.delayGradientMs)
        (normalizeL pm.lossRate) (uc.coefficientsFor pm.pathID) := by
  unfold UtilityController.signalFor UtilityController.lawFor UtilityController.gainBackoff
    UtilityController.qaccessGainBackoffForPath legacyScores
  dsimp only
  rw [if_pos hcontrols, if_pos hcontrols, hlaw, ← hbounds.gains.1, ← hbounds.gains.2,
    ← hbounds.backoffs.1, ← hbounds.backoffs.2]
  split_ifs
  · rfl
  · rfl

theorem sample_compute {uc : UtilityController K} {pm : PathMetrics K}
    (hcontrols : uc.controls (uc.prepare pm) = true) (hexports : uc.exports pm.pathID = true) :
    (uc.compute power pm).1 = ⟨uc.signalFor power (uc.prepare pm),
      some (UtilityController.buildTrainRow (uc.prepare pm)
        (uc.signalFor power (uc.prepare pm)))⟩ := by
  have hid : uc.exports (uc.prepare pm).pathID = true := hexports
  unfold UtilityController.compute
  dsimp only
  rw [hcontrols, hid]
  rfl

theorem pathID_of_sample {uc : UtilityController K} {pm : PathMetrics K} {sample : Sample K}
    (hsample : (uc.compute power pm).1.sample = some sample) : sample.pathID = pm.pathID := by
  unfold UtilityController.compute at hsample
  dsimp only at hsample
  split_ifs at hsample
  cases hsample
  rfl

variable [IsStrictOrderedRing K]

theorem own_le_total {paths : List (PathMetrics K)} (hpaths : ∀ pm ∈ paths, pm.NonNegative)
    {pm : PathMetrics K} (hpm : pm ∈ paths) :
    normalizeG pm.bwBps ≤ computeRoundGTotal paths := by
  rw [computeRoundGTotal_eq hpaths, normalizeG_of_nonneg (hpaths pm hpm).bwBps]
  refine min_le_min_right _ ?_
  exact List.single_le_sum (shares_nonneg hpaths) _
    (List.mem_map_of_mem (f := fun pm => pm.bwBps / bwRefBps) hpm)

theorem normalizeG_bounds {x : K} (hx : 0 ≤ x) : 0 ≤ normalizeG x ∧ normalizeG x ≤ 1 := by
  rw [normalizeG_of_nonneg hx]
  exact ⟨le_min (div_nonneg hx bwRefBps_pos.le) zero_le_one, min_le_right _ _⟩

theorem total_bounds {paths : List (PathMetrics K)} (hpaths : ∀ pm ∈ paths, pm.NonNegative) :
    0 ≤ computeRoundGTotal paths ∧ computeRoundGTotal paths ≤ 1 := by
  rw [computeRoundGTotal_eq hpaths]
  exact ⟨le_min (List.sum_nonneg (shares_nonneg hpaths)) zero_le_one, min_le_right _ _⟩

theorem totalFor_eq {paths : List (PathMetrics K)} (hpaths : ∀ pm ∈ paths, pm.NonNegative)
    {pm : PathMetrics K} (hpm : pm ∈ paths) {uc state : UtilityController K}
    (hkeeps : (uc.setRoundGTotal (computeRoundGTotal paths)).Keeps state) :
    state.totalFor (state.prepare pm) = computeRoundGTotal paths := by
  obtain ⟨hnonneg, hone⟩ := total_bounds hpaths
  have hround : state.roundGTotal = computeRoundGTotal paths := by
    rw [hkeeps.roundGTotal]
    unfold UtilityController.setRoundGTotal
    dsimp only
    rw [sanitizeMetric_of_nonneg hnonneg, clamp_of_nonneg hnonneg, min_eq_left hone]
  have hbw : (state.prepare pm).bwBps = pm.bwBps := sanitizeMetric_of_nonneg (hpaths pm hpm).bwBps
  unfold UtilityController.totalFor
  rw [hround, hbw]
  split_ifs with hzero
  · refine le_antisymm (own_le_total hpaths hpm) (hzero.1.trans ?_)
    exact (normalizeG_bounds (hpaths pm hpm).bwBps).1
  · rfl

-- The samples of a path in a round: there is one, and the worker computes for each of them
-- what the controller has computed.
def ScoredAlike (power : K → K → K) (uc : UtilityController K) (paths : List (PathMetrics K))
    (pathID : Nat) : Prop :=
  (∃ computed ∈ (uc.monitorRound power paths).1, ∃ sample, computed.sample = some sample ∧
    sample.pathID = pathID) ∧
  ∀ computed ∈ (uc.monitorRound power paths).1, ∀ sample, computed.sample = some sample →
    sample.pathID = pathID → Agrees power computed.signal sample

theorem featureRow_buildTrainRow (hpower : IsPower power) {pm : PathMetrics K}
    (hbw : 0 ≤ pm.bwBps) {signal : ControlSignal K} (hvalid : signal.coefficients.Valid) :
    Worker.featureRow power signal.coefficients (UtilityController.buildTrainRow pm signal) =
      legacyScores power (normalizeG pm.bwBps) (normalizeD pm.owdMs pm.delayGradientMs)
        (normalizeL pm.lossRate) signal.coefficients := by
  unfold Worker.featureRow UtilityController.buildTrainRow
  dsimp only
  rw [worker_normalizeG, worker_qaccessGainBackoff hpower (normalizeG_bounds hbw).1 _ _ hvalid]
  rfl

theorem round_scores (hpower : IsPower power) {uc state : UtilityController K}
    (hmode : uc.mode ≠ .baseline) (hlaw : uc.controlLawMode = .legacy) (hbounds : uc.LegacyBounds)
    {paths : List (PathMetrics K)} (hpaths : ∀ pm ∈ paths, pm.NonNegative) {pm : PathMetrics K}
    (hpm : pm ∈ paths) (hactive : pathMetricsActive pm = true)
    (hexports : uc.exports pm.pathID = true) (hvalid : (uc.coefficientsFor pm.pathID).Valid)
    (hkeeps : (uc.setRoundGTotal (computeRoundGTotal paths)).Keeps state) :
    ∃ signal sample normD normL, (state.compute power pm).1 = ⟨signal, some sample⟩ ∧
      sample.pathID = pm.pathID ∧
      Worker.featureRow power sample.coefficients sample =
        legacyScores power (normalizeG pm.bwBps) normD normL (uc.coefficientsFor pm.pathID) ∧
      ⟨signal.utility, signal.gain, signal.backoff⟩ =
        legacyScores power (computeRoundGTotal paths) normD normL
          (uc.coefficientsFor pm.pathID) := by
  have hcontrols : state.controls (state.prepare pm) = true := by
    unfold UtilityController.controls
    rw [active_prepare state pm, hactive, hkeeps.mode, Bool.and_true]
    exact decide_eq_true hmode
  have hc : state.coefficientsFor pm.pathID = uc.coefficientsFor pm.pathID := by
    unfold UtilityController.coefficientsFor
    rw [hkeeps.mode, hkeeps.coefficients, hkeeps.collected]
    rfl
  have hbw : (state.prepare pm).bwBps = pm.bwBps := sanitizeMetric_of_nonneg (hpaths pm hpm).bwBps
  have hstateLaw : state.controlLawMode = .legacy := hkeeps.controlLawMode.trans hlaw
  have hstateBounds : state.LegacyBounds :=
    ⟨⟨hkeeps.gains.1.trans hbounds.gains.1, hkeeps.gains.2.trans hbounds.gains.2⟩,
      ⟨hkeeps.backoffs.1.trans hbounds.backoffs.1, hkeeps.backoffs.2.trans hbounds.backoffs.2⟩⟩
  have hstateValid : (state.coefficientsFor pm.pathID).Valid := by
    rw [hc]
    exact hvalid
  have hrecorded := @sample_compute K _ _ power state pm hcontrols
    ((congrFun hkeeps.exports pm.pathID).trans hexports)
  refine ⟨_, _, normalizeD (state.prepare pm).owdMs (state.prepare pm).delayGradientMs,
    normalizeL (state.prepare pm).lossRate, hrecorded, rfl, ?_, ?_⟩
  · rw [← hbw, ← hc]
    exact featureRow_buildTrainRow hpower (hbw ▸ (hpaths pm hpm).bwBps) hstateValid
  · rw [← totalFor_eq hpaths hpm hkeeps, ← hc]
    exact signalFor_legacy hstateLaw hstateBounds hcontrols

-- The worker scores the samples of a path as the controller has done, whatever the
-- coefficients are, exactly if the total of the round is that of this path alone.
theorem worker_scores_controller_iff (power : K → K → K) (hpower : IsPower power)
    (uc : UtilityController K) (hmode : uc.mode ≠ .baseline)
    (hlaw : uc.controlLawMode = .legacy) (hbounds : uc.LegacyBounds)
    (paths : List (PathMetrics K)) (hpaths : ∀ pm ∈ paths, pm.NonNegative)
    (hdistinct : (paths.map PathMetrics.pathID).Nodup) (pm : PathMetrics K) (hpm : pm ∈ paths)
    (hactive : pathMetricsActive pm = true) (hexports : uc.exports pm.pathID = true) :
    (∀ coefficients collected, (∀ pathID, (coefficients pathID).Valid) → collected.Valid →
      ScoredAlike power { uc with coefficients := coefficients, collected := collected } paths
        pm.pathID) ↔ OwnTotal paths pm := by
  rw [← total_eq_own_iff hpaths hdistinct hpm]
  constructor
  · intro h
    -- Without penalties the gains differ if the totals do.
    have hvalid := @valid_without_penalties K _ _ _
    obtain ⟨-, hagree⟩ := h (fun _ => ⟨1, 0, 0⟩) ⟨1, 0, 0⟩ (fun _ => hvalid) hvalid
    generalize hstart : ({ uc with coefficients := fun _ => ⟨1, 0, 0⟩, collected := ⟨1, 0, 0⟩ } :
      UtilityController K) = start at hagree
    have hstartBounds : start.LegacyBounds := by
      subst hstart
      exact ⟨hbounds.gains, hbounds.backoffs⟩
    have hc : start.coefficientsFor pm.pathID = ⟨1, 0, 0⟩ := by
      subst hstart
      unfold UtilityController.coefficientsFor
      exact ite_self _
    obtain ⟨state, hkeeps, hmem⟩ := @UtilityController.computed_of_mem K _ _ power
      (start.setRoundGTotal (computeRoundGTotal paths)) paths pm hpm
    obtain ⟨signal, sample, normD, normL, heq, hid, hfeatures, hsignal⟩ :=
      round_scores hpower (hstart ▸ hmode) (hstart ▸ hlaw) hstartBounds hpaths hpm hactive
        (hstart ▸ hexports) (hc ▸ hvalid) hkeeps
    rw [heq] at hmem
    have hagrees := agrees_iff.mp (hagree _ hmem sample rfl hid)
    rw [hfeatures, hsignal, hc] at hagrees
    have hgains := congrArg Worker.Features.gain hagrees
    obtain ⟨hown, hownOne⟩ := normalizeG_bounds (hpaths pm hpm).bwBps
    obtain ⟨htotal, htotalOne⟩ := total_bounds hpaths
    unfold legacyScores at hgains
    rw [gain_without_penalties hpower hown hownOne, gain_without_penalties hpower htotal htotalOne]
      at hgains
    by_contra hne
    have hless := lt_of_le_of_ne (own_le_total hpaths hpm) (Ne.symm hne)
    have hpowers := hpower.strictMono 1 one_pos _ _ hown hless
    linarith
  · intro h coefficients collected hcoefficients hcollected
    generalize hstart : ({ uc with coefficients := coefficients, collected := collected } :
      UtilityController K) = start
    have hstartBounds : start.LegacyBounds := by
      subst hstart
      exact ⟨hbounds.gains, hbounds.backoffs⟩
    have hvalid : (start.coefficientsFor pm.pathID).Valid := by
      subst hstart
      unfold UtilityController.coefficientsFor
      split_ifs
      · exact hcollected
      · exact hcoefficients pm.pathID
    have hscores := fun state => @round_scores K _ _ power _ hpower start state (hstart ▸ hmode)
      (hstart ▸ hlaw) hstartBounds paths hpaths pm hpm hactive (hstart ▸ hexports) hvalid
    constructor
    · obtain ⟨state, hkeeps, hmem⟩ := @UtilityController.computed_of_mem K _ _ power
        (start.setRoundGTotal (computeRoundGTotal paths)) paths pm hpm
      obtain ⟨signal, sample, -, -, heq, hid, -, -⟩ := hscores state hkeeps
      rw [heq] at hmem
      exact ⟨_, hmem, sample, rfl, hid⟩
    · intro computed hcomputed sample hsample hid
      obtain ⟨other, hother, state, hkeeps, rfl⟩ := UtilityController.mem_applyUtility hcomputed
      -- The sample is that of the path itself, since the path IDs are distinct.
      have hsame : other = pm :=
        List.inj_on_of_nodup_map hdistinct hother hpm ((pathID_of_sample hsample).symm.trans hid)
      subst hsame
      obtain ⟨signal, own, normD, normL, heq, -, hfeatures, hsignal⟩ := hscores state hkeeps
      rw [heq] at hsample ⊢
      cases hsample
      rw [h] at hsignal
      exact agrees_iff.mpr (hfeatures.trans hsignal.symm)

end Agreement

theorem worker_scores_controller_iff_example :
    let uc : UtilityController ℝ := newUtilityController .qaccessT .legacy ⟨6 / 10, 3 / 10, 1 / 10⟩
    let pm : PathMetrics ℝ := ⟨1, 15000000, 20, 0, 0, 2000⟩
    let paths : List (PathMetrics ℝ) := [⟨0, 0, 0, 0, 0, 0⟩, pm]
    OwnTotal paths pm ∧
      ∀ coefficients collected, (∀ pathID, (coefficients pathID).Valid) → collected.Valid →
        ScoredAlike (fun x alpha : ℝ => x ^ alpha)
          { uc with coefficients := coefficients, collected := collected } paths pm.pathID := by
  intro uc pm paths
  have hpaths : ∀ pm ∈ paths, pm.NonNegative := by
    intro path hpath
    rcases List.mem_cons.mp hpath with rfl | hpath
    · exact ⟨le_rfl, le_rfl, le_rfl⟩
    · rw [List.mem_singleton.mp hpath]
      exact ⟨by norm_num [pm], by norm_num [pm], le_rfl⟩
  have hown : OwnTotal paths pm := by
    refine Or.inr fun other hother hne => ?_
    rcases List.mem_cons.mp hother with rfl | hother
    · rfl
    · exact absurd (congrArg PathMetrics.pathID (List.mem_singleton.mp hother)) hne
  have hactive : pathMetricsActive pm = true := by
    simp [pathMetricsActive, pm, inflightActiveMin]
  exact ⟨hown, (worker_scores_controller_iff _ isPower_rpow uc (by decide) rfl
    ⟨⟨rfl, rfl⟩, ⟨rfl, rfl⟩⟩ paths hpaths (by decide) pm (by simp [paths]) hactive rfl).mpr hown⟩

-- Two active paths: the controller computes with three quarters of the reference for both, and
-- the worker with a half for the first.
theorem worker_forgets_the_other_path :
    let uc : UtilityController ℝ := newUtilityController .qaccessT .legacy ⟨1, 0, 0⟩
    let paths : List (PathMetrics ℝ) := [⟨1, 15000000, 20, 0, 0, 2000⟩, ⟨3, 7500000, 20, 0, 0, 2000⟩]
    ∃ signal sample, ⟨signal, some sample⟩ ∈
        (uc.monitorRound (fun x alpha : ℝ => x ^ alpha) paths).1 ∧
      sample.pathID = 1 ∧ signal.gain = 23 / 20 ∧
      (Worker.featureRow (fun x alpha : ℝ => x ^ alpha) sample.coefficients sample).gain =
        11 / 10 := by
  intro uc paths
  have hpaths : ∀ pm ∈ paths, pm.NonNegative := by
    intro path hpath
    rcases List.mem_cons.mp hpath with rfl | hpath
    · exact ⟨by norm_num, by norm_num, le_rfl⟩
    · rw [List.mem_singleton.mp hpath]
      exact ⟨by norm_num, by norm_num, le_rfl⟩
  have hactive : pathMetricsActive (⟨1, 15000000, 20, 0, 0, 2000⟩ : PathMetrics ℝ) = true := by
    simp [pathMetricsActive, inflightActiveMin]
  have hpm : (⟨1, 15000000, 20, 0, 0, 2000⟩ : PathMetrics ℝ) ∈ paths := List.mem_cons_self
  obtain ⟨state, hkeeps, hmem⟩ := @UtilityController.computed_of_mem ℝ _ _
    (fun x alpha : ℝ => x ^ alpha) (uc.setRoundGTotal (computeRoundGTotal paths)) paths _ hpm
  obtain ⟨signal, sample, normD, normL, heq, hid, hfeatures, hsignal⟩ :=
    round_scores isPower_rpow (by decide) rfl ⟨⟨rfl, rfl⟩, ⟨rfl, rfl⟩⟩ hpaths hpm hactive rfl
      valid_without_penalties hkeeps
  have hown : normalizeG (15000000 : ℝ) = 1 / 2 := by
    rw [normalizeG_of_nonneg (by norm_num), bwRefBps]
    norm_num
  have htotal : computeRoundGTotal paths = 3 / 4 := by
    rw [computeRoundGTotal_eq hpaths]
    simp only [paths, List.map_cons, List.map_nil, List.sum_cons, List.sum_nil, bwRefBps]
    norm_num
  rw [heq] at hmem
  refine ⟨signal, sample, hmem, hid, ?_, ?_⟩
  · refine (congrArg Worker.Features.gain hsignal).trans ?_
    rw [htotal]
    refine (gain_without_penalties isPower_rpow (by norm_num) (by norm_num) normD normL).trans ?_
    rw [Real.rpow_one]
    norm_num
  · rw [hfeatures, hown]
    refine (gain_without_penalties isPower_rpow (by norm_num) (by norm_num) normD normL).trans ?_
    rw [Real.rpow_one]
    norm_num

end MpQuic.Utility

import MpQuic.Library.Run
import MpQuic.Utility.Defs

namespace MpQuic.Utility

open MpQuic.Library
open MpQuic.QAccess (UtilityMode isQAccessRuntimeMode)

section Model

variable {K : Type*} [Field K] [LinearOrder K]

structure AppliedGain (K : Type*) where
  pathID : Nat
  active : Bool
  gainClamped : K
  gain : K
  deriving DecidableEq

structure Round (K : Type*) where
  gTotal : K
  coefficients : Nat → Coefficients K
  pm : PathMetrics K

namespace UtilityController

variable (power : K → K → K) (uc : UtilityController K)

-- The target of the safe law: `GainClamped` of its diagnostics.
def gainClamped (pm : PathMetrics K) : K :=
  let c := uc.coefficientsFor pm.pathID
  clamp (1 + throughputReward power (uc.totalFor pm) c + lossPenalty (normalizeL pm.lossRate) c +
    boundDelayPenaltyForGain (delayPenalty (normalizeD pm.owdMs pm.delayGradientMs) c))
    safeTV1GainMin safeTV1GainMax

def remembered (pathID : Nat) : K :=
  if uc.prevAppliedGain pathID = 0 then 1 else uc.prevAppliedGain pathID

def inRound (round : Round K) : UtilityController K :=
  { uc.setRoundGTotal round.gTotal with coefficients := round.coefficients }

def gainStep (round : Round K) : Option (UtilityController K × List (AppliedGain K)) :=
  let uc := uc.inRound round
  let computed := uc.compute power round.pm
  some (computed.2, [⟨computed.1.signal.pathID, computed.1.signal.active,
    uc.gainClamped power (uc.prepare round.pm), computed.1.signal.gain⟩])

def SteadyWhenIdle (round : Round K) : Prop :=
  pathMetricsActive round.pm = true ∨ uc.remembered round.pm.pathID = 1

instance (round : Round K) : Decidable (uc.SteadyWhenIdle round) :=
  inferInstanceAs (Decidable (_ ∨ _))

end UtilityController

def ofPath (pathID : Nat) (log : List (AppliedGain K)) : List (AppliedGain K) :=
  log.filter fun applied => applied.pathID = pathID

def lastGain (pathID : Nat) (log : List (AppliedGain K)) : K :=
  ((ofPath pathID log).getLast?.map AppliedGain.gain).getD 1

-- What the law guarantees of a gain after the ones before it: its range, its distance from
-- the last gain of the path, and that it has reached a target that was the same for the last
-- eight rounds.
structure RateLimited (past : List (AppliedGain K)) (applied : AppliedGain K) : Prop where
  range : safeTV1GainMin ≤ applied.gain ∧ applied.gain ≤ safeTV1GainMax
  step : |applied.gain - lastGain applied.pathID past| ≤ safeTV1MaxGainStep
  reached : ∀ stretch target, stretch <:+ ofPath applied.pathID (past ++ [applied]) →
    8 ≤ stretch.length → (∀ e ∈ stretch, e.active = true ∧ e.gainClamped = target) →
      applied.gain = target

end Model

section Limiter

variable {K : Type*} [Field K] [LinearOrder K] [IsStrictOrderedRing K] {x lo hi prev target : K}

omit [Field K] [IsStrictOrderedRing K] in
theorem clamp_mem (h : lo ≤ hi) : lo ≤ clamp x lo hi ∧ clamp x lo hi ≤ hi := by
  unfold clamp
  split_ifs with hlow hhigh
  · exact ⟨le_refl _, h⟩
  · exact ⟨h, le_refl _⟩
  · exact ⟨not_lt.mp hlow, not_lt.mp hhigh⟩

theorem safeTV1MaxGainStep_pos : (0 : K) < safeTV1MaxGainStep := by
  unfold safeTV1MaxGainStep
  positivity

theorem safeTV1Gain_lt : (safeTV1GainMin : K) < safeTV1GainMax := by
  unfold safeTV1GainMin safeTV1GainMax
  norm_num

theorem stepLimitGain_cases (prev target : K) :
    (|target - prev| ≤ safeTV1MaxGainStep ∧ stepLimitGain prev target = target) ∨
      (safeTV1MaxGainStep < target - prev ∧
        stepLimitGain prev target = prev + safeTV1MaxGainStep) ∨
      (safeTV1MaxGainStep < prev - target ∧
        stepLimitGain prev target = prev - safeTV1MaxGainStep) := by
  unfold stepLimitGain clamp
  split_ifs with hlow hhigh
  · exact .inr (.inr ⟨by linarith, by ring⟩)
  · exact .inr (.inl ⟨hhigh, rfl⟩)
  · exact .inl ⟨abs_le.mpr ⟨not_lt.mp hlow, not_lt.mp hhigh⟩, by ring⟩

theorem stepLimitGain_near (prev target : K) :
    |stepLimitGain prev target - prev| ≤ safeTV1MaxGainStep := by
  have hpos : (0 : K) < safeTV1MaxGainStep := safeTV1MaxGainStep_pos
  rcases stepLimitGain_cases prev target with ⟨hnear, heq⟩ | ⟨-, heq⟩ | ⟨-, heq⟩
  · rw [heq]
    exact hnear
  · rw [heq, add_sub_cancel_left, abs_of_pos hpos]
  · rw [heq, sub_sub_cancel_left, abs_neg, abs_of_pos hpos]

theorem stepLimitGain_mem (hprev : lo ≤ prev ∧ prev ≤ hi) (htarget : lo ≤ target ∧ target ≤ hi) :
    lo ≤ stepLimitGain prev target ∧ stepLimitGain prev target ≤ hi := by
  have hpos : (0 : K) < safeTV1MaxGainStep := safeTV1MaxGainStep_pos
  rcases stepLimitGain_cases prev target with ⟨-, heq⟩ | ⟨hfar, heq⟩ | ⟨hfar, heq⟩
  · rw [heq]
    exact htarget
  · rw [heq]
    exact ⟨by linarith [hprev.1], by linarith [htarget.2]⟩
  · rw [heq]
    exact ⟨by linarith [htarget.1], by linarith [hprev.2]⟩

theorem stepLimitGain_approach {steps : K} (h : |prev - target| ≤ max 0 steps) :
    |stepLimitGain prev target - target| ≤ max 0 (steps - safeTV1MaxGainStep) := by
  rcases stepLimitGain_cases prev target with ⟨-, heq⟩ | ⟨hfar, heq⟩ | ⟨hfar, heq⟩
  · rw [heq, sub_self, abs_zero]
    exact le_max_left _ _
  · have hpos : (0 : K) < safeTV1MaxGainStep := safeTV1MaxGainStep_pos
    have habs := abs_of_neg (show prev - target < 0 by linarith)
    have hsteps : |prev - target| ≤ steps := (le_max_iff.mp h).resolve_left (by linarith)
    rw [heq, abs_of_neg (by linarith)]
    exact le_max_of_le_right (by linarith)
  · have hpos : (0 : K) < safeTV1MaxGainStep := safeTV1MaxGainStep_pos
    have habs := abs_of_pos (show 0 < prev - target by linarith)
    have hsteps : |prev - target| ≤ steps := (le_max_iff.mp h).resolve_left (by linarith)
    rw [heq, abs_of_pos (by linarith)]
    exact le_max_of_le_right (by linarith)

end Limiter

section Log

variable {K : Type*} (log : List (AppliedGain K)) (applied : AppliedGain K)

theorem ofPath_concat_self :
    ofPath applied.pathID (log ++ [applied]) = ofPath applied.pathID log ++ [applied] := by
  simp [ofPath]

theorem ofPath_concat_of_ne {pathID : Nat} (hne : applied.pathID ≠ pathID) :
    ofPath pathID (log ++ [applied]) = ofPath pathID log := by
  simp [ofPath, hne]

variable [Field K]

theorem lastGain_concat_self : lastGain applied.pathID (log ++ [applied]) = applied.gain := by
  unfold lastGain
  rw [ofPath_concat_self, List.getLast?_concat]
  rfl

theorem lastGain_concat_of_ne {pathID : Nat} (hne : applied.pathID ≠ pathID) :
    lastGain pathID (log ++ [applied]) = lastGain pathID log := by
  unfold lastGain
  rw [ofPath_concat_of_ne log applied hne]

end Log

section Steps

variable {K : Type*} [Field K] [LinearOrder K] [IsStrictOrderedRing K] {power : K → K → K}
  {uc : UtilityController K} {round : Round K}

omit [IsStrictOrderedRing K] in
theorem lawFor_idle {pm : PathMetrics K} (hidle : pathMetricsActive pm = false) :
    uc.lawFor power pm = ((1, 1), uc) := by
  unfold UtilityController.lawFor UtilityController.controls
  rw [hidle, Bool.and_false]
  rfl

omit [IsStrictOrderedRing K] in
theorem lawFor_active {pm : PathMetrics K} (hmode : isQAccessRuntimeMode uc.mode = true)
    (hlaw : uc.controlLawMode = .safeTV1) (hactive : pathMetricsActive pm = true) :
    (uc.lawFor power pm).1.1 = stepLimitGain (uc.remembered pm.pathID) (uc.gainClamped power pm) ∧
      (uc.lawFor power pm).2 = { uc with
        prevAppliedGain :=
          Function.update uc.prevAppliedGain pm.pathID (uc.lawFor power pm).1.1 } := by
  have hbaseline : uc.mode ≠ .baseline := by
    intro h
    rw [h] at hmode
    cases hmode
  unfold UtilityController.lawFor UtilityController.controls UtilityController.gainBackoff
    UtilityController.qaccessGainBackoffForPath
  simp only [hactive, hbaseline, hmode, hlaw, ne_eq, not_false_eq_true, decide_true, Bool.and_true,
    ↓reduceIte, and_true]
  rfl

theorem gainClamped_mem (pm : PathMetrics K) :
    safeTV1GainMin ≤ uc.gainClamped power pm ∧ uc.gainClamped power pm ≤ safeTV1GainMax :=
  clamp_mem safeTV1Gain_lt.le

structure Computes (uc : UtilityController K) (round : Round K) (next : UtilityController K)
    (applied : AppliedGain K) : Prop where
  mode : next.mode = uc.mode
  law : next.controlLawMode = uc.controlLawMode
  pathID : applied.pathID = round.pm.pathID
  active : applied.active = pathMetricsActive round.pm
  target : safeTV1GainMin ≤ applied.gainClamped ∧ applied.gainClamped ≤ safeTV1GainMax
  moves : applied.active = true →
    applied.gain = stepLimitGain (uc.remembered applied.pathID) applied.gainClamped ∧
      next.prevAppliedGain = Function.update uc.prevAppliedGain applied.pathID applied.gain
  stays : applied.active = false → applied.gain = 1 ∧ next.prevAppliedGain = uc.prevAppliedGain

theorem gainStep_computes (hmode : isQAccessRuntimeMode uc.mode = true)
    (hlaw : uc.controlLawMode = .safeTV1) :
    ∃ next applied, uc.gainStep power round = some (next, [applied]) ∧
      Computes uc round next applied := by
  refine ⟨_, _, rfl, ?_⟩
  have hactive : pathMetricsActive ((uc.inRound round).prepare round.pm) =
      pathMetricsActive round.pm := active_prepare _ _
  cases hidle : pathMetricsActive round.pm with
  | false =>
    have hlawFor := @lawFor_idle K _ _ power (uc.inRound round) _ (hactive.trans hidle)
    refine ⟨?_, ?_, rfl, hactive, gainClamped_mem _, fun h => ?_, fun _ => ⟨?_, ?_⟩⟩
    · exact congrArg (fun law => law.2.mode) hlawFor
    · exact congrArg (fun law => law.2.controlLawMode) hlawFor
    · cases (hactive.trans hidle).symm.trans h
    · exact congrArg (fun law => law.1.1) hlawFor
    · exact congrArg (fun law => law.2.prevAppliedGain) hlawFor
  | true =>
    obtain ⟨hgain, hnext⟩ := @lawFor_active K _ _ power (uc.inRound round) _ hmode hlaw
      (hactive.trans hidle)
    refine ⟨?_, ?_, rfl, hactive, gainClamped_mem _, fun _ => ⟨hgain, ?_⟩, fun h => ?_⟩
    · exact congrArg (fun next => next.mode) hnext
    · exact congrArg (fun next => next.controlLawMode) hnext
    · exact congrArg (fun next => next.prevAppliedGain) hnext
    · cases (hactive.trans hidle).symm.trans h

-- How far a gain can be from its target after so many rounds, if this is positive.
def farthest (rounds : Nat) : K :=
  safeTV1GainMax - safeTV1GainMin - (rounds : K) * safeTV1MaxGainStep

omit [LinearOrder K] [IsStrictOrderedRing K] in
theorem farthest_zero : (farthest 0 : K) = safeTV1GainMax - safeTV1GainMin := by
  unfold farthest
  rw [Nat.cast_zero, zero_mul, sub_zero]

omit [LinearOrder K] [IsStrictOrderedRing K] in
theorem farthest_succ (rounds : Nat) :
    (farthest (rounds + 1) : K) = farthest rounds - safeTV1MaxGainStep := by
  unfold farthest
  rw [Nat.cast_succ]
  ring

theorem farthest_nonpos {rounds : Nat} (h : 8 ≤ rounds) : (farthest rounds : K) ≤ 0 := by
  have hsteps : (8 : K) * safeTV1MaxGainStep ≤ rounds * safeTV1MaxGainStep :=
    mul_le_mul_of_nonneg_right (by exact_mod_cast h) safeTV1MaxGainStep_pos.le
  have hspan : (safeTV1GainMax : K) - safeTV1GainMin ≤ 8 * safeTV1MaxGainStep := by
    unfold safeTV1GainMax safeTV1GainMin safeTV1MaxGainStep
    norm_num
  unfold farthest
  linarith

theorem abs_sub_le_farthest {x y : K} (hx : safeTV1GainMin ≤ x ∧ x ≤ safeTV1GainMax)
    (hy : safeTV1GainMin ≤ y ∧ y ≤ safeTV1GainMax) : |x - y| ≤ max 0 (farthest 0) := by
  rw [farthest_zero]
  refine le_max_of_le_right (abs_le.mpr ⟨?_, ?_⟩)
  · linarith [hx.1, hy.2]
  · linarith [hx.2, hy.1]

-- What is remembered of the gains that were applied so far: it is the last one of the path,
-- and every round with the same target has brought it a step nearer.
structure Follows (log : List (AppliedGain K)) (uc : UtilityController K) : Prop where
  mode : isQAccessRuntimeMode uc.mode = true
  law : uc.controlLawMode = .safeTV1
  range : ∀ pathID, safeTV1GainMin ≤ uc.remembered pathID ∧ uc.remembered pathID ≤ safeTV1GainMax
  last : ∀ pathID, uc.remembered pathID = lastGain pathID log
  near : ∀ pathID stretch target, safeTV1GainMin ≤ target ∧ target ≤ safeTV1GainMax →
    stretch <:+ ofPath pathID log → (∀ e ∈ stretch, e.active = true ∧ e.gainClamped = target) →
      |uc.remembered pathID - target| ≤
        max 0 (farthest stretch.length)
  limited : Logged RateLimited log

theorem one_mem : (safeTV1GainMin : K) ≤ 1 ∧ (1 : K) ≤ safeTV1GainMax := by
  unfold safeTV1GainMin safeTV1GainMax
  norm_num

omit [IsStrictOrderedRing K] in
theorem remembered_of_ne_zero {pathID : Nat} {gain : K} (hgain : gain ≠ 0)
    (h : uc.prevAppliedGain pathID = gain) : uc.remembered pathID = gain := by
  unfold UtilityController.remembered
  rw [h, if_neg hgain]

variable {next : UtilityController K} {applied : AppliedGain K} {log : List (AppliedGain K)}
  {pathID : Nat}

theorem remembered_computes
    (hrange : safeTV1GainMin ≤ uc.remembered applied.pathID ∧
      uc.remembered applied.pathID ≤ safeTV1GainMax)
    (hsteady : uc.SteadyWhenIdle round) (hc : Computes uc round next applied) :
    next.remembered applied.pathID = applied.gain ∧
      (safeTV1GainMin ≤ applied.gain ∧ applied.gain ≤ safeTV1GainMax) ∧
      |applied.gain - uc.remembered applied.pathID| ≤ safeTV1MaxGainStep := by
  cases hactive : applied.active with
  | true =>
    obtain ⟨hgain, hnext⟩ := hc.moves hactive
    have hmem := stepLimitGain_mem hrange hc.target
    rw [← hgain] at hmem
    refine ⟨remembered_of_ne_zero ?_ ?_, hmem, ?_⟩
    · have hmin : (0 : K) < safeTV1GainMin := by
        unfold safeTV1GainMin
        positivity
      exact (hmin.trans_le hmem.1).ne'
    · rw [hnext, Function.update_self]
    · rw [hgain]
      exact stepLimitGain_near _ _
  | false =>
    obtain ⟨hgain, hnext⟩ := hc.stays hactive
    have hone : uc.remembered applied.pathID = 1 := by
      rw [hc.pathID]
      exact hsteady.resolve_left (by rw [← hc.active, hactive]; exact Bool.false_ne_true)
    have hkept : next.remembered applied.pathID = uc.remembered applied.pathID := by
      unfold UtilityController.remembered
      rw [hnext]
    rw [hkept, hone, hgain, sub_self, abs_zero]
    exact ⟨rfl, one_mem, safeTV1MaxGainStep_pos.le⟩

omit [IsStrictOrderedRing K] in
theorem remembered_of_ne
    (hc : Computes uc round next applied) (hne : applied.pathID ≠ pathID) :
    next.remembered pathID = uc.remembered pathID := by
  unfold UtilityController.remembered
  cases hactive : applied.active with
  | true => rw [(hc.moves hactive).2, Function.update_of_ne hne.symm]
  | false => rw [(hc.stays hactive).2]

theorem near_computes (h : Follows log uc) (hc : Computes uc round next applied)
    (hgain : next.remembered applied.pathID = applied.gain)
    (hrange : safeTV1GainMin ≤ applied.gain ∧ applied.gain ≤ safeTV1GainMax)
    {stretch : List (AppliedGain K)} {target : K}
    (htarget : safeTV1GainMin ≤ target ∧ target ≤ safeTV1GainMax)
    (hstretch : stretch <:+ ofPath applied.pathID (log ++ [applied]))
    (hsame : ∀ e ∈ stretch, e.active = true ∧ e.gainClamped = target) :
    |next.remembered applied.pathID - target| ≤
      max 0 (farthest stretch.length) := by
  rw [hgain]
  rw [ofPath_concat_self, List.suffix_concat_iff] at hstretch
  rcases hstretch with rfl | ⟨before, rfl, hbefore⟩
  · exact abs_sub_le_farthest hrange htarget
  · obtain ⟨hactive, rfl⟩ := hsame applied (by simp)
    have hnear := stepLimitGain_approach (h.near _ before _ htarget hbefore fun e he =>
      hsame e (List.mem_append_left _ he))
    rw [← (hc.moves hactive).1] at hnear
    rw [List.length_append, List.length_singleton, farthest_succ]
    exact hnear

theorem rateLimited_computes (h : Follows log uc) (hsteady : uc.SteadyWhenIdle round)
    (hc : Computes uc round next applied) : RateLimited log applied := by
  obtain ⟨hgain, hrange, hstep⟩ := remembered_computes (h.range _) hsteady hc
  refine ⟨hrange, ?_, fun stretch target hstretch hlength hsame => ?_⟩
  · rw [← h.last]
    exact hstep
  · have htarget : safeTV1GainMin ≤ target ∧ target ≤ safeTV1GainMax := by
      obtain ⟨before, rfl, -⟩ | hnil := (List.suffix_concat_iff.mp
        (ofPath_concat_self log applied ▸ hstretch)).symm
      · rw [← (hsame applied (by simp)).2]
        exact hc.target
      · rw [hnil] at hlength
        cases hlength
    have hnear := near_computes h hc hgain hrange htarget hstretch hsame
    rw [max_eq_left (farthest_nonpos hlength), hgain] at hnear
    exact sub_eq_zero.mp (abs_nonpos_iff.mp hnear)

theorem Follows.computes (h : Follows log uc) (hsteady : uc.SteadyWhenIdle round)
    (hc : Computes uc round next applied) : Follows (log ++ [applied]) next := by
  obtain ⟨hgain, hrange, -⟩ := remembered_computes (h.range _) hsteady hc
  refine ⟨hc.mode ▸ h.mode, hc.law ▸ h.law, fun pathID => ?_, fun pathID => ?_,
    fun pathID stretch target htarget hstretch hsame => ?_,
    h.limited.snoc (rateLimited_computes h hsteady hc)⟩
  · by_cases hsame : applied.pathID = pathID
    · rw [← hsame, hgain]
      exact hrange
    · rw [remembered_of_ne hc hsame]
      exact h.range pathID
  · by_cases hsame : applied.pathID = pathID
    · rw [← hsame, hgain, lastGain_concat_self]
    · rw [remembered_of_ne hc hsame, lastGain_concat_of_ne log applied hsame]
      exact h.last pathID
  · by_cases hpath : applied.pathID = pathID
    · subst hpath
      exact near_computes h hc hgain hrange htarget hstretch hsame
    · rw [remembered_of_ne hc hpath]
      rw [ofPath_concat_of_ne log applied hpath] at hstretch
      exact h.near pathID stretch target htarget hstretch hsame

theorem follows_new {mode : UtilityMode} (hmode : isQAccessRuntimeMode mode = true)
    (coefficients : Coefficients K) :
    Follows [] (newUtilityController mode .safeTV1 coefficients) := by
  have hone : ∀ pathID, (newUtilityController mode .safeTV1 coefficients).remembered pathID = 1 :=
    fun pathID => if_pos rfl
  refine ⟨hmode, rfl, fun pathID => ?_, fun pathID => ?_,
    fun pathID stretch target htarget hstretch hsame => ?_, Logged.nil _⟩
  · rw [hone]
    exact one_mem
  · exact hone pathID
  · obtain rfl := List.suffix_nil.mp hstretch
    rw [hone]
    exact abs_sub_le_farthest one_mem htarget

end Steps

-- Every gain is rate limited in a run in which a path is idle only while its remembered gain
-- is the neutral one.
theorem gain_is_rate_limited {K : Type*} [Field K] [LinearOrder K] [IsStrictOrderedRing K]
    (power : K → K → K) {mode : UtilityMode} (hmode : isQAccessRuntimeMode mode = true)
    (coefficients : Coefficients K) (rounds : List (Round K))
    (hsteady : Along (UtilityController.gainStep power) UtilityController.SteadyWhenIdle
      (newUtilityController mode .safeTV1 coefficients) rounds) :
    ∃ last log, run (UtilityController.gainStep power)
        (newUtilityController mode .safeTV1 coefficients) rounds = some (last, log) ∧
      Logged RateLimited log := by
  obtain ⟨last, log, hr, hfollows⟩ := run_progress (fun _ log uc => Follows log uc)
    (fun _ log uc round hfollows hnow => by
      obtain ⟨next, applied, hstep, hc⟩ := gainStep_computes hfollows.mode hfollows.law
      exact ⟨next, [applied], hstep, hfollows.computes hnow hc⟩)
    [] [] _ rounds (follows_new hmode coefficients) hsteady
  exact ⟨last, log, hr, hfollows.limited⟩

def busyRound : Round ℚ :=
  ⟨1, fun _ => ⟨1, 0, 0⟩, ⟨1, 30000000, 10, 0, 0, 4096⟩⟩

def idleRound : Round ℚ :=
  ⟨1, fun _ => ⟨1, 0, 0⟩, ⟨1, 0, 0, 0, 0, 0⟩⟩

theorem gain_is_rate_limited_example :
    let start := newUtilityController UtilityMode.qaccessT .safeTV1 (⟨1, 0, 0⟩ : Coefficients ℚ)
    ∃ last log, run (UtilityController.gainStep fun x _ => x) start
        (idleRound :: List.replicate 8 busyRound) = some (last, log) ∧
      log.map AppliedGain.gain =
        [1, 102 / 100, 104 / 100, 106 / 100, 108 / 100, 11 / 10, 11 / 10, 11 / 10, 11 / 10] ∧
      Logged RateLimited log := by
  intro start
  have hgains : (run (UtilityController.gainStep fun x _ => x) start
      (idleRound :: List.replicate 8 busyRound)).map (fun reached =>
        reached.2.map AppliedGain.gain) =
      some [1, 102 / 100, 104 / 100, 106 / 100, 108 / 100, 11 / 10, 11 / 10, 11 / 10, 11 / 10] := by
    decide +kernel
  obtain ⟨last, log, hr, hlimited⟩ := gain_is_rate_limited (fun x _ => x)
    (rfl : isQAccessRuntimeMode .qaccessT = true) (⟨1, 0, 0⟩ : Coefficients ℚ)
    (idleRound :: List.replicate 8 busyRound) (by decide +kernel)
  refine ⟨last, log, hr, ?_, hlimited⟩
  rw [hr] at hgains
  exact Option.some.inj hgains

-- A path that becomes idle loses the gain that it had reached at once.
theorem idle_path_jumps :
    let start := newUtilityController UtilityMode.qaccessT .safeTV1 (⟨1, 0, 0⟩ : Coefficients ℚ)
    ∃ last log, run (UtilityController.gainStep fun x _ => x) start
        [busyRound, busyRound, idleRound] = some (last, log) ∧
      log.map AppliedGain.gain = [102 / 100, 104 / 100, 1] ∧ ¬Logged RateLimited log := by
  intro start
  have hlog : (run (UtilityController.gainStep fun x _ => x) start
      [busyRound, busyRound, idleRound]).map Prod.snd =
      some [⟨1, true, 11 / 10, 102 / 100⟩, ⟨1, true, 11 / 10, 104 / 100⟩, ⟨1, false, 11 / 10, 1⟩] := by
    decide +kernel
  obtain ⟨⟨last, log⟩, hr, hsnd⟩ := Option.map_eq_some_iff.mp hlog
  obtain rfl : log = _ := hsnd
  refine ⟨last, _, hr, rfl, fun hlimited => ?_⟩
  have hstep := (hlimited [_, _] _ [] rfl).step
  revert hstep
  decide +kernel

end MpQuic.Utility

import MpQuic.QAccess.Session

namespace MpQuic.Utility

open MpQuic.QAccess (UtilityMode isQAccessRuntimeMode)

-- The numbers are exact: they are those of an ordered field, and the power function is a
-- parameter.
section Normalization

variable {K : Type*} [Field K] [LinearOrder K]

def bwRefBps : K := 30 * 1000 * 1000

def delayRefMs : K := 100

def delayTrendRefMs : K := 50

def lossRef : K := 1 / 100

def inflightActiveMin : Int := 1024

def clamp (x lo hi : K) : K :=
  if x < lo then lo else if x > hi then hi else x

def sanitizeMetric (v : K) : K :=
  if v < 0 then 0 else v

def normalizeG (bwBps : K) : K :=
  clamp (sanitizeMetric bwBps / bwRefBps) 0 1

def normalizeL (loss : K) : K :=
  clamp (sanitizeMetric loss / lossRef) 0 1

def normalizeD (owdMs delayTrendMs : K) : K :=
  let delayLevel := clamp (sanitizeMetric owdMs / delayRefMs) 0 1
  let trend := if delayTrendMs > 0 then clamp (sanitizeMetric delayTrendMs / delayTrendRefMs) 0 1
    else 0
  clamp (7 / 10 * delayLevel + 3 / 10 * trend) 0 1

end Normalization

structure PathMetrics (K : Type*) where
  pathID : Nat
  bwBps : K
  owdMs : K
  delayGradientMs : K
  lossRate : K
  inflightBytes : Int

structure Coefficients (K : Type*) where
  alpha : K
  beta : K
  gamma : K

section ControlLaw

variable {K : Type*} [Field K] [LinearOrder K] (power : K → K → K)

def qaccessUtility (gTotal normD normL : K) (c : Coefficients K) : K :=
  let gTotal := if gTotal ≤ 0 then 1 / 10 ^ 9 else gTotal
  let reward := power gTotal c.alpha
  let penalty := c.beta * gTotal * normL + c.gamma * gTotal * normD
  reward - penalty

def gTotalPowAlpha (gTotal alpha : K) : K :=
  if gTotal ≤ 0 then 0 else power gTotal alpha

def throughputReward (gTotal : K) (c : Coefficients K) : K :=
  2 / 10 * gTotalPowAlpha power gTotal c.alpha

def lossPenalty (normL : K) (c : Coefficients K) : K :=
  -(1 / 10) * c.beta * 5 * normL

def delayPenalty (normD : K) (c : Coefficients K) : K :=
  -(5 / 100) * c.gamma * 5 * normD

def gainRaw (gTotal normD normL : K) (c : Coefficients K) : K :=
  1 + throughputReward power gTotal c + lossPenalty normL c + delayPenalty normD c

def retentionRaw (gTotal normD normL : K) (c : Coefficients K) : K :=
  1 + -(8 / 100) * gTotalPowAlpha power gTotal c.alpha + 5 / 100 * c.beta * 5 * normL +
    3 / 100 * c.gamma * 5 * normD

def legacyGainMin : K := 8 / 10

def legacyGainMax : K := 12 / 10

def legacyRetMin : K := 9 / 10

def legacyRetMax : K := 11 / 10

def safeTV1GainMin : K := 95 / 100

def safeTV1GainMax : K := 11 / 10

def safeTV1MaxGainStep : K := 2 / 100

def safeTV1MaxDelayPen : K := 2 / 100

def boundDelayPenaltyForGain (delayPenalty : K) : K :=
  if delayPenalty < -safeTV1MaxDelayPen then -safeTV1MaxDelayPen else delayPenalty

def stepLimitGain (prev target : K) : K :=
  prev + clamp (target - prev) (-safeTV1MaxGainStep) safeTV1MaxGainStep

end ControlLaw

inductive ControlLawMode where
  | legacy
  | safeTV1
  deriving DecidableEq

-- `lastOwdMs` is the delay in `Prev`, `coefficients` is what `getCoefficientsForPath` gives,
-- `collected` what `collectCoefficients` gives in this round, and `exports` says for which
-- paths the collector or the exporter takes a sample.
structure UtilityController (K : Type*) where
  mode : UtilityMode
  controlLawMode : ControlLawMode
  minGain : K
  maxGain : K
  minBackoff : K
  maxBackoff : K
  roundGTotal : K
  lastOwdMs : Nat → Option K
  prevAppliedGain : Nat → K
  coefficients : Nat → Coefficients K
  collected : Coefficients K
  exports : Nat → Bool

structure ControlSignal (K : Type*) where
  pathID : Nat
  utility : K
  gain : K
  backoff : K
  normG : K
  normD : K
  normL : K
  gTotal : K
  coefficients : Coefficients K
  delayTrend : K
  active : Bool

structure Sample (K : Type*) where
  pathID : Nat
  bwBps : K
  owdMs : K
  delayGradientMs : K
  lossRate : K
  coefficients : Coefficients K
  utility : K
  gain : K
  backoff : K

section Compute

variable {K : Type*} [Field K] [LinearOrder K]

def pathMetricsActive (pm : PathMetrics K) : Bool :=
  sanitizeMetric pm.bwBps > 0 || sanitizeMetric pm.owdMs > 0 ||
    pm.inflightBytes > inflightActiveMin

def computeRoundGTotal (paths : List (PathMetrics K)) : K :=
  clamp (paths.foldl (fun sum pm =>
    if pathMetricsActive pm then sum + sanitizeMetric pm.bwBps / bwRefBps else sum) 0) 0 1

def newUtilityController (mode : UtilityMode) (controlLawMode : ControlLawMode)
    (coefficients : Coefficients K) : UtilityController K where
  mode := mode
  controlLawMode := controlLawMode
  minGain := legacyGainMin
  maxGain := legacyGainMax
  minBackoff := legacyRetMin
  maxBackoff := legacyRetMax
  roundGTotal := 0
  lastOwdMs := fun _ => none
  prevAppliedGain := fun _ => 0
  coefficients := fun _ => coefficients
  collected := coefficients
  exports := fun _ => true

namespace UtilityController

variable (power : K → K → K) (uc : UtilityController K)

def setRoundGTotal (gTotal : K) : UtilityController K :=
  { uc with roundGTotal := clamp (sanitizeMetric gTotal) 0 1 }

def computeLegacyGainBackoff (gTotal normD normL : K) (c : Coefficients K) : K × K :=
  (clamp (gainRaw power gTotal normD normL c) uc.minGain uc.maxGain,
    clamp (retentionRaw power gTotal normD normL c) uc.minBackoff uc.maxBackoff)

-- The gain moves by a limited step from the one that was applied before, which counts as
-- one if it is not there yet.
def computeSafeTV1GainBackoff (pathID : Nat) (gTotal normD normL : K) (c : Coefficients K) :
    K × K :=
  let gainRaw := 1 + throughputReward power gTotal c + lossPenalty normL c +
    boundDelayPenaltyForGain (delayPenalty normD c)
  let gainClamped := clamp gainRaw safeTV1GainMin safeTV1GainMax
  let prev := if uc.prevAppliedGain pathID = 0 then 1 else uc.prevAppliedGain pathID
  (stepLimitGain prev gainClamped,
    clamp (retentionRaw power gTotal normD normL c) legacyRetMin legacyRetMax)

-- The controller for one path: the gain and the backoff, and the gain that the next step is
-- limited by.
def qaccessGainBackoffForPath (pathID : Nat) (gTotal normD normL : K) (c : Coefficients K) :
    (K × K) × UtilityController K :=
  match uc.controlLawMode with
  | .safeTV1 =>
    let result := uc.computeSafeTV1GainBackoff power pathID gTotal normD normL c
    (result, { uc with prevAppliedGain := Function.update uc.prevAppliedGain pathID result.1 })
  | .legacy => (uc.computeLegacyGainBackoff power gTotal normD normL c, uc)

def gainBackoff (pathID : Nat) (gTotal normD normL : K) (c : Coefficients K) :
    (K × K) × UtilityController K :=
  if isQAccessRuntimeMode uc.mode then uc.qaccessGainBackoffForPath power pathID gTotal normD normL c
  else (uc.computeLegacyGainBackoff power gTotal normD normL c, uc)

def coefficientsFor (pathID : Nat) : Coefficients K :=
  if uc.mode = .qaccessCollect then uc.collected else uc.coefficients pathID

structure Computed (K : Type*) where
  signal : ControlSignal K
  sample : Option (Sample K)

def buildTrainRow (pm : PathMetrics K) (signal : ControlSignal K) : Sample K where
  pathID := pm.pathID
  bwBps := pm.bwBps
  owdMs := pm.owdMs
  delayGradientMs := pm.delayGradientMs
  lossRate := pm.lossRate
  coefficients := signal.coefficients
  utility := signal.utility
  gain := signal.gain
  backoff := signal.backoff

def prepare (pm : PathMetrics K) : PathMetrics K :=
  let owdMs := sanitizeMetric pm.owdMs
  { pm with
    bwBps := sanitizeMetric pm.bwBps
    lossRate := sanitizeMetric pm.lossRate
    owdMs := owdMs
    delayGradientMs :=
      if pm.delayGradientMs = 0 then owdMs - (uc.lastOwdMs pm.pathID).getD owdMs
      else pm.delayGradientMs }

def controls (pm : PathMetrics K) : Bool :=
  uc.mode ≠ .baseline && pathMetricsActive pm

-- Without a total, an active path counts alone.
def totalFor (pm : PathMetrics K) : K :=
  if uc.roundGTotal ≤ 0 ∧ pathMetricsActive pm = true then normalizeG pm.bwBps
  else uc.roundGTotal

def lawFor (pm : PathMetrics K) : (K × K) × UtilityController K :=
  if uc.controls pm then
    uc.gainBackoff power pm.pathID (uc.totalFor pm) (normalizeD pm.owdMs pm.delayGradientMs)
      (normalizeL pm.lossRate) (uc.coefficientsFor pm.pathID)
  else ((1, 1), uc)

def signalFor (pm : PathMetrics K) : ControlSignal K :=
  let normG := normalizeG pm.bwBps
  let normL := normalizeL pm.lossRate
  let normD := normalizeD pm.owdMs pm.delayGradientMs
  let gTotal := uc.totalFor pm
  let c := uc.coefficientsFor pm.pathID
  { pathID := pm.pathID
    utility := if uc.controls pm then qaccessUtility power gTotal normD normL c else 0
    gain := (uc.lawFor power pm).1.1
    backoff := (uc.lawFor power pm).1.2
    normG := normG
    normD := normD
    normL := normL
    gTotal := gTotal
    coefficients := c
    delayTrend := pm.delayGradientMs
    active := pathMetricsActive pm }

def compute (pm : PathMetrics K) : Computed K × UtilityController K :=
  let pm := uc.prepare pm
  let signal := uc.signalFor power pm
  let sample := if uc.controls pm && uc.exports pm.pathID then some (buildTrainRow pm signal)
    else none
  (⟨signal, sample⟩,
    { (uc.lawFor power pm).2 with
      lastOwdMs := Function.update uc.lastOwdMs pm.pathID (some pm.owdMs) })

def applyUtility : UtilityController K → List (PathMetrics K) →
    List (Computed K) × UtilityController K
  | uc, [] => ([], uc)
  | uc, pm :: rest =>
    let computed := uc.compute power pm
    let later := applyUtility computed.2 rest
    (computed.1 :: later.1, later.2)

-- A round of the monitor: `monitorPrepareUtilityRound` sets the total of all paths first.
def monitorRound (paths : List (PathMetrics K)) : List (Computed K) × UtilityController K :=
  applyUtility power (uc.setRoundGTotal (computeRoundGTotal paths)) paths

end UtilityController

theorem sanitizeMetric_idem (v : K) : sanitizeMetric (sanitizeMetric v) = sanitizeMetric v := by
  unfold sanitizeMetric
  split_ifs <;> rfl

theorem active_prepare (uc : UtilityController K) (pm : PathMetrics K) :
    pathMetricsActive (uc.prepare pm) = pathMetricsActive pm := by
  unfold pathMetricsActive UtilityController.prepare
  simp only [sanitizeMetric_idem]

end Compute

-- The formulas of `qaccess_math.py`.
namespace Worker

variable {K : Type*} [Field K] [LinearOrder K]

def sanitize (v : K) : K :=
  if v < 0 then 0 else v

def normalizeG (bwBps : K) : K :=
  clamp (sanitize bwBps / 30000000) 0 1

def normalizeL (loss : K) : K :=
  clamp (sanitize loss / (1 / 100)) 0 1

def normalizeD (owdMs delayGradientMs : K) : K :=
  let delayLevel := clamp (sanitize owdMs / 100) 0 1
  let trend := if delayGradientMs > 0 then clamp (sanitize delayGradientMs / 50) 0 1 else 0
  clamp (7 / 10 * delayLevel + 3 / 10 * trend) 0 1

def qaccessUtility (power : K → K → K) (gTotal normD normL : K) (c : Coefficients K) : K :=
  let gTotal := if gTotal ≤ 0 then 1 / 10 ^ 9 else gTotal
  power gTotal c.alpha - (c.beta * gTotal * normL + c.gamma * gTotal * normD)

def qaccessGainBackoff (power : K → K → K) (gTotal normD normL : K) (c : Coefficients K) : K × K :=
  let gain := 1 + 2 / 10 * power gTotal c.alpha - 1 / 10 * c.beta * 5 * normL -
    5 / 100 * c.gamma * 5 * normD
  let backoff := 1 - 8 / 100 * power gTotal c.alpha + 5 / 100 * c.beta * 5 * normL +
    3 / 100 * c.gamma * 5 * normD
  (clamp gain (8 / 10) (12 / 10), clamp backoff (9 / 10) (11 / 10))

structure Features (K : Type*) where
  utility : K
  gain : K
  backoff : K

-- A row of `_feature_matrix`. The total is that of the sample alone.
def featureRow (power : K → K → K) (c : Coefficients K) (r : Sample K) : Features K :=
  let normG := normalizeG r.bwBps
  let normD := normalizeD r.owdMs r.delayGradientMs
  let normL := normalizeL r.lossRate
  let gTotal := normG
  let control := qaccessGainBackoff power gTotal normD normL c
  ⟨qaccessUtility power gTotal normD normL c, control.1, control.2⟩

def featureMatrix (power : K → K → K) (samples : List (Sample K)) (c : Coefficients K) :
    List (Features K) :=
  samples.map (featureRow power c)

end Worker

end MpQuic.Utility

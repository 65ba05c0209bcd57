import MpQuic.QAccess.Controller
import MpQuic.QAccess.Worker

namespace MpQuic.QAccess

open MpQuic.Library

inductive Variant where
  | qaccessT
  | qaccessD
  | qaccessL
  deriving DecidableEq

def objectiveTriggerModeForVariant : Variant → String
  | .qaccessT => "objective_t"
  | .qaccessD => "objective_d"
  | .qaccessL => "objective_l"

def defaultTriggerMode : String := "legacy_buffer_full"

-- The options of the triggers. The cooldown is in nanoseconds, like all times.
structure TriggerConfig where
  runtimeExport : Bool
  triggerUpdate : Bool
  triggerMode : String
  triggerReferenceStart : ℚ
  triggerReferenceEnd : ℚ
  triggerActivateSamples : Int
  triggerRecoverySamples : Int
  triggerTAbsBps : ℚ
  triggerTRelative : ℚ
  triggerDAbsMs : ℚ
  triggerDRelative : ℚ
  triggerLRatio : ℚ
  triggerOnBufferFull : Bool
  triggerOnThroughputDrop : Bool
  triggerDropPct : ℚ
  triggerCooldown : Int
  triggerPeriodicMs : Int
  minSamplesPerPath : Int
  multipathShadowScoring : Bool
  minSenderByteDelta : Nat
  deriving DecidableEq

section Objective

structure ObjectiveTriggerState where
  referenceSamples : List ℚ
  reference : ℚ
  referenceReady : Bool
  current : ℚ
  absoluteChange : ℚ
  relativeChange : ℚ
  triggerStreak : Int
  recoveryStreak : Int
  triggered : Bool
  requestPending : Bool
  deriving DecidableEq

def ObjectiveTriggerState.zero : ObjectiveTriggerState :=
  ⟨[], 0, false, 0, 0, 0, 0, 0, false, false⟩

structure PathMetrics where
  pathID : Nat
  bwBps : ℚ
  owdMs : ℚ
  lossRate : ℚ
  inflightBytes : Int
  deriving DecidableEq

def inflightActiveMin : Int := 1024

def sanitizeMetric (v : ℚ) : ℚ :=
  if v < 0 then 0 else v

def pathMetricsActive (pm : PathMetrics) : Bool :=
  0 < sanitizeMetric pm.bwBps || 0 < sanitizeMetric pm.owdMs || inflightActiveMin < pm.inflightBytes

def medianFloat64 (values : List ℚ) : ℚ :=
  if values.length = 0 then 0
  else
    let ordered := values.mergeSort
    let mid := ordered.length / 2
    if ordered.length % 2 = 1 then ordered.getD mid 0
    else (ordered.getD (mid - 1) 0 + ordered.getD mid 0) / 2

namespace TriggerConfig

variable (config : TriggerConfig)

def objectiveTriggerEnabled : Bool :=
  config.triggerMode ≠ "" && config.triggerMode ≠ defaultTriggerMode

def objectiveTriggerConfigurationValid (variant : Variant) : Bool :=
  if !config.objectiveTriggerEnabled then true
  else config.triggerMode = objectiveTriggerModeForVariant variant

def objectiveMetric (pm : PathMetrics) : ℚ :=
  if config.triggerMode = "objective_t" then pm.bwBps
  else if config.triggerMode = "objective_d" then pm.owdMs
  else if config.triggerMode = "objective_l" then pm.lossRate
  else 0

-- Whether the value is worse than the reference, with the absolute and the relative change.
def objectiveDeteriorated (reference current : ℚ) : Bool × ℚ × ℚ :=
  let delta := current - reference
  let relative := if 1e-12 < |reference| then delta / |reference| else 0
  let deteriorated : Bool :=
    if config.triggerMode = "objective_t" then
      config.triggerTAbsBps ≤ |delta| || config.triggerTRelative ≤ |relative|
    else if config.triggerMode = "objective_d" then
      0 < delta && (config.triggerDAbsMs ≤ delta || config.triggerDRelative ≤ relative)
    else if config.triggerMode = "objective_l" then config.triggerLRatio ≤ delta
    else false
  (deteriorated, delta, relative)

end TriggerConfig

namespace ObjectiveTriggerState

def count (state : ObjectiveTriggerState) (config : TriggerConfig) (deteriorated : Bool) :
    ObjectiveTriggerState :=
  if deteriorated then
    let state := { state with recoveryStreak := 0 }
    if !state.triggered then
      let state := { state with triggerStreak := state.triggerStreak + 1 }
      if config.triggerActivateSamples ≤ state.triggerStreak then
        { state with triggered := true, requestPending := true }
      else state
    else state
  else
    let state := { state with triggerStreak := 0 }
    if state.triggered then
      let state := { state with recoveryStreak := state.recoveryStreak + 1 }
      if config.triggerRecoverySamples ≤ state.recoveryStreak then
        { state with triggered := false, requestPending := false, recoveryStreak := 0 }
      else state
    else state

-- The reference is the median of the samples in the reference window. A path that starts
-- late has its first sample as the reference.
def setReference (state : ObjectiveTriggerState) (config : TriggerConfig) (elapsed : ℚ) :
    ObjectiveTriggerState :=
  let inWindow := config.triggerReferenceStart ≤ elapsed && elapsed ≤ config.triggerReferenceEnd
  let state :=
    if inWindow then
      let samples := state.referenceSamples ++ [state.current]
      { state with
        referenceSamples := samples, reference := medianFloat64 samples, referenceReady := true }
    else state
  if config.triggerReferenceEnd < elapsed && !state.referenceReady then
    { state with
      referenceSamples := state.referenceSamples ++ [state.current]
      reference := state.current
      referenceReady := true }
  else state

def observe (state : ObjectiveTriggerState) (config : TriggerConfig) (elapsed current : ℚ) :
    ObjectiveTriggerState :=
  let state := { state with current := current }.setReference config elapsed
  if !state.referenceReady || elapsed ≤ config.triggerReferenceEnd then state
  else
    let (deteriorated, absoluteChange, relativeChange) :=
      config.objectiveDeteriorated state.reference current
    { state with absoluteChange := absoluteChange, relativeChange := relativeChange }.count
      config deteriorated

end ObjectiveTriggerState

end Objective

-- The controller with its triggers. `runStart` is the time that the run ID names, if it
-- names one. The exporter exists exactly if `runtimeExport` is set.
structure TriggerController extends UtilityController where
  config : TriggerConfig
  variant : Variant
  runID : String
  runStart : Option Int
  lastTriggerTime : Option Int
  lastPeriodicTrigger : Option Int
  requestSerial : Nat
  inflightPathID : Nat
  inflightGlobalBuffer : Bool
  roundBwHistory : List ℚ
  currentRoundTotalBwBps : ℚ
  objectiveTriggerStates : Nat → Option ObjectiveTriggerState

structure Phase2Config where
  owner : Bool
  coeffReload : Bool
  coeffReloadInterval : Int
  coeffSmoothing : ℚ
  triggers : TriggerConfig

def newUtilityController (variant : Variant) (runID : String) (runStart : Option Int)
    (phase2 : Phase2Config) (disk : CoeffsDisk) : TriggerController where
  toUtilityController := newController phase2.coeffReload true phase2.owner
    phase2.coeffReloadInterval phase2.coeffSmoothing (some disk)
  config := phase2.triggers
  variant := variant
  runID := runID
  runStart := runStart
  lastTriggerTime := none
  lastPeriodicTrigger := none
  requestSerial := 0
  inflightPathID := 0
  inflightGlobalBuffer := false
  roundBwHistory := []
  currentRoundTotalBwBps := 0
  objectiveTriggerStates := fun _ => none

structure BufferSnapshot where
  eligiblePaths : List Nat
  selectedPath : Option Nat
  atCapacity : Bool

structure ExporterView where
  pathBufferSize : Nat → Int
  triggerSnapshot (minSamplesPerPath : Int) (requireMediaActivity : Bool)
    (minSenderByteDelta : Nat) : BufferSnapshot

def maxRoundBwHistory : Nat := 32

def unixMilli (now : Int) : Int :=
  now.tdiv 1000000

def formatRequestID (runID : String) (ms : Int) (serial : Nat) : String :=
  runID ++ "_" ++ Int.repr ms ++ "_" ++ Nat.repr serial

-- What a trigger finds: the clock, whether the request file is there, and whether writing
-- it fails.
structure Attempt where
  now : Int
  requestExists : Bool
  writeFails : Bool

namespace TriggerController

section Rounds

def finalizeMonitorRoundThroughput (uc : TriggerController) : TriggerController :=
  let history := uc.roundBwHistory ++ [uc.currentRoundTotalBwBps]
  { uc with
    roundBwHistory :=
      if 0 < uc.currentRoundTotalBwBps then history.drop (history.length - maxRoundBwHistory)
      else uc.roundBwHistory
    currentRoundTotalBwBps := 0 }

def noteActivePathThroughput (uc : TriggerController) (pm : PathMetrics) : TriggerController :=
  if !pathMetricsActive pm then uc
  else { uc with currentRoundTotalBwBps := uc.currentRoundTotalBwBps + sanitizeMetric pm.bwBps }

def roundBwDropStats (uc : TriggerController) : ℚ × ℚ × ℚ :=
  let n := uc.roundBwHistory.length
  if n < 4 then (0, 0, 0)
  else
    let split := n / 2
    let prevAvg := (uc.roundBwHistory.take split).sum / split
    let recentAvg := (uc.roundBwHistory.drop split).sum / (n - split : Nat)
    if prevAvg ≤ 0 then (prevAvg, recentAvg, 0)
    else (prevAvg, recentAvg, (prevAvg - recentAvg) / prevAvg * 100)

def experimentElapsedSeconds (uc : TriggerController) (now : Int) : ℚ :=
  match uc.runStart with
  | none => -1
  | some start => (now - start) / 1000000000

def observeObjectiveTrigger (uc : TriggerController) (pm : PathMetrics) (now : Int) :
    TriggerController :=
  if !uc.config.objectiveTriggerEnabled ||
      !uc.config.objectiveTriggerConfigurationValid uc.variant then uc
  else
    let state := (uc.objectiveTriggerStates pm.pathID).getD .zero
    let state := state.observe uc.config (uc.experimentElapsedSeconds now)
      (sanitizeMetric (uc.config.objectiveMetric pm))
    { uc with
      objectiveTriggerStates := Function.update uc.objectiveTriggerStates pm.pathID (some state) }

def compute (uc : TriggerController) (pm : PathMetrics) (now : Int) : TriggerController :=
  let pm := { pm with
    bwBps := sanitizeMetric pm.bwBps
    lossRate := sanitizeMetric pm.lossRate
    owdMs := sanitizeMetric pm.owdMs }
  if !uc.runtimeMode then uc
  else
    let noted := uc.noteActivePathThroughput pm
    if pathMetricsActive pm then noted.observeObjectiveTrigger pm now else noted

end Rounds

section Writing

def newRequestID (uc : TriggerController) (now : Int) : TriggerController × String :=
  if !uc.phase2MutationAllowed then (uc, "")
  else
    ({ uc with requestSerial := uc.requestSerial + 1 },
      formatRequestID uc.runID (unixMilli now) (uc.requestSerial + 1))

-- The controller, with the request if it was written. Only the request of a full buffer
-- has the minimum of samples.
def writePerPathTrigger (uc : TriggerController) (attempt : Attempt) (pathID : Nat) (reason : String)
    (globalBuffer : Bool) (minSamplesPerPath : Option Int) :
    TriggerController × Option Request :=
  if !uc.phase2MutationAllowed then (uc, none)
  else if uc.updateInProgress then (uc, none)
  else if attempt.requestExists then (uc, none)
  else
    let c := uc.getCoefficientsForPath pathID
    let (uc, requestID) := uc.newRequestID attempt.now
    if attempt.writeFails then (uc, none)
    else
      ({ uc with
          updateInProgress := true
          inflightRequestID := requestID
          inflightPathID := pathID
          inflightGlobalBuffer := globalBuffer
          lastTriggerTime := some attempt.now },
        some {
          requestID := requestID
          pathID := some pathID
          reason := reason
          minSamplesPerPath := minSamplesPerPath
          currentAlpha := some c.alpha
          currentBeta := some c.beta
          currentGamma := some c.gamma
          experimentElapsed := some (uc.experimentElapsedSeconds attempt.now) })

def writeBufferFullTrigger (uc : TriggerController) (attempt : Attempt) (selectedPath : Nat) :
    TriggerController × Option Request :=
  uc.writePerPathTrigger attempt selectedPath "buffer_full" true (some uc.config.minSamplesPerPath)

def writeLegacyTriggerRequest (uc : TriggerController) (attempt : Attempt) (pathID : Nat)
    (reason : String) : TriggerController × Option Request :=
  uc.writePerPathTrigger attempt pathID reason false none

def pickLegacyTriggerPath (exporter : ExporterView) : Nat :=
  let (best, bestN) := (exporter.triggerSnapshot 1 false 0).eligiblePaths.foldl
    (fun (best : Nat × Int) pid =>
      if best.2 < exporter.pathBufferSize pid then (pid, exporter.pathBufferSize pid) else best)
    (1, 0)
  if 0 < bestN then best else 1

end Writing

def maybeCheckUpdateResponse (uc : TriggerController) (now : Int) (disk : CoeffsDisk)
    (response : Option ResponseFields) : TriggerController × Option ResponseFields :=
  if uc.consumes response then
    ({ uc with
        toUtilityController := uc.toUtilityController.maybeCheckUpdateResponse now disk response
        inflightPathID := 0
        inflightGlobalBuffer := false
        lastTriggerTime := some now },
      response)
  else (uc, none)

section Triggers

def wantsRequest (uc : TriggerController) (exporter : ExporterView) (pathID : Nat) : Bool :=
  (uc.objectiveTriggerStates pathID).any fun state =>
    state.requestPending && state.triggered &&
      uc.config.minSamplesPerPath ≤ exporter.pathBufferSize pathID

-- Path IDs are bytes and are tried in ascending order.
def maybeTriggerObjectiveUpdate (uc : TriggerController) (exporter : ExporterView)
    (attempt : Attempt) : TriggerController × Option Request :=
  if !uc.config.objectiveTriggerConfigurationValid uc.variant || uc.updateInProgress then (uc, none)
  else if uc.lastTriggerTime.any fun last => attempt.now - last < uc.config.triggerCooldown then
    (uc, none)
  else
    match (List.range 256).find? (uc.wantsRequest exporter) with
    | none => (uc, none)
    | some pathID =>
      match uc.writePerPathTrigger attempt pathID uc.config.triggerMode false none with
      | (uc, none) => (uc, none)
      | (uc, some request) =>
        ({ uc with
            objectiveTriggerStates := Function.update uc.objectiveTriggerStates pathID
              ((uc.objectiveTriggerStates pathID).map fun state =>
                { state with requestPending := false }) },
          some request)

def cooldownRemaining (uc : TriggerController) (now : Int) : Int :=
  match uc.lastTriggerTime with
  | none => 0
  | some last => max 0 (uc.config.triggerCooldown - (now - last))

def periodicDue (uc : TriggerController) (now : Int) : Bool :=
  match uc.lastPeriodicTrigger with
  | none => true
  | some last => uc.config.triggerPeriodicMs * 1000000 ≤ now - last

def throughputDropped (uc : TriggerController) : Bool :=
  let (prevAvg, _, dropPct) := uc.roundBwDropStats
  4 ≤ uc.roundBwHistory.length && 0 < prevAvg && uc.config.triggerDropPct ≤ dropPct

-- The triggers other than the objective one: a full buffer goes before the periodic
-- trigger, and that before the drop of the throughput.
def maybeTriggerBufferUpdate (uc : TriggerController) (exporter : ExporterView) (attempt : Attempt) :
    TriggerController × Option Request :=
  let snapshot := exporter.triggerSnapshot uc.config.minSamplesPerPath
    uc.config.multipathShadowScoring uc.config.minSenderByteDelta
  if uc.updateInProgress then (uc, none)
  else if 0 < uc.cooldownRemaining attempt.now then (uc, none)
  else if uc.config.triggerOnBufferFull && snapshot.atCapacity then
    match snapshot.selectedPath with
    | none => (uc, none)
    | some selectedPath => uc.writeBufferFullTrigger attempt selectedPath
  else if 0 < uc.config.triggerPeriodicMs then
    if uc.periodicDue attempt.now then
      match uc.writeLegacyTriggerRequest attempt (pickLegacyTriggerPath exporter) "periodic" with
      | (uc, none) => (uc, none)
      | (uc, some request) => ({ uc with lastPeriodicTrigger := some attempt.now }, some request)
    else (uc, none)
  else if uc.config.triggerOnThroughputDrop && uc.throughputDropped then
    uc.writeLegacyTriggerRequest attempt (pickLegacyTriggerPath exporter) "throughput_drop"
  else (uc, none)

-- The second half of `maybeTriggerCoefficientUpdate`, after the response was checked.
def maybeWriteRequest (uc : TriggerController) (exporter : ExporterView) (attempt : Attempt) :
    TriggerController × Option Request :=
  if !uc.config.runtimeExport then (uc, none)
  else if uc.config.objectiveTriggerEnabled then uc.maybeTriggerObjectiveUpdate exporter attempt
  else uc.maybeTriggerBufferUpdate exporter attempt

end Triggers

end TriggerController

end MpQuic.QAccess

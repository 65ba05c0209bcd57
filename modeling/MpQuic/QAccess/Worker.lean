import MpQuic.QAccess.Samples

namespace MpQuic.QAccess

inductive TargetMode where
  | nextBwBps
  | deltaBw1s
  | relativeDeltaBw1s
  | deltaOwd1s
  | candidatePostRttMedianMs
  | deltaLoss1s
  | lossRisk1s
  deriving DecidableEq

def TargetMode.minimizes : TargetMode → Bool
  | .deltaOwd1s | .candidatePostRttMedianMs | .deltaLoss1s | .lossRisk1s => true
  | _ => false

def TargetMode.active : TargetMode → Bool
  | .deltaBw1s | .deltaOwd1s | .candidatePostRttMedianMs | .deltaLoss1s | .lossRisk1s => true
  | _ => false

inductive GateMode where
  | absolute
  | relative
  | hybrid
  deriving DecidableEq

inductive GatePolicy where
  | legacy
  | objectiveAware
  deriving DecidableEq

inductive Objective where
  | throughput
  | delay
  | loss
  deriving DecidableEq

structure Settings where
  targetMode : TargetMode
  shadow : Bool
  aggregateMultipath : Bool
  gateMode : GateMode
  gatePolicy : GatePolicy
  objective : Objective
  minImprovementPct : ℚ
  minDeltaGainBps : ℚ
  minRelativeDeltaGain : ℚ
  minRelativeGain : ℚ
  objectiveRelativeThreshold : ℚ
  fixedGamma : Option ℚ
  minSenderByteDelta : Int

-- The mean prediction of the regression model for samples with given coefficients.
abbrev Predictor := List (Column → Cell) → CoeffEntry → ℚ

-- The fields of a request that the worker reads. A key that is missing is `none`.
structure Request where
  requestID : String
  pathID : Option Int
  reason : String
  minSamplesPerPath : Option Int
  currentAlpha : Option ℚ
  currentBeta : Option ℚ
  currentGamma : Option ℚ
  experimentElapsed : Option ℚ
  deriving DecidableEq

section Scoring

def maxCoeffStep : ℚ := 0.1

def minBetaGamma : ℚ := 0.1

def applyMaxStep (current target : ℚ) : ℚ :=
  current + max (-maxCoeffStep) (min maxCoeffStep (target - current))

def phase2CandidateTriples : List CoeffEntry :=
  [0.6, 0.7, 0.8].flatMap fun alpha =>
    [0.1, 0.2, 0.3].flatMap fun beta =>
      [0.1, 0.2, 0.3].map fun gamma => ⟨alpha, beta, gamma⟩

def candidateTriples : Option ℚ → List CoeffEntry
  | none => phase2CandidateTriples
  | some fixedGamma => phase2CandidateTriples.filter fun t => |t.gamma - fixedGamma| < 1e-9

def isCurrent (cur t : CoeffEntry) : Bool :=
  |t.alpha - cur.alpha| < 1e-9 && |t.beta - cur.beta| < 1e-9 && |t.gamma - cur.gamma| < 1e-9

def optimizationScore (mode : TargetMode) (prediction : ℚ) : ℚ :=
  if mode.minimizes then -prediction else prediction

def stepTo (cur t : CoeffEntry) : CoeffEntry where
  alpha := applyMaxStep cur.alpha t.alpha
  beta := max minBetaGamma (applyMaxStep cur.beta t.beta)
  gamma := max minBetaGamma (applyMaxStep cur.gamma t.gamma)

-- `req.get(key, cur) or cur`: a value of zero counts as missing.
def currentOr (v : Option ℚ) (cur : ℚ) : ℚ :=
  match v with
  | none => cur
  | some q => if q = 0 then cur else q

def currentCoeffs (req : Request) (resolved : CoeffEntry) : CoeffEntry :=
  match req.currentAlpha with
  | none => resolved
  | some _ =>
    ⟨currentOr req.currentAlpha resolved.alpha, currentOr req.currentBeta resolved.beta,
      currentOr req.currentGamma resolved.gamma⟩

end Scoring

section Gates

def relativeGainEpsilon : ℚ := 1e-9

def relativeGain (current best : ℚ) : ℚ :=
  (best - current) / max |current| relativeGainEpsilon

def evaluateGainGate (mode : GateMode) (absolute relative current best : ℚ) : Bool :=
  let absolutePass := current < best && absolute ≤ best - current
  let relativePass := current < best && relative ≤ relativeGain current best
  match mode with
  | .absolute => absolutePass
  | .relative => relativePass
  | .hybrid => absolutePass && relativePass

def evaluateObjectiveGate (objective : Objective) (absolute relative current best : ℚ) : Bool :=
  let absolutePass := 0 < best - current && absolute ≤ best - current
  let relativePass := 0 < best - current && relative ≤ relativeGain current best
  match objective with
  | .throughput => absolutePass && relativePass
  | _ => absolutePass || relativePass

def evaluatePolicyGate (settings : Settings) (relative current best : ℚ) : Bool :=
  match settings.gatePolicy with
  | .legacy =>
    evaluateGainGate settings.gateMode settings.minDeltaGainBps relative current best
  | .objectiveAware =>
    evaluateObjectiveGate settings.objective settings.minDeltaGainBps relative current best

def evaluateGate (settings : Settings) (current best : ℚ) : Bool :=
  match settings.targetMode with
  | .nextBwBps => current ≤ 0 || current * (1 + settings.minImprovementPct / 100) ≤ best
  | .deltaBw1s => current < best && settings.minDeltaGainBps ≤ best - current
  | .relativeDeltaBw1s => current < best && settings.minRelativeDeltaGain ≤ best - current
  | _ => best < current && settings.minDeltaGainBps ≤ current - best

end Gates

section Aggregate

structure AggregateRow where
  triple : CoeffEntry
  score : ℚ
  current : Bool
  deriving DecidableEq

-- The keys that the rows are sorted by: the score downwards, the current row first, and then
-- the coefficients upwards.
def AggregateRow.precedes (row other : AggregateRow) : Bool :=
  other.score < row.score ||
    (row.score = other.score &&
      ((row.current && !other.current) ||
        (row.current = other.current &&
          (row.triple.alpha < other.triple.alpha ||
            (row.triple.alpha = other.triple.alpha &&
              (row.triple.beta < other.triple.beta ||
                (row.triple.beta = other.triple.beta &&
                  row.triple.gamma < other.triple.gamma)))))))

def bestRow (first : AggregateRow) (rest : List AggregateRow) : AggregateRow :=
  rest.foldl (fun best row => if row.precedes best then row else best) first

def totalDelta (scored : List PathDiagnostics) : Int :=
  (scored.map PathDiagnostics.senderByteDelta).sum

def weightedScore (mode : TargetMode) (model : Predictor) (scored : List PathDiagnostics)
    (t : CoeffEntry) : ℚ :=
  (scored.map fun item => optimizationScore mode (model item.samples t) *
    ((item.senderByteDelta : ℚ) / (totalDelta scored : ℚ))).sum

def aggregateRows (settings : Settings) (model : Predictor) (scored : List PathDiagnostics)
    (cur : CoeffEntry) : List AggregateRow :=
  (candidateTriples settings.fixedGamma).map fun t =>
    ⟨t, weightedScore settings.targetMode model scored t, isCurrent cur t⟩

def ownerRole : String := "server_downlink_sender"

def ownerOk (columns : List Column) (scored : List PathDiagnostics) : Bool :=
  Column.endpointRole ∈ columns && !scored.isEmpty &&
    scored.all fun item => (item.samples.getLast?.map fun row => row .endpointRole) =
      some (.text ownerRole)

def preDeterioration (req : Request) : Bool :=
  let elapsed := currentOr req.experimentElapsed (-1)
  0 ≤ elapsed && elapsed < 90

def phaseAllowed (settings : Settings) (req : Request) : Bool :=
  settings.gatePolicy = .objectiveAware ||
    !(settings.targetMode.minimizes && preDeterioration req)

def differs (cur stepped : CoeffEntry) : Bool :=
  1e-9 < |stepped.alpha - cur.alpha| || 1e-9 < |stepped.beta - cur.beta| ||
    1e-9 < |stepped.gamma - cur.gamma|

-- The rows that the decision compares: that of the current coefficients and the best one. There
-- is no row to compare with if the current coefficients are not among the candidates.
def compareRows (settings : Settings) (model : Predictor) (scored : List PathDiagnostics)
    (cur : CoeffEntry) : Except PyError (AggregateRow × AggregateRow) :=
  match aggregateRows settings model scored cur with
  | [] => .error .valueError
  | first :: rest =>
    match (first :: rest).find? AggregateRow.current with
    | none => .error .stopIteration
    | some currentRow => .ok (currentRow, bestRow first rest)

def effectiveRelativeThreshold (settings : Settings) : ℚ :=
  match settings.gatePolicy with
  | .objectiveAware => settings.objectiveRelativeThreshold
  | .legacy => settings.minRelativeGain

def aggregateGate (settings : Settings) (rows : AggregateRow × AggregateRow) : Bool :=
  evaluatePolicyGate settings (effectiveRelativeThreshold settings) rows.1.score rows.2.score

-- What must hold besides the gate for an update to be applied.
def activeSafetyOk (settings : Settings) (req : Request) (columns : List Column)
    (scored : List PathDiagnostics) (cur stepped : CoeffEntry) : Bool :=
  !settings.shadow && ownerOk columns scored && settings.targetMode.active &&
    differs cur stepped && phaseAllowed settings req

end Aggregate

structure Response where
  requestID : String
  status : String
  updatedPathIDs : List Int
  deriving DecidableEq

-- A change of the files. Copies, logs and audits go to other files than those that are read.
inductive Operation where
  | archive (file : String)
  | updateCoeffs (pathID : Int) (e : CoeffEntry) (metric : Option String)
  | saveState (requestID : String)
  | removeRows (pathID : Int)
  | unlinkRequest
  | writeResponse (response : Response)
  deriving DecidableEq

structure Files where
  request : Option Request
  samples : Option Frame
  coeffs : CoeffsFile
  processed : List String
  response : Option Response

namespace Operation

def perform (files : Files) : Operation → Files
  | .archive _ => files
  | .updateCoeffs pathID e metric =>
    match updatePathCoeffsLocked files.coeffs pathID e metric with
    | .ok file => { files with coeffs := file }
    | .error _ => files
  | .saveState requestID =>
    let processed := files.processed ++ [requestID]
    { files with processed := processed.drop (processed.length - 200) }
  | .removeRows pathID =>
    { files with samples := files.samples.map fun df =>
        if Column.pathID ∈ df.columns then
          { df with rows := df.rows.filter fun row => row .pathID ≠ .number pathID }
        else df }
  | .unlinkRequest => { files with request := none }
  | .writeResponse response => { files with response := some response }

end Operation

def performAll (files : Files) (operations : List Operation) : Files :=
  operations.foldl Operation.perform files

section Processing

-- The characters for which `str.isspace` holds, from the first to the last of each stretch.
def spaces : List (Nat × Nat) :=
  [(0x9, 0xd), (0x1c, 0x20), (0x85, 0x85), (0xa0, 0xa0), (0x1680, 0x1680), (0x2000, 0x200a),
    (0x2028, 0x2029), (0x202f, 0x202f), (0x205f, 0x205f), (0x3000, 0x3000)]

-- The zeros of the decimal digits, and the other characters for which `str.isdigit` holds.
def decimalZeros : List Nat :=
  [0x30, 0x660, 0x6f0, 0x7c0, 0x966, 0x9e6, 0xa66, 0xae6, 0xb66, 0xbe6, 0xc66, 0xce6, 0xd66, 0xde6,
    0xe50, 0xed0, 0xf20, 0x1040, 0x1090, 0x17e0, 0x1810, 0x1946, 0x19d0, 0x1a80, 0x1a90, 0x1b50,
    0x1bb0, 0x1c40, 0x1c50, 0xa620, 0xa8d0, 0xa900, 0xa9d0, 0xa9f0, 0xaa50, 0xabf0, 0xff10, 0x104a0,
    0x10d30, 0x11066, 0x110f0, 0x11136, 0x111d0, 0x112f0, 0x11450, 0x114d0, 0x11650, 0x116c0,
    0x11730, 0x118e0, 0x11950, 0x11c50, 0x11d50, 0x11da0, 0x16a60, 0x16ac0, 0x16b50, 0x1d7ce,
    0x1d7d8, 0x1d7e2, 0x1d7ec, 0x1d7f6, 0x1e140, 0x1e2f0, 0x1e950, 0x1fbf0]

def otherDigits : List (Nat × Nat) :=
  [(0xb2, 0xb3), (0xb9, 0xb9), (0x1369, 0x1371), (0x19da, 0x19da), (0x2070, 0x2070),
    (0x2074, 0x2079), (0x2080, 0x2089), (0x2460, 0x2468), (0x2474, 0x247c), (0x2488, 0x2490),
    (0x24ea, 0x24ea), (0x24f5, 0x24fd), (0x24ff, 0x24ff), (0x2776, 0x277e), (0x2780, 0x2788),
    (0x278a, 0x2792), (0x10a40, 0x10a43), (0x10e60, 0x10e68), (0x11052, 0x1105a),
    (0x1f100, 0x1f10a)]

def isAmong (stretches : List (Nat × Nat)) (c : Char) : Bool :=
  stretches.any fun stretch => stretch.1 ≤ c.toNat && c.toNat ≤ stretch.2

def strip (s : String) : String :=
  String.ofList ((s.toList.dropWhile (isAmong spaces)).rdropWhile (isAmong spaces))

def decimalValue (c : Char) : Option Nat :=
  (decimalZeros.find? fun first => first ≤ c.toNat && c.toNat < first + 10).map (c.toNat - ·)

-- `str(value).isdigit()`
def isDigitText (key : String) : Bool :=
  key.toList ≠ [] && key.toList.all fun c => (decimalValue c).isSome || isAmong otherDigits c

-- `int(value)`, which refuses digits that are not decimal, and more than 4300 of them.
def intValue (key : String) : Option Int :=
  (key.toList.mapM decimalValue).bind fun digits =>
    if digits.length ≤ 4300 then some (digits.foldl (fun acc d => acc * 10 + d) 0 : Nat) else none

def digitKey (key : String) : Option Int :=
  if isDigitText key then intValue key else none

def keysConvert (doc : PyDocument) : Bool :=
  doc.paths.keys.all fun key => !isDigitText key || (intValue key).isSome

def updatePathIDs (doc : PyDocument) (scored : List PathDiagnostics) : List Int :=
  (doc.paths.keys.filterMap digitKey ++ scored.map PathDiagnostics.pathID).dedup.insertionSort
    (· ≤ ·)

def backups : CoeffsFile → List Operation
  | .missing => []
  | _ => [.archive "coefficients_before", .archive "coefficients_prev"]

def finishRequest (response : Response) : List Operation :=
  [.archive "log", .archive "update_request", .unlinkRequest, .writeResponse response]

def aggregateStatus (settings : Settings) (applied : Bool) : String :=
  if settings.shadow then "SHADOW_AGGREGATE_EVALUATED"
  else if applied then "APPLIED_AGGREGATE" else "ACTIVE_AGGREGATE_SKIPPED"

def skipStatus (settings : Settings) : String :=
  if settings.shadow then "SHADOW_SKIPPED_NO_MEDIA_PATH" else "ACTIVE_SKIPPED_NO_MEDIA_PATH"

def aggregateUpdates (settings : Settings) (req : Request) (columns : List Column)
    (doc : PyDocument) (scored : List PathDiagnostics) (cur : CoeffEntry)
    (rows : AggregateRow × AggregateRow) : List (Int × CoeffEntry) :=
  let stepped := stepTo cur rows.2.triple
  if activeSafetyOk settings req columns scored cur stepped && aggregateGate settings rows then
    (updatePathIDs doc scored).map (·, stepped)
  else []

def updateOperations (coeffs : CoeffsFile) (updates : List (Int × CoeffEntry))
    (metric : Option String) : List Operation :=
  (if updates = [] then [] else backups coeffs) ++
    updates.map fun update => .updateCoeffs update.1 update.2 metric

def aggregateAudits : List Operation :=
  [.archive "scores_per_path", .archive "scores_aggregate", .archive "path_eligibility",
    .archive "audit"]

-- What is written after an aggregate decision. Invalid coefficients are refused.
def applyAggregate (settings : Settings) (req : Request) (coeffs : CoeffsFile)
    (updates : List (Int × CoeffEntry)) : Except PyError (List Operation) :=
  if updates.all fun update => update.2.valid then
    .ok (.archive "samples_all_paths" :: updateOperations coeffs updates none ++ aggregateAudits ++
      finishRequest ⟨req.requestID, aggregateStatus settings (updates ≠ []),
        updates.map Prod.fst⟩)
  else .error .valueError

def skipAggregate (settings : Settings) (req : Request) (audits : List Operation) :
    List Operation :=
  .archive "samples_all_paths" :: audits ++ finishRequest ⟨req.requestID, skipStatus settings, []⟩

def minRowsOf (req : Request) : Nat :=
  (max 1 (req.minSamplesPerPath.getD 1)).toNat

def scoreAggregate (settings : Settings) (model : Predictor) (req : Request)
    (columns : List Column) (coeffs : CoeffsFile) (doc : PyDocument)
    (scored : List PathDiagnostics) (cur : CoeffEntry) : Except PyError (List Operation) :=
  if scored = [] then
    .ok (skipAggregate settings req [.archive "path_eligibility", .archive "audit"])
  else if candidateTriples settings.fixedGamma = [] then .error .valueError
  else if totalDelta scored ≤ 0 then
    .ok (skipAggregate settings req [.archive "path_eligibility"])
  else
    match compareRows settings model scored cur with
    | .error err => .error err
    | .ok rows =>
      let updates := aggregateUpdates settings req columns doc scored cur rows
      if updates ≠ [] ∧ !keysConvert doc then .error .valueError
      else applyAggregate settings req coeffs updates

def loadCurrent (req : Request) (pathID : Int) (coeffs : CoeffsFile) :
    Except PyError (PyDocument × CoeffEntry) := do
  let doc ← loadCoeffsDoc coeffs
  let resolved ← resolvePathCoeffs doc pathID
  return (doc, currentCoeffs req resolved.1)

def processMultipathRequest (settings : Settings) (model : Predictor) (req : Request)
    (pathID : Int) (samples : Frame) (coeffs : CoeffsFile) : Except PyError (List Operation) := do
  let diagnostics ← samples.classifyMediaPaths (minRowsOf req) settings.minSenderByteDelta
  let current ← loadCurrent req pathID coeffs
  scoreAggregate settings model req samples.columns coeffs current.1
    (diagnostics.filter PathDiagnostics.eligible) current.2

def bestCandidate (settings : Settings) (model : Predictor) (samples : List (Column → Cell))
    (cur : CoeffEntry) : CoeffEntry :=
  (candidateTriples settings.fixedGamma).foldl (fun best t =>
    if optimizationScore settings.targetMode (model samples best) <
        optimizationScore settings.targetMode (model samples t) then t
    else best) cur

def improvementOk (settings : Settings) (current best : ℚ) : Bool :=
  match settings.gatePolicy with
  | .objectiveAware =>
    evaluatePolicyGate settings settings.objectiveRelativeThreshold
      (optimizationScore settings.targetMode current) (optimizationScore settings.targetMode best)
  | .legacy => evaluateGate settings current best

-- `_metric_field`, which has no entry for one of the targets.
def metricField : TargetMode → Except PyError String
  | .nextBwBps => .ok "predicted_next_bw_bps"
  | .deltaBw1s => .ok "predicted_delta_bw_bps"
  | .relativeDeltaBw1s => .ok "predicted_relative_delta_bw_1s"
  | .deltaOwd1s => .ok "predicted_delta_owd_ms"
  | .candidatePostRttMedianMs => .error .keyError
  | .deltaLoss1s => .ok "predicted_delta_loss_rate"
  | .lossRisk1s => .ok "predicted_loss_risk_bytes"

def singleUpdates (settings : Settings) (model : Predictor) (pathID : Int)
    (samples : List (Column → Cell)) (cur : CoeffEntry) : List (Int × CoeffEntry) :=
  let best := bestCandidate settings model samples cur
  let stepped := stepTo cur best
  let applied := { stepped with gamma := settings.fixedGamma.getD stepped.gamma }
  if improvementOk settings (model samples cur) (model samples best) then [(pathID, applied)] else []

def finishSingle (req : Request) (pathID : Int) (response : Response) : List Operation :=
  [.archive "log", .saveState req.requestID, .archive "samples_path", .removeRows pathID,
    .archive "update_request", .unlinkRequest, .writeResponse response]

def singleAudits : List Operation :=
  [.archive "scores", .archive "audit", .archive "audit_csv"]

def applySingle (req : Request) (pathID : Int) (coeffs : CoeffsFile) (metric : String)
    (updates : List (Int × CoeffEntry)) : Except PyError (List Operation) :=
  if updates.all fun update => update.2.valid then
    .ok (singleAudits ++ updateOperations coeffs updates (some metric) ++
      finishSingle req pathID ⟨req.requestID, if updates = [] then "SKIPPED" else "APPLIED",
        updates.map Prod.fst⟩)
  else .error .valueError

def processSingleRequest (settings : Settings) (model : Predictor) (req : Request) (pathID : Int)
    (samples : Frame) (coeffs : CoeffsFile) : Except PyError (List Operation) :=
  let rows := if Column.pathID ∈ samples.columns then samples.rowsOfPath pathID else []
  if rows = [] then .ok []
  else do
    let current ← loadCurrent req pathID coeffs
    if candidateTriples settings.fixedGamma = [] then .error .valueError
    else
      let metric ← metricField settings.targetMode
      applySingle req pathID coeffs metric (singleUpdates settings model pathID rows current.2)

def loadSamples (files : Files) : Except PyError Frame :=
  match files.samples with
  | none => .ok ⟨[], []⟩
  | some df => df.cleanRuntimeSamples

-- The worker goes on with the ID without the white space around it.
def Request.trimmed (req : Request) : Request :=
  { req with requestID := strip req.requestID }

-- One call of `_process_request` with a model: the changes of the files that it makes, in order.
def processRequest (settings : Settings) (model : Predictor) (files : Files) :
    Except PyError (List Operation) :=
  match files.request with
  | none => .ok []
  | some req =>
    match req.pathID with
    | none => .ok []
    | some pathID =>
      if strip req.requestID = "" ∨ strip req.reason = "" then .ok []
      else if !settings.shadow ∧ strip req.requestID ∈ files.processed then .ok [.unlinkRequest]
      else do
        let samples ← loadSamples files
        if samples.rows = [] then return []
        else if settings.shadow || settings.aggregateMultipath then
          processMultipathRequest settings model req.trimmed pathID samples files.coeffs
        else processSingleRequest settings model req.trimmed pathID samples files.coeffs

end Processing

end MpQuic.QAccess

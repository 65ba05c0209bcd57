import MpQuic.QAccess.Steps

namespace MpQuic.QAccess

inductive Diagnosis where
  | aggregateAccepts
  | aggregateBlocksDueToCrossPathTradeoff
  | aggregateBlocksNoPathImprovement
  | aggregateBlocksBelowThreshold
  | stepLimitNotDecisive
  | stepLimitDecisive
  deriving DecidableEq

section Diagnoses

variable (settings : Settings) (model : Predictor) (scored : List PathDiagnostics)
  (cur : CoeffEntry) (rows : AggregateRow × AggregateRow)

def objectiveImprovement (mode : TargetMode) (current candidate : ℚ) : ℚ :=
  optimizationScore mode candidate - optimizationScore mode current

def pathGains : List ℚ :=
  scored.map fun item => objectiveImprovement settings.targetMode (model item.samples cur)
    (model item.samples rows.2.triple)

def decisionDiagnosis : Diagnosis :=
  let gains := pathGains settings model scored cur rows
  let positives := gains.filter fun gain => 0 < gain
  let negatives := gains.filter fun gain => gain < 0
  if aggregateGate settings rows then .aggregateAccepts
  else if positives ≠ [] ∧ negatives ≠ [] then .aggregateBlocksDueToCrossPathTradeoff
  else if positives = [] then .aggregateBlocksNoPathImprovement
  else .aggregateBlocksBelowThreshold

-- The gate for the candidate that the limited step leads to. If it leads to none, the best
-- candidate stands for it.
def steppedGate (stepped : CoeffEntry) : Bool :=
  let found := (aggregateRows settings model scored cur).find? fun row => isCurrent stepped row.triple
  aggregateGate settings (rows.1, found.getD rows.2)

def stepLimitLabel : List Diagnosis :=
  let stepped := stepTo cur rows.2.triple
  if rows.2.triple = stepped then []
  else if steppedGate settings model scored cur rows stepped = aggregateGate settings rows then
    [.stepLimitNotDecisive]
  else [.stepLimitDecisive]

def aggregateDiagnoses : List Diagnosis :=
  decisionDiagnosis settings model scored cur rows ::
    stepLimitLabel settings model scored cur rows

end Diagnoses

-- The diagnoses in the response to a request. An answer without a decision has none.
def responseDiagnoses (settings : Settings) (model : Predictor) (req : Request) (pathID : Int)
    (samples : Frame) (coeffs : CoeffsFile) : Except PyError (List Diagnosis) := do
  let diagnostics ← samples.classifyMediaPaths (minRowsOf req) settings.minSenderByteDelta
  let current ← loadCurrent req pathID coeffs
  let scored := diagnostics.filter PathDiagnostics.eligible
  if scored = [] then return []
  else if candidateTriples settings.fixedGamma = [] then .error .valueError
  else if totalDelta scored ≤ 0 then return []
  else
    let rows ← compareRows settings model scored current.2
    return aggregateDiagnoses settings model scored current.2 rows

section Applied

variable {settings : Settings} {model : Predictor} {req : Request} {scored : List PathDiagnostics}
  {cur : CoeffEntry} {rows : AggregateRow × AggregateRow}

theorem candidates_apart : ∀ t ∈ phase2CandidateTriples, ∀ u ∈ phase2CandidateTriples,
    |t.alpha - u.alpha| < 2e-9 ∧ |t.beta - u.beta| < 2e-9 ∧ |t.gamma - u.gamma| < 2e-9 →
      t = u := by
  decide +kernel

theorem abs_sub_lt_of_near {x y z : ℚ} (hx : |x - z| < 1e-9) (hy : |y - z| < 1e-9) :
    |x - y| < 2e-9 := by
  rw [abs_lt] at hx hy ⊢
  constructor
  · linarith
  · linarith

variable {e : CoeffEntry} {row : AggregateRow}

theorem eq_of_isCurrent {t u : CoeffEntry} (ht : t ∈ phase2CandidateTriples)
    (hu : u ∈ phase2CandidateTriples) (hnear : isCurrent e t = true)
    (hother : isCurrent e u = true) : t = u := by
  obtain ⟨halpha, hbeta, hgamma⟩ := isCurrent_iff.mp hnear
  obtain ⟨halphaU, hbetaU, hgammaU⟩ := isCurrent_iff.mp hother
  exact candidates_apart t ht u hu ⟨abs_sub_lt_of_near halpha halphaU,
    abs_sub_lt_of_near hbeta hbetaU, abs_sub_lt_of_near hgamma hgammaU⟩

theorem isCurrent_self (e : CoeffEntry) : isCurrent e e = true := by
  rw [isCurrent_iff]
  norm_num

section

variable (hrow : row ∈ aggregateRows settings model scored cur)

include hrow

theorem triple_mem_of_mem_aggregateRows :
    row.triple ∈ phase2CandidateTriples ∧
      row = ⟨row.triple, weightedScore settings.targetMode model scored row.triple,
        isCurrent cur row.triple⟩ := by
  obtain ⟨t, ht, heq⟩ := List.mem_map.mp hrow
  subst heq
  exact ⟨(mem_candidateTriples.mp ht).1, rfl⟩

theorem row_unique {other : AggregateRow}
    (hother : other ∈ aggregateRows settings model scored cur)
    (hnear : isCurrent e row.triple = true) (hnearOther : isCurrent e other.triple = true) :
    other = row := by
  obtain ⟨hmem, heq⟩ := triple_mem_of_mem_aggregateRows hrow
  obtain ⟨hmemOther, heqOther⟩ := triple_mem_of_mem_aggregateRows hother
  rw [heq, heqOther, eq_of_isCurrent hmem hmemOther hnear hnearOther]

theorem find_row
    (hnear : isCurrent e row.triple = true) :
    (aggregateRows settings model scored cur).find? (fun row => isCurrent e row.triple) =
      some row := by
  cases hfound : (aggregateRows settings model scored cur).find?
      (fun row => isCurrent e row.triple) with
  | none =>
    rw [List.find?_eq_none] at hfound
    exact absurd hnear (hfound row hrow)
  | some other =>
    have hmem := List.mem_of_find?_eq_some hfound
    have hnearOther := List.find?_some hfound
    exact congrArg some (row_unique hrow hmem hnear hnearOther)

end

theorem gate_iff_not_decisive (hbest : rows.2 ∈ aggregateRows settings model scored cur)
    (hgate : aggregateGate settings rows = true)
    (hrow : row ∈ aggregateRows settings model scored cur)
    (hnear : isCurrent (stepTo cur rows.2.triple) row.triple = true) :
    aggregateGate settings (rows.1, row) = true ↔
      Diagnosis.stepLimitDecisive ∉ aggregateDiagnoses settings model scored cur rows := by
  have hdecision : decisionDiagnosis settings model scored cur rows = .aggregateAccepts :=
    if_pos hgate
  have hstepped : steppedGate settings model scored cur rows (stepTo cur rows.2.triple) =
      aggregateGate settings (rows.1, row) := by
    unfold steppedGate
    rw [find_row hrow hnear]
    rfl
  unfold aggregateDiagnoses stepLimitLabel
  dsimp only
  rw [hdecision, hstepped, hgate]
  by_cases hsame : rows.2.triple = stepTo cur rows.2.triple
  · rw [if_pos hsame]
    rw [← hsame] at hnear
    rw [row_unique hbest hrow (isCurrent_self _) hnear]
    simpa using hgate
  · rw [if_neg hsame]
    by_cases hpasses : aggregateGate settings (rows.1, row) = true
    · simp [hpasses]
    · simp [hpasses]

theorem best_mem_aggregateRows (hrows : compareRows settings model scored cur = .ok rows) :
    rows.2 ∈ aggregateRows settings model scored cur := by
  obtain ⟨first, rest, hall, -, hbest⟩ := compareRows_cases hrows
  rw [hall, hbest]
  exact bestRow_mem first rest

theorem mem_updates_of_mem_applyAggregate {coeffs : CoeffsFile}
    {updates : List (Int × CoeffEntry)} {operations : List Operation}
    (hoperations : applyAggregate settings req coeffs updates = .ok operations) {target : Int}
    {metric : Option String}
    (hupdate : Operation.updateCoeffs target e metric ∈ operations) : (target, e) ∈ updates := by
  unfold applyAggregate at hoperations
  split_ifs at hoperations
  cases hoperations
  have hbackups : Operation.updateCoeffs target e metric ∉ backups coeffs := by
    cases coeffs <;> simp [backups]
  simp only [updateOperations, aggregateAudits, finishRequest, List.mem_cons, List.mem_append,
    List.mem_map, List.not_mem_nil, reduceCtorEq, false_or, or_false] at hupdate
  rcases hupdate with hupdate | ⟨update, hmem, heq⟩
  · split_ifs at hupdate
    · cases hupdate
    · exact absurd hupdate hbackups
  · cases heq
    exact hmem

end Applied

-- What a decision is about: the paths that are scored, the coefficients that the request
-- starts from, and the rows of these and of the best candidate.
structure Decision (settings : Settings) (model : Predictor) (req : Request) (pathID : Int)
    (samples : Frame) (coeffs : CoeffsFile) (scored : List PathDiagnostics) (cur : CoeffEntry)
    (rows : AggregateRow × AggregateRow) : Prop where
  eligible : ∃ diagnostics,
    samples.classifyMediaPaths (minRowsOf req) settings.minSenderByteDelta = .ok diagnostics ∧
      scored = diagnostics.filter PathDiagnostics.eligible
  current : ∃ doc, loadCurrent req pathID coeffs = .ok (doc, cur)
  compared : compareRows settings model scored cur = .ok rows

-- An update is applied because the best candidate passes the gate. The coefficients that
-- are written are a limited step away from the current ones, and if they are a candidate,
-- its score passes the gate unless the response says that the step limit was decisive.
theorem applied_candidate_passes_iff {settings : Settings} {model : Predictor} {req : Request}
    {pathID : Int} {samples : Frame} {coeffs : CoeffsFile} {operations : List Operation}
    (hprocess : processMultipathRequest settings model req pathID samples coeffs = .ok operations)
    {target : Int} {e : CoeffEntry} {metric : Option String}
    (hupdate : Operation.updateCoeffs target e metric ∈ operations) :
    ∃ scored cur rows diagnoses,
      Decision settings model req pathID samples coeffs scored cur rows ∧
      responseDiagnoses settings model req pathID samples coeffs = .ok diagnoses ∧
      e = stepTo cur rows.2.triple ∧ aggregateGate settings rows = true ∧
      ∀ row ∈ aggregateRows settings model scored cur, isCurrent e row.triple = true →
        (aggregateGate settings (rows.1, row) = true ↔
          Diagnosis.stepLimitDecisive ∉ diagnoses) := by
  obtain ⟨diagnostics, doc, cur, hclassified, hcurrent, hanswer⟩ :=
    processMultipathRequest_cases hprocess
  rcases hanswer with ⟨audits, haudits, rfl⟩ | ⟨hsome, hdelta, rows, hrows, happly⟩
  · -- Without a decision there is no update.
    simp only [skipAggregate, finishRequest, List.mem_cons, List.mem_append, List.not_mem_nil,
      reduceCtorEq, false_or, or_false] at hupdate
    obtain ⟨file, hfile⟩ := haudits _ hupdate
    cases hfile
  · have hmem := mem_updates_of_mem_applyAggregate happly.2 hupdate
    unfold aggregateUpdates at hmem
    dsimp only at hmem
    split_ifs at hmem with hdecided
    · obtain ⟨-, hgate⟩ := Bool.and_eq_true_iff.mp hdecided
      obtain ⟨id, -, heq⟩ := List.mem_map.mp hmem
      have he : stepTo cur rows.2.triple = e := congrArg Prod.snd heq
      have hcandidates : candidateTriples settings.fixedGamma ≠ [] :=
        List.ne_nil_of_mem (mem_candidates_of_compareRows hrows).1
      have hdiagnoses : responseDiagnoses settings model req pathID samples coeffs =
          .ok (aggregateDiagnoses settings model (diagnostics.filter PathDiagnostics.eligible)
            cur rows) := by
        unfold responseDiagnoses
        rw [hclassified, hcurrent]
        dsimp only [bind, Except.bind]
        rw [if_neg hsome, if_neg hcandidates, if_neg (not_le.mpr hdelta), hrows]
        rfl
      refine ⟨_, cur, rows, _, ⟨⟨diagnostics, hclassified, rfl⟩, ⟨doc, hcurrent⟩, hrows⟩,
        hdiagnoses, he.symm, hgate, fun row hrow hnear => ?_⟩
      exact gate_iff_not_decisive (best_mem_aggregateRows hrows) hgate hrow (he ▸ hnear)
    · cases hmem

def leaping (halfway : ℚ) : Predictor := fun _ t =>
  if t = ⟨0.8, 0.3, 0.1⟩ then 1000000 else if t = ⟨0.7, 0.3, 0.1⟩ then halfway else 0

theorem applied_candidate_passes_iff_example :
    ∃ operations scored cur rows diagnoses,
      processMultipathRequest activeSettings (leaping 600000) pathRequest 1 pathSamples
        (.json defaultDoc.json) = .ok operations ∧
      Decision activeSettings (leaping 600000) pathRequest 1 pathSamples (.json defaultDoc.json)
        scored cur rows ∧
      responseDiagnoses activeSettings (leaping 600000) pathRequest 1 pathSamples
        (.json defaultDoc.json) = .ok diagnoses ∧
      aggregateGate activeSettings rows = true ∧
      ∀ row ∈ aggregateRows activeSettings (leaping 600000) scored cur,
        isCurrent ⟨0.7, 0.3, 0.1⟩ row.triple = true →
          (aggregateGate activeSettings (rows.1, row) = true ↔
            Diagnosis.stepLimitDecisive ∉ diagnoses) := by
  have hupdated : ((processMultipathRequest activeSettings (leaping 600000) pathRequest 1
      pathSamples (.json defaultDoc.json)).map fun operations =>
        decide (Operation.updateCoeffs 1 ⟨0.7, 0.3, 0.1⟩ none ∈ operations)) = .ok true := by
    decide +kernel
  cases hprocess : processMultipathRequest activeSettings (leaping 600000) pathRequest 1
      pathSamples (.json defaultDoc.json) with
  | error err =>
    rw [hprocess] at hupdated
    cases hupdated
  | ok operations =>
    rw [hprocess] at hupdated
    obtain ⟨scored, cur, rows, diagnoses, hdecision, hdiagnoses, -, hgate, hpasses⟩ :=
      applied_candidate_passes_iff hprocess (of_decide_eq_true (Except.ok.inj hupdated))
    exact ⟨operations, scored, cur, rows, diagnoses, rfl, hdecision, hdiagnoses, hgate, hpasses⟩

def testDecision (settings : Settings) (model : Predictor) (req : Request) (pathID : Int)
    (samples : Frame) (coeffs : CoeffsFile)
    (test : AggregateRow × AggregateRow → List AggregateRow → Bool) : Except PyError Bool := do
  let diagnostics ← samples.classifyMediaPaths (minRowsOf req) settings.minSenderByteDelta
  let current ← loadCurrent req pathID coeffs
  let scored := diagnostics.filter PathDiagnostics.eligible
  let rows ← compareRows settings model scored current.2
  return test rows (aggregateRows settings model scored current.2)

theorem decision_of_testDecision {settings : Settings} {model : Predictor} {req : Request}
    {pathID : Int} {samples : Frame} {coeffs : CoeffsFile}
    {test : AggregateRow × AggregateRow → List AggregateRow → Bool}
    (htest : testDecision settings model req pathID samples coeffs test = .ok true) :
    ∃ scored cur rows, Decision settings model req pathID samples coeffs scored cur rows ∧
      test rows (aggregateRows settings model scored cur) = true := by
  unfold testDecision at htest
  cases hclassified : samples.classifyMediaPaths (minRowsOf req) settings.minSenderByteDelta with
  | error err =>
    rw [hclassified] at htest
    cases htest
  | ok diagnostics =>
    cases hcurrent : loadCurrent req pathID coeffs with
    | error err =>
      rw [hclassified, hcurrent] at htest
      cases htest
    | ok current =>
      rw [hclassified, hcurrent] at htest
      dsimp only [bind, Except.bind] at htest
      cases hrows : compareRows settings model (diagnostics.filter PathDiagnostics.eligible)
          current.2 with
      | error err =>
        rw [hrows] at htest
        cases htest
      | ok rows =>
        rw [hrows] at htest
        exact ⟨_, current.2, rows, ⟨⟨diagnostics, hclassified, rfl⟩, ⟨current.1, hcurrent⟩,
          hrows⟩, Except.ok.inj htest⟩

-- The step leads halfway to the best candidate, where the score is worse than the current one.
theorem worse_candidate_is_applied :
    ∃ operations scored cur rows row,
      processMultipathRequest activeSettings (leaping (-1000000)) pathRequest 1 pathSamples
        (.json defaultDoc.json) = .ok operations ∧
      Operation.updateCoeffs 1 row.triple none ∈ operations ∧
      Decision activeSettings (leaping (-1000000)) pathRequest 1 pathSamples
        (.json defaultDoc.json) scored cur rows ∧
      row ∈ aggregateRows activeSettings (leaping (-1000000)) scored cur ∧
      row.score < rows.1.score ∧ aggregateGate activeSettings (rows.1, row) = false := by
  have hupdated : ((processMultipathRequest activeSettings (leaping (-1000000)) pathRequest 1
      pathSamples (.json defaultDoc.json)).map fun operations =>
        decide (Operation.updateCoeffs 1 ⟨0.7, 0.3, 0.1⟩ none ∈ operations)) = .ok true := by
    decide +kernel
  have htest : testDecision activeSettings (leaping (-1000000)) pathRequest 1 pathSamples
      (.json defaultDoc.json) (fun rows all => all.any fun row =>
        row.triple = ⟨0.7, 0.3, 0.1⟩ && row.score < rows.1.score &&
          !aggregateGate activeSettings (rows.1, row)) = .ok true := by
    decide +kernel
  obtain ⟨scored, cur, rows, hdecision, hany⟩ := decision_of_testDecision htest
  obtain ⟨row, hrow, hfacts⟩ := List.any_eq_true.mp hany
  simp only [Bool.and_eq_true, decide_eq_true_eq, Bool.not_eq_true'] at hfacts
  obtain ⟨⟨htriple, hworse⟩, hfails⟩ := hfacts
  cases hprocess : processMultipathRequest activeSettings (leaping (-1000000)) pathRequest 1
      pathSamples (.json defaultDoc.json) with
  | error err =>
    rw [hprocess] at hupdated
    cases hupdated
  | ok operations =>
    rw [hprocess] at hupdated
    refine ⟨operations, scored, cur, rows, row, rfl, ?_, hdecision, hrow, hworse, hfails⟩
    rw [htriple]
    exact of_decide_eq_true (Except.ok.inj hupdated)

end MpQuic.QAccess

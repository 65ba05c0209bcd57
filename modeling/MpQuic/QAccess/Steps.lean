import MpQuic.QAccess.Updates

namespace MpQuic.QAccess

open List

def Near (e prev : CoeffEntry) : Prop :=
  |e.alpha - prev.alpha| ≤ maxCoeffStep ∧ |e.beta - prev.beta| ≤ maxCoeffStep ∧
    |e.gamma - prev.gamma| ≤ maxCoeffStep

-- In every component the coefficients are between the current ones and the middle of the grid. A
-- gamma that is fixed has one candidate, which they must be near.
def Between (fixedGamma : Option ℚ) (cur prev : CoeffEntry) : Prop :=
  prev.alpha ∈ Set.uIcc cur.alpha 0.7 ∧ prev.beta ∈ Set.uIcc cur.beta 0.2 ∧
    match fixedGamma with
    | none => prev.gamma ∈ Set.uIcc cur.gamma 0.2
    | some g => ∀ t ∈ candidateTriples (some g), |t.gamma - prev.gamma| ≤ maxCoeffStep

section Stepping

theorem applyMaxStep_eq (current target : ℚ) :
    applyMaxStep current target =
      max (current - maxCoeffStep) (min (current + maxCoeffStep) target) := by
  unfold applyMaxStep
  rw [← max_add_add_left, ← min_add_add_left, add_sub_cancel, ← sub_eq_add_neg]

theorem maxCoeffStep_pos : 0 < maxCoeffStep := by
  norm_num [maxCoeffStep]

variable {current target mid prev : ℚ}

theorem applyMaxStep_near (current target : ℚ) :
    |applyMaxStep current target - current| ≤ maxCoeffStep := by
  have hstep := maxCoeffStep_pos
  rw [applyMaxStep_eq, abs_le]
  constructor
  · linarith [le_max_left (current - maxCoeffStep) (min (current + maxCoeffStep) target)]
  · rw [sub_le_iff_le_add]
    exact max_le (by linarith) ((min_le_left _ _).trans (by linarith))

theorem applyMaxStep_of_near (hnear : |target - current| ≤ maxCoeffStep) :
    applyMaxStep current target = target := by
  obtain ⟨hlow, hhigh⟩ := abs_le.mp hnear
  rw [applyMaxStep_eq, min_eq_right (by linarith), max_eq_right (by linarith)]

-- The steps to the values around `mid` are near `prev` if it is between the current value
-- and `mid`.
theorem applyMaxStep_near_of_mem (hcur : |current - mid| ≤ 2 * maxCoeffStep)
    (hprev : prev ∈ Set.uIcc current mid) (htarget : |target - mid| ≤ maxCoeffStep) :
    |applyMaxStep current target - prev| ≤ maxCoeffStep := by
  rw [abs_le] at hcur htarget
  rw [applyMaxStep_eq, abs_le, neg_le_sub_iff_le_add, sub_le_iff_le_add]
  rcases Set.mem_uIcc.mp hprev with ⟨hlow, hhigh⟩ | ⟨hlow, hhigh⟩
  · constructor
    · rw [← sub_le_iff_le_add]
      exact le_max_of_le_right (le_min (by linarith) (by linarith))
    · exact max_le (by linarith) ((min_le_left _ _).trans (by linarith))
  · constructor
    · rw [← sub_le_iff_le_add]
      exact le_max_of_le_left (by linarith)
    · exact max_le (by linarith) ((min_le_right _ _).trans (by linarith))

theorem mem_uIcc_of_applyMaxStep_near (hcur : |current - mid| ≤ 2 * maxCoeffStep)
    (hlow : |applyMaxStep current (mid - maxCoeffStep) - prev| ≤ maxCoeffStep)
    (hhigh : |applyMaxStep current (mid + maxCoeffStep) - prev| ≤ maxCoeffStep) :
    prev ∈ Set.uIcc current mid := by
  have hstep := maxCoeffStep_pos
  rw [abs_le] at hcur
  rw [applyMaxStep_eq, abs_le] at hlow hhigh
  rw [Set.mem_uIcc]
  rcases le_total current mid with hle | hle
  · rw [min_eq_right (by linarith), max_eq_right (by linarith)] at hlow
    rw [min_eq_left (by linarith), max_eq_right (by linarith)] at hhigh
    exact .inl ⟨by linarith, by linarith⟩
  · rw [min_eq_right (by linarith), max_eq_left (by linarith)] at hlow
    rw [min_eq_right (by linarith), max_eq_right (by linarith)] at hhigh
    exact .inr ⟨by linarith, by linarith⟩

theorem max_applyMaxStep (hcurrent : 0 ≤ current) (htarget : minBetaGamma ≤ target) :
    max minBetaGamma (applyMaxStep current target) = applyMaxStep current target := by
  have hfloor : minBetaGamma = maxCoeffStep := rfl
  rw [applyMaxStep_eq]
  exact max_eq_right (le_max_of_le_right (le_min (by linarith) htarget))

theorem lt_abs_applyMaxStep {near : ℚ} (hnear : |near - current| < 1e-9)
    (hfar : maxCoeffStep ≤ |target - near|) : 1e-9 < |applyMaxStep current target - current| := by
  have hstep : (2e-9 : ℚ) < maxCoeffStep := by norm_num [maxCoeffStep]
  rw [abs_lt] at hnear
  rw [applyMaxStep_eq, lt_abs]
  rcases le_abs.mp hfar with hup | hdown
  · left
    have hlow : current + maxCoeffStep - 1e-9 ≤ min (current + maxCoeffStep) target :=
      le_min (by norm_num) (by linarith)
    linarith [le_max_right (current - maxCoeffStep) (min (current + maxCoeffStep) target)]
  · right
    have hhigh : max (current - maxCoeffStep) (min (current + maxCoeffStep) target) ≤
        current - maxCoeffStep + 1e-9 :=
      max_le (by norm_num) ((min_le_right _ _).trans (by linarith))
    linarith

end Stepping

section Grid

theorem mem_phase2CandidateTriples {t : CoeffEntry} :
    t ∈ phase2CandidateTriples ↔
      t.alpha ∈ [0.6, 0.7, 0.8] ∧ t.beta ∈ [0.1, 0.2, 0.3] ∧ t.gamma ∈ [0.1, 0.2, 0.3] := by
  obtain ⟨alpha, beta, gamma⟩ := t
  simp only [phase2CandidateTriples, mem_flatMap, mem_map, CoeffEntry.mk.injEq]
  constructor
  · rintro ⟨a, ha, b, hb, g, hg, rfl, rfl, rfl⟩
    exact ⟨ha, hb, hg⟩
  · rintro ⟨ha, hb, hg⟩
    exact ⟨alpha, ha, beta, hb, gamma, hg, rfl, rfl, rfl⟩

theorem mem_candidateTriples {fixedGamma : Option ℚ} {t : CoeffEntry} :
    t ∈ candidateTriples fixedGamma ↔
      t ∈ phase2CandidateTriples ∧ ∀ g ∈ fixedGamma, |t.gamma - g| < 1e-9 := by
  cases fixedGamma with
  | none => simp [candidateTriples]
  | some g => simp [candidateTriples]

theorem candidate_bounds : ∀ t ∈ phase2CandidateTriples,
    |t.alpha - 0.7| ≤ maxCoeffStep ∧ |t.beta - 0.2| ≤ maxCoeffStep ∧
      |t.gamma - 0.2| ≤ maxCoeffStep := by
  decide +kernel

theorem exists_far_alpha : ∀ alpha ∈ [(0.6 : ℚ), 0.7, 0.8], ∃ other ∈ [(0.6 : ℚ), 0.7, 0.8],
    maxCoeffStep ≤ |other - alpha| := by
  decide +kernel

theorem exists_far_beta : ∀ beta ∈ [(0.1 : ℚ), 0.2, 0.3], ∃ other ∈ [(0.1 : ℚ), 0.2, 0.3],
    maxCoeffStep ≤ |other - beta| := by
  decide +kernel

variable {cur near t prev : CoeffEntry} {fixedGamma : Option ℚ}

theorem mem_candidateTriples_of_gamma (ht : t ∈ candidateTriples fixedGamma) {alpha beta : ℚ}
    (halpha : alpha ∈ [(0.6 : ℚ), 0.7, 0.8]) (hbeta : beta ∈ [(0.1 : ℚ), 0.2, 0.3]) :
    ⟨alpha, beta, t.gamma⟩ ∈ candidateTriples fixedGamma := by
  rw [mem_candidateTriples, mem_phase2CandidateTriples] at ht ⊢
  exact ⟨⟨halpha, hbeta, ht.1.2.2⟩, ht.2⟩

theorem isCurrent_iff :
    isCurrent cur t = true ↔ |t.alpha - cur.alpha| < 1e-9 ∧ |t.beta - cur.beta| < 1e-9 ∧
      |t.gamma - cur.gamma| < 1e-9 := by
  simp [isCurrent, and_assoc]

theorem differs_iff {stepped : CoeffEntry} :
    differs cur stepped = true ↔ 1e-9 < |stepped.alpha - cur.alpha| ∨
      1e-9 < |stepped.beta - cur.beta| ∨ 1e-9 < |stepped.gamma - cur.gamma| := by
  simp [differs, or_assoc]

section Near

variable (hnear : near ∈ phase2CandidateTriples) (hcurrent : isCurrent cur near = true)

include hnear hcurrent

theorem near_grid :
    |cur.alpha - 0.7| ≤ 2 * maxCoeffStep ∧ |cur.beta - 0.2| ≤ 2 * maxCoeffStep ∧
      |cur.gamma - 0.2| ≤ 2 * maxCoeffStep := by
  obtain ⟨halpha, hbeta, hgamma⟩ := candidate_bounds near hnear
  obtain ⟨hca, hcb, hcg⟩ := isCurrent_iff.mp hcurrent
  have hstep : (1e-9 : ℚ) < maxCoeffStep := by norm_num [maxCoeffStep]
  rw [abs_le] at halpha hbeta hgamma
  rw [abs_lt] at hca hcb hcg
  refine ⟨abs_le.mpr ⟨?_, ?_⟩, abs_le.mpr ⟨?_, ?_⟩, abs_le.mpr ⟨?_, ?_⟩⟩ <;> linarith

theorem stepTo_eq (ht : t ∈ phase2CandidateTriples) :
    stepTo cur t = ⟨applyMaxStep cur.alpha t.alpha, applyMaxStep cur.beta t.beta,
      applyMaxStep cur.gamma t.gamma⟩ := by
  obtain ⟨-, hbeta, hgamma⟩ := near_grid hnear hcurrent
  obtain ⟨-, htb, htg⟩ := candidate_bounds t ht
  rw [abs_le] at hbeta hgamma htb htg
  norm_num [maxCoeffStep] at hbeta hgamma htb htg
  have hfloor : minBetaGamma = 1 / 10 := by norm_num [minBetaGamma]
  unfold stepTo
  rw [max_applyMaxStep (by linarith) (by linarith), max_applyMaxStep (by linarith) (by linarith)]

theorem valid_stepTo (t : CoeffEntry) : (stepTo cur t).valid = true := by
  obtain ⟨hca, hcb, hcg⟩ := near_grid hnear hcurrent
  have hsa := applyMaxStep_near cur.alpha t.alpha
  have hsb := applyMaxStep_near cur.beta t.beta
  have hsg := applyMaxStep_near cur.gamma t.gamma
  rw [abs_le] at hca hcb hcg hsa hsb hsg
  norm_num [maxCoeffStep] at hca hcb hcg hsa hsb hsg
  refine CoeffEntry.valid_iff.mpr ⟨⟨?_, ?_⟩, ⟨?_, ?_⟩, ?_, ?_⟩ <;> dsimp only [stepTo, minBetaGamma]
  · linarith
  · linarith
  · exact le_max_of_le_left (by norm_num)
  · exact max_le (by norm_num) (by linarith)
  · exact le_max_of_le_left (by norm_num)
  · exact max_le (by norm_num) (by linarith)

end Near

theorem differs_stepTo_of_isCurrent (ht : t ∈ phase2CandidateTriples)
    (hcurrent : isCurrent cur t = true) : ¬differs cur (stepTo cur t) = true := by
  have hsmall : (1e-9 : ℚ) ≤ maxCoeffStep := by norm_num [maxCoeffStep]
  obtain ⟨halpha, hbeta, hgamma⟩ := isCurrent_iff.mp hcurrent
  rw [stepTo_eq ht hcurrent ht, differs_iff, applyMaxStep_of_near (halpha.le.trans hsmall),
    applyMaxStep_of_near (hbeta.le.trans hsmall), applyMaxStep_of_near (hgamma.le.trans hsmall)]
  rintro (hfar | hfar | hfar)
  · exact hfar.not_gt halpha
  · exact hfar.not_gt hbeta
  · exact hfar.not_gt hgamma

section Between

variable (hnear : near ∈ candidateTriples fixedGamma) (hcurrent : isCurrent cur near = true)

include hnear hcurrent

theorem applyMaxStep_fixed_gamma {g : ℚ} (hfixed : g ∈ fixedGamma)
    (ht : t ∈ candidateTriples fixedGamma) : applyMaxStep cur.gamma t.gamma = t.gamma := by
  have hstep : (3e-9 : ℚ) < maxCoeffStep := by norm_num [maxCoeffStep]
  have hnearest := abs_lt.mp ((mem_candidateTriples.mp hnear).2 g hfixed)
  have htarget := abs_lt.mp ((mem_candidateTriples.mp ht).2 g hfixed)
  have hcur := abs_lt.mp (isCurrent_iff.mp hcurrent).2.2
  exact applyMaxStep_of_near (abs_le.mpr ⟨by linarith, by linarith⟩)

theorem near_of_between (hbetween : Between fixedGamma cur prev)
    (ht : t ∈ candidateTriples fixedGamma) : Near (stepTo cur t) prev := by
  obtain ⟨halpha, hbeta, hgamma⟩ := hbetween
  have hgrid := (mem_candidateTriples.mp hnear).1
  obtain ⟨hca, hcb, hcg⟩ := near_grid hgrid hcurrent
  obtain ⟨hta, htb, htg⟩ := candidate_bounds t (mem_candidateTriples.mp ht).1
  rw [stepTo_eq hgrid hcurrent (mem_candidateTriples.mp ht).1]
  refine ⟨applyMaxStep_near_of_mem hca halpha hta, applyMaxStep_near_of_mem hcb hbeta htb, ?_⟩
  cases hfixed : fixedGamma with
  | none =>
    rw [hfixed] at hgamma
    exact applyMaxStep_near_of_mem hcg hgamma htg
  | some g =>
    dsimp only
    rw [applyMaxStep_fixed_gamma hnear hcurrent hfixed ht]
    rw [hfixed] at hgamma ht
    exact hgamma t ht

theorem differs_of_far (ht : t ∈ candidateTriples fixedGamma)
    (hfar : maxCoeffStep ≤ |t.alpha - near.alpha| ∨ maxCoeffStep ≤ |t.beta - near.beta|) :
    differs cur (stepTo cur t) = true := by
  have hgrid := (mem_candidateTriples.mp hnear).1
  obtain ⟨hca, hcb, -⟩ := isCurrent_iff.mp hcurrent
  rw [stepTo_eq hgrid hcurrent (mem_candidateTriples.mp ht).1, differs_iff]
  rcases hfar with hfar | hfar
  · exact .inl (lt_abs_applyMaxStep hca hfar)
  · exact .inr (.inl (lt_abs_applyMaxStep hcb hfar))

theorem between_of_near (hall : ∀ t ∈ candidateTriples fixedGamma,
    differs cur (stepTo cur t) = true → Near (stepTo cur t) prev) : Between fixedGamma cur prev := by
  have hgrid := (mem_candidateTriples.mp hnear).1
  obtain ⟨hca, hcb, hcg⟩ := near_grid hgrid hcurrent
  obtain ⟨hna, hnb, hng⟩ := mem_phase2CandidateTriples.mp hgrid
  obtain ⟨alpha, halpha, hfarAlpha⟩ := exists_far_alpha _ hna
  obtain ⟨beta, hbeta, hfarBeta⟩ := exists_far_beta _ hnb
  -- Every value of a component belongs to a candidate that differs in another one.
  have hstepped : ∀ t ∈ candidateTriples fixedGamma,
      maxCoeffStep ≤ |t.alpha - near.alpha| ∨ maxCoeffStep ≤ |t.beta - near.beta| →
      |applyMaxStep cur.alpha t.alpha - prev.alpha| ≤ maxCoeffStep ∧
        |applyMaxStep cur.beta t.beta - prev.beta| ≤ maxCoeffStep ∧
        |applyMaxStep cur.gamma t.gamma - prev.gamma| ≤ maxCoeffStep := by
    intro t ht hfar
    have hclose := hall t ht (differs_of_far hnear hcurrent ht hfar)
    rwa [stepTo_eq hgrid hcurrent (mem_candidateTriples.mp ht).1] at hclose
  refine ⟨mem_uIcc_of_applyMaxStep_near hca ?_ ?_, mem_uIcc_of_applyMaxStep_near hcb ?_ ?_, ?_⟩
  · exact (hstepped ⟨_, beta, near.gamma⟩
      (mem_candidateTriples_of_gamma hnear (by norm_num [maxCoeffStep]) hbeta) (.inr hfarBeta)).1
  · exact (hstepped ⟨_, beta, near.gamma⟩
      (mem_candidateTriples_of_gamma hnear (by norm_num [maxCoeffStep]) hbeta) (.inr hfarBeta)).1
  · exact (hstepped ⟨alpha, _, near.gamma⟩
      (mem_candidateTriples_of_gamma hnear halpha (by norm_num [maxCoeffStep]))
      (.inl hfarAlpha)).2.1
  · exact (hstepped ⟨alpha, _, near.gamma⟩
      (mem_candidateTriples_of_gamma hnear halpha (by norm_num [maxCoeffStep]))
      (.inl hfarAlpha)).2.1
  · cases hfixed : fixedGamma with
    | none =>
      have hlow : 0.2 - maxCoeffStep ∈ [(0.1 : ℚ), 0.2, 0.3] := by norm_num [maxCoeffStep]
      have hhigh : 0.2 + maxCoeffStep ∈ [(0.1 : ℚ), 0.2, 0.3] := by norm_num [maxCoeffStep]
      refine mem_uIcc_of_applyMaxStep_near hcg ?_ ?_
      · refine (hstepped ⟨alpha, near.beta, _⟩ ?_ (.inl hfarAlpha)).2.2
        rw [hfixed]
        exact mem_phase2CandidateTriples.mpr ⟨halpha, hnb, hlow⟩
      · refine (hstepped ⟨alpha, near.beta, _⟩ ?_ (.inl hfarAlpha)).2.2
        rw [hfixed]
        exact mem_phase2CandidateTriples.mpr ⟨halpha, hnb, hhigh⟩
    | some g =>
      intro t ht
      rw [← hfixed] at ht
      have hbetaT := (mem_phase2CandidateTriples.mp (mem_candidateTriples.mp ht).1).2.1
      have hclose := (hstepped _ (mem_candidateTriples_of_gamma ht halpha hbetaT)
        (.inl hfarAlpha)).2.2
      rwa [applyMaxStep_fixed_gamma hnear hcurrent hfixed ht] at hclose

end Between

end Grid

section Ranking

theorem bestRow_mem (first : AggregateRow) (rest : List AggregateRow) :
    bestRow first rest ∈ first :: rest := by
  unfold bestRow
  induction rest generalizing first with
  | nil => exact mem_singleton.mpr rfl
  | cons row rest ih =>
    rw [foldl_cons]
    split
    · exact mem_cons_of_mem _ (ih row)
    · rcases mem_cons.mp (ih first) with h | h
      · rw [h]
        exact mem_cons_self
      · exact mem_cons_of_mem _ (mem_cons_of_mem _ h)

variable {row other : AggregateRow}

theorem score_le_of_not_precedes (h : ¬row.precedes other = true) : row.score ≤ other.score := by
  by_contra hlt
  rw [not_le] at hlt
  exact h (by simp [AggregateRow.precedes, hlt])

theorem score_le_of_precedes (h : row.precedes other = true) : other.score ≤ row.score := by
  unfold AggregateRow.precedes at h
  rw [Bool.or_eq_true, Bool.and_eq_true, decide_eq_true_eq, decide_eq_true_eq] at h
  rcases h with h | h
  · exact h.le
  · exact h.1.ge

theorem score_le_bestRow (first : AggregateRow) (rest : List AggregateRow) :
    ∀ row ∈ first :: rest, row.score ≤ (bestRow first rest).score := by
  unfold bestRow
  induction rest generalizing first with
  | nil =>
    intro row hrow
    rw [mem_singleton.mp hrow]
    exact le_refl _
  | cons next rest ih =>
    intro row hrow
    rw [foldl_cons]
    have hkept := ih (if next.precedes first = true then next else first)
    have hhead := hkept _ mem_cons_self
    rcases mem_cons.mp hrow with rfl | hrow
    · refine le_trans ?_ hhead
      split
      · exact score_le_of_precedes (by assumption)
      · exact le_refl _
    · rcases mem_cons.mp hrow with rfl | hrow
      · refine le_trans ?_ hhead
        split
        · exact le_refl _
        · exact score_le_of_not_precedes (by assumption)
      · exact hkept row (mem_cons_of_mem _ hrow)

end Ranking

def Request.carries (req : Request) (coeffs : CoeffsFile) (pathID : Int) : Prop :=
  ∃ cur, workerCoefficients coeffs pathID = .ok cur ∧ req.currentAlpha = some cur.alpha ∧
    req.currentBeta = some cur.beta ∧ req.currentGamma = some cur.gamma

theorem currentOr_self (q : ℚ) : currentOr (some q) q = q := by
  simp [currentOr]

variable {req : Request} {coeffs : CoeffsFile} {pathID : Int}

theorem loadCurrent_eq_ok_iff {doc : PyDocument} {cur : CoeffEntry} :
    loadCurrent req pathID coeffs = .ok (doc, cur) ↔ loadCoeffsDoc coeffs = .ok doc ∧
      ∃ resolved, workerCoefficients coeffs pathID = .ok resolved ∧
        currentCoeffs req resolved = cur := by
  unfold loadCurrent workerCoefficients
  cases loadCoeffsDoc coeffs with
  | error err => exact iff_of_false nofun nofun
  | ok loaded =>
    dsimp only [bind, Except.bind]
    cases resolvePathCoeffs loaded pathID with
    | error err => exact iff_of_false nofun fun ⟨_, _, herror, _⟩ => nomatch herror
    | ok resolved => simp [Except.map, pure, Except.pure]

theorem loadCurrent_of_carries (hcarries : req.carries coeffs pathID) {doc : PyDocument}
    {cur : CoeffEntry} :
    loadCurrent req pathID coeffs = .ok (doc, cur) ↔
      loadCoeffsDoc coeffs = .ok doc ∧ workerCoefficients coeffs pathID = .ok cur := by
  obtain ⟨known, hknown, halpha, hbeta, hgamma⟩ := hcarries
  have hcurrent : currentCoeffs req known = known := by
    unfold currentCoeffs
    rw [halpha, hbeta, hgamma]
    dsimp only
    rw [currentOr_self, currentOr_self, currentOr_self]
  simp [loadCurrent_eq_ok_iff, hknown, hcurrent]

def StepLimited (settings : Settings) (model : Predictor) (req : Request) (pathID : Int)
    (samples : Frame) (files : Files) : Prop :=
  ∀ operations,
    processMultipathRequest settings model req pathID samples files.coeffs = .ok operations →
    ∀ response, (performAll files operations).response = some response →
      ∀ updated ∈ response.updatedPathIDs, ∀ prev next,
        workerCoefficients files.coeffs updated = .ok prev →
        workerCoefficients (performAll files operations).coeffs updated = .ok next →
        Near next prev ∧ minBetaGamma ≤ next.beta ∧ minBetaGamma ≤ next.gamma

-- Some model makes the call write coefficients.
structure MayUpdate (settings : Settings) (req : Request) (columns : List Column)
    (scored : List PathDiagnostics) (cur : CoeffEntry) : Prop where
  active : settings.shadow = false ∧ settings.targetMode.active = true
  owner : ownerOk columns scored = true
  phase : phaseAllowed settings req = true
  delta : 0 < totalDelta scored
  grid : ∃ t ∈ candidateTriples settings.fixedGamma, isCurrent cur t = true

def Written (doc : PyDocument) (scored : List PathDiagnostics) (pathID : Int) : Prop :=
  (∃ key ∈ doc.paths.keys, digitKey key = some pathID) ∨ ∃ item ∈ scored, item.pathID = pathID

def StepsFit (settings : Settings) (req : Request) (pathID : Int) (samples : Frame)
    (coeffs : CoeffsFile) : Prop :=
  ∀ diagnostics doc cur,
    samples.classifyMediaPaths (minRowsOf req) settings.minSenderByteDelta = .ok diagnostics →
    loadCoeffsDoc coeffs = .ok doc → workerCoefficients coeffs pathID = .ok cur →
    MayUpdate settings req samples.columns (diagnostics.filter PathDiagnostics.eligible) cur →
    keysConvert doc = true →
    ∀ updated, Written doc (diagnostics.filter PathDiagnostics.eligible) updated → ∀ prev,
      workerCoefficients coeffs updated = .ok prev → Between settings.fixedGamma cur prev

section Applied

variable {settings : Settings} {model : Predictor} {req : Request} {samples : Frame}
    {doc : PyDocument} {scored : List PathDiagnostics} {cur : CoeffEntry}

theorem mem_candidates_of_compareRows {rows : AggregateRow × AggregateRow}
    (hrows : compareRows settings model scored cur = .ok rows) :
    rows.2.triple ∈ candidateTriples settings.fixedGamma ∧
      ∃ t ∈ candidateTriples settings.fixedGamma, isCurrent cur t = true := by
  obtain ⟨first, rest, hall, hfound, hbest⟩ := compareRows_cases hrows
  have hmem : rows.2 ∈ aggregateRows settings model scored cur := by
    rw [hall, hbest]
    exact bestRow_mem first rest
  have hcurrent : rows.1 ∈ aggregateRows settings model scored cur := by
    rw [hall]
    exact List.mem_of_find?_eq_some hfound
  obtain ⟨t, ht, hrow⟩ := mem_map.mp hmem
  obtain ⟨near, hnear, hnearRow⟩ := mem_map.mp hcurrent
  refine ⟨?_, near, hnear, ?_⟩
  · rw [← hrow]
    exact ht
  · have hflag := List.find?_some hfound
    rw [← hnearRow] at hflag
    exact hflag

variable {files : Files}

theorem applyAggregate_updates {ids : List Int} {e : CoeffEntry} {operations : List Operation}
    (hload : loadCoeffsDoc files.coeffs = .ok doc) (hvalid : e.valid = true)
    (happly : applyAggregate settings req files.coeffs (ids.map (·, e)) = .ok operations) :
    (∃ status, (performAll files operations).response = some ⟨req.requestID, status, ids⟩) ∧
      ∀ pathID, workerCoefficients (performAll files operations).coeffs pathID =
        if pathID ∈ ids then .ok e else workerCoefficients files.coeffs pathID := by
  unfold applyAggregate at happly
  split at happly
  · cases happly
    have hids : (ids.map (·, e)).map Prod.fst = ids := by
      rw [map_map]
      exact map_id ids
    refine ⟨⟨aggregateStatus settings (ids.map (·, e) ≠ []), ?_⟩, fun pathID => ?_⟩
    · rw [response_finishRequest, hids]
    · rw [← singleton_append, append_assoc]
      refine performAll_around (by simp [Operation.updatedPath]) ?_ hload hvalid files.coeffs pathID
      intro operation hmem
      rcases mem_append.mp hmem with hmem | hmem
      · exact updatedPath_aggregateAudits operation hmem
      · exact updatedPath_finishRequest _ operation hmem
  · cases happly

theorem response_skipAggregate (files : Files) (audits : List Operation) :
    (performAll files (skipAggregate settings req audits)).response =
      some ⟨req.requestID, skipStatus settings, []⟩ :=
  response_finishRequest files (.archive "samples_all_paths" :: audits) _

end Applied

section Favouring

def favouring (mode : TargetMode) (t : CoeffEntry) (score : ℚ) : Predictor :=
  fun _ x => optimizationScore mode (if x = t then score else 0)

variable {settings : Settings} {scored : List PathDiagnostics} {cur t : CoeffEntry} {score : ℚ}

theorem optimizationScore_involutive (mode : TargetMode) (q : ℚ) :
    optimizationScore mode (optimizationScore mode q) = q := by
  unfold optimizationScore
  split
  · exact neg_neg q
  · rfl

theorem weightedScore_favouring (mode : TargetMode) (hdelta : 0 < totalDelta scored)
    (x : CoeffEntry) :
    weightedScore mode (favouring mode t score) scored x = if x = t then score else 0 := by
  have htotal : (totalDelta scored : ℚ) ≠ 0 := by
    exact_mod_cast hdelta.ne'
  have hsum : (scored.map fun item => ((item.senderByteDelta : ℚ))).sum = (totalDelta scored : ℚ) := by
    unfold totalDelta
    push_cast
    rw [map_map]
    rfl
  unfold weightedScore favouring
  simp only [optimizationScore_involutive]
  rw [sum_map_mul_left]
  have hweights : (scored.map fun item =>
      (item.senderByteDelta : ℚ) / (totalDelta scored : ℚ)).sum = 1 := by
    simp only [div_eq_mul_inv]
    rw [sum_map_mul_right, hsum, mul_inv_cancel₀ htotal]
  rw [hweights, mul_one]

theorem aggregateRows_favouring (hdelta : 0 < totalDelta scored) :
    aggregateRows settings (favouring settings.targetMode t score) scored cur =
      (candidateTriples settings.fixedGamma).map fun x =>
        ⟨x, if x = t then score else 0, isCurrent cur x⟩ := by
  unfold aggregateRows
  simp only [weightedScore_favouring settings.targetMode hdelta]

theorem compareRows_favouring (score : ℚ) (hdelta : 0 < totalDelta scored) (hscore : 0 < score)
    (ht : t ∈ candidateTriples settings.fixedGamma) (hother : isCurrent cur t = false)
    (hgrid : ∃ near ∈ candidateTriples settings.fixedGamma, isCurrent cur near = true) :
    ∃ rows, compareRows settings (favouring settings.targetMode t score) scored cur = .ok rows ∧
      rows.1.score = 0 ∧ rows.2.score = score ∧ rows.2.triple = t := by
  have hrows : aggregateRows settings (favouring settings.targetMode t score) scored cur =
      (candidateTriples settings.fixedGamma).map fun x =>
        ⟨x, if x = t then score else 0, isCurrent cur x⟩ := aggregateRows_favouring hdelta
  obtain ⟨near, hnear, hcurrent⟩ := hgrid
  unfold compareRows
  cases hall : aggregateRows settings (favouring settings.targetMode t score) scored cur with
  | nil =>
    rw [hall] at hrows
    rw [map_eq_nil_iff.mp hrows.symm] at ht
    cases ht
  | cons first rest =>
    dsimp only
    have hmem : ∀ row, row ∈ first :: rest ↔ ∃ x ∈ candidateTriples settings.fixedGamma,
        (⟨x, if x = t then score else 0, isCurrent cur x⟩ : AggregateRow) = row := by
      intro row
      rw [← hall, hrows, mem_map]
    have hfound : ((first :: rest).find? AggregateRow.current).isSome = true :=
      List.find?_isSome.mpr ⟨_, (hmem _).mpr ⟨near, hnear, rfl⟩, hcurrent⟩
    obtain ⟨currentRow, hcurrentRow⟩ := Option.isSome_iff_exists.mp hfound
    rw [hcurrentRow]
    refine ⟨_, rfl, ?_⟩
    -- The row of the favoured candidate is not that of the current coefficients.
    obtain ⟨x, -, hx⟩ := (hmem currentRow).mp (List.mem_of_find?_eq_some hcurrentRow)
    have hflag := List.find?_some hcurrentRow
    have hne : x ≠ t := by
      rintro rfl
      rw [← hx] at hflag
      rw [hother] at hflag
      cases hflag
    obtain ⟨y, -, hy⟩ := (hmem (bestRow first rest)).mp (bestRow_mem first rest)
    have hbest := score_le_bestRow first rest _ ((hmem _).mpr ⟨t, ht, rfl⟩)
    rw [← hy] at hbest
    dsimp only at hbest
    rw [if_pos rfl] at hbest
    have hsame : y = t := by
      by_contra hdiff
      rw [if_neg hdiff] at hbest
      linarith
    dsimp only
    rw [← hx, ← hy, if_neg hne, if_pos hsame]
    exact ⟨rfl, rfl, hsame⟩

theorem aggregateGate_of_large {rows : AggregateRow × AggregateRow} (hcurrent : rows.1.score = 0)
    (hone : 1 ≤ rows.2.score) (habsolute : settings.minDeltaGainBps ≤ rows.2.score)
    (hrelative : effectiveRelativeThreshold settings ≤ rows.2.score) :
    aggregateGate settings rows = true := by
  have hpositive : 0 < rows.2.score := by linarith
  have hgain : effectiveRelativeThreshold settings ≤ relativeGain 0 rows.2.score := by
    unfold relativeGain relativeGainEpsilon
    rw [abs_zero, sub_zero, max_eq_right (by norm_num), le_div_iff₀ (by norm_num)]
    rcases le_total 0 (effectiveRelativeThreshold settings) with hup | hdown
    · linarith
    · linarith
  unfold aggregateGate evaluatePolicyGate
  rw [hcurrent]
  cases settings.gatePolicy with
  | legacy =>
    dsimp only
    unfold evaluateGainGate
    cases settings.gateMode <;> simp [hpositive, habsolute, hgain]
  | objectiveAware =>
    dsimp only
    unfold evaluateObjectiveGate
    cases settings.objective <;> simp [hpositive, habsolute, hgain]

end Favouring

section Updatable

variable {settings : Settings} {model : Predictor} {req : Request} {columns : List Column}
  {coeffs : CoeffsFile} {doc : PyDocument} {scored : List PathDiagnostics} {cur t : CoeffEntry}
  {rows : AggregateRow × AggregateRow}

theorem mem_updatePathIDs {pathID : Int} :
    pathID ∈ updatePathIDs doc scored ↔ Written doc scored pathID := by
  unfold updatePathIDs Written
  rw [mem_insertionSort, mem_dedup, mem_append, mem_filterMap, mem_map]

theorem aggregateUpdates_cases (hdelta : 0 < totalDelta scored)
    (hrows : compareRows settings model scored cur = .ok rows) :
    aggregateUpdates settings req columns doc scored cur rows = [] ∨
      MayUpdate settings req columns scored cur ∧
        aggregateUpdates settings req columns doc scored cur rows =
          (updatePathIDs doc scored).map (·, stepTo cur rows.2.triple) := by
  unfold aggregateUpdates
  dsimp only
  split
  · rename_i happlied
    simp only [activeSafetyOk, Bool.and_eq_true, Bool.not_eq_true'] at happlied
    obtain ⟨⟨⟨⟨⟨hshadow, howner⟩, htarget⟩, -⟩, hphase⟩, -⟩ := happlied
    exact .inr ⟨⟨⟨hshadow, htarget⟩, howner, hphase, hdelta,
      (mem_candidates_of_compareRows hrows).2⟩, rfl⟩
  · exact .inl rfl

namespace MayUpdate

variable (h : MayUpdate settings req columns scored cur)

include h

theorem exists_model (ht : t ∈ candidateTriples settings.fixedGamma)
    (hdiffers : differs cur (stepTo cur t) = true) (doc : PyDocument) :
    ∃ model rows, compareRows settings model scored cur = .ok rows ∧
      aggregateUpdates settings req columns doc scored cur rows =
        (updatePathIDs doc scored).map (·, stepTo cur t) := by
  have hother : isCurrent cur t = false := by
    rw [← Bool.not_eq_true]
    exact fun hcurrent =>
      differs_stepTo_of_isCurrent (mem_candidateTriples.mp ht).1 hcurrent hdiffers
  have hsafe : activeSafetyOk settings req columns scored cur (stepTo cur t) = true := by
    simp [activeSafetyOk, h.active, h.owner, h.phase, hdiffers]
  -- The predictor gives the candidate a score that passes every gate.
  let score := max 1 (max settings.minDeltaGainBps (effectiveRelativeThreshold settings))
  have hone : 1 ≤ score := le_max_left _ _
  obtain ⟨rows, hrows, hzero, hscore, htriple⟩ := compareRows_favouring score h.delta
    (by linarith) ht hother h.grid
  have hgate : aggregateGate settings rows = true := by
    refine aggregateGate_of_large hzero ?_ ?_ ?_ <;> rw [hscore]
    · exact hone
    · exact le_max_of_le_right (le_max_left _ _)
    · exact le_max_of_le_right (le_max_right _ _)
  refine ⟨_, rows, hrows, ?_⟩
  unfold aggregateUpdates
  rw [htriple]
  dsimp only
  rw [hsafe, hgate]
  rfl

theorem scoreAggregate_eq (hrows : compareRows settings model scored cur = .ok rows) :
    scoreAggregate settings model req columns coeffs doc scored cur =
      if aggregateUpdates settings req columns doc scored cur rows ≠ [] ∧ !keysConvert doc then
        .error .valueError
      else applyAggregate settings req coeffs
        (aggregateUpdates settings req columns doc scored cur rows) := by
  have hscored : scored ≠ [] := by
    rintro rfl
    simpa [ownerOk] using h.owner
  obtain ⟨near, hnear, -⟩ := h.grid
  unfold scoreAggregate
  rw [if_neg hscored, if_neg (ne_nil_of_mem hnear), if_neg (not_le.mpr h.delta), hrows]

end MayUpdate

end Updatable

section Limits

variable {settings : Settings} {model : Predictor} {req : Request} {samples : Frame} {pathID : Int}
  {files : Files} (hcarries : req.carries files.coeffs pathID)

include hcarries

theorem stepLimited_of_stepsFit (hfit : StepsFit settings req pathID samples files.coeffs) :
    StepLimited settings model req pathID samples files := by
  intro operations hprocess response hresponse updated hupdated prev next hprev hnext
  obtain ⟨diagnostics, doc, cur, hdiagnostics, hload, hcases⟩ :=
    processMultipathRequest_cases hprocess
  obtain ⟨hdoc, hcur⟩ := (loadCurrent_of_carries hcarries).mp hload
  rcases hcases with ⟨audits, -, rfl⟩ | ⟨-, hdelta, rows, hrows, hkeys, happly⟩
  · rw [response_skipAggregate] at hresponse
    cases hresponse
    cases hupdated
  · obtain ⟨hbest, near, hnear, hcurrent⟩ := mem_candidates_of_compareRows hrows
    have hvalid := valid_stepTo (mem_candidateTriples.mp hnear).1 hcurrent rows.2.triple
    rcases aggregateUpdates_cases hdelta hrows with hnone | ⟨hmay, hsome⟩
    · rw [hnone, ← map_nil (f := (·, stepTo cur rows.2.triple))] at happly
      obtain ⟨⟨status, hanswer⟩, -⟩ := applyAggregate_updates hdoc hvalid happly
      rw [hanswer] at hresponse
      cases hresponse
      cases hupdated
    · rw [hsome] at happly hkeys
      obtain ⟨⟨status, hanswer⟩, hcoeffs⟩ := applyAggregate_updates hdoc hvalid happly
      rw [hanswer] at hresponse
      cases hresponse
      rw [hcoeffs updated, if_pos hupdated] at hnext
      cases hnext
      have hconvert := hkeys (ne_nil_of_mem (mem_map_of_mem hupdated))
      exact ⟨near_of_between hnear hcurrent (hfit diagnostics doc cur hdiagnostics hdoc hcur hmay
        hconvert updated (mem_updatePathIDs.mp hupdated) prev hprev) hbest,
        le_max_left _ _, le_max_left _ _⟩

theorem stepsFit_of_stepLimited
    (hlimited : ∀ model, StepLimited settings model req pathID samples files) :
    StepsFit settings req pathID samples files.coeffs := by
  intro diagnostics doc cur hdiagnostics hdoc hcur hmay hkeys updated hupdated prev hprev
  obtain ⟨near, hnear, hcurrent⟩ := hmay.grid
  refine between_of_near hnear hcurrent fun t ht hdiffers => ?_
  obtain ⟨model, rows, hrows, hupdates⟩ := hmay.exists_model ht hdiffers doc
  have hvalid := valid_stepTo (mem_candidateTriples.mp hnear).1 hcurrent t
  obtain ⟨operations, happly⟩ : ∃ operations, applyAggregate settings req files.coeffs
      ((updatePathIDs doc (diagnostics.filter PathDiagnostics.eligible)).map (·, stepTo cur t)) =
        .ok operations := by
    refine ⟨_, if_pos (all_eq_true.mpr fun update hmem => ?_)⟩
    obtain ⟨id, -, rfl⟩ := mem_map.mp hmem
    exact hvalid
  have hprocess : processMultipathRequest settings model req pathID samples files.coeffs =
      .ok operations := by
    unfold processMultipathRequest
    rw [hdiagnostics, (loadCurrent_of_carries hcarries).mpr ⟨hdoc, hcur⟩]
    dsimp only [bind, Except.bind]
    rw [hmay.scoreAggregate_eq hrows, hupdates, hkeys, if_neg (by simp), happly]
  obtain ⟨⟨status, hanswer⟩, hcoeffs⟩ := applyAggregate_updates hdoc hvalid happly
  rw [← mem_updatePathIDs] at hupdated
  refine (hlimited _ operations hprocess _ hanswer updated hupdated prev (stepTo cur t) hprev ?_).1
  rw [hcoeffs updated, if_pos hupdated]

-- The step limit holds on every path for every predictor exactly if, in a call that may update,
-- the coefficients of every path that is written are between the current ones and the middle of
-- the grid.
theorem steps_are_limited_iff :
    (∀ model, StepLimited settings model req pathID samples files) ↔
      StepsFit settings req pathID samples files.coeffs :=
  ⟨stepsFit_of_stepLimited hcarries, fun hfit _ => stepLimited_of_stepsFit hcarries hfit⟩

end Limits

def activeSettings : Settings where
  targetMode := .deltaBw1s
  shadow := false
  aggregateMultipath := true
  gateMode := .absolute
  gatePolicy := .legacy
  objective := .throughput
  minImprovementPct := 3
  minDeltaGainBps := 500000
  minRelativeDeltaGain := 0.01
  minRelativeGain := 0.03
  objectiveRelativeThreshold := 0.05
  fixedGamma := none
  minSenderByteDelta := 1

def sampleRow (pathID sent : ℚ) : Column → Cell
  | .bwBps => .number 1000
  | .pathID => .number pathID
  | .senderBytesTotal => .number sent
  | .endpointRole => .text ownerRole
  | _ => .number 0

def pathSamples : Frame where
  columns := features ++ [.pathID, .senderBytesTotal, .endpointRole]
  rows := [sampleRow 1 0, sampleRow 1 1000]

def pathRequest : Request where
  requestID := "run_1_1"
  pathID := some 1
  reason := "buffer_full"
  minSamplesPerPath := some 1
  currentAlpha := some 0.6
  currentBeta := some 0.3
  currentGamma := some 0.1
  experimentElapsed := some 100

def unequalDocument : JsonDocument :=
  { plainDocument with
    default := some (.entry defaultEntry.raw)
    paths := some (.table ((∅ : AList fun _ : String => EntryMember).insert "3"
      (.entry (CoeffEntry.raw ⟨0.8, 0.3, 0.3⟩)))) }

def filesWith (doc : JsonDocument) : Files where
  request := some pathRequest
  samples := some pathSamples
  coeffs := .json doc
  processed := []
  response := none

theorem steps_are_limited_example :
    (∀ other, workerCoefficients (.json defaultDoc.json) other = .ok defaultEntry) ∧
      ∀ model, StepLimited activeSettings model pathRequest 1 pathSamples
        (filesWith defaultDoc.json) := by
  have hload : loadCoeffsDoc (.json defaultDoc.json) = .ok defaultDoc := normal_defaultDoc.normalize
  have hall : ∀ other, workerCoefficients (.json defaultDoc.json) other = .ok defaultEntry := by
    intro other
    have hdefault : (resolveDefault defaultDoc.default).map Prod.fst = .ok defaultEntry := by
      decide +kernel
    rw [workerCoefficients_of_load hload]
    exact hdefault
  have hcarries : pathRequest.carries (filesWith defaultDoc.json).coeffs 1 :=
    ⟨defaultEntry, hall 1, rfl, rfl, rfl⟩
  refine ⟨hall, (steps_are_limited_iff hcarries).mpr ?_⟩
  intro _ _ cur _ _ hcur _ _ updated _ prev hprev
  obtain rfl : cur = prev := Except.ok.inj ((hcur.symm.trans (hall 1)).trans
    ((hall updated).symm.trans hprev))
  exact ⟨Set.left_mem_uIcc, Set.left_mem_uIcc, Set.left_mem_uIcc⟩

def jumpOperations : List Operation :=
  [.archive "samples_all_paths", .archive "coefficients_before", .archive "coefficients_prev",
    .updateCoeffs 1 ⟨0.6, 0.2, 0.1⟩ none, .updateCoeffs 3 ⟨0.6, 0.2, 0.1⟩ none,
    .archive "scores_per_path", .archive "scores_aggregate", .archive "path_eligibility",
    .archive "audit", .archive "log", .archive "update_request", .unlinkRequest,
    .writeResponse ⟨"run_1_1", "APPLIED_AGGREGATE", [1, 3]⟩]

theorem processMultipathRequest_jump :
    processMultipathRequest activeSettings (favouring .deltaBw1s ⟨0.6, 0.2, 0.1⟩ 1000000) pathRequest
      1 pathSamples (.json unequalDocument) = .ok jumpOperations := by
  decide +kernel

-- The path 3 goes from an alpha of 0.8 to one of 0.6.
theorem other_path_jumps :
    pathRequest.carries (.json unequalDocument) 1 ∧
    processMultipathRequest activeSettings (favouring .deltaBw1s ⟨0.6, 0.2, 0.1⟩ 1000000) pathRequest
      1 pathSamples (.json unequalDocument) = .ok jumpOperations ∧
    (performAll (filesWith unequalDocument) jumpOperations).response =
      some ⟨"run_1_1", "APPLIED_AGGREGATE", [1, 3]⟩ ∧
    workerCoefficients (.json unequalDocument) 3 = .ok ⟨0.8, 0.3, 0.3⟩ ∧
    workerCoefficients (performAll (filesWith unequalDocument) jumpOperations).coeffs 3 =
      .ok ⟨0.6, 0.2, 0.1⟩ := by
  refine ⟨⟨defaultEntry, ?_, ?_, ?_, ?_⟩, processMultipathRequest_jump, ?_, ?_, ?_⟩ <;>
    decide +kernel

end MpQuic.QAccess

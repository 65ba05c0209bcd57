import MpQuic.QAccess.Answers

namespace MpQuic.QAccess

open MpQuic.Library List

-- One start of the worker: it processes the request that it finds and stops after `count` of
-- the changes, because all are done or because it crashes.
def attempt (settings : Settings) (model : Predictor) (files : Files) (count : Nat) :
    Option (Files × List Operation) :=
  match processRequest settings model files with
  | .error _ => some (files, [])
  | .ok operations => some (performAll files (operations.take count), operations.take count)

-- The request says which coefficients to start from. The worker takes a zero for a missing
-- value.
def Request.Pinned (req : Request) : Prop :=
  ∃ alpha beta gamma : ℚ, alpha ≠ 0 ∧ beta ≠ 0 ∧ gamma ≠ 0 ∧
    req.currentAlpha = some alpha ∧ req.currentBeta = some beta ∧ req.currentGamma = some gamma

theorem Request.Pinned.currentCoeffs {req : Request} (h : req.Pinned) :
    ∃ cur, ∀ resolved, QAccess.currentCoeffs req resolved = cur := by
  obtain ⟨alpha, beta, gamma, halpha, hbeta, hgamma, ha, hb, hg⟩ := h
  refine ⟨⟨alpha, beta, gamma⟩, fun resolved => ?_⟩
  unfold QAccess.currentCoeffs
  rw [ha, hb, hg]
  dsimp only [currentOr]
  rw [if_neg halpha, if_neg hbeta, if_neg hgamma]

section Order

variable {req : Request} {files s : Files}

def Operation.harmless : Operation → Bool
  | .saveState _ | .removeRows _ => false
  | _ => true

def Recorded (requestID : String) : List Operation → Prop
  | [] => True
  | .saveState id :: rest => id = requestID ∧ ∀ operation ∈ rest, ∀ other, operation ≠ .saveState other
  | .removeRows _ :: _ => False
  | _ :: rest => Recorded requestID rest

variable {requestID : String} {operations : List Operation}

theorem Recorded.append {first rest : List Operation}
    (hfirst : ∀ operation ∈ first, operation.harmless = true) (hrest : Recorded requestID rest) :
    Recorded requestID (first ++ rest) := by
  induction first with
  | nil => exact hrest
  | cons operation first ih =>
    have htail := ih fun other hother => hfirst other (mem_cons_of_mem _ hother)
    have hhead := hfirst operation mem_cons_self
    cases operation with
    | saveState id => cases hhead
    | removeRows pathID => cases hhead
    | _ => exact htail

theorem Recorded.of_harmless
    (hall : ∀ operation ∈ operations, operation.harmless = true) : Recorded requestID operations := by
  rw [← append_nil operations]
  exact Recorded.append hall trivial

def Closed (req : Request) (s : Files) : Prop :=
  s.request = none ∨ (s.request = some req ∧ strip req.requestID ∈ s.processed)

-- Or the samples are still those that the request was made for.
def Settled (req : Request) (files s : Files) : Prop :=
  Closed req s ∨ (s.request = some req ∧ s.samples = files.samples)

theorem Closed.performAll (h : Closed req s)
    (hstate : ∀ operation ∈ operations, ∀ id, operation ≠ .saveState id) :
    Closed req (performAll s operations) := by
  induction operations generalizing s with
  | nil => exact h
  | cons operation rest ih =>
    refine ih ?_ fun other hother => hstate other (mem_cons_of_mem _ hother)
    cases operation with
    | saveState id => exact absurd rfl (hstate _ mem_cons_self id)
    | updateCoeffs pathID e metric =>
      dsimp only [Operation.perform]
      split
      · exact h
      · exact h
    | unlinkRequest => exact .inl rfl
    | _ => exact h

theorem Settled.perform {operation : Operation} (h : Settled req files s)
    (hharmless : operation.harmless = true) : Settled req files (operation.perform s) := by
  cases operation with
  | saveState id => cases hharmless
  | removeRows pathID => cases hharmless
  | updateCoeffs pathID e metric =>
    dsimp only [Operation.perform]
    split
    · exact h
    · exact h
  | unlinkRequest => exact .inl (.inl rfl)
  | archive file => exact h
  | writeResponse response => exact h

theorem Settled.saveState (h : Settled req files s) :
    Closed req (Operation.perform s (.saveState (strip req.requestID))) := by
  have hkeeps : (Operation.perform s (.saveState (strip req.requestID))).request = s.request := by
    simp only [Operation.perform]
  have hmem : strip req.requestID ∈
      (Operation.perform s (.saveState (strip req.requestID))).processed := by
    dsimp only [Operation.perform]
    rw [drop_append_of_le_length (by simp)]
    exact mem_append_right _ (mem_singleton.mpr rfl)
  unfold Closed
  rw [hkeeps]
  rcases h with (hnone | ⟨hrequest, -⟩) | ⟨hrequest, -⟩
  · exact .inl hnone
  · exact .inr ⟨hrequest, hmem⟩
  · exact .inr ⟨hrequest, hmem⟩

theorem Settled.performAll (h : Settled req files s)
    (hrecorded : Recorded (strip req.requestID) operations) (count : Nat) :
    Settled req files (performAll s (operations.take count)) := by
  induction operations generalizing s count with
  | nil =>
    rw [take_nil]
    exact h
  | cons operation rest ih =>
    cases count with
    | zero => exact h
    | succ count =>
      rw [take_succ_cons, performAll_cons]
      cases operation with
      | saveState id =>
        obtain ⟨rfl, hstate⟩ := hrecorded
        exact .inl (h.saveState.performAll fun other hother =>
          hstate other (mem_of_mem_take hother))
      | removeRows pathID => cases hrecorded
      | _ => exact ih (h.perform rfl) hrecorded count

end Order

section Branches

variable {settings : Settings} {model : Predictor} {req : Request} {pathID : Int} {samples : Frame}
  {coeffs : CoeffsFile} {operations : List Operation} {cur e : CoeffEntry}

-- Every update writes the coefficients `e`, and the samples are not touched before the request
-- is recorded.
structure Steps (requestID : String) (coeffs : CoeffsFile) (e : CoeffEntry)
    (operations : List Operation) : Prop where
  valid : updatedPaths operations ≠ [] → e.valid = true
  loads : updatedPaths operations ≠ [] → ∃ doc, loadCoeffsDoc coeffs = .ok doc
  writes : ∀ operation ∈ operations, operation.writes e
  recorded : Recorded requestID operations

theorem Steps.nothing {requestID : String} (hnothing : operations = [] ∨ operations = [.unlinkRequest]) :
    Steps requestID coeffs e operations := by
  rcases hnothing with rfl | rfl
  · exact ⟨fun h => absurd rfl h, fun h => absurd rfl h, nofun, trivial⟩
  · exact ⟨fun h => absurd rfl h, fun h => absurd rfl h,
      fun operation hmem => mem_singleton.mp hmem ▸ trivial, trivial⟩

theorem harmless_updateOperations (coeffs : CoeffsFile) (updates : List (Int × CoeffEntry))
    (metric : Option String) :
    ∀ operation ∈ updateOperations coeffs updates metric, operation.harmless = true := by
  intro operation hmem
  rcases mem_append.mp hmem with hbackup | hupdate
  · split at hbackup
    · cases hbackup
    · unfold backups at hbackup
      split at hbackup
      · cases hbackup
      · rcases mem_cons.mp hbackup with rfl | hbackup
        · rfl
        · rw [mem_singleton.mp hbackup]
          rfl
  · obtain ⟨update, -, rfl⟩ := mem_map.mp hupdate
    rfl

theorem harmless_finishRequest (response : Response) :
    ∀ operation ∈ finishRequest response, operation.harmless = true := by
  simp [finishRequest, Operation.harmless]

theorem harmless_aggregateAudits : ∀ operation ∈ aggregateAudits, operation.harmless = true := by
  simp [aggregateAudits, Operation.harmless]

theorem recorded_processMultipathRequest
    (hprocess : processMultipathRequest settings model req pathID samples coeffs = .ok operations) :
    Recorded req.requestID operations := by
  refine Recorded.of_harmless fun operation hmem => ?_
  obtain ⟨diagnostics, doc, cur, -, -, hcases⟩ := processMultipathRequest_cases hprocess
  rcases hcases with ⟨audits, haudits, rfl⟩ | ⟨-, -, rows, -, -, happly⟩
  · rcases mem_cons.mp hmem with rfl | hmem
    · rfl
    · rcases mem_append.mp hmem with haudit | hfinish
      · obtain ⟨file, rfl⟩ := haudits operation haudit
        rfl
      · exact harmless_finishRequest _ operation hfinish
  · unfold applyAggregate at happly
    split at happly
    · cases happly
      rcases mem_append.mp hmem with hmem | hfinish
      · rcases mem_append.mp hmem with hmem | haudit
        · rcases mem_cons.mp hmem with rfl | hupdate
          · rfl
          · exact harmless_updateOperations _ _ _ operation hupdate
        · exact harmless_aggregateAudits operation haudit
      · exact harmless_finishRequest _ operation hfinish
    · cases happly

def singleRows (samples : Frame) (pathID : Int) : List (Column → Cell) :=
  if Column.pathID ∈ samples.columns then samples.rowsOfPath pathID else []

def singleStep (settings : Settings) (model : Predictor) (rows : List (Column → Cell))
    (cur : CoeffEntry) : CoeffEntry :=
  let stepped := stepTo cur (bestCandidate settings model rows cur)
  { stepped with gamma := settings.fixedGamma.getD stepped.gamma }

theorem applySingle_steps {metric : String} {ids : List Int} {doc : PyDocument}
    (hload : loadCoeffsDoc coeffs = .ok doc)
    (happly : applySingle req pathID coeffs metric (ids.map (·, e)) = .ok operations) :
    Steps req.requestID coeffs e operations := by
  unfold applySingle at happly
  split at happly
  · rename_i hall
    cases happly
    generalize hresponse : (⟨req.requestID, if ids.map (·, e) = [] then "SKIPPED" else "APPLIED",
      (ids.map (·, e)).map Prod.fst⟩ : Response) = response
    have hfirst : ∀ operation ∈ singleAudits, operation.updatedPath = none := by
      simp [singleAudits, Operation.updatedPath]
    have hlast : ∀ operation ∈ finishSingle req pathID response, operation.updatedPath = none := by
      simp [finishSingle, Operation.updatedPath]
    have haudits : ∀ operation ∈ singleAudits, operation.harmless = true := by
      simp [singleAudits, Operation.harmless]
    refine ⟨fun hne => ?_, fun _ => ⟨doc, hload⟩, writes_around hfirst hlast coeffs ids e _, ?_⟩
    · rw [updatedPaths, filterMap_updatedPath_around hfirst hlast] at hne
      obtain ⟨id, hid⟩ := exists_mem_of_ne_nil ids hne
      exact all_eq_true.mp hall (id, e) (mem_map_of_mem hid)
    · refine Recorded.append (fun operation hmem => ?_) ?_
      · rcases mem_append.mp hmem with haudit | hupdate
        · exact haudits operation haudit
        · exact harmless_updateOperations _ _ _ operation hupdate
      · refine ⟨rfl, ?_⟩
        simp
  · cases happly

theorem processSingleRequest_steps
    (hprocess : processSingleRequest settings model req pathID samples coeffs = .ok operations)
    (hcur : ∀ resolved, currentCoeffs req resolved = cur) :
    Steps req.requestID coeffs (singleStep settings model (singleRows samples pathID) cur)
      operations := by
  unfold processSingleRequest at hprocess
  change (if singleRows samples pathID = [] then _ else _) = _ at hprocess
  split at hprocess
  · cases hprocess
    exact .nothing (.inl rfl)
  · cases hcurrent : loadCurrent req pathID coeffs with
    | error err =>
      rw [hcurrent] at hprocess
      cases hprocess
    | ok current =>
      obtain ⟨hload, resolved, -, hsame⟩ := loadCurrent_eq_ok_iff.mp hcurrent
      rw [hcurrent] at hprocess
      dsimp only [bind, Except.bind] at hprocess
      split at hprocess
      · cases hprocess
      · cases hmetric : metricField settings.targetMode with
        | error err =>
          rw [hmetric] at hprocess
          cases hprocess
        | ok metric =>
          rw [hmetric, ← hsame, hcur] at hprocess
          obtain ⟨ids, hupdates⟩ : ∃ ids : List Int,
              singleUpdates settings model pathID (singleRows samples pathID) cur =
                ids.map (·, singleStep settings model (singleRows samples pathID) cur) := by
            unfold singleUpdates
            dsimp only
            split
            · exact ⟨[pathID], rfl⟩
            · exact ⟨[], rfl⟩
          dsimp only at hprocess
          change applySingle _ _ _ _
            (singleUpdates settings model pathID (singleRows samples pathID) cur) = _ at hprocess
          rw [hupdates] at hprocess
          exact applySingle_steps hload hprocess

theorem processMultipathRequest_steps
    (hprocess : processMultipathRequest settings model req pathID samples coeffs = .ok operations)
    (hcur : ∀ resolved, currentCoeffs req resolved = cur) :
    Steps req.requestID coeffs (aggregateStep settings model req samples cur) operations := by
  obtain ⟨doc, found, status, hcurrent, hvalid, hwrites, -⟩ :=
    processMultipathRequest_writes hprocess
  obtain ⟨hload, resolved, -, hsame⟩ := loadCurrent_eq_ok_iff.mp hcurrent
  rw [← hsame, hcur] at hvalid hwrites
  exact ⟨hvalid, fun _ => ⟨doc, hload⟩, hwrites,
    recorded_processMultipathRequest hprocess⟩

end Branches

section Attempts

variable {settings : Settings} {model : Predictor} {req : Request} {files s : Files}

variable {operations : List Operation} {cur : CoeffEntry}

theorem processRequest_cases (hactive : settings.shadow = false) (hrequest : s.request = some req)
    (hprocess : processRequest settings model s = .ok operations) :
    (operations = [] ∨ operations = [.unlinkRequest]) ∨
      ∃ pathID samples, req.pathID = some pathID ∧ strip req.requestID ∉ s.processed ∧
        loadSamples s = .ok samples ∧
        (if settings.aggregateMultipath then
            processMultipathRequest settings model req.trimmed pathID samples s.coeffs
          else processSingleRequest settings model req.trimmed pathID samples s.coeffs) =
          .ok operations := by
  unfold processRequest at hprocess
  rw [hrequest] at hprocess
  dsimp only at hprocess
  cases hpath : req.pathID with
  | none =>
    rw [hpath] at hprocess
    cases hprocess
    exact .inl (.inl rfl)
  | some pathID =>
    rw [hpath, hactive] at hprocess
    dsimp only at hprocess
    split at hprocess
    · cases hprocess
      exact .inl (.inl rfl)
    · split at hprocess
      · cases hprocess
        exact .inl (.inr rfl)
      · rename_i hnew
        cases hsamples : loadSamples s with
        | error err =>
          rw [hsamples] at hprocess
          cases hprocess
        | ok samples =>
          rw [hsamples] at hprocess
          dsimp only [bind, Except.bind] at hprocess
          split at hprocess
          · cases hprocess
            exact .inl (.inl rfl)
          · exact .inr ⟨pathID, samples, rfl, fun hmem => hnew ⟨rfl, hmem⟩, rfl,
              by simpa using hprocess⟩

def requestStep (settings : Settings) (model : Predictor) (files : Files) (req : Request)
    (cur : CoeffEntry) : CoeffEntry :=
  match req.pathID, loadSamples files with
  | some pathID, .ok samples =>
    if settings.aggregateMultipath then aggregateStep settings model req.trimmed samples cur
    else singleStep settings model (singleRows samples pathID) cur
  | _, _ => cur

theorem processRequest_steps
    (hactive : settings.shadow = false) (hcur : ∀ resolved, currentCoeffs req resolved = cur)
    (h : Settled req files s) (hprocess : processRequest settings model s = .ok operations) :
    Steps (strip req.requestID) s.coeffs (requestStep settings model files req cur) operations := by
  have hrequest : s.request = none ∨ s.request = some req := by
    rcases h with (hnone | ⟨hsome, -⟩) | ⟨hsome, -⟩
    · exact .inl hnone
    · exact .inr hsome
    · exact .inr hsome
  rcases hrequest with hnone | hrequest
  · unfold processRequest at hprocess
    rw [hnone] at hprocess
    cases hprocess
    exact .nothing (.inl rfl)
  · rcases processRequest_cases hactive hrequest hprocess with
      hnothing | ⟨pathID, samples, hpath, hnew, hsamples, hbranch⟩
    · exact .nothing hnothing
    · have hsame : loadSamples files = .ok samples := by
        rcases h with (hnone | ⟨-, hmem⟩) | ⟨-, hkept⟩
        · cases hnone.symm.trans hrequest
        · exact absurd hmem hnew
        · unfold loadSamples at hsamples ⊢
          rw [← hkept]
          exact hsamples
      unfold requestStep
      rw [hpath, hsame]
      dsimp only
      split at hbranch
      · rename_i haggregate
        rw [if_pos haggregate]
        exact processMultipathRequest_steps hbranch hcur
      · rename_i hsingle
        rw [if_neg hsingle]
        exact processSingleRequest_steps hbranch hcur

theorem Steps.workerCoefficients {requestID : String} {e : CoeffEntry}
    (h : Steps requestID s.coeffs e operations) (count : Nat) (pathID : Int) :
    QAccess.workerCoefficients (performAll s (operations.take count)).coeffs pathID =
        QAccess.workerCoefficients s.coeffs pathID ∨
      QAccess.workerCoefficients (performAll s (operations.take count)).coeffs pathID = .ok e := by
  by_cases hnone : updatedPaths operations = []
  · left
    rw [performAll_coeffs fun operation hmem =>
      filterMap_eq_nil_iff.mp hnone operation (mem_of_mem_take hmem)]
  · obtain ⟨doc, hload⟩ := h.loads hnone
    rw [performAll_updates hload (h.valid hnone) fun operation hmem =>
      h.writes operation (mem_of_mem_take hmem)]
    split
    · exact .inr rfl
    · exact .inl rfl

theorem attempt_steps (hactive : settings.shadow = false)
    (hcur : ∀ resolved, currentCoeffs req resolved = cur) (h : Settled req files s) (count : Nat) :
    ∃ next done, attempt settings model s count = some (next, done) ∧ Settled req files next ∧
      ∀ pathID, workerCoefficients next.coeffs pathID = workerCoefficients s.coeffs pathID ∨
        workerCoefficients next.coeffs pathID = .ok (requestStep settings model files req cur) := by
  unfold attempt
  cases hprocess : processRequest settings model s with
  | error err => exact ⟨s, [], rfl, h, fun _ => .inl rfl⟩
  | ok operations =>
    have hsteps := processRequest_steps hactive hcur h hprocess
    exact ⟨_, _, rfl, h.performAll hsteps.recorded count, hsteps.workerCoefficients count⟩

theorem attempts_steps (hactive : settings.shadow = false)
    (hcur : ∀ resolved, currentCoeffs req resolved = cur) (h : Settled req files s)
    (counts : List Nat) :
    ∃ last log, run (attempt settings model) s counts = some (last, log) ∧ Settled req files last ∧
      ∀ pathID, workerCoefficients last.coeffs pathID = workerCoefficients s.coeffs pathID ∨
        workerCoefficients last.coeffs pathID = .ok (requestStep settings model files req cur) := by
  have halong : Along (attempt settings model) (fun _ _ => True) s counts := Along.always _ _
  obtain ⟨last, log, hrun, hlast⟩ := run_progress
    (fun _ _ state => Settled req files state ∧
      ∀ pathID, workerCoefficients state.coeffs pathID = workerCoefficients s.coeffs pathID ∨
        workerCoefficients state.coeffs pathID = .ok (requestStep settings model files req cur))
    (fun _ _ state count hinv _ => by
      obtain ⟨next, done, hstep, hsettled, hcoeffs⟩ := attempt_steps hactive hcur hinv.1 count
      refine ⟨next, done, hstep, hsettled, fun pathID => ?_⟩
      rcases hcoeffs pathID with hkept | hstepped
      · rw [hkept]
        exact hinv.2 pathID
      · exact .inr hstepped)
    [] [] s counts ⟨h, fun _ => .inl rfl⟩ halong
  exact ⟨last, log, hrun, hlast⟩

-- However often the worker crashes and is started again: once a request that says which
-- coefficients to start from has changed those of a path, they stay.
theorem request_applied_once (hactive : settings.shadow = false) (hrequest : files.request = some req)
    (hpinned : req.Pinned) (before after : List Nat) :
    ∃ middle last done log,
      run (attempt settings model) files before = some (middle, done) ∧
      run (attempt settings model) middle after = some (last, log) ∧
      ∀ pathID, workerCoefficients middle.coeffs pathID ≠ workerCoefficients files.coeffs pathID →
        workerCoefficients last.coeffs pathID = workerCoefficients middle.coeffs pathID := by
  obtain ⟨cur, hcur⟩ := hpinned.currentCoeffs
  have hstart : Settled req files files := .inr ⟨hrequest, rfl⟩
  obtain ⟨middle, done, hbefore, hmiddle, hfirst⟩ := attempts_steps hactive hcur hstart before
  obtain ⟨last, log, hafter, -, hsecond⟩ := attempts_steps hactive hcur hmiddle after
  refine ⟨middle, last, done, log, hbefore, hafter, fun pathID hchanged => ?_⟩
  rcases hfirst pathID with hkept | hstepped
  · exact absurd hkept hchanged
  · rcases hsecond pathID with hkept | hagain
    · exact hkept
    · rw [hagain, hstepped]

end Attempts

def singleSettings : Settings :=
  { activeSettings with aggregateMultipath := false }

-- The request has a beta of zero. The worker crashes after the update and is started again, in
-- the mode for one path and in the aggregate mode.
theorem request_is_applied_twice :
    let files := fun beta : ℚ => { filesWith (entryDocument ⟨0.6, beta, 0.1⟩) with
      request := some (bufferRequest ⟨0.6, 0, 0.1⟩) }
    let model := favouring .deltaBw1s ⟨0.6, 0.3, 0.1⟩ 1000000
    let updated := fun settings files counts =>
      (run (attempt settings model) files counts).map fun result =>
        workerCoefficients result.1.coeffs 1
    updated singleSettings (files 0) [] = some (.ok ⟨0.6, 0, 0.1⟩) ∧
      updated singleSettings (files 0) [6] = some (.ok ⟨0.6, 0.1, 0.1⟩) ∧
      updated singleSettings (files 0) [6, 13] = some (.ok ⟨0.6, 0.2, 0.1⟩) ∧
      updated activeSettings (files 0.1) [] = some (.ok ⟨0.6, 0.1, 0.1⟩) ∧
      updated activeSettings (files 0.1) [4] = some (.ok ⟨0.6, 0.2, 0.1⟩) ∧
      updated activeSettings (files 0.1) [4, 12] = some (.ok ⟨0.6, 0.3, 0.1⟩) := by
  refine ⟨?_, ?_, ?_, ?_, ?_, ?_⟩ <;> decide +kernel

theorem request_applied_once_example :
    let files := filesWith unequalDocument
    let model := favouring .deltaBw1s ⟨0.6, 0.2, 0.1⟩ 1000000
    ((run (attempt activeSettings model) files [4]).map fun result =>
        (workerCoefficients result.1.coeffs 1, workerCoefficients result.1.coeffs 3)) =
        some (.ok ⟨0.6, 0.2, 0.1⟩, .ok ⟨0.8, 0.3, 0.3⟩) ∧
      ∃ middle last done log,
        run (attempt activeSettings model) files [4] = some (middle, done) ∧
        run (attempt activeSettings model) middle [8, 13] = some (last, log) ∧
        ∀ pathID, workerCoefficients middle.coeffs pathID ≠ workerCoefficients files.coeffs pathID →
          workerCoefficients last.coeffs pathID = workerCoefficients middle.coeffs pathID := by
  intro files model
  refine ⟨by decide +kernel, request_applied_once rfl rfl ?_ [4] [8, 13]⟩
  exact ⟨0.6, 0.3, 0.1, by norm_num, by norm_num, by norm_num, rfl, rfl, rfl⟩

end MpQuic.QAccess

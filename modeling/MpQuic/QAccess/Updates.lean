import MpQuic.QAccess.Loaders
import MpQuic.QAccess.Worker

namespace MpQuic.QAccess

open List

section Update

variable {doc : PyDocument} {e : CoeffEntry} {file : CoeffsFile}

theorem PyDocument.Normal.insert (hnormal : doc.Normal)
    (hvalid : e.valid = true) (key : String) (source metric : Option Value) :
    PyDocument.Normal { doc with paths := doc.paths.insert key e, source := source, metric := metric } := by
  refine ⟨hnormal.version, hnormal.default, fun entry hmem => ?_⟩
  by_cases hkey : entry.1 = key
  · have hlookup : (doc.paths.insert key e).lookup entry.1 = some entry.2 :=
      AList.mem_lookup_iff.mpr hmem
    rw [hkey, AList.lookup_insert] at hlookup
    cases hlookup
    exact hvalid
  · have hlookup : (doc.paths.insert key e).lookup entry.1 = some entry.2 :=
      AList.mem_lookup_iff.mpr hmem
    rw [AList.lookup_insert_ne hkey] at hlookup
    exact hnormal.paths entry (AList.mem_lookup_iff.mp hlookup)

theorem normal_of_loadCoeffsDoc (hload : loadCoeffsDoc file = .ok doc) : doc.Normal := by
  cases file with
  | missing =>
    cases hload
    exact normal_defaultDoc
  | garbled =>
    cases hload
    exact normal_defaultDoc
  | json raw => exact normal_of_normalizeCoeffsDoc hload

theorem updatePathCoeffsLocked_eq_ok (hload : loadCoeffsDoc file = .ok doc)
    (hvalid : e.valid = true) (pathID : Int) (metric : Option String) :
    ∃ updated : PyDocument,
      updatePathCoeffsLocked file pathID e metric = .ok (.json updated.json) ∧ updated.Normal ∧
      updated.paths = doc.paths.insert (Int.repr pathID) e ∧ updated.default = doc.default := by
  have hnormal := normal_of_loadCoeffsDoc hload
  have hupdated := hnormal.insert hvalid (Int.repr pathID) (some (.text "qaccess_update_worker.py"))
    ((metric.map Value.text).orElse fun _ => doc.metric)
  refine ⟨_, ?_, hupdated, rfl, rfl⟩
  unfold updatePathCoeffsLocked
  rw [if_pos hvalid, hload]
  dsimp only [bind, Except.bind]
  rw [hnormal.normalize]
  rfl

theorem PyDocument.Normal.load (hnormal : doc.Normal) : loadCoeffsDoc (.json doc.json) = .ok doc :=
  (loadCoeffsDoc_json _).trans hnormal.normalize

theorem workerCoefficients_of_load (hload : loadCoeffsDoc file = .ok doc) (pathID : Int) :
    workerCoefficients file pathID =
      match doc.paths.lookup (Int.repr pathID) with
      | some e => .ok e
      | none => (resolveDefault doc.default).map Prod.fst := by
  unfold workerCoefficients
  rw [hload]
  dsimp only [Except.bind]
  rw [resolvePathCoeffs_normal (normal_of_loadCoeffsDoc hload)]
  cases doc.paths.lookup (Int.repr pathID) <;> rfl

theorem workerCoefficients_update (hload : loadCoeffsDoc file = .ok doc) (hvalid : e.valid = true)
    (pathID : Int) (metric : Option String) :
    ∃ next updated, updatePathCoeffsLocked file pathID e metric = .ok next ∧
      loadCoeffsDoc next = .ok updated ∧
      updated.paths = doc.paths.insert (Int.repr pathID) e ∧
      ∀ other, workerCoefficients next other =
        if other = pathID then .ok e else workerCoefficients file other := by
  obtain ⟨updated, hnext, hnormal, hpaths, hdefault⟩ :=
    updatePathCoeffsLocked_eq_ok hload hvalid pathID metric
  refine ⟨_, updated, hnext, hnormal.load, hpaths, fun other => ?_⟩
  rw [workerCoefficients_of_load hnormal.load, workerCoefficients_of_load hload, hpaths, hdefault]
  by_cases hother : other = pathID
  · rw [if_pos hother, hother, AList.lookup_insert]
  · rw [if_neg hother, AList.lookup_insert_ne fun hrepr => hother (Int.repr_inj.mp hrepr)]

end Update

section Sequence

def Operation.writes (e : CoeffEntry) : Operation → Prop
  | .updateCoeffs _ written _ => written = e
  | _ => True

def Operation.updatedPath : Operation → Option Int
  | .updateCoeffs pathID _ _ => some pathID
  | _ => none

variable {files : Files} {operation : Operation} {doc : PyDocument} {e : CoeffEntry}
  {operations : List Operation}

theorem perform_coeffs
    (hother : operation.updatedPath = none) : (operation.perform files).coeffs = files.coeffs := by
  cases operation with
  | updateCoeffs pathID e metric => cases hother
  | archive file => rfl
  | saveState requestID => simp only [Operation.perform]
  | _ => rfl

theorem perform_updates (hload : loadCoeffsDoc files.coeffs = .ok doc) (hvalid : e.valid = true)
    (hwrites : operation.writes e) :
    (∃ updated, loadCoeffsDoc (operation.perform files).coeffs = .ok updated) ∧
      ∀ pathID, workerCoefficients (operation.perform files).coeffs pathID =
        if operation.updatedPath = some pathID then .ok e
        else workerCoefficients files.coeffs pathID := by
  cases hpath : operation.updatedPath with
  | none =>
    rw [perform_coeffs hpath]
    exact ⟨⟨doc, hload⟩, fun _ => rfl⟩
  | some pathID =>
    cases operation with
    | updateCoeffs target written metric =>
      obtain rfl : target = pathID := Option.some.inj hpath
      rw [show written = e from hwrites]
      obtain ⟨next, updated, hnext, hupdated, -, hcoeffs⟩ :=
        workerCoefficients_update hload hvalid target metric
      have hperform : (Operation.perform files (.updateCoeffs target e metric)).coeffs =
          next := by
        dsimp only [Operation.perform]
        rw [hnext]
      rw [hperform]
      refine ⟨⟨updated, hupdated⟩, fun other => ?_⟩
      rw [hcoeffs other]
      simp [eq_comm]
    | _ => cases hpath

theorem performAll_cons (files : Files) (operation : Operation) (rest : List Operation) :
    performAll files (operation :: rest) = performAll (operation.perform files) rest :=
  rfl

theorem performAll_coeffs (hother : ∀ operation ∈ operations, operation.updatedPath = none)
    (files : Files) : (performAll files operations).coeffs = files.coeffs := by
  induction operations generalizing files with
  | nil => rfl
  | cons operation rest ih =>
    rw [performAll_cons, ih fun other hmem => hother other (mem_cons_of_mem _ hmem),
      perform_coeffs (hother operation mem_cons_self)]

theorem performAll_updates (hload : loadCoeffsDoc files.coeffs = .ok doc) (hvalid : e.valid = true)
    (hwrites : ∀ operation ∈ operations, operation.writes e) (pathID : Int) :
    workerCoefficients (performAll files operations).coeffs pathID =
      if pathID ∈ operations.filterMap Operation.updatedPath then .ok e
      else workerCoefficients files.coeffs pathID := by
  induction operations generalizing files doc with
  | nil => rfl
  | cons operation rest ih =>
    obtain ⟨⟨updated, hupdated⟩, hcoeffs⟩ :=
      perform_updates hload hvalid (hwrites operation mem_cons_self)
    have hrest := ih hupdated fun other hother => hwrites other (mem_cons_of_mem _ hother)
    rw [performAll_cons, hrest, hcoeffs pathID]
    cases hpath : operation.updatedPath with
    | none => simp [hpath]
    | some target =>
      by_cases htarget : target = pathID
      · simp [hpath, htarget]
      · have hne : pathID ≠ target := fun h => htarget h.symm
        simp [hpath, htarget, hne]

end Sequence

section Aggregate

theorem performAll_append (files : Files) (first second : List Operation) :
    performAll files (first ++ second) = performAll (performAll files first) second :=
  foldl_append

theorem response_finishRequest (files : Files) (operations : List Operation) (response : Response) :
    (performAll files (operations ++ finishRequest response)).response = some response := by
  rw [performAll_append]
  rfl

theorem updatedPath_backups (coeffs : CoeffsFile) :
    ∀ operation ∈ backups coeffs, operation.updatedPath = none := by
  cases coeffs <;> simp [backups, Operation.updatedPath]

theorem updatedPath_finishRequest (response : Response) :
    ∀ operation ∈ finishRequest response, operation.updatedPath = none := by
  simp [finishRequest, Operation.updatedPath]

theorem updatedPath_aggregateAudits :
    ∀ operation ∈ aggregateAudits, operation.updatedPath = none := by
  simp [aggregateAudits, Operation.updatedPath]

theorem filterMap_updatedPath_updateOperations (coeffs : CoeffsFile)
    (updates : List (Int × CoeffEntry)) (metric : Option String) :
    (updateOperations coeffs updates metric).filterMap Operation.updatedPath =
      updates.map Prod.fst := by
  unfold updateOperations
  rw [filterMap_append, filterMap_map]
  have hupdates : updates.filterMap (Operation.updatedPath ∘ fun update =>
      .updateCoeffs update.1 update.2 metric) = updates.map Prod.fst := by
    rw [← filterMap_eq_map]
    rfl
  rw [hupdates]
  split
  · rfl
  · rw [filterMap_eq_nil_iff.mpr (updatedPath_backups coeffs)]
    rfl

theorem Operation.writes_of_updatedPath {operation : Operation}
    (hnone : operation.updatedPath = none) (e : CoeffEntry) : operation.writes e := by
  cases operation with
  | updateCoeffs pathID written metric => cases hnone
  | _ => trivial

theorem writes_updateOperations (coeffs : CoeffsFile) (ids : List Int) (e : CoeffEntry)
    (metric : Option String) :
    ∀ operation ∈ updateOperations coeffs (ids.map (·, e)) metric, operation.writes e := by
  intro operation hmem
  rcases mem_append.mp hmem with hbackup | hupdate
  · split at hbackup
    · cases hbackup
    · exact Operation.writes_of_updatedPath (updatedPath_backups coeffs operation hbackup) e
  · simp only [map_map, mem_map] at hupdate
    obtain ⟨id, -, rfl⟩ := hupdate
    rfl

section Around

variable {before after : List Operation} (hbefore : ∀ operation ∈ before, operation.updatedPath = none)
  (hafter : ∀ operation ∈ after, operation.updatedPath = none)

include hbefore hafter

theorem filterMap_updatedPath_around (coeffs : CoeffsFile) (ids : List Int) (e : CoeffEntry)
    (metric : Option String) :
    (before ++ updateOperations coeffs (ids.map (·, e)) metric ++ after).filterMap
      Operation.updatedPath = ids := by
  rw [filterMap_append, filterMap_append, filterMap_eq_nil_iff.mpr hbefore,
    filterMap_eq_nil_iff.mpr hafter, filterMap_updatedPath_updateOperations, nil_append,
    append_nil, map_map]
  exact map_id ids

theorem writes_around (coeffs : CoeffsFile) (ids : List Int) (e : CoeffEntry)
    (metric : Option String) :
    ∀ operation ∈ before ++ updateOperations coeffs (ids.map (·, e)) metric ++ after,
      operation.writes e := by
  intro operation hmem
  rcases mem_append.mp hmem with hmem | hmem
  · rcases mem_append.mp hmem with hmem | hmem
    · exact Operation.writes_of_updatedPath (hbefore operation hmem) e
    · exact writes_updateOperations coeffs ids e metric operation hmem
  · exact Operation.writes_of_updatedPath (hafter operation hmem) e

theorem performAll_around {files : Files} {doc : PyDocument} {e : CoeffEntry} {ids : List Int}
    {metric : Option String} (hload : loadCoeffsDoc files.coeffs = .ok doc) (hvalid : e.valid = true)
    (coeffs : CoeffsFile) (pathID : Int) :
    workerCoefficients (performAll files
        (before ++ updateOperations coeffs (ids.map (·, e)) metric ++ after)).coeffs pathID =
      if pathID ∈ ids then .ok e else workerCoefficients files.coeffs pathID := by
  rw [performAll_updates hload hvalid (writes_around hbefore hafter coeffs ids e metric),
    filterMap_updatedPath_around hbefore hafter]

end Around

variable {settings : Settings} {model : Predictor}

theorem processMultipathRequest_cases {req : Request}
    {pathID : Int} {samples : Frame} {coeffs : CoeffsFile} {operations : List Operation}
    (hprocess : processMultipathRequest settings model req pathID samples coeffs = .ok operations) :
    ∃ diagnostics doc cur,
      samples.classifyMediaPaths (minRowsOf req) settings.minSenderByteDelta = .ok diagnostics ∧
      loadCurrent req pathID coeffs = .ok (doc, cur) ∧
      ((∃ audits, (∀ operation ∈ audits, ∃ file, operation = .archive file) ∧
          operations = skipAggregate settings req audits) ∨
        (diagnostics.filter PathDiagnostics.eligible ≠ [] ∧
          0 < totalDelta (diagnostics.filter PathDiagnostics.eligible) ∧
          ∃ rows, compareRows settings model (diagnostics.filter PathDiagnostics.eligible) cur =
              .ok rows ∧
            (aggregateUpdates settings req samples.columns doc
              (diagnostics.filter PathDiagnostics.eligible) cur rows ≠ [] → keysConvert doc = true) ∧
            applyAggregate settings req coeffs (aggregateUpdates settings req samples.columns doc
              (diagnostics.filter PathDiagnostics.eligible) cur rows) = .ok operations)) := by
  unfold processMultipathRequest at hprocess
  cases hdiagnostics : samples.classifyMediaPaths (minRowsOf req) settings.minSenderByteDelta with
  | error err =>
    rw [hdiagnostics] at hprocess
    cases hprocess
  | ok diagnostics =>
    cases hcurrent : loadCurrent req pathID coeffs with
    | error err =>
      rw [hdiagnostics, hcurrent] at hprocess
      cases hprocess
    | ok current =>
      obtain ⟨doc, cur⟩ := current
      rw [hdiagnostics, hcurrent] at hprocess
      dsimp only [bind, Except.bind] at hprocess
      refine ⟨diagnostics, doc, cur, rfl, rfl, ?_⟩
      unfold scoreAggregate at hprocess
      split_ifs at hprocess with hnone hempty hdelta
      · cases hprocess
        exact .inl ⟨_, by simp, rfl⟩
      · cases hprocess
        exact .inl ⟨_, by simp, rfl⟩
      · cases hrows : compareRows settings model
            (diagnostics.filter PathDiagnostics.eligible) cur with
        | error err =>
          rw [hrows] at hprocess
          cases hprocess
        | ok rows =>
          rw [hrows] at hprocess
          dsimp only at hprocess
          split_ifs at hprocess with hkeys
          refine .inr ⟨hnone, not_le.mp hdelta, rows, rfl, fun hupdates => ?_, hprocess⟩
          simpa [hupdates] using hkeys

theorem compareRows_cases {scored : List PathDiagnostics}
    {cur : CoeffEntry} {rows : AggregateRow × AggregateRow}
    (hrows : compareRows settings model scored cur = .ok rows) :
    ∃ first rest, aggregateRows settings model scored cur = first :: rest ∧
      (first :: rest).find? AggregateRow.current = some rows.1 ∧ rows.2 = bestRow first rest := by
  unfold compareRows at hrows
  cases hall : aggregateRows settings model scored cur with
  | nil =>
    rw [hall] at hrows
    cases hrows
  | cons first rest =>
    rw [hall] at hrows
    dsimp only at hrows
    cases hfound : (first :: rest).find? AggregateRow.current with
    | none =>
      rw [hfound] at hrows
      cases hrows
    | some currentRow =>
      rw [hfound] at hrows
      cases hrows
      exact ⟨first, rest, rfl, hfound, rfl⟩

end Aggregate

end MpQuic.QAccess

import MpQuic.Library.Run
import MpQuic.QAccess.Controller
import MpQuic.QAccess.Steps

namespace MpQuic.QAccess

open MpQuic.Library List

-- The controller and the worker share the coefficient file. The worker still has to do the
-- operations that are pending.
structure SharedState where
  uc : UtilityController
  files : Files
  modTime : Int
  pending : List Operation

-- The worker does its next operation, which sets the modification time if it replaces the
-- coefficient file; or the controller looks at the file.
inductive SharedEvent where
  | work (modTime : Int)
  | reload (now : Int)
  deriving DecidableEq

def sharedStep (s : SharedState) : SharedEvent → Option (SharedState × List CoeffsDocument)
  | .work modTime =>
    match s.pending with
    | [] => some (s, [])
    | operation :: rest =>
      some ({ s with
        files := operation.perform s.files
        modTime := if operation.updatedPath.isSome then modTime else s.modTime
        pending := rest }, [])
  | .reload now =>
    let result := s.uc.maybeReloadCoefficients now ⟨s.files.coeffs, s.modTime⟩
    some ({ s with uc := result.1 }, result.2.toList)

def updatedPaths (operations : List Operation) : List Int :=
  operations.filterMap Operation.updatedPath

-- A call reads the file if the interval since the last one is over and the file is newer.
def UtilityController.readsFile (uc : UtilityController) (now modTime : Int) : Bool :=
  uc.coeffReload && uc.runtimeMode &&
    !(uc.lastCoeffCheck.any fun last => now - last < uc.coeffReloadInterval) &&
    !(uc.lastCoeffMtime.any fun last => modTime ≤ last)

-- The controller does not read the file between the first and the last update.
def Undivided (operations : List Operation) (s : SharedState) : SharedEvent → Prop
  | .reload now => s.uc.readsFile now s.modTime = true →
      updatedPaths s.pending = updatedPaths operations ∨ updatedPaths s.pending = []
  | .work _ => True

instance (operations : List Operation) (s : SharedState) :
    (event : SharedEvent) → Decidable (Undivided operations s event)
  | .reload _ => inferInstanceAs (Decidable (_ → _ = _ ∨ _ = []))
  | .work _ => isTrue trivial

def HasAll (ids : List Int) (e : CoeffEntry) (doc : CoeffsDocument) : Prop :=
  ∀ pathID : Nat, (pathID : Int) ∈ ids → (resolveCoefficientsForPath doc pathID).entry = e

def UsesAll (ids : List Int) (e : CoeffEntry) (uc : UtilityController) : Prop :=
  ∀ pathID : Nat, pathID < 256 → (pathID : Int) ∈ ids → (uc.getCoefficientsForPath pathID).entry = e

section File

def Applied (before : CoeffsFile) (e : CoeffEntry) (done : List Int) (file : CoeffsFile) : Prop :=
  (done = [] ∧ file = before) ∨
    (done ≠ [] ∧ ∃ doc : PyDocument, file = .json doc.json ∧ doc.Normal ∧
      ∀ pathID ∈ done, doc.paths.lookup (Int.repr pathID) = some e)

variable {before : CoeffsFile} {e : CoeffEntry} {done : List Int}

variable {loaded doc : PyDocument} {pathID : Nat}

theorem Applied.load {file : CoeffsFile} (h : Applied before e done file)
    (hload : loadCoeffsDoc before = .ok loaded) :
    ∃ doc : PyDocument, loadCoeffsDoc file = .ok doc ∧
      ∀ pathID ∈ done, doc.paths.lookup (Int.repr pathID) = some e := by
  rcases h with ⟨rfl, rfl⟩ | ⟨-, doc, rfl, hnormal, hdone⟩
  · exact ⟨loaded, hload, nofun⟩
  · exact ⟨doc, hnormal.load, hdone⟩

theorem Applied.perform {files : Files} {operation : Operation}
    (h : Applied before e done files.coeffs) (hload : loadCoeffsDoc before = .ok loaded)
    (hvalid : operation.updatedPath ≠ none → e.valid = true) (hwrites : operation.writes e) :
    Applied before e (done ++ operation.updatedPath.toList) (operation.perform files).coeffs := by
  cases hpath : operation.updatedPath with
  | none =>
    rw [perform_coeffs hpath]
    simpa using h
  | some target =>
    obtain ⟨doc, hdoc, hdone⟩ := h.load hload
    cases operation with
    | updateCoeffs pathID written metric =>
      obtain rfl : pathID = target := Option.some.inj hpath
      obtain rfl : written = e := hwrites
      obtain ⟨updated, hupdate, hnormal, hpaths, -⟩ :=
        updatePathCoeffsLocked_eq_ok hdoc (hvalid nofun) pathID metric
      refine .inr ⟨append_ne_nil_of_right_ne_nil _ nofun, updated, ?_, hnormal,
        fun other hother => ?_⟩
      · dsimp only [Operation.perform]
        rw [hupdate]
      · rw [hpaths]
        by_cases hsame : other = pathID
        · rw [hsame, AList.lookup_insert]
        · rw [AList.lookup_insert_ne fun hrepr => hsame (Int.repr_inj.mp hrepr)]
          refine hdone other ?_
          simpa [hsame] using hother
    | _ => cases hpath

theorem decodeInt_of_normal (hnormal : doc.Normal) :
    decodeInt qaccessCoeffsVersion doc.json.version = qaccessCoeffsVersion := by
  have hversion := hnormal.version
  change decodeInt qaccessCoeffsVersion doc.version = qaccessCoeffsVersion
  cases hvalue : doc.version with
  | none => rfl
  | some v =>
    rw [hvalue] at hversion
    cases v with
    | integer n =>
      obtain rfl : n = 1 := by simpa [isVersionOne] using hversion
      rfl
    | _ => rfl

theorem lookup_unmarshal_paths (hlookup : doc.paths.lookup (Int.repr pathID) = some e) :
    (unmarshal defaultQAccessCoeffsDocument doc.json).paths.lookup (formatPathID pathID) =
      some e := by
  change (decodePaths doc.json.paths).lookup (formatPathID pathID) = some e
  rw [lookup_decodePaths]
  change (((filterMapValues (fun e => some (EntryMember.entry e.raw)) doc.paths).lookup
    (formatPathID pathID)).map fun member => decodeEntry ⟨0, 0, 0⟩ (some member)) = some e
  rw [lookup_filterMapValues]
  change ((doc.paths.lookup (Int.repr pathID)).bind _).map _ = some e
  rw [hlookup]
  rfl

theorem entry_of_load {loaded : CoeffsDocument} (hnormal : doc.Normal) (hvalid : e.valid = true)
    (hlookup : doc.paths.lookup (Int.repr pathID) = some e)
    (hload : loadQAccessCoeffsDocument (.json doc.json) = (loaded, none)) :
    (resolveCoefficientsForPath loaded pathID).entry = e ∧
      (pathID < 256 → pathID ∈ loaded.pathIDs) := by
  have hversion : (unmarshal defaultQAccessCoeffsDocument doc.json).version = qaccessCoeffsVersion :=
    decodeInt_of_normal hnormal
  have hfound := lookup_unmarshal_paths hlookup
  have hloaded : loaded = normalizeCoeffsDocument (unmarshal defaultQAccessCoeffsDocument doc.json) := by
    unfold loadQAccessCoeffsDocument at hload
    dsimp only at hload
    split at hload
    · exact (Prod.mk.inj hload).1.symm
    · cases hload
  refine ⟨?_, fun hbyte => ?_⟩
  · rw [hloaded, resolve_normalize, resolve_versionOne hversion, hfound]
    dsimp only [Option.filter]
    rw [hvalid]
    rfl
  · have hclean : loaded.paths.lookup (formatPathID pathID) = some e := by
      rw [hloaded, show normalizeCoeffsDocument _ = _ from if_pos hversion]
      dsimp only
      rw [lookup_cleanPaths, hfound]
      dsimp only [Option.filter]
      rw [hvalid]
      rfl
    refine mem_filterMap.mpr ⟨formatPathID pathID, ?_, parseUint8_formatPathID hbyte⟩
    rw [← AList.mem_keys, ← AList.lookup_isSome, hclean]
    rfl

end File

namespace UtilityController

theorem coeffSmoothing_applyDocument (uc : UtilityController) (doc : CoeffsDocument) :
    (uc.applyDocument doc).coeffSmoothing = uc.coeffSmoothing := by
  unfold applyDocument
  dsimp only
  split
  · rfl
  · split
    · rfl
    · rfl

theorem entry_applyDocument {uc : UtilityController} {doc : CoeffsDocument} {pathID : Nat}
    (hsmoothing : uc.coeffSmoothing = 1) (hmem : pathID ∈ doc.pathIDs) :
    ((uc.applyDocument doc).getCoefficientsForPath pathID).entry =
      (resolveCoefficientsForPath doc pathID).entry := by
  rw [applyDocument_of_ne_nil (ne_nil_of_mem hmem), hsmoothing, clampUnit_one]
  unfold getCoefficientsForPath
  dsimp only [Option.bind, newPerPath]
  rw [lookup_perPathOf, if_pos hmem]
  dsimp only [applyPath]
  rw [entry_smooth_one, entry_resolveWithMetric]

theorem maybeReloadCoefficients_cases (uc : UtilityController) (now : Int) (disk : CoeffsDisk) :
    ((uc.maybeReloadCoefficients now disk).2 = none ∧
        (uc.maybeReloadCoefficients now disk).1.coeffSmoothing = uc.coeffSmoothing ∧
        (uc.maybeReloadCoefficients now disk).1.getCoefficientsForPath =
          uc.getCoefficientsForPath) ∨
      ∃ doc, uc.readsFile now disk.modTime = true ∧
        (uc.maybeReloadCoefficients now disk).2 = some doc ∧
        loadQAccessCoeffsDocument disk.file = (doc, none) ∧
        ∃ checked : UtilityController, checked.coeffSmoothing = uc.coeffSmoothing ∧
          (uc.maybeReloadCoefficients now disk).1 = checked.applyDocument doc := by
  unfold maybeReloadCoefficients
  dsimp only
  split_ifs with hmode hinterval hmissing hold
  · exact .inl ⟨rfl, rfl, rfl⟩
  · exact .inl ⟨rfl, rfl, rfl⟩
  · exact .inl ⟨rfl, rfl, rfl⟩
  · exact .inl ⟨rfl, rfl, rfl⟩
  · split
    · exact .inl ⟨rfl, rfl, rfl⟩
    · rename_i doc hload
      have hreads : uc.readsFile now disk.modTime = true := by
        unfold readsFile
        rw [Bool.eq_false_of_not_eq_true hinterval, Bool.eq_false_of_not_eq_true hold]
        simpa using hmode
      exact .inr ⟨doc, hreads, rfl, hload,
        { uc with lastCoeffCheck := some now, lastCoeffMtime := some disk.modTime }, rfl, rfl⟩

end UtilityController

section Worker

variable {settings : Settings} {model : Predictor} {req : Request} {pathID : Int} {samples : Frame}
  {coeffs : CoeffsFile} {operations : List Operation}

theorem updatedPath_skipAggregate {audits : List Operation}
    (haudits : ∀ operation ∈ audits, ∃ file, operation = .archive file) :
    ∀ operation ∈ skipAggregate settings req audits, operation.updatedPath = none := by
  intro operation hmem
  rcases mem_cons.mp hmem with rfl | hmem
  · rfl
  · rcases mem_append.mp hmem with hmem | hmem
    · obtain ⟨file, rfl⟩ := haudits operation hmem
      rfl
    · exact updatedPath_finishRequest _ operation hmem

theorem applyAggregate_writes {ids : List Int} {e : CoeffEntry}
    (happly : applyAggregate settings req coeffs (ids.map (·, e)) = .ok operations) :
    (ids ≠ [] → e.valid = true) ∧ (∀ operation ∈ operations, operation.writes e) ∧
      updatedPaths operations = ids ∧
      ∀ files, (performAll files operations).response =
        some ⟨req.requestID, aggregateStatus settings (ids.map (·, e) ≠ []), ids⟩ := by
  have hids : (ids.map (·, e)).map Prod.fst = ids := by
    rw [map_map]
    exact map_id ids
  unfold applyAggregate at happly
  split at happly
  · rename_i hall
    cases happly
    have hafter : ∀ operation ∈ aggregateAudits ++ finishRequest ⟨req.requestID,
        aggregateStatus settings (ids.map (·, e) ≠ []), ids⟩, operation.updatedPath = none := by
      intro operation hmem
      rcases mem_append.mp hmem with hmem | hmem
      · exact updatedPath_aggregateAudits operation hmem
      · exact updatedPath_finishRequest _ operation hmem
    have hfirst : ∀ operation ∈ [Operation.archive "samples_all_paths"], operation.updatedPath = none :=
      by simp [Operation.updatedPath]
    refine ⟨fun hne => ?_, ?_, ?_, fun files => ?_⟩
    · obtain ⟨id, hid⟩ := exists_mem_of_ne_nil ids hne
      exact all_eq_true.mp hall (id, e) (mem_map_of_mem hid)
    · rw [← singleton_append, append_assoc, hids]
      exact writes_around hfirst hafter coeffs ids e none
    · rw [← singleton_append, append_assoc, hids]
      exact filterMap_updatedPath_around hfirst hafter coeffs ids e none
    · rw [response_finishRequest, hids]
  · cases happly

def aggregateStep (settings : Settings) (model : Predictor) (req : Request) (samples : Frame)
    (cur : CoeffEntry) : CoeffEntry :=
  match samples.classifyMediaPaths (minRowsOf req) settings.minSenderByteDelta with
  | .error _ => cur
  | .ok diagnostics =>
    match compareRows settings model (diagnostics.filter PathDiagnostics.eligible) cur with
    | .error _ => cur
    | .ok rows => stepTo cur rows.2.triple

theorem processMultipathRequest_writes
    (hprocess : processMultipathRequest settings model req pathID samples coeffs = .ok operations) :
    ∃ doc cur status, loadCurrent req pathID coeffs = .ok (doc, cur) ∧
      (updatedPaths operations ≠ [] →
        (aggregateStep settings model req samples cur).valid = true) ∧
      (∀ operation ∈ operations, operation.writes (aggregateStep settings model req samples cur)) ∧
      ∀ files, (performAll files operations).response =
        some ⟨req.requestID, status, updatedPaths operations⟩ := by
  obtain ⟨diagnostics, doc, cur, hdiagnostics, hcurrent, hcases⟩ :=
    processMultipathRequest_cases hprocess
  rcases hcases with ⟨audits, haudits, rfl⟩ | ⟨-, -, rows, hrows, -, happly⟩
  · have hnone : ∀ operation ∈ skipAggregate settings req audits, operation.updatedPath = none :=
      updatedPath_skipAggregate haudits
    have hids : updatedPaths (skipAggregate settings req audits) = [] :=
      filterMap_eq_nil_iff.mpr hnone
    refine ⟨doc, cur, skipStatus settings, hcurrent, fun hne => absurd hids hne,
      fun operation hmem => Operation.writes_of_updatedPath (hnone operation hmem) _,
      fun files => ?_⟩
    rw [hids, response_skipAggregate]
  · have hstep : aggregateStep settings model req samples cur = stepTo cur rows.2.triple := by
      unfold aggregateStep
      rw [hdiagnostics]
      dsimp only
      rw [hrows]
    obtain ⟨ids, hupdates⟩ : ∃ ids : List Int, aggregateUpdates settings req samples.columns doc
        (diagnostics.filter PathDiagnostics.eligible) cur rows =
          ids.map (·, stepTo cur rows.2.triple) := by
      unfold aggregateUpdates
      dsimp only
      split
      · exact ⟨_, rfl⟩
      · exact ⟨[], rfl⟩
    rw [hupdates] at happly
    obtain ⟨hvalid, hwrites, hids, hresponse⟩ := applyAggregate_writes happly
    refine ⟨doc, cur, aggregateStatus settings
      (ids.map (·, stepTo cur rows.2.triple) ≠ []), hcurrent, ?_⟩
    rw [hstep, hids]
    exact ⟨hvalid, hwrites, hresponse⟩

end Worker

section Interleaving

variable {operations : List Operation} {files : Files} {e : CoeffEntry}

structure Progress (files : Files) (operations : List Operation) (e : CoeffEntry)
    (log : List CoeffsDocument) (s : SharedState) : Prop where
  smoothing : s.uc.coeffSmoothing = 1
  applied : ∃ done, operations = done ++ s.pending ∧
    Applied files.coeffs e (updatedPaths done) s.files.coeffs
  loaded : ∀ doc ∈ log,
    doc = (loadQAccessCoeffsDocument files.coeffs).1 ∨ HasAll (updatedPaths operations) e doc
  uses : (∀ doc ∈ log, doc = (loadQAccessCoeffsDocument files.coeffs).1) ∨
    (updatedPaths s.pending = [] ∧ UsesAll (updatedPaths operations) e s.uc)

namespace Progress

variable {log : List CoeffsDocument} {s : SharedState}

theorem work {loaded : PyDocument} (h : Progress files operations e log s)
    (hload : loadCoeffsDoc files.coeffs = .ok loaded)
    (hvalid : updatedPaths operations ≠ [] → e.valid = true)
    (hwrites : ∀ operation ∈ operations, operation.writes e) (modTime : Int) :
    ∃ next, sharedStep s (.work modTime) = some (next, []) ∧ Progress files operations e log next := by
  obtain ⟨done, hsplit, happlied⟩ := h.applied
  unfold sharedStep
  dsimp only
  cases hpending : s.pending with
  | nil => exact ⟨s, rfl, h⟩
  | cons operation rest =>
    refine ⟨_, rfl, h.smoothing, ⟨done ++ [operation], ?_, ?_⟩, h.loaded, ?_⟩
    · rw [hsplit, hpending, append_assoc]
      rfl
    · have hmem : operation ∈ operations := by
        rw [hsplit, hpending]
        exact mem_append_right _ mem_cons_self
      have hupdates : operation.updatedPath ≠ none → updatedPaths operations ≠ [] :=
        fun hsome hnil => hsome (filterMap_eq_nil_iff.mp hnil operation hmem)
      have happly := happlied.perform hload (fun hsome => hvalid (hupdates hsome))
        (hwrites operation hmem)
      have hdone : updatedPaths (done ++ [operation]) =
          updatedPaths done ++ operation.updatedPath.toList := by
        rw [updatedPaths, filterMap_append]
        cases hpath : operation.updatedPath <;> simp [hpath, updatedPaths]
      rw [hdone]
      exact happly
    · refine h.uses.imp_right fun ⟨hnil, huses⟩ => ⟨?_, huses⟩
      rw [hpending] at hnil
      exact filterMap_eq_nil_iff.mpr fun other hother =>
        filterMap_eq_nil_iff.mp hnil other (mem_cons_of_mem _ hother)

variable {now : Int}

section

variable (h : Progress files operations e log s)
  (hvalid : updatedPaths operations ≠ [] → e.valid = true)
  (hundivided : Undivided operations s (.reload now))

include h hvalid hundivided

theorem read {doc : CoeffsDocument} (hreads : s.uc.readsFile now s.modTime = true)
    (hread : loadQAccessCoeffsDocument s.files.coeffs = (doc, none)) :
    (updatedPaths s.pending = updatedPaths operations ∧
        doc = (loadQAccessCoeffsDocument files.coeffs).1) ∨
      (updatedPaths s.pending = [] ∧ ∀ pathID : Nat, (pathID : Int) ∈ updatedPaths operations →
        (resolveCoefficientsForPath doc pathID).entry = e ∧
          (pathID < 256 → pathID ∈ doc.pathIDs)) := by
  obtain ⟨done, hsplit, happlied⟩ := h.applied
  have hpaths : updatedPaths operations = updatedPaths done ++ updatedPaths s.pending := by
    rw [hsplit, updatedPaths, filterMap_append]
    rfl
  rcases happlied with ⟨hdone, hfile⟩ | ⟨hdone, py, hfile, hnormal, hentries⟩
  · refine .inl ⟨?_, ?_⟩
    · rw [hpaths, hdone, nil_append]
    · rw [← hfile, hread]
  · have hpending : updatedPaths s.pending = [] := by
      rcases hundivided hreads with hall | hnone
      · exact absurd (self_eq_append_left.mp (hall.trans hpaths)) hdone
      · exact hnone
    rw [hpending, append_nil] at hpaths
    rw [hfile] at hread
    refine .inr ⟨hpending, fun pathID hmem => ?_⟩
    rw [hpaths] at hmem
    exact entry_of_load hnormal (hvalid (ne_nil_of_mem (hpaths ▸ hmem)))
      (hentries pathID hmem) hread

theorem reload :
    ∃ next docs, sharedStep s (.reload now) = some (next, docs) ∧
      Progress files operations e (log ++ docs) next := by
  refine ⟨_, _, rfl, ?_⟩
  rcases s.uc.maybeReloadCoefficients_cases now ⟨s.files.coeffs, s.modTime⟩ with
    ⟨hnone, hsmoothing, hsame⟩ | ⟨doc, hreads, hsome, hread, checked, hchecked, huc⟩
  · rw [hnone]
    refine ⟨hsmoothing.trans h.smoothing, h.applied, ?_, ?_⟩
    · rw [Option.toList_none, append_nil]
      exact h.loaded
    · rw [Option.toList_none, append_nil]
      refine h.uses.imp_right fun ⟨hnil, huses⟩ => ⟨hnil, fun pathID hbyte hmem => ?_⟩
      dsimp only
      rw [hsame]
      exact huses pathID hbyte hmem
  · have hone : checked.coeffSmoothing = 1 := hchecked.trans h.smoothing
    have hmem : ∀ other ∈ log ++ [doc], other ∈ log ∨ other = doc := fun other hother =>
      (mem_append.mp hother).imp_right mem_singleton.mp
    rw [hsome, Option.toList_some]
    rcases h.read hvalid hundivided hreads hread with ⟨hall, hbefore⟩ | ⟨hnil, hnew⟩
    · refine ⟨?_, h.applied, fun other hother => ?_, ?_⟩
      · dsimp only
        rw [huc, UtilityController.coeffSmoothing_applyDocument, hone]
      · rcases hmem other hother with hlog | rfl
        · exact h.loaded other hlog
        · exact .inl hbefore
      · rcases h.uses with hlog | ⟨hnil, -⟩
        · refine .inl fun other hother => ?_
          rcases hmem other hother with hother | rfl
          · exact hlog other hother
          · exact hbefore
        · -- nothing is updated at all
          refine .inr ⟨hnil, fun pathID _ hupdated => ?_⟩
          rw [← hall, hnil] at hupdated
          cases hupdated
    · refine ⟨?_, h.applied, fun other hother => ?_, .inr ⟨hnil, fun pathID hbyte hupdated => ?_⟩⟩
      · dsimp only
        rw [huc, UtilityController.coeffSmoothing_applyDocument, hone]
      · rcases hmem other hother with hlog | rfl
        · exact h.loaded other hlog
        · exact .inr fun pathID hupdated => (hnew pathID hupdated).1
      · obtain ⟨hentry, hkey⟩ := hnew pathID hupdated
        dsimp only
        rw [huc, UtilityController.entry_applyDocument hone (hkey hbyte), hentry]

end

end Progress

-- If the controller does not read the file between the first and the last update of a
-- request, it loads the document from before the updates or one with the new coefficients of
-- all updated paths, and it never uses the new ones for some of them only.
theorem updates_seen_whole {settings : Settings} {model : Predictor} {req : Request} {pathID : Int}
    {samples : Frame} {uc : UtilityController} {modTime : Int} {events : List SharedEvent}
    (hprocess : processMultipathRequest settings model req pathID samples files.coeffs =
      .ok operations)
    (hsmoothing : uc.coeffSmoothing = 1)
    (hundivided : Along sharedStep (Undivided operations) ⟨uc, files, modTime, operations⟩ events) :
    ∃ e status last log,
      (∀ operation ∈ operations, operation.writes e) ∧
      (performAll files operations).response =
        some ⟨req.requestID, status, updatedPaths operations⟩ ∧
      run sharedStep ⟨uc, files, modTime, operations⟩ events = some (last, log) ∧
      (∀ doc ∈ log, doc = (loadQAccessCoeffsDocument files.coeffs).1 ∨
        HasAll (updatedPaths operations) e doc) ∧
      ((∀ doc ∈ log, doc = (loadQAccessCoeffsDocument files.coeffs).1) ∨
        UsesAll (updatedPaths operations) e last.uc) := by
  obtain ⟨loaded, cur, status, hcurrent, hvalid, hwrites, hresponse⟩ :=
    processMultipathRequest_writes hprocess
  have hload := (loadCurrent_eq_ok_iff.mp hcurrent).1
  generalize aggregateStep settings model req samples cur = e at hvalid hwrites
  have hstart : Progress files operations e [] ⟨uc, files, modTime, operations⟩ :=
    ⟨hsmoothing, ⟨[], rfl, .inl ⟨rfl, rfl⟩⟩, nofun, .inl nofun⟩
  obtain ⟨last, log, hrun, hprogress⟩ := run_progress
    (fun _ log s => Progress files operations e log s)
    (fun _ log s event hinv hcond => by
      cases event with
      | work modTime =>
        obtain ⟨next, hstep, hnext⟩ := hinv.work hload hvalid hwrites modTime
        exact ⟨next, [], hstep, by simpa using hnext⟩
      | reload now => exact hinv.reload hvalid hcond)
    [] [] _ events hstart hundivided
  exact ⟨e, status, last, log, hwrites, hresponse files, hrun, hprogress.loaded,
    hprogress.uses.imp_right And.right⟩

end Interleaving

-- The worker replaces the file for the path 1, the controller looks at it, and only then
-- the path 3 gets the coefficients.
theorem update_seen_in_part :
    processMultipathRequest activeSettings (favouring .deltaBw1s ⟨0.6, 0.2, 0.1⟩ 1000000) pathRequest
        1 pathSamples (filesWith unequalDocument).coeffs = .ok jumpOperations ∧
      updatedPaths jumpOperations = [1, 3] ∧
      (resolveCoefficientsForPath
        (loadQAccessCoeffsDocument (filesWith unequalDocument).coeffs).1 1).entry = ⟨0.6, 0.3, 0.1⟩ ∧
      ∃ last log,
        run sharedStep ⟨startController, filesWith unequalDocument, 1, jumpOperations⟩
          [.work 2, .work 2, .work 2, .work 2, .reload 2] = some (last, log) ∧
        log.map (fun doc => (resolveCoefficientsForPath doc 1).entry) = [⟨0.6, 0.2, 0.1⟩] ∧
        log.map (fun doc => (resolveCoefficientsForPath doc 3).entry) = [⟨0.8, 0.3, 0.3⟩] ∧
        (last.uc.getCoefficientsForPath 1).entry = ⟨0.6, 0.2, 0.1⟩ ∧
        (last.uc.getCoefficientsForPath 3).entry = ⟨0.8, 0.3, 0.3⟩ := by
  refine ⟨processMultipathRequest_jump, ?_, ?_, _, _, rfl, ?_, ?_, ?_, ?_⟩ <;> decide +kernel

theorem updates_seen_whole_example :
    let start : SharedState := ⟨startController, filesWith unequalDocument, 1, jumpOperations⟩
    let events : List SharedEvent :=
      [.reload 2, .work 3, .work 3, .work 3, .work 3, .work 3, .reload 4, .work 5]
    Along sharedStep (Undivided jumpOperations) start events ∧
      ∃ e status last log,
        (∀ operation ∈ jumpOperations, operation.writes e) ∧
        (performAll (filesWith unequalDocument) jumpOperations).response =
          some ⟨pathRequest.requestID, status, updatedPaths jumpOperations⟩ ∧
        run sharedStep start events = some (last, log) ∧
        (∀ doc ∈ log, doc = (loadQAccessCoeffsDocument (filesWith unequalDocument).coeffs).1 ∨
          HasAll (updatedPaths jumpOperations) e doc) ∧
        ((∀ doc ∈ log, doc = (loadQAccessCoeffsDocument (filesWith unequalDocument).coeffs).1) ∨
          UsesAll (updatedPaths jumpOperations) e last.uc) := by
  intro start events
  have hundivided : Along sharedStep (Undivided jumpOperations) start events := by
    decide +kernel
  exact ⟨hundivided, updates_seen_whole processMultipathRequest_jump rfl hundivided⟩

end MpQuic.QAccess

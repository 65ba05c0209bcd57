import MpQuic.QAccess.Loaders

namespace MpQuic.QAccess

open MpQuic.Library List

structure CoeffsDisk where
  file : CoeffsFile
  modTime : Int
  deriving DecidableEq

structure ResponseFields where
  requestID : String
  status : String
  deriving DecidableEq

-- The part of the controller that deals with coefficients. A time that was never set is `none`;
-- `phase2Owner` is what the configuration says about the endpoint.
structure UtilityController where
  coeffReload : Bool
  runtimeMode : Bool
  phase2Owner : Bool
  coeffReloadInterval : Int
  coeffSmoothing : ℚ
  lastCoeffCheck : Option Int
  lastCoeffMtime : Option Int
  perPathCoeffs : Option (AList fun _ : Nat => QAccessCoefficients)
  coeffsDoc : CoeffsDocument
  coeffs : QAccessCoefficients
  updateInProgress : Bool
  inflightRequestID : String

-- `strconv.ParseUint(key, 10, 8)`
def parseUint8 (key : String) : Option Nat :=
  if key.toList ≠ [] ∧ key.toList.all Char.isDigit ∧ digitsValue key ≤ 255 then
    some (digitsValue key)
  else none

def clampUnit (s : ℚ) : ℚ :=
  if s < 0 then 0 else if s > 1 then 1 else s

def smooth (s : ℚ) (prev loaded : QAccessCoefficients) : QAccessCoefficients where
  alpha := prev.alpha * (1 - s) + loaded.alpha * s
  beta := prev.beta * (1 - s) + loaded.beta * s
  gamma := prev.gamma * (1 - s) + loaded.gamma * s
  source := loaded.source
  metric := loaded.metric

def resolveWithMetric (doc : CoeffsDocument) (pathID : Nat) : QAccessCoefficients :=
  let c := resolveCoefficientsForPath doc pathID
  if doc.metric = "" then c else { c with metric := doc.metric }

def perPathOf (doc : CoeffsDocument) (f : Nat → QAccessCoefficients) :
    AList fun _ : Nat => QAccessCoefficients :=
  doc.paths.keys.foldl (fun perPath key =>
    match parseUint8 key with
    | none => perPath
    | some pathID => perPath.insert pathID (f pathID)) ∅

namespace UtilityController

def getCoefficientsForPath (uc : UtilityController) (pathID : Nat) : QAccessCoefficients :=
  match uc.perPathCoeffs.bind fun perPath => perPath.lookup pathID with
  | some c => c
  | none =>
    if uc.coeffsDoc.version = qaccessCoeffsVersion then
      resolveCoefficientsForPath uc.coeffsDoc pathID
    else uc.coeffs

def applyPath (uc : UtilityController) (s : ℚ) (doc : CoeffsDocument) (pathID : Nat) :
    QAccessCoefficients :=
  let loaded := resolveWithMetric doc pathID
  smooth s ((uc.perPathCoeffs.bind fun perPath => perPath.lookup pathID).getD loaded) loaded

def newPerPath (uc : UtilityController) (s : ℚ) (doc : CoeffsDocument) :
    AList fun _ : Nat => QAccessCoefficients :=
  perPathOf doc (uc.applyPath s doc)

def reloadCoefficientsFromDisk (uc : UtilityController) (disk : CoeffsDisk) : UtilityController :=
  match loadQAccessCoeffsDocument disk.file with
  | (_, some _) => { uc with coeffs := defaultQAccessTCoefficients, perPathCoeffs := none }
  | (doc, none) =>
    let fallback := resolveWithMetric doc 0
    { uc with
      coeffsDoc := doc
      perPathCoeffs := some (perPathOf doc (resolveWithMetric doc))
      coeffs := if doc.source ≠ "" ∧ fallback.source = "default" then
          { fallback with source := doc.source }
        else fallback }

def updateCoefficientsSmoothly (uc : UtilityController) (newC : QAccessCoefficients) (s : ℚ) :
    UtilityController :=
  { uc with coeffs := smooth (clampUnit s) uc.coeffs newC }

def applyDocument (uc : UtilityController) (doc : CoeffsDocument) : UtilityController :=
  let s := clampUnit uc.coeffSmoothing
  let perPath := uc.newPerPath s doc
  let fallback := resolveWithMetric doc 0
  if perPath.keys ≠ [] then
    { uc with coeffsDoc := doc, perPathCoeffs := some perPath, coeffs := fallback }
  else if validCoeffEntry fallback.alpha fallback.beta fallback.gamma then
    uc.updateCoefficientsSmoothly fallback s
  else uc

def maybeReloadCoefficients (uc : UtilityController) (now : Int) (disk : CoeffsDisk) :
    UtilityController × Option CoeffsDocument :=
  if !uc.coeffReload || !uc.runtimeMode then (uc, none)
  else if uc.lastCoeffCheck.any fun last => now - last < uc.coeffReloadInterval then (uc, none)
  else
    let uc := { uc with lastCoeffCheck := some now }
    if disk.file = .missing then (uc, none)
    else if uc.lastCoeffMtime.any fun last => disk.modTime ≤ last then (uc, none)
    else
      let uc := { uc with lastCoeffMtime := some disk.modTime }
      match loadQAccessCoeffsDocument disk.file with
      | (_, some _) => (uc, none)
      | (doc, none) => (uc.applyDocument doc, some doc)

def forceReloadCoefficients (uc : UtilityController) (now : Int) (disk : CoeffsDisk) :
    UtilityController × Option CoeffsDocument :=
  ({ uc with lastCoeffCheck := none, lastCoeffMtime := none }).maybeReloadCoefficients now disk

def phase2MutationAllowed (uc : UtilityController) : Bool :=
  uc.runtimeMode && uc.phase2Owner

-- The response is read only while an update is in progress, and only if it is for that update.
def consumes (uc : UtilityController) (response : Option ResponseFields) : Bool :=
  uc.phase2MutationAllowed && uc.updateInProgress && uc.inflightRequestID ≠ "" &&
    response.any fun r => r.requestID = uc.inflightRequestID

def isApplied (status : String) : Bool :=
  status = "APPLIED_AGGREGATE" || status = "APPLIED"

def maybeCheckUpdateResponse (uc : UtilityController) (now : Int) (disk : CoeffsDisk)
    (response : Option ResponseFields) : UtilityController :=
  if uc.consumes response then
    let uc :=
      if response.any fun r => isApplied r.status then (uc.forceReloadCoefficients now disk).1
      else uc
    { uc with updateInProgress := false, inflightRequestID := "" }
  else uc

end UtilityController

-- A controller before its first document, whose own document is empty. With a runtime mode and
-- a path of the coefficient file it reads the file.
def newController (coeffReload runtimeMode phase2Owner : Bool) (coeffReloadInterval : Int)
    (coeffSmoothing : ℚ) (disk : Option CoeffsDisk) : UtilityController :=
  let uc : UtilityController :=
    { coeffReload := coeffReload
      runtimeMode := runtimeMode
      phase2Owner := phase2Owner
      coeffReloadInterval := coeffReloadInterval
      coeffSmoothing := coeffSmoothing
      lastCoeffCheck := none
      lastCoeffMtime := none
      perPathCoeffs := none
      coeffsDoc := ⟨0, ⟨0, 0, 0⟩, ∅, 0, 0, 0, "", ""⟩
      coeffs := defaultQAccessTCoefficients
      updateInProgress := false
      inflightRequestID := "" }
  match disk with
  | some disk => if runtimeMode then uc.reloadCoefficientsFromDisk disk else uc
  | none => uc

def CoeffsDocument.pathIDs (doc : CoeffsDocument) : List Nat :=
  doc.paths.keys.filterMap parseUint8

variable {pathID : Nat} {doc : CoeffsDocument}

theorem parseUint8_formatPathID (hbyte : pathID < 256) :
    parseUint8 (formatPathID pathID) = some pathID := by
  have hall : ∀ n < 256, parseUint8 (Nat.repr n) = some n := by decide +kernel
  exact hall pathID hbyte

theorem valid_fallbackCoefficients (doc : CoeffsDocument) (metric : String) :
    (fallbackCoefficients doc metric).entry.valid = true := by
  unfold fallbackCoefficients
  split
  · assumption
  · split
    · rename_i hflat
      exact hflat.2
    · decide +kernel

theorem valid_resolve (doc : CoeffsDocument) (pathID : Nat) :
    (resolveCoefficientsForPath doc pathID).entry.valid = true := by
  unfold resolveCoefficientsForPath
  dsimp only
  split
  · split
    · assumption
    · exact valid_fallbackCoefficients _ _
  · exact valid_fallbackCoefficients _ _

theorem entry_resolveWithMetric (doc : CoeffsDocument) (pathID : Nat) :
    (resolveWithMetric doc pathID).entry = (resolveCoefficientsForPath doc pathID).entry := by
  unfold resolveWithMetric
  dsimp only
  split <;> rfl

theorem entry_smooth_one (prev loaded : QAccessCoefficients) :
    (smooth 1 prev loaded).entry = loaded.entry := by
  simp [smooth, QAccessCoefficients.entry]

theorem lookup_normalizeCoeffsDocument {key : String} (hnone : doc.paths.lookup key = none) :
    (normalizeCoeffsDocument doc).paths.lookup key = none := by
  unfold normalizeCoeffsDocument
  split
  · dsimp only
    rw [lookup_cleanPaths, hnone]
    rfl
  · split
    · rfl
    · exact hnone

theorem lookup_of_notMem_pathIDs (hbyte : pathID < 256)
    (hnone : pathID ∉ doc.pathIDs) : doc.paths.lookup (formatPathID pathID) = none := by
  rw [AList.lookup_eq_none]
  intro hmem
  exact hnone (mem_filterMap.mpr ⟨_, hmem, parseUint8_formatPathID hbyte⟩)

theorem resolve_of_notMem_pathIDs (hbyte : pathID < 256) (hnone : pathID ∉ doc.pathIDs) :
    resolveCoefficientsForPath doc pathID =
      fallbackCoefficients (normalizeCoeffsDocument doc)
        (if (normalizeCoeffsDocument doc).metric = "" then "unknown"
          else (normalizeCoeffsDocument doc).metric) := by
  unfold resolveCoefficientsForPath
  dsimp only
  rw [lookup_normalizeCoeffsDocument (lookup_of_notMem_pathIDs hbyte hnone)]

theorem lookup_perPathOf (doc : CoeffsDocument) (f : Nat → QAccessCoefficients) (pathID : Nat) :
    (perPathOf doc f).lookup pathID = if pathID ∈ doc.pathIDs then some (f pathID) else none := by
  -- The loop has gone over `seen`.
  have hloop : ∀ (keys : List String) (perPath : AList fun _ : Nat => QAccessCoefficients)
      (seen : List Nat),
      (∀ id, perPath.lookup id = if id ∈ seen then some (f id) else none) →
      ∀ id, (keys.foldl (fun perPath key =>
          match parseUint8 key with
          | none => perPath
          | some pathID => perPath.insert pathID (f pathID)) perPath).lookup id =
        if id ∈ seen ∨ id ∈ keys.filterMap parseUint8 then some (f id) else none := by
    intro keys
    induction keys with
    | nil =>
      intro perPath seen hseen id
      simpa using hseen id
    | cons key rest ih =>
      intro perPath seen hseen id
      rw [foldl_cons]
      cases hparse : parseUint8 key with
      | none =>
        dsimp only
        rw [ih perPath seen hseen id, filterMap_cons_none hparse]
      | some found =>
        dsimp only
        rw [ih _ (found :: seen) ?_ id, filterMap_cons_some hparse]
        · simp only [mem_cons, or_assoc, or_left_comm]
        · intro other
          by_cases hother : other = found
          · rw [hother, AList.lookup_insert, if_pos mem_cons_self]
          · rw [AList.lookup_insert_ne hother, hseen other]
            simp [hother]
  have hstart := hloop doc.paths.keys ∅ [] (by simp) pathID
  unfold perPathOf CoeffsDocument.pathIDs
  simpa using hstart

theorem perPathOf_keys_eq_nil_iff (doc : CoeffsDocument) (f : Nat → QAccessCoefficients) :
    (perPathOf doc f).keys = [] ↔ doc.pathIDs = [] := by
  rw [eq_nil_iff_forall_not_mem, eq_nil_iff_forall_not_mem]
  refine forall_congr' fun pathID => not_congr ?_
  rw [← AList.mem_keys, ← AList.lookup_isSome, lookup_perPathOf]
  split <;> simp_all

namespace UtilityController

-- What the controller keeps from earlier documents does not stand in the way of `doc`.
def Unshadowed (uc : UtilityController) (doc : CoeffsDocument) : Prop :=
  if doc.pathIDs = [] then
    ∀ pathID < 256,
      match uc.perPathCoeffs.bind fun perPath => perPath.lookup pathID with
      | some c => c.entry = (resolveCoefficientsForPath doc pathID).entry
      | none => uc.coeffsDoc.version = qaccessCoeffsVersion →
          (resolveCoefficientsForPath uc.coeffsDoc pathID).entry =
            (resolveCoefficientsForPath doc pathID).entry
  else
    doc.version = qaccessCoeffsVersion ∨
      ∀ pathID < 256, pathID ∉ doc.pathIDs →
        (resolveCoefficientsForPath doc 0).entry = (resolveCoefficientsForPath doc pathID).entry

def Follows (uc : UtilityController) (doc : CoeffsDocument) : Prop :=
  ∀ pathID < 256,
    (uc.getCoefficientsForPath pathID).entry = (resolveCoefficientsForPath doc pathID).entry

theorem clampUnit_one : clampUnit 1 = 1 := by
  decide +kernel

variable {uc : UtilityController} {doc : CoeffsDocument} {now : Int} {disk : CoeffsDisk}

theorem applyDocument_of_nil (hnil : doc.pathIDs = []) :
    uc.applyDocument doc =
      uc.updateCoefficientsSmoothly (resolveWithMetric doc 0) (clampUnit uc.coeffSmoothing) := by
  have hvalid : validCoeffEntry (resolveWithMetric doc 0).alpha (resolveWithMetric doc 0).beta
      (resolveWithMetric doc 0).gamma = true := by
    have h := valid_resolve doc 0
    rw [← entry_resolveWithMetric] at h
    exact h
  unfold applyDocument newPerPath
  dsimp only
  rw [if_neg (not_not.mpr ((perPathOf_keys_eq_nil_iff doc _).mpr hnil)), if_pos hvalid]

theorem applyDocument_of_ne_nil (hne : doc.pathIDs ≠ []) :
    uc.applyDocument doc =
      { uc with
        coeffsDoc := doc
        perPathCoeffs := some (uc.newPerPath (clampUnit uc.coeffSmoothing) doc)
        coeffs := resolveWithMetric doc 0 } :=
  if_pos (mt (perPathOf_keys_eq_nil_iff doc _).mp hne)

theorem applyDocument_follows_iff (uc : UtilityController) (hsmoothing : uc.coeffSmoothing = 1)
    (doc : CoeffsDocument) : (uc.applyDocument doc).Follows doc ↔ uc.Unshadowed doc := by
  have hone : clampUnit uc.coeffSmoothing = 1 := by
    rw [hsmoothing, clampUnit_one]
  unfold Unshadowed Follows
  by_cases hnil : doc.pathIDs = []
  · rw [if_pos hnil, applyDocument_of_nil hnil, hone]
    refine forall_congr' fun pathID => imp_congr_right fun hbyte => ?_
    unfold getCoefficientsForPath updateCoefficientsSmoothly
    dsimp only
    cases uc.perPathCoeffs.bind fun perPath => perPath.lookup pathID with
    | some c => rfl
    | none =>
      dsimp only
      by_cases hversion : uc.coeffsDoc.version = qaccessCoeffsVersion
      · rw [if_pos hversion]
        exact ⟨fun h _ => h, fun h => h hversion⟩
      · have hsame : resolveCoefficientsForPath doc 0 = resolveCoefficientsForPath doc pathID := by
          rw [resolve_of_notMem_pathIDs (by decide) (by rw [hnil]; exact not_mem_nil),
            resolve_of_notMem_pathIDs hbyte (by rw [hnil]; exact not_mem_nil)]
        rw [if_neg hversion, clampUnit_one, entry_smooth_one, entry_resolveWithMetric, hsame]
        simp [hversion]
  · rw [if_neg hnil, applyDocument_of_ne_nil hnil, hone]
    have hget : ∀ pathID, (getCoefficientsForPath
        { uc with
          coeffsDoc := doc
          perPathCoeffs := some (uc.newPerPath 1 doc)
          coeffs := resolveWithMetric doc 0 } pathID).entry =
        if pathID ∈ doc.pathIDs ∨ doc.version = qaccessCoeffsVersion then
          (resolveCoefficientsForPath doc pathID).entry
        else (resolveCoefficientsForPath doc 0).entry := by
      intro pathID
      unfold getCoefficientsForPath
      dsimp only [Option.bind, newPerPath]
      rw [lookup_perPathOf]
      by_cases hmem : pathID ∈ doc.pathIDs
      · rw [if_pos hmem]
        dsimp only [applyPath]
        rw [if_pos (.inl hmem), entry_smooth_one, entry_resolveWithMetric]
      · rw [if_neg hmem]
        dsimp only
        by_cases hversion : doc.version = qaccessCoeffsVersion
        · rw [if_pos hversion, if_pos (.inr hversion)]
        · rw [if_neg hversion, if_neg (by simp [hmem, hversion]), entry_resolveWithMetric]
    simp only [hget]
    constructor
    · intro hall
      by_cases hversion : doc.version = qaccessCoeffsVersion
      · exact .inl hversion
      · refine .inr fun pathID hbyte hmem => ?_
        have hpath := hall pathID hbyte
        rwa [if_neg (by simp [hmem, hversion])] at hpath
    · rintro hcond pathID hbyte
      split
      · rfl
      · rename_i hnot
        rw [not_or] at hnot
        exact (hcond.resolve_left hnot.2) pathID hbyte hnot.1

theorem maybeReloadCoefficients_eq_applyDocument
    (hload : (uc.maybeReloadCoefficients now disk).2 = some doc) :
    (uc.maybeReloadCoefficients now disk).1 =
      ({ uc with lastCoeffCheck := some now, lastCoeffMtime := some disk.modTime }).applyDocument
        doc := by
  unfold maybeReloadCoefficients at hload ⊢
  dsimp only at hload ⊢
  split_ifs at hload ⊢
  · cases hloaded : loadQAccessCoeffsDocument disk.file with
    | mk loaded err =>
      rw [hloaded] at hload
      cases err with
      | some err => cases hload
      | none =>
        cases hload
        rfl

theorem forceReloadCoefficients_loads (now : Int) (hreload : uc.coeffReload = true)
    (hmode : uc.runtimeMode = true) (hfile : loadQAccessCoeffsDocument disk.file = (doc, none)) :
    (uc.forceReloadCoefficients now disk).2 = some doc := by
  have hpresent : disk.file ≠ .missing := by
    intro hmissing
    rw [hmissing] at hfile
    cases hfile
  unfold forceReloadCoefficients maybeReloadCoefficients
  dsimp only
  simp only [hreload, hmode, hpresent, hfile]
  rfl

theorem unshadowed_congr {other : UtilityController}
    (hperPath : other.perPathCoeffs = uc.perPathCoeffs) (hdoc : other.coeffsDoc = uc.coeffsDoc) :
    other.Unshadowed doc ↔ uc.Unshadowed doc := by
  unfold Unshadowed
  rw [hperPath, hdoc]

theorem maybeReloadCoefficients_follows_iff (uc : UtilityController)
    (hsmoothing : uc.coeffSmoothing = 1)
    (hload : (uc.maybeReloadCoefficients now disk).2 = some doc) :
    (uc.maybeReloadCoefficients now disk).1.Follows doc ↔ uc.Unshadowed doc := by
  rw [maybeReloadCoefficients_eq_applyDocument hload,
    applyDocument_follows_iff { uc with
      lastCoeffCheck := some now, lastCoeffMtime := some disk.modTime } hsmoothing]
  exact unshadowed_congr rfl rfl

-- A reload with smoothing 1 takes effect on every path exactly if nothing that is kept from
-- earlier documents stands in the way, and so does the reload after an applied update.
theorem reload_takes_effect_iff {uc : UtilityController} (hsmoothing : uc.coeffSmoothing = 1)
    (hreload : uc.coeffReload = true) (now : Int) (disk : CoeffsDisk) (doc : CoeffsDocument) :
    ((uc.maybeReloadCoefficients now disk).2 = some doc →
        ((∀ pathID < 256,
            ((uc.maybeReloadCoefficients now disk).1.getCoefficientsForPath pathID).entry =
              (resolveCoefficientsForPath doc pathID).entry) ↔
          uc.Unshadowed doc)) ∧
      ∀ response : ResponseFields, uc.consumes (some response) = true →
        (response.status = "APPLIED" ∨ response.status = "APPLIED_AGGREGATE") →
        loadQAccessCoeffsDocument disk.file = (doc, none) →
        ((∀ pathID < 256,
            ((uc.maybeCheckUpdateResponse now disk (some response)).getCoefficientsForPath
                pathID).entry =
              (resolveCoefficientsForPath doc pathID).entry) ↔
          uc.Unshadowed doc) := by
  refine ⟨fun hload => maybeReloadCoefficients_follows_iff uc hsmoothing hload, ?_⟩
  intro response hconsumes hstatus hfile
  have hmode : uc.runtimeMode = true := by
    simp only [consumes, phase2MutationAllowed, Bool.and_eq_true] at hconsumes
    exact hconsumes.1.1.1.1
  have happlied : isApplied response.status = true := by
    unfold isApplied
    rcases hstatus with h | h <;> simp [h]
  have hloads := forceReloadCoefficients_loads now hreload hmode hfile
  have hforced := maybeReloadCoefficients_follows_iff
    { uc with lastCoeffCheck := none, lastCoeffMtime := none } hsmoothing hloads
  refine Iff.trans ?_ (hforced.trans (unshadowed_congr rfl rfl))
  unfold maybeCheckUpdateResponse
  rw [if_pos hconsumes]
  dsimp only [Option.any]
  rw [if_pos happlied]
  rfl

end UtilityController

def startController : UtilityController :=
  newController true true true 1 1 none

def defaultOnly (e : CoeffEntry) : JsonDocument :=
  { plainDocument with default := some (.entry e.raw), paths := none }

-- The controller starts with one default entry, and the file then gets another one.
theorem new_default_has_no_effect :
    let uc := startController.reloadCoefficientsFromDisk ⟨.json (defaultOnly ⟨0.6, 0.3, 0.1⟩), 1⟩
    let reloaded := uc.maybeReloadCoefficients 2 ⟨.json (defaultOnly ⟨0.8, 0.2, 0.2⟩), 2⟩
    ∃ doc, reloaded.2 = some doc ∧
      (resolveCoefficientsForPath doc 1).entry = ⟨0.8, 0.2, 0.2⟩ ∧
      (reloaded.1.getCoefficientsForPath 1).entry = ⟨0.6, 0.3, 0.1⟩ := by
  refine ⟨(loadQAccessCoeffsDocument (.json (defaultOnly ⟨0.8, 0.2, 0.2⟩))).1, ?_, ?_, ?_⟩
  · rfl
  · decide +kernel
  · decide +kernel

theorem reload_takes_effect_example :
    let doc := (loadQAccessCoeffsDocument (.json plainDocument)).1
    (startController.maybeReloadCoefficients 2 ⟨.json plainDocument, 2⟩).2 = some doc ∧
      ∀ pathID < 256,
        ((startController.maybeReloadCoefficients 2 ⟨.json plainDocument, 2⟩).1.getCoefficientsForPath
            pathID).entry =
          (resolveCoefficientsForPath doc pathID).entry := by
  intro doc
  have hload : (startController.maybeReloadCoefficients 2 ⟨.json plainDocument, 2⟩).2 = some doc := rfl
  refine ⟨hload, ((UtilityController.reload_takes_effect_iff rfl rfl 2 _ doc).1 hload).mpr ?_⟩
  have hne : doc.pathIDs ≠ [] := by decide +kernel
  unfold UtilityController.Unshadowed
  rw [if_neg hne]
  exact .inl rfl

end MpQuic.QAccess

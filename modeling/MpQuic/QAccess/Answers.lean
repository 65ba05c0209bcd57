import MpQuic.QAccess.SingleFlight
import MpQuic.QAccess.Visibility

namespace MpQuic.QAccess

open List

section Cleaning

namespace Frame

variable {df samples : Frame}

def kept (df : Frame) (row : Column → Cell) : Bool :=
  (Column.nextBwBps ∉ df.columns || (df.numericRow row .nextBwBps).nonNegative) &&
    df.activeRow (df.numericRow row)

theorem rows_of_cleanRuntimeSamples (hclean : df.cleanRuntimeSamples = .ok samples) :
    samples.rows = (df.rows.filter df.kept).map fun row => df.cleanCell (df.numericRow row) := by
  unfold cleanRuntimeSamples at hclean
  split_ifs at hclean with hempty hcolumns
  · cases hclean
    rw [hempty]
    rfl
  · cases hclean
    dsimp only
    rw [filter_filter, filter_map, map_map]
    congr 1
    refine filter_congr fun row _ => ?_
    exact Bool.and_comm _ _

theorem mem_columns_of_cleanRuntimeSamples (hclean : df.cleanRuntimeSamples = .ok samples)
    (column : Column) (hother : column ∉ features) :
    column ∈ samples.columns ↔ column ∈ df.columns := by
  unfold cleanRuntimeSamples at hclean
  split_ifs at hclean
  · cases hclean
    rfl
  · cases hclean
    simp [hother]

theorem cleanRuntimeSamples_rows_ne_nil_iff :
    (∃ samples, df.cleanRuntimeSamples = .ok samples ∧ samples.rows ≠ []) ↔
      ∃ row ∈ df.rows, df.kept row = true := by
  constructor
  · rintro ⟨samples, hclean, hne⟩
    rw [rows_of_cleanRuntimeSamples hclean, Ne, map_eq_nil_iff] at hne
    obtain ⟨row, hrow⟩ := exists_mem_of_ne_nil _ hne
    exact ⟨row, mem_filter.mp hrow⟩
  · rintro ⟨row, hrow, hkept⟩
    have hactive : df.activeRow (df.numericRow row) = true := (Bool.and_eq_true_iff.mp hkept).2
    have hclean : ∃ samples, df.cleanRuntimeSamples = .ok samples := by
      unfold cleanRuntimeSamples
      split_ifs with hempty hcolumns
      · exact ⟨_, rfl⟩
      · obtain ⟨hbw, howd, hinflight⟩ := hcolumns
        simp [activeRow, hbw, howd, hinflight] at hactive
      · exact ⟨_, rfl⟩
    obtain ⟨samples, hclean⟩ := hclean
    refine ⟨samples, hclean, ?_⟩
    rw [rows_of_cleanRuntimeSamples hclean, Ne, map_eq_nil_iff]
    exact ne_nil_of_mem (mem_filter.mpr ⟨hrow, hkept⟩)

end Frame

end Cleaning

section Classification

-- The path ID of the row can be converted, and so can what its path has sent.
def Countable (columns : List Column) (row : Column → Cell) : Prop :=
  (∀ negative, row .pathID ≠ .infinity negative) ∧
    (Column.senderBytesTotal ∈ columns → ∀ q, row .pathID = .number q →
      ∀ negative, row .senderBytesTotal ≠ .infinity negative)

theorem senderValues_isOk_iff (cells : List Cell) :
    (∃ values, senderValues cells = .ok values) ↔
      ∀ cell ∈ cells, ∀ negative, cell ≠ .infinity negative := by
  induction cells with
  | nil => simp [senderValues]
  | cons cell rest ih =>
    rw [forall_mem_cons, ← ih]
    cases cell with
    | nan => simp [senderValues]
    | text s => simp [senderValues]
    | infinity negative => simp [senderValues]
    | number q =>
      change (∃ values, (senderValues rest >>= fun values => pure (truncate q :: values)) =
        .ok values) ↔ _
      cases senderValues rest <;> simp [bind, Except.bind, pure, Except.pure]

theorem mapM_isOk_iff {α β ε : Type*} (f : α → Except ε β) (xs : List α) :
    (∃ ys, xs.mapM f = .ok ys) ↔ ∀ x ∈ xs, ∃ y, f x = .ok y := by
  induction xs with
  | nil => simp [pure, Except.pure]
  | cons x xs ih =>
    rw [forall_mem_cons, ← ih, mapM_cons]
    cases f x with
    | error err => simp [bind, Except.bind]
    | ok y => cases xs.mapM f <;> simp [bind, Except.bind, pure, Except.pure]

namespace Frame

variable {df samples : Frame}

theorem classifyPath_isOk_iff (minRows : Nat) (minSenderByteDelta : Int) (pathID : ℚ) :
    (∃ item, df.classifyPath minRows minSenderByteDelta pathID = .ok item) ↔
      (Column.senderBytesTotal ∈ df.columns → ∀ row ∈ df.rowsOfPath pathID,
        ∀ negative, row .senderBytesTotal ≠ .infinity negative) := by
  have hvalues := senderValues_isOk_iff (if Column.senderBytesTotal ∈ df.columns then
    (df.rowsOfPath pathID).map fun row => row .senderBytesTotal else [])
  unfold classifyPath
  dsimp only
  constructor
  · rintro ⟨item, hitem⟩ hcolumn
    rw [if_pos hcolumn] at hvalues hitem
    refine fun row hrow => hvalues.mp ?_ _ (mem_map_of_mem hrow)
    cases hsent : senderValues ((df.rowsOfPath pathID).map fun row => row .senderBytesTotal) with
    | error err =>
      rw [hsent] at hitem
      cases hitem
    | ok values => exact ⟨values, rfl⟩
  · intro hfinite
    obtain ⟨values, hsent⟩ := hvalues.mpr (by
      split_ifs with hcolumn
      · exact forall_mem_map.mpr fun row hrow => hfinite hcolumn row hrow
      · exact nofun)
    rw [hsent]
    exact ⟨_, rfl⟩

theorem mem_pathNumbers_iff {q : ℚ} :
    q ∈ df.pathNumbers ↔ ∃ row ∈ df.rows, row .pathID = .number q := by
  unfold pathNumbers
  rw [mem_insertionSort, mem_dedup, mem_filterMap]
  refine exists_congr fun row => and_congr_right fun _ => ?_
  cases row .pathID <;> simp

theorem classifyMediaPaths_isOk_iff (minRows : Nat) (minSenderByteDelta : Int) :
    (∃ diagnostics, df.classifyMediaPaths minRows minSenderByteDelta = .ok diagnostics) ↔
      (Column.pathID ∈ df.columns → ∀ row ∈ df.rows, Countable df.columns row) := by
  unfold classifyMediaPaths
  split_ifs with hempty hinfinite
  · refine iff_of_true ⟨_, rfl⟩ fun hcolumn row hrow => ?_
    rcases hempty with hnil | hmissing
    · rw [hnil] at hrow
      cases hrow
    · exact absurd hcolumn hmissing
  · obtain ⟨row, hrow, hpath⟩ := any_eq_true.mp hinfinite
    refine iff_of_false (fun ⟨_, herror⟩ => nomatch herror) fun hall => ?_
    have hfinite := (hall (not_not.mp fun hmissing => hempty (.inr hmissing)) row hrow).1
    rcases of_decide_eq_true hpath with hpath | hpath
    · exact hfinite true hpath
    · exact hfinite false hpath
  · have hcolumn : Column.pathID ∈ df.columns := not_not.mp fun hmissing => hempty (.inr hmissing)
    rw [mapM_isOk_iff]
    simp only [classifyPath_isOk_iff]
    constructor
    · intro hall _ row hrow
      refine ⟨fun negative hpath => hinfinite (any_eq_true.mpr ⟨row, hrow, ?_⟩),
        fun hsent q hpath => ?_⟩
      · cases negative <;> simp [hpath]
      · exact hall q (mem_pathNumbers_iff.mpr ⟨row, hrow, hpath⟩) hsent row
          (mem_filter.mpr ⟨hrow, decide_eq_true hpath⟩)
    · intro hall q _ hsent row hrow
      obtain ⟨hmem, hpath⟩ := mem_filter.mp hrow
      exact (hall hcolumn row hmem).2 hsent q (of_decide_eq_true hpath)

theorem cleanCell_numericRow (column : Column) (hother : column ∉ features) (row : Column → Cell) :
    (∀ q, df.cleanCell (df.numericRow row) column = .number q ↔ row column = .number q) ∧
      ∀ negative, df.cleanCell (df.numericRow row) column = .infinity negative ↔
        row column = .infinity negative := by
  unfold cleanCell numericRow
  rw [if_neg hother]
  split_ifs
  · cases row column <;> simp [Cell.toNumeric]
  · exact ⟨fun _ => Iff.rfl, fun _ => Iff.rfl⟩

theorem countable_cleanCell_iff (hclean : df.cleanRuntimeSamples = .ok samples)
    (row : Column → Cell) :
    Countable samples.columns (df.cleanCell (df.numericRow row)) ↔ Countable df.columns row := by
  obtain ⟨hnumber, hinfinite⟩ := df.cleanCell_numericRow .pathID (by decide) row
  obtain ⟨-, hsent⟩ := df.cleanCell_numericRow .senderBytesTotal (by decide) row
  unfold Countable
  simp only [ne_eq, hnumber, hinfinite, hsent,
    mem_columns_of_cleanRuntimeSamples hclean .senderBytesTotal (by decide)]

theorem classify_cleaned_isOk_iff (hclean : df.cleanRuntimeSamples = .ok samples) (minRows : Nat)
    (minSenderByteDelta : Int) :
    (∃ diagnostics, samples.classifyMediaPaths minRows minSenderByteDelta = .ok diagnostics) ↔
      (Column.pathID ∈ df.columns →
        ∀ row ∈ df.rows, df.kept row = true → Countable df.columns row) := by
  rw [classifyMediaPaths_isOk_iff, rows_of_cleanRuntimeSamples hclean,
    mem_columns_of_cleanRuntimeSamples hclean .pathID (by decide)]
  simp only [forall_mem_map, mem_filter, and_imp, countable_cleanCell_iff hclean]

end Frame

end Classification

section Decision

variable {settings : Settings} {model : Predictor} {req : Request} {columns : List Column}
  {coeffs : CoeffsFile} {doc : PyDocument} {scored : List PathDiagnostics} {cur : CoeffEntry}

def Comparable (settings : Settings) (scored : List PathDiagnostics) (cur : CoeffEntry) : Prop :=
  scored = [] ∨ (candidateTriples settings.fixedGamma ≠ [] ∧
    (totalDelta scored ≤ 0 ∨ ∃ t ∈ candidateTriples settings.fixedGamma, isCurrent cur t = true))

theorem compareRows_isOk (model : Predictor) (scored : List PathDiagnostics) {t : CoeffEntry}
    (ht : t ∈ candidateTriples settings.fixedGamma) (hcurrent : isCurrent cur t = true) :
    ∃ rows, compareRows settings model scored cur = .ok rows := by
  have hmem : ∃ row ∈ aggregateRows settings model scored cur, row.current = true :=
    ⟨_, mem_map_of_mem ht, hcurrent⟩
  unfold compareRows
  cases hall : aggregateRows settings model scored cur with
  | nil =>
    rw [hall] at hmem
    obtain ⟨row, hrow, -⟩ := hmem
    cases hrow
  | cons first rest =>
    rw [hall, ← List.find?_isSome, Option.isSome_iff_exists] at hmem
    obtain ⟨currentRow, hfound⟩ := hmem
    dsimp only
    rw [hfound]
    exact ⟨_, rfl⟩

theorem applyAggregate_isOk {rows : AggregateRow × AggregateRow}
    (hrows : compareRows settings model scored cur = .ok rows) :
    ∃ operations, applyAggregate settings req coeffs
      (aggregateUpdates settings req columns doc scored cur rows) = .ok operations := by
  obtain ⟨-, near, hnear, hcurrent⟩ := mem_candidates_of_compareRows hrows
  have hvalid := valid_stepTo (mem_candidateTriples.mp hnear).1 hcurrent rows.2.triple
  unfold applyAggregate
  rw [if_pos]
  · exact ⟨_, rfl⟩
  · unfold aggregateUpdates
    dsimp only
    split
    · refine all_eq_true.mpr fun update hupdate => ?_
      obtain ⟨id, -, rfl⟩ := mem_map.mp hupdate
      exact hvalid
    · rfl

theorem MayUpdate.exists_candidate (h : MayUpdate settings req columns scored cur) :
    ∃ t ∈ candidateTriples settings.fixedGamma, differs cur (stepTo cur t) = true := by
  obtain ⟨near, hnear, hcurrent⟩ := h.grid
  obtain ⟨hna, hnb, -⟩ := mem_phase2CandidateTriples.mp (mem_candidateTriples.mp hnear).1
  obtain ⟨alpha, halpha, hfar⟩ := exists_far_alpha _ hna
  have ht := mem_candidateTriples_of_gamma hnear halpha hnb
  exact ⟨_, ht, differs_of_far hnear hcurrent ht (.inl hfar)⟩

theorem MayUpdate.keysConvert_of_isOk (h : MayUpdate settings req columns scored cur)
    (hok : ∀ model, ∃ operations,
      scoreAggregate settings model req columns coeffs doc scored cur = .ok operations) :
    keysConvert doc = true := by
  obtain ⟨t, ht, hdiffers⟩ := h.exists_candidate
  obtain ⟨model, rows, hrows, hupdates⟩ := h.exists_model ht hdiffers doc
  obtain ⟨item, hitem⟩ : ∃ item, item ∈ scored := by
    refine exists_mem_of_ne_nil scored ?_
    rintro rfl
    simpa [ownerOk] using h.owner
  have hwritten : item.pathID ∈ updatePathIDs doc scored :=
    mem_updatePathIDs.mpr (.inr ⟨item, hitem, rfl⟩)
  obtain ⟨operations, hscore⟩ := hok model
  rw [h.scoreAggregate_eq hrows, hupdates] at hscore
  split_ifs at hscore with hkeys
  simpa [ne_nil_of_mem hwritten] using hkeys

theorem scoreAggregate_isOk_iff :
    (∀ model, ∃ operations,
        scoreAggregate settings model req columns coeffs doc scored cur = .ok operations) ↔
      Comparable settings scored cur ∧
        (MayUpdate settings req columns scored cur → keysConvert doc = true) := by
  constructor
  · intro hok
    refine ⟨?_, fun h => h.keysConvert_of_isOk hok⟩
    obtain ⟨operations, hscore⟩ := hok fun _ _ => 0
    unfold scoreAggregate at hscore
    split_ifs at hscore with hnone hempty hdelta
    · exact .inl hnone
    · exact .inr ⟨hempty, .inl hdelta⟩
    · cases hrows : compareRows settings (fun _ _ => 0) scored cur with
      | error err =>
        rw [hrows] at hscore
        cases hscore
      | ok rows => exact .inr ⟨hempty, .inr (mem_candidates_of_compareRows hrows).2⟩
  · rintro ⟨hcomparable, hkeys⟩ model
    unfold scoreAggregate
    split_ifs with hnone hempty hdelta
    · exact ⟨_, rfl⟩
    · rcases hcomparable with h | ⟨h, -⟩
      · exact absurd h hnone
      · exact absurd hempty h
    · exact ⟨_, rfl⟩
    · rcases hcomparable with h | ⟨-, h | ⟨t, ht, hcurrent⟩⟩
      · exact absurd h hnone
      · exact absurd h hdelta
      · obtain ⟨rows, hrows⟩ := compareRows_isOk model scored ht hcurrent
        rw [hrows]
        dsimp only
        rw [if_neg]
        · exact applyAggregate_isOk hrows
        · rintro ⟨hupdates, hinvalid⟩
          rcases aggregateUpdates_cases (not_le.mp hdelta) hrows with hnil | ⟨hmay, -⟩
          · exact hupdates hnil
          · simp [hkeys hmay] at hinvalid

end Decision

section Request

variable {settings : Settings} {model : Predictor} {req : Request} {pathID : Int} {samples df : Frame}
  {coeffs : CoeffsFile}

-- What a request and the files must be like for the worker to answer in aggregate mode with every
-- model.
structure Answerable (settings : Settings) (req : Request) (pathID : Int) (df : Frame)
    (files : Files) : Prop where
  trimmed : strip req.requestID = req.requestID
  reason : strip req.reason ≠ ""
  fresh : settings.shadow = true ∨ req.requestID ∉ files.processed
  active : ∃ row ∈ df.rows, df.kept row = true
  countable : Column.pathID ∈ df.columns →
    ∀ row ∈ df.rows, df.kept row = true → Countable df.columns row
  readable : ∃ resolved, workerCoefficients files.coeffs pathID = .ok resolved
  comparable : ∀ samples diagnostics resolved, df.cleanRuntimeSamples = .ok samples →
    samples.classifyMediaPaths (minRowsOf req) settings.minSenderByteDelta = .ok diagnostics →
    workerCoefficients files.coeffs pathID = .ok resolved →
    Comparable settings (diagnostics.filter PathDiagnostics.eligible) (currentCoeffs req resolved)
  convertible : ∀ samples diagnostics doc resolved, df.cleanRuntimeSamples = .ok samples →
    samples.classifyMediaPaths (minRowsOf req) settings.minSenderByteDelta = .ok diagnostics →
    loadCoeffsDoc files.coeffs = .ok doc → workerCoefficients files.coeffs pathID = .ok resolved →
    MayUpdate settings req samples.columns (diagnostics.filter PathDiagnostics.eligible)
      (currentCoeffs req resolved) → keysConvert doc = true

theorem processMultipathRequest_isOk_iff :
    (∀ model, ∃ operations, processMultipathRequest settings model req pathID samples coeffs =
        .ok operations) ↔
      ∃ diagnostics doc cur,
        samples.classifyMediaPaths (minRowsOf req) settings.minSenderByteDelta = .ok diagnostics ∧
        loadCurrent req pathID coeffs = .ok (doc, cur) ∧
        Comparable settings (diagnostics.filter PathDiagnostics.eligible) cur ∧
        (MayUpdate settings req samples.columns (diagnostics.filter PathDiagnostics.eligible) cur →
          keysConvert doc = true) := by
  unfold processMultipathRequest
  cases samples.classifyMediaPaths (minRowsOf req) settings.minSenderByteDelta with
  | error err => simp [bind, Except.bind]
  | ok diagnostics =>
    cases loadCurrent req pathID coeffs with
    | error err => simp [bind, Except.bind]
    | ok current =>
      refine scoreAggregate_isOk_iff.trans ⟨fun h => ⟨_, _, _, rfl, rfl, h⟩, ?_⟩
      rintro ⟨_, _, _, hdiagnostics, hcurrent, h⟩
      cases hdiagnostics
      cases hcurrent
      exact h

variable {files : Files} {operations : List Operation}

-- The call succeeds and leaves a response to the request, whatever the response file was before.
def Answered (settings : Settings) (model : Predictor) (files : Files) (requestID : String) : Prop :=
  ∃ operations response, processRequest settings model files = .ok operations ∧
    response.requestID = requestID ∧
    ∀ before, (performAll { files with response := before } operations).response = some response

theorem Request.trimmed_eq (htrimmed : strip req.requestID = req.requestID) : req.trimmed = req := by
  unfold Request.trimmed
  rw [htrimmed]

theorem not_answered {requestID : String}
    (hcall : processRequest settings model files = .ok operations)
    (hnothing : operations = [] ∨ operations = [.unlinkRequest]) :
    ¬ Answered settings model files requestID := by
  rintro ⟨other, response, hother, -, hresponse⟩
  cases hcall.symm.trans hother
  have hnone := hresponse none
  rcases hnothing with rfl | rfl <;> cases hnone

section Call

variable (hmode : settings.shadow = true ∨ settings.aggregateMultipath = true)
  (hrequest : files.request = some req) (hpath : req.pathID = some pathID)
  (hsamples : files.samples = some df)

include hmode hrequest hpath hsamples

theorem processRequest_eq (model : Predictor) :
    processRequest settings model files =
      if strip req.requestID = "" ∨ strip req.reason = "" then .ok []
      else if !settings.shadow ∧ strip req.requestID ∈ files.processed then .ok [.unlinkRequest]
      else df.cleanRuntimeSamples.bind fun samples =>
        if samples.rows = [] then .ok []
        else processMultipathRequest settings model req.trimmed pathID samples files.coeffs := by
  unfold processRequest loadSamples
  rw [hrequest]
  dsimp only
  rw [hpath, hsamples]
  dsimp only [bind]
  have haggregate : (settings.shadow || settings.aggregateMultipath) = true :=
    Bool.or_eq_true_iff.mpr hmode
  rw [haggregate]
  rfl

theorem answered_iff {requestID : String} :
    Answered settings model files requestID ↔
      strip req.requestID = requestID ∧ strip req.requestID ≠ "" ∧ strip req.reason ≠ "" ∧
        (settings.shadow = true ∨ strip req.requestID ∉ files.processed) ∧
        ∃ samples operations, df.cleanRuntimeSamples = .ok samples ∧ samples.rows ≠ [] ∧
          processMultipathRequest settings model req.trimmed pathID samples files.coeffs =
            .ok operations := by
  have hcall := processRequest_eq hmode hrequest hpath hsamples model
  by_cases hgiven : strip req.requestID = "" ∨ strip req.reason = ""
  · rw [if_pos hgiven] at hcall
    exact iff_of_false (not_answered hcall (.inl rfl)) fun ⟨_, hid, hreason, _⟩ =>
      hgiven.elim hid hreason
  rw [if_neg hgiven] at hcall
  by_cases hdone : (!settings.shadow) = true ∧ strip req.requestID ∈ files.processed
  · rw [if_pos hdone] at hcall
    refine iff_of_false (not_answered hcall (.inr rfl)) fun ⟨_, _, _, hfresh, _⟩ => ?_
    rcases hfresh with hshadow | hnew
    · simp [hshadow] at hdone
    · exact hnew hdone.2
  rw [if_neg hdone] at hcall
  have hfresh : settings.shadow = true ∨ strip req.requestID ∉ files.processed := by
    simpa [imp_iff_or_not, or_comm] using hdone
  obtain ⟨hid, hreason⟩ := not_or.mp hgiven
  constructor
  · rintro ⟨operations, response, hok, rfl, hresponse⟩
    rw [hcall] at hok
    cases hclean : df.cleanRuntimeSamples with
    | error err =>
      rw [hclean] at hok
      cases hok
    | ok samples =>
      rw [hclean] at hok
      dsimp only [Except.bind] at hok
      split_ifs at hok with hrows
      · cases hok
        cases hresponse none
      · obtain ⟨_, _, _, -, -, -, hwritten⟩ := processMultipathRequest_writes hok
        cases (hwritten _).symm.trans (hresponse none)
        exact ⟨rfl, hid, hreason, hfresh, samples, operations, rfl, hrows, hok⟩
  · rintro ⟨rfl, -, -, -, samples, operations, hclean, hrows, hprocess⟩
    obtain ⟨_, _, _, -, -, -, hwritten⟩ := processMultipathRequest_writes hprocess
    refine ⟨operations, _, ?_, rfl, fun before => hwritten _⟩
    rw [hcall, hclean]
    exact (if_neg hrows).trans hprocess

theorem answerable_of_answered (hanswered : ∀ model, Answered settings model files req.requestID) :
    Answerable settings req pathID df files := by
  have hcalls := fun model => (answered_iff hmode hrequest hpath hsamples).mp (hanswered model)
  obtain ⟨htrimmed, -, hreason, hfresh, samples, -, hclean, hrows, -⟩ := hcalls fun _ _ => 0
  obtain ⟨diagnostics, doc, cur, hclassify, hcurrent, hcomparable, hkeys⟩ :=
    processMultipathRequest_isOk_iff.mp fun model => by
      obtain ⟨-, -, -, -, _, operations, hclean', -, hprocess⟩ := hcalls model
      cases hclean.symm.trans hclean'
      exact ⟨operations, hprocess⟩
  rw [Request.trimmed_eq htrimmed] at hclassify hcurrent hkeys
  obtain ⟨hload, resolved, hresolved, rfl⟩ := loadCurrent_eq_ok_iff.mp hcurrent
  refine {
    trimmed := htrimmed
    reason := hreason
    fresh := htrimmed ▸ hfresh
    active := Frame.cleanRuntimeSamples_rows_ne_nil_iff.mp ⟨samples, hclean, hrows⟩
    countable := (Frame.classify_cleaned_isOk_iff hclean _ _).mp ⟨diagnostics, hclassify⟩
    readable := ⟨resolved, hresolved⟩
    comparable := ?_
    convertible := ?_ }
  · intro _ _ _ hclean' hclassify' hresolved'
    cases hclean.symm.trans hclean'
    cases hclassify.symm.trans hclassify'
    cases hresolved.symm.trans hresolved'
    exact hcomparable
  · intro _ _ _ _ hclean' hclassify' hload' hresolved'
    cases hclean.symm.trans hclean'
    cases hclassify.symm.trans hclassify'
    cases hload.symm.trans hload'
    cases hresolved.symm.trans hresolved'
    exact hkeys

theorem answered_of_answerable (hid : req.requestID ≠ "")
    (h : Answerable settings req pathID df files) (model : Predictor) :
    Answered settings model files req.requestID := by
  obtain ⟨samples, hclean, hrows⟩ := Frame.cleanRuntimeSamples_rows_ne_nil_iff.mpr h.active
  obtain ⟨diagnostics, hclassify⟩ :=
    (Frame.classify_cleaned_isOk_iff hclean (minRowsOf req) settings.minSenderByteDelta).mpr
      h.countable
  obtain ⟨resolved, hresolved⟩ := h.readable
  obtain ⟨doc, hload⟩ : ∃ doc, loadCoeffsDoc files.coeffs = .ok doc := by
    cases hload : loadCoeffsDoc files.coeffs with
    | error err =>
      unfold workerCoefficients at hresolved
      rw [hload] at hresolved
      cases hresolved
    | ok doc => exact ⟨doc, rfl⟩
  obtain ⟨operations, hprocess⟩ := processMultipathRequest_isOk_iff.mpr ⟨diagnostics, doc, _,
    hclassify, loadCurrent_eq_ok_iff.mpr ⟨hload, resolved, hresolved, rfl⟩,
    h.comparable samples diagnostics resolved hclean hclassify hresolved,
    h.convertible samples diagnostics doc resolved hclean hclassify hload hresolved⟩ model
  refine (answered_iff hmode hrequest hpath hsamples).mpr ⟨h.trimmed, ?_, h.reason, ?_, samples,
    operations, hclean, hrows, ?_⟩
  · rwa [h.trimmed]
  · rw [h.trimmed]
    exact h.fresh
  · rwa [Request.trimmed_eq h.trimmed]

end Call

theorem request_of_writePerPathTrigger {uc next : TriggerController} {attempt : Attempt} {path : Nat}
    {reason : String} {globalBuffer : Bool} {minSamplesPerPath : Option Int}
    (hwrite : uc.writePerPathTrigger attempt path reason globalBuffer minSamplesPerPath =
      (next, some req)) : req.pathID = some (path : Int) ∧ req.requestID ≠ "" := by
  have hwrites := uc.writePerPathTrigger_attempts attempt path reason globalBuffer minSamplesPerPath
  rw [hwrite] at hwrites
  refine ⟨?_, ?_⟩
  · unfold TriggerController.writePerPathTrigger at hwrite
    dsimp only at hwrite
    split at hwrite
    · cases hwrite
    · split at hwrite
      · cases hwrite
      · split at hwrite
        · cases hwrite
        · split at hwrite
          · cases hwrite
          · cases hwrite
            rfl
  · rw [hwrites.requestID]
    exact formatRequestID_ne_empty _ _ _

-- In aggregate mode the worker answers a request of the controller with every model exactly
-- if it is answerable.
theorem request_answered_iff {files : Files} {uc next : TriggerController} {attempt : Attempt}
    {path : Nat} {reason : String} {globalBuffer : Bool} {minSamplesPerPath : Option Int}
    (hmode : settings.shadow = true ∨ settings.aggregateMultipath = true)
    (hwrite : uc.writePerPathTrigger attempt path reason globalBuffer minSamplesPerPath =
      (next, some req))
    (hrequest : files.request = some req) (hsamples : files.samples = some df) :
    (∀ model, Answered settings model files req.requestID) ↔
      Answerable settings req path df files := by
  obtain ⟨hpath, hid⟩ := request_of_writePerPathTrigger hwrite
  exact ⟨answerable_of_answered hmode hrequest hpath hsamples,
    answered_of_answerable hmode hrequest hpath hsamples hid⟩

end Request

def entryDocument (e : CoeffEntry) : JsonDocument :=
  { plainDocument with
    default := some (.entry defaultEntry.raw)
    paths := some (.table ((∅ : AList fun _ : String => EntryMember).insert "1" (.entry e.raw))) }

def bufferRequest (current : CoeffEntry) : Request where
  requestID := "run_1000_1"
  pathID := some 1
  reason := "buffer_full"
  minSamplesPerPath := some 1
  currentAlpha := some current.alpha
  currentBeta := some current.beta
  currentGamma := some current.gamma
  experimentElapsed := some (-1)

def smoothedController : TriggerController :=
  let uc := newUtilityController .qaccessT "run" none { bufferFullConfig with coeffSmoothing := 0.2 }
    ⟨.json (entryDocument ⟨0.6, 0.3, 0.1⟩), 1⟩
  { uc with
    toUtilityController := (uc.toUtilityController.maybeReloadCoefficients 2
      ⟨.json (entryDocument ⟨0.6, 0.2, 0.1⟩), 2⟩).1 }

theorem smoothed_request_is_not_answered :
    (smoothedController.writeBufferFullTrigger ⟨1000000000, false, false⟩ 1).2 =
        some (bufferRequest ⟨0.6, 0.28, 0.1⟩) ∧
      pathSamples.rows ≠ [] ∧
      processRequest activeSettings (fun _ _ => 0)
        { filesWith (entryDocument ⟨0.6, 0.2, 0.1⟩) with
          request := some (bufferRequest ⟨0.6, 0.28, 0.1⟩) } = .error .stopIteration := by
  refine ⟨?_, ?_, ?_⟩
  · decide +kernel
  · exact List.cons_ne_nil _ _
  · decide +kernel

theorem request_answered_example :
    let uc := newUtilityController .qaccessT "run" none bufferFullConfig
      ⟨.json (entryDocument ⟨0.6, 0.2, 0.1⟩), 1⟩
    let files := { filesWith (entryDocument ⟨0.6, 0.2, 0.1⟩) with
      request := some (bufferRequest ⟨0.6, 0.2, 0.1⟩) }
    (uc.writeBufferFullTrigger ⟨1000000000, false, false⟩ 1).2 =
        some (bufferRequest ⟨0.6, 0.2, 0.1⟩) ∧
      ∀ model, Answered activeSettings model files "run_1000_1" := by
  intro uc files
  have hwrite : (uc.writeBufferFullTrigger ⟨1000000000, false, false⟩ 1).2 =
      some (bufferRequest ⟨0.6, 0.2, 0.1⟩) := by
    decide +kernel
  refine ⟨hwrite, (request_answered_iff (.inr rfl) (Prod.ext rfl hwrite) rfl rfl).mpr {
    trimmed := by decide +kernel
    reason := by decide +kernel
    fresh := .inr List.not_mem_nil
    active := by decide +kernel
    countable := ?_
    readable := ?_
    comparable := ?_
    convertible := ?_ }⟩
  · intro _ row hrow _
    have hpath : row .pathID = .number 1 ∧ ∃ q, row .senderBytesTotal = .number q := by
      rcases List.mem_cons.mp hrow with rfl | hrow
      · exact ⟨rfl, _, rfl⟩
      · cases List.mem_singleton.mp hrow
        exact ⟨rfl, _, rfl⟩
    obtain ⟨hpath, q, hsent⟩ := hpath
    refine ⟨fun negative => ?_, fun _ _ _ negative => ?_⟩
    · rw [hpath]
      exact nofun
    · rw [hsent]
      exact nofun
  · exact ⟨⟨0.6, 0.2, 0.1⟩, by decide +kernel⟩
  · intro _ _ resolved _ _ _
    have hcurrent : currentCoeffs (bufferRequest ⟨0.6, 0.2, 0.1⟩) resolved = ⟨0.6, 0.2, 0.1⟩ := by
      norm_num [currentCoeffs, bufferRequest, currentOr]
    rw [hcurrent]
    exact .inr ⟨by decide +kernel, .inr ⟨⟨0.6, 0.2, 0.1⟩, by decide +kernel, by decide +kernel⟩⟩
  · intro _ _ doc _ _ _ hload _ _
    have hkeys : (loadCoeffsDoc files.coeffs).map keysConvert = .ok true := by decide +kernel
    rw [hload] at hkeys
    exact Except.ok.inj hkeys

end MpQuic.QAccess

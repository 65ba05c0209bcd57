import Mathlib
import MpQuic.Library.Run

namespace MpQuic.QAccess

open MpQuic.Library Function

-- A path ID has eight bits.
abbrev SamplePath := Fin 256

-- A record of the sample file: the header, or a row with the text in its column `path_id`.
inductive Record where
  | header
  | row (pathCell : String)
  deriving DecidableEq

def pathCell (pathID : SamplePath) : String :=
  Nat.repr pathID.val

-- A writer has records that are not in the file yet. It keeps an error for ever, and it has
-- one if it must write to a file that was closed.
structure SampleWriter where
  buffer : List Record
  failed : Bool
  closed : Bool
  deriving DecidableEq

-- What goes wrong in a call. A flush can fail after some of the records.
structure Faults where
  mkdirAll : Bool
  openFile : Bool
  writeHeader : Bool
  writeRow : Bool
  flush : Option Nat
  close : Bool
  remove : Bool
  openRead : Bool
  readAll : Bool
  openTmp : Bool
  writeTmp : Bool
  closeTmp : Bool
  rename : Bool
  deriving DecidableEq

def Faults.none : Faults where
  mkdirAll := false
  openFile := false
  writeHeader := false
  writeRow := false
  flush := Option.none
  close := false
  remove := false
  openRead := false
  readAll := false
  openTmp := false
  writeTmp := false
  closeTmp := false
  rename := false

def Faults.rewriteFails (faults : Faults) : Bool :=
  faults.openRead || faults.readAll || faults.openTmp || faults.writeTmp || faults.closeTmp ||
    faults.rename

inductive SampleError where
  | mkdirAll
  | openFile
  | write
  | flush
  | close
  | remove
  | openRead
  | readAll
  | pathColumnMissing
  | openTmp
  | writeTmp
  | closeTmp
  | rename
  deriving DecidableEq

-- The exporter and the file at its path. The file handle and the writer are set together. A
-- pending row is the text of its path column.
structure SampleExporter where
  maxRows : Int
  rowsWritten : Int
  rowsWrittenPerPath : SamplePath → Int
  opened : Bool
  writer : Option SampleWriter
  pending : SamplePath → Option String
  disk : Option (List Record)

def newQAccessSampleExporter (maxRows : Int) (disk : Option (List Record)) : SampleExporter where
  maxRows := maxRows
  rowsWritten := 0
  rowsWrittenPerPath := fun _ => 0
  opened := false
  writer := none
  pending := fun _ => none
  disk := disk

namespace SampleExporter

def pendingRows (e : SampleExporter) : Int :=
  (Finset.univ.filter fun pathID => (e.pending pathID).isSome).card

def bufferSize (e : SampleExporter) : Int :=
  e.rowsWritten + e.pendingRows

def atCapacity (e : SampleExporter) : Bool :=
  if e.maxRows ≤ 0 then false else e.maxRows ≤ e.bufferSize

def flush (e : SampleExporter) (fault : Option Nat) : SampleExporter :=
  match e.writer with
  | none => e
  | some w =>
    if w.failed || w.buffer = [] then e
    else
      match if w.closed then some 0 else fault with
      | none =>
        { e with
          disk := e.disk.map (· ++ w.buffer)
          writer := some { w with buffer := [] } }
      | some landed =>
        { e with
          disk := e.disk.map (· ++ w.buffer.take landed)
          writer := some { w with failed := true } }

-- `e.writer.Error() != nil`
def writerFailed (e : SampleExporter) : Bool :=
  e.writer.any SampleWriter.failed

def write (e : SampleExporter) (record : Record) : SampleExporter :=
  { e with writer := e.writer.map fun w => { w with buffer := w.buffer ++ [record] } }

def failWriter (e : SampleExporter) : SampleExporter :=
  { e with writer := e.writer.map fun w => { w with failed := true } }

def ensureOpenLocked (e : SampleExporter) (faults : Faults) :
    SampleExporter × Option SampleError :=
  if e.opened then (e, none)
  else if faults.mkdirAll then (e, some .mkdirAll)
  else
    let writeHeader := e.disk.isNone
    if faults.openFile then (e, some .openFile)
    else
      let e := { e with disk := some (e.disk.getD []), writer := some ⟨[], false, false⟩ }
      if writeHeader then
        if faults.writeHeader then (e.failWriter, some .write)
        else ({ e.write .header with opened := true }, none)
      else ({ e with opened := true }, none)

def flushPendingLabelLocked (e : SampleExporter) (pathID : SamplePath) (faults : Faults) :
    SampleExporter × Option SampleError :=
  match e.pending pathID with
  | none => (e, none)
  | some row =>
    match e.ensureOpenLocked faults with
    | (e, some err) => (e, some err)
    | (e, none) =>
      if faults.writeRow || e.writerFailed then (e.failWriter, some .write)
      else
        let e := (e.write (.row row)).flush faults.flush
        let e := { e with pending := Function.update e.pending pathID none }
        if e.writerFailed then (e, some .flush)
        else
          ({ e with
              rowsWritten := e.rowsWritten + 1
              rowsWrittenPerPath := Function.update e.rowsWrittenPerPath pathID
                (e.rowsWrittenPerPath pathID + 1) },
            none)

def flushPaths (faults : SamplePath → Faults) : SampleExporter → List SamplePath →
    SampleExporter × Option SampleError
  | e, [] => (e, none)
  | e, pathID :: rest =>
    match e.flushPendingLabelLocked pathID (faults pathID) with
    | (e, some err) => (e, some err)
    | (e, none) => flushPaths faults e rest

-- The keys of a map come in any order.
def flushAllPending (e : SampleExporter) (order : List SamplePath) (faults : SamplePath → Faults) :
    SampleExporter × Option SampleError :=
  flushPaths faults e
    ((order ++ List.finRange 256).dedup.filter fun pathID => (e.pending pathID).isSome)

def closeFile (e : SampleExporter) (faults : Faults) : SampleExporter × Option SampleError :=
  match e.writer with
  | none => (e, none)
  | some w =>
    ({ e with writer := some { w with closed := true } },
      if faults.close || w.closed then some .close else none)

def resetBuffer (e : SampleExporter) (faults : Faults) : SampleExporter × Option SampleError :=
  match (e.flush faults.flush).closeFile faults with
  | (e, some err) => (e, some err)
  | (e, none) =>
    if faults.remove && e.disk.isSome then (e, some .remove)
    else (newQAccessSampleExporter e.maxRows none, none)

-- The file is rewritten without the rows of the path, and these are subtracted from the count
-- of all rows. The path's own count was reset before.
def rewriteWithout (e : SampleExporter) (pathID : SamplePath) (faults : Faults) :
    SampleExporter × Option SampleError :=
  match e.disk with
  | none => (e, none)
  | some records =>
    if faults.openRead then (e, some .openRead)
    else if faults.readAll then (e, some .readAll)
    else
      match records with
      | [] => (e, none)
      | .row _ :: _ => (e, some .pathColumnMissing)
      | .header :: rows =>
        let kept := rows.filter fun record => record ≠ .row (pathCell pathID)
        let removed := rows.countP fun record => record = .row (pathCell pathID)
        if faults.openTmp then (e, some .openTmp)
        else if faults.writeTmp then (e, some .writeTmp)
        else if faults.closeTmp then (e, some .closeTmp)
        else if faults.rename then (e, some .rename)
        else
          ({ e with
              disk := some (.header :: kept)
              rowsWritten := max 0 (e.rowsWritten - removed) },
            none)

def forgetPath (e : SampleExporter) (pathID : SamplePath) : SampleExporter :=
  { e with
    pending := Function.update e.pending pathID none
    rowsWrittenPerPath := Function.update e.rowsWrittenPerPath pathID 0 }

def dropWriter (e : SampleExporter) : SampleExporter :=
  if e.writer.isSome then { e with writer := none, opened := false } else e

def removePathRows (e : SampleExporter) (pathID : SamplePath) (faults : Faults) :
    SampleExporter × Option SampleError :=
  let e := e.forgetPath pathID
  if !e.opened && e.writer.isNone && e.disk.isNone then (e, none)
  else
    match (e.flush faults.flush).closeFile faults with
    | (e, some err) => (e, some err)
    | (e, none) => e.dropWriter.rewriteWithout pathID faults

def recordPending (e : SampleExporter) (row : String) (pathID : SamplePath) (faults : Faults) :
    SampleExporter × Option SampleError :=
  if e.atCapacity then (e, none)
  else
    match e.flushPendingLabelLocked pathID faults with
    | (e, some err) => (e, some err)
    | (e, none) => ({ e with pending := Function.update e.pending pathID (some row) }, none)

end SampleExporter

inductive SampleCall where
  | recordPending (row : String) (pathID : SamplePath) (faults : Faults)
  | flushAllPending (order : List SamplePath) (faults : SamplePath → Faults)
  | resetBuffer (faults : Faults)
  | removePathRows (pathID : SamplePath) (faults : Faults)

namespace SampleExporter

def onCall (e : SampleExporter) : SampleCall → SampleExporter × Option SampleError
  | .recordPending row pathID faults => e.recordPending row pathID faults
  | .flushAllPending order faults => e.flushAllPending order faults
  | .resetBuffer faults => e.resetBuffer faults
  | .removePathRows pathID faults => e.removePathRows pathID faults

def sampleStep (e : SampleExporter) (call : SampleCall) :
    Option (SampleExporter × List (Option SampleError)) :=
  some ((e.onCall call).1, [(e.onCall call).2])

structure Counts (e : SampleExporter) : Prop where
  sum : e.rowsWritten = ∑ pathID, e.rowsWrittenPerPath pathID
  within : e.rowsWritten + e.pendingRows ≤ e.maxRows
  nonneg : ∀ pathID, 0 ≤ e.rowsWrittenPerPath pathID

def rowsOnDisk (e : SampleExporter) (faults : Faults) : Option (List Record) :=
  match (e.flush faults.flush).disk with
  | some (.header :: rows) => some rows
  | _ => none

def rewrites (e : SampleExporter) (faults : Faults) : Bool :=
  (e.rowsOnDisk faults).isSome && !(e.writer.any fun w => faults.close || w.closed) &&
    !faults.rewriteFails

def pathRowsOnDisk (e : SampleExporter) (pathID : SamplePath) (faults : Faults) : Nat :=
  ((e.rowsOnDisk faults).getD []).countP fun record => record = .row (pathCell pathID)

-- When the rows of a path are removed, the file has as many of them as were counted for it. If
-- the file cannot be rewritten, none were counted. (If all rows are those of the path, the file
-- may have more: the count does not become negative.)
def Accounted (e : SampleExporter) : SampleCall → Prop
  | .removePathRows pathID faults =>
    (e.rewrites faults = true →
      e.pathRowsOnDisk pathID faults = e.rowsWrittenPerPath pathID ∨
        (e.rowsWrittenPerPath pathID = e.rowsWritten ∧
          e.rowsWritten ≤ e.pathRowsOnDisk pathID faults)) ∧
    (e.rewrites faults = false → e.rowsWrittenPerPath pathID = 0)
  | _ => True

instance (e : SampleExporter) : (call : SampleCall) → Decidable (e.Accounted call)
  | .removePathRows _ _ => inferInstanceAs (Decidable (_ ∧ _))
  | .recordPending _ _ _ | .flushAllPending _ _ | .resetBuffer _ => isTrue trivial

section Frame

structure SameCounts (e next : SampleExporter) : Prop where
  maxRows : next.maxRows = e.maxRows
  rowsWritten : next.rowsWritten = e.rowsWritten
  perPath : next.rowsWrittenPerPath = e.rowsWrittenPerPath
  pending : next.pending = e.pending

variable {e next last : SampleExporter}

theorem SameCounts.refl (e : SampleExporter) : SameCounts e e :=
  ⟨rfl, rfl, rfl, rfl⟩

theorem SameCounts.trans (h : SameCounts e next) (h' : SameCounts next last) : SameCounts e last :=
  ⟨h'.maxRows.trans h.maxRows, h'.rowsWritten.trans h.rowsWritten, h'.perPath.trans h.perPath,
    h'.pending.trans h.pending⟩

theorem SameCounts.counts (h : SameCounts e next) (hc : e.Counts) : next.Counts := by
  refine ⟨?_, ?_, ?_⟩
  · rw [h.rowsWritten, h.perPath]
    exact hc.sum
  · unfold pendingRows
    rw [h.rowsWritten, h.pending, h.maxRows]
    exact hc.within
  · rw [h.perPath]
    exact hc.nonneg

theorem sameCounts_flush (e : SampleExporter) (fault : Option Nat) :
    SameCounts e (e.flush fault) := by
  unfold flush
  split
  · exact .refl e
  · split
    · exact .refl e
    · split <;> exact ⟨rfl, rfl, rfl, rfl⟩

theorem sameCounts_closeFile (e : SampleExporter) (faults : Faults) :
    SameCounts e (e.closeFile faults).1 := by
  unfold closeFile
  split <;> exact ⟨rfl, rfl, rfl, rfl⟩

theorem sameCounts_ensureOpenLocked (e : SampleExporter) (faults : Faults) :
    SameCounts e (e.ensureOpenLocked faults).1 := by
  unfold ensureOpenLocked
  dsimp only
  split_ifs <;> exact ⟨rfl, rfl, rfl, rfl⟩

end Frame

section Counting

variable {e next : SampleExporter}

theorem pendingRows_update_none {pathID : SamplePath}
    (h : next.pending = update e.pending pathID none) :
    next.pendingRows = if (e.pending pathID).isSome then e.pendingRows - 1 else e.pendingRows := by
  have hfilter : (Finset.univ.filter fun other =>
      (update e.pending pathID none other).isSome) =
      (Finset.univ.filter fun other => (e.pending other).isSome).erase pathID := by
    ext other
    by_cases hsame : other = pathID
    · simp [hsame]
    · simp [hsame]
  unfold pendingRows
  rw [h, hfilter]
  split
  next hsome =>
    rw [Finset.card_erase_of_mem (by simpa using hsome)]
    have hpos : 0 < (Finset.univ.filter fun other => (e.pending other).isSome).card :=
      Finset.card_pos.mpr ⟨pathID, by simpa using hsome⟩
    omega
  next hnone => rw [Finset.erase_eq_of_notMem (by simpa using hnone)]

theorem pendingRows_update_some {pathID : SamplePath} {row : String}
    (h : next.pending = update e.pending pathID (some row)) :
    next.pendingRows ≤ e.pendingRows + 1 := by
  have hfilter : (Finset.univ.filter fun other =>
      (update e.pending pathID (some row) other).isSome) ⊆
      insert pathID (Finset.univ.filter fun other => (e.pending other).isSome) := by
    intro other hother
    by_cases hsame : other = pathID
    · simp [hsame]
    · simpa [hsame] using hother
  unfold pendingRows
  rw [h]
  exact_mod_cast (Finset.card_le_card hfilter).trans (Finset.card_insert_le _ _)

theorem sum_update (f : SamplePath → Int) (pathID : SamplePath) (n : Int) :
    ∑ other, update f pathID n other = ∑ other, f other - f pathID + n := by
  rw [Finset.sum_update_of_mem (Finset.mem_univ pathID),
    ← Finset.add_sum_erase _ f (Finset.mem_univ pathID), Finset.sdiff_singleton_eq_erase]
  ring

structure Takes (e next : SampleExporter) (pathID : SamplePath) (written : Int) : Prop where
  maxRows : next.maxRows = e.maxRows
  rowsWritten : next.rowsWritten = e.rowsWritten + written
  perPath : next.rowsWrittenPerPath =
    Function.update e.rowsWrittenPerPath pathID (e.rowsWrittenPerPath pathID + written)
  pending : next.pending = Function.update e.pending pathID none

theorem flushPendingLabelLocked_cases (e : SampleExporter) (pathID : SamplePath) (faults : Faults) :
    SameCounts e (e.flushPendingLabelLocked pathID faults).1 ∨
      (e.pending pathID).isSome ∧ ∃ written, 0 ≤ written ∧ written ≤ 1 ∧
        Takes e (e.flushPendingLabelLocked pathID faults).1 pathID written := by
  unfold flushPendingLabelLocked
  cases hpending : e.pending pathID with
  | none => exact .inl (.refl e)
  | some row =>
    have hopen := sameCounts_ensureOpenLocked e faults
    dsimp only
    generalize e.ensureOpenLocked faults = result at hopen
    obtain ⟨opened, err⟩ := result
    cases err with
    | some err => exact .inl hopen
    | none =>
      dsimp only at hopen ⊢
      split
      · exact .inl (hopen.trans ⟨rfl, rfl, rfl, rfl⟩)
      · have hwrite : SameCounts opened (opened.write (.row row)) := ⟨rfl, rfl, rfl, rfl⟩
        have hsame := hopen.trans (hwrite.trans (sameCounts_flush _ faults.flush))
        generalize (opened.write (.row row)).flush faults.flush = flushed at hsame
        refine .inr ⟨rfl, ?_⟩
        split
        · refine ⟨0, Int.le_refl _, by norm_num, hsame.maxRows, ?_, ?_, ?_⟩
          · rw [Int.add_zero, ← hsame.rowsWritten]
          · rw [Int.add_zero, update_eq_self, ← hsame.perPath]
          · rw [← hsame.pending]
        · refine ⟨1, by norm_num, Int.le_refl _, hsame.maxRows, ?_, ?_, ?_⟩
          · rw [← hsame.rowsWritten]
          · rw [← hsame.perPath]
          · rw [← hsame.pending]

theorem SameCounts.bufferSize (h : SameCounts e next) : next.bufferSize = e.bufferSize := by
  unfold SampleExporter.bufferSize pendingRows
  rw [h.rowsWritten, h.pending]

theorem Takes.counts {pathID : SamplePath} {written : Int} (h : Takes e next pathID written)
    (hc : e.Counts) (hsome : (e.pending pathID).isSome) (hpos : 0 ≤ written) (hone : written ≤ 1) :
    next.Counts ∧ next.bufferSize ≤ e.bufferSize := by
  have hwithin := hc.within
  have hrows := pendingRows_update_none h.pending
  rw [if_pos hsome] at hrows
  refine ⟨⟨?_, ?_, fun other => ?_⟩, ?_⟩
  · rw [h.rowsWritten, h.perPath, sum_update, hc.sum]
    ring
  · rw [h.rowsWritten, hrows, h.maxRows]
    omega
  · have hother := hc.nonneg other
    rw [h.perPath]
    by_cases hsame : other = pathID
    · rw [hsame, update_self]
      rw [hsame] at hother
      omega
    · rw [update_of_ne hsame]
      exact hother
  · unfold SampleExporter.bufferSize
    rw [h.rowsWritten, hrows]
    omega

theorem counts_flushPendingLabelLocked (hc : e.Counts) (pathID : SamplePath) (faults : Faults) :
    (e.flushPendingLabelLocked pathID faults).1.Counts ∧
      (e.flushPendingLabelLocked pathID faults).1.maxRows = e.maxRows ∧
      (e.flushPendingLabelLocked pathID faults).1.bufferSize ≤ e.bufferSize := by
  obtain hsame | ⟨hsome, written, hpos, hone, htakes⟩ :=
    flushPendingLabelLocked_cases e pathID faults
  · exact ⟨hsame.counts hc, hsame.maxRows, hsame.bufferSize.le⟩
  · obtain ⟨hcounts, hsize⟩ := htakes.counts hc hsome hpos hone
    exact ⟨hcounts, htakes.maxRows, hsize⟩

theorem counts_flushPaths (hc : e.Counts) (faults : SamplePath → Faults) (ids : List SamplePath) :
    (flushPaths faults e ids).1.Counts ∧ (flushPaths faults e ids).1.maxRows = e.maxRows := by
  induction ids generalizing e with
  | nil => exact ⟨hc, rfl⟩
  | cons pathID rest ih =>
    obtain ⟨hcounts, hmaxRows, -⟩ := counts_flushPendingLabelLocked hc pathID (faults pathID)
    unfold flushPaths
    generalize e.flushPendingLabelLocked pathID (faults pathID) = result at hcounts hmaxRows ⊢
    obtain ⟨flushed, err⟩ := result
    cases err with
    | some err => exact ⟨hcounts, hmaxRows⟩
    | none =>
      obtain ⟨hlast, hsame⟩ := ih hcounts
      exact ⟨hlast, hsame.trans hmaxRows⟩

theorem counts_recordPending (hc : e.Counts) (hmax : 0 < e.maxRows) (row : String)
    (pathID : SamplePath) (faults : Faults) :
    (e.recordPending row pathID faults).1.Counts ∧
      (e.recordPending row pathID faults).1.maxRows = e.maxRows := by
  unfold recordPending
  split
  · exact ⟨hc, rfl⟩
  next hroom =>
    have hsize : e.bufferSize < e.maxRows := by
      unfold atCapacity at hroom
      rw [if_neg (by omega)] at hroom
      simpa using hroom
    obtain ⟨hcounts, hmaxRows, hle⟩ := counts_flushPendingLabelLocked hc pathID faults
    generalize e.flushPendingLabelLocked pathID faults = result at hcounts hmaxRows hle
    obtain ⟨flushed, err⟩ := result
    cases err with
    | some err => exact ⟨hcounts, hmaxRows⟩
    | none =>
      have hrows := @pendingRows_update_some flushed
        { flushed with pending := update flushed.pending pathID (some row) } pathID row rfl
      refine ⟨⟨hcounts.sum, ?_, hcounts.nonneg⟩, hmaxRows⟩
      unfold SampleExporter.bufferSize at hle hsize
      dsimp only at hle hmaxRows ⊢
      omega

theorem counts_new {maxRows : Int} (hmax : 0 ≤ maxRows) (disk : Option (List Record)) :
    (newQAccessSampleExporter maxRows disk).Counts := by
  refine ⟨?_, ?_, fun _ => Int.le_refl _⟩
  · simp [newQAccessSampleExporter]
  · simp [newQAccessSampleExporter, pendingRows, hmax]

theorem counts_resetBuffer (hc : e.Counts) (hmax : 0 < e.maxRows) (faults : Faults) :
    (e.resetBuffer faults).1.Counts ∧ (e.resetBuffer faults).1.maxRows = e.maxRows := by
  have hsame := (sameCounts_flush e faults.flush).trans (sameCounts_closeFile _ faults)
  unfold resetBuffer
  generalize (e.flush faults.flush).closeFile faults = result at hsame
  obtain ⟨closed, err⟩ := result
  cases err with
  | some err => exact ⟨hsame.counts hc, hsame.maxRows⟩
  | none =>
    dsimp only
    split
    · exact ⟨hsame.counts hc, hsame.maxRows⟩
    · have hmaxRows : closed.maxRows = e.maxRows := hsame.maxRows
      exact ⟨counts_new (by omega) none, hmaxRows⟩

end Counting

section Removing

variable {e next : SampleExporter}

theorem flush_congr (hwriter : next.writer = e.writer) (hdisk : next.disk = e.disk)
    (fault : Option Nat) :
    (next.flush fault).disk = (e.flush fault).disk ∧
      (next.flush fault).writer = (e.flush fault).writer := by
  unfold flush
  rw [hwriter]
  cases e.writer with
  | none => exact ⟨hdisk, hwriter⟩
  | some w =>
    dsimp only
    split
    · exact ⟨hdisk, hwriter⟩
    · rw [hdisk]
      split <;> exact ⟨rfl, rfl⟩

theorem flush_closed (e : SampleExporter) (fault : Option Nat) :
    (e.flush fault).writer.map SampleWriter.closed = e.writer.map SampleWriter.closed := by
  unfold flush
  split
  · rfl
  next w hw =>
    split
    · rfl
    · rw [hw]
      split <;> rfl

theorem closeFile_spec (e : SampleExporter) (faults : Faults) :
    (e.closeFile faults).1.disk = e.disk ∧
      ((e.closeFile faults).2 = none ↔
        (e.writer.map SampleWriter.closed).any (faults.close || ·) = false) := by
  unfold closeFile
  split
  next hnone => simp [hnone]
  next w hw => simp [hw]

theorem rewriteWithout_spec (e : SampleExporter) (pathID : SamplePath) (faults : Faults) :
    (e.rewriteWithout pathID faults).1.maxRows = e.maxRows ∧
      (e.rewriteWithout pathID faults).1.pending = e.pending ∧
      (e.rewriteWithout pathID faults).1.rowsWrittenPerPath = e.rowsWrittenPerPath ∧
      (e.rewriteWithout pathID faults).1.rowsWritten =
        match e.disk with
        | some (.header :: rows) =>
          if faults.rewriteFails then e.rowsWritten
          else max 0 (e.rowsWritten - rows.countP fun record => record = .row (pathCell pathID))
        | _ => e.rowsWritten := by
  unfold rewriteWithout
  cases hdisk : e.disk with
  | none => exact ⟨rfl, rfl, rfl, rfl⟩
  | some records =>
    cases records with
    | nil => dsimp only; split_ifs <;> exact ⟨rfl, rfl, rfl, rfl⟩
    | cons first rows =>
      cases first with
      | row cell => dsimp only; split_ifs <;> exact ⟨rfl, rfl, rfl, rfl⟩
      | header =>
        unfold Faults.rewriteFails
        dsimp only
        split_ifs <;> simp_all

theorem removePathRows_spec (e : SampleExporter) (pathID : SamplePath) (faults : Faults) :
    (e.removePathRows pathID faults).1.maxRows = e.maxRows ∧
      (e.removePathRows pathID faults).1.pending = update e.pending pathID none ∧
      (e.removePathRows pathID faults).1.rowsWrittenPerPath =
        update e.rowsWrittenPerPath pathID 0 ∧
      (e.removePathRows pathID faults).1.rowsWritten =
        if e.rewrites faults then max 0 (e.rowsWritten - e.pathRowsOnDisk pathID faults)
        else e.rowsWritten := by
  have hflush := @flush_congr e (e.forgetPath pathID) rfl rfl faults.flush
  have hclosed := flush_closed e faults.flush
  obtain ⟨hdisk, hclose⟩ := closeFile_spec ((e.forgetPath pathID).flush faults.flush) faults
  have hsame := (sameCounts_flush (e.forgetPath pathID) faults.flush).trans
    (sameCounts_closeFile _ faults)
  rw [hflush.1] at hdisk
  rw [hflush.2, hclosed] at hclose
  unfold removePathRows
  dsimp only
  split
  next hnothing =>
    have hnone : e.rowsOnDisk faults = none := by
      simp only [forgetPath, Bool.and_eq_true, Option.isNone_iff_eq_none] at hnothing
      simp [rowsOnDisk, flush, hnothing.1.2, hnothing.2]
    refine ⟨rfl, rfl, rfl, ?_⟩
    rw [if_neg (by simp [rewrites, hnone])]
    rfl
  next hfile =>
    generalize ((e.forgetPath pathID).flush faults.flush).closeFile faults = result
      at hdisk hclose hsame
    obtain ⟨closed, err⟩ := result
    cases err with
    | some err =>
      refine ⟨hsame.maxRows, hsame.pending, hsame.perPath, hsame.rowsWritten.trans ?_⟩
      have hany : (e.writer.map SampleWriter.closed).any (faults.close || ·) = true := by
        by_contra hno
        exact absurd (hclose.mpr (by simpa using hno)) (Option.some_ne_none err)
      rw [if_neg]
      · rfl
      · rw [Option.any_map] at hany
        simp [rewrites, hany]
    | none =>
      have hany := hclose.mp rfl
      rw [Option.any_map] at hany
      have hdrop : SameCounts closed closed.dropWriter ∧ closed.dropWriter.disk = closed.disk := by
        unfold dropWriter
        split <;> exact ⟨⟨rfl, rfl, rfl, rfl⟩, rfl⟩
      have hkept := hsame.trans hdrop.1
      obtain ⟨hmaxRows, hpending, hperPath, hrows⟩ :=
        rewriteWithout_spec closed.dropWriter pathID faults
      refine ⟨hmaxRows.trans hkept.maxRows, hpending.trans hkept.pending,
        hperPath.trans hkept.perPath, hrows.trans ?_⟩
      rw [hdrop.2, hdisk, hkept.rowsWritten]
      unfold rewrites pathRowsOnDisk rowsOnDisk
      rw [hany]
      split
      · cases faults.rewriteFails <;> rfl
      · rfl

theorem Counts.perPath_le (hc : e.Counts) (pathID : SamplePath) :
    e.rowsWrittenPerPath pathID ≤ e.rowsWritten := by
  rw [hc.sum]
  exact Finset.single_le_sum (fun other _ => hc.nonneg other) (Finset.mem_univ pathID)

theorem sum_removePathRows (hc : e.Counts) (pathID : SamplePath) (faults : Faults) :
    (e.removePathRows pathID faults).1.rowsWritten =
        ∑ other, (e.removePathRows pathID faults).1.rowsWrittenPerPath other ↔
      e.Accounted (.removePathRows pathID faults) := by
  obtain ⟨-, -, hperPath, hrows⟩ := removePathRows_spec e pathID faults
  have hnonneg := hc.nonneg pathID
  have hle := hc.perPath_le pathID
  rw [hrows, hperPath, sum_update, ← hc.sum]
  simp only [Accounted]
  cases e.rewrites faults with
  | true =>
    simp only [↓reduceIte, forall_const, reduceCtorEq, false_imp_iff, and_true]
    omega
  | false =>
    simp only [reduceCtorEq, ↓reduceIte, false_imp_iff, forall_const, true_and]
    omega

theorem counts_removePathRows (hc : e.Counts) {pathID : SamplePath} {faults : Faults}
    (haccounted : e.Accounted (.removePathRows pathID faults)) :
    (e.removePathRows pathID faults).1.Counts := by
  have hsum := (sum_removePathRows hc pathID faults).mpr haccounted
  obtain ⟨hmaxRows, hpending, hperPath, hrows⟩ := removePathRows_spec e pathID faults
  have hpendingRows := pendingRows_update_none hpending
  have hwithin := hc.within
  have hnonneg : 0 ≤ e.rowsWritten := (hc.nonneg pathID).trans (hc.perPath_le pathID)
  refine ⟨hsum, ?_, fun other => ?_⟩
  · have hless : (e.removePathRows pathID faults).1.rowsWritten ≤ e.rowsWritten := by
      rw [hrows]
      split <;> omega
    have hfewer : (e.removePathRows pathID faults).1.pendingRows ≤ e.pendingRows := by
      rw [hpendingRows]
      split <;> omega
    rw [hmaxRows]
    omega
  · rw [hperPath]
    by_cases hsame : other = pathID
    · rw [hsame, update_self]
    · rw [update_of_ne hsame]
      exact hc.nonneg other

end Removing

section Runs

variable {e : SampleExporter}

theorem maxRows_onCall (hc : e.Counts) (hmax : 0 < e.maxRows) (call : SampleCall) :
    (e.onCall call).1.maxRows = e.maxRows := by
  cases call with
  | recordPending row pathID faults => exact (counts_recordPending hc hmax row pathID faults).2
  | flushAllPending order faults => exact (counts_flushPaths hc faults _).2
  | resetBuffer faults => exact (counts_resetBuffer hc hmax faults).2
  | removePathRows pathID faults => exact (removePathRows_spec e pathID faults).1

theorem counts_onCall_iff (hc : e.Counts) (hmax : 0 < e.maxRows) (call : SampleCall) :
    (e.onCall call).1.Counts ↔ e.Accounted call := by
  cases call with
  | recordPending row pathID faults =>
    exact ⟨fun _ => trivial, fun _ => (counts_recordPending hc hmax row pathID faults).1⟩
  | flushAllPending order faults =>
    exact ⟨fun _ => trivial, fun _ => (counts_flushPaths hc faults _).1⟩
  | resetBuffer faults => exact ⟨fun _ => trivial, fun _ => (counts_resetBuffer hc hmax faults).1⟩
  | removePathRows pathID faults =>
    exact ⟨fun h => (sum_removePathRows hc pathID faults).mp h.sum, counts_removePathRows hc⟩

end Runs

end SampleExporter

-- Whatever stands in the file at the start and whatever goes wrong, the buffer counts what it
-- holds after every part of a run, exactly if rows are only removed from a file that has those
-- that were counted.
theorem sample_buffer_counts_iff {maxRows : Int} (hmax : 0 < maxRows) (disk : Option (List Record))
    (calls : List SampleCall) :
    (∀ first second, calls = first ++ second → ∃ e errs,
      run SampleExporter.sampleStep (newQAccessSampleExporter maxRows disk) first = some (e, errs) ∧
        e.Counts) ↔
      Along SampleExporter.sampleStep SampleExporter.Accounted (newQAccessSampleExporter maxRows disk)
        calls := by
  refine run_reaches_iff (fun e => e.Counts ∧ 0 < e.maxRows) SampleExporter.Counts
    (fun _ hinv => hinv.1) ?_ ?_ calls ⟨SampleExporter.counts_new hmax.le disk, hmax⟩
  · rintro e call ⟨hc, hpos⟩ hnow
    exact ⟨_, _, rfl, (SampleExporter.counts_onCall_iff hc hpos call).mpr hnow,
      (SampleExporter.maxRows_onCall hc hpos call).symm ▸ hpos⟩
  · rintro e call next out ⟨hc, hpos⟩ hs hafter
    cases hs
    exact (SampleExporter.counts_onCall_iff hc hpos call).mp hafter

theorem sample_buffer_counts_iff_example :
    let calls : List SampleCall :=
      [.recordPending "1" 1 .none, .recordPending "2" 2 .none, .recordPending "1" 1 .none,
        .recordPending "2" 2 .none, .removePathRows 1 .none]
    ∃ e errs,
      run SampleExporter.sampleStep (newQAccessSampleExporter 4 none) calls = some (e, errs) ∧
      e.disk = some [.header, .row "2"] ∧ e.rowsWritten = 1 ∧ e.Counts := by
  intro calls
  have hlast : (run SampleExporter.sampleStep (newQAccessSampleExporter 4 none) calls).map
      (fun reached => (reached.1.disk, reached.1.rowsWritten)) =
      some (some [.header, .row "2"], 1) := by decide +kernel
  obtain ⟨e, errs, hr, hcounts⟩ := (sample_buffer_counts_iff (show (0 : Int) < 4 by norm_num) none
    calls).mpr (by decide +kernel) calls [] (List.append_nil calls).symm
  rw [hr] at hlast
  obtain ⟨hdisk, hrows⟩ := Prod.mk.inj (Option.some.inj hlast)
  exact ⟨e, errs, hr, hdisk, hrows, hcounts⟩

-- The file has two rows of path 1 from an earlier run. They are subtracted from the rows of
-- path 2.
theorem earlier_rows_are_subtracted :
    let calls : List SampleCall :=
      [.recordPending "2" 2 .none, .recordPending "2" 2 .none, .removePathRows 1 .none]
    ∃ e errs, run SampleExporter.sampleStep
        (newQAccessSampleExporter 4 (some [.header, .row "1", .row "1"])) calls = some (e, errs) ∧
      e.rowsWritten = 0 ∧ e.rowsWrittenPerPath 2 = 1 ∧ ¬e.Counts := by
  intro calls
  have hlast : (run SampleExporter.sampleStep
      (newQAccessSampleExporter 4 (some [.header, .row "1", .row "1"])) calls).map
      (fun reached => (reached.1.rowsWritten, reached.1.rowsWrittenPerPath 2)) = some (0, 1) := by
    decide +kernel
  obtain ⟨⟨e, errs⟩, hr, hvalues⟩ := Option.map_eq_some_iff.mp hlast
  obtain ⟨hrows, hpath⟩ := Prod.mk.inj hvalues
  refine ⟨e, errs, hr, hrows, hpath, fun hcounts => ?_⟩
  have hle := hcounts.perPath_le 2
  rw [hrows, hpath] at hle
  exact absurd hle (by decide)

end MpQuic.QAccess

import MpQuic.Library.Run
import MpQuic.QAccess.Trigger

namespace MpQuic.QAccess

open MpQuic.Library List

structure UpdateFiles where
  requestExists : Bool
  response : Option ResponseFields
  deriving DecidableEq

-- What others do to the files. The request may be removed, and the response may become
-- anything; content that cannot be read is `none`.
inductive FileChange where
  | removeRequest
  | replaceResponse (content : Option ResponseFields)
  deriving DecidableEq

inductive FileAction where
  | written (request : Request) (now : Int)
  | consumed (response : ResponseFields) (now : Int)
  | changed (change : FileChange)
  deriving DecidableEq

def UpdateFiles.apply (files : UpdateFiles) : FileAction → UpdateFiles
  | .written _ _ => { files with requestExists := true }
  | .consumed _ _ => files
  | .changed .removeRequest => { files with requestExists := false }
  | .changed (.replaceResponse content) => { files with response := content }

-- A monitor round with what it meets: the coefficients on disk at its start and when a
-- response is consumed, the changes of the files after the response was read, the samples,
-- and whether a request can be written.
structure Round where
  now : Int
  coeffsAtStart : CoeffsDisk
  coeffsAtResponse : CoeffsDisk
  changes : List FileChange
  exporter : ExporterView
  writeFails : Bool

namespace TriggerController

def maybeTriggerCoefficientUpdate (uc : TriggerController) (files : UpdateFiles) (r : Round) :
    TriggerController × List FileAction :=
  let changed := r.changes.map FileAction.changed
  if !uc.phase2MutationAllowed || !uc.config.triggerUpdate then (uc, changed)
  else
    let (uc, consumed) := uc.maybeCheckUpdateResponse r.now r.coeffsAtResponse files.response
    let actions := consumed.toList.map (FileAction.consumed · r.now) ++ changed
    let (uc, written) := uc.maybeWriteRequest r.exporter
      ⟨r.now, (actions.foldl UpdateFiles.apply files).requestExists, r.writeFails⟩
    (uc, actions ++ written.toList.map (FileAction.written · r.now))

def maybeReloadCoefficients (uc : TriggerController) (r : Round) : TriggerController :=
  { uc with
    toUtilityController := (uc.toUtilityController.maybeReloadCoefficients r.now r.coeffsAtStart).1 }

def beginMonitorRound (uc : TriggerController) (files : UpdateFiles) (r : Round) :
    TriggerController × List FileAction :=
  if !uc.phase2MutationAllowed then (uc, r.changes.map FileAction.changed)
  else
    (uc.finalizeMonitorRoundThroughput.maybeReloadCoefficients r).maybeTriggerCoefficientUpdate
      files r

end TriggerController

structure UpdateState where
  uc : TriggerController
  files : UpdateFiles

inductive UpdateEvent where
  | round (r : Round)
  | compute (pm : PathMetrics) (now : Int)
  | change (change : FileChange)

def updateActions (s : UpdateState) : UpdateEvent → TriggerController × List FileAction
  | .round r => s.uc.beginMonitorRound s.files r
  | .compute pm now => (s.uc.compute pm now, [])
  | .change change => (s.uc, [.changed change])

def updateStep (s : UpdateState) (event : UpdateEvent) : Option (UpdateState × List FileAction) :=
  let (uc, actions) := updateActions s event
  some (⟨uc, actions.foldl UpdateFiles.apply s.files⟩, actions)

section Flight

def FileAction.flying (flying : Option String) : FileAction → Option String
  | .written request _ => some request.requestID
  | .consumed _ _ => none
  | .changed _ => flying

def inFlight (log : List FileAction) : Option String :=
  log.foldl FileAction.flying none

def FileAction.active (last : Option Int) : FileAction → Option Int
  | .written _ now => some now
  | .consumed _ now => some now
  | .changed _ => last

def lastActivity (log : List FileAction) : Option Int :=
  log.foldl FileAction.active none

def writtenIDs (log : List FileAction) : List String :=
  log.filterMap fun
    | .written request _ => some request.requestID
    | _ => none

def consumedIDs (log : List FileAction) : List String :=
  log.filterMap fun
    | .consumed response _ => some response.requestID
    | _ => none

-- A request is written only if none is in flight, there is no request file and the cooldown
-- has passed. The response that is consumed is the one in the file, and it is for the
-- request in flight.
def Permitted (cooldown : Int) (files : UpdateFiles) (before : List FileAction) :
    FileAction → Prop
  | .written _ now =>
    inFlight before = none ∧
      (before.foldl UpdateFiles.apply files).requestExists = false ∧
      ∀ last ∈ lastActivity before, cooldown ≤ now - last
  | .consumed response _ =>
    inFlight before = some response.requestID ∧
      (before.foldl UpdateFiles.apply files).response = some response
  | .changed _ => True

end Flight

section RequestIDs

theorem append_cons_right_inj {α : Type} {sep : α} {left left' right right' : List α}
    (hright : sep ∉ right) (hright' : sep ∉ right')
    (h : left ++ sep :: right = left' ++ sep :: right') : right = right' := by
  rcases append_eq_append_iff.mp h with ⟨gap, -, hgap⟩ | ⟨gap, -, hgap⟩
  · cases gap with
    | nil => exact (List.cons.inj hgap).2
    | cons head tail => exact absurd ((List.cons.inj hgap).2 ▸ List.mem_append_right tail
        List.mem_cons_self) hright
  · cases gap with
    | nil => exact (List.cons.inj hgap).2.symm
    | cons head tail => exact absurd ((List.cons.inj hgap).2 ▸ List.mem_append_right tail
        List.mem_cons_self) hright'

theorem formatRequestID_toList (runID : String) (ms : Int) (serial : Nat) :
    (formatRequestID runID ms serial).toList =
      (runID ++ "_" ++ Int.repr ms).toList ++ '_' :: Nat.toDigits 10 serial := by
  simp [formatRequestID, Nat.repr_eq_ofList_toDigits]

theorem formatRequestID_serial {runID : String} {ms ms' : Int} {serial serial' : Nat}
    (h : formatRequestID runID ms serial = formatRequestID runID ms' serial') :
    serial = serial' := by
  have hlist := congrArg String.toList h
  rw [formatRequestID_toList, formatRequestID_toList] at hlist
  have hdigits := append_cons_right_inj Nat.underscore_not_in_toDigits
    Nat.underscore_not_in_toDigits hlist
  apply Nat.repr_inj.mp
  rw [Nat.repr_eq_ofList_toDigits, Nat.repr_eq_ofList_toDigits, hdigits]

theorem formatRequestID_ne_empty (runID : String) (ms : Int) (serial : Nat) :
    formatRequestID runID ms serial ≠ "" := by
  intro h
  have hlist := congrArg String.toList h
  rw [formatRequestID_toList] at hlist
  simp at hlist

end RequestIDs

namespace UtilityController

theorem maybeReloadCoefficients_inflight (uc : UtilityController) (now : Int) (disk : CoeffsDisk) :
    (uc.maybeReloadCoefficients now disk).1.updateInProgress = uc.updateInProgress ∧
      (uc.maybeReloadCoefficients now disk).1.inflightRequestID = uc.inflightRequestID := by
  have happly : ∀ (uc : UtilityController) (doc : CoeffsDocument),
      (uc.applyDocument doc).updateInProgress = uc.updateInProgress ∧
        (uc.applyDocument doc).inflightRequestID = uc.inflightRequestID := by
    intro uc doc
    unfold applyDocument
    dsimp only
    split
    · exact ⟨rfl, rfl⟩
    · split
      · exact ⟨rfl, rfl⟩
      · exact ⟨rfl, rfl⟩
  unfold maybeReloadCoefficients
  dsimp only
  split
  · exact ⟨rfl, rfl⟩
  · split
    · exact ⟨rfl, rfl⟩
    · split
      · exact ⟨rfl, rfl⟩
      · split
        · exact ⟨rfl, rfl⟩
        · split
          · exact ⟨rfl, rfl⟩
          · exact happly _ _

end UtilityController

namespace TriggerController

structure Quiet (uc next : TriggerController) : Prop where
  config : next.config = uc.config
  runID : next.runID = uc.runID
  updateInProgress : next.updateInProgress = uc.updateInProgress
  inflightRequestID : next.inflightRequestID = uc.inflightRequestID
  lastTriggerTime : next.lastTriggerTime = uc.lastTriggerTime
  requestSerial : uc.requestSerial ≤ next.requestSerial

structure Writes (uc : TriggerController) (attempt : Attempt) (next : TriggerController)
    (request : Request) : Prop where
  idle : uc.updateInProgress = false
  absent : attempt.requestExists = false
  config : next.config = uc.config
  runID : next.runID = uc.runID
  updateInProgress : next.updateInProgress = true
  inflightRequestID : next.inflightRequestID = request.requestID
  lastTriggerTime : next.lastTriggerTime = some attempt.now
  requestSerial : uc.requestSerial < next.requestSerial
  requestID :
    request.requestID = formatRequestID uc.runID (unixMilli attempt.now) next.requestSerial

structure Consumes (uc : TriggerController) (now : Int) (response : ResponseFields)
    (next : TriggerController) : Prop where
  busy : uc.updateInProgress = true
  carries : uc.inflightRequestID = response.requestID
  config : next.config = uc.config
  runID : next.runID = uc.runID
  updateInProgress : next.updateInProgress = false
  inflightRequestID : next.inflightRequestID = ""
  lastTriggerTime : next.lastTriggerTime = some now
  requestSerial : next.requestSerial = uc.requestSerial

def Attempts (uc : TriggerController) (attempt : Attempt) :
    TriggerController × Option Request → Prop
  | (next, none) => uc.Quiet next
  | (next, some request) => uc.Writes attempt next request

def Cooled (uc : TriggerController) (now : Int) : Prop :=
  ∀ last ∈ uc.lastTriggerTime, uc.config.triggerCooldown ≤ now - last

theorem Quiet.refl (uc : TriggerController) : uc.Quiet uc :=
  ⟨rfl, rfl, rfl, rfl, rfl, Nat.le_refl _⟩

theorem Quiet.trans {uc middle next : TriggerController} (h : uc.Quiet middle)
    (h' : middle.Quiet next) : uc.Quiet next where
  config := h'.config.trans h.config
  runID := h'.runID.trans h.runID
  updateInProgress := h'.updateInProgress.trans h.updateInProgress
  inflightRequestID := h'.inflightRequestID.trans h.inflightRequestID
  lastTriggerTime := h'.lastTriggerTime.trans h.lastTriggerTime
  requestSerial := h.requestSerial.trans h'.requestSerial

theorem newRequestID_of_allowed {uc : TriggerController} (now : Int)
    (hallowed : uc.phase2MutationAllowed = true) :
    uc.newRequestID now = ({ uc with requestSerial := uc.requestSerial + 1 },
      formatRequestID uc.runID (unixMilli now) (uc.requestSerial + 1)) := by
  unfold newRequestID
  rw [hallowed]
  rfl

theorem writePerPathTrigger_attempts (uc : TriggerController) (attempt : Attempt) (pathID : Nat)
    (reason : String) (globalBuffer : Bool) (minSamplesPerPath : Option Int) :
    uc.Attempts attempt
      (uc.writePerPathTrigger attempt pathID reason globalBuffer minSamplesPerPath) := by
  unfold writePerPathTrigger
  split
  · exact .refl uc
  · rename_i hallowed
    split
    · exact .refl uc
    · rename_i hidle
      split
      · exact .refl uc
      · rename_i habsent
        rw [newRequestID_of_allowed attempt.now (by simpa using hallowed)]
        dsimp only
        split
        · exact ⟨rfl, rfl, rfl, rfl, rfl, Nat.le_succ _⟩
        · exact ⟨by simpa using hidle, by simpa using habsent, rfl, rfl, rfl, rfl, rfl,
            Nat.lt_succ_self _, rfl⟩

theorem maybeTriggerObjectiveUpdate_attempts (uc : TriggerController) (exporter : ExporterView)
    (attempt : Attempt) :
    uc.Attempts attempt (uc.maybeTriggerObjectiveUpdate exporter attempt) ∧
      ((uc.maybeTriggerObjectiveUpdate exporter attempt).2.isSome → uc.Cooled attempt.now) := by
  unfold maybeTriggerObjectiveUpdate
  split
  · exact ⟨.refl uc, nofun⟩
  · split
    · exact ⟨.refl uc, nofun⟩
    · rename_i hcooled
      split
      · exact ⟨.refl uc, nofun⟩
      · rename_i pathID _
        have hwrite := uc.writePerPathTrigger_attempts attempt pathID uc.config.triggerMode false none
        refine ⟨?_, fun _ last hlast => ?_⟩
        · cases hresult : uc.writePerPathTrigger attempt pathID uc.config.triggerMode false none with
          | mk next written =>
            rw [hresult] at hwrite
            cases written with
            | none => exact hwrite
            | some request =>
              exact { hwrite with }
        · rw [Option.mem_def.mp hlast] at hcooled
          simpa using hcooled

theorem cooled_of_cooldownRemaining {uc : TriggerController} {now : Int}
    (h : ¬ 0 < uc.cooldownRemaining now) : uc.Cooled now := by
  intro last hlast
  unfold cooldownRemaining at h
  rw [Option.mem_def.mp hlast] at h
  dsimp only at h
  omega

theorem maybeTriggerBufferUpdate_attempts (uc : TriggerController) (exporter : ExporterView)
    (attempt : Attempt) :
    uc.Attempts attempt (uc.maybeTriggerBufferUpdate exporter attempt) ∧
      ((uc.maybeTriggerBufferUpdate exporter attempt).2.isSome → uc.Cooled attempt.now) := by
  unfold maybeTriggerBufferUpdate
  dsimp only
  split
  · exact ⟨.refl uc, nofun⟩
  · split
    · exact ⟨.refl uc, nofun⟩
    · rename_i hcooled
      refine ⟨?_, fun _ => cooled_of_cooldownRemaining hcooled⟩
      split
      · split
        · exact .refl uc
        · exact uc.writePerPathTrigger_attempts attempt _ _ _ _
      · split
        · split
          · have hwrite := uc.writePerPathTrigger_attempts attempt
              (pickLegacyTriggerPath exporter) "periodic" false none
            unfold writeLegacyTriggerRequest
            cases hresult : uc.writePerPathTrigger attempt (pickLegacyTriggerPath exporter)
                "periodic" false none with
            | mk next written =>
              rw [hresult] at hwrite
              cases written with
              | none => exact hwrite
              | some request =>
                exact { hwrite with }
          · exact .refl uc
        · split
          · exact uc.writePerPathTrigger_attempts attempt _ _ _ _
          · exact .refl uc

theorem maybeWriteRequest_attempts (uc : TriggerController) (exporter : ExporterView)
    (attempt : Attempt) :
    uc.Attempts attempt (uc.maybeWriteRequest exporter attempt) ∧
      ((uc.maybeWriteRequest exporter attempt).2.isSome → uc.Cooled attempt.now) := by
  unfold maybeWriteRequest
  split
  · exact ⟨.refl uc, nofun⟩
  · split
    · exact uc.maybeTriggerObjectiveUpdate_attempts exporter attempt
    · exact uc.maybeTriggerBufferUpdate_attempts exporter attempt

theorem maybeCheckUpdateResponse_cases (uc : TriggerController) (now : Int) (disk : CoeffsDisk)
    (response : Option ResponseFields) :
    uc.maybeCheckUpdateResponse now disk response = (uc, none) ∨
      ∃ next fields, response = some fields ∧ uc.Consumes now fields next ∧
        uc.maybeCheckUpdateResponse now disk response = (next, some fields) := by
  unfold maybeCheckUpdateResponse
  split
  · rename_i hconsumes
    right
    cases response with
    | none => simp [UtilityController.consumes] at hconsumes
    | some fields =>
      refine ⟨_, fields, rfl, ?_, rfl⟩
      have hparts := hconsumes
      simp only [UtilityController.consumes, Bool.and_eq_true, Option.any_some,
        decide_eq_true_eq] at hparts
      have hdone : uc.toUtilityController.maybeCheckUpdateResponse now disk (some fields) =
          { (if (some fields).any fun r => UtilityController.isApplied r.status then
              (uc.toUtilityController.forceReloadCoefficients now disk).1
            else uc.toUtilityController) with updateInProgress := false, inflightRequestID := "" } :=
        if_pos hconsumes
      exact ⟨hparts.1.1.2, hparts.2.symm, rfl, rfl, by rw [hdone], by rw [hdone], rfl, rfl⟩
  · exact .inl rfl

theorem quiet_finalizeMonitorRoundThroughput (uc : TriggerController) :
    uc.Quiet uc.finalizeMonitorRoundThroughput :=
  ⟨rfl, rfl, rfl, rfl, rfl, Nat.le_refl _⟩

theorem quiet_maybeReloadCoefficients (uc : TriggerController) (r : Round) :
    uc.Quiet (uc.maybeReloadCoefficients r) := by
  have hkeep := uc.toUtilityController.maybeReloadCoefficients_inflight r.now r.coeffsAtStart
  exact ⟨rfl, rfl, hkeep.1, hkeep.2, rfl, Nat.le_refl _⟩

theorem quiet_noteActivePathThroughput (uc : TriggerController) (pm : PathMetrics) :
    uc.Quiet (uc.noteActivePathThroughput pm) := by
  unfold noteActivePathThroughput
  split
  · exact .refl uc
  · exact ⟨rfl, rfl, rfl, rfl, rfl, Nat.le_refl _⟩

theorem quiet_observeObjectiveTrigger (uc : TriggerController) (pm : PathMetrics) (now : Int) :
    uc.Quiet (uc.observeObjectiveTrigger pm now) := by
  unfold observeObjectiveTrigger
  split
  · exact .refl uc
  · exact ⟨rfl, rfl, rfl, rfl, rfl, Nat.le_refl _⟩

theorem quiet_compute (uc : TriggerController) (pm : PathMetrics) (now : Int) :
    uc.Quiet (uc.compute pm now) := by
  unfold compute
  dsimp only
  split
  · exact .refl uc
  · split
    · exact (quiet_noteActivePathThroughput uc _).trans (quiet_observeObjectiveTrigger _ _ now)
    · exact quiet_noteActivePathThroughput uc _

end TriggerController

section Log

variable (log : List FileAction)

@[simp] theorem inFlight_snoc (action : FileAction) :
    inFlight (log ++ [action]) = action.flying (inFlight log) :=
  foldl_concat ..

@[simp] theorem lastActivity_snoc (action : FileAction) :
    lastActivity (log ++ [action]) = action.active (lastActivity log) :=
  foldl_concat ..

end Log

structure SingleFlight (cooldown : Int) (runID : String) (files : UpdateFiles)
    (log : List FileAction) (uc : TriggerController) : Prop where
  sameCooldown : uc.config.triggerCooldown = cooldown
  sameRunID : uc.runID = runID
  nonempty : uc.updateInProgress = true ↔ uc.inflightRequestID ≠ ""
  inFlight_eq : inFlight log = if uc.updateInProgress then some uc.inflightRequestID else none
  lastActivity_eq : lastActivity log = uc.lastTriggerTime
  serials : ∀ requestID ∈ writtenIDs log, ∃ ms, ∃ serial ≤ uc.requestSerial,
    requestID = formatRequestID runID ms serial
  flying : ∀ requestID ∈ inFlight log, requestID ∈ writtenIDs log ∧ requestID ∉ consumedIDs log
  answered : consumedIDs log ⊆ writtenIDs log
  written : (writtenIDs log).Nodup
  consumed : (consumedIDs log).Nodup
  permitted : Logged (Permitted cooldown files) log

namespace SingleFlight

variable {cooldown : Int} {runID : String} {files : UpdateFiles} {log : List FileAction}
  {uc next : TriggerController}

section

variable (h : SingleFlight cooldown runID files log uc)

include h

theorem quiet (hquiet : uc.Quiet next) :
    SingleFlight cooldown runID files log next :=
  { h with
    sameCooldown := by rw [hquiet.config, h.sameCooldown]
    sameRunID := hquiet.runID.trans h.sameRunID
    nonempty := by rw [hquiet.updateInProgress, hquiet.inflightRequestID, h.nonempty]
    inFlight_eq := by rw [hquiet.updateInProgress, hquiet.inflightRequestID, h.inFlight_eq]
    lastActivity_eq := h.lastActivity_eq.trans hquiet.lastTriggerTime.symm
    serials := by
      intro requestID hmem
      obtain ⟨ms, serial, hle, heq⟩ := h.serials requestID hmem
      exact ⟨ms, serial, hle.trans hquiet.requestSerial, heq⟩ }

theorem change (change : FileChange) :
    SingleFlight cooldown runID files (log ++ [.changed change]) uc := by
  have hwritten : writtenIDs (log ++ [.changed change]) = writtenIDs log := by
    simp [writtenIDs]
  have hconsumed : consumedIDs (log ++ [.changed change]) = consumedIDs log := by
    simp [consumedIDs]
  refine { h with
    inFlight_eq := by rw [inFlight_snoc]; exact h.inFlight_eq
    lastActivity_eq := by rw [lastActivity_snoc]; exact h.lastActivity_eq
    serials := ?_, flying := ?_, answered := ?_, written := ?_, consumed := ?_
    permitted := h.permitted.snoc trivial }
  · rw [hwritten]
    exact h.serials
  · rw [hwritten, hconsumed, inFlight_snoc]
    exact h.flying
  · rw [hwritten, hconsumed]
    exact h.answered
  · rw [hwritten]
    exact h.written
  · rw [hconsumed]
    exact h.consumed

theorem changes (changes : List FileChange) :
    SingleFlight cooldown runID files (log ++ changes.map .changed) uc := by
  induction changes generalizing log with
  | nil => simpa using h
  | cons first rest ih => simpa using ih (h.change first)

theorem consume {now : Int}
    {response : ResponseFields}
    (hfile : (log.foldl UpdateFiles.apply files).response = some response)
    (hconsumes : uc.Consumes now response next) :
    SingleFlight cooldown runID files (log ++ [.consumed response now]) next := by
  have hflying : inFlight log = some response.requestID := by
    rw [h.inFlight_eq, hconsumes.busy, hconsumes.carries]
    rfl
  have hwritten : writtenIDs (log ++ [.consumed response now]) = writtenIDs log := by
    simp [writtenIDs]
  have hconsumed : consumedIDs (log ++ [.consumed response now]) =
      consumedIDs log ++ [response.requestID] := by
    simp [consumedIDs]
  obtain ⟨hmem, hnew⟩ := h.flying _ hflying
  refine { h with
    sameCooldown := by rw [hconsumes.config, h.sameCooldown]
    sameRunID := hconsumes.runID.trans h.sameRunID
    nonempty := by simp [hconsumes.updateInProgress, hconsumes.inflightRequestID]
    inFlight_eq := by rw [inFlight_snoc, hconsumes.updateInProgress]; rfl
    lastActivity_eq := by rw [lastActivity_snoc, hconsumes.lastTriggerTime]; rfl
    serials := by rw [hwritten, hconsumes.requestSerial]; exact h.serials
    flying := by rw [inFlight_snoc]; exact nofun
    answered := ?_, written := ?_, consumed := ?_
    permitted := h.permitted.snoc ⟨hflying, hfile⟩ }
  · rw [hwritten, hconsumed]
    exact append_subset.mpr ⟨h.answered, cons_subset.mpr ⟨hmem, nil_subset _⟩⟩
  · rw [hwritten]
    exact h.written
  · rw [hconsumed, ← concat_eq_append]
    exact List.Nodup.concat hnew h.consumed

theorem write {attempt : Attempt} {request : Request}
    (hexists : attempt.requestExists = (log.foldl UpdateFiles.apply files).requestExists)
    (hwrites : uc.Writes attempt next request) (hcooled : uc.Cooled attempt.now) :
    SingleFlight cooldown runID files (log ++ [.written request attempt.now]) next := by
  have hnone : inFlight log = none := by
    rw [h.inFlight_eq, hwrites.idle]
    rfl
  have hnew : request.requestID ∉ writtenIDs log := by
    intro hmem
    obtain ⟨ms, serial, hle, heq⟩ := h.serials _ hmem
    rw [hwrites.requestID, h.sameRunID] at heq
    have hserial := formatRequestID_serial heq
    have hlt := hwrites.requestSerial
    omega
  have hwritten : writtenIDs (log ++ [.written request attempt.now]) =
      writtenIDs log ++ [request.requestID] := by
    simp [writtenIDs]
  have hconsumed : consumedIDs (log ++ [.written request attempt.now]) = consumedIDs log := by
    simp [consumedIDs]
  refine { h with
    sameCooldown := by rw [hwrites.config, h.sameCooldown]
    sameRunID := hwrites.runID.trans h.sameRunID
    nonempty := ?_
    inFlight_eq := ?_
    lastActivity_eq := ?_
    serials := ?_, flying := ?_, answered := ?_, written := ?_, consumed := ?_
    permitted := h.permitted.snoc ?_ }
  · rw [hwrites.updateInProgress, hwrites.inflightRequestID, hwrites.requestID]
    simpa using formatRequestID_ne_empty _ _ _
  · rw [inFlight_snoc, hwrites.updateInProgress, hwrites.inflightRequestID]
    rfl
  · rw [lastActivity_snoc, hwrites.lastTriggerTime]
    rfl
  · intro requestID hmem
    rw [hwritten, mem_append, mem_singleton] at hmem
    rcases hmem with hmem | rfl
    · obtain ⟨ms, serial, hle, heq⟩ := h.serials requestID hmem
      exact ⟨ms, serial, hle.trans hwrites.requestSerial.le, heq⟩
    · exact ⟨_, _, Nat.le_refl _, h.sameRunID ▸ hwrites.requestID⟩
  · intro requestID hmem
    rw [inFlight_snoc] at hmem
    obtain rfl : request.requestID = requestID := Option.some.inj hmem
    rw [hwritten, hconsumed]
    exact ⟨mem_append_right _ mem_cons_self, fun hmem => hnew (h.answered hmem)⟩
  · rw [hwritten, hconsumed]
    exact fun _ hmem => mem_append_left _ (h.answered hmem)
  · rw [hwritten, ← concat_eq_append]
    exact List.Nodup.concat hnew h.written
  · rw [hconsumed]
    exact h.consumed
  · refine ⟨hnone, by rw [← hexists, hwrites.absent], ?_⟩
    intro last hlast
    rw [h.lastActivity_eq] at hlast
    rw [← h.sameCooldown]
    exact hcooled last hlast

theorem maybeWriteRequest
    (exporter : ExporterView) (now : Int) (writeFails : Bool) :
    let result := uc.maybeWriteRequest exporter
      ⟨now, (log.foldl UpdateFiles.apply files).requestExists, writeFails⟩
    SingleFlight cooldown runID files (log ++ result.2.toList.map (.written · now)) result.1 := by
  intro result
  obtain ⟨hattempts, hcooled⟩ := uc.maybeWriteRequest_attempts exporter
    ⟨now, (log.foldl UpdateFiles.apply files).requestExists, writeFails⟩
  change TriggerController.Attempts _ _ result at hattempts
  change result.2.isSome → _ at hcooled
  obtain ⟨next, written⟩ := result
  cases written with
  | none => simpa using h.quiet hattempts
  | some request => exact h.write rfl hattempts (hcooled rfl)

theorem maybeTriggerCoefficientUpdate (r : Round) :
    let result := uc.maybeTriggerCoefficientUpdate (log.foldl UpdateFiles.apply files) r
    SingleFlight cooldown runID files (log ++ result.2) result.1 := by
  unfold TriggerController.maybeTriggerCoefficientUpdate
  dsimp only
  split
  · exact h.changes r.changes
  · rcases uc.maybeCheckUpdateResponse_cases r.now r.coeffsAtResponse
      (log.foldl UpdateFiles.apply files).response with hkeep | ⟨next, fields, hfile, hconsumes, hnext⟩
    · rw [hkeep]
      have hwrite := (h.changes r.changes).maybeWriteRequest r.exporter r.now r.writeFails
      simpa [foldl_append, append_assoc] using hwrite
    · rw [hnext]
      have hwrite := ((h.consume hfile hconsumes).changes r.changes).maybeWriteRequest r.exporter
        r.now r.writeFails
      simpa [foldl_append, append_assoc] using hwrite

theorem beginMonitorRound (r : Round) :
    let result := uc.beginMonitorRound (log.foldl UpdateFiles.apply files) r
    SingleFlight cooldown runID files (log ++ result.2) result.1 := by
  unfold TriggerController.beginMonitorRound
  dsimp only
  split
  · exact h.changes r.changes
  · exact ((h.quiet uc.quiet_finalizeMonitorRoundThroughput).quiet
      (TriggerController.quiet_maybeReloadCoefficients _ r)).maybeTriggerCoefficientUpdate r

end

theorem updateActions {s : UpdateState} (h : SingleFlight cooldown runID files log s.uc)
    (hfiles : s.files = log.foldl UpdateFiles.apply files) (event : UpdateEvent) :
    let result := MpQuic.QAccess.updateActions s event
    SingleFlight cooldown runID files (log ++ result.2) result.1 := by
  cases event with
  | round r =>
    have hround := h.beginMonitorRound r
    rw [← hfiles] at hround
    exact hround
  | compute pm now =>
    simpa [MpQuic.QAccess.updateActions] using h.quiet (s.uc.quiet_compute pm now)
  | change change => exact h.change change

end SingleFlight

theorem updateStep_singleFlight {cooldown : Int} {runID : String} {files : UpdateFiles}
    {log : List FileAction} {s : UpdateState} (hfiles : s.files = log.foldl UpdateFiles.apply files)
    (h : SingleFlight cooldown runID files log s.uc) (event : UpdateEvent) :
    ∃ next out, updateStep s event = some (next, out) ∧
      next.files = (log ++ out).foldl UpdateFiles.apply files ∧
      SingleFlight cooldown runID files (log ++ out) next.uc := by
  refine ⟨_, _, rfl, ?_, h.updateActions hfiles event⟩
  rw [foldl_append, ← hfiles]

theorem singleFlight_newUtilityController (variant : Variant) (runID : String)
    (runStart : Option Int) (phase2 : Phase2Config) (disk : CoeffsDisk) (files : UpdateFiles) :
    SingleFlight phase2.triggers.triggerCooldown runID files []
      (newUtilityController variant runID runStart phase2 disk) := by
  have hkeep : ∀ uc : UtilityController,
      (uc.reloadCoefficientsFromDisk disk).updateInProgress = uc.updateInProgress ∧
        (uc.reloadCoefficientsFromDisk disk).inflightRequestID = uc.inflightRequestID := by
    intro uc
    unfold UtilityController.reloadCoefficientsFromDisk
    split
    · exact ⟨rfl, rfl⟩
    · exact ⟨rfl, rfl⟩
  obtain ⟨hprogress, hinflight⟩ :
      (newUtilityController variant runID runStart phase2 disk).updateInProgress = false ∧
        (newUtilityController variant runID runStart phase2 disk).inflightRequestID = "" := hkeep _
  refine ⟨rfl, rfl, ?_, ?_, rfl, nofun, nofun, nil_subset _, nodup_nil, nodup_nil,
    .nil _⟩
  · rw [hprogress, hinflight]
    simp
  · rw [hprogress]
    rfl

-- In every run of a new controller, whatever the clock and the triggers do and whatever
-- becomes of the files, at most one request is in flight.
theorem updates_single_flight (variant : Variant) (runID : String) (runStart : Option Int)
    (phase2 : Phase2Config) (disk : CoeffsDisk) (files : UpdateFiles) (events : List UpdateEvent) :
    ∃ last log, run updateStep ⟨newUtilityController variant runID runStart phase2 disk, files⟩
        events = some (last, log) ∧
      (last.uc.updateInProgress = true ↔ last.uc.inflightRequestID ≠ "") ∧
      Logged (Permitted phase2.triggers.triggerCooldown files) log ∧
      (writtenIDs log).Nodup ∧ (consumedIDs log).Nodup := by
  let start : UpdateState := ⟨newUtilityController variant runID runStart phase2 disk, files⟩
  have halong : Along updateStep (fun _ _ => True) start events := Along.always _ _
  obtain ⟨last, log, hrun, -, hflight⟩ := run_progress
    (fun _ log s => s.files = log.foldl UpdateFiles.apply files ∧
      SingleFlight phase2.triggers.triggerCooldown runID files log s.uc)
    (fun _ _ _ event hinv _ => updateStep_singleFlight hinv.1 hinv.2 event) [] [] start events
    ⟨rfl, singleFlight_newUtilityController variant runID runStart phase2 disk files⟩ halong
  exact ⟨last, log, hrun, hflight.nonempty, hflight.permitted, hflight.written, hflight.consumed⟩

def fullRound (seconds : Int) : Round where
  now := seconds * 1000000000
  coeffsAtStart := ⟨.missing, 0⟩
  coeffsAtResponse := ⟨.missing, 0⟩
  changes := []
  exporter := ⟨fun _ => 20, fun _ _ _ => ⟨[3], some 3, true⟩⟩
  writeFails := false

def bufferFullConfig : Phase2Config where
  owner := true
  coeffReload := true
  coeffReloadInterval := 0
  coeffSmoothing := 1
  triggers :=
    { runtimeExport := true, triggerUpdate := true, triggerMode := defaultTriggerMode
      triggerReferenceStart := 10, triggerReferenceEnd := 30
      triggerActivateSamples := 3, triggerRecoverySamples := 5
      triggerTAbsBps := 500000, triggerTRelative := 0.05
      triggerDAbsMs := 10, triggerDRelative := 0.25, triggerLRatio := 0.002
      triggerOnBufferFull := true, triggerOnThroughputDrop := false, triggerDropPct := 5
      triggerCooldown := 60000000000, triggerPeriodicMs := 0
      minSamplesPerPath := 1, multipathShadowScoring := false, minSenderByteDelta := 1 }

-- The second round finds the response, and the third comes before the cooldown has passed.
example :
    let events : List UpdateEvent := [.round (fullRound 1), .change .removeRequest,
      .change (.replaceResponse (some ⟨"run_1000_1", "NO_UPDATE"⟩)), .round (fullRound 11),
      .round (fullRound 40), .round (fullRound 71)]
    (run updateStep
        ⟨newUtilityController .qaccessT "run" none bufferFullConfig ⟨.missing, 0⟩, ⟨false, none⟩⟩
        events).map (fun result => (writtenIDs result.2, consumedIDs result.2)) =
      some (["run_1000_1", "run_71000_2"], ["run_1000_1"]) := by
  decide +kernel

end MpQuic.QAccess

import MpQuic.Library.Run
import MpQuic.QAccess.Trigger

namespace MpQuic.QAccess

open MpQuic.Library List Function

-- What happens to the trigger of a path. A sample is one that is compared with the reference.
inductive TriggerEntry where
  | sample (pathID : Nat) (deteriorated : Bool)
  | activated (pathID : Nat)
  | recovered (pathID : Nat)
  | requested (pathID : Nat)
  deriving DecidableEq

def TriggerEntry.pathID : TriggerEntry → Nat
  | .sample pathID _ | .activated pathID | .recovered pathID | .requested pathID => pathID

inductive TriggerCall where
  | observeObjectiveTrigger (pm : PathMetrics) (now : Int)
  | maybeTriggerObjectiveUpdate (exporter : ExporterView) (attempt : Attempt)
  | maybeCheckUpdateResponse (now : Int) (disk : CoeffsDisk) (response : Option ResponseFields)

namespace ObjectiveTriggerState

def compared (state : ObjectiveTriggerState) (config : TriggerConfig) (elapsed current : ℚ) :
    Option Bool :=
  let state := { state with current := current }.setReference config elapsed
  if !state.referenceReady || elapsed ≤ config.triggerReferenceEnd then none
  else some (config.objectiveDeteriorated state.reference current).1

def changes (pathID : Nat) (before after : ObjectiveTriggerState) : List TriggerEntry :=
  match before.triggered, after.triggered with
  | false, true => [.activated pathID]
  | true, false => [.recovered pathID]
  | _, _ => []

end ObjectiveTriggerState

namespace TriggerController

def triggerState (uc : TriggerController) (pathID : Nat) : ObjectiveTriggerState :=
  (uc.objectiveTriggerStates pathID).getD .zero

def comparison (uc : TriggerController) (pm : PathMetrics) (now : Int) : Option Bool :=
  if !uc.config.objectiveTriggerEnabled ||
      !uc.config.objectiveTriggerConfigurationValid uc.variant then none
  else (uc.triggerState pm.pathID).compared uc.config (uc.experimentElapsedSeconds now)
    (sanitizeMetric (uc.config.objectiveMetric pm))

def triggerStep (uc : TriggerController) :
    TriggerCall → Option (TriggerController × List TriggerEntry)
  | .observeObjectiveTrigger pm now =>
    let next := uc.observeObjectiveTrigger pm now
    some (next, (uc.comparison pm now).toList.map (.sample pm.pathID) ++
      (uc.triggerState pm.pathID).changes pm.pathID (next.triggerState pm.pathID))
  | .maybeTriggerObjectiveUpdate exporter attempt =>
    let written := uc.maybeTriggerObjectiveUpdate exporter attempt
    some (written.1,
      ((written.2.bind Request.pathID).map Int.toNat).toList.map .requested)
  | .maybeCheckUpdateResponse now disk response =>
    some ((uc.maybeCheckUpdateResponse now disk response).1, [])

end TriggerController

def samplesOf (pathID : Nat) (log : List TriggerEntry) : List Bool :=
  log.filterMap fun
    | .sample p deteriorated => if p = pathID then some deteriorated else none
    | _ => none

def triggeredAfter (pathID : Nat) (log : List TriggerEntry) : Bool :=
  log.foldl (fun triggered entry =>
    match entry with
    | .activated p => if p = pathID then true else triggered
    | .recovered p => if p = pathID then false else triggered
    | _ => triggered) false

def EndsWith (samples : List Bool) (n : Nat) (b : Bool) : Prop :=
  ∃ before, samples = before ++ List.replicate n b

-- The path was activated, and there has been no request for it since.
def Awaiting (pathID : Nat) (log : List TriggerEntry) : Prop :=
  ∃ first since, log = first ++ .activated pathID :: since ∧ .requested pathID ∉ since

-- What must have gone before: a trigger is activated after enough samples that are all worse,
-- it recovers after enough samples that are not, and a request is for an activation that has
-- no other request.
def Hysteresis (config : TriggerConfig) (past : List TriggerEntry) : TriggerEntry → Prop
  | .sample _ _ => True
  | .activated pathID => EndsWith (samplesOf pathID past) config.triggerActivateSamples.toNat true
  | .recovered pathID => EndsWith (samplesOf pathID past) config.triggerRecoverySamples.toNat false
  | .requested pathID => Awaiting pathID past

section Logs

variable {samples : List Bool} {n k : Nat} {b : Bool} {pathID : Nat} {log out : List TriggerEntry}

theorem EndsWith.snoc (h : EndsWith samples n b) : EndsWith (samples ++ [b]) (n + 1) b := by
  obtain ⟨before, rfl⟩ := h
  exact ⟨before, by rw [replicate_succ', append_assoc]⟩

theorem EndsWith.mono (h : EndsWith samples n b) (hle : k ≤ n) : EndsWith samples k b := by
  obtain ⟨before, rfl⟩ := h
  refine ⟨before ++ List.replicate (n - k) b, ?_⟩
  rw [append_assoc, replicate_append_replicate, Nat.sub_add_cancel hle]

theorem endsWith_zero (samples : List Bool) (b : Bool) : EndsWith samples 0 b :=
  ⟨samples, (append_nil samples).symm⟩

theorem Awaiting.append (h : Awaiting pathID log) (hout : .requested pathID ∉ out) :
    Awaiting pathID (log ++ out) := by
  obtain ⟨first, since, rfl, hsince⟩ := h
  refine ⟨first, since ++ out, by simp, fun hmem => ?_⟩
  rcases mem_append.mp hmem with hmem | hmem
  · exact hsince hmem
  · exact hout hmem

theorem samplesOf_append :
    samplesOf pathID (log ++ out) = samplesOf pathID log ++ samplesOf pathID out :=
  filterMap_append

theorem triggeredAfter_append_of_notMem (hactivated : .activated pathID ∉ out)
    (hrecovered : .recovered pathID ∉ out) :
    triggeredAfter pathID (log ++ out) = triggeredAfter pathID log := by
  unfold triggeredAfter
  rw [foldl_append]
  generalize List.foldl _ false log = triggered
  induction out generalizing triggered with
  | nil => rfl
  | cons entry rest ih =>
    rw [mem_cons, not_or] at hactivated hrecovered
    rw [foldl_cons, ih hactivated.2 hrecovered.2]
    cases entry with
    | activated p => exact if_neg fun h : p = pathID => hactivated.1 (by rw [h])
    | recovered p => exact if_neg fun h : p = pathID => hrecovered.1 (by rw [h])
    | sample p deteriorated => rfl
    | requested p => rfl

theorem triggeredAfter_concat_activated : triggeredAfter pathID (log ++ [.activated pathID]) = true := by
  simp [triggeredAfter]

theorem triggeredAfter_concat_recovered :
    triggeredAfter pathID (log ++ [.recovered pathID]) = false := by
  simp [triggeredAfter]

end Logs

section Counting

variable {config : TriggerConfig} {pathID : Nat} {log : List TriggerEntry}
  {state : ObjectiveTriggerState}

structure Tracks (pathID : Nat) (log : List TriggerEntry) (state : ObjectiveTriggerState) : Prop where
  tied : state.triggered = triggeredAfter pathID log
  pending : state.requestPending = true → state.triggered = true ∧ Awaiting pathID log
  trigger : 0 ≤ state.triggerStreak ∧
    EndsWith (samplesOf pathID log) state.triggerStreak.toNat true
  recovery : 0 ≤ state.recoveryStreak ∧
    EndsWith (samplesOf pathID log) state.recoveryStreak.toNat false

theorem tracks_zero (pathID : Nat) : Tracks pathID [] .zero :=
  ⟨rfl, nofun, ⟨Int.le_refl _, endsWith_zero _ _⟩, ⟨Int.le_refl _, endsWith_zero _ _⟩⟩

theorem Tracks.frame (h : Tracks pathID log state) {out : List TriggerEntry}
    (hout : ∀ entry ∈ out, entry.pathID ≠ pathID) : Tracks pathID (log ++ out) state := by
  have hsamples : samplesOf pathID (log ++ out) = samplesOf pathID log := by
    rw [samplesOf_append]
    refine (append_right_eq_self).mpr (filterMap_eq_nil_iff.mpr fun entry hentry => ?_)
    have hne := hout entry hentry
    cases entry with
    | sample p deteriorated => exact if_neg hne
    | _ => rfl
  refine ⟨?_, fun hpending => ?_, hsamples ▸ h.trigger, hsamples ▸ h.recovery⟩
  · rw [h.tied, triggeredAfter_append_of_notMem (fun hmem => hout _ hmem rfl)
      fun hmem => hout _ hmem rfl]
  · obtain ⟨htriggered, hawaiting⟩ := h.pending hpending
    exact ⟨htriggered, hawaiting.append fun hmem => hout _ hmem rfl⟩

theorem Tracks.of_eq (h : Tracks pathID log state) {other : ObjectiveTriggerState}
    (htriggered : other.triggered = state.triggered)
    (hpending : other.requestPending = state.requestPending)
    (htrigger : other.triggerStreak = state.triggerStreak)
    (hrecovery : other.recoveryStreak = state.recoveryStreak) : Tracks pathID log other :=
  ⟨htriggered ▸ h.tied, by rw [hpending, htriggered]; exact h.pending, htrigger ▸ h.trigger,
    hrecovery ▸ h.recovery⟩

theorem samplesOf_sample (deteriorated : Bool) :
    samplesOf pathID (log ++ [.sample pathID deteriorated]) =
      samplesOf pathID log ++ [deteriorated] := by
  rw [samplesOf_append]
  simp [samplesOf]

theorem count_deteriorated (state : ObjectiveTriggerState) (config : TriggerConfig) :
    (state.count config true).recoveryStreak = 0 ∧
      ((state.triggered = true ∧ (state.count config true).triggered = true ∧
          (state.count config true).requestPending = state.requestPending ∧
          (state.count config true).triggerStreak = state.triggerStreak) ∨
        state.triggered = false ∧
          (state.count config true).triggerStreak = state.triggerStreak + 1 ∧
          ((config.triggerActivateSamples ≤ state.triggerStreak + 1 ∧
              (state.count config true).triggered = true) ∨
            ((state.count config true).triggered = false ∧
              (state.count config true).requestPending = state.requestPending))) := by
  unfold ObjectiveTriggerState.count
  cases state.triggered with
  | true => simp
  | false =>
    by_cases hactivate : config.triggerActivateSamples ≤ state.triggerStreak + 1
    · simp [hactivate]
    · simp [hactivate]

theorem count_recovering (state : ObjectiveTriggerState) (config : TriggerConfig) :
    (state.count config false).triggerStreak = 0 ∧
      ((state.triggered = false ∧ (state.count config false).triggered = false ∧
          (state.count config false).requestPending = state.requestPending ∧
          (state.count config false).recoveryStreak = state.recoveryStreak) ∨
        (state.triggered = true ∧ config.triggerRecoverySamples ≤ state.recoveryStreak + 1 ∧
          (state.count config false).triggered = false ∧
          (state.count config false).requestPending = false ∧
          (state.count config false).recoveryStreak = 0) ∨
        (state.triggered = true ∧ (state.count config false).triggered = true ∧
          (state.count config false).requestPending = state.requestPending ∧
          (state.count config false).recoveryStreak = state.recoveryStreak + 1)) := by
  unfold ObjectiveTriggerState.count
  cases state.triggered with
  | false => simp
  | true =>
    by_cases hrecover : config.triggerRecoverySamples ≤ state.recoveryStreak + 1
    · simp [hrecover]
    · simp [hrecover]

theorem toNat_succ {n : Int} (h : 0 ≤ n) : (n + 1).toNat = n.toNat + 1 := by
  omega

theorem Tracks.streaks (h : Tracks pathID log state) :
    (EndsWith (samplesOf pathID (log ++ [.sample pathID true])) (state.triggerStreak + 1).toNat true) ∧
      EndsWith (samplesOf pathID (log ++ [.sample pathID false])) (state.recoveryStreak + 1).toNat
        false := by
  rw [samplesOf_sample, samplesOf_sample, toNat_succ h.trigger.1, toNat_succ h.recovery.1]
  exact ⟨h.trigger.2.snoc, h.recovery.2.snoc⟩

theorem samplesOf_concat_activated (log : List TriggerEntry) :
    samplesOf pathID (log ++ [.activated pathID]) = samplesOf pathID log := by
  simp [samplesOf]

section

variable (h : Tracks pathID log state) (hlog : Logged (Hysteresis config) log)

include h hlog

theorem Tracks.unchanged
    {deteriorated : Bool} {next : ObjectiveTriggerState} (hsame : next.triggered = state.triggered)
    (hpending : next.requestPending = state.requestPending)
    (htrigger : 0 ≤ next.triggerStreak ∧ EndsWith
      (samplesOf pathID (log ++ [.sample pathID deteriorated])) next.triggerStreak.toNat true)
    (hrecovery : 0 ≤ next.recoveryStreak ∧ EndsWith
      (samplesOf pathID (log ++ [.sample pathID deteriorated])) next.recoveryStreak.toNat false) :
    Tracks pathID (log ++ [.sample pathID deteriorated] ++ state.changes pathID next) next ∧
      Logged (Hysteresis config)
        (log ++ [.sample pathID deteriorated] ++ state.changes pathID next) := by
  have hnone : state.changes pathID next = [] := by
    unfold ObjectiveTriggerState.changes
    rw [hsame]
    cases state.triggered <;> rfl
  rw [hnone, append_nil]
  refine ⟨⟨?_, fun hwaits => ?_, htrigger, hrecovery⟩, hlog.snoc trivial⟩
  · rw [hsame, h.tied, triggeredAfter_append_of_notMem (by simp) (by simp)]
  · rw [hpending] at hwaits
    rw [hsame]
    exact ⟨(h.pending hwaits).1, (h.pending hwaits).2.append (by simp)⟩

theorem Tracks.deteriorated :
    Tracks pathID (log ++ [.sample pathID true] ++ state.changes pathID (state.count config true))
        (state.count config true) ∧
      Logged (Hysteresis config)
        (log ++ [.sample pathID true] ++ state.changes pathID (state.count config true)) := by
  have hpositive := h.trigger.1
  have hstreak := h.streaks.1
  obtain ⟨hrecovery, hcases⟩ := count_deteriorated state config
  have hreset : 0 ≤ (state.count config true).recoveryStreak ∧
      ∀ samples, EndsWith samples (state.count config true).recoveryStreak.toNat false := by
    rw [hrecovery]
    exact ⟨Int.le_refl _, fun _ => endsWith_zero _ _⟩
  rcases hcases with ⟨hbefore, hafter, hpending, htrigger⟩ |
    ⟨hbefore, htrigger, ⟨henough, hafter⟩ | ⟨hafter, hpending⟩⟩
  · refine h.unchanged hlog (hafter.trans hbefore.symm) hpending ?_ ⟨hreset.1, hreset.2 _⟩
    rw [htrigger]
    exact ⟨hpositive, hstreak.mono (by omega)⟩
  · have hactivated : state.changes pathID (state.count config true) = [.activated pathID] := by
      simp [ObjectiveTriggerState.changes, hbefore, hafter]
    have hsample : Logged (Hysteresis config) (log ++ [.sample pathID true]) := hlog.snoc trivial
    rw [hactivated]
    refine ⟨⟨?_, fun _ => ⟨hafter, _, [], rfl, by simp⟩, ?_, ⟨hreset.1, hreset.2 _⟩⟩,
      hsample.snoc (hstreak.mono (Int.toNat_le_toNat henough))⟩
    · rw [hafter, triggeredAfter_concat_activated]
    · rw [htrigger, samplesOf_concat_activated]
      exact ⟨by omega, hstreak⟩
  · refine h.unchanged hlog (hafter.trans hbefore.symm) hpending ?_ ⟨hreset.1, hreset.2 _⟩
    rw [htrigger]
    exact ⟨by omega, hstreak⟩

theorem Tracks.recovering :
    Tracks pathID (log ++ [.sample pathID false] ++ state.changes pathID (state.count config false))
        (state.count config false) ∧
      Logged (Hysteresis config)
        (log ++ [.sample pathID false] ++ state.changes pathID (state.count config false)) := by
  have hpositive := h.recovery.1
  have hstreak := h.streaks.2
  obtain ⟨htrigger, hcases⟩ := count_recovering state config
  have hreset : 0 ≤ (state.count config false).triggerStreak ∧
      ∀ samples, EndsWith samples (state.count config false).triggerStreak.toNat true := by
    rw [htrigger]
    exact ⟨Int.le_refl _, fun _ => endsWith_zero _ _⟩
  rcases hcases with ⟨hbefore, hafter, hpending, hrecovery⟩ |
    ⟨hbefore, henough, hafter, hpending, hrecovery⟩ | ⟨hbefore, hafter, hpending, hrecovery⟩
  · refine h.unchanged hlog (hafter.trans hbefore.symm) hpending ⟨hreset.1, hreset.2 _⟩ ?_
    rw [hrecovery]
    exact ⟨hpositive, hstreak.mono (by omega)⟩
  · have hrecovered : state.changes pathID (state.count config false) = [.recovered pathID] := by
      simp [ObjectiveTriggerState.changes, hbefore, hafter]
    have hsample : Logged (Hysteresis config) (log ++ [.sample pathID false]) := hlog.snoc trivial
    rw [hrecovered]
    refine ⟨⟨?_, fun hwaits => ?_, ⟨hreset.1, hreset.2 _⟩, ?_⟩,
      hsample.snoc (hstreak.mono (Int.toNat_le_toNat henough))⟩
    · rw [hafter, triggeredAfter_concat_recovered]
    · cases hpending.symm.trans hwaits
    · rw [hrecovery]
      exact ⟨Int.le_refl _, endsWith_zero _ _⟩
  · refine h.unchanged hlog (hafter.trans hbefore.symm) hpending ⟨hreset.1, hreset.2 _⟩ ?_
    rw [hrecovery]
    exact ⟨by omega, hstreak⟩

end

theorem setReference_keeps (state : ObjectiveTriggerState) (config : TriggerConfig) (elapsed : ℚ) :
    (state.setReference config elapsed).triggered = state.triggered ∧
      (state.setReference config elapsed).requestPending = state.requestPending ∧
      (state.setReference config elapsed).triggerStreak = state.triggerStreak ∧
      (state.setReference config elapsed).recoveryStreak = state.recoveryStreak := by
  unfold ObjectiveTriggerState.setReference
  dsimp only
  split_ifs <;> exact ⟨rfl, rfl, rfl, rfl⟩

theorem Tracks.observe (h : Tracks pathID log state) (hlog : Logged (Hysteresis config) log)
    (elapsed current : ℚ) :
    let out := (state.compared config elapsed current).toList.map (.sample pathID) ++
      state.changes pathID (state.observe config elapsed current)
    Tracks pathID (log ++ out) (state.observe config elapsed current) ∧
      Logged (Hysteresis config) (log ++ out) := by
  intro out
  obtain ⟨htriggered, hpending, htrigger, hrecovery⟩ :=
    setReference_keeps { state with current := current } config elapsed
  have hset := h.of_eq htriggered hpending htrigger hrecovery
  unfold out ObjectiveTriggerState.observe ObjectiveTriggerState.compared
  dsimp only
  split
  next hskip =>
    have hnone : state.changes pathID
        ({ state with current := current }.setReference config elapsed) = [] := by
      unfold ObjectiveTriggerState.changes
      rw [htriggered]
      cases state.triggered <;> rfl
    rw [hnone]
    exact ⟨(append_nil log).symm ▸ hset, (append_nil log).symm ▸ hlog⟩
  next hcompare =>
    generalize config.objectiveDeteriorated
      ({ state with current := current }.setReference config elapsed).reference current = result
    obtain ⟨deteriorated, absoluteChange, relativeChange⟩ := result
    generalize hprepared : { { state with current := current }.setReference config elapsed with
      absoluteChange := absoluteChange, relativeChange := relativeChange } = prepared
    have hready : Tracks pathID log prepared := by
      rw [← hprepared]
      exact hset.of_eq rfl rfl rfl rfl
    have hsame : ∀ after, state.changes pathID after = prepared.changes pathID after := by
      intro after
      unfold ObjectiveTriggerState.changes
      rw [← hprepared, htriggered]
    rw [hsame, ← append_assoc]
    cases deteriorated with
    | true => exact hready.deteriorated hlog
    | false => exact hready.recovering hlog

end Counting

section Calls

variable {uc : TriggerController} {log : List TriggerEntry}

structure Followed (config : TriggerConfig) (log : List TriggerEntry) (uc : TriggerController) :
    Prop where
  same : uc.config = config
  tracks : ∀ pathID, Tracks pathID log (uc.triggerState pathID)
  logged : Logged (Hysteresis config) log

variable {pathID : Nat} {config : TriggerConfig}

theorem observeObjectiveTrigger_other {pm : PathMetrics} (hne : pathID ≠ pm.pathID) (now : Int) :
    (uc.observeObjectiveTrigger pm now).objectiveTriggerStates pathID =
      uc.objectiveTriggerStates pathID := by
  unfold TriggerController.observeObjectiveTrigger
  split
  · rfl
  · exact update_of_ne hne _ _

theorem changes_self (pathID : Nat) (state : ObjectiveTriggerState) :
    state.changes pathID state = [] := by
  unfold ObjectiveTriggerState.changes
  cases state.triggered <;> rfl

theorem pathID_of_mem_changes {before after : ObjectiveTriggerState}
    {entry : TriggerEntry} (h : entry ∈ before.changes pathID after) : entry.pathID = pathID := by
  unfold ObjectiveTriggerState.changes at h
  split at h
  · rw [mem_singleton.mp h]
    rfl
  · rw [mem_singleton.mp h]
    rfl
  · cases h

theorem observeObjectiveTrigger_cases (uc : TriggerController) (pm : PathMetrics) (now : Int) :
    (uc.observeObjectiveTrigger pm now = uc ∧ uc.comparison pm now = none) ∨
      ∃ elapsed current, (uc.observeObjectiveTrigger pm now).config = uc.config ∧
        (uc.observeObjectiveTrigger pm now).triggerState pm.pathID =
          (uc.triggerState pm.pathID).observe uc.config elapsed current ∧
        uc.comparison pm now = (uc.triggerState pm.pathID).compared uc.config elapsed current := by
  unfold TriggerController.observeObjectiveTrigger TriggerController.comparison
  split
  · exact .inl ⟨rfl, rfl⟩
  · refine .inr ⟨_, _, rfl, ?_, rfl⟩
    simp only [TriggerController.triggerState, update_self, Option.getD_some]

theorem Followed.observe (h : Followed config log uc) (pm : PathMetrics) (now : Int) :
    Followed config (log ++ ((uc.comparison pm now).toList.map (.sample pm.pathID) ++
        (uc.triggerState pm.pathID).changes pm.pathID
          ((uc.observeObjectiveTrigger pm now).triggerState pm.pathID)))
      (uc.observeObjectiveTrigger pm now) := by
  obtain ⟨hsame, hnone⟩ | ⟨elapsed, current, hconfig, hstate, hcomparison⟩ :=
    observeObjectiveTrigger_cases uc pm now
  · rw [hsame, hnone, changes_self]
    exact (append_nil log).symm ▸ h
  · rw [hstate, hcomparison, h.same]
    obtain ⟨htracks, hlogged⟩ := (h.tracks pm.pathID).observe h.logged elapsed current
    refine ⟨hconfig.trans h.same, fun pathID => ?_, hlogged⟩
    by_cases hpath : pathID = pm.pathID
    · rw [hpath, hstate, h.same]
      exact htracks
    · have hother : (uc.observeObjectiveTrigger pm now).triggerState pathID =
          uc.triggerState pathID := by
        unfold TriggerController.triggerState
        rw [observeObjectiveTrigger_other hpath]
      rw [hother]
      refine (h.tracks pathID).frame fun entry hentry hsame => hpath ?_
      rw [← hsame]
      rcases mem_append.mp hentry with hsample | hchange
      · obtain ⟨deteriorated, -, rfl⟩ := mem_map.mp hsample
        rfl
      · exact pathID_of_mem_changes hchange

theorem writePerPathTrigger_states (uc : TriggerController) (attempt : Attempt) (pathID : Nat)
    (reason : String) (globalBuffer : Bool) (minSamplesPerPath : Option Int) :
    let written := uc.writePerPathTrigger attempt pathID reason globalBuffer minSamplesPerPath
    written.1.config = uc.config ∧
      written.1.objectiveTriggerStates = uc.objectiveTriggerStates ∧
      ∀ request ∈ written.2, request.pathID = some (pathID : Int) := by
  unfold TriggerController.writePerPathTrigger TriggerController.newRequestID
  dsimp only
  split_ifs <;> simp

theorem maybeTriggerObjectiveUpdate_cases (uc : TriggerController) (exporter : ExporterView)
    (attempt : Attempt) :
    let written := uc.maybeTriggerObjectiveUpdate exporter attempt
    written.1.config = uc.config ∧
      ((written.2 = none ∧ written.1.objectiveTriggerStates = uc.objectiveTriggerStates) ∨
        ∃ (request : Request) (pathID : Nat) (state : ObjectiveTriggerState),
          written.2 = some request ∧ request.pathID = some (pathID : Int) ∧
          uc.objectiveTriggerStates pathID = some state ∧ state.requestPending = true ∧
          written.1.objectiveTriggerStates = update uc.objectiveTriggerStates pathID
            (some { state with requestPending := false })) := by
  unfold TriggerController.maybeTriggerObjectiveUpdate
  dsimp only
  split
  · exact ⟨rfl, .inl ⟨rfl, rfl⟩⟩
  split
  · exact ⟨rfl, .inl ⟨rfl, rfl⟩⟩
  split
  · exact ⟨rfl, .inl ⟨rfl, rfl⟩⟩
  next pathID hfound =>
    have hwants := List.find?_some hfound
    obtain ⟨state, hstate, hpending⟩ : ∃ state, uc.objectiveTriggerStates pathID = some state ∧
        state.requestPending = true := by
      unfold TriggerController.wantsRequest at hwants
      obtain ⟨state, hstate, hall⟩ := (Option.any_eq_true _ _).mp hwants
      simp only [Bool.and_eq_true] at hall
      exact ⟨state, hstate, hall.1.1⟩
    have hwritten := writePerPathTrigger_states uc attempt pathID uc.config.triggerMode false none
    dsimp only at hwritten
    generalize uc.writePerPathTrigger attempt pathID uc.config.triggerMode false none = written
      at hwritten
    obtain ⟨next, request⟩ := written
    obtain ⟨hconfig, hstates, hrequest⟩ := hwritten
    cases request with
    | none => exact ⟨hconfig, .inl ⟨rfl, hstates⟩⟩
    | some request =>
      refine ⟨hconfig, .inr ⟨request, pathID, state, rfl, hrequest request rfl, hstate, hpending,
        ?_⟩⟩
      dsimp only at hstates ⊢
      rw [hstates, hstate]
      rfl

theorem Followed.update (h : Followed config log uc) (exporter : ExporterView) (attempt : Attempt) :
    let written := uc.maybeTriggerObjectiveUpdate exporter attempt
    Followed config (log ++ ((written.2.bind Request.pathID).map Int.toNat).toList.map .requested)
      written.1 := by
  intro written
  obtain ⟨hconfig, ⟨hnone, hstates⟩ |
    ⟨request, pathID, state, hsome, hpath, hstate, hpending, hstates⟩⟩ :=
      maybeTriggerObjectiveUpdate_cases uc exporter attempt
  · rw [hnone]
    refine (append_nil log).symm ▸ ⟨hconfig.trans h.same, fun pathID => ?_, h.logged⟩
    unfold TriggerController.triggerState
    rw [hstates]
    exact h.tracks pathID
  · have hout : ((written.2.bind Request.pathID).map Int.toNat).toList.map TriggerEntry.requested =
        [.requested pathID] := by
      rw [hsome, Option.bind_some, hpath]
      rfl
    have hown : uc.triggerState pathID = state := by
      unfold TriggerController.triggerState
      rw [hstate]
      rfl
    have htracks := hown ▸ h.tracks pathID
    rw [hout]
    refine ⟨hconfig.trans h.same, fun other => ?_, h.logged.snoc (htracks.pending hpending).2⟩
    unfold TriggerController.triggerState
    rw [hstates]
    by_cases hsame : other = pathID
    · rw [hsame, update_self]
      refine ⟨?_, nofun, ?_, ?_⟩
      · rw [triggeredAfter_append_of_notMem (by simp) (by simp)]
        exact htracks.tied
      · rw [samplesOf_append]
        simpa [samplesOf] using htracks.trigger
      · rw [samplesOf_append]
        simpa [samplesOf] using htracks.recovery
    · rw [update_of_ne hsame]
      refine (h.tracks other).frame fun entry hentry hpath => hsame ?_
      rw [← hpath, mem_singleton.mp hentry]
      rfl

theorem Followed.response (h : Followed config log uc) (now : Int)
    (disk : CoeffsDisk) (response : Option ResponseFields) :
    Followed config log (uc.maybeCheckUpdateResponse now disk response).1 := by
  unfold TriggerController.maybeCheckUpdateResponse
  split
  · exact ⟨h.same, h.tracks, h.logged⟩
  · exact h

theorem Followed.step (h : Followed config log uc) (call : TriggerCall) :
    ∃ next out, uc.triggerStep call = some (next, out) ∧ Followed config (log ++ out) next := by
  cases call with
  | observeObjectiveTrigger pm now => exact ⟨_, _, rfl, h.observe pm now⟩
  | maybeTriggerObjectiveUpdate exporter attempt => exact ⟨_, _, rfl, h.update exporter attempt⟩
  | maybeCheckUpdateResponse now disk response =>
    exact ⟨_, _, rfl, (append_nil log).symm ▸ h.response now disk response⟩

end Calls

-- In every run the trigger of a path is activated and recovers only after enough samples, each
-- request is for an activation of its own, a path that waits for a request is triggered, and
-- an observation leaves the other paths alone. What happened to a path says whether it is
-- triggered.
theorem objective_trigger_has_hysteresis (variant : Variant) (runID : String) (runStart : Option Int)
    (phase2 : Phase2Config) (disk : CoeffsDisk) (calls : List TriggerCall) :
    ∃ last log, run TriggerController.triggerStep
        (newUtilityController variant runID runStart phase2 disk) calls = some (last, log) ∧
      Logged (Hysteresis phase2.triggers) log ∧
      (∀ pathID, (last.triggerState pathID).triggered = triggeredAfter pathID log) ∧
      (∀ pathID, (last.triggerState pathID).requestPending = true →
        (last.triggerState pathID).triggered = true) ∧
      ∀ pm now pathID, pathID ≠ pm.pathID →
        (last.observeObjectiveTrigger pm now).objectiveTriggerStates pathID =
          last.objectiveTriggerStates pathID := by
  obtain ⟨last, log, hr, hfollows⟩ := run_progress (fun _ log uc => Followed phase2.triggers log uc)
    (fun _ _ _ call h _ => h.step call) [] [] (newUtilityController variant runID runStart phase2 disk)
    calls ⟨rfl, tracks_zero, Logged.nil _⟩ (Along.always _ _)
  exact ⟨last, log, hr, hfollows.logged, fun pathID => (hfollows.tracks pathID).tied,
    fun pathID hpending => ((hfollows.tracks pathID).pending hpending).1,
    fun pm now pathID hne => observeObjectiveTrigger_other hne now⟩

-- A path is compared with its first sample. Two worse samples activate the trigger, a request is
-- written once, and one better sample is enough to recover.
example :
    let triggers : TriggerConfig :=
      { runtimeExport := true, triggerUpdate := true, triggerMode := "objective_d",
        triggerReferenceStart := 0, triggerReferenceEnd := 0, triggerActivateSamples := 2,
        triggerRecoverySamples := 1, triggerTAbsBps := 1, triggerTRelative := 1, triggerDAbsMs := 10,
        triggerDRelative := 1, triggerLRatio := 1, triggerOnBufferFull := false,
        triggerOnThroughputDrop := false, triggerDropPct := 0, triggerCooldown := 0,
        triggerPeriodicMs := 0, minSamplesPerPath := 0, multipathShadowScoring := false,
        minSenderByteDelta := 0 }
    let start := newUtilityController .qaccessD "r" (some 0) ⟨true, false, 0, 1, triggers⟩ ⟨.missing, 0⟩
    let delay (owdMs : ℚ) : TriggerCall := .observeObjectiveTrigger ⟨1, 0, owdMs, 0, 0⟩ 1000000000
    let update : TriggerCall :=
      .maybeTriggerObjectiveUpdate ⟨fun _ => 0, fun _ _ _ => ⟨[], none, false⟩⟩ ⟨5, false, false⟩
    (run TriggerController.triggerStep start
      [delay 20, delay 40, update, delay 40, update, update, delay 40, delay 20]).map Prod.snd =
    some [.sample 1 false, .sample 1 true, .sample 1 true, .activated 1, .requested 1, .sample 1 true,
      .sample 1 false, .recovered 1] := by
  decide +kernel

end MpQuic.QAccess

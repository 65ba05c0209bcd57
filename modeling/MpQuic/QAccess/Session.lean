import Mathlib

namespace MpQuic.QAccess

inductive UtilityMode where
  | baseline
  | qaccessCollect
  | qaccessT
  | qaccessD
  | qaccessL
  deriving DecidableEq

def isQAccessRuntimeMode : UtilityMode → Bool
  | .qaccessT | .qaccessD | .qaccessL => true
  | _ => false

def phase2OwnerRole : String := "server_downlink_sender"

-- `filepath.IsAbs`
def isAbs (path : String) : Bool :=
  path.toList.head? = some '/'

structure Phase2SessionConfig where
  enabled : Bool
  owner : Bool
  endpointRole : String
  stateDir : String
  runID : String
  rtmpSessionID : String
  streamKey : String
  deriving DecidableEq

structure SessionPhase2 where
  enabled : Bool
  owner : Bool
  endpointRole : String
  stateDir : String
  connectionID : String
  rtmpSessionID : String
  streamKey : String
  deriving DecidableEq

def SessionPhase2.zero : SessionPhase2 :=
  ⟨false, false, "", "", "", "", ""⟩

def loadQAccessPhase2ConfigForSession (cfg : Phase2SessionConfig) (connectionID : String) :
    SessionPhase2 where
  enabled := cfg.enabled
  owner := cfg.owner
  endpointRole := cfg.endpointRole
  stateDir := cfg.stateDir
  connectionID := connectionID
  rtmpSessionID := cfg.rtmpSessionID
  streamKey := cfg.streamKey

structure SessionController where
  mode : UtilityMode
  runID : String
  phase2 : SessionPhase2
  deriving DecidableEq

def newSessionController (mode : UtilityMode) (runID : String) (phase2 : SessionPhase2) :
    SessionController where
  mode := mode
  runID := runID
  phase2 := if isQAccessRuntimeMode mode then phase2 else .zero

def SessionController.phase2MutationAllowed (uc : SessionController) : Bool :=
  isQAccessRuntimeMode uc.mode && uc.phase2.enabled && uc.phase2.owner &&
    uc.phase2.endpointRole = phase2OwnerRole && isAbs uc.phase2.stateDir

-- The fields of `Config` that concern the controller, with the mode that
-- `utilityModeFromConfig` makes of it.
structure SchedulerConfig where
  mode : UtilityMode
  phase2Enabled : Bool
  phase2Owner : Bool
  endpointRole : String
  phase2StateDir : String
  experimentRunID : String
  deriving DecidableEq

inductive Phase2Error where
  | ownerIdentityRejected (enabled owner : Bool) (role : String)
  | stateDirNotAbsolute (stateDir : String)
  | alreadyConfigured (rtmpSessionID : String)
  | utilityModeRejected (mode : UtilityMode)
  | mutationGuardRejected
  | cannotDisableActiveOwner (rtmpSessionID : String)
  | transportNotSupported (uniqueKey : String)
  deriving DecidableEq

-- A scheduler with the controllers that were made for it. A controller is referred to by its
-- place among them. The monitor, if there is one, has a reference of its own.
structure SessionScheduler where
  config : SchedulerConfig
  controllers : List SessionController
  utilityController : Option Nat
  monitor : Option (Option Nat)
  phase2Identity : Option Phase2SessionConfig
  deriving DecidableEq

namespace SessionScheduler

def setup (config : SchedulerConfig) : SessionScheduler :=
  let controllers :=
    if config.mode = .qaccessCollect then
      [newSessionController config.mode config.experimentRunID .zero]
    else if isQAccessRuntimeMode config.mode && config.phase2Enabled && config.phase2Owner &&
        config.endpointRole = phase2OwnerRole && isAbs config.phase2StateDir then
      let identity : Phase2SessionConfig := ⟨true, true, config.endpointRole, config.phase2StateDir,
        config.experimentRunID, "", ""⟩
      [newSessionController config.mode identity.runID (loadQAccessPhase2ConfigForSession identity "")]
    else []
  let utilityController := if controllers = [] then none else some 0
  { config := config
    controllers := controllers
    utilityController := utilityController
    monitor := some utilityController
    phase2Identity := none }

def configurePhase2 (sch : SessionScheduler) (identity : Phase2SessionConfig)
    (connectionID : String) : SessionScheduler × Option Phase2Error :=
  if !identity.enabled || !identity.owner || identity.endpointRole ≠ phase2OwnerRole then
    (sch, some (.ownerIdentityRejected identity.enabled identity.owner identity.endpointRole))
  else if !isAbs identity.stateDir then (sch, some (.stateDirNotAbsolute identity.stateDir))
  else
    match sch.phase2Identity with
    | some current =>
      if current = identity then (sch, none)
      else (sch, some (.alreadyConfigured current.rtmpSessionID))
    | none =>
      if !isQAccessRuntimeMode sch.config.mode then
        (sch, some (.utilityModeRejected sch.config.mode))
      else
        let controller := newSessionController sch.config.mode identity.runID
          (loadQAccessPhase2ConfigForSession identity connectionID)
        let ref := sch.controllers.length
        let made := { sch with controllers := sch.controllers ++ [controller] }
        if !controller.phase2MutationAllowed then (made, some .mutationGuardRejected)
        else
          ({ made with
              utilityController := some ref
              monitor := sch.monitor.map fun _ => some ref
              phase2Identity := some identity },
            none)

def disablePhase2 (sch : SessionScheduler) : SessionScheduler × Option Phase2Error :=
  match sch.phase2Identity with
  | some identity => (sch, some (.cannotDisableActiveOwner identity.rtmpSessionID))
  | none =>
    ({ sch with utilityController := none, monitor := sch.monitor.map fun _ => none }, none)

def controller (sch : SessionScheduler) : Option SessionController :=
  sch.utilityController.bind fun ref => sch.controllers[ref]?

def Guarded (sch : SessionScheduler) : Prop :=
  ∀ uc ∈ sch.controller, uc.phase2MutationAllowed = true →
    ∃ identity ∈ sch.phase2Identity, uc.phase2.rtmpSessionID = identity.rtmpSessionID

structure Owns (identity : Phase2SessionConfig) : Prop where
  enabled : identity.enabled = true
  owner : identity.owner = true
  role : identity.endpointRole = phase2OwnerRole
  absolute : isAbs identity.stateDir = true

theorem mutationAllowed_new {mode : UtilityMode} {identity : Phase2SessionConfig}
    (connectionID : String) (hmode : isQAccessRuntimeMode mode = true)
    (henabled : identity.enabled = true) (howner : identity.owner = true)
    (hrole : identity.endpointRole = phase2OwnerRole) (habs : isAbs identity.stateDir = true) :
    (newSessionController mode identity.runID
      (loadQAccessPhase2ConfigForSession identity connectionID)).phase2MutationAllowed = true := by
  simp [SessionController.phase2MutationAllowed, newSessionController,
    loadQAccessPhase2ConfigForSession, hmode, henabled, howner, hrole, habs]

theorem configurePhase2_spec (sch : SessionScheduler) (identity : Phase2SessionConfig)
    (connectionID : String) :
    (∃ err, sch.configurePhase2 identity connectionID = (sch, some err)) ∨
      (sch.configurePhase2 identity connectionID = (sch, none) ∧
        sch.phase2Identity = some identity) ∨
      (sch.phase2Identity = none ∧ Owns identity ∧
        sch.configurePhase2 identity connectionID =
          ({ sch with
              controllers := sch.controllers ++ [newSessionController sch.config.mode identity.runID
                (loadQAccessPhase2ConfigForSession identity connectionID)]
              utilityController := some sch.controllers.length
              monitor := sch.monitor.map fun _ => some sch.controllers.length
              phase2Identity := some identity },
            none)) := by
  unfold configurePhase2
  split
  · exact .inl ⟨_, rfl⟩
  next hidentity =>
  simp only [Bool.or_eq_true, Bool.not_eq_true', decide_eq_true_eq, not_or, Bool.not_eq_false,
    not_not] at hidentity
  obtain ⟨⟨henabled, howner⟩, hrole⟩ := hidentity
  split
  · exact .inl ⟨_, rfl⟩
  next habs =>
  have howns : Owns identity := ⟨henabled, howner, hrole, by simpa using habs⟩
  split
  next current hcurrent =>
    split
    next hsame => exact .inr (.inl ⟨rfl, hsame ▸ hcurrent⟩)
    · exact .inl ⟨_, rfl⟩
  next hnone =>
    split
    · exact .inl ⟨_, rfl⟩
    next hmode =>
      have hallowed := mutationAllowed_new connectionID (by simpa using hmode) henabled howner hrole
        howns.absolute
      dsimp only
      rw [hallowed]
      exact .inr (.inr ⟨hnone, howns, rfl⟩)

theorem guarded_setup (mode : UtilityMode) (role stateDir runID : String) :
    (setup ⟨mode, false, false, role, stateDir, runID⟩).Guarded := by
  cases mode with
  | qaccessCollect =>
    intro uc huc hallowed
    obtain rfl := Option.mem_some.mp huc
    simp [SessionController.phase2MutationAllowed, newSessionController, isQAccessRuntimeMode]
      at hallowed
  | _ => exact nofun

theorem guarded_configurePhase2 {sch : SessionScheduler} (h : sch.Guarded)
    (identity : Phase2SessionConfig) (connectionID : String) :
    (sch.configurePhase2 identity connectionID).1.Guarded := by
  rcases sch.configurePhase2_spec identity connectionID with
    ⟨err, herr⟩ | ⟨hsame, -⟩ | ⟨-, -, hnew⟩
  · rw [herr]
    exact h
  · rw [hsame]
    exact h
  · rw [hnew]
    intro uc huc hallowed
    simp only [controller, Option.bind_some, List.getElem?_concat_length] at huc
    obtain rfl := Option.mem_some.mp huc
    have hmode : isQAccessRuntimeMode sch.config.mode = true := by
      simp only [SessionController.phase2MutationAllowed, Bool.and_eq_true] at hallowed
      exact hallowed.1.1.1.1
    refine ⟨identity, rfl, ?_⟩
    simp [newSessionController, loadQAccessPhase2ConfigForSession, hmode]

theorem disablePhase2_identity (sch : SessionScheduler) :
    sch.disablePhase2.1.phase2Identity = sch.phase2Identity := by
  unfold disablePhase2
  split
  · rfl
  · rfl

theorem guarded_disablePhase2 {sch : SessionScheduler} (h : sch.Guarded) :
    sch.disablePhase2.1.Guarded := by
  unfold disablePhase2
  split
  · exact h
  · exact nofun

end SessionScheduler

end MpQuic.QAccess

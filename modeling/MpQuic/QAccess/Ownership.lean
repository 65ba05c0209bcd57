import MpQuic.Library.Run
import MpQuic.QAccess.Session

namespace MpQuic.QAccess

open MpQuic.Library Function SessionScheduler

structure Phase2OwnerLease where
  rtmpSessionID : String
  connectionID : String
  deriving DecidableEq

structure ServerManager where
  phase2RunID : String
  phase2StateDir : String
  phase2Enabled : Bool
  phase2Owners : String → Option Phase2OwnerLease

-- A session with the connection it runs on. A transport that does not support Phase 2
-- is `none`.
structure RtmpSession where
  uniqueKey : String
  appName : String
  streamName : String
  connection : Option Nat
  deriving DecidableEq

-- `fmt.Sprintf("%x", connectionID)`
def RtmpSession.phase2ConnectionID (session : RtmpSession) : String :=
  match session.connection with
  | none => ""
  | some connectionID => String.ofList (Nat.toDigits 16 connectionID)

inductive LeaseError where
  | incomplete
  | alreadyHeld (current : Phase2OwnerLease)
  deriving DecidableEq

namespace ServerManager

def phase2LeaseKey (sm : ServerManager) (app stream : String) : String :=
  sm.phase2RunID ++ "/" ++ app ++ "/" ++ stream

def acquirePhase2Owner (sm : ServerManager) (key sessionID connectionID : String) :
    ServerManager × Except LeaseError Bool :=
  if sm.phase2RunID = "" || !isAbs sm.phase2StateDir then (sm, .error .incomplete)
  else
    match sm.phase2Owners key with
    | some current =>
      if current.rtmpSessionID = sessionID && current.connectionID = connectionID then
        (sm, .ok true)
      else (sm, .error (.alreadyHeld current))
    | none =>
      ({ sm with
          phase2Owners := Function.update sm.phase2Owners key (some ⟨sessionID, connectionID⟩) },
        .ok true)

def releasePhase2Owner (sm : ServerManager) (key sessionID : String) : ServerManager :=
  match sm.phase2Owners key with
  | some current =>
    if current.rtmpSessionID = sessionID then
      { sm with phase2Owners := Function.update sm.phase2Owners key none }
    else sm
  | none => sm

end ServerManager

inductive LeaseDecision where
  | downlinkDisabled
  | leaseConflict
  | controllerCreateFailed
  | ownerAcquired
  | nonOwnerSubscriber
  | publisherIngressDisabled
  deriving DecidableEq

structure LeaseRecord where
  session : RtmpSession
  decision : LeaseDecision
  deriving DecidableEq

-- A server process with the scheduler of each connection and the sessions that
-- subscribe to one of its groups.
structure Server where
  manager : ServerManager
  schedulers : Nat → SessionScheduler
  subscribers : List RtmpSession

namespace Server

def leaseKey (s : Server) (session : RtmpSession) : String :=
  s.manager.phase2LeaseKey session.appName session.streamName

def writePhase2Audit (s : Server) (session : RtmpSession) (decision : LeaseDecision) :
    List LeaseRecord :=
  if isAbs s.manager.phase2StateDir then [⟨session, decision⟩] else []

def configurePhase2 (s : Server) (session : RtmpSession) (cfg : Phase2SessionConfig) :
    Server × Option Phase2Error :=
  match session.connection with
  | none => (s, some (.transportNotSupported session.uniqueKey))
  | some connection =>
    let result := (s.schedulers connection).configurePhase2 cfg session.phase2ConnectionID
    ({ s with schedulers := Function.update s.schedulers connection result.1 }, result.2)

def disablePhase2 (s : Server) (session : RtmpSession) : Server :=
  match session.connection with
  | none => s
  | some connection =>
    { s with schedulers :=
        Function.update s.schedulers connection (s.schedulers connection).disablePhase2.1 }

def addRTMPSubSession (s : Server) (session : RtmpSession) : Server :=
  { s with subscribers := s.subscribers.insert session }

def delRTMPSubSession (s : Server) (session : RtmpSession) : Server :=
  { s with subscribers := s.subscribers.filter (· ≠ session) }

def sessionConfig (s : Server) (session : RtmpSession) : Phase2SessionConfig where
  enabled := true
  owner := true
  endpointRole := phase2OwnerRole
  stateDir := s.manager.phase2StateDir
  runID := s.manager.phase2RunID
  rtmpSessionID := session.uniqueKey
  streamKey := session.appName ++ "/" ++ session.streamName

def onNewRTMPSubSession (s : Server) (session : RtmpSession) : Server × List LeaseRecord :=
  let audit := s.writePhase2Audit session
  if !s.manager.phase2Enabled then
    ((s.disablePhase2 session).addRTMPSubSession session, audit .downlinkDisabled)
  else
    match s.manager.acquirePhase2Owner (s.leaseKey session) session.uniqueKey
        session.phase2ConnectionID with
    | (manager, .error _) =>
      (({ s with manager := manager }.disablePhase2 session).addRTMPSubSession session,
        audit .leaseConflict)
    | (manager, .ok true) =>
      match { s with manager := manager }.configurePhase2 session (s.sessionConfig session) with
      | (s', some _) =>
        ({ s' with manager :=
            s'.manager.releasePhase2Owner (s.leaseKey session) session.uniqueKey },
          audit .controllerCreateFailed)
      | (s', none) => (s'.addRTMPSubSession session, audit .ownerAcquired)
    | (manager, .ok false) =>
      (({ s with manager := manager }.disablePhase2 session).addRTMPSubSession session,
        audit .nonOwnerSubscriber)

def onNewRTMPPubSession (s : Server) (session : RtmpSession) : Server × List LeaseRecord :=
  (s.disablePhase2 session, s.writePhase2Audit session .publisherIngressDisabled)

def onDelRTMPSubSession (s : Server) (session : RtmpSession) : Server :=
  { s with manager :=
      s.manager.releasePhase2Owner (s.leaseKey session) session.uniqueKey }.delRTMPSubSession session

end Server

inductive SessionEvent where
  | newSub (session : RtmpSession)
  | delSub (session : RtmpSession)
  | newPub (session : RtmpSession)
  deriving DecidableEq

def serverStep (s : Server) : SessionEvent → Option (Server × List LeaseRecord)
  | .newSub session => some (s.onNewRTMPSubSession session)
  | .delSub session => some (s.onDelRTMPSubSession session, [])
  | .newPub session => some (s.onNewRTMPPubSession session)

def newServer (runID stateDir : String) (enabled : Bool) (mode : UtilityMode) : Server where
  manager := ⟨runID, stateDir, enabled, fun _ => none⟩
  schedulers := fun _ => .setup ⟨mode, false, false, "", "", ""⟩
  subscribers := []

namespace Server

def Writer (s : Server) (connection : Nat) : Prop :=
  ∃ uc ∈ (s.schedulers connection).controller,
    uc.phase2MutationAllowed = true ∧ uc.phase2.stateDir = s.manager.phase2StateDir

def Live (s : Server) (connection : Nat) : Prop :=
  ∃ uc ∈ (s.schedulers connection).controller,
    ∃ session ∈ s.subscribers, session.uniqueKey = uc.phase2.rtmpSessionID

instance (s : Server) (connection : Nat) : Decidable (s.Writer connection) :=
  inferInstanceAs (Decidable (∃ uc ∈ (s.schedulers connection).controller,
    uc.phase2MutationAllowed = true ∧ uc.phase2.stateDir = s.manager.phase2StateDir))

instance (s : Server) (connection : Nat) : Decidable (s.Live connection) :=
  inferInstanceAs (Decidable (∃ uc ∈ (s.schedulers connection).controller,
    ∃ session ∈ s.subscribers, session.uniqueKey = uc.phase2.rtmpSessionID))

def LeaseOpen (s : Server) (session : RtmpSession) : Prop :=
  ∀ lease ∈ s.manager.phase2Owners (s.leaseKey session),
    lease = ⟨session.uniqueKey, session.phase2ConnectionID⟩

end Server

-- A subscription that gets the lease is on the only connection that was ever configured, or
-- none was.
def Unrivalled (s : Server) : SessionEvent → Prop
  | .newSub session => s.manager.phase2Enabled = true → s.LeaseOpen session →
      ∀ connection, (s.schedulers connection).phase2Identity ≠ none →
        session.connection = some connection
  | _ => True

-- At most one scheduler was ever configured, and only that one has a controller that
-- may write.
structure OneOwner (schedulers : Nat → SessionScheduler) : Prop where
  guarded : ∀ connection, (schedulers connection).Guarded
  unique : ∀ connection other, (schedulers connection).phase2Identity ≠ none →
    (schedulers other).phase2Identity ≠ none → connection = other

namespace OneOwner

theorem newServer (runID stateDir : String) (enabled : Bool) (mode : UtilityMode) :
    OneOwner (newServer runID stateDir enabled mode).schedulers :=
  ⟨fun _ => guarded_setup mode "" "" "", fun _ _ h => absurd rfl h⟩

theorem update {schedulers : Nat → SessionScheduler} (h : OneOwner schedulers) {connection : Nat}
    {sch : SessionScheduler} (hguarded : sch.Guarded)
    (hother : sch.phase2Identity ≠ none → ∀ other ≠ connection,
      (schedulers other).phase2Identity = none) :
    OneOwner (Function.update schedulers connection sch) := by
  refine ⟨(forall_update_iff _ fun _ (sch : SessionScheduler) => sch.Guarded).mpr
    ⟨hguarded, fun other _ => h.guarded other⟩, fun first second hfirst hsecond => ?_⟩
  by_cases hf : first = connection <;> by_cases hs : second = connection
  · rw [hf, hs]
  · rw [hf, update_self] at hfirst
    rw [update_of_ne hs] at hsecond
    exact absurd (hother hfirst second hs) hsecond
  · rw [update_of_ne hf] at hfirst
    rw [hs, update_self] at hsecond
    exact absurd (hother hsecond first hf) hfirst
  · rw [update_of_ne hf] at hfirst
    rw [update_of_ne hs] at hsecond
    exact h.unique first second hfirst hsecond

variable {s : Server}

theorem disablePhase2 (h : OneOwner s.schedulers) (session : RtmpSession) :
    OneOwner (s.disablePhase2 session).schedulers := by
  unfold Server.disablePhase2
  cases session.connection with
  | none => exact h
  | some connection =>
    refine h.update (guarded_disablePhase2 (h.guarded connection)) ?_
    rw [disablePhase2_identity]
    intro hsome other hne
    by_contra hconfigured
    exact hne (h.unique other connection hconfigured hsome)

theorem configurePhase2 (h : OneOwner s.schedulers) {session : RtmpSession}
    (cfg : Phase2SessionConfig)
    (hrival : ∀ connection, (s.schedulers connection).phase2Identity ≠ none →
      session.connection = some connection) :
    OneOwner (s.configurePhase2 session cfg).1.schedulers := by
  unfold Server.configurePhase2
  cases hconnection : session.connection with
  | none => exact h
  | some connection =>
    refine h.update (guarded_configurePhase2 (h.guarded connection) cfg _) ?_
    intro _ other hne
    by_contra hconfigured
    exact hne (Option.some.inj ((hrival other hconfigured).symm.trans hconnection))

theorem unique_writer (h : OneOwner s.schedulers) {connection other : Nat}
    (hwriter : s.Writer connection) (hother : s.Writer other) : connection = other := by
  have hconfigured : ∀ connection, s.Writer connection →
      (s.schedulers connection).phase2Identity ≠ none := by
    rintro connection ⟨uc, huc, hallowed, -⟩ hnone
    obtain ⟨identity, hidentity, -⟩ := h.guarded connection uc huc hallowed
    rw [hnone] at hidentity
    cases hidentity
  exact h.unique connection other (hconfigured _ hwriter) (hconfigured _ hother)

end OneOwner

variable {s next : Server} {session : RtmpSession} {cfg : Phase2SessionConfig}
  {decision : LeaseDecision}

theorem leaseOpen_of_acquire {manager : ServerManager}
    {owner : Bool}
    (h : s.manager.acquirePhase2Owner (s.leaseKey session) session.uniqueKey
      session.phase2ConnectionID = (manager, .ok owner)) : s.LeaseOpen session := by
  intro lease hlease
  unfold ServerManager.acquirePhase2Owner at h
  rw [Option.mem_def.mp hlease] at h
  dsimp only at h
  split at h
  · cases h
  · split at h
    · rename_i hsame
      simp only [Bool.and_eq_true, decide_eq_true_eq] at hsame
      rw [← hsame.1, ← hsame.2]
    · cases h

theorem configurePhase2_identity (h : s.configurePhase2 session cfg = (next, none)) :
    ∃ connection, (next.schedulers connection).phase2Identity = some cfg := by
  unfold Server.configurePhase2 at h
  cases hconnection : session.connection with
  | none =>
    rw [hconnection] at h
    cases h
  | some connection =>
    rw [hconnection] at h
    dsimp only at h
    obtain ⟨rfl, hok⟩ := Prod.mk.inj h
    refine ⟨connection, ?_⟩
    dsimp only
    rw [update_self]
    rcases (s.schedulers connection).configurePhase2_spec cfg session.phase2ConnectionID with
      ⟨err, herr⟩ | ⟨hsame, hidentity⟩ | ⟨-, -, hmade⟩
    · rw [herr] at hok
      cases hok
    · rw [hsame]
      exact hidentity
    · rw [hmade]

theorem live_of_configured (h : s.configurePhase2 session cfg = (next, none))
    (hkey : cfg.rtmpSessionID = session.uniqueKey) (hone : OneOwner next.schedulers) :
    ∀ connection, (next.addRTMPSubSession session).Writer connection →
      (next.addRTMPSubSession session).Live connection := by
  rintro connection ⟨uc, huc, hallowed, -⟩
  obtain ⟨configured, hcfg⟩ := configurePhase2_identity h
  obtain ⟨identity, hidentity, hsession⟩ := hone.guarded connection uc huc hallowed
  have hsame : connection = configured :=
    hone.unique connection configured (by simp [Option.mem_def.mp hidentity]) (by simp [hcfg])
  rw [hsame, hcfg] at hidentity
  obtain rfl := Option.mem_some.mp hidentity
  exact ⟨uc, huc, session, List.mem_insert_self, by rw [hsession, hkey]⟩

theorem decision_of_mem_audit {record : LeaseRecord}
    (hmem : record ∈ s.writePhase2Audit session decision) : record.decision = decision := by
  unfold Server.writePhase2Audit at hmem
  split at hmem
  · rw [List.mem_singleton.mp hmem]
  · cases hmem

def Server.Handed (s : Server) (records : List LeaseRecord) : Prop :=
  ∀ record ∈ records, record.decision = .ownerAcquired →
    ∀ connection, s.Writer connection → s.Live connection

theorem handed_of_audit
    (hne : decision ≠ .ownerAcquired) : next.Handed (s.writePhase2Audit session decision) :=
  fun _ hmem hdecision => absurd ((decision_of_mem_audit hmem).symm.trans hdecision) hne

theorem onNewRTMPSubSession_oneOwner (h : OneOwner s.schedulers)
    (hrival : Unrivalled s (.newSub session)) :
    OneOwner (s.onNewRTMPSubSession session).1.schedulers ∧
      (s.onNewRTMPSubSession session).1.Handed (s.onNewRTMPSubSession session).2 := by
  have hdisabled : ∀ manager,
      OneOwner ({ s with manager := manager }.disablePhase2 session).schedulers := fun manager =>
    OneOwner.disablePhase2 (s := { s with manager := manager }) h session
  unfold Server.onNewRTMPSubSession
  dsimp only
  split
  · exact ⟨hdisabled s.manager, handed_of_audit nofun⟩
  · rename_i henabled
    split
    · exact ⟨hdisabled _, handed_of_audit nofun⟩
    · rename_i manager hacquire
      have hconfigured := OneOwner.configurePhase2 (s := { s with manager := manager }) h
        (s.sessionConfig session) (hrival (by simpa using henabled) (leaseOpen_of_acquire hacquire))
      cases hresult : { s with manager := manager }.configurePhase2 session
          (s.sessionConfig session) with
      | mk next err =>
        rw [hresult] at hconfigured
        cases err with
        | some err => exact ⟨hconfigured, handed_of_audit nofun⟩
        | none => exact ⟨hconfigured, fun _ _ _ => live_of_configured hresult rfl hconfigured⟩
    · exact ⟨hdisabled _, handed_of_audit nofun⟩

theorem serverStep_oneOwner {event : SessionEvent} (h : OneOwner s.schedulers)
    (hrival : Unrivalled s event) :
    ∃ next out, serverStep s event = some (next, out) ∧ OneOwner next.schedulers ∧
      next.Handed out := by
  cases event with
  | newSub session => exact ⟨_, _, rfl, onNewRTMPSubSession_oneOwner h hrival⟩
  | delSub session => exact ⟨_, _, rfl, h, nofun⟩
  | newPub session => exact ⟨_, _, rfl, h.disablePhase2 session, handed_of_audit nofun⟩

-- While every subscription that gets a lease is the first or on the connection of the
-- first, at most one scheduler may write to the state directory, and after a session acquired
-- ownership no deleted session may.
theorem one_writer_per_directory {runID stateDir : String} {enabled : Bool} {mode : UtilityMode}
    {past : List SessionEvent} {event : SessionEvent}
    (hrival : Along serverStep Unrivalled (newServer runID stateDir enabled mode) (past ++ [event])) :
    ∃ s log next out,
      run serverStep (newServer runID stateDir enabled mode) past = some (s, log) ∧
      serverStep s event = some (next, out) ∧
      (∀ connection other, next.Writer connection → next.Live connection →
        next.Writer other → next.Live other → connection = other) ∧
      ∀ record ∈ out, record.decision = .ownerAcquired →
        ∀ connection, next.Writer connection → next.Live connection := by
  obtain ⟨s, log, hrun, hone⟩ := run_progress (fun _ _ s => OneOwner s.schedulers)
    (fun _ _ s event hinv hcond => by
      obtain ⟨next, out, hstep, hnext, -⟩ := serverStep_oneOwner hinv hcond
      exact ⟨next, out, hstep, hnext⟩)
    [] [] (newServer runID stateDir enabled mode) past (.newServer runID stateDir enabled mode)
    hrival.left
  obtain ⟨next, out, hstep, hnext, hhanded⟩ := serverStep_oneOwner hone ((Along.snoc hrun).mp hrival).2
  exact ⟨s, log, next, out, hrun, hstep, fun connection other hwriter _ hother _ =>
    hnext.unique_writer hwriter hother, hhanded⟩

def firstSession : RtmpSession := ⟨"sub-1", "live", "first", some 1⟩

def secondSession : RtmpSession := ⟨"sub-2", "live", "second", some 2⟩

def laterSession : RtmpSession := ⟨"sub-3", "live", "first", some 3⟩

-- Both sessions have a controller for the directory; and a session keeps the one it has
-- when it is deleted and its lease goes to another one.
theorem two_sessions_share_the_directory :
    (∃ s log, run serverStep (newServer "run" "/state" true .qaccessT)
        [.newSub firstSession, .newSub secondSession] = some (s, log) ∧
      s.Writer 1 ∧ s.Live 1 ∧ s.Writer 2 ∧ s.Live 2) ∧
    ∃ s log, run serverStep (newServer "run" "/state" true .qaccessT)
        [.newSub firstSession, .delSub firstSession, .newSub laterSession] = some (s, log) ∧
      ⟨laterSession, .ownerAcquired⟩ ∈ log ∧ s.Writer 1 ∧ ¬ s.Live 1 := by
  refine ⟨⟨_, _, rfl, ?_⟩, _, _, rfl, ?_⟩
  · decide +kernel
  · decide +kernel

theorem one_writer_per_directory_example :
    let events : List SessionEvent := [.newSub firstSession, .newSub laterSession,
      .delSub firstSession]
    Along serverStep Unrivalled (newServer "run" "/state" true .qaccessT)
        (events ++ [.newSub firstSession]) ∧
      ∃ s log next out,
        run serverStep (newServer "run" "/state" true .qaccessT) events = some (s, log) ∧
        serverStep s (.newSub firstSession) = some (next, out) ∧
        (∀ connection other, next.Writer connection → next.Live connection →
          next.Writer other → next.Live other → connection = other) ∧
        ∀ record ∈ out, record.decision = .ownerAcquired →
          ∀ connection, next.Writer connection → next.Live connection := by
  intro events
  have hrival : Along serverStep Unrivalled (newServer "run" "/state" true .qaccessT)
      (events ++ [.newSub firstSession]) := by
    refine ⟨fun _ _ _ h => absurd rfl h, ?_, trivial, ?_, trivial⟩
    · intro _ hopen
      exact absurd (hopen _ rfl) (by decide +kernel)
    · intro _ _ connection hconfigured
      by_contra hne
      have hfirst : connection ≠ 1 := fun h => hne (congrArg some h.symm)
      by_cases hlater : connection = 3
      · subst hlater
        exact hconfigured rfl
      · have hsame : ∀ (schedulers : Nat → SessionScheduler) (sch sch' : SessionScheduler),
            Function.update (Function.update schedulers 1 sch) 3 sch' connection =
              schedulers connection := by
          intro schedulers sch sch'
          rw [Function.update_of_ne hlater, Function.update_of_ne hfirst]
        exact hconfigured (congrArg SessionScheduler.phase2Identity
          (hsame (newServer "run" "/state" true .qaccessT).schedulers _ _))
  exact ⟨hrival, one_writer_per_directory hrival⟩

end MpQuic.QAccess

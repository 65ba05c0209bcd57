import MpQuic.Connection.Lookups

namespace MpQuic.Connection

open MpQuic.Library MpQuic.Wire

variable {σ S ε : Type}

def ReceivedPacket.time (pkt : ReceivedPacket) (now : Int) : Int :=
  pkt.rcvTime.getD now

namespace Session

-- The packet cannot be opened with the packet number that is inferred for its path. A path
-- that is new has not received any packet.
def Forged (env : Environment σ S ε) (s : Session σ S) (pkt : ReceivedPacket) : Prop :=
  let hdr := pkt.publicHeader
  let largest := ((s.paths hdr.pathID).map (·.largestRcvdPacketNumber)).getD 0
  env.aead pkt.data (inferPacketNumber hdr.packetNumberLen largest hdr.packetNumber)
    pkt.publicHeaderBinary = none

def RefusesPath (s : Session σ S) (pathID : Nat) : Prop :=
  s.perspective = .client ∧ pathID % 2 ≠ 0 ∨ s.perspective = .server ∧ pathID % 2 = 0

-- A packet that comes at the time of the last activity, on a path that is closed or works and
-- was active at that time, or with the ID of a path that the peer may not create.
def Quiet (env : Environment σ S ε) (s : Session σ S) (pkt : ReceivedPacket) : Prop :=
  s.lastNetworkActivityTime = pkt.time env.now ∧
    match s.paths pkt.publicHeader.pathID with
    | some pth =>
      pth.isOpen = true →
        pth.potentiallyFailed = false ∧ pth.lastNetworkActivityTime = pkt.time env.now
    | none =>
      s.pathManager ≠ none ∧ s.RefusesPath pkt.publicHeader.pathID

structure SameReception (s next : Session σ S) : Prop where
  paths : next.paths = s.paths
  time : next.lastNetworkActivityTime = s.lastNetworkActivityTime
  pathManager : next.pathManager = s.pathManager
  perspective : next.perspective = s.perspective

section Unopened

variable {env : Environment σ S ε} {s : Session σ S} {pathID : Nat} {pth : Path σ}
  {pkt : ReceivedPacket}

theorem handlePathPacket_unopened
    (hopen : env.aead pkt.data (inferPacketNumber pkt.publicHeader.packetNumberLen
      pth.largestRcvdPacketNumber pkt.publicHeader.packetNumber) pkt.publicHeaderBinary = none) :
    s.handlePathPacket env pathID pth pkt =
      if pth.isOpen then
        .ok (s.setPath pathID { pth with
          lastNetworkActivityTime := pkt.rcvTime.getD pth.lastNetworkActivityTime
          potentiallyFailed := false }, some (.unpack .decryptionFailure))
      else .ok (s, none) := by
  have hunpack : unpack s.version env.aead pkt.publicHeaderBinary
      (inferPacketNumber pkt.publicHeader.packetNumberLen pth.largestRcvdPacketNumber
        pkt.publicHeader.packetNumber) pkt.publicHeader.packetNumberLen pkt.data =
      .error .decryptionFailure := by
    unfold unpack
    rw [hopen]
  unfold handlePathPacket
  cases hclosed : pth.isOpen with
  | false => rfl
  | true =>
    dsimp only
    rw [if_neg (by decide : ¬(!true) = true), if_pos rfl, hunpack]

theorem setPath_paths_eq_iff {next : Path σ} (hpath : s.paths pathID = some pth) :
    (s.setPath pathID next).paths = s.paths ↔ next = pth := by
  constructor
  · intro hsame
    have hat := congrFun hsame pathID
    rw [hpath] at hat
    simpa [setPath] using hat
  · rintro rfl
    exact Function.update_eq_self_iff.mpr hpath.symm

theorem touched_eq_iff (pth : Path σ) (time : Int) :
    { pth with lastNetworkActivityTime := time, potentiallyFailed := false } = pth ↔
      pth.potentiallyFailed = false ∧ pth.lastNetworkActivityTime = time := by
  cases pth
  simp [eq_comm]

theorem handlePacketImpl_known (hpath : s.paths pkt.publicHeader.pathID = some pth)
    (hforged : s.Forged env pkt) :
    s.handlePacketImpl env pkt =
      if pth.isOpen then
        .ok ((s.noteArrival pkt (pkt.time env.now)).setPath pkt.publicHeader.pathID { pth with
          lastNetworkActivityTime := pkt.time env.now
          potentiallyFailed := false }, some (.unpack .decryptionFailure))
      else .ok (s.noteArrival pkt (pkt.time env.now), none) := by
  unfold Forged at hforged
  dsimp only at hforged
  rw [hpath] at hforged
  unfold handlePacketImpl
  dsimp only
  have hnoted : (s.noteArrival { pkt with rcvTime := some (pkt.rcvTime.getD env.now) }
      (pkt.rcvTime.getD env.now)).paths pkt.publicHeader.pathID = some pth := hpath
  rw [hnoted]
  exact handlePathPacket_unopened hforged

theorem createPathFromRemote_unknown (env : Environment σ S ε) (pkt : ReceivedPacket)
    (hpath : s.paths pkt.publicHeader.pathID = none) :
    s.pathManager = none ∧ s.createPathFromRemote env pkt = .error .nilPathManager ∨
      s.pathManager ≠ none ∧ s.RefusesPath pkt.publicHeader.pathID ∧
        (∃ err, s.createPathFromRemote env pkt = .ok (s, some err)) ∨
      s.pathManager ≠ none ∧ ¬s.RefusesPath pkt.publicHeader.pathID ∧
        s.createPathFromRemote env pkt = .ok (s.setPath pkt.publicHeader.pathID
          (newPath s.version env.now pkt.localAddr pkt.remoteAddr), none) := by
  unfold createPathFromRemote RefusesPath
  cases hmanager : s.pathManager with
  | none => exact Or.inl ⟨rfl, rfl⟩
  | some pm =>
    refine Or.inr ?_
    dsimp only
    rw [hpath, if_neg (by simp)]
    by_cases hclient : s.perspective = .client ∧ pkt.publicHeader.pathID % 2 ≠ 0
    · rw [if_pos hclient]
      exact Or.inl ⟨by simp, Or.inl hclient, _, rfl⟩
    rw [if_neg hclient]
    by_cases hserver : s.perspective = .server ∧ pkt.publicHeader.pathID % 2 = 0
    · rw [if_pos hserver]
      exact Or.inl ⟨by simp, Or.inr hserver, _, rfl⟩
    · rw [if_neg hserver]
      exact Or.inr ⟨by simp, not_or.mpr ⟨hclient, hserver⟩, rfl⟩

theorem handlePacketImpl_unknown (hpath : s.paths pkt.publicHeader.pathID = none)
    (hforged : s.Forged env pkt) :
    s.pathManager = none ∧ s.handlePacketImpl env pkt = .error .nilPathManager ∨
      s.pathManager ≠ none ∧ s.RefusesPath pkt.publicHeader.pathID ∧
        (∃ err, s.handlePacketImpl env pkt = .ok (s.noteArrival pkt (pkt.time env.now), some err)) ∨
      s.pathManager ≠ none ∧ ¬s.RefusesPath pkt.publicHeader.pathID ∧
        ∃ next err, s.handlePacketImpl env pkt = .ok (next, err) ∧
          next.paths pkt.publicHeader.pathID ≠ none := by
  unfold Forged at hforged
  dsimp only at hforged
  rw [hpath] at hforged
  have hnoted : (s.noteArrival { pkt with rcvTime := some (pkt.rcvTime.getD env.now) }
      (pkt.rcvTime.getD env.now)).paths pkt.publicHeader.pathID = none := hpath
  unfold handlePacketImpl
  dsimp only
  rw [hnoted]
  rcases createPathFromRemote_unknown env
      { pkt with rcvTime := some (pkt.rcvTime.getD env.now) } hnoted with
    ⟨hmanager, hcreate⟩ | ⟨hmanager, hrefuses, err, hcreate⟩ | ⟨hmanager, hrefuses, hcreate⟩
  · rw [hcreate]
    exact Or.inl ⟨hmanager, rfl⟩
  · rw [hcreate]
    exact Or.inr (Or.inl ⟨hmanager, hrefuses, err, rfl⟩)
  · rw [hcreate]
    refine Or.inr (Or.inr ⟨hmanager, hrefuses, ?_⟩)
    dsimp only
    rw [setPath_paths_self]
    dsimp only
    rw [handlePathPacket_unopened hforged,
      if_pos (show (newPath _ _ _ _ : Path σ).isOpen = true from rfl)]
    refine ⟨_, _, rfl, ?_⟩
    rw [setPath_paths_self]
    exact Option.some_ne_none _

theorem handlePacketImpl_forged_iff (hforged : s.Forged env pkt) :
    (∃ next err, s.handlePacketImpl env pkt = .ok (next, err) ∧ SameReception s next) ↔
      s.Quiet env pkt := by
  unfold Quiet
  cases hpath : s.paths pkt.publicHeader.pathID with
  | some pth =>
    rw [handlePacketImpl_known hpath hforged]
    dsimp only
    by_cases hopen : pth.isOpen = true
    · rw [if_pos hopen]
      constructor
      · rintro ⟨next, err, hnext, hreception⟩
        cases hnext
        refine ⟨hreception.time.symm, fun _ => ?_⟩
        exact (touched_eq_iff pth _).mp ((setPath_paths_eq_iff hpath).mp hreception.paths)
      · rintro ⟨htime, hquiet⟩
        refine ⟨_, _, rfl, ?_, htime.symm, rfl, rfl⟩
        exact (setPath_paths_eq_iff hpath).mpr ((touched_eq_iff pth _).mpr (hquiet hopen))
    · rw [if_neg hopen]
      constructor
      · rintro ⟨next, err, hsame, hreception⟩
        cases hsame
        exact ⟨hreception.time.symm, fun h => absurd h hopen⟩
      · rintro ⟨htime, -⟩
        exact ⟨_, _, rfl, rfl, htime.symm, rfl, rfl⟩
  | none =>
    dsimp only
    rcases handlePacketImpl_unknown hpath hforged with
      ⟨hmanager, hcrash⟩ | ⟨hmanager, hrefuses, err, hok⟩ | ⟨hmanager, hrefuses, next, err, hok, hnew⟩
    · rw [hcrash]
      constructor
      · rintro ⟨next, err, hsame, -⟩
        cases hsame
      · rintro ⟨-, hsome, -⟩
        exact absurd hmanager hsome
    · rw [hok]
      constructor
      · rintro ⟨next, err, hsame, hreception⟩
        cases hsame
        exact ⟨hreception.time.symm, hmanager, hrefuses⟩
      · rintro ⟨htime, -⟩
        exact ⟨_, _, rfl, rfl, htime.symm, rfl, rfl⟩
    · rw [hok]
      constructor
      · rintro ⟨next, err, hsame, hreception⟩
        cases hsame
        rw [hreception.paths] at hnew
        exact absurd hpath hnew
      · rintro ⟨-, -, hallowed⟩
        exact absurd hallowed hrefuses

end Unopened

def packetStep (s : Session σ S) (arrival : Environment σ S ε × ReceivedPacket) :
    Option (Session σ S × List (Option (SessionError ε))) :=
  match s.handlePacketImpl arrival.1 arrival.2 with
  | .error _ => none
  | .ok (s, err) => some (s, [err])

theorem SameReception.trans {s next last : Session σ S} (hfirst : SameReception s next)
    (hsecond : SameReception next last) : SameReception s last :=
  ⟨hsecond.paths.trans hfirst.paths, hsecond.time.trans hfirst.time,
    hsecond.pathManager.trans hfirst.pathManager, hsecond.perspective.trans hfirst.perspective⟩

theorem SameReception.quiet_iff {s next : Session σ S} (hsame : SameReception s next)
    (env : Environment σ S ε) (pkt : ReceivedPacket) :
    (next.Forged env pkt ↔ s.Forged env pkt) ∧ (next.Quiet env pkt ↔ s.Quiet env pkt) := by
  unfold Forged Quiet RefusesPath
  rw [hsame.paths, hsame.time, hsame.pathManager, hsame.perspective]
  exact ⟨Iff.rfl, Iff.rfl⟩

theorem run_forged (s : Session σ S) (arrivals : List (Environment σ S ε × ReceivedPacket))
    (hquiet : ∀ arrival ∈ arrivals, s.Forged arrival.1 arrival.2 ∧ s.Quiet arrival.1 arrival.2) :
    ∃ last log, run packetStep s arrivals = some (last, log) ∧ SameReception s last := by
  refine run_progress (fun _ _ now => SameReception s now) (fun past log now arrival hsame hcond => ?_)
    [] [] s arrivals ⟨rfl, rfl, rfl, rfl⟩ (Along.of_forall hquiet s)
  obtain ⟨hforged, hquiet⟩ := hsame.quiet_iff arrival.1 arrival.2
  obtain ⟨next, err, hok, hnext⟩ :=
    (handlePacketImpl_forged_iff (hforged.mpr hcond.1)).mpr (hquiet.mpr hcond.2)
  refine ⟨next, [err], ?_, hsame.trans hnext⟩
  unfold packetStep
  rw [hok]

-- A packet that cannot be opened leaves the paths, with all that they know, and the time of the
-- last activity as they are exactly if it is quiet, and any number of quiet ones does so too.
theorem forged_packets_have_no_effect_iff :
    (∀ (env : Environment σ S ε) (s : Session σ S) (pkt : ReceivedPacket), s.Forged env pkt →
      ((∃ next err, s.handlePacketImpl env pkt = .ok (next, err) ∧ SameReception s next) ↔
        s.Quiet env pkt)) ∧
    ∀ (s : Session σ S) (arrivals : List (Environment σ S ε × ReceivedPacket)),
      (∀ arrival ∈ arrivals, s.Forged arrival.1 arrival.2 ∧ s.Quiet arrival.1 arrival.2) →
      ∃ last log, run packetStep s arrivals = some (last, log) ∧ SameReception s last :=
  ⟨fun _ _ _ hforged => handlePacketImpl_forged_iff hforged, run_forged⟩

end Session

def sealedEnvironment : Environment Unit Unit Unit :=
  { lookupEnvironment with now := 5, aead := fun _ _ _ => none }

def forgedPacket (pathID : Nat) : ReceivedPacket where
  publicHeader := ⟨0, pathID, false, false, false, true, 1, 1, versionMP, []⟩
  publicHeaderBinary := []
  data := []
  rcvTime := some 5
  localAddr := ⟨[], 0⟩
  remoteAddr := ⟨[], 0⟩

theorem forged_packets_have_no_effect_example :
    let s := { lookupSession.setPath 0 (newPath versionMP 5 ⟨[], 0⟩ ⟨[], 0⟩) with
      lastNetworkActivityTime := 5 }
    ∃ next err, s.handlePacketImpl sealedEnvironment (forgedPacket 0) = .ok (next, err) ∧
      Session.SameReception s next := by
  intro s
  have hforged : s.Forged sealedEnvironment (forgedPacket 0) := rfl
  refine (Session.forged_packets_have_no_effect_iff.1 _ s _ hforged).mpr ⟨rfl, fun _ => ?_⟩
  exact ⟨rfl, rfl⟩

-- A path that had failed works again for the session, and a path is created.
theorem forged_packets_revive_and_create_paths :
    let s := lookupSession.setPath 0
      { newPath versionMP 0 ⟨[], 0⟩ ⟨[], 0⟩ with potentiallyFailed := true }
    s.Forged sealedEnvironment (forgedPacket 0) ∧ s.Forged sealedEnvironment (forgedPacket 1) ∧
      (∃ next err, s.handlePacketImpl sealedEnvironment (forgedPacket 0) = .ok (next, err) ∧
        (s.paths 0).map (·.potentiallyFailed) = some true ∧
        (next.paths 0).map (·.potentiallyFailed) = some false) ∧
      ∃ next err, s.handlePacketImpl sealedEnvironment (forgedPacket 1) = .ok (next, err) ∧
        (s.paths 1).isNone ∧ (next.paths 1).isSome :=
  ⟨rfl, rfl, ⟨_, _, rfl, rfl, rfl⟩, ⟨_, _, rfl, rfl, rfl⟩⟩

end MpQuic.Connection

import MpQuic.Connection.Defs

namespace MpQuic.Connection

open MpQuic.Library MpQuic.Wire List

def PathsFrame.Sized (f : PathsFrame) : Prop :=
  f.pathIDs.length = f.numPaths ∧ f.remoteRTTs.length = f.numPaths

def Received : Frame StreamFrame → Prop
  | .control (.paths f) => PathsFrame.Sized f
  | _ => True

section Unpacked

variable (version : Int)

theorem yields_parsePaths (order : ByteOrder) (count : Nat) :
    Yields (parsePaths order count) fun paths => paths.length = count := by
  induction count with
  | zero => exact Yields.pure rfl
  | succ count ih =>
    refine (Yields.any readByte).bind fun _ _ => ?_
    refine (Yields.any (readUfloat16 order)).bind fun _ _ => ?_
    refine ih.bind fun later hlater => ?_
    refine Yields.pure ?_
    rw [length_cons, hlater]

theorem yields_parsePathsFrame : Yields (parsePathsFrame version) PathsFrame.Sized := by
  refine (Yields.any readByte).bind fun _ _ => ?_
  refine (Yields.any readByte).bind fun maxNumPaths _ => ?_
  refine (Yields.any readByte).bind fun numPaths _ => ?_
  refine (Yields.any (Parser.check _ _)).bind fun _ _ => ?_
  refine (yields_parsePaths _ _).bind fun paths hpaths => ?_
  refine Yields.pure ⟨?_, ?_⟩
  · rw [length_map, hpaths]
  · rw [length_map, hpaths]

theorem yields_unpackControlFrame {α : Type} {toControl : α → ControlFrame}
    (wrap : ParseError → UnpackError) {parser : FrameParser α}
    (hp : Yields parser fun frame => Received (.control (toControl frame))) :
    Yields (FrameContext.unpackControlFrame toControl wrap parser) Received :=
  (hp.mapError wrap).map _ fun _ h => h

theorem yields_unpackFrame (ctx : FrameContext) (typeByte : UInt8) :
    Yields (ctx.unpackFrame typeByte) Received := by
  have hother : ∀ {α : Type} {toControl : α → ControlFrame} (wrap : ParseError → UnpackError)
      (parser : FrameParser α), (∀ frame, Received (.control (toControl frame))) →
      Yields (FrameContext.unpackControlFrame toControl wrap parser) Received :=
    fun wrap parser h => yields_unpackControlFrame wrap fun _ frame _ _ => h frame
  refine Yields.ite ?_ (Yields.ite ?_ (Yields.ite (Yields.throw _) ?_))
  · refine (Yields.any _).bind fun frame _ => ?_
    exact (Yields.any _).bind fun _ _ => Yields.pure trivial
  · exact hother _ _ fun _ => trivial
  iterate 9 refine Yields.ite (hother _ _ fun _ => trivial) ?_
  exact Yields.ite (yields_unpackControlFrame _ (yields_parsePathsFrame _)) (Yields.throw _)

theorem unpackFrames_received (ctx : FrameContext) {fuel : Nat} {bytes : List UInt8}
    {frames : List (Frame StreamFrame)} (hunpack : ctx.unpackFrames fuel bytes = .ok frames) :
    ∀ frame ∈ frames, Received frame := by
  induction fuel generalizing bytes frames with
  | zero =>
    cases bytes <;> cases hunpack <;> simp
  | succ fuel ih =>
    cases bytes with
    | nil =>
      cases hunpack
      simp
    | cons typeByte rest =>
      unfold FrameContext.unpackFrames at hunpack
      split at hunpack
      · exact ih hunpack
      · cases hrun : (ctx.unpackFrame typeByte).run (typeByte :: rest) with
        | error err =>
          rw [hrun] at hunpack
          cases hunpack
        | ok found =>
          rw [hrun] at hunpack
          dsimp only at hunpack
          cases hlater : ctx.unpackFrames fuel found.2 with
          | error err =>
            rw [hlater] at hunpack
            cases hunpack
          | ok later =>
            rw [hlater] at hunpack
            cases hunpack
            have hfirst := yields_unpackFrame ctx typeByte _ _ _ hrun
            exact forall_mem_cons.mpr ⟨hfirst, ih hlater⟩

theorem unpack_received {aead : Opener} {publicHeaderBinary data : List UInt8}
    {packetNumber packetNumberLen : Nat} {packet : UnpackedPacket}
    (hunpack : unpack version aead publicHeaderBinary packetNumber packetNumberLen data =
      .ok packet) : ∀ frame ∈ packet.frames, Received frame := by
  unfold unpack at hunpack
  cases hopen : aead data packetNumber publicHeaderBinary with
  | none =>
    rw [hopen] at hunpack
    cases hunpack
  | some opened =>
    rw [hopen] at hunpack
    dsimp only at hunpack
    split at hunpack
    · cases hunpack
    · obtain ⟨decrypted, encryptionLevel⟩ := opened
      cases hframes : FrameContext.unpackFrames
          ⟨version, packetNumber, packetNumberLen, encryptionLevel⟩ decrypted.length decrypted with
      | error err =>
        rw [hframes] at hunpack
        cases hunpack
      | ok frames =>
        rw [hframes] at hunpack
        cases hunpack
        exact unpackFrames_received _ hframes

end Unpacked

namespace Session

variable {σ S ε : Type}

-- The paths that an ACK frame is for, and those that a PATHS frame reports as failed, exist.
def KnowsPaths (s : Session σ S) : Frame StreamFrame → Prop
  | .control (.ack f) => s.paths f.pathID ≠ none
  | .control (.paths f) =>
    ∀ entry ∈ f.pathIDs.zip f.remoteRTTs, failedRTT ≤ entry.2 → s.paths entry.1 ≠ none
  | _ => True

def frameStep (env : Environment σ S ε) (pathID : Nat) (rcvTime : Int) (s : Session σ S)
    (frame : Frame StreamFrame) : Option (Session σ S × List Unit) :=
  match s.handleFrame env pathID rcvTime frame with
  | .error _ => none
  | .ok (s, err) => if err.all SessionError.isIgnored then some (s, []) else none

section Paths

variable {f : PathsFrame}

theorem setPath_paths_ne_none {s : Session σ S} {pathID : Nat} {pth : Path σ}
    (hpath : s.paths pathID ≠ none) (other : Nat) :
    (s.setPath pathID pth).paths other ≠ none ↔ s.paths other ≠ none := by
  by_cases heq : other = pathID
  · subst heq
    simp [setPath, hpath]
  · simp [setPath, heq]

def KnowsEntry (f : PathsFrame) (s : Session σ S) (i : Nat) : Prop :=
  ∀ entry, (f.pathIDs.zip f.remoteRTTs)[i]? = some entry → failedRTT ≤ entry.2 →
    s.paths entry.1 ≠ none

theorem handlePathsEntry_spec (hf : PathsFrame.Sized f) {s : Session σ S} {i : Nat}
    (hi : i < f.numPaths) :
    (∃ absent, handlePathsEntry f s i = .error (.nilPath absent) ∧ ¬KnowsEntry f s i) ∨
      ∃ next : Session σ S, handlePathsEntry f s i = .ok next ∧ KnowsEntry f s i ∧
        ∀ other, next.paths other ≠ none ↔ s.paths other ≠ none := by
  have hids : i < f.pathIDs.length := by rw [hf.1]; exact hi
  have hrtts : i < f.remoteRTTs.length := by rw [hf.2]; exact hi
  have hentry : (f.pathIDs.zip f.remoteRTTs)[i]? = some (f.pathIDs[i], f.remoteRTTs[i]) := by
    rw [List.getElem?_eq_getElem (by rw [length_zip]; omega), getElem_zip]
  unfold handlePathsEntry KnowsEntry
  rw [hentry, List.getElem?_eq_getElem hids, List.getElem?_eq_getElem hrtts]
  dsimp only
  by_cases hfailed : f.remoteRTTs[i] ≥ failedRTT
  · rw [if_pos hfailed]
    cases hpath : s.paths f.pathIDs[i] with
    | none =>
      refine Or.inl ⟨_, rfl, fun hknown => ?_⟩
      exact hknown _ rfl hfailed hpath
    | some pth =>
      refine Or.inr ⟨_, rfl, ?_, fun other => ?_⟩
      · intro entry hsame _
        cases hsame
        simp [hpath]
      · have hne : s.paths f.pathIDs[i] ≠ none := by simp [hpath]
        exact setPath_paths_ne_none hne other
  · rw [if_neg hfailed]
    refine Or.inr ⟨_, rfl, ?_, fun other => Iff.rfl⟩
    intro entry hsame hle
    cases hsame
    exact absurd hle hfailed

theorem foldlM_handlePathsEntry (hf : PathsFrame.Sized f) {is : List Nat}
    (his : ∀ i ∈ is, i < f.numPaths) (s : Session σ S) :
    (∃ absent, is.foldlM (handlePathsEntry f) s = .error (.nilPath absent) ∧
        ¬∀ i ∈ is, KnowsEntry f s i) ∨
      ∃ next, is.foldlM (handlePathsEntry f) s = .ok next ∧ ∀ i ∈ is, KnowsEntry f s i := by
  induction is generalizing s with
  | nil => exact Or.inr ⟨s, rfl, by simp⟩
  | cons i rest ih =>
    obtain ⟨hi, hrest⟩ := forall_mem_cons.mp his
    rw [foldlM_cons]
    rcases handlePathsEntry_spec hf (s := s) hi with ⟨absent, herr, hunknown⟩ | ⟨next, hok, hknown, hkeys⟩
    · rw [herr]
      exact Or.inl ⟨absent, rfl, fun hall => hunknown (hall i mem_cons_self)⟩
    · have hsame : ∀ j, KnowsEntry f next j ↔ KnowsEntry f s j := by
        intro j
        simp only [KnowsEntry, hkeys]
      rw [hok]
      rcases ih hrest next with ⟨absent, herr, hunknown⟩ | ⟨last, hlast, hall⟩
      · refine Or.inl ⟨absent, herr, fun hall => hunknown fun j hj => ?_⟩
        exact (hsame j).mpr (hall j (mem_cons_of_mem _ hj))
      · refine Or.inr ⟨last, hlast, ?_⟩
        exact forall_mem_cons.mpr ⟨hknown, fun j hj => (hsame j).mp (hall j hj)⟩

theorem forall_knowsEntry (hf : PathsFrame.Sized f) (s : Session σ S) :
    (∀ i ∈ List.range f.numPaths, KnowsEntry f s i) ↔ s.KnowsPaths (.control (.paths f)) := by
  constructor
  · intro hall entry hentry
    obtain ⟨i, hi, rfl⟩ := mem_iff_getElem.mp hentry
    have hlt : i < f.numPaths := by
      rw [length_zip, hf.1] at hi
      omega
    exact hall i (mem_range.mpr hlt) _ (List.getElem?_eq_getElem hi)
  · intro hknown i _ entry hentry
    exact hknown entry (mem_of_getElem? hentry)

end Paths

section Frames

variable {env : Environment σ S ε} {pathID : Nat} {rcvTime : Int}

theorem handlePathsFrame_spec {f : PathsFrame} (hf : PathsFrame.Sized f) (s : Session σ S) :
    (∃ absent, s.handlePathsFrame f = .error (.nilPath absent) ∧
        ¬s.KnowsPaths (.control (.paths f))) ∨
      ∃ next, s.handlePathsFrame f = .ok next ∧ s.KnowsPaths (.control (.paths f)) := by
  have hloop := foldlM_handlePathsEntry hf (fun i hi => mem_range.mp hi) s
  rw [forall_knowsEntry hf] at hloop
  exact hloop

theorem handleClosePathFrame_ok (s : Session σ S) (frame : ClosePathFrame) :
    ∃ next, s.handleClosePathFrame frame = .ok next := by
  unfold handleClosePathFrame closePath
  cases hpath : s.paths frame.pathID with
  | none => exact ⟨s, rfl⟩
  | some pth =>
    dsimp only
    by_cases hclosed : s.closedPaths frame.pathID = true
    · rw [if_pos hclosed]
      dsimp only
      rw [hpath]
      exact ⟨_, rfl⟩
    · rw [if_neg hclosed]
      split_ifs
      · simp only [setPath, Function.update_self]
        exact ⟨_, rfl⟩
      · dsimp only
        rw [hpath]
        exact ⟨_, rfl⟩

theorem handleFrame_spec (env : Environment σ S ε) (pathID : Nat) (rcvTime : Int)
    {frame : Frame StreamFrame} (hf : Received frame) (s : Session σ S) :
    (∃ absent, s.handleFrame env pathID rcvTime frame = .error (.nilPath absent) ∧
        ¬s.KnowsPaths frame) ∨
      ∃ result, s.handleFrame env pathID rcvTime frame = .ok result ∧ s.KnowsPaths frame := by
  cases frame with
  | stream frame => exact Or.inr ⟨_, rfl, trivial⟩
  | control frame =>
    cases frame with
    | ack frame =>
      simp only [handleFrame, handleAckFrame, KnowsPaths]
      cases hpath : s.paths frame.pathID with
      | none => exact Or.inl ⟨_, rfl, fun h => h rfl⟩
      | some pth => exact Or.inr ⟨_, rfl, by simp⟩
    | addAddress frame =>
      simp only [handleFrame]
      cases s.pathManager with
      | none => exact Or.inr ⟨_, rfl, trivial⟩
      | some pm => exact Or.inr ⟨_, rfl, trivial⟩
    | closePath frame =>
      obtain ⟨next, hnext⟩ := s.handleClosePathFrame_ok frame
      refine Or.inr ⟨(next, none), ?_, trivial⟩
      simp only [handleFrame, hnext]
      rfl
    | paths frame =>
      rcases s.handlePathsFrame_spec hf with ⟨absent, herr, hunknown⟩ | ⟨next, hok, hknown⟩
      · refine Or.inl ⟨absent, ?_, hunknown⟩
        simp only [handleFrame, herr]
        rfl
      · refine Or.inr ⟨(next, none), ?_, hknown⟩
        simp only [handleFrame, hok]
        rfl
    | _ => exact Or.inr ⟨_, rfl, trivial⟩

theorem handleFrames_safe_iff {frames : List (Frame StreamFrame)}
    (hf : ∀ frame ∈ frames, Received frame) (s : Session σ S) :
    (∀ absent, s.handleFrames env pathID rcvTime frames ≠ .error (.nilPath absent)) ↔
      Along (frameStep env pathID rcvTime) KnowsPaths s frames := by
  induction frames generalizing s with
  | nil => exact ⟨fun _ => trivial, fun _ _ h => by cases h⟩
  | cons frame rest ih =>
    obtain ⟨hfirst, hrest⟩ := forall_mem_cons.mp hf
    unfold handleFrames Along
    rcases handleFrame_spec env pathID rcvTime hfirst s with
      ⟨absent, herr, hunknown⟩ | ⟨⟨next, err⟩, hok, hknown⟩
    · rw [herr]
      exact ⟨fun h => absurd rfl (h absent), fun h => absurd h.1 hunknown⟩
    · unfold frameStep
      rw [hok]
      dsimp only
      by_cases hgoes : err.all SessionError.isIgnored = true
      · rw [if_pos hgoes, if_pos hgoes]
        exact ⟨fun h => ⟨hknown, (ih hrest next).mp h⟩, fun h => (ih hrest next).mpr h.2⟩
      · rw [if_neg hgoes, if_neg hgoes]
        exact ⟨fun _ => ⟨hknown, trivial⟩, fun _ _ h => by cases h⟩

-- The frames of a packet never make the session look at a path that is not there exactly if
-- every ACK frame is for a path that exists when its turn comes, and every path that a PATHS
-- frame reports as failed does so too.
theorem path_lookups_succeed_iff (env : Environment σ S ε) (s : Session σ S) (pathID : Nat)
    (rcvTime : Int) {version : Int} {aead : Opener} {publicHeaderBinary data : List UInt8}
    {packetNumber packetNumberLen : Nat} {packet : UnpackedPacket}
    (hunpack : unpack version aead publicHeaderBinary packetNumber packetNumberLen data =
      .ok packet) :
    (∀ absent, s.handleFrames env pathID rcvTime packet.frames ≠ .error (.nilPath absent)) ↔
      Along (frameStep env pathID rcvTime) KnowsPaths s packet.frames :=
  handleFrames_safe_iff (unpack_received version hunpack) s

end Frames

end Session

def lookupEnvironment : Environment Unit Unit Unit where
  now := 0
  delayUntilLost := fun _ => 0
  localAddrs := []
  newPathsFrame := ⟨0, 0, [], []⟩
  sendPing := fun pth => (pth, none)
  aead := fun data _ _ => some (data, .forwardSecure)
  handleStreamFrame := fun streams _ _ _ => (streams, none)
  handleRstStreamFrame := fun streams _ => (streams, none)
  handleWindowUpdateFrame := fun streams _ => (streams, none)

def lookupSession : Session Unit Unit where
  perspective := .server
  version := versionMP
  createPaths := false
  paths := Function.update (fun _ => none) 0 (some (newPath versionMP 0 ⟨[], 0⟩ ⟨[], 0⟩))
  closedPaths := fun _ => false
  pathManager := some ⟨2, [], [], []⟩
  remoteRTTs := fun _ => none
  lastNetworkActivityTime := 0
  keepAlivePingSent := false
  peerBlocked := false
  closeRemote := none
  diversificationNonces := []
  pathsFrame := none
  lastPathsFrameSent := 0
  addAddressFrames := []
  streams := ()

theorem path_lookups_succeed_example :
    unpack versionMP lookupEnvironment.aead [] 1 1 [0x50, 0, 1, 0, 0, 1, 0] =
        .ok ⟨.forwardSecure, [.control (.ack ⟨⟨1, 1, []⟩, 0, 0⟩)]⟩ ∧
      ∀ absent, lookupSession.handleFrames lookupEnvironment 0 0
        [.control (.ack ⟨⟨1, 1, []⟩, 0, 0⟩)] ≠ .error (.nilPath absent) := by
  have hunpack : unpack versionMP lookupEnvironment.aead [] 1 1 [0x50, 0, 1, 0, 0, 1, 0] =
      .ok ⟨.forwardSecure, [.control (.ack ⟨⟨1, 1, []⟩, 0, 0⟩)]⟩ := by decide +kernel
  refine ⟨hunpack, ?_⟩
  refine (Session.path_lookups_succeed_iff lookupEnvironment lookupSession 0 0 hunpack).mpr ⟨?_, ?_⟩
  · exact Option.some_ne_none _
  · trivial

def strayAck : List UInt8 := [0x50, 7, 1, 0, 0, 1, 0]

def strayPaths : List UInt8 := [0x12, 1, 1, 7, 0xff, 0xff]

theorem stray_path_crashes_session :
    unpack versionMP lookupEnvironment.aead [] 1 1 strayAck =
        .ok ⟨.forwardSecure, [.control (.ack ⟨⟨1, 1, []⟩, 7, 0⟩)]⟩ ∧
      lookupSession.handleFrames lookupEnvironment 0 0 [.control (.ack ⟨⟨1, 1, []⟩, 7, 0⟩)] =
        .error (.nilPath 7) ∧
      unpack versionMP lookupEnvironment.aead [] 1 1 strayPaths =
        .ok ⟨.forwardSecure, [.control (.paths ⟨1, 1, [7], [4396972769280000]⟩)]⟩ ∧
      lookupSession.handleFrames lookupEnvironment 0 0
        [.control (.paths ⟨1, 1, [7], [4396972769280000]⟩)] = .error (.nilPath 7) := by
  refine ⟨by decide +kernel, rfl, by decide +kernel, rfl⟩

end MpQuic.Connection

import MpQuic.FlowControl.Receive
import MpQuic.Stms.Framer

namespace MpQuic.FlowControl

open MpQuic.Library List Function
open MpQuic.Stms (contributesToConnection)

structure Stream where
  cancelled : Bool
  finishedReading : Bool
  finishedWriting : Bool
  finSent : Bool
  resetLocally : Bool
  resetRemotely : Bool
  rstSent : Bool
  deriving DecidableEq, Repr

def newStream : Stream := ⟨false, false, false, false, false, false, false⟩

namespace Stream

def finishedWriteAndSentFin (s : Stream) : Bool :=
  s.finishedWriting && s.finSent

def finished (s : Stream) : Bool :=
  s.cancelled || (s.finishedReading && s.finishedWriteAndSentFin) ||
    (s.resetRemotely && s.rstSent) || (s.finishedReading && s.rstSent) ||
    (s.finishedWriteAndSentFin && s.resetRemotely)

def shouldSendReset (s : Stream) : Bool :=
  if s.rstSent then false
  else (s.resetLocally || s.resetRemotely) && !s.finishedWriteAndSentFin

def sendReset (s : Stream) : Stream :=
  { s with rstSent := s.rstSent || s.shouldSendReset }

def registerRemoteError (s : Stream) : Stream :=
  if s.resetRemotely then s else { s with resetRemotely := true }.sendReset

def reset (s : Stream) : Stream :=
  if s.resetLocally then s else { s with resetLocally := true }.sendReset

def cancel (s : Stream) : Stream :=
  { s with cancelled := true }

def close (s : Stream) : Stream :=
  { s with finishedWriting := true }

def sentFin (s : Stream) : Stream :=
  { s with finSent := true }

end Stream

-- The receiving side of a session: the streams in the map, their numbers in the order in
-- which they were opened, and the flow controllers.
structure Receiver where
  streams : Nat → Option Stream
  openStreams : List Nat
  flowControlManager : FlowControlManager

def newReceiver (params : ConnectionParameters) : Receiver where
  streams := fun _ => none
  openStreams := []
  flowControlManager := newFlowControlManager params

inductive LocalCall where
  | reset
  | cancel
  | close
  | sentFin
  deriving DecidableEq, Repr

def Stream.call (s : Stream) : LocalCall → Stream
  | .reset => s.reset
  | .cancel => s.cancel
  | .close => s.close
  | .sentFin => s.sentFin

namespace Receiver

def setStream (r : Receiver) (streamID : Nat) (s : Stream) : Receiver :=
  { r with streams := Function.update r.streams streamID (some s) }

def openStream (r : Receiver) (streamID : Nat) : Receiver :=
  match r.streams streamID with
  | some _ => r
  | none =>
    { r.setStream streamID newStream with
      openStreams := r.openStreams ++ [streamID]
      flowControlManager :=
        r.flowControlManager.newStream streamID (contributesToConnection streamID) }

-- Frames for a stream that is not in the map any more are ignored.
def addStreamFrame (r : Receiver) (streamID maxOffset : Nat) :
    Receiver × Option FlowControlError :=
  match r.streams streamID with
  | none => (r, none)
  | some _ =>
    let updated := r.flowControlManager.updateHighestReceived streamID maxOffset
    ({ r with flowControlManager := updated.1 }, updated.2)

def handleRstStreamFrame (r : Receiver) (streamID byteOffset : Nat) :
    Receiver × Option FlowControlError :=
  match r.streams streamID with
  | none => (r, none)
  | some s =>
    let reset := r.flowControlManager.resetStream streamID byteOffset
    ({ r.setStream streamID s.registerRemoteError with flowControlManager := reset.1 }, reset.2)

-- `Read` takes `n` bytes from a frame, which may be the last one of the stream. After a
-- remote reset the bytes are not counted.
def read (r : Receiver) (streamID n : Nat) (fin : Bool) (now connNow : Int) : Receiver :=
  match r.streams streamID with
  | none => r
  | some s =>
    if s.cancelled || s.resetLocally || s.finishedReading then r
    else
      let r := r.setStream streamID { s with finishedReading := fin }
      if s.resetRemotely then r
      else
        { r with
          flowControlManager := r.flowControlManager.addBytesRead streamID n now connNow }

def removeStream (r : Receiver) (streamID : Nat) : Receiver where
  streams := Function.update r.streams streamID none
  openStreams := r.openStreams.erase streamID
  flowControlManager := r.flowControlManager.removeStream streamID

def collectStream (r : Receiver) (streamID : Nat) : Receiver :=
  match r.streams streamID with
  | none => r
  | some s => if s.finished then r.removeStream streamID else r

def garbageCollectStreams (r : Receiver) : Receiver :=
  r.openStreams.foldl collectStream r

end Receiver

inductive CreditEvent where
  | openStream (streamID : Nat)
  | streamFrame (streamID maxOffset : Nat)
  | rstStreamFrame (streamID byteOffset : Nat)
  | read (streamID n : Nat) (fin : Bool) (now connNow : Int)
  | localCall (streamID : Nat) (call : LocalCall)
  | getWindowUpdates (force : Bool) (order : List Nat) (readings : Nat → Readings)
  | garbageCollectStreams

def creditStep (r : Receiver) : CreditEvent → Option (Receiver × List FlowControlError)
  | .openStream streamID => some (r.openStream streamID, [])
  | .streamFrame streamID maxOffset =>
    some ((r.addStreamFrame streamID maxOffset).1, (r.addStreamFrame streamID maxOffset).2.toList)
  | .rstStreamFrame streamID byteOffset =>
    some ((r.handleRstStreamFrame streamID byteOffset).1,
      (r.handleRstStreamFrame streamID byteOffset).2.toList)
  | .read streamID n fin now connNow => some (r.read streamID n fin now connNow, [])
  | .localCall streamID call =>
    match r.streams streamID with
    | none => some (r, [])
    | some s => some (r.setStream streamID (s.call call), [])
  | .getWindowUpdates force order readings =>
    some ({ r with flowControlManager :=
      (r.flowControlManager.getWindowUpdates force order readings).1 }, [])
  | .garbageCollectStreams => some (r.garbageCollectStreams, [])

-- The bytes that were received and not yet read. The counters have 64 bits.
@[irreducible] def FlowController.unread (c : FlowController) : ZMod (2 ^ 64) :=
  c.highestReceived - c.bytesRead

def FlowControlManager.unread (m : FlowControlManager) (streamID : Nat) : ZMod (2 ^ 64) :=
  match m.streamFlowController streamID with
  | none => 0
  | some c => if c.contributesToConnection then c.unread else 0

def Receiver.Balanced (r : Receiver) : Prop :=
  r.flowControlManager.connFlowController.unread =
    (r.openStreams.map r.flowControlManager.unread).sum

instance (r : Receiver) : Decidable r.Balanced :=
  inferInstanceAs (Decidable (_ = _))

def Receiver.Drained (r : Receiver) : Prop :=
  ∀ streamID ∈ r.openStreams, (r.streams streamID).any Stream.finished = true →
    r.flowControlManager.unread streamID = 0

instance (r : Receiver) : Decidable r.Drained :=
  inferInstanceAs (Decidable (∀ streamID ∈ r.openStreams, _ = true → _ = 0))

-- No stream is removed with bytes that were not counted as read.
def ReadBefore (r : Receiver) : CreditEvent → Prop
  | .garbageCollectStreams => r.Drained
  | _ => True

instance (r : Receiver) : (event : CreditEvent) → Decidable (ReadBefore r event)
  | .garbageCollectStreams => inferInstanceAs (Decidable r.Drained)
  | .openStream _ | .streamFrame _ _ | .rstStreamFrame _ _ | .read _ _ _ _ _ | .localCall _ _
  | .getWindowUpdates _ _ _ => isTrue trivial

-- The lists and maps of a receiver agree, and its counters do.
structure Accounted (r : Receiver) : Prop where
  nodup : r.openStreams.Nodup
  streams : ∀ id, r.streams id = none ↔ id ∉ r.openStreams
  controllers : ∀ id, r.flowControlManager.streamFlowController id = none ↔ id ∉ r.openStreams
  balanced : r.Balanced

section Managers

variable {m : FlowControlManager} {streamID n : Nat} {c : FlowController}

structure SameCounts (m m' : FlowControlManager) : Prop where
  known : ∀ id, m'.streamFlowController id = none ↔ m.streamFlowController id = none
  unread : ∀ id, m'.unread id = m.unread id
  conn : m'.connFlowController.unread = m.connFlowController.unread

theorem SameCounts.refl (m : FlowControlManager) : SameCounts m m :=
  ⟨fun _ => Iff.rfl, fun _ => rfl, rfl⟩

theorem SameCounts.trans {m₁ m₂ m₃ : FlowControlManager} (h₁ : SameCounts m₁ m₂)
    (h₂ : SameCounts m₂ m₃) : SameCounts m₁ m₃ := by
  refine ⟨fun id => (h₂.known id).trans (h₁.known id), fun id => ?_, h₂.conn.trans h₁.conn⟩
  rw [h₂.unread, h₁.unread]

structure Counted (m m' : FlowControlManager) (streamID : Nat) (n : ZMod (2 ^ 64)) : Prop where
  known : ∀ id, m'.streamFlowController id = none ↔ m.streamFlowController id = none
  other : ∀ id, id ≠ streamID → m'.unread id = m.unread id
  self : m'.unread streamID = m.unread streamID + n
  conn : m'.connFlowController.unread = m.connFlowController.unread + n

variable {m m' : FlowControlManager} {d : FlowController} {k byteOffset : Nat}

theorem unread_of_some (hc : m.streamFlowController streamID = some c) :
    m.unread streamID = if c.contributesToConnection then c.unread else 0 := by
  unfold FlowControlManager.unread
  rw [hc]

theorem unread_congr {id : Nat}
    (h : m'.streamFlowController id = m.streamFlowController id) : m'.unread id = m.unread id := by
  unfold FlowControlManager.unread
  rw [h]

theorem counted_of_update {k : ZMod (2 ^ 64)}
    (hc : m.streamFlowController streamID = some c)
    (hstreams : m'.streamFlowController =
      update m.streamFlowController streamID (some d))
    (hflag : d.contributesToConnection = c.contributesToConnection) (hunread : d.unread = c.unread + k)
    (hconn : m'.connFlowController.unread = m.connFlowController.unread +
      (if c.contributesToConnection then k else 0)) :
    Counted m m' streamID (if c.contributesToConnection then k else 0) := by
  have hd : m'.streamFlowController streamID = some d := by
    rw [hstreams, update_self]
  refine ⟨fun id => ?_, fun id hid => ?_, ?_, hconn⟩
  · by_cases hid : id = streamID
    · rw [hid, hd, hc]
      simp
    · rw [hstreams, update_of_ne hid]
  · apply unread_congr
    rw [hstreams, update_of_ne hid]
  · rw [unread_of_some hd, unread_of_some hc, hflag, hunread]
    split <;> simp

theorem natCast_mod_add_sub (a b c : Nat) :
    (((a + b) % k : Nat) : ZMod k) - (c : ZMod k) = (a : ZMod k) - (c : ZMod k) + (b : ZMod k) := by
  rw [ZMod.natCast_mod, Nat.cast_add]
  exact add_sub_right_comm _ _ _

theorem sub_natCast_mod_add (a b c : Nat) :
    (a : ZMod k) - (((b + c) % k : Nat) : ZMod k) =
      (a : ZMod k) - (b : ZMod k) + -(c : ZMod k) := by
  rw [ZMod.natCast_mod, Nat.cast_add, sub_add_eq_sub_sub, sub_eq_add_neg _ (c : ZMod k)]

theorem incrementHighestReceived_unread (c : FlowController) (increment : Nat) :
    (c.incrementHighestReceived increment).unread = c.unread + increment := by
  unfold FlowController.unread
  exact natCast_mod_add_sub c.highestReceived increment c.bytesRead

theorem addBytesRead_unread (c : FlowController) (n : Nat) (now : Int) :
    (c.addBytesRead n now).unread = c.unread + -(n : ZMod (2 ^ 64)) := by
  unfold FlowController.unread
  exact sub_natCast_mod_add c.highestReceived c.bytesRead n

theorem updateHighestReceived_unread (c : FlowController) (byteOffset : Nat) :
    (c.updateHighestReceived byteOffset).1.unread =
      c.unread + ((c.updateHighestReceived byteOffset).2 : ZMod (2 ^ 64)) := by
  obtain ⟨hstate, hincrement⟩ := updateHighestReceived_highest c byteOffset
  rw [hstate]
  unfold FlowController.unread
  dsimp only
  rw [← hincrement, Nat.cast_add]
  exact add_sub_right_comm _ _ _

theorem updateHighestReceived_counted
    (h : m.updateHighestReceived streamID byteOffset = (m', none)) :
    ∃ k, Counted m m' streamID k := by
  unfold FlowControlManager.updateHighestReceived at h
  cases hc : m.streamFlowController streamID with
  | none => simp [hc] at h
  | some c =>
    simp only [hc] at h
    have hunread := updateHighestReceived_unread c byteOffset
    have hflag : (c.updateHighestReceived byteOffset).1.contributesToConnection =
        c.contributesToConnection := by
      rw [(updateHighestReceived_highest c byteOffset).1]
    rw [hflag] at h
    split at h
    · simp at h
    split at h
    next hcontributes =>
      obtain ⟨rfl, -⟩ := Prod.mk.inj h
      refine ⟨_, counted_of_update hc rfl hflag hunread ?_⟩
      rw [if_pos hcontributes]
      exact incrementHighestReceived_unread _ _
    next hcontributes =>
      obtain ⟨rfl, -⟩ := Prod.mk.inj h
      refine ⟨_, counted_of_update hc rfl hflag hunread ?_⟩
      rw [if_neg hcontributes, add_zero]
      rfl

theorem resetStream_counted
    (h : m.resetStream streamID byteOffset = (m', none)) : ∃ k, Counted m m' streamID k := by
  unfold FlowControlManager.resetStream at h
  split at h
  · simp at h
  split at h
  · simp at h
  exact updateHighestReceived_counted h

theorem addBytesRead_counted (hc : m.streamFlowController streamID = some c) (now connNow : Int) :
    ∃ k, Counted m (m.addBytesRead streamID n now connNow) streamID k := by
  have hunread := addBytesRead_unread c n now
  unfold FlowControlManager.addBytesRead
  simp only [hc]
  split
  next hcontributes =>
    refine ⟨_, counted_of_update hc rfl rfl hunread ?_⟩
    rw [if_pos hcontributes]
    exact addBytesRead_unread _ _ _
  next hcontributes =>
    refine ⟨_, counted_of_update hc rfl rfl hunread ?_⟩
    rw [if_neg hcontributes, add_zero]
    rfl

theorem maybeUpdateWindow_counts (c : FlowController) (r : Readings) :
    (c.maybeUpdateWindow r).controller.unread = c.unread ∧
      (c.maybeUpdateWindow r).controller.contributesToConnection = c.contributesToConnection := by
  unfold FlowController.maybeUpdateWindow FlowController.maybeAdjustWindowIncrement
    FlowController.unread
  dsimp only
  split
  · split <;> exact ⟨rfl, rfl⟩
  · exact ⟨rfl, rfl⟩

theorem ensureMinimumWindowIncrement_unread (c : FlowController) (inc : Nat) :
    (c.ensureMinimumWindowIncrement inc).unread = c.unread := by
  unfold FlowController.ensureMinimumWindowIncrement FlowController.unread
  split <;> rfl

theorem sameCounts_of_update (hc : m.streamFlowController streamID = some c)
    (hflag : d.contributesToConnection = c.contributesToConnection)
    (hunread : d.unread = c.unread) : SameCounts m (m.setStream streamID d) := by
  have hcounted : Counted m (m.setStream streamID d) streamID
      (if c.contributesToConnection then 0 else 0) :=
    counted_of_update hc rfl hflag (by rw [hunread, add_zero]) (by simp [FlowControlManager.setStream])
  rw [ite_self] at hcounted
  refine ⟨hcounted.known, fun id => ?_, hcounted.conn.trans (add_zero _)⟩
  by_cases hid : id = streamID
  · rw [hid, hcounted.self, add_zero]
  · exact hcounted.other id hid

theorem SameCounts.withConn {conn : FlowController}
    (h : SameCounts m m') (hconn : conn.unread = m'.connFlowController.unread) :
    SameCounts m { m' with connFlowController := conn } := by
  refine ⟨h.known, fun id => ?_, hconn.trans h.conn⟩
  exact (unread_congr rfl).trans (h.unread id)

theorem streamWindowUpdate_counts (force : Bool) (r : Readings) (m : FlowControlManager)
    (streamID : Nat) :
    SameCounts m (FlowControlManager.streamWindowUpdate force r m streamID).1 := by
  unfold FlowControlManager.streamWindowUpdate
  cases hc : m.streamFlowController streamID with
  | none => exact SameCounts.refl m
  | some c =>
    obtain ⟨hunread, hflag⟩ := maybeUpdateWindow_counts c r
    dsimp only
    generalize c.maybeUpdateWindow r = update at hunread hflag ⊢
    have hset : SameCounts m (m.setStream streamID update.controller) :=
      sameCounts_of_update hc hflag hunread
    split
    · split
      · exact hset.withConn (ensureMinimumWindowIncrement_unread _ _)
      · exact hset
    · exact hset

theorem streamWindowUpdates_counts (force : Bool) (readings : Nat → Readings) (order : List Nat)
    (m : FlowControlManager) :
    SameCounts m (FlowControlManager.streamWindowUpdates force readings m order).1 := by
  induction order generalizing m with
  | nil => exact SameCounts.refl m
  | cons first rest ih => exact (streamWindowUpdate_counts force (readings first) m first).trans (ih _)

theorem getWindowUpdates_counts (force : Bool) (readings : Nat → Readings) (order : List Nat)
    (m : FlowControlManager) : SameCounts m (m.getWindowUpdates force order readings).1 := by
  have hstreams := streamWindowUpdates_counts force readings order m
  unfold FlowControlManager.getWindowUpdates
  exact hstreams.withConn (maybeUpdateWindow_counts _ _).1

end Managers

section Steps

variable {r r' : Receiver}

theorem Accounted.same (h : Accounted r) (hopen : r'.openStreams = r.openStreams)
    (hstreams : ∀ id, r'.streams id = none ↔ r.streams id = none)
    (hcounts : SameCounts r.flowControlManager r'.flowControlManager) : Accounted r' := by
  refine ⟨hopen ▸ h.nodup, fun id => ?_, fun id => ?_, ?_⟩
  · rw [hstreams, hopen, h.streams]
  · rw [hcounts.known, hopen, h.controllers]
  · have hunread : r'.flowControlManager.unread = r.flowControlManager.unread :=
      funext hcounts.unread
    unfold Receiver.Balanced
    rw [hopen, hunread, hcounts.conn]
    exact h.balanced

variable {streamID : Nat} {s : Stream}

theorem Accounted.counted (h : Accounted r) (hopen : r'.openStreams = r.openStreams)
    (hstreams : ∀ id, r'.streams id = none ↔ r.streams id = none) {k : ZMod (2 ^ 64)}
    (hin : streamID ∈ r.openStreams)
    (hcounts : Counted r.flowControlManager r'.flowControlManager streamID k) : Accounted r' := by
  refine ⟨hopen ▸ h.nodup, fun id => ?_, fun id => ?_, ?_⟩
  · rw [hstreams, hopen, h.streams]
  · rw [hcounts.known, hopen, h.controllers]
  · unfold Receiver.Balanced
    rw [hopen, sum_map_of_update h.nodup hin hcounts.other hcounts.self]
    rw [hcounts.conn, h.balanced]

theorem Accounted.removeStream (h : Accounted r) (hin : streamID ∈ r.openStreams)
    (hread : r.flowControlManager.unread streamID = 0) : Accounted (r.removeStream streamID) := by
  have hmem : ∀ id, id ∉ r.openStreams.erase streamID ↔ id = streamID ∨ id ∉ r.openStreams := by
    intro id
    rw [h.nodup.mem_erase_iff, not_and_or, not_not]
  refine ⟨h.nodup.erase streamID, fun id => ?_, fun id => ?_, ?_⟩
  · refine Iff.trans ?_ (hmem id).symm
    by_cases hid : id = streamID
    · simp [Receiver.removeStream, hid]
    · simp [Receiver.removeStream, hid, h.streams]
  · refine Iff.trans ?_ (hmem id).symm
    by_cases hid : id = streamID
    · simp [Receiver.removeStream, FlowControlManager.removeStream, hid]
    · simp [Receiver.removeStream, FlowControlManager.removeStream, hid, h.controllers]
  · have hrest : (r.openStreams.erase streamID).map (r.removeStream streamID).flowControlManager.unread =
        (r.openStreams.erase streamID).map r.flowControlManager.unread := by
      apply map_congr_left
      intro id hid
      have hne : id ≠ streamID := (h.nodup.mem_erase_iff.mp hid).1
      exact unread_congr (update_of_ne hne _ _)
    have hsum := sum_map_erase r.flowControlManager.unread hin
    rw [hread, zero_add] at hsum
    show r.flowControlManager.connFlowController.unread =
      ((r.openStreams.erase streamID).map (r.removeStream streamID).flowControlManager.unread).sum
    rw [hrest, hsum]
    exact h.balanced

theorem Accounted.setStream (h : Accounted r)
    (hs : r.streams streamID = some s) (t : Stream) : Accounted (r.setStream streamID t) := by
  refine h.same rfl (fun id => ?_) (SameCounts.refl _)
  by_cases hid : id = streamID
  · simp [Receiver.setStream, hid, hs]
  · simp [Receiver.setStream, hid]

theorem newFlowController_unread (params : ConnectionParameters) (streamID : Nat) (flag : Bool) :
    (newFlowController params streamID flag).unread = 0 := by
  unfold FlowController.unread newFlowController
  exact sub_self _

theorem Accounted.openStream (h : Accounted r) (streamID : Nat) :
    Accounted (r.openStream streamID) := by
  unfold Receiver.openStream
  cases hs : r.streams streamID with
  | some s => exact h
  | none =>
    have hin : streamID ∉ r.openStreams := (h.streams streamID).mp hs
    have hc : r.flowControlManager.streamFlowController streamID = none :=
      (h.controllers streamID).mpr hin
    have hmanager : r.flowControlManager.newStream streamID (contributesToConnection streamID) =
        r.flowControlManager.setStream streamID (newFlowController r.flowControlManager.params
          streamID (contributesToConnection streamID)) := by
      unfold FlowControlManager.newStream
      rw [hc]
    have hfresh := newFlowController_unread r.flowControlManager.params streamID
      (contributesToConnection streamID)
    generalize newFlowController r.flowControlManager.params streamID
      (contributesToConnection streamID) = c at hmanager hfresh
    dsimp only
    rw [hmanager]
    have hmem : ∀ id, id ∉ r.openStreams ++ [streamID] ↔ id ∉ r.openStreams ∧ id ≠ streamID := by
      intro id
      simp
    have hnodup := h.nodup.concat hin
    rw [concat_eq_append] at hnodup
    refine ⟨hnodup, fun id => (Iff.trans ?_ (hmem id).symm),
      fun id => (Iff.trans ?_ (hmem id).symm), ?_⟩
    · by_cases hid : id = streamID
      · simp [Receiver.setStream, hid]
      · simp [Receiver.setStream, hid, h.streams]
    · by_cases hid : id = streamID
      · simp [FlowControlManager.setStream, hid]
      · simp [FlowControlManager.setStream, hid, h.controllers]
    · have hself : (r.flowControlManager.setStream streamID c).unread streamID = 0 := by
        rw [unread_of_some (update_self _ _ _), hfresh, ite_self]
      have hrest : r.openStreams.map (r.flowControlManager.setStream streamID c).unread =
          r.openStreams.map r.flowControlManager.unread := by
        apply map_congr_left
        intro id hid
        have hne : id ≠ streamID := fun he => hin (he ▸ hid)
        exact unread_congr (update_of_ne hne _ _)
      unfold Receiver.Balanced
      dsimp only
      rw [map_append, sum_append, hrest, map_singleton, sum_singleton, hself,
        add_zero]
      exact h.balanced

theorem Accounted.mem_openStreams (h : Accounted r)
    (hs : r.streams streamID = some s) : streamID ∈ r.openStreams := by
  by_contra hout
  rw [(h.streams streamID).mpr hout] at hs
  cases hs

theorem Accounted.addStreamFrame (h : Accounted r) {maxOffset : Nat}
    (hok : (r.addStreamFrame streamID maxOffset).2 = none) :
    Accounted (r.addStreamFrame streamID maxOffset).1 := by
  unfold Receiver.addStreamFrame at hok ⊢
  cases hs : r.streams streamID with
  | none => exact h
  | some s =>
    simp only [hs] at hok
    obtain ⟨k, hcounted⟩ := updateHighestReceived_counted (Prod.ext rfl hok)
    exact h.counted rfl (fun _ => Iff.rfl) (h.mem_openStreams hs) hcounted

theorem Accounted.handleRstStreamFrame (h : Accounted r) {byteOffset : Nat}
    (hok : (r.handleRstStreamFrame streamID byteOffset).2 = none) :
    Accounted (r.handleRstStreamFrame streamID byteOffset).1 := by
  unfold Receiver.handleRstStreamFrame at hok ⊢
  cases hs : r.streams streamID with
  | none => exact h
  | some s =>
    simp only [hs] at hok
    obtain ⟨k, hcounted⟩ := resetStream_counted (Prod.ext rfl hok)
    have hset := h.setStream hs s.registerRemoteError
    exact hset.counted rfl (fun _ => Iff.rfl) (h.mem_openStreams hs) hcounted

theorem Accounted.read (h : Accounted r) (streamID n : Nat) (fin : Bool) (now connNow : Int) :
    Accounted (r.read streamID n fin now connNow) := by
  unfold Receiver.read
  cases hs : r.streams streamID with
  | none => exact h
  | some s =>
    have hset := h.setStream hs { s with finishedReading := fin }
    dsimp only
    split
    · exact h
    split
    · exact hset
    cases hc : r.flowControlManager.streamFlowController streamID with
    | none => exact absurd (h.mem_openStreams hs) ((h.controllers streamID).mp hc)
    | some c =>
      obtain ⟨k, hcounted⟩ := addBytesRead_counted hc now connNow
      exact hset.counted rfl (fun _ => Iff.rfl) (h.mem_openStreams hs) hcounted

theorem Drained.removeStream (h : r.Drained) (streamID : Nat)
    (hn : r.openStreams.Nodup) : (r.removeStream streamID).Drained := by
  intro id hid hfinished
  obtain ⟨hne, hmem⟩ := hn.mem_erase_iff.mp hid
  have hsame : (r.removeStream streamID).streams id = r.streams id := update_of_ne hne _ _
  rw [hsame] at hfinished
  rw [← h id hmem hfinished]
  exact unread_congr (update_of_ne hne _ _)

theorem Accounted.collectStream (h : Accounted r) (hdrained : r.Drained) (streamID : Nat) :
    Accounted (r.collectStream streamID) ∧ (r.collectStream streamID).Drained := by
  unfold Receiver.collectStream
  cases hs : r.streams streamID with
  | none => exact ⟨h, hdrained⟩
  | some s =>
    dsimp only
    split
    next hfinished =>
      have hin := h.mem_openStreams hs
      have hread := hdrained streamID hin (by rw [hs]; exact hfinished)
      exact ⟨h.removeStream hin hread, Drained.removeStream hdrained streamID h.nodup⟩
    next => exact ⟨h, hdrained⟩

theorem Accounted.foldl_collectStream (h : Accounted r) (hdrained : r.Drained)
    (streamIDs : List Nat) : Accounted (streamIDs.foldl Receiver.collectStream r) := by
  induction streamIDs generalizing r with
  | nil => exact h
  | cons first rest ih =>
    obtain ⟨hfirst, hrest⟩ := h.collectStream hdrained first
    exact ih hfirst hrest

theorem creditStep_accounted {event : CreditEvent} (h : Accounted r) (hread : ReadBefore r event)
    (hs : creditStep r event = some (r', [])) : Accounted r' := by
  have hnone : ∀ error : Option FlowControlError, error.toList = [] → error = none := by
    intro error he
    cases error with
    | none => rfl
    | some e => cases he
  cases event with
  | openStream streamID =>
    obtain ⟨rfl, -⟩ := Prod.mk.inj (Option.some.inj hs)
    exact h.openStream streamID
  | streamFrame streamID maxOffset =>
    obtain ⟨rfl, hok⟩ := Prod.mk.inj (Option.some.inj hs)
    exact h.addStreamFrame (hnone _ hok)
  | rstStreamFrame streamID byteOffset =>
    obtain ⟨rfl, hok⟩ := Prod.mk.inj (Option.some.inj hs)
    exact h.handleRstStreamFrame (hnone _ hok)
  | read streamID n fin now connNow =>
    obtain ⟨rfl, -⟩ := Prod.mk.inj (Option.some.inj hs)
    exact h.read streamID n fin now connNow
  | localCall streamID call =>
    cases hstream : r.streams streamID with
    | none =>
      simp only [creditStep, hstream] at hs
      obtain ⟨rfl, -⟩ := Prod.mk.inj (Option.some.inj hs)
      exact h
    | some s =>
      simp only [creditStep, hstream] at hs
      obtain ⟨rfl, -⟩ := Prod.mk.inj (Option.some.inj hs)
      exact h.setStream hstream _
  | getWindowUpdates force order readings =>
    obtain ⟨rfl, -⟩ := Prod.mk.inj (Option.some.inj hs)
    exact h.same rfl (fun _ => Iff.rfl) (getWindowUpdates_counts force readings order _)
  | garbageCollectStreams =>
    obtain ⟨rfl, -⟩ := Prod.mk.inj (Option.some.inj hs)
    exact h.foldl_collectStream hread r.openStreams

end Steps

theorem newReceiver_accounted (params : ConnectionParameters) : Accounted (newReceiver params) := by
  refine ⟨nodup_nil, fun id => by simp [newReceiver], fun id => ?_, ?_⟩
  · simp [newReceiver, newFlowControlManager]
  · exact newFlowController_unread params 0 false

-- If every stream is read to its end before it is collected, nothing of the window of
-- the connection is lost in a run without errors.
theorem connection_credit_balanced (params : ConnectionParameters) (events : List CreditEvent)
    (last : Receiver) (hr : run creditStep (newReceiver params) events = some (last, []))
    (hread : Along creditStep ReadBefore (newReceiver params) events) : last.Balanced := by
  have hinv := run_invariant (fun _ log r => log = [] → Accounted r)
    (fun past log state event next out hinv hcond hs hlog => by
      obtain ⟨hbefore, rfl⟩ := List.append_eq_nil_iff.mp hlog
      exact creditStep_accounted (hinv hbefore) hcond hs)
    [] [] (newReceiver params) last events [] (fun _ => newReceiver_accounted params) hread hr
  exact (hinv rfl).balanced

def creditExample : List CreditEvent :=
  [.openStream 5, .streamFrame 5 100, .read 5 100 true 0 0, .localCall 5 .close,
    .localCall 5 .sentFin, .garbageCollectStreams]

def creditParams : ConnectionParameters := ⟨1000, 1000, 1000, 1000, 1000, 1000⟩

theorem connection_credit_balanced_example :
    ∃ last, run creditStep (newReceiver creditParams) creditExample = some (last, []) ∧
      last.openStreams = [] ∧ last.Balanced := by
  refine ⟨_, rfl, rfl, ?_⟩
  exact connection_credit_balanced creditParams creditExample _ rfl (by decide +kernel)

-- The peer resets a stream of which 100 bytes were received. They are never counted as
-- read, and the stream is gone.
theorem connection_credit_leaks :
    ∃ last, run creditStep (newReceiver creditParams)
        [.openStream 5, .streamFrame 5 100, .rstStreamFrame 5 100, .read 5 100 true 0 0,
          .garbageCollectStreams] = some (last, []) ∧
      last.openStreams = [] ∧ ¬ last.Balanced := by
  refine ⟨_, rfl, rfl, ?_⟩
  decide +kernel

end MpQuic.FlowControl

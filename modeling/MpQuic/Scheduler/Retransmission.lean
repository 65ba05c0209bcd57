import MpQuic.Library.Sum
import MpQuic.Packing.Control
import MpQuic.Scheduler.Defs

namespace MpQuic.Scheduler

open MpQuic.Library MpQuic.Protocol MpQuic.Wire MpQuic.AckHandler MpQuic.Packing List

def streamRefs (packets : List (Packet Nat)) : List Nat :=
  packets.flatMap fun packet => Packer.streamFrames packet.frames

theorem mem_streamRefs {packets : List (Packet Nat)} {ref : Nat} :
    ref ∈ streamRefs packets ↔ ∃ packet ∈ packets, .stream ref ∈ packet.frames := by
  simp only [streamRefs, mem_flatMap, mem_streamFrames]

def Session.Queued (s : Session) (packet : Packet Nat) : Prop :=
  ∃ pathID, packet ∈ s.queuedOn pathID

section Dequeue

variable {s t : Session} {order : List Nat} {pathID : Nat} {packet : Packet Nat}

structure Dequeued (s t : Session) (pathID : Nat) (packet : Packet Nat) : Prop where
  self : s.queuedOn pathID = packet :: t.queuedOn pathID
  other : ∀ id, id ≠ pathID → t.queuedOn id = s.queuedOn id
  known : ∀ id, t.paths id ≠ none ↔ s.paths id ≠ none
  framer : t.retransmissionQueue = s.retransmissionQueue
  handshake : t.crypto = s.crypto

theorem dequeuePacket_some (h : s.dequeuePacket order = some (pathID, packet, t)) :
    Dequeued s t pathID packet := by
  induction order with
  | nil => cases h
  | cons id rest ih =>
    unfold Session.dequeuePacket at h
    split at h
    · exact ih h
    next pth hpth =>
      unfold SentPacketHandler.dequeuePacketForRetransmission at h
      cases hq : pth.sentPacketHandler.retransmissionQueue with
      | nil =>
        simp only [hq] at h
        exact ih h
      | cons first later =>
        simp only [hq] at h
        cases h
        refine ⟨?_, ?_, ?_, rfl, rfl⟩
        · simp [Session.queuedOn, Session.setPath, hpth, hq]
        · intro other hother
          simp [Session.queuedOn, Session.setPath, Function.update_of_ne hother]
        · intro other
          by_cases hother : other = pathID
          · simp [Session.setPath, hother, hpth]
          · simp [Session.setPath, Function.update_of_ne hother]

theorem dequeuePacket_none (h : s.dequeuePacket order = none) (hin : pathID ∈ order) :
    s.queuedOn pathID = [] := by
  induction order with
  | nil => cases hin
  | cons id rest ih =>
    unfold Session.dequeuePacket at h
    cases hpth : s.paths id with
    | none =>
      simp only [hpth] at h
      rcases mem_cons.mp hin with rfl | hrest
      · simp [Session.queuedOn, hpth]
      · exact ih h hrest
    | some pth =>
      unfold SentPacketHandler.dequeuePacketForRetransmission at h
      cases hq : pth.sentPacketHandler.retransmissionQueue with
      | nil =>
        simp only [hpth, hq] at h
        rcases mem_cons.mp hin with rfl | hrest
        · simp [Session.queuedOn, hpth, hq]
        · exact ih h hrest
      | cons first later => simp [hpth, hq] at h

theorem Dequeued.queued (h : Dequeued s t pathID packet) (other : Packet Nat) :
    s.Queued other ↔ other = packet ∨ t.Queued other := by
  constructor
  · rintro ⟨id, hid⟩
    by_cases hpath : id = pathID
    · rw [hpath, h.self] at hid
      rcases mem_cons.mp hid with rfl | hrest
      · exact Or.inl rfl
      · exact Or.inr ⟨pathID, hrest⟩
    · rw [← h.other id hpath] at hid
      exact Or.inr ⟨id, hid⟩
  · rintro (rfl | ⟨id, hid⟩)
    · exact ⟨pathID, by rw [h.self]; exact mem_cons_self⟩
    · by_cases hpath : id = pathID
      · rw [hpath] at hid
        exact ⟨pathID, by rw [h.self]; exact mem_cons_of_mem _ hid⟩
      · rw [h.other id hpath] at hid
        exact ⟨id, hid⟩

theorem queuedOn_of_none (hnone : s.paths pathID = none) : s.queuedOn pathID = [] := by
  simp [Session.queuedOn, hnone]

theorem Dequeued.total (h : Dequeued s t pathID packet) (hs : s.IsOrder order) :
    s.queuedTotal order = t.queuedTotal order + 1 := by
  have hin : pathID ∈ order := by
    rw [hs.2]
    intro hnone
    have hempty := h.self
    rw [queuedOn_of_none hnone] at hempty
    cases hempty
  apply sum_map_of_update hs.1 hin
  · intro id hid
    rw [h.other id hid]
  · rw [h.self, length_cons]

end Dequeue

section Requeue

variable (env : Environment) (pathID : Nat)

theorem queueControlFrame_streamFramer (p : Packer) (frame : ControlFrame) :
    (p.queueControlFrame frame pathID).streamFramer = p.streamFramer := by
  cases frame <;> rfl

structure Requeued (s t : Session) (refs : List Nat) : Prop where
  paths : t.paths = s.paths
  crypto : t.crypto = s.crypto
  framer : t.retransmissionQueue = s.retransmissionQueue ++ refs

theorem requeueFrame_requeued (s : Session) (frame : Frame Nat) :
    Requeued s (s.requeueFrame env pathID frame) (Packer.streamFrames [frame]) := by
  have hsame : ∀ control : ControlFrame, Requeued s (s.queueControlFrame control pathID) [] := by
    intro control
    refine ⟨rfl, rfl, ?_⟩
    unfold Session.retransmissionQueue Session.queueControlFrame
    rw [queueControlFrame_streamFramer, append_nil]
  have hnone : Requeued s s [] := ⟨rfl, rfl, (append_nil _).symm⟩
  cases frame with
  | stream ref => exact ⟨rfl, rfl, rfl⟩
  | control frame =>
    cases frame with
    | windowUpdate f =>
      unfold Session.requeueFrame
      dsimp only
      split
      · exact hnone
      · split
        · exact hsame _
        · exact hnone
    | paths f => exact ⟨rfl, rfl, (append_nil _).symm⟩
    | _ => exact hsame _

theorem requeueFrames_requeued (frames : List (Frame Nat)) (s : Session) :
    Requeued s (frames.foldl (Session.requeueFrame env pathID) s) (Packer.streamFrames frames) := by
  induction frames generalizing s with
  | nil => exact ⟨rfl, rfl, (append_nil _).symm⟩
  | cons frame rest ih =>
    have hfirst := requeueFrame_requeued env pathID s frame
    have hrest := ih (s.requeueFrame env pathID frame)
    refine ⟨hrest.paths.trans hfirst.paths, hrest.crypto.trans hfirst.crypto, ?_⟩
    have hsplit : Packer.streamFrames (frame :: rest) =
        Packer.streamFrames [frame] ++ Packer.streamFrames rest :=
      filterMap_append (l := [frame])
    rw [foldl_cons, hrest.framer, hfirst.framer, hsplit, append_assoc]

theorem streamFrames_getFramesForRetransmission (packet : Packet Nat) :
    Packer.streamFrames packet.getFramesForRetransmission = Packer.streamFrames packet.frames := by
  unfold Packet.getFramesForRetransmission Packer.streamFrames
  rw [filterMap_filter]
  apply filterMap_congr
  intro frame _
  cases frame with
  | stream ref => rfl
  | control frame => cases frame <;> rfl

end Requeue

section Loop

variable (env : Environment)

def forwardSecure (packets : List (Packet Nat)) : List (Packet Nat) :=
  packets.filter fun packet => packet.encryptionLevel = .forwardSecure

theorem streamRefs_cons_forwardSecure {packet : Packet Nat} (packets : List (Packet Nat))
    (h : packet.encryptionLevel = .forwardSecure) :
    streamRefs (forwardSecure (packet :: packets)) =
      Packer.streamFrames packet.frames ++ streamRefs (forwardSecure packets) := by
  simp [streamRefs, forwardSecure, h]

theorem forwardSecure_cons_of_ne {packet : Packet Nat} (packets : List (Packet Nat))
    (h : packet.encryptionLevel ≠ .forwardSecure) :
    forwardSecure (packet :: packets) = forwardSecure packets := by
  simp [forwardSecure, h]

theorem retransmitLoop_framer (fuel : Nat) (orders : Nat → List Nat) (s : Session) :
    (s.retransmitLoop env fuel orders).session.retransmissionQueue =
      s.retransmissionQueue ++
        streamRefs (forwardSecure (s.retransmitLoop env fuel orders).dequeued) := by
  induction fuel generalizing orders s with
  | zero => exact (append_nil _).symm
  | succ fuel ih =>
    unfold Session.retransmitLoop
    split
    · exact (append_nil _).symm
    next pathID packet t hd =>
      have hframer := (dequeuePacket_some hd).framer
      split
      next hlevel =>
        split
        · show (t.retransmitLoop env fuel _).session.retransmissionQueue =
            _ ++ streamRefs (forwardSecure (packet :: (t.retransmitLoop env fuel _).dequeued))
          rw [ih, hframer, forwardSecure_cons_of_ne _ hlevel]
        · show t.retransmissionQueue = _ ++ streamRefs (forwardSecure [packet])
          rw [hframer, forwardSecure_cons_of_ne _ hlevel]
          exact (append_nil _).symm
      next hlevel =>
        have hrequeued := requeueFrames_requeued env pathID packet.getFramesForRetransmission t
        rw [streamFrames_getFramesForRetransmission] at hrequeued
        show (Session.retransmitLoop env fuel _ _).session.retransmissionQueue =
          _ ++ streamRefs (forwardSecure (packet :: (Session.retransmitLoop env fuel _ _).dequeued))
        rw [ih, hrequeued.framer, hframer, streamRefs_cons_forwardSecure _ (not_not.mp hlevel),
          append_assoc]

theorem retransmitLoop_handshake (fuel : Nat) (orders : Nat → List Nat) (s : Session)
    (hincomplete : s.crypto.handshakeComplete = false) :
    ∀ packet ∈ (s.retransmitLoop env fuel orders).dequeued,
      packet.encryptionLevel ≠ .forwardSecure →
        (s.retransmitLoop env fuel orders).retransmitPacket = some packet := by
  induction fuel generalizing orders s with
  | zero => simp [Session.retransmitLoop]
  | succ fuel ih =>
    unfold Session.retransmitLoop
    split
    · simp
    next pathID packet t hd =>
      have hcrypto := (dequeuePacket_some hd).handshake
      split
      next hlevel =>
        rw [if_neg (by rw [hcrypto, hincomplete]; exact Bool.false_ne_true)]
        intro other hother _
        rw [mem_singleton.mp hother]
      next hlevel =>
        have hrequeued := requeueFrames_requeued env pathID packet.getFramesForRetransmission t
        intro other hother hne
        rcases mem_cons.mp hother with rfl | hlater
        · exact absurd hne hlevel
        · exact ih _ _ (by rw [hrequeued.crypto, hcrypto, hincomplete]) other hlater hne

theorem retransmitLoop_complete (fuel : Nat) (orders : Nat → List Nat) (s : Session)
    (hcomplete : s.crypto.handshakeComplete = true) (horders : ∀ round, s.IsOrder (orders round))
    (hfuel : ∀ round, s.queuedTotal (orders round) < fuel) :
    (s.retransmitLoop env fuel orders).retransmitPacket = none ∧
      ∀ packet, packet ∈ (s.retransmitLoop env fuel orders).dequeued ↔ s.Queued packet := by
  induction fuel generalizing orders s with
  | zero => exact absurd (hfuel 0) (Nat.not_lt_zero _)
  | succ fuel ih =>
    unfold Session.retransmitLoop
    split
    next hd =>
      refine ⟨rfl, fun packet => iff_of_false not_mem_nil ?_⟩
      rintro ⟨pathID, hpacket⟩
      by_cases hpath : s.paths pathID = none
      · rw [queuedOn_of_none hpath] at hpacket
        cases hpacket
      · rw [dequeuePacket_none hd (((horders 0).2 pathID).mpr hpath)] at hpacket
        cases hpacket
    next pathID packet t hd =>
      have hdequeued := dequeuePacket_some hd
      -- the session for the other rounds has one packet less
      have hlater : ∀ u : Session, u.paths = t.paths → u.crypto = t.crypto →
          ((u.retransmitLoop env fuel fun round => orders (round + 1)).after pathID
            packet).retransmitPacket = none ∧
          ∀ other, other ∈ ((u.retransmitLoop env fuel fun round => orders (round + 1)).after
            pathID packet).dequeued ↔ s.Queued other := by
        intro u hpaths hcrypto
        have hqueued : ∀ id, u.queuedOn id = t.queuedOn id := by
          intro id
          rw [Session.queuedOn, hpaths]
          rfl
        obtain ⟨hnone, hall⟩ := ih (fun round => orders (round + 1)) u
          (by rw [hcrypto, hdequeued.handshake, hcomplete])
          (by
            intro round
            refine ⟨(horders (round + 1)).1, fun id => ?_⟩
            rw [(horders (round + 1)).2 id, hpaths, hdequeued.known])
          (by
            intro round
            have htotal := hdequeued.total (horders (round + 1))
            have hless := hfuel (round + 1)
            have hsame : u.queuedTotal (orders (round + 1)) = t.queuedTotal (orders (round + 1)) := by
              simp only [Session.queuedTotal, hqueued]
            omega)
        refine ⟨hnone, fun other => ?_⟩
        rw [hdequeued.queued]
        show other ∈ packet :: _ ↔ _
        rw [mem_cons, hall, Session.Queued, Session.Queued]
        simp only [hqueued]
      split
      · rw [if_pos (by rw [hdequeued.handshake, hcomplete])]
        exact hlater t rfl rfl
      · have hrequeued := requeueFrames_requeued env pathID packet.getFramesForRetransmission t
        exact hlater _ hrequeued.paths hrequeued.crypto

theorem queuedTotal_order {s : Session} {order other : List Nat} (h : s.IsOrder order)
    (hother : s.IsOrder other) : s.queuedTotal order = s.queuedTotal other := by
  have hperm : order.Perm other :=
    (perm_ext_iff_of_nodup h.1 hother.1).mpr fun id => (h.2 id).trans (hother.2 id).symm
  exact (hperm.map _).sum_eq

end Loop

-- No stream frame of a packet that the call took is dropped, if and only if the handshake
-- is not complete or every stream frame of a packet that was sent below the
-- forward-secure level is also waiting in the framer or in a forward-secure packet.
theorem retransmission_keeps_stream_frames_iff (env : Environment) (orders : Nat → List Nat)
    (s : Session) (horders : ∀ round, s.IsOrder (orders round)) :
    (∀ packet ∈ (s.getRetransmission env orders).dequeued, ∀ ref, .stream ref ∈ packet.frames →
      ref ∈ (s.getRetransmission env orders).session.retransmissionQueue ∨
        ∃ returned, (s.getRetransmission env orders).retransmitPacket = some returned ∧
          .stream ref ∈ returned.frames) ↔
    (s.crypto.handshakeComplete = false ∨
      ∀ packet, s.Queued packet → packet.encryptionLevel ≠ .forwardSecure →
        ∀ ref, .stream ref ∈ packet.frames →
          ref ∈ s.retransmissionQueue ∨
            ∃ other, s.Queued other ∧ other.encryptionLevel = .forwardSecure ∧
              .stream ref ∈ other.frames) := by
  have hframer := retransmitLoop_framer env (s.queuedTotal (orders 0) + 1) orders s
  unfold Session.getRetransmission
  rw [hframer]
  cases hhandshake : s.crypto.handshakeComplete with
  | false =>
    have hreturned := retransmitLoop_handshake env (s.queuedTotal (orders 0) + 1) orders s
      hhandshake
    refine iff_of_true ?_ (Or.inl rfl)
    intro packet hpacket ref href
    by_cases hlevel : packet.encryptionLevel = .forwardSecure
    · left
      apply List.mem_append_right
      exact mem_streamRefs.mpr ⟨packet, by simp [forwardSecure, hpacket, hlevel], href⟩
    · exact Or.inr ⟨packet, hreturned packet hpacket hlevel, href⟩
  | true =>
    obtain ⟨hnone, hall⟩ := retransmitLoop_complete env (s.queuedTotal (orders 0) + 1)
      orders s hhandshake horders
      (fun round => by rw [queuedTotal_order (horders round) (horders 0)]; omega)
    -- the frames that the call added to the framer
    have hadded : ∀ ref, ref ∈ streamRefs (forwardSecure
        (s.retransmitLoop env (s.queuedTotal (orders 0) + 1) orders).dequeued) ↔
        ∃ other, s.Queued other ∧ other.encryptionLevel = .forwardSecure ∧
          .stream ref ∈ other.frames := by
      intro ref
      rw [mem_streamRefs]
      simp only [forwardSecure, List.mem_filter, hall, decide_eq_true_eq, and_assoc]
    constructor
    · intro hkept
      right
      intro packet hpacket hlevel ref href
      rcases hkept packet ((hall packet).mpr hpacket) ref href with hin | ⟨returned, hreturned, -⟩
      · rcases List.mem_append.mp hin with hold | hnew
        · exact Or.inl hold
        · exact Or.inr ((hadded ref).mp hnew)
      · rw [hnone] at hreturned
        cases hreturned
    · intro hkept packet hpacket ref href
      left
      rw [List.mem_append]
      have hqueued := (hall packet).mp hpacket
      by_cases hlevel : packet.encryptionLevel = .forwardSecure
      · exact Or.inr ((hadded ref).mpr ⟨packet, hqueued, hlevel, href⟩)
      · exact (hkept.resolve_left Bool.noConfusion packet hqueued hlevel ref href).imp_right
          (hadded ref).mpr

section Example

def lostPath (level : EncryptionLevel) : SessionPath where
  packetNumberGenerator := ⟨500, 7, 0⟩
  leastUnacked := 1
  sentPacketHandler :=
    ((newSentPacketHandler.sentPacket ⟨1, [.stream 0], 100, level, 0, true⟩ 0).1.onAlarm 5 9 false)

def clientSession (level : EncryptionLevel) : Session where
  crypto := readyCrypto
  packer := readyPacker [] none none []
  store := oneFrameStore
  paths := Function.update (fun _ => none) 0 (some (lostPath level))
  pathsFrame := none

def quietEnvironment : Environment where
  getReceiveWindow := fun _ => none
  newPathsFrame := ⟨255, 1, [0], [0]⟩

theorem clientSession_isOrder (level : EncryptionLevel) : (clientSession level).IsOrder [0] := by
  refine ⟨by decide, fun pathID => ?_⟩
  by_cases h : pathID = 0
  · simp [h, clientSession]
  · simp [h, clientSession]

theorem clientSession_queued {level : EncryptionLevel} {packet : Packet Nat}
    (h : (clientSession level).Queued packet) :
    packet = ⟨1, [.stream 0], 100, level, 0, true⟩ := by
  obtain ⟨pathID, hpacket⟩ := h
  by_cases hpath : pathID = 0
  · rw [hpath] at hpacket
    exact mem_singleton.mp hpacket
  · rw [queuedOn_of_none (by simp [clientSession, hpath])] at hpacket
    cases hpacket

theorem retransmission_keeps_stream_frames_example :
    ((clientSession .forwardSecure).getRetransmission quietEnvironment
      fun _ => [0]).dequeued.length = 1 ∧
    ∀ packet ∈ ((clientSession .forwardSecure).getRetransmission quietEnvironment
      fun _ => [0]).dequeued, ∀ ref, .stream ref ∈ packet.frames →
      ref ∈ ((clientSession .forwardSecure).getRetransmission quietEnvironment
        fun _ => [0]).session.retransmissionQueue ∨
        ∃ returned, ((clientSession .forwardSecure).getRetransmission quietEnvironment
          fun _ => [0]).retransmitPacket = some returned ∧ .stream ref ∈ returned.frames := by
  refine ⟨rfl, ?_⟩
  apply (retransmission_keeps_stream_frames_iff quietEnvironment (fun _ => [0])
    (clientSession .forwardSecure) fun _ => clientSession_isOrder _).mpr
  right
  intro packet hpacket hlevel
  rw [clientSession_queued hpacket] at hlevel
  exact absurd rfl hlevel

-- A client may send data at the secure level. If that packet is found to be lost after
-- the handshake is complete, its data is in no queue and in no packet.
theorem secure_data_dropped :
    (clientSession .secure).packer.canSendData .secure = true ∧
    ¬∀ (env : Environment) (orders : Nat → List Nat) (s : Session),
      (∀ round, s.IsOrder (orders round)) →
      ∀ packet ∈ (s.getRetransmission env orders).dequeued, ∀ ref, .stream ref ∈ packet.frames →
        ref ∈ (s.getRetransmission env orders).session.retransmissionQueue ∨
          ∃ returned, (s.getRetransmission env orders).retransmitPacket = some returned ∧
            .stream ref ∈ returned.frames := by
  refine ⟨rfl, fun h => ?_⟩
  have hkept := h quietEnvironment (fun _ => [0]) (clientSession .secure)
    (fun _ => clientSession_isOrder _) ⟨1, [.stream 0], 100, .secure, 0, true⟩
    (List.mem_singleton_self _) 0 (List.mem_singleton_self _)
  rcases hkept with hin | ⟨returned, hreturned, -⟩
  · cases hin
  · cases hreturned

end Example

end MpQuic.Scheduler

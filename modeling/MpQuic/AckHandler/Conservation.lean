import MpQuic.AckHandler.Tracked

namespace MpQuic.AckHandler

open MpQuic.Library MpQuic.Wire List

variable {σ : Type}

namespace SentPacketHandler

def addedBy (h : SentPacketHandler σ) : Event σ → List (Packet σ)
  | .sentPacket packet now =>
    (h.sentPacket packet now).1.packetHistory.drop h.packetHistory.length
  | _ => []

-- The packets that an event acknowledges: those that the frame is found to acknowledge, if it is
-- not refused or ignored.
def ackedBy (h : SentPacketHandler σ) : Event σ → List (Packet σ)
  | .receivedAck ackFrame withPacketNumber _ _ =>
    if ackFrame.largestAcked > h.lastSentPacketNumber ∨
        withPacketNumber ≤ h.largestReceivedPacketWithAck ∨
        ackFrame.largestAcked ≤ h.largestInOrderAcked ∨ h.skippedPacketsAcked ackFrame then []
    else (h.determineNewlyAckedPackets ackFrame).toOption.getD []
  | .receivedClosePath f withPacketNumber =>
    if f.largestAcked > h.lastSentPacketNumber ∨
        withPacketNumber ≤ h.largestReceivedPacketWithAck ∨ h.skippedPacketsAckedClosePath f then []
    else (h.determineNewlyAckedPacketsClosePath f).toOption.getD []
  | _ => []

def dequeuedBy (h : SentPacketHandler σ) : Event σ → List (Packet σ)
  | .dequeuePacketForRetransmission => h.dequeuePacketForRetransmission.2.toList
  | _ => []

end SentPacketHandler

-- What happened to the packets so far: those that were put in the history, those that were
-- acknowledged and those that were taken out of the queue to be sent again.
structure Ledger (σ : Type) where
  added : List (Packet σ)
  acked : List (Packet σ)
  dequeued : List (Packet σ)

def Ledger.after (ledger : Ledger σ) (h : SentPacketHandler σ) (event : Event σ) : Ledger σ where
  added := ledger.added ++ h.addedBy event
  acked := ledger.acked ++ h.ackedBy event
  dequeued := ledger.dequeued ++ h.dequeuedBy event

def ledgerStep (state : SentPacketHandler σ × Ledger σ) (event : Event σ) :
    Option ((SentPacketHandler σ × Ledger σ) × List (Option AckError)) :=
  (step state.1 event).map fun result => ((result.1, state.2.after state.1 event), result.2)

-- A copy of a packet of another path is not one of the packets of this handler.
def Event.isDuplicate : Event σ → Bool
  | .duplicatePacket _ => true
  | _ => false

-- Packets that go from the history to the queue, on the way from one state to another one. The
-- lists say which packets come and go.
structure Moves (h next : SentPacketHandler σ) (added acked dequeued lost : List (Packet σ)) :
    Prop where
  history : (h.packetHistory ++ added).Perm (next.packetHistory ++ lost ++ acked)
  queue : h.retransmissionQueue ++ lost = dequeued ++ next.retransmissionQueue
  losses : next.losses ≤ h.losses + lost.length
  packets : h.packets + added.length ≤ next.packets
  room : added ≠ [] →
    h.retransmissionQueue.length + h.packetHistory.length + added.length ≤ maxTrackedSentPackets
  increasing : ∀ p ∈ added, h.lastSentPacketNumber < p.packetNumber
  single : added.length ≤ 1
  last : h.lastSentPacketNumber ≤ next.lastSentPacketNumber
  bounded : ∀ p ∈ added, p.packetNumber ≤ next.lastSentPacketNumber

section Parts

variable {history lost : List (Packet σ)} {h next : SentPacketHandler σ}

theorem filter_numbers_eq (hs : Sorted history) (hlost : lost.Sublist history) :
    history.filter (fun q => ¬∀ p ∈ lost, q.packetNumber ≠ p.packetNumber) = lost := by
  induction hlost with
  | slnil => rfl
  | @cons part rest first hpart ih =>
    obtain ⟨hfirst, hrest⟩ := pairwise_cons.mp hs
    rw [filter_cons_of_neg, ih hrest]
    simp only [decide_eq_true_eq, not_not]
    intro p hp
    exact Nat.ne_of_lt (hfirst p (hpart.subset hp))
  | @cons_cons part rest first hpart ih =>
    obtain ⟨hfirst, hrest⟩ := pairwise_cons.mp hs
    rw [filter_cons_of_pos (by simp)]
    congr 1
    refine (filter_congr fun q hq => ?_).trans (ih hrest)
    have hne := Nat.ne_of_gt (hfirst q hq)
    simp [hne]

theorem perm_without (hs : Sorted history) (hlost : lost.Sublist history) :
    history.Perm (without history lost ++ lost) := by
  have hsplit := filter_append_perm
    (fun q : Packet σ => decide (∀ p ∈ lost, q.packetNumber ≠ p.packetNumber)) history
  have hpart := filter_numbers_eq hs hlost
  simp only [decide_not] at hpart
  rw [hpart] at hsplit
  exact hsplit.symm

-- Packets are queued one after the other, and `perLoss` says if each of them is counted as lost.
structure Queues (op : SentPacketHandler σ → Packet σ → SentPacketHandler σ) (perLoss : Nat) :
    Prop extends Takes op where
  queue : ∀ h p, (op h p).retransmissionQueue = h.retransmissionQueue ++ [p]
  losses : ∀ h p, (op h p).losses = h.losses + perLoss
  packets : ∀ h p, (op h p).packets = h.packets

theorem queues_queuePacketForRetransmission :
    Queues (@SentPacketHandler.queuePacketForRetransmission σ) 0 :=
  ⟨takes_queuePacketForRetransmission, fun _ _ => rfl, fun _ _ => rfl, fun _ _ => rfl⟩

theorem queues_queueRTO : Queues (@SentPacketHandler.queueRTO σ) 1 :=
  ⟨takes_queueRTO, fun _ _ => rfl, fun _ _ => rfl, fun _ _ => rfl⟩

theorem Queues.foldl {op : SentPacketHandler σ → Packet σ → SentPacketHandler σ} {perLoss : Nat}
    (hq : Queues op perLoss) (h : SentPacketHandler σ) (lost : List (Packet σ)) :
    (lost.foldl op h).retransmissionQueue = h.retransmissionQueue ++ lost ∧
      (lost.foldl op h).losses = h.losses + perLoss * lost.length ∧
      (lost.foldl op h).packets = h.packets ∧
      (lost.foldl op h).lastSentPacketNumber = h.lastSentPacketNumber := by
  induction lost generalizing h with
  | nil => simp
  | cons p rest ih =>
    obtain ⟨hqueue, hlosses, hpackets, hlast⟩ := ih (op h p)
    rw [foldl_cons, hqueue, hlosses, hpackets, hlast, hq.queue, hq.losses, hq.packets, hq.last]
    refine ⟨by simp, ?_, rfl, rfl⟩
    rw [length_cons, Nat.mul_add]
    omega

theorem Moves.of_lost (hhistory : h.packetHistory.Perm (next.packetHistory ++ lost))
    (hqueue : next.retransmissionQueue = h.retransmissionQueue ++ lost)
    (hlosses : next.losses ≤ h.losses + lost.length) (hpackets : next.packets = h.packets)
    (hlast : next.lastSentPacketNumber = h.lastSentPacketNumber) :
    Moves h next [] [] [] lost where
  history := by simpa using hhistory
  queue := hqueue.symm
  losses := hlosses
  packets := Nat.le_of_eq hpackets.symm
  room := fun hne => absurd rfl hne
  increasing := by simp
  single := by simp
  last := Nat.le_of_eq hlast.symm
  bounded := by simp

theorem Moves.refl (h : SentPacketHandler σ) : Moves h h [] [] [] [] :=
  Moves.of_lost (by simp) (by simp) (by simp) rfl rfl

variable {added acked dequeued : List (Packet σ)}

theorem Moves.adjust {start other : SentPacketHandler σ}
    (hm : Moves h next added acked dequeued lost)
    (hstart : start.packetHistory = h.packetHistory ∧
      start.retransmissionQueue = h.retransmissionQueue ∧ start.losses = h.losses ∧
      start.packets = h.packets ∧ start.lastSentPacketNumber = h.lastSentPacketNumber)
    (hother : other.packetHistory = next.packetHistory ∧
      other.retransmissionQueue = next.retransmissionQueue ∧ other.losses = next.losses ∧
      other.packets = next.packets ∧ other.lastSentPacketNumber = next.lastSentPacketNumber) :
    Moves start other added acked dequeued lost := by
  obtain ⟨hh, hq, hl, hp, hs⟩ := hstart
  obtain ⟨oh, oq, ol, op, os⟩ := hother
  refine ⟨?_, ?_, ?_, ?_, ?_, ?_, hm.single, ?_, ?_⟩
  · rw [hh, oh]
    exact hm.history
  · rw [hq, oq]
    exact hm.queue
  · rw [hl, ol]
    exact hm.losses
  · rw [hp, op]
    exact hm.packets
  · rw [hq, hh]
    exact hm.room
  · rw [hs]
    exact hm.increasing
  · rw [hs, os]
    exact hm.last
  · rw [os]
    exact hm.bounded

theorem Moves.trans {middle : SentPacketHandler σ} {later : List (Packet σ)}
    (hfirst : Moves h middle added acked dequeued lost) (hlater : Moves middle next [] [] [] later) :
    Moves h next added acked dequeued (lost ++ later) where
  history := by
    have hmoved : middle.packetHistory.Perm (next.packetHistory ++ later) := by
      simpa using hlater.history
    refine hfirst.history.trans (List.Perm.append_right acked ?_)
    refine (List.Perm.append_right lost hmoved).trans ?_
    rw [append_assoc]
    exact List.Perm.append_left next.packetHistory perm_append_comm
  queue := by
    have hqueue : middle.retransmissionQueue ++ later = next.retransmissionQueue := hlater.queue
    rw [← append_assoc, hfirst.queue, append_assoc, hqueue]
  losses := by
    have h1 := hfirst.losses
    have h2 := hlater.losses
    rw [length_append]
    omega
  packets := Nat.le_trans hfirst.packets hlater.packets
  room := hfirst.room
  increasing := hfirst.increasing
  single := hfirst.single
  last := Nat.le_trans hfirst.last hlater.last
  bounded := fun p hp => Nat.le_trans (hfirst.bounded p hp) hlater.last

end Parts

section Steps

variable {h next : SentPacketHandler σ}

variable {lost : List (Packet σ)}

theorem Queues.moves {op : SentPacketHandler σ → Packet σ → SentPacketHandler σ} {perLoss : Nat}
    (hq : Queues op perLoss) (h' : Tracked h) (hlost : lost.Sublist h.packetHistory)
    (hperLoss : perLoss ≤ 1) : Moves h (lost.foldl op h) [] [] [] lost := by
  obtain ⟨hqueue, hlosses, hpackets, hlast⟩ := hq.foldl h lost
  obtain ⟨-, hleft, -⟩ := h'.takeAll hq.toTakes hlost
  have hcount : perLoss * lost.length ≤ lost.length := by
    simpa using Nat.mul_le_mul_right lost.length hperLoss
  refine Moves.of_lost ?_ hqueue (by omega) hpackets hlast
  rw [hleft]
  exact perm_without h'.sorted hlost

section

variable (h' : Tracked h)

include h'

theorem moves_countLost
    (hlost : lost.Sublist h.packetHistory) (lossTime : Option Int) :
    Moves h (lost.foldl SentPacketHandler.queuePacketForRetransmission
      (SentPacketHandler.countLost { h with lossTime := lossTime } lost)) [] [] [] lost := by
  have hstart : Tracked (SentPacketHandler.countLost { h with lossTime := lossTime } lost) :=
    ⟨h'.sorted, h'.sent, h'.bytes⟩
  have hlosses := (queues_queuePacketForRetransmission.foldl
    (SentPacketHandler.countLost { h with lossTime := lossTime } lost) lost).2.1
  have hmoves := queues_queuePacketForRetransmission.moves hstart hlost (Nat.zero_le 1)
  rw [Nat.zero_mul, Nat.add_zero] at hlosses
  exact ⟨hmoves.history, hmoves.queue, Nat.le_of_eq hlosses, hmoves.packets, hmoves.room,
    hmoves.increasing, hmoves.single, hmoves.last, hmoves.bounded⟩

theorem moves_detectLostPackets (now delayUntilLost : Int) :
    ∃ lost, Moves h (h.detectLostPackets now delayUntilLost) [] [] [] lost :=
  ⟨_, moves_countLost h' (filter_sublist.trans (upToLargestAcked_sublist h)) _⟩

theorem moves_setInflightAsLost : ∃ lost, Moves h h.setInflightAsLost [] [] [] lost :=
  ⟨_, moves_countLost h' (upToLargestAcked_sublist h) h.lossTime⟩

theorem moves_retransmitOldestPacket :
    ∃ lost, Moves h h.retransmitOldestPacket [] [] [] lost := by
  simp only [SentPacketHandler.retransmitOldestPacket]
  cases hhistory : h.packetHistory with
  | nil => exact ⟨[], Moves.refl h⟩
  | cons p rest =>
    have hone : [p].Sublist h.packetHistory := by simp [hhistory]
    exact ⟨[p], queues_queueRTO.moves h' hone (Nat.le_refl 1)⟩

theorem moves_retransmitTLP : ∃ lost, Moves h h.retransmitTLP [] [] [] lost := by
  simp only [SentPacketHandler.retransmitTLP]
  cases hlast : h.packetHistory.getLast? with
  | none => exact ⟨[], Moves.refl h⟩
  | some p =>
    have hone : [p].Sublist h.packetHistory :=
      singleton_sublist.mpr (List.mem_of_getLast? hlast)
    exact ⟨[p], queues_queuePacketForRetransmission.moves h' hone (Nat.zero_le 1)⟩

theorem moves_onAlarm (now delayUntilLost : Int) (potentiallyFailed : Bool) :
    ∃ lost, Moves h (h.onAlarm now delayUntilLost potentiallyFailed) [] [] [] lost := by
  simp only [SentPacketHandler.onAlarm]
  split_ifs
  · exact moves_detectLostPackets h' now delayUntilLost
  · obtain ⟨lost, hm⟩ := moves_retransmitTLP h'
    exact ⟨lost, hm.adjust ⟨rfl, rfl, rfl, rfl, rfl⟩ ⟨rfl, rfl, rfl, rfl, rfl⟩⟩
  · have hm := queues_queueRTO.moves h' (List.Sublist.refl h.packetHistory) (Nat.le_refl 1)
    exact ⟨_, hm.adjust ⟨rfl, rfl, rfl, rfl, rfl⟩ ⟨rfl, rfl, rfl, rfl, rfl⟩⟩
  · obtain ⟨first, hfirst⟩ := moves_retransmitOldestPacket h'
    obtain ⟨second, hsecond⟩ := moves_retransmitOldestPacket h'.retransmitOldestPacket
    have hm := hfirst.trans hsecond
    exact ⟨_, hm.adjust ⟨rfl, rfl, rfl, rfl, rfl⟩ ⟨rfl, rfl, rfl, rfl, rfl⟩⟩
  · exact ⟨[], Moves.refl h⟩

theorem moves_onPacketAcked {acked : List (Packet σ)}
    (hacked : acked.Sublist h.packetHistory) :
    Moves h (acked.foldl SentPacketHandler.onPacketAcked h) [] acked [] [] := by
  have hkept : ∀ (acked : List (Packet σ)) (h : SentPacketHandler σ),
      (acked.foldl SentPacketHandler.onPacketAcked h).retransmissionQueue = h.retransmissionQueue ∧
      (acked.foldl SentPacketHandler.onPacketAcked h).losses = h.losses ∧
      (acked.foldl SentPacketHandler.onPacketAcked h).packets = h.packets ∧
      (acked.foldl SentPacketHandler.onPacketAcked h).lastSentPacketNumber =
        h.lastSentPacketNumber := by
    intro acked
    induction acked with
    | nil => exact fun h => ⟨rfl, rfl, rfl, rfl⟩
    | cons p rest ih => exact fun h => ih (h.onPacketAcked p)
  obtain ⟨hqueue, hlosses, hpackets, hlast⟩ := hkept acked h
  obtain ⟨-, hleft, -⟩ := h'.takeAll takes_onPacketAcked hacked
  refine ⟨?_, ?_, ?_, ?_, fun hne => absurd rfl hne, ?_, ?_, ?_, ?_⟩
  · rw [hleft, append_nil, append_nil]
    exact perm_without h'.sorted hacked
  · rw [hqueue]
    simp
  · rw [hlosses]
    exact Nat.le_add_right _ _
  · rw [hpackets]
    exact Nat.le_refl _
  · simp
  · simp
  · rw [hlast]
  · simp

theorem moves_receivedAck (ackFrame : AckFrame) (withPacketNumber : Nat)
    (now delayUntilLost : Int) :
    ∃ lost, Moves h (h.receivedAck ackFrame withPacketNumber now delayUntilLost).1 []
      (h.ackedBy (.receivedAck ackFrame withPacketNumber now delayUntilLost)) [] lost := by
  simp only [SentPacketHandler.ackedBy, SentPacketHandler.receivedAck]
  by_cases hunsent : ackFrame.largestAcked > h.lastSentPacketNumber
  · simp only [hunsent, true_or, if_true]
    exact ⟨[], Moves.refl h⟩
  by_cases hduplicate : withPacketNumber ≤ h.largestReceivedPacketWithAck
  · simp only [hunsent, hduplicate, true_or, or_true, if_true, if_false]
    exact ⟨[], Moves.refl h⟩
  simp only [hunsent, hduplicate, false_or, if_false]
  split_ifs with hrepeated hrefused hskipped hrefused hrefused
  · exact ⟨[], (Moves.refl h).adjust ⟨rfl, rfl, rfl, rfl, rfl⟩ ⟨rfl, rfl, rfl, rfl, rfl⟩⟩
  · exact absurd (Or.inl hrepeated) hrefused
  · exact ⟨[], (Moves.refl h).adjust ⟨rfl, rfl, rfl, rfl, rfl⟩ ⟨rfl, rfl, rfl, rfl, rfl⟩⟩
  · exact absurd (Or.inr hskipped) hrefused
  · exact absurd hrefused (not_or.mpr ⟨hrepeated, hskipped⟩)
  split
  next err hdetermined =>
    rw [show h.determineNewlyAckedPackets ackFrame = .error err from hdetermined]
    exact ⟨[], (Moves.refl h).adjust ⟨rfl, rfl, rfl, rfl, rfl⟩ ⟨rfl, rfl, rfl, rfl, rfl⟩⟩
  next acked hdetermined =>
    rw [show h.determineNewlyAckedPackets ackFrame = .ok acked from hdetermined]
    have hstart : Tracked { h with
        largestReceivedPacketWithAck := withPacketNumber
        largestAcked := ackFrame.largestAcked } := ⟨h'.sorted, h'.sent, h'.bytes⟩
    have hsub := determineNewlyAcked_sublist hdetermined
    have htaken := (hstart.takeAll takes_onPacketAcked hsub).1
    obtain ⟨lost, hlost⟩ := moves_detectLostPackets htaken now delayUntilLost
    exact ⟨_, ((moves_onPacketAcked hstart hsub).trans hlost).adjust ⟨rfl, rfl, rfl, rfl, rfl⟩
      ⟨rfl, rfl, rfl, rfl, rfl⟩⟩

theorem moves_receivedClosePath (f : ClosePathFrame) (withPacketNumber : Nat) :
    ∃ lost, Moves h (h.receivedClosePath f withPacketNumber).1 []
      (h.ackedBy (.receivedClosePath f withPacketNumber)) [] lost := by
  simp only [SentPacketHandler.ackedBy, SentPacketHandler.receivedClosePath]
  by_cases hunsent : f.largestAcked > h.lastSentPacketNumber
  · simp only [hunsent, true_or, if_true]
    exact ⟨[], Moves.refl h⟩
  by_cases hduplicate : withPacketNumber ≤ h.largestReceivedPacketWithAck
  · simp only [hunsent, hduplicate, true_or, or_true, if_true, if_false]
    exact ⟨[], Moves.refl h⟩
  simp only [hunsent, hduplicate, false_or, if_false]
  split_ifs with hskipped hrefused hrefused
  · exact ⟨[], (Moves.refl h).adjust ⟨rfl, rfl, rfl, rfl, rfl⟩ ⟨rfl, rfl, rfl, rfl, rfl⟩⟩
  · exact absurd hskipped hrefused
  · exact absurd hrefused hskipped
  split
  next err hdetermined =>
    rw [show h.determineNewlyAckedPacketsClosePath f = .error err from hdetermined]
    exact ⟨[], (Moves.refl h).adjust ⟨rfl, rfl, rfl, rfl, rfl⟩ ⟨rfl, rfl, rfl, rfl, rfl⟩⟩
  next acked hdetermined =>
    rw [show h.determineNewlyAckedPacketsClosePath f = .ok acked from hdetermined]
    have hstart : Tracked { h with largestReceivedPacketWithAck := withPacketNumber } :=
      ⟨h'.sorted, h'.sent, h'.bytes⟩
    have hsub := determineNewlyAcked_sublist hdetermined
    have htaken := (hstart.takeAll takes_onPacketAcked hsub).1
    obtain ⟨lost, hlost⟩ := moves_setInflightAsLost htaken
    exact ⟨_, ((moves_onPacketAcked hstart hsub).trans hlost).adjust ⟨rfl, rfl, rfl, rfl, rfl⟩
      ⟨rfl, rfl, rfl, rfl, rfl⟩⟩

end

theorem moves_sentPacket (h : SentPacketHandler σ) (packet : Packet σ) (now : Int) :
    Moves h (h.sentPacket packet now).1 (h.addedBy (.sentPacket packet now)) [] [] [] := by
  simp only [SentPacketHandler.addedBy, SentPacketHandler.sentPacket]
  split_ifs with hnumber hroom hretransmittable
  · rw [drop_length]
    exact Moves.refl h
  · rw [drop_length]
    exact Moves.refl h
  · rw [drop_left]
    refine ⟨by simp, by simp, by simp, by simp, fun _ => ?_, ?_, by simp, ?_, ?_⟩
    · simp only [length_singleton]
      omega
    · simpa using hnumber
    · dsimp only
      omega
    · simp
  · rw [drop_length]
    refine ⟨by simp, by simp, by simp, by simp, fun hne => absurd rfl hne, by simp, by simp, ?_,
      by simp⟩
    dsimp only
    omega

theorem moves_dequeue (h : SentPacketHandler σ) :
    Moves h h.dequeuePacketForRetransmission.1 [] []
      (h.dequeuedBy .dequeuePacketForRetransmission) [] := by
  simp only [SentPacketHandler.dequeuedBy, SentPacketHandler.dequeuePacketForRetransmission]
  cases hqueue : h.retransmissionQueue with
  | nil => exact Moves.refl h
  | cons packet rest =>
    refine ⟨by simp, by simp [hqueue], by simp, by simp, fun hne => absurd rfl hne, by simp,
      by simp, Nat.le_refl _, by simp⟩

theorem moves_step {event : Event σ} {out : List (Option AckError)} (h' : Tracked h)
    (hown : event.isDuplicate = false) (hstep : step h event = some (next, out)) :
    ∃ lost, Moves h next (h.addedBy event) (h.ackedBy event) (h.dequeuedBy event) lost := by
  cases event with
  | sentPacket packet now =>
    cases hstep
    exact ⟨[], moves_sentPacket h packet now⟩
  | receivedAck ackFrame withPacketNumber now delayUntilLost =>
    cases hstep
    exact moves_receivedAck h' ackFrame withPacketNumber now delayUntilLost
  | receivedClosePath f withPacketNumber =>
    cases hstep
    exact moves_receivedClosePath h' f withPacketNumber
  | onAlarm now delayUntilLost potentiallyFailed =>
    cases hstep
    exact moves_onAlarm h' now delayUntilLost potentiallyFailed
  | setInflightAsLost =>
    cases hstep
    exact moves_setInflightAsLost h'
  | dequeuePacketForRetransmission =>
    cases hstep
    exact ⟨[], moves_dequeue h⟩
  | duplicatePacket packet => cases hown

end Steps

inductive Place where
  | packetHistory
  | retransmissionQueue
  | acknowledged
  | dequeued
deriving DecidableEq

def Place.all : List Place :=
  [.packetHistory, .retransmissionQueue, .acknowledged, .dequeued]

def Place.packets (h : SentPacketHandler σ) (ledger : Ledger σ) : Place → List (Packet σ)
  | .packetHistory => h.packetHistory
  | .retransmissionQueue => h.retransmissionQueue
  | .acknowledged => ledger.acked
  | .dequeued => ledger.dequeued

-- The packets that were added have numbers of their own, and all the places together hold each of
-- them once. A packet is counted as lost when it goes to the queue.
structure Conserved (h : SentPacketHandler σ) (ledger : Ledger σ) : Prop where
  tracked : Tracked h
  numbers : Sorted ledger.added
  bounded : ∀ p ∈ ledger.added, p.packetNumber ≤ h.lastSentPacketNumber
  places : ledger.added.Perm (Place.all.flatMap (Place.packets h ledger))
  losses : h.losses ≤ h.retransmissionQueue.length + ledger.dequeued.length
  packets : ledger.added.length ≤ h.packets
  room : h.retransmissionQueue.length + h.packetHistory.length ≤ maxTrackedSentPackets

section Conservation

variable {h next : SentPacketHandler σ} {ledger : Ledger σ}

theorem flatMap_packets (h : SentPacketHandler σ) (ledger : Ledger σ) :
    Place.all.flatMap (Place.packets h ledger) =
      h.packetHistory ++ (h.retransmissionQueue ++ (ledger.acked ++ ledger.dequeued)) := by
  simp [Place.all, Place.packets]

variable {added acked dequeued lost : List (Packet σ)}

theorem Moves.places (hm : Moves h next added acked dequeued lost)
    (hplaces : ledger.added.Perm (Place.all.flatMap (Place.packets h ledger))) :
    (ledger.added ++ added).Perm (Place.all.flatMap (Place.packets next
      ⟨ledger.added ++ added, ledger.acked ++ acked, ledger.dequeued ++ dequeued⟩)) := by
  have hhistory := Multiset.coe_eq_coe.mpr hm.history
  have hqueue := Multiset.coe_eq_coe.mpr (List.Perm.of_eq hm.queue)
  rw [flatMap_packets] at hplaces ⊢
  have hplaces := Multiset.coe_eq_coe.mpr hplaces
  simp only [← Multiset.coe_add] at hhistory hqueue hplaces
  rw [← Multiset.coe_eq_coe]
  simp only [← Multiset.coe_add]
  calc (ledger.added : Multiset (Packet σ)) + added
      = h.packetHistory + added + (h.retransmissionQueue + (ledger.acked + ledger.dequeued)) := by
        rw [hplaces]
        abel
    _ = next.packetHistory + (h.retransmissionQueue + lost) + (ledger.acked + acked) +
          ledger.dequeued := by
        rw [hhistory]
        abel
    _ = next.packetHistory + (next.retransmissionQueue + (ledger.acked + acked +
          (ledger.dequeued + dequeued))) := by
        rw [hqueue]
        abel

theorem Moves.room_next (hm : Moves h next added acked dequeued lost)
    (hroom : h.retransmissionQueue.length + h.packetHistory.length ≤ maxTrackedSentPackets) :
    next.retransmissionQueue.length + next.packetHistory.length ≤ maxTrackedSentPackets := by
  have hhistory := hm.history.length_eq
  have hqueue := congrArg List.length hm.queue
  simp only [length_append] at hhistory hqueue
  by_cases hadded : added = []
  · subst hadded
    rw [length_nil] at hhistory
    omega
  · have hfits := hm.room hadded
    omega

theorem Moves.sorted (hm : Moves h next added acked dequeued lost) (hsorted : Sorted ledger.added)
    (hbounded : ∀ p ∈ ledger.added, p.packetNumber ≤ h.lastSentPacketNumber) :
    Sorted (ledger.added ++ added) := by
  refine pairwise_append.mpr ⟨hsorted, ?_, fun p hp q hq => ?_⟩
  · match added, hm.single with
    | [], _ => exact List.Pairwise.nil
    | [p], _ => exact pairwise_singleton _ _
  · exact Nat.lt_of_le_of_lt (hbounded p hp) (hm.increasing q hq)

theorem Conserved.step {event : Event σ} {out : List (Option AckError)} (hc : Conserved h ledger)
    (hown : event.isDuplicate = false) (hstep : AckHandler.step h event = some (next, out)) :
    Conserved next (ledger.after h event) := by
  obtain ⟨lost, hm⟩ := moves_step hc.tracked hown hstep
  refine ⟨hc.tracked.step hstep, hm.sorted hc.numbers hc.bounded, ?_, hm.places hc.places, ?_, ?_,
    hm.room_next hc.room⟩
  · intro p hp
    rcases mem_append.mp hp with hp | hp
    · exact Nat.le_trans (hc.bounded p hp) hm.last
    · exact hm.bounded p hp
  · have hlosses := hm.losses
    have hbefore := hc.losses
    have hqueue := congrArg List.length hm.queue
    simp only [length_append, Ledger.after] at hqueue ⊢
    omega
  · have hpackets := hm.packets
    have hbefore := hc.packets
    simp only [length_append, Ledger.after]
    omega

theorem conserved_new : Conserved (@newSentPacketHandler σ) ⟨[], [], []⟩ :=
  ⟨tracked_new, List.Pairwise.nil, by simp, List.Perm.nil, Nat.le_refl 0, Nat.le_refl 0,
    Nat.zero_le _⟩

theorem run_conserved {events : List (Event σ)} {log : List (Option AckError)}
    (hown : ∀ event ∈ events, event.isDuplicate = false)
    (hrun : run ledgerStep (newSentPacketHandler, ⟨[], [], []⟩) events = some ((h, ledger), log)) :
    Conserved h ledger := by
  refine run_invariant (fun _ _ state => Conserved state.1 state.2)
    (fun _ _ state event next out hc hown hstep => ?_) [] [] _ (h, ledger) events log conserved_new
    (Along.of_forall hown _) hrun
  obtain ⟨⟨handler, errs⟩, hhandler, hnext⟩ := Option.map_eq_some_iff.mp hstep
  cases hnext
  exact hc.step hown hhandler

theorem Conserved.place_unique (hc : Conserved h ledger) {p : Packet σ} (hp : p ∈ ledger.added) :
    ∃! place : Place, p ∈ place.packets h ledger := by
  have hnodup : (Place.all.flatMap (Place.packets h ledger)).Nodup :=
    hc.places.nodup_iff.mp (hc.numbers.imp fun hlt heq => by simp [heq] at hlt)
  have hdisjoint := (nodup_flatMap.mp hnodup).2
  obtain ⟨place, -, hplace⟩ := mem_flatMap.mp (hc.places.subset hp)
  refine ⟨place, hplace, fun other hother => ?_⟩
  by_contra hne
  have hall : ∀ place : Place, place ∈ Place.all := by
    intro place
    cases place <;> decide
  have hsymm : Std.Symm (Function.onFun List.Disjoint (Place.packets h ledger)) :=
    ⟨fun _ _ hapart => List.Disjoint.symm hapart⟩
  have hapart := hdisjoint.forall (hall other) (hall place) hne
  exact hapart hother hplace

theorem totalLength_lt {history : List (Packet σ)} (hroom : history.length ≤ maxTrackedSentPackets)
    (hlength : ∀ p ∈ history, p.length < 2 ^ 44) : totalLength history < 2 ^ 64 := by
  have hsum := sum_le_card_nsmul (history.map (·.length)) (2 ^ 44) (fun n hn => by
    obtain ⟨p, hp, rfl⟩ := mem_map.mp hn
    exact Nat.le_of_lt (hlength p hp))
  simp only [length_map, smul_eq_mul] at hsum
  have hmax : history.length * 2 ^ 44 ≤ maxTrackedSentPackets * 2 ^ 44 :=
    Nat.mul_le_mul_right _ hroom
  have hbound : maxTrackedSentPackets * 2 ^ 44 < 2 ^ 64 := by decide
  exact Nat.lt_of_le_of_lt (Nat.le_trans hsum hmax) hbound

-- After any calls, each packet that was added to the history is in one place, the bytes in flight
-- are those of the history, and no more packets are lost than were sent. The bytes are counted
-- modulo the width of the counter, which the packets that fit the history never reach.
theorem sent_packets_are_conserved {events : List (Event σ)} {log : List (Option AckError)}
    (hown : ∀ event ∈ events, event.isDuplicate = false)
    (hrun : run ledgerStep (newSentPacketHandler, ⟨[], [], []⟩) events = some ((h, ledger), log)) :
    h.bytesInFlight = totalLength h.packetHistory % 2 ^ 64 ∧
      ((∀ p ∈ ledger.added, p.length < 2 ^ 44) → h.bytesInFlight = totalLength h.packetHistory) ∧
      Sorted h.packetHistory ∧
      (∀ p ∈ h.packetHistory, p.packetNumber ≤ h.lastSentPacketNumber) ∧
      ledger.added.Perm (Place.all.flatMap (Place.packets h ledger)) ∧
      (∀ p ∈ ledger.added, ∃! place : Place, p ∈ place.packets h ledger) ∧
      h.losses ≤ h.packets := by
  have hc := run_conserved hown hrun
  refine ⟨hc.tracked.bytes, fun hlength => ?_, hc.tracked.sorted, hc.tracked.sent, hc.places,
    fun p hp => hc.place_unique hp, ?_⟩
  · have hmem : ∀ p ∈ h.packetHistory, p ∈ ledger.added := by
      intro p hp
      refine hc.places.symm.subset ?_
      rw [flatMap_packets]
      exact List.mem_append_left _ hp
    have hsmall := totalLength_lt (Nat.le_trans (Nat.le_add_left _ _) hc.room)
      fun p hp => hlength p (hmem p hp)
    rw [hc.tracked.bytes, Nat.mod_eq_of_lt hsmall]
  · have hplaces := hc.places.length_eq
    have hlosses := hc.losses
    have hpackets := hc.packets
    rw [flatMap_packets] at hplaces
    simp only [List.length_append] at hplaces
    omega

end Conservation

def pingPacket (packetNumber : Nat) : Packet Unit where
  packetNumber := packetNumber
  frames := [.control .ping]
  length := 100
  encryptionLevel := .forwardSecure
  sendTime := 0
  needRetrans := true

def conservedEvents : List (Event Unit) :=
  [.sentPacket (pingPacket 1) 0, .sentPacket (pingPacket 2) 0, .sentPacket (pingPacket 3) 0,
    .receivedAck ⟨⟨2, 2, []⟩, 0, 0⟩ 1 10 100, .onAlarm 200 100 false,
    .dequeuePacketForRetransmission]

theorem sent_packets_are_conserved_example :
    ∃ h ledger log,
      run ledgerStep (newSentPacketHandler, ⟨[], [], []⟩) conservedEvents = some ((h, ledger), log) ∧
      ledger.acked.map (·.packetNumber) = [2] ∧ ledger.dequeued.map (·.packetNumber) = [1] ∧
      h.packetHistory.map (·.packetNumber) = [3] ∧
      h.bytesInFlight = totalLength h.packetHistory % 2 ^ 64 ∧ h.losses ≤ h.packets := by
  obtain ⟨⟨⟨h, ledger⟩, log⟩, hrun⟩ := Option.isSome_iff_exists.mp (show (run ledgerStep
    (newSentPacketHandler, ⟨[], [], []⟩) conservedEvents).isSome = true by decide +kernel)
  have hnumbers : (run ledgerStep (newSentPacketHandler, ⟨[], [], []⟩) conservedEvents).map
      (fun result => (result.1.2.acked.map (·.packetNumber),
        result.1.2.dequeued.map (·.packetNumber),
        result.1.1.packetHistory.map (·.packetNumber))) = some ([2], [1], [3]) := by
    decide +kernel
  rw [hrun] at hnumbers
  obtain ⟨hacked, hdequeued, hhistory⟩ :
      ledger.acked.map (·.packetNumber) = [2] ∧ ledger.dequeued.map (·.packetNumber) = [1] ∧
        h.packetHistory.map (·.packetNumber) = [3] := by
    simpa using hnumbers
  have hconserved := sent_packets_are_conserved (by decide) hrun
  exact ⟨h, ledger, log, hrun, hacked, hdequeued, hhistory, hconserved.1,
    hconserved.2.2.2.2.2.2⟩

end MpQuic.AckHandler

import MpQuic.AckHandler.ClosePath

namespace MpQuic.AckHandler

open MpQuic.Library MpQuic.Wire List

variable {σ : Type}

inductive Call (σ : Type) where
  | handler (event : Event σ)
  | getStopWaitingFrame (force : Bool)

def callStep (h : SentPacketHandler σ) :
    Call σ → Option (SentPacketHandler σ × List (StopWaitingFrame × List (Packet σ)))
  | .handler event => (step h event).map fun next => (next.1, [])
  | .getStopWaitingFrame force =>
    let answer := h.getStopWaitingFrame force
    some (answer.1, answer.2.toList.map fun frame => (frame, h.packetHistory))

-- The call takes no packet out of the history while an earlier one stays there: an
-- ACK frame comes too late for every packet below its largest one that it leaves out,
-- the packets that are lost on a timeout are the oldest ones, and the tail that is
-- probed is the only packet.
def LeavesNoGap (h : SentPacketHandler σ) : Call σ → Prop
  | .handler (.receivedAck ackFrame withPacketNumber now delayUntilLost) =>
    ackFrame.largestAcked ≤ h.lastSentPacketNumber →
    h.largestReceivedPacketWithAck < withPacketNumber →
    h.skippedPacketsAcked ackFrame = false →
    ∀ p ∈ h.packetHistory, p.packetNumber ≤ ackFrame.largestAcked →
      Accounts ackFrame.toAckBlocks p.packetNumber ∨ now - p.sendTime > delayUntilLost
  | .handler (.onAlarm now delayUntilLost _) =>
    h.hasOutstandingRetransmittablePacket = true →
    if h.lossTime ≠ none then
      ∀ p ∈ h.packetHistory, ∀ q ∈ h.packetHistory, p.packetNumber < q.packetNumber →
        q.packetNumber ≤ h.largestAcked →
        now - q.sendTime > delayUntilLost → now - p.sendTime > delayUntilLost
    else h.tlpCount < maxTailLossProbes → h.packetHistory.length ≤ 1
  | _ => True

-- All packets in flight are at or above the number the next STOP_WAITING frame will
-- name, and above the one that the last frame has named.
structure Waiting (h : SentPacketHandler σ) : Prop where
  tracked : Tracked h
  next : ∀ p ∈ h.packetHistory, h.stopWaitingManager.nextLeastUnacked ≤ p.packetNumber
  sent : h.stopWaitingManager.nextLeastUnacked ≤ h.lastSentPacketNumber + 1
  last : ∀ frame, h.stopWaitingManager.lastStopWaitingFrame = some frame →
    frame.leastUnacked ≤ h.stopWaitingManager.nextLeastUnacked

structure Requeues (op : SentPacketHandler σ → Packet σ → SentPacketHandler σ) : Prop
    extends Takes op where
  waiting : ∀ h p, (op h p).stopWaitingManager =
    h.stopWaitingManager.queuedRetransmissionForPacketNumber p.packetNumber

theorem requeues_queuePacketForRetransmission :
    Requeues (@SentPacketHandler.queuePacketForRetransmission σ) :=
  ⟨takes_queuePacketForRetransmission, fun _ _ => rfl⟩

theorem requeues_queueRTO : Requeues (@SentPacketHandler.queueRTO σ) :=
  ⟨takes_queueRTO, fun _ _ => rfl⟩

section Manager

variable {s : StopWaitingManager} {p : Nat}

theorem queuedRetransmission_next :
    (s.queuedRetransmissionForPacketNumber p).nextLeastUnacked =
      max s.nextLeastUnacked (p + 1) := by
  simp only [StopWaitingManager.queuedRetransmissionForPacketNumber]
  split_ifs with hnext
  · exact (Nat.max_eq_right (Nat.le_succ_of_le hnext)).symm
  · exact (Nat.max_eq_left (by omega)).symm

theorem queuedRetransmission_last :
    (s.queuedRetransmissionForPacketNumber p).lastStopWaitingFrame = s.lastStopWaitingFrame := by
  simp only [StopWaitingManager.queuedRetransmissionForPacketNumber]
  split_ifs <;> rfl

variable {ack : AckFrame}

theorem receivedAck_next :
    (s.receivedAck ack).nextLeastUnacked = max s.nextLeastUnacked (ack.largestAcked + 1) := by
  simp only [StopWaitingManager.receivedAck]
  split_ifs with hnext
  · exact (Nat.max_eq_right (Nat.le_succ_of_le hnext)).symm
  · exact (Nat.max_eq_left (by omega)).symm

theorem receivedAck_last : (s.receivedAck ack).lastStopWaitingFrame = s.lastStopWaitingFrame := by
  simp only [StopWaitingManager.receivedAck]
  split_ifs <;> rfl

end Manager

section Queue

variable {op : SentPacketHandler σ → Packet σ → SentPacketHandler σ} {h : SentPacketHandler σ}

theorem waiting_new : Waiting (@newSentPacketHandler σ) := by
  refine ⟨tracked_new, ?_, Nat.zero_le _, ?_⟩
  · intro p hp
    cases hp
  · intro frame hframe
    cases hframe

theorem Waiting.congr {t : SentPacketHandler σ} (hw : Waiting h) (ht : Tracked t)
    (hhistory : t.packetHistory = h.packetHistory)
    (hsent : t.lastSentPacketNumber = h.lastSentPacketNumber)
    (hmanager : t.stopWaitingManager = h.stopWaitingManager) : Waiting t := by
  refine ⟨ht, ?_, ?_, ?_⟩
  · rw [hhistory, hmanager]
    exact hw.next
  · rw [hsent, hmanager]
    exact hw.sent
  · rw [hmanager]
    exact hw.last

theorem remove_head (p : Packet σ) (rest : List (Packet σ)) :
    SentPacketHandler.remove (p :: rest) p = rest := by
  simp [SentPacketHandler.remove]

variable {rest : List (Packet σ)}

theorem Waiting.requeue (hop : Requeues op) (hw : Waiting h) {p : Packet σ}
    (hhistory : h.packetHistory = p :: rest) :
    Waiting (op h p) ∧ (op h p).packetHistory = rest := by
  have hafter : (op h p).packetHistory = rest := by
    rw [hop.history, hhistory, remove_head]
  have hp : p ∈ h.packetHistory := by simp [hhistory]
  obtain ⟨hfirst, -⟩ := pairwise_cons.mp (hhistory ▸ hw.tracked.sorted)
  refine ⟨⟨hw.tracked.take hop.toTakes hp, ?_, ?_, ?_⟩, hafter⟩
  · intro q hq
    rw [hafter] at hq
    have hold := hw.next q (by simp [hhistory, hq])
    have hlater := hfirst q hq
    rw [hop.waiting, queuedRetransmission_next]
    omega
  · have hold := hw.sent
    have hsent := hw.tracked.sent p hp
    rw [hop.waiting, queuedRetransmission_next, hop.last]
    omega
  · intro frame hframe
    rw [hop.waiting, queuedRetransmission_last] at hframe
    have hold := hw.last frame hframe
    rw [hop.waiting, queuedRetransmission_next]
    omega

theorem Waiting.requeueAll (hop : Requeues op) (hw : Waiting h) {lost : List (Packet σ)}
    (hhistory : h.packetHistory = lost ++ rest) :
    Waiting (lost.foldl op h) ∧ (lost.foldl op h).packetHistory = rest ∧
      (lost.foldl op h).lastSentPacketNumber = h.lastSentPacketNumber := by
  induction lost generalizing h with
  | nil => exact ⟨hw, hhistory, rfl⟩
  | cons p lost ih =>
    obtain ⟨hnext, hafter⟩ := hw.requeue hop hhistory
    obtain ⟨hall, hrest, hsent⟩ := ih hnext hafter
    exact ⟨hall, hrest, hsent.trans (hop.last h p)⟩

theorem upToLargestAcked_append (h : SentPacketHandler σ) : h.packetHistory =
    h.upToLargestAcked ++ h.packetHistory.dropWhile fun p => p.packetNumber ≤ h.largestAcked :=
  takeWhile_append_dropWhile.symm

theorem Waiting.setInflightAsLost (hw : Waiting h) : Waiting h.setInflightAsLost := by
  have hcounted : Waiting (h.countLost h.upToLargestAcked) :=
    hw.congr ⟨hw.tracked.sorted, hw.tracked.sent, hw.tracked.bytes⟩ rfl rfl rfl
  exact (hcounted.requeueAll requeues_queuePacketForRetransmission (upToLargestAcked_append h)).1

theorem Waiting.detectLostPackets (hw : Waiting h) {now delayUntilLost : Int}
    (hsplit : h.packetHistory =
      (h.upToLargestAcked.filter fun p => now - p.sendTime > delayUntilLost) ++ rest) :
    Waiting (h.detectLostPackets now delayUntilLost) ∧
      (h.detectLostPackets now delayUntilLost).packetHistory = rest ∧
      (h.detectLostPackets now delayUntilLost).lastSentPacketNumber = h.lastSentPacketNumber := by
  simp only [SentPacketHandler.detectLostPackets]
  refine Waiting.requeueAll requeues_queuePacketForRetransmission ?_ hsplit
  exact hw.congr ⟨hw.tracked.sorted, hw.tracked.sent, hw.tracked.bytes⟩ rfl rfl rfl

end Queue

section Steps

variable {h : SentPacketHandler σ}

variable {history : List (Packet σ)} {limit : Nat} {now delayUntilLost : Int}

theorem lt_of_mem_dropWhile (hs : Sorted history) {p : Packet σ}
    (hp : p ∈ history.dropWhile fun p => p.packetNumber ≤ limit) : limit < p.packetNumber := by
  by_contra hle
  have hbefore : p ∈ history.takeWhile fun p => p.packetNumber ≤ limit := by
    rw [takeWhile_eq_filter hs]
    exact mem_filter.mpr
      ⟨(dropWhile_sublist _).subset hp, decide_eq_true (Nat.le_of_not_lt hle)⟩
  have hsplit := hs
  rw [← @List.takeWhile_append_dropWhile _ (fun p => decide (p.packetNumber ≤ limit)) history]
    at hsplit
  exact Nat.lt_irrefl _ ((pairwise_append.mp hsplit).2.2 p hbefore p hp)

theorem Waiting.sentPacket (hw : Waiting h) (packet : Packet σ) (now : Int) :
    Waiting (h.sentPacket packet now).1 := by
  have htracked := hw.tracked.sentPacket packet now
  have hsent := hw.sent
  simp only [SentPacketHandler.sentPacket] at htracked ⊢
  split_ifs at htracked ⊢ with hnumber hroom hretransmittable
  · exact hw
  · exact hw
  · refine ⟨htracked, ?_, ?_, hw.last⟩
    · intro p hp
      rcases mem_append.mp hp with hp | hp
      · exact hw.next p hp
      · rw [mem_singleton] at hp
        subst hp
        dsimp only
        omega
    · dsimp only
      omega
  · refine ⟨htracked, hw.next, ?_, hw.last⟩
    dsimp only
    omega

theorem manager_onPacketAcked (acked : List (Packet σ)) (h : SentPacketHandler σ) :
    (acked.foldl SentPacketHandler.onPacketAcked h).stopWaitingManager = h.stopWaitingManager ∧
      (acked.foldl SentPacketHandler.onPacketAcked h).lastSentPacketNumber =
        h.lastSentPacketNumber := by
  induction acked generalizing h with
  | nil => exact ⟨rfl, rfl⟩
  | cons p rest ih => exact ih _

theorem Waiting.acked (hw : Waiting h) {acked : List (Packet σ)}
    (hsub : acked.Sublist h.packetHistory) :
    Waiting (acked.foldl SentPacketHandler.onPacketAcked h) := by
  obtain ⟨htracked, hhistory, -⟩ := hw.tracked.takeAll takes_onPacketAcked hsub
  obtain ⟨hmanager, hlast⟩ := manager_onPacketAcked acked h
  refine ⟨htracked, ?_, ?_, ?_⟩
  · intro p hp
    rw [hhistory] at hp
    rw [hmanager]
    exact hw.next p (mem_of_mem_filter hp)
  · rw [hmanager, hlast]
    exact hw.sent
  · rw [hmanager]
    exact hw.last

theorem Waiting.receivedAck (hw : Waiting h) {ackFrame : AckFrame} {withPacketNumber : Nat}
    (hgap : LeavesNoGap h (.handler (.receivedAck ackFrame withPacketNumber now delayUntilLost))) :
    Waiting (h.receivedAck ackFrame withPacketNumber now delayUntilLost).1 := by
  have htracked := hw.tracked.receivedAck ackFrame withPacketNumber now delayUntilLost
  simp only [SentPacketHandler.receivedAck] at htracked ⊢
  split_ifs at htracked ⊢ with hunsent hold hrepeated hskipped
  · exact hw
  · exact hw
  · exact hw.congr htracked rfl rfl rfl
  · exact hw.congr htracked rfl rfl rfl
  split at htracked
  · exact hw.congr htracked rfl rfl rfl
  next acked hacked =>
    have hleft := hgap (Nat.le_of_not_lt hunsent) (Nat.lt_of_not_le hold)
      (Bool.eq_false_iff.mpr hskipped)
    have hstart : Waiting { h with
        largestReceivedPacketWithAck := withPacketNumber
        largestAcked := ackFrame.largestAcked } :=
      hw.congr ⟨hw.tracked.sorted, hw.tracked.sent, hw.tracked.bytes⟩ rfl rfl rfl
    have hmiddle := hstart.acked (determineNewlyAcked_sublist hacked)
    obtain ⟨-, hhistory, hlargest⟩ :=
      hstart.tracked.takeAll takes_onPacketAcked (determineNewlyAcked_sublist hacked)
    have heq : acked = h.packetHistory.filter
        fun p => Accounts ackFrame.toAckBlocks p.packetNumber :=
      determineNewlyAcked_eq hw.tracked.sorted
        (fun hmissing => by simpa [AckBlocks.hasMissingRanges, length_pos_iff] using hmissing)
        (fun _ _ => rfl) hacked
    have hsent : (acked.foldl SentPacketHandler.onPacketAcked { h with
        largestReceivedPacketWithAck := withPacketNumber
        largestAcked := ackFrame.largestAcked }).lastSentPacketNumber = h.lastSentPacketNumber :=
      (manager_onPacketAcked acked _).2
    generalize acked.foldl SentPacketHandler.onPacketAcked _ = middle at *
    -- what the frame leaves out below its largest packet is overdue
    have hoverdue : middle.upToLargestAcked.filter (fun p => now - p.sendTime > delayUntilLost) =
        middle.upToLargestAcked := by
      refine filter_eq_self.mpr fun p hp => ?_
      have hle : p.packetNumber ≤ ackFrame.largestAcked := by
        simpa [hlargest] using mem_takeWhile_imp hp
      have hmem := (upToLargestAcked_sublist middle).subset hp
      rw [hhistory, heq, without_filter] at hmem
      obtain ⟨hold, hnot⟩ := mem_filter.mp hmem
      exact decide_eq_true ((hleft p hold hle).resolve_left (of_decide_eq_true hnot))
    have hsplit : middle.packetHistory =
        (middle.upToLargestAcked.filter fun p => now - p.sendTime > delayUntilLost) ++
          middle.packetHistory.dropWhile fun p => p.packetNumber ≤ middle.largestAcked := by
      rw [hoverdue]
      exact upToLargestAcked_append middle
    obtain ⟨hdetected, hrest, hlast⟩ := hmiddle.detectLostPackets hsplit
    refine ⟨htracked, ?_, ?_, ?_⟩
    · intro p hp
      have hbefore := hdetected.next p hp
      have habove := lt_of_mem_dropWhile hmiddle.tracked.sorted (hrest ▸ hp)
      rw [hlargest] at habove
      dsimp only [SentPacketHandler.garbageCollectSkippedPackets]
      rw [receivedAck_next]
      exact Nat.max_le.mpr ⟨hbefore, habove⟩
    · have hbefore := hdetected.sent
      dsimp only [SentPacketHandler.garbageCollectSkippedPackets]
      rw [receivedAck_next]
      rw [hlast, hsent] at hbefore ⊢
      exact Nat.max_le.mpr ⟨hbefore, Nat.succ_le_succ (Nat.le_of_not_lt hunsent)⟩
    · intro frame hframe
      dsimp only [SentPacketHandler.garbageCollectSkippedPackets] at hframe ⊢
      rw [receivedAck_last] at hframe
      rw [receivedAck_next]
      exact (hdetected.last frame hframe).trans (Nat.le_max_left _ _)

theorem Waiting.receivedClosePath (hw : Waiting h) (f : ClosePathFrame) (withPacketNumber : Nat) :
    Waiting (h.receivedClosePath f withPacketNumber).1 := by
  have htracked := hw.tracked.receivedClosePath f withPacketNumber
  simp only [SentPacketHandler.receivedClosePath] at htracked ⊢
  split_ifs at htracked ⊢
  · exact hw
  · exact hw
  · exact hw.congr htracked rfl rfl rfl
  split at htracked
  · exact hw.congr htracked rfl rfl rfl
  next acked hacked =>
    have hstart : Waiting { h with largestReceivedPacketWithAck := withPacketNumber } :=
      hw.congr ⟨hw.tracked.sorted, hw.tracked.sent, hw.tracked.bytes⟩ rfl rfl rfl
    have hmiddle := hstart.acked (determineNewlyAcked_sublist hacked)
    exact hmiddle.setInflightAsLost.congr htracked rfl rfl rfl

theorem Waiting.retransmitOldestPacket (hw : Waiting h) : Waiting h.retransmitOldestPacket := by
  simp only [SentPacketHandler.retransmitOldestPacket]
  split
  · exact hw
  · next p rest hhistory => exact (hw.requeue requeues_queueRTO hhistory).1

theorem overdue_append
    (hs : Sorted history)
    (hold : ∀ p ∈ history, ∀ q ∈ history, p.packetNumber < q.packetNumber →
      q.packetNumber ≤ limit → now - q.sendTime > delayUntilLost →
      now - p.sendTime > delayUntilLost) :
    ∃ rest, history = ((history.takeWhile fun p => p.packetNumber ≤ limit).filter
      fun p => now - p.sendTime > delayUntilLost) ++ rest := by
  induction history with
  | nil => exact ⟨[], rfl⟩
  | cons first tail ih =>
    obtain ⟨hfirst, htail⟩ := pairwise_cons.mp hs
    by_cases hle : first.packetNumber ≤ limit
    · rw [takeWhile_cons_of_pos (by simpa using hle)]
      by_cases hdue : now - first.sendTime > delayUntilLost
      · obtain ⟨rest, hrest⟩ := ih htail fun p hp q hq =>
          hold p (mem_cons_of_mem _ hp) q (mem_cons_of_mem _ hq)
        refine ⟨rest, ?_⟩
        rw [filter_cons_of_pos (by simpa using hdue), cons_append, ← hrest]
      · -- nothing younger is overdue
        have hnone : (tail.takeWhile fun p => p.packetNumber ≤ limit).filter
            (fun p => now - p.sendTime > delayUntilLost) = [] := by
          refine filter_eq_nil_iff.mpr fun q hq hqdue => hdue ?_
          have hmem := (takeWhile_sublist _).subset hq
          exact hold first mem_cons_self q (mem_cons_of_mem _ hmem) (hfirst q hmem)
            (by simpa using mem_takeWhile_imp hq) (of_decide_eq_true hqdue)
        refine ⟨first :: tail, ?_⟩
        rw [filter_cons_of_neg (by simpa using hdue), hnone, nil_append]
    · refine ⟨first :: tail, ?_⟩
      rw [takeWhile_cons_of_neg (by simpa using hle), filter_nil, nil_append]

theorem Waiting.onAlarm (hw : Waiting h) {potentiallyFailed : Bool}
    (hgap : LeavesNoGap h (.handler (.onAlarm now delayUntilLost potentiallyFailed))) :
    Waiting (h.onAlarm now delayUntilLost potentiallyFailed) := by
  have htracked := hw.tracked.onAlarm now delayUntilLost potentiallyFailed
  simp only [SentPacketHandler.onAlarm] at htracked ⊢
  split_ifs at htracked ⊢ with hout hloss hprobe hfailed
  · have hold := hgap hout
    rw [if_pos hloss] at hold
    obtain ⟨rest, hsplit⟩ := overdue_append hw.tracked.sorted hold
    exact (hw.detectLostPackets hsplit).1
  · have hone := hgap hout
    rw [if_neg hloss] at hone
    -- the probe takes the only packet
    have hprobed : Waiting h.retransmitTLP := by
      simp only [SentPacketHandler.retransmitTLP]
      cases hhistory : h.packetHistory with
      | nil => exact hw
      | cons p rest =>
        obtain rfl : rest = [] := by simpa [hhistory] using hone hprobe
        exact (hw.requeue requeues_queuePacketForRetransmission hhistory).1
    exact hprobed.congr htracked rfl rfl rfl
  · have hall := (hw.requeueAll requeues_queueRTO (append_nil h.packetHistory).symm).1
    exact hall.congr htracked rfl rfl rfl
  · exact hw.retransmitOldestPacket.retransmitOldestPacket.congr htracked rfl rfl rfl
  · exact hw

theorem Waiting.step {t : SentPacketHandler σ} {event : Event σ} {out : List (Option AckError)}
    (hw : Waiting h) (hgap : LeavesNoGap h (.handler event))
    (hstep : AckHandler.step h event = some (t, out)) : Waiting t := by
  have htracked := hw.tracked.step hstep
  cases event with
  | sentPacket packet now =>
    cases hstep
    exact hw.sentPacket packet now
  | receivedAck ackFrame withPacketNumber now delayUntilLost =>
    cases hstep
    exact hw.receivedAck hgap
  | receivedClosePath f withPacketNumber =>
    cases hstep
    exact hw.receivedClosePath f withPacketNumber
  | onAlarm now delayUntilLost potentiallyFailed =>
    cases hstep
    exact hw.onAlarm hgap
  | setInflightAsLost =>
    cases hstep
    exact hw.setInflightAsLost
  | dequeuePacketForRetransmission =>
    cases hstep
    simp only [SentPacketHandler.dequeuePacketForRetransmission] at htracked ⊢
    split at htracked <;> exact hw.congr htracked rfl rfl rfl
  | duplicatePacket packet =>
    cases hstep
    exact hw.congr htracked rfl rfl rfl

theorem Waiting.getStopWaitingFrame (hw : Waiting h) (force : Bool) :
    Waiting (h.getStopWaitingFrame force).1 ∧
      ∀ frame, (h.getStopWaitingFrame force).2 = some frame →
        ∀ p ∈ h.packetHistory, frame.leastUnacked ≤ p.packetNumber := by
  have htracked : Tracked (h.getStopWaitingFrame force).1 :=
    ⟨hw.tracked.sorted, hw.tracked.sent, hw.tracked.bytes⟩
  simp only [SentPacketHandler.getStopWaitingFrame,
    StopWaitingManager.getStopWaitingFrame] at htracked ⊢
  split_ifs at htracked ⊢
  · refine ⟨⟨htracked, hw.next, hw.sent, ?_⟩, ?_⟩
    · rintro frame ⟨⟩
      exact Nat.le_refl _
    · rintro frame ⟨⟩
      exact hw.next
  · exact ⟨hw, fun frame hframe p hp => (hw.last frame hframe).trans (hw.next p hp)⟩
  · refine ⟨hw, ?_⟩
    rintro frame ⟨⟩
  · refine ⟨⟨htracked, hw.next, hw.sent, ?_⟩, ?_⟩
    · rintro frame ⟨⟩
      exact Nat.le_refl _
    · rintro frame ⟨⟩
      exact hw.next

theorem Waiting.callStep (hw : Waiting h) {call : Call σ} (hgap : LeavesNoGap h call) :
    ∃ next out, AckHandler.callStep h call = some (next, out) ∧ Waiting next ∧
      ∀ sent ∈ out, ∀ p ∈ sent.2, sent.1.leastUnacked ≤ p.packetNumber := by
  cases call with
  | handler event =>
    obtain ⟨next, out, hstep⟩ : ∃ next out, AckHandler.step h event = some (next, out) := by
      cases event <;> exact ⟨_, _, rfl⟩
    refine ⟨next, [], by simp [AckHandler.callStep, hstep], hw.step hgap hstep, ?_⟩
    simp
  | getStopWaitingFrame force =>
    obtain ⟨hnext, hframe⟩ := hw.getStopWaitingFrame force
    refine ⟨_, _, rfl, hnext, ?_⟩
    intro sent hsent
    obtain ⟨frame, hmem, rfl⟩ := mem_map.mp hsent
    exact hframe frame (Option.mem_toList.mp hmem)

end Steps

-- In every run whose calls leave no gap, no STOP_WAITING frame names a number above
-- a packet that is in flight.
theorem stop_waiting_abandons_nothing (calls : List (Call σ))
    (halong : Along callStep LeavesNoGap newSentPacketHandler calls) :
    ∃ h log, run callStep newSentPacketHandler calls = some (h, log) ∧
      ∀ sent ∈ log, ∀ p ∈ sent.2, sent.1.leastUnacked ≤ p.packetNumber := by
  obtain ⟨h, log, hrun, -, hlog⟩ := run_progress
    (fun _ log h => Waiting h ∧
      ∀ sent ∈ log, ∀ p ∈ sent.2, sent.1.leastUnacked ≤ p.packetNumber)
    (fun past log h call hinv hgap => by
      obtain ⟨next, out, hstep, hnext, hout⟩ := hinv.1.callStep hgap
      refine ⟨next, out, hstep, hnext, fun sent hsent => ?_⟩
      rcases List.mem_append.mp hsent with hsent | hsent
      · exact hinv.2 sent hsent
      · exact hout sent hsent)
    [] [] newSentPacketHandler calls ⟨waiting_new, by simp⟩ halong
  exact ⟨h, log, hrun, hlog⟩

section Examples

theorem stop_waiting_abandons_nothing_example :
    let calls : List (Call StreamFrame) := [.handler (.sentPacket (dataPacket 1) 0),
      .handler (.sentPacket (dataPacket 2) 0), .handler (.sentPacket (dataPacket 3) 0),
      .handler (.receivedAck ⟨⟨2, 1, []⟩, 0, 0⟩ 1 5 9), .getStopWaitingFrame false]
    Along callStep LeavesNoGap newSentPacketHandler calls ∧
      ∃ h log, run callStep newSentPacketHandler calls = some (h, log) ∧
        log = [(⟨3, 0, 0⟩, [dataPacket 3])] ∧
        ∀ sent ∈ log, ∀ p ∈ sent.2, sent.1.leastUnacked ≤ p.packetNumber := by
  intro calls
  have halong : Along callStep LeavesNoGap newSentPacketHandler calls := by
    refine ⟨trivial, trivial, trivial, ?_, trivial, trivial⟩
    intro _ _ _
    decide +kernel
  obtain ⟨h, log, hrun, hlog⟩ := stop_waiting_abandons_nothing calls halong
  refine ⟨halong, h, log, hrun, ?_, hlog⟩
  cases hrun
  rfl

-- The frame acknowledges packet 3 only, and the other two are not overdue. Packets 1
-- and 2 stay in flight when the STOP_WAITING frame names packet 4.
theorem stop_waiting_abandons_packets :
    ∃ h log, run callStep newSentPacketHandler [.handler (.sentPacket (dataPacket 1) 0),
        .handler (.sentPacket (dataPacket 2) 0), .handler (.sentPacket (dataPacket 3) 0),
        .handler (.receivedAck ⟨⟨3, 3, []⟩, 0, 0⟩ 1 5 9), .getStopWaitingFrame false] =
      some (h, log) ∧
      log = [(⟨4, 0, 0⟩, [dataPacket 1, dataPacket 2])] ∧
      h.packetHistory = [dataPacket 1, dataPacket 2] := by
  exact ⟨_, _, rfl, rfl, rfl⟩

end Examples

end MpQuic.AckHandler

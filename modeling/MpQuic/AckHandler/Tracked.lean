import MpQuic.AckHandler.Defs

namespace MpQuic.AckHandler

open MpQuic.Library MpQuic.Wire List

variable {σ : Type}

def Sorted (history : List (Packet σ)) : Prop :=
  history.Pairwise fun p q => p.packetNumber < q.packetNumber

def totalLength (history : List (Packet σ)) : Nat :=
  (history.map (·.length)).sum

-- The history is in order, holds nothing that was not sent, and the bytes in flight
-- are those of the history.
structure Tracked (h : SentPacketHandler σ) : Prop where
  sorted : Sorted h.packetHistory
  sent : ∀ p ∈ h.packetHistory, p.packetNumber ≤ h.lastSentPacketNumber
  bytes : h.bytesInFlight = totalLength h.packetHistory % 2 ^ 64

def without (history lost : List (Packet σ)) : List (Packet σ) :=
  history.filter fun q => ∀ p ∈ lost, q.packetNumber ≠ p.packetNumber

section Remove

variable {history : List (Packet σ)} {p : Packet σ}

theorem remove_eq_filter (hs : Sorted history) (p : Packet σ) :
    SentPacketHandler.remove history p =
      history.filter fun q => q.packetNumber ≠ p.packetNumber := by
  induction history with
  | nil => rfl
  | cons first rest ih =>
    obtain ⟨hfirst, hrest⟩ := pairwise_cons.mp hs
    by_cases hnumber : first.packetNumber = p.packetNumber
    · have hkeep : rest.filter (fun q => q.packetNumber ≠ p.packetNumber) = rest := by
        refine filter_eq_self.mpr fun q hq => ?_
        have hlt := hfirst q hq
        simp only [decide_eq_true_eq]
        omega
      rw [SentPacketHandler.remove, eraseP_cons_of_pos (by simpa using hnumber),
        filter_cons_of_neg (by simpa using hnumber), hkeep]
    · rw [SentPacketHandler.remove, eraseP_cons_of_neg (by simpa using hnumber),
        filter_cons_of_pos (by simpa using hnumber), ← ih hrest]
      rfl

theorem remove_sorted (hs : Sorted history) : Sorted (SentPacketHandler.remove history p) :=
  hs.sublist eraseP_sublist

theorem totalLength_remove (hs : Sorted history) (hp : p ∈ history) :
    totalLength history = p.length + totalLength (SentPacketHandler.remove history p) := by
  induction history with
  | nil => cases hp
  | cons first rest ih =>
    obtain ⟨hfirst, hrest⟩ := pairwise_cons.mp hs
    rcases mem_cons.mp hp with rfl | hp
    · rw [SentPacketHandler.remove, eraseP_cons_of_pos (by simp)]
      simp [totalLength]
    · have hne := Nat.ne_of_lt (hfirst p hp)
      have hlater := ih hrest hp
      rw [SentPacketHandler.remove, eraseP_cons_of_neg (by simpa using hne)]
      simp only [totalLength, map_cons, sum_cons, SentPacketHandler.remove] at hlater ⊢
      omega

end Remove

structure Takes (op : SentPacketHandler σ → Packet σ → SentPacketHandler σ) : Prop where
  history : ∀ h p, (op h p).packetHistory = SentPacketHandler.remove h.packetHistory p
  bytes : ∀ h p, (op h p).bytesInFlight =
    (h.bytesInFlight + 2 ^ 64 - p.length % 2 ^ 64) % 2 ^ 64
  last : ∀ h p, (op h p).lastSentPacketNumber = h.lastSentPacketNumber
  acked : ∀ h p, (op h p).largestAcked = h.largestAcked

theorem takes_onPacketAcked : Takes (@SentPacketHandler.onPacketAcked σ) :=
  ⟨fun _ _ => rfl, fun _ _ => rfl, fun _ _ => rfl, fun _ _ => rfl⟩

theorem takes_queuePacketForRetransmission :
    Takes (@SentPacketHandler.queuePacketForRetransmission σ) :=
  ⟨fun _ _ => rfl, fun _ _ => rfl, fun _ _ => rfl, fun _ _ => rfl⟩

theorem takes_queueRTO : Takes (@SentPacketHandler.queueRTO σ) :=
  ⟨fun _ _ => rfl, fun _ _ => rfl, fun _ _ => rfl, fun _ _ => rfl⟩

section Take

variable {op : SentPacketHandler σ → Packet σ → SentPacketHandler σ} {h : SentPacketHandler σ}

theorem Tracked.take (ht : Takes op) (h' : Tracked h) {p : Packet σ} (hp : p ∈ h.packetHistory) :
    Tracked (op h p) := by
  have hsum := totalLength_remove h'.sorted hp
  refine ⟨?_, ?_, ?_⟩
  · rw [ht.history]
    exact remove_sorted h'.sorted
  · intro q hq
    rw [ht.history] at hq
    rw [ht.last]
    exact h'.sent q (mem_of_mem_eraseP hq)
  · rw [ht.bytes, ht.history, h'.bytes]
    omega

theorem Tracked.takeAll (ht : Takes op) {lost : List (Packet σ)} (h' : Tracked h)
    (hlost : lost.Sublist h.packetHistory) :
    Tracked (lost.foldl op h) ∧
      (lost.foldl op h).packetHistory = without h.packetHistory lost ∧
      (lost.foldl op h).largestAcked = h.largestAcked := by
  induction lost generalizing h with
  | nil => exact ⟨h', by simp [without], rfl⟩
  | cons p rest ih =>
    have hp : p ∈ h.packetHistory := hlost.subset mem_cons_self
    have hpart := (h'.sorted.sublist hlost)
    obtain ⟨hfirst, -⟩ := pairwise_cons.mp hpart
    -- the later packets have other numbers, so they are still there
    have hrest : rest.Sublist (op h p).packetHistory := by
      rw [ht.history, remove_eq_filter h'.sorted]
      have hkeep : rest.filter (fun q => q.packetNumber ≠ p.packetNumber) = rest := by
        refine filter_eq_self.mpr fun q hq => ?_
        have hlt := hfirst q hq
        simp only [decide_eq_true_eq]
        omega
      rw [← hkeep]
      exact (sublist_of_cons_sublist hlost).filter _
    obtain ⟨htracked, hhistory, hacked⟩ := ih (h'.take ht hp) hrest
    refine ⟨htracked, ?_, hacked.trans (ht.acked h p)⟩
    rw [foldl_cons, hhistory, ht.history, remove_eq_filter h'.sorted, without, without,
      filter_filter]
    refine filter_congr fun q _ => ?_
    simp [Bool.and_comm]

end Take

section Steps

variable {h : SentPacketHandler σ}

theorem map_eq_ok {α β ε : Type} {f : α → β} {result : Except ε α} {b : β}
    (h : result.map f = .ok b) : ∃ a, result = .ok a ∧ f a = b := by
  cases result with
  | error err => cases h
  | ok a => exact ⟨a, rfl, Except.ok.inj h⟩

theorem determineNewlyAcked_sublist {f : AckBlocks} {ranges : List AckRange}
    {history acked : List (Packet σ)} (hok : determineNewlyAcked f ranges history = .ok acked) :
    acked.Sublist history := by
  induction history generalizing ranges acked with
  | nil =>
    cases hok
    exact List.Sublist.refl _
  | cons packet rest ih =>
    simp only [determineNewlyAcked] at hok
    split_ifs at hok
    · exact (ih hok).cons packet
    · cases hok
      exact nil_sublist _
    · split at hok
      · cases hok
        exact nil_sublist _
      · split_ifs at hok
        · obtain ⟨later, hlater, rfl⟩ := map_eq_ok hok
          exact (ih hlater).cons_cons packet
        · exact (ih hok).cons packet
    · obtain ⟨later, hlater, rfl⟩ := map_eq_ok hok
      exact (ih hlater).cons_cons packet

theorem upToLargestAcked_sublist (h : SentPacketHandler σ) :
    h.upToLargestAcked.Sublist h.packetHistory :=
  takeWhile_sublist _

theorem tracked_new : Tracked (@newSentPacketHandler σ) :=
  ⟨List.Pairwise.nil, by simp [newSentPacketHandler], rfl⟩

section

variable (h' : Tracked h)

include h'

theorem Tracked.sentPacket (packet : Packet σ) (now : Int) :
    Tracked (h.sentPacket packet now).1 := by
  simp only [SentPacketHandler.sentPacket]
  split_ifs with hnumber htracked hretransmittable
  · exact h'
  · exact h'
  · refine ⟨?_, ?_, ?_⟩
    · refine pairwise_append.mpr ⟨h'.sorted, pairwise_singleton _ _, ?_⟩
      intro p hp q hq
      rw [mem_singleton] at hq
      subst hq
      have hsent := h'.sent p hp
      simp only
      omega
    · intro p hp
      rcases mem_append.mp hp with hp | hp
      · have hsent := h'.sent p hp
        simp only
        omega
      · rw [mem_singleton] at hp
        subst hp
        exact Nat.le_refl _
    · have hbytes := h'.bytes
      simp only [totalLength, map_append, sum_append, map_cons, map_nil,
        sum_cons, sum_nil] at hbytes ⊢
      omega
  · refine ⟨h'.sorted, fun p hp => ?_, h'.bytes⟩
    have hsent := h'.sent p hp
    simp only
    omega

theorem Tracked.detectLostPackets (now delayUntilLost : Int) :
    Tracked (h.detectLostPackets now delayUntilLost) := by
  simp only [SentPacketHandler.detectLostPackets]
  refine (Tracked.takeAll takes_queuePacketForRetransmission ?_ ?_).1
  · exact ⟨h'.sorted, h'.sent, h'.bytes⟩
  · exact filter_sublist.trans (upToLargestAcked_sublist h)

theorem Tracked.setInflightAsLost : Tracked h.setInflightAsLost := by
  simp only [SentPacketHandler.setInflightAsLost]
  refine (Tracked.takeAll takes_queuePacketForRetransmission ?_ ?_).1
  · exact ⟨h'.sorted, h'.sent, h'.bytes⟩
  · exact upToLargestAcked_sublist h

theorem Tracked.receivedAck (ackFrame : AckFrame) (withPacketNumber : Nat)
    (now delayUntilLost : Int) :
    Tracked (h.receivedAck ackFrame withPacketNumber now delayUntilLost).1 := by
  simp only [SentPacketHandler.receivedAck]
  split_ifs
  · exact h'
  · exact h'
  · exact ⟨h'.sorted, h'.sent, h'.bytes⟩
  · exact ⟨h'.sorted, h'.sent, h'.bytes⟩
  · split
    · exact ⟨h'.sorted, h'.sent, h'.bytes⟩
    · next acked hacked =>
        have htaken := (Tracked.takeAll takes_onPacketAcked (h := { h with
          largestReceivedPacketWithAck := withPacketNumber
          largestAcked := ackFrame.largestAcked }) ⟨h'.sorted, h'.sent, h'.bytes⟩
          (determineNewlyAcked_sublist hacked)).1
        have hdetected := htaken.detectLostPackets now delayUntilLost
        exact ⟨hdetected.sorted, hdetected.sent, hdetected.bytes⟩

theorem Tracked.receivedClosePath (f : ClosePathFrame) (withPacketNumber : Nat) :
    Tracked (h.receivedClosePath f withPacketNumber).1 := by
  simp only [SentPacketHandler.receivedClosePath]
  split_ifs
  · exact h'
  · exact h'
  · exact ⟨h'.sorted, h'.sent, h'.bytes⟩
  · split
    · exact ⟨h'.sorted, h'.sent, h'.bytes⟩
    · next acked hacked =>
        have htaken := (Tracked.takeAll takes_onPacketAcked (h := { h with
          largestReceivedPacketWithAck := withPacketNumber }) ⟨h'.sorted, h'.sent, h'.bytes⟩
          (determineNewlyAcked_sublist hacked)).1
        have hlost := htaken.setInflightAsLost
        exact ⟨hlost.sorted, hlost.sent, hlost.bytes⟩

theorem Tracked.retransmitOldestPacket : Tracked h.retransmitOldestPacket := by
  simp only [SentPacketHandler.retransmitOldestPacket]
  split
  · exact h'
  · next p rest hhistory => exact h'.take takes_queueRTO (by simp [hhistory])

theorem Tracked.onAlarm (now delayUntilLost : Int) (potentiallyFailed : Bool) :
    Tracked (h.onAlarm now delayUntilLost potentiallyFailed) := by
  simp only [SentPacketHandler.onAlarm]
  split_ifs
  · exact h'.detectLostPackets now delayUntilLost
  · simp only [SentPacketHandler.retransmitTLP]
    split
    · exact ⟨h'.sorted, h'.sent, h'.bytes⟩
    · next p hlast =>
        have htaken := h'.take takes_queuePacketForRetransmission (List.mem_of_getLast? hlast)
        exact ⟨htaken.sorted, htaken.sent, htaken.bytes⟩
  · have hall := (h'.takeAll takes_queueRTO (List.Sublist.refl _)).1
    exact ⟨hall.sorted, hall.sent, hall.bytes⟩
  · have htwo := h'.retransmitOldestPacket.retransmitOldestPacket
    exact ⟨htwo.sorted, htwo.sent, htwo.bytes⟩
  · exact h'

theorem Tracked.step {t : SentPacketHandler σ} {event : Event σ} {out : List (Option AckError)}
    (hstep : step h event = some (t, out)) : Tracked t := by
  cases event with
  | sentPacket packet now =>
    cases hstep
    exact h'.sentPacket packet now
  | receivedAck ackFrame withPacketNumber now delayUntilLost =>
    cases hstep
    exact h'.receivedAck ackFrame withPacketNumber now delayUntilLost
  | receivedClosePath f withPacketNumber =>
    cases hstep
    exact h'.receivedClosePath f withPacketNumber
  | onAlarm now delayUntilLost potentiallyFailed =>
    cases hstep
    exact h'.onAlarm now delayUntilLost potentiallyFailed
  | setInflightAsLost =>
    cases hstep
    exact h'.setInflightAsLost
  | dequeuePacketForRetransmission =>
    cases hstep
    simp only [SentPacketHandler.dequeuePacketForRetransmission]
    split <;> exact ⟨h'.sorted, h'.sent, h'.bytes⟩
  | duplicatePacket packet =>
    cases hstep
    exact ⟨h'.sorted, h'.sent, h'.bytes⟩

end

theorem run_tracked {events : List (Event σ)} {log : List (Option AckError)}
    (hrun : run AckHandler.step newSentPacketHandler events = some (h, log)) : Tracked h :=
  run_invariant (fun _ _ h => Tracked h) (fun _ _ _ _ _ _ hinv _ hstep => hinv.step hstep) [] [] _ h
    events log tracked_new (Along.always _ _) hrun

end Steps

end MpQuic.AckHandler

import MpQuic.AckHandler.Conservation

namespace MpQuic.AckHandler

open MpQuic.Library MpQuic.Wire List

variable {σ : Type}

-- The lowest one of the ranges that reach up to the packet contains it. This is
-- what the walk over the history finds.
def rangesHold (ranges : List AckRange) (p : Nat) : Bool :=
  (ranges.find? fun r => p ≤ r.last).any fun r => r.first ≤ p

def Accounts (f : AckBlocks) (p : Nat) : Prop :=
  f.lowestAcked ≤ p ∧ p ≤ f.largestAcked ∧
    (f.hasMissingRanges = true → rangesHold f.ackRanges.reverse p = true)

instance (f : AckBlocks) (p : Nat) : Decidable (Accounts f p) :=
  inferInstanceAs (Decidable (_ ∧ _ ∧ (_ = true → _ = true)))

section Ranges

-- After the skip the first range reaches up to the packet, if there is one that
-- does, and nothing is lost for the packets that follow.
theorem skipRanges_spec {p : Nat} {ranges : List AckRange} (hne : ranges ≠ []) :
    ∃ r later, skipRanges p ranges = r :: later ∧
      (∀ q, p ≤ q → rangesHold (r :: later) q = rangesHold ranges q) ∧
      (r.last < p → rangesHold ranges p = false) := by
  induction ranges with
  | nil => exact absurd rfl hne
  | cons r rest ih =>
    cases rest with
    | nil =>
      refine ⟨r, [], rfl, fun _ _ => rfl, fun hlt => ?_⟩
      simp [rangesHold, Nat.not_le_of_lt hlt]
    | cons next later =>
      simp only [skipRanges]
      split_ifs with hskip
      · obtain ⟨found, after, heq, hhold, hnone⟩ := ih (cons_ne_nil _ _)
        have hdrop : ∀ q, p ≤ q →
            rangesHold (r :: next :: later) q = rangesHold (next :: later) q := by
          intro q hq
          have hout : ¬q ≤ r.last := by omega
          simp [rangesHold, List.find?_cons_of_neg, hout]
        refine ⟨found, after, heq, fun q hq => (hhold q hq).trans (hdrop q hq).symm, ?_⟩
        intro hlt
        rw [hdrop p (Nat.le_refl _)]
        exact hnone hlt
      · exact ⟨r, next :: later, rfl, fun _ _ => rfl, fun hlt => absurd hlt hskip⟩

theorem rangesHold_cons {r : AckRange} {later : List AckRange} {p : Nat} (h : p ≤ r.last) :
    rangesHold (r :: later) p = decide (r.first ≤ p) := by
  simp [rangesHold, h]

theorem determineNewlyAcked_eq {f : AckBlocks} {ranges : List AckRange}
    {history acked : List (Packet σ)} (hs : Sorted history)
    (hne : f.hasMissingRanges = true → ranges ≠ [])
    (hranges : ∀ p ∈ history, rangesHold ranges p.packetNumber =
      rangesHold f.ackRanges.reverse p.packetNumber)
    (hok : determineNewlyAcked f ranges history = .ok acked) :
    acked = history.filter fun p => Accounts f p.packetNumber := by
  induction history generalizing ranges acked with
  | nil =>
    cases hok
    rfl
  | cons packet rest ih =>
    obtain ⟨hfirst, hrest⟩ := pairwise_cons.mp hs
    have hhere := hranges packet mem_cons_self
    have hlater : ∀ p ∈ rest, rangesHold ranges p.packetNumber =
        rangesHold f.ackRanges.reverse p.packetNumber :=
      fun p hp => hranges p (mem_cons_of_mem _ hp)
    simp only [determineNewlyAcked] at hok
    split_ifs at hok with hlow hhigh hmissing
    · rw [filter_cons_of_neg (by simp [Accounts, Nat.not_le_of_lt hlow])]
      exact ih hrest hne hlater hok
    · cases hok
      refine (filter_eq_nil_iff.mpr fun p hp => ?_).symm
      have hbeyond : f.largestAcked < p.packetNumber := by
        rcases mem_cons.mp hp with rfl | hp
        · exact hhigh
        · have hlt := hfirst p hp
          omega
      simp [Accounts, Nat.not_le_of_lt hbeyond]
    · obtain ⟨r, after, hskip, hhold, hnone⟩ := skipRanges_spec (hne hmissing)
      rw [hskip] at hok
      have hkeep : ∀ p ∈ rest, rangesHold (r :: after) p.packetNumber =
          rangesHold f.ackRanges.reverse p.packetNumber := fun p hp =>
        (hhold _ (Nat.le_of_lt (hfirst p hp))).trans (hlater p hp)
      have hnext : ∀ {tail}, determineNewlyAcked f (r :: after) rest = .ok tail → _ :=
        ih hrest (fun _ => cons_ne_nil r after) hkeep
      simp only at hok
      split_ifs at hok with hin hbug
      · obtain ⟨tail, htail, rfl⟩ := map_eq_ok hok
        have hholds : rangesHold f.ackRanges.reverse packet.packetNumber = true := by
          rw [← hhere, ← hhold _ (Nat.le_refl _), rangesHold_cons (Nat.le_of_not_lt hbug)]
          exact decide_eq_true hin
        rw [filter_cons_of_pos, hnext htail]
        simp [Accounts, hholds, Nat.le_of_not_lt hlow, Nat.le_of_not_lt hhigh]
      · have hholds : rangesHold f.ackRanges.reverse packet.packetNumber = false := by
          rw [← hhere]
          by_cases hreach : packet.packetNumber ≤ r.last
          · rw [← hhold _ (Nat.le_refl _), rangesHold_cons hreach]
            exact decide_eq_false hin
          · exact hnone (Nat.lt_of_not_le hreach)
        rw [filter_cons_of_neg (by simp [Accounts, hmissing, hholds])]
        exact hnext hok
    · obtain ⟨tail, htail, rfl⟩ := map_eq_ok hok
      rw [filter_cons_of_pos, ih hrest hne hlater htail]
      simp [Accounts, hmissing, Nat.le_of_not_lt hlow, Nat.le_of_not_lt hhigh]

end Ranges

section Frame

variable {f : AckBlocks} {p : Nat}

theorem acksPacket_iff : f.acksPacket p = true ↔ f.lowestAcked ≤ p ∧ p ≤ f.largestAcked ∧
    (f.hasMissingRanges = true → ∃ r ∈ f.ackRanges, r.first ≤ p ∧ p ≤ r.last) := by
  simp only [AckBlocks.acksPacket]
  split_ifs with hout hmissing
  · simp only [Bool.or_eq_true, decide_eq_true_eq] at hout
    simp only [false_iff]
    omega
  · simp only [Bool.or_eq_true, decide_eq_true_eq, not_or, Nat.not_lt] at hout
    simp [hmissing, hout.1, hout.2]
  · simp [hmissing]

theorem acksPacket_of_accounts (h : Accounts f p) : f.acksPacket p = true := by
  refine acksPacket_iff.mpr ⟨h.1, h.2.1, fun hmissing => ?_⟩
  have hholds := h.2.2 hmissing
  rw [rangesHold, Option.any_eq_true] at hholds
  obtain ⟨r, hfind, hfirst⟩ := hholds
  refine ⟨r, ?_, by simpa using hfirst, by simpa using List.find?_some hfind⟩
  exact mem_reverse.mp (List.mem_of_find?_eq_some hfind)

theorem pairwise_of_rangesDescend {ranges : List AckRange}
    (hd : AckBlocks.rangesDescend ranges = true) :
    ranges.Pairwise fun a b => b.first < a.first := by
  induction ranges with
  | nil => exact List.Pairwise.nil
  | cons a rest ih =>
    cases rest with
    | nil => exact pairwise_singleton _ _
    | cons b later =>
      simp only [AckBlocks.rangesDescend, Bool.and_eq_true, Bool.not_eq_true',
        decide_eq_false_iff_not, Nat.not_le] at hd
      have hrest := ih hd.2
      obtain ⟨hb, -⟩ := pairwise_cons.mp hrest
      refine pairwise_cons.mpr ⟨fun x hx => ?_, hrest⟩
      rcases mem_cons.mp hx with rfl | hx
      · exact hd.1.1
      · exact Nat.lt_trans (hb x hx) hd.1.1

theorem rangesHold_of_mem {ranges : List AckRange}
    (hp : ranges.Pairwise fun a b => a.first < b.first) {r : AckRange} (hr : r ∈ ranges)
    (hfirst : r.first ≤ p) (hlast : p ≤ r.last) : rangesHold ranges p = true := by
  induction ranges with
  | nil => cases hr
  | cons x rest ih =>
    obtain ⟨hx, hrest⟩ := pairwise_cons.mp hp
    rcases mem_cons.mp hr with rfl | hr
    · rw [rangesHold_cons hlast]
      exact decide_eq_true hfirst
    · have hbelow := hx r hr
      by_cases hreach : p ≤ x.last
      · rw [rangesHold_cons hreach]
        exact decide_eq_true (by omega)
      · have hlater := ih hrest hr
        simpa [rangesHold, hreach] using hlater

theorem accounts_iff_of_pairwise (hp : f.ackRanges.Pairwise fun a b => b.first < a.first) :
    Accounts f p ↔ f.acksPacket p = true := by
  refine ⟨acksPacket_of_accounts, fun hacks => ?_⟩
  obtain ⟨hlow, hhigh, hmem⟩ := acksPacket_iff.mp hacks
  refine ⟨hlow, hhigh, fun hmissing => ?_⟩
  obtain ⟨r, hr, hfirst, hlast⟩ := hmem hmissing
  exact rangesHold_of_mem (pairwise_reverse.mpr hp) (mem_reverse.mpr hr) hfirst hlast

theorem accounts_iff_acksPacket (hv : f.validateAckRanges = true) :
    Accounts f p ↔ f.acksPacket p = true := by
  apply accounts_iff_of_pairwise
  apply pairwise_of_rangesDescend
  cases hranges : f.ackRanges with
  | nil => rfl
  | cons a rest =>
    cases rest with
    | nil => rfl
    | cons b later =>
      simp only [AckBlocks.validateAckRanges, hranges, Bool.and_eq_true] at hv
      exact hv.2

end Frame

section Close

variable {h t : SentPacketHandler σ}

theorem takeWhile_eq_filter {history : List (Packet σ)} (hs : Sorted history) (limit : Nat) :
    history.takeWhile (fun p => p.packetNumber ≤ limit) =
      history.filter fun p => p.packetNumber ≤ limit := by
  induction history with
  | nil => rfl
  | cons first rest ih =>
    obtain ⟨hfirst, hrest⟩ := pairwise_cons.mp hs
    by_cases hle : first.packetNumber ≤ limit
    · rw [takeWhile_cons_of_pos (by simpa using hle),
        filter_cons_of_pos (by simpa using hle), ih hrest]
    · rw [takeWhile_cons_of_neg (by simpa using hle),
        filter_cons_of_neg (by simpa using hle)]
      refine (filter_eq_nil_iff.mpr fun p hp => ?_).symm
      have hlt := hfirst p hp
      simp only [decide_eq_true_eq]
      omega

theorem without_filter (history : List (Packet σ)) (cond : Nat → Prop) [DecidablePred cond] :
    without history (history.filter fun p => cond p.packetNumber) =
      history.filter fun p => ¬cond p.packetNumber := by
  refine filter_congr fun q hq => decide_eq_decide.mpr ?_
  simp only [mem_filter, decide_eq_true_eq, and_imp]
  refine ⟨fun hall hcond => hall q hq hcond rfl, fun hnot p _ hcond heq => hnot ?_⟩
  rwa [heq]

theorem receivedClosePath_spec (h' : Tracked h) {f : ClosePathFrame} {withPacketNumber : Nat}
    (hnil : h.receivedClosePath f withPacketNumber = (t, none)) :
    Tracked t ∧
      t.packetHistory = (h.packetHistory.filter fun p => ¬Accounts f.toAckBlocks p.packetNumber).filter
        (fun p => ¬p.packetNumber ≤ h.largestAcked) ∧
      t.retransmissionQueue = h.retransmissionQueue ++
        (h.packetHistory.filter fun p => ¬Accounts f.toAckBlocks p.packetNumber).filter
          (fun p => p.packetNumber ≤ h.largestAcked) := by
  have htracked := h'.receivedClosePath f withPacketNumber
  rw [hnil] at htracked
  refine ⟨htracked, ?_⟩
  simp only [SentPacketHandler.receivedClosePath] at hnil
  split_ifs at hnil
  · cases hnil
  · cases hnil
  · cases hnil
  split at hnil
  · cases hnil
  next acked hacked =>
    cases hnil
    -- the packets accounted for leave first, then those up to the largest acked
    have heq : acked = h.packetHistory.filter fun p => Accounts f.toAckBlocks p.packetNumber :=
      determineNewlyAcked_eq h'.sorted
        (fun hmissing => by simpa [AckBlocks.hasMissingRanges, length_pos_iff] using hmissing)
        (fun _ _ => rfl) hacked
    have hstart : Tracked { h with largestReceivedPacketWithAck := withPacketNumber } :=
      ⟨h'.sorted, h'.sent, h'.bytes⟩
    obtain ⟨hmiddle, hhistory, hlargest⟩ :=
      hstart.takeAll takes_onPacketAcked (determineNewlyAcked_sublist hacked)
    have hqueue := (moves_onPacketAcked hstart (determineNewlyAcked_sublist hacked)).queue
    rw [nil_append, append_nil] at hqueue
    generalize acked.foldl SentPacketHandler.onPacketAcked
      { h with largestReceivedPacketWithAck := withPacketNumber } = middle at *
    rw [heq, without_filter] at hhistory
    have hlost : middle.upToLargestAcked =
        middle.packetHistory.filter fun p => p.packetNumber ≤ h.largestAcked := by
      rw [SentPacketHandler.upToLargestAcked, hlargest]
      exact takeWhile_eq_filter hmiddle.sorted _
    have hcounted : Tracked (middle.countLost middle.upToLargestAcked) :=
      ⟨hmiddle.sorted, hmiddle.sent, hmiddle.bytes⟩
    have hafter := (hcounted.takeAll takes_queuePacketForRetransmission
      (upToLargestAcked_sublist middle)).2.1
    have hqueued := (queues_queuePacketForRetransmission.foldl
      (middle.countLost middle.upToLargestAcked) middle.upToLargestAcked).1
    constructor
    · rw [SentPacketHandler.garbageCollectSkippedPackets]
      simp only [SentPacketHandler.setInflightAsLost]
      rw [hafter, hlost]
      exact (without_filter middle.packetHistory (· ≤ h.largestAcked)).trans (by rw [hhistory])
    · rw [SentPacketHandler.garbageCollectSkippedPackets]
      simp only [SentPacketHandler.setInflightAsLost]
      rw [hqueued, hlost, hhistory]
      exact congrArg (· ++ _) hqueue.symm

end Close

-- A CLOSE_PATH frame leaves nothing behind if and only if every packet in flight is
-- accounted for by the frame or is not above the largest packet that an ACK frame
-- has acknowledged before.
theorem close_path_strands_nothing_iff (events : List (Event σ)) (h t : SentPacketHandler σ)
    (log : List (Option AckError)) (f : ClosePathFrame) (withPacketNumber : Nat)
    (hrun : run step newSentPacketHandler events = some (h, log))
    (hnil : h.receivedClosePath f withPacketNumber = (t, none)) :
    ((t.packetHistory = [] ∧ t.bytesInFlight = 0 ∧
        ∀ p ∈ h.packetHistory, f.acksPacket p.packetNumber = false → p ∈ t.retransmissionQueue) ↔
      ∀ p ∈ h.packetHistory,
        Accounts f.toAckBlocks p.packetNumber ∨ p.packetNumber ≤ h.largestAcked) ∧
    (f.validateAckRanges = true →
      ∀ n, Accounts f.toAckBlocks n ↔ f.acksPacket n = true) := by
  have htracked : Tracked h := run_tracked hrun
  obtain ⟨hafter, hhistory, hqueue⟩ := receivedClosePath_spec htracked hnil
  refine ⟨⟨?_, ?_⟩, fun hvalid n => accounts_iff_acksPacket hvalid⟩
  · rintro ⟨hempty, -, -⟩ p hp
    by_contra hnot
    rw [not_or] at hnot
    have hmem : p ∈ t.packetHistory := by
      rw [hhistory]
      simp [hp, hnot.1, Nat.lt_of_not_le hnot.2]
    rw [hempty] at hmem
    cases hmem
  · intro hall
    have hempty : t.packetHistory = [] := by
      rw [hhistory, List.filter_eq_nil_iff]
      intro p hp
      simp only [List.mem_filter, decide_eq_true_eq] at hp
      simpa using (hall p hp.1).resolve_left hp.2
    refine ⟨hempty, ?_, ?_⟩
    · rw [hafter.bytes, hempty]
      rfl
    · intro p hp hacks
      have hnot : ¬Accounts f.toAckBlocks p.packetNumber := fun haccounts =>
        Bool.false_ne_true (hacks.symm.trans (acksPacket_of_accounts haccounts))
      rw [hqueue]
      simp [hp, hnot, (hall p hp).resolve_left hnot]

section Examples

def dataPacket (packetNumber : Nat) : Packet StreamFrame :=
  ⟨packetNumber, [.stream ⟨5, false, true, packetNumber, [7]⟩], 100, .forwardSecure, 0, true⟩

theorem close_path_strands_nothing_iff_example :
    let events : List (Event StreamFrame) := [.sentPacket (dataPacket 1) 0,
      .sentPacket (dataPacket 2) 0, .receivedAck ⟨⟨2, 2, []⟩, 0, 0⟩ 1 5 9]
    let f : ClosePathFrame := ⟨⟨2, 2, []⟩, 0⟩
    ∃ h log t, run step newSentPacketHandler events = some (h, log) ∧
      h.receivedClosePath f 2 = (t, none) ∧ h.packetHistory = [dataPacket 1] ∧
      t.packetHistory = [] ∧ t.bytesInFlight = 0 ∧ dataPacket 1 ∈ t.retransmissionQueue := by
  intro events f
  refine ⟨_, _, _, rfl, rfl, rfl, ?_⟩
  obtain ⟨hiff, -⟩ := close_path_strands_nothing_iff events _ _ _ f 2 rfl rfl
  obtain ⟨hempty, hbytes, hqueued⟩ := hiff.mpr (by decide)
  exact ⟨hempty, hbytes, hqueued _ (by decide) rfl⟩

-- The frame acknowledges packet 1. Packet 2 is neither acknowledged nor queued, and
-- stays in flight on a path that is closed.
theorem close_path_strands_packet :
    let f : ClosePathFrame := ⟨⟨1, 1, []⟩, 0⟩
    ∃ h log t, run step newSentPacketHandler
        [.sentPacket (dataPacket 1) 0, .sentPacket (dataPacket 2) 0] = some (h, log) ∧
      h.receivedClosePath f 1 = (t, none) ∧ f.validateAckRanges = true ∧
      dataPacket 2 ∈ h.packetHistory ∧ f.acksPacket 2 = false ∧
      t.packetHistory = [dataPacket 2] ∧ t.bytesInFlight = 100 ∧ t.retransmissionQueue = [] := by
  exact ⟨_, _, _, rfl, rfl, rfl, by decide, rfl, rfl, rfl, rfl⟩

end Examples

end MpQuic.AckHandler

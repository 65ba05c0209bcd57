import MpQuic.AckHandler.NewlyAcked
import MpQuic.AckHandler.ReceivedAcks

namespace MpQuic.Transfer

open MpQuic.Library MpQuic.Wire MpQuic.AckHandler

section Receiver

variable {numbers : List Nat} {h next : ReceivedPacketHandler} {packetNumber n : Nat}

-- The history holds nothing but packets that have come in.
structure Witnessed (numbers : List Nat) (h : ReceivedPacketHandler) : Prop where
  receiving : Receiving numbers h
  received : ∀ n, Received h.packetHistory.ranges n → n ∈ numbers

theorem received_receivedPacket {shouldInstigateAck : Bool} {now : Int}
    (hs : Separated h.packetHistory.ranges) (hpos : 0 < packetNumber)
    (hbound : packetNumber < 2 ^ 64)
    (hnext : h.receivedPacket packetNumber shouldInstigateAck now = some next)
    (hn : Received next.packetHistory.ranges n) :
    n = packetNumber ∨ Received h.packetHistory.ranges n := by
  obtain ⟨-, hlimit, hhistory⟩ := observe_spec h packetNumber now
  simp only [ReceivedPacketHandler.receivedPacket, if_neg hpos.ne', hlimit, hhistory,
    ReceivedPacketHistory.receivedPacket] at hnext
  split at hnext
  · obtain rfl := Option.some.inj hnext
    rw [hhistory] at hn
    exact Or.inr hn
  · split at hnext
    · cases hnext
    next packetHistory hadded =>
      split at hadded
      · cases hadded
      · obtain rfl := Option.some.inj hadded
        obtain rfl := Option.some.inj hnext
        have hfits : ¬Wraps packetNumber h.packetHistory.ranges := by
          cases hranges : h.packetHistory.ranges with
          | nil => exact id
          | cons top lower =>
            have htop := (hs.valid top (hranges ▸ List.mem_cons_self)).positive
            unfold Wraps
            omega
        exact ((addPacket_spec (separated_iff.mp hs).1 hbound hfits).2 n).mp hn

theorem received_setLowerLimits (hs : Separated h.packetHistory.ranges) {limits : List Nat}
    (hn : Received (limits.foldl ReceivedPacketHandler.setLowerLimit h).packetHistory.ranges n) :
    Received h.packetHistory.ranges n := by
  induction limits generalizing h with
  | nil => exact hn
  | cons p rest ih =>
    have hrest : Received (h.setLowerLimit p).packetHistory.ranges n := ih hs.deleteUpTo hn
    exact ((deleteUpTo_spec (separated_iff.mp hs).1).2 n |>.mp hrest).2

theorem Witnessed.step (hw : Witnessed numbers h) {event : ReceiveEvent} {out : List GeneratedAck}
    (he : event.Valid) (hs : receiveStep h event = some (next, out)) :
    Witnessed (numbers ++ event.numbers) next := by
  refine ⟨receiveStep_keeps hw.receiving he hs, fun n hn => ?_⟩
  rw [List.mem_append]
  cases event with
  | packet packetNumber shouldInstigateAck leastUnacked now =>
    obtain ⟨handled, hhandled, heq⟩ := Option.map_eq_some_iff.mp hs
    obtain ⟨rfl, -⟩ := Prod.mk.inj heq
    obtain ⟨received, hreceived, rfl⟩ := Option.map_eq_some_iff.mp hhandled
    have hkept := (hw.receiving.receivedPacket he.1.1 he.1.2 hreceived).1.separated
    have hafter := received_setLowerLimits hkept hn
    rcases received_receivedPacket hw.receiving.separated he.1.1 he.1.2 hreceived hafter with
      rfl | hold
    · exact Or.inr (List.mem_singleton_self _)
    · exact Or.inl (hw.received n hold)
  | getAckFrame now =>
    obtain ⟨result, hresult, heq⟩ := Option.map_eq_some_iff.mp hs
    obtain ⟨rfl, -⟩ := Prod.mk.inj heq
    refine Or.inl (hw.received n ?_)
    unfold ReceivedPacketHandler.getAckFrame at hresult
    split at hresult
    · obtain rfl := Option.some.inj hresult
      exact hn
    · dsimp only at hresult
      split at hresult
      · cases hresult
      · obtain rfl := Option.some.inj hresult
        exact hn

theorem witnessed_run {version : Int} {arrivals : List ReceiveEvent} {acks : List GeneratedAck}
    (hvalid : ∀ event ∈ arrivals, event.Valid)
    (hrun : run receiveStep (newReceivedPacketHandler version) arrivals = some (h, acks)) :
    Witnessed (receivedNumbers arrivals) h := by
  have hinv := run_invariant (fun past _ state => Witnessed (receivedNumbers past) state)
    (fun past log state event next out hstate he hs => by
      unfold receivedNumbers at hstate ⊢
      rw [List.flatMap_append, List.flatMap_singleton]
      exact hstate.step he hs)
    [] [] _ h arrivals acks ⟨receiving_new version, fun n ⟨el, hel, _⟩ => by cases hel⟩
    (Along.of_forall hvalid _) hrun
  rw [List.nil_append] at hinv
  exact hinv

end Receiver

section Frame

variable {f : AckBlocks}

theorem acksPacket_largest (hf : f.Sound) : f.acksPacket f.largestAcked = true := by
  have hlowest := hf.lowest
  unfold AckBlocks.acksPacket AckBlocks.hasMissingRanges
  rw [if_neg (by simp; omega)]
  cases hranges : f.ackRanges with
  | nil => simpa using hlowest
  | cons top rest =>
    have hordered := (hf.ordered top (by simp [hranges])).1
    have htop := hf.highest top (by simp [hranges])
    simp [← htop, hordered]

-- The frame that is read back names only packets of the history.
theorem received_of_fitting {history : ReceivedPacketHistory} {n : Nat}
    (hf : Reports history.getAckRanges f) (hn : f.fitting.acksPacket n = true) :
    Received history.ranges n := by
  have hmem : ∀ r ∈ history.getAckRanges, r.first ≤ n → n ≤ r.last → Received history.ranges n := by
    intro r hr hlow hhigh
    obtain ⟨el, hel, rfl⟩ := List.mem_map.mp hr
    exact ⟨el, hel, hlow, hhigh⟩
  have hreported := hf.ranges
  cases hranges : f.ackRanges with
  | nil =>
    -- a single range, from the lowest packet to the largest one
    simp only [AckBlocks.fitting, hranges, AckBlocks.acksPacket, AckBlocks.hasMissingRanges] at hn
    have hhighest := hf.highest
    have hlowest := hf.lowest
    rw [hranges] at hreported
    cases hlist : history.getAckRanges with
    | nil =>
      rw [hlist] at hhighest
      cases hhighest
    | cons r rest =>
      rw [hlist] at hhighest hlowest hreported
      obtain rfl : rest = [] := by
        by_contra hne
        rw [if_pos (by simpa using List.length_pos_iff.mpr hne)] at hreported
        cases hreported
      have hlast : r.last = f.largestAcked := Option.some.inj hhighest
      have hfirst : r.first = f.lowestAcked := Option.some.inj hlowest
      simp at hn
      exact hmem r (by simp [hlist]) (by omega) (by omega)
  | cons a rest =>
    simp only [AckBlocks.fitting, hranges, AckBlocks.acksPacket, AckBlocks.hasMissingRanges] at hn
    split at hn
    · cases hn
    · rw [if_pos (by simp)] at hn
      obtain ⟨r, hr, hin⟩ := List.any_eq_true.mp hn
      simp only [ge_iff_le, Bool.and_eq_true, decide_eq_true_eq] at hin
      have hfront : a :: fittingRest 0 a rest <+: f.ackRanges := by
        rw [hranges]
        exact List.cons_prefix_cons.mpr ⟨rfl, fittingRest_front 0 a rest⟩
      have hfull := hfront.subset hr
      rw [hreported] at hfull
      split at hfull
      · exact hmem r hfull hin.1 hin.2
      · cases hfull

end Frame

-- Sender and receiver run on their own. An ACK frame that the receiver generates and that gets
-- over the wire makes the sender take only packets for acknowledged that have come in, and the
-- largest of those is one of them if it is still in flight.
theorem acknowledged_packets_were_received {σ : Type} (version wireVersion : Int)
    (arrivals : List ReceiveEvent) (hvalid : ∀ event ∈ arrivals, event.Valid)
    (hnumbers : ∀ n ∈ receivedNumbers arrivals, n < 2 ^ 48) (r next : ReceivedPacketHandler)
    (acks : List GeneratedAck)
    (hreceiver : run receiveStep (newReceivedPacketHandler version) arrivals = some (r, acks))
    (now : Int) (f : GeneratedAck) (hack : r.getAckFrame now = some (next, some f))
    (pathID : Nat) (hpath : pathID < 2 ^ 8) (delayTime : Int) (bytes : List UInt8)
    (hwrite : AckFrame.write wireVersion ⟨f.toAckBlocks, pathID, delayTime⟩ = .ok bytes)
    (events : List (Event σ)) (h : SentPacketHandler σ) (log : List (Option AckError))
    (hsender : run step newSentPacketHandler events = some (h, log)) :
    ∃ g acked, Parses (parseAckFrame wireVersion) bytes g ∧ g.pathID = pathID ∧
      h.determineNewlyAckedPackets g = .ok acked ∧
      (∀ p ∈ acked, p ∈ h.packetHistory ∧ p.packetNumber ∈ receivedNumbers arrivals) ∧
      ∀ p ∈ h.packetHistory, p.packetNumber ∈ receivedNumbers arrivals →
        (∀ n ∈ receivedNumbers arrivals, n ≤ p.packetNumber) → p ∈ acked := by
  have hw := witnessed_run hvalid hreceiver
  obtain ⟨after, ack, hgot, -, hframe⟩ := hw.receiving.getAckFrame now
  obtain ⟨rfl, rfl⟩ := Prod.mk.inj (Option.some.inj (hack.symm.trans hgot))
  obtain ⟨hreports, hlargest, hpos⟩ := hframe f rfl
  have hconsistent : f.Consistent := hw.receiving.separated.consistent hreports
  have hreceived : f.largestAcked ∈ receivedNumbers arrivals := by
    rw [hlargest]
    exact hw.receiving.received.resolve_right hpos.ne'
  have hfit := (AckFrame.write_ok_iff wireVersion hconsistent).mp ⟨bytes, hwrite⟩
  obtain ⟨written, hwritten, hparses⟩ := AckFrame.parses_write wireVersion
    (f := ⟨f.toAckBlocks, pathID, delayTime⟩) ⟨hconsistent, hnumbers _ hreceived⟩ hpath hfit
  obtain rfl := Except.ok.inj (hwritten.symm.trans hwrite)
  have hsound := yields_parseAckFrame wireVersion written _ [] (by simpa using hparses [])
  refine ⟨_, _, hparses, rfl, determineNewlyAcked_of_sound hsound (run_tracked hsender).sorted,
    fun p hp => ?_, fun p hp hin hall => ?_⟩
  · obtain ⟨hhistory, hacked⟩ := List.mem_filter.mp hp
    exact ⟨hhistory, hw.received _ (received_of_fitting hreports hacked)⟩
  · refine List.mem_filter.mpr ⟨hp, ?_⟩
    have hsame : p.packetNumber = f.largestAcked :=
      le_antisymm (hlargest ▸ hw.receiving.largest _ hin) (hall _ hreceived)
    rw [hsame, ← hconsistent.longestFitting.largest]
    exact acksPacket_largest hsound

-- Packets 1 and 3 have come in, and the sender has sent three packets.
theorem acknowledged_packets_were_received_example :
    let arrivals : List ReceiveEvent := [.packet 1 true [] 0, .packet 3 true [] 1]
    let events : List (Event StreamFrame) := [.sentPacket (dataPacket 1) 0,
      .sentPacket (dataPacket 2) 0, .sentPacket (dataPacket 3) 0]
    ∃ h log bytes g acked, run step newSentPacketHandler events = some (h, log) ∧
      Parses (parseAckFrame 512) bytes g ∧ h.determineNewlyAckedPackets g = .ok acked ∧
      ∀ p ∈ acked, p.packetNumber ∈ receivedNumbers arrivals := by
  intro arrivals events
  obtain ⟨g, acked, hparses, -, hacked, hreceived, -⟩ := acknowledged_packets_were_received 512 512
    arrivals (by simp [arrivals, ReceiveEvent.Valid]) (by decide) _ _ _ rfl 2 _ rfl 0 (by decide) 0 _
    rfl events _ _ rfl
  exact ⟨_, _, _, g, acked, rfl, hparses, hacked, fun p hp => (hreceived p hp).2⟩

end MpQuic.Transfer

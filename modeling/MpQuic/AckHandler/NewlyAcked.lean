import MpQuic.Wire.AckSound
import MpQuic.AckHandler.ClosePath

namespace MpQuic.AckHandler

open MpQuic.Library MpQuic.Wire

variable {σ : Type}

section Walk

theorem skipRanges_reaches {p : Nat} {ranges : List AckRange} (hne : ranges ≠ []) :
    ∃ r later, skipRanges p ranges = r :: later ∧ (p ≤ r.last ∨ later = []) ∧
      (r :: later).getLast? = ranges.getLast? := by
  induction ranges with
  | nil => exact absurd rfl hne
  | cons r rest ih =>
    cases rest with
    | nil => exact ⟨r, [], rfl, Or.inr rfl, rfl⟩
    | cons next later =>
      simp only [skipRanges]
      split_ifs with hskip
      · obtain ⟨found, after, heq, hreach, hlast⟩ := ih (List.cons_ne_nil _ _)
        refine ⟨found, after, heq, hreach, ?_⟩
        rw [hlast, List.getLast?_cons_cons]
      · exact ⟨r, next :: later, rfl, Or.inl (Nat.le_of_not_lt hskip), rfl⟩

theorem determineNewlyAcked_ok {f : AckBlocks} {ranges : List AckRange}
    (history : List (Packet σ)) (hne : f.hasMissingRanges = true → ranges ≠ [])
    (hlast : ∀ r, ranges.getLast? = some r → f.largestAcked ≤ r.last) :
    ∃ acked, determineNewlyAcked f ranges history = .ok acked := by
  induction history generalizing ranges with
  | nil => exact ⟨[], rfl⟩
  | cons packet rest ih =>
    simp only [determineNewlyAcked]
    split_ifs with hlow hhigh hmissing
    · exact ih hne hlast
    · exact ⟨[], rfl⟩
    · obtain ⟨r, later, hskip, hreach, hend⟩ := skipRanges_reaches (hne hmissing)
      obtain ⟨acked, hacked⟩ := ih (fun _ => List.cons_ne_nil r later) (hend ▸ hlast)
      rw [hskip]
      dsimp only
      split_ifs with hin hbug
      · -- beyond its range a packet would have to be beyond the highest one
        rcases hreach with hreach | hnone
        · omega
        · subst hnone
          have := hlast r hend.symm
          omega
      · rw [hacked]
        exact ⟨packet :: acked, rfl⟩
      · exact ⟨acked, hacked⟩
    · obtain ⟨acked, hacked⟩ := ih hne hlast
      rw [hacked]
      exact ⟨packet :: acked, rfl⟩

theorem determineNewlyAcked_of_sound {f : AckBlocks} (hf : f.Sound) {history : List (Packet σ)}
    (hs : Sorted history) :
    determineNewlyAcked f f.ackRanges.reverse history =
      .ok (history.filter fun p => f.acksPacket p.packetNumber) := by
  have hne : f.hasMissingRanges = true → f.ackRanges.reverse ≠ [] := by
    intro hmissing
    simpa [AckBlocks.hasMissingRanges, List.length_pos_iff] using hmissing
  have hlast : ∀ r, f.ackRanges.reverse.getLast? = some r → f.largestAcked ≤ r.last := by
    intro r hr
    rw [List.getLast?_reverse] at hr
    exact Nat.le_of_eq (hf.highest r hr).symm
  have hdescend : f.ackRanges.Pairwise fun a b => b.first < a.first := by
    refine hf.descend.imp_of_mem fun {upper lower} _ hlower hbelow => ?_
    have := (hf.ordered lower hlower).1
    omega
  obtain ⟨acked, hacked⟩ := determineNewlyAcked_ok history hne hlast
  rw [hacked, determineNewlyAcked_eq hs hne (fun _ _ => rfl) hacked]
  congr 1
  refine List.filter_congr fun p _ => ?_
  rw [Bool.eq_iff_iff, decide_eq_true_eq]
  exact accounts_iff_of_pairwise hdescend

end Walk

-- From every reachable handler and for every frame that the parsers accept, the walk over
-- the history gives the packets that the frame acknowledges, each once and in order.
theorem newly_acked_packets_are_exact (version : Int) (events : List (Event σ))
    (h : SentPacketHandler σ) (log : List (Option AckError))
    (hrun : run step newSentPacketHandler events = some (h, log)) :
    Sorted h.packetHistory ∧
    (∀ bytes f rest, (parseAckFrame version).run bytes = .ok (f, rest) →
      h.determineNewlyAckedPackets f =
        .ok (h.packetHistory.filter fun p => f.acksPacket p.packetNumber)) ∧
    (∀ bytes f rest, (parseClosePathFrame version).run bytes = .ok (f, rest) →
      h.determineNewlyAckedPacketsClosePath f =
        .ok (h.packetHistory.filter fun p => f.acksPacket p.packetNumber)) := by
  have hs : Sorted h.packetHistory := (run_tracked hrun).sorted
  refine ⟨hs, fun bytes f rest hparse => ?_, fun bytes f rest hparse => ?_⟩
  · exact determineNewlyAcked_of_sound (yields_parseAckFrame version bytes f rest hparse) hs
  · exact determineNewlyAcked_of_sound (yields_parseClosePathFrame version bytes f rest hparse) hs

theorem newly_acked_packets_are_exact_example :
    ∃ h log, run step newSentPacketHandler [.sentPacket (dataPacket 1) 0,
        .sentPacket (dataPacket 2) 0, .sentPacket (dataPacket 3) 0] = some (h, log) ∧
      (parseAckFrame 512).run [0x60, 3, 0, 0, 1, 1, 1, 1, 0] =
        .ok (⟨⟨3, 1, [⟨3, 3⟩, ⟨1, 1⟩]⟩, 0, 0⟩, []) ∧
      h.determineNewlyAckedPackets ⟨⟨3, 1, [⟨3, 3⟩, ⟨1, 1⟩]⟩, 0, 0⟩ =
        .ok [dataPacket 1, dataPacket 3] := by
  refine ⟨_, _, rfl, rfl, ?_⟩
  exact (newly_acked_packets_are_exact 512 [.sentPacket (dataPacket 1) 0,
    .sentPacket (dataPacket 2) 0, .sentPacket (dataPacket 3) 0] _ _ rfl).2.1
    [0x60, 3, 0, 0, 1, 1, 1, 1, 0] _ [] rfl

end MpQuic.AckHandler

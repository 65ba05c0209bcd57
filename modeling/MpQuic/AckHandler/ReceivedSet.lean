import MpQuic.Library.Run
import MpQuic.AckHandler.ReceivedHistory

namespace MpQuic.AckHandler

open MpQuic.Library MpQuic.Wire List

-- A call on the history. Packet numbers are unsigned 64-bit integers.
inductive HistoryCall where
  | receivedPacket (p : UInt64)
  | deleteUpTo (p : UInt64)
  deriving DecidableEq

def newReceivedPacketHistory : ReceivedPacketHistory := ⟨[]⟩

def historyStep (h : ReceivedPacketHistory) :
    HistoryCall → Option (ReceivedPacketHistory × List HistoryCall)
  | .receivedPacket p => (h.receivedPacket p.toNat).map fun next => (next, [.receivedPacket p])
  | .deleteUpTo p => some (h.deleteUpTo p.toNat, [.deleteUpTo p])

-- What the history stands for: the set of the numbers that were received and not deleted.
def HistoryCall.onSet (numbers : Set Nat) : HistoryCall → Set Nat
  | .receivedPacket p => insert p.toNat numbers
  | .deleteUpTo p => {n ∈ numbers | p.toNat < n}

def recorded (calls : List HistoryCall) : Set Nat :=
  calls.foldl HistoryCall.onSet ∅

structure Refines (calls : List HistoryCall) (h : ReceivedPacketHistory) : Prop where
  covers : {n | Received h.ranges n} = recorded calls
  ranges : Apart h.ranges
  listed : ∀ r, r ∈ h.getAckRanges ↔ ⟨r.first, r.last⟩ ∈ h.ranges
  descending : h.getAckRanges.Pairwise fun upper lower => lower.last + 1 < upper.first

-- The call does not take the lowest and the highest packet number for neighbours.
def NoWrap (h : ReceivedPacketHistory) : HistoryCall → Prop
  | .receivedPacket p => ¬Wraps p.toNat h.ranges
  | .deleteUpTo _ => True

instance (h : ReceivedPacketHistory) : (call : HistoryCall) → Decidable (NoWrap h call)
  | .receivedPacket p => inferInstanceAs (Decidable (¬Wraps p.toNat h.ranges))
  | .deleteUpTo _ => isTrue trivial

-- Packet numbers start at one, and a received packet handler refuses zero.
def HistoryCall.Numbered : HistoryCall → Prop
  | .receivedPacket p => p ≠ 0
  | .deleteUpTo _ => True

instance : (call : HistoryCall) → Decidable call.Numbered
  | .receivedPacket p => inferInstanceAs (Decidable (p ≠ 0))
  | .deleteUpTo _ => isTrue trivial

section Refinement

variable {h next : ReceivedPacketHistory} {calls out : List HistoryCall} {call : HistoryCall}

theorem recorded_concat (calls : List HistoryCall) (call : HistoryCall) :
    recorded (calls ++ [call]) = call.onSet (recorded calls) :=
  foldl_concat ..

theorem refines_of_apart (hset : {n | Received h.ranges n} = recorded calls)
    (hranges : Apart h.ranges) : Refines calls h := by
  refine ⟨hset, hranges, fun r => ?_, ?_⟩
  · unfold ReceivedPacketHistory.getAckRanges
    constructor
    · intro hr
      obtain ⟨el, hel, rfl⟩ := mem_map.mp hr
      exact hel
    · exact fun hel => mem_map.mpr ⟨_, hel, rfl⟩
  · unfold ReceivedPacketHistory.getAckRanges
    exact pairwise_map.mpr hranges.apart

theorem historyStep_cases (hstep : historyStep h call = some (next, out)) :
    out = [call] ∧
      ((∃ p, call = .receivedPacket p ∧ next.ranges = addPacket p.toNat h.ranges) ∨
        ∃ p, call = .deleteUpTo p ∧ next.ranges = (deleteRanges p.toNat h.ranges.reverse).reverse) := by
  cases call with
  | receivedPacket p =>
    obtain ⟨after, hreceived, heq⟩ := Option.map_eq_some_iff.mp hstep
    cases heq
    unfold ReceivedPacketHistory.receivedPacket at hreceived
    split_ifs at hreceived
    cases hreceived
    exact ⟨rfl, Or.inl ⟨p, rfl, rfl⟩⟩
  | deleteUpTo p =>
    cases hstep
    exact ⟨rfl, Or.inr ⟨p, rfl, rfl⟩⟩

theorem Refines.step (hr : Refines calls h) (hfits : NoWrap h call)
    (hstep : historyStep h call = some (next, out)) : Refines (calls ++ out) next := by
  obtain ⟨rfl, ⟨p, rfl, hnext⟩ | ⟨p, rfl, hnext⟩⟩ := historyStep_cases hstep
  · obtain ⟨hapart, hset⟩ := addPacket_spec hr.ranges p.toNat_lt hfits
    refine refines_of_apart ?_ (hnext ▸ hapart)
    rw [recorded_concat, ← hr.covers, hnext]
    exact Set.ext hset
  · obtain ⟨hapart, hset⟩ := @deleteUpTo_spec p.toNat h.ranges hr.ranges
    refine refines_of_apart ?_ (hnext ▸ hapart)
    rw [recorded_concat, ← hr.covers, hnext]
    exact Set.ext fun n => (hset n).trans and_comm

theorem not_apart_of_wraps {p : Nat} {ranges : List PacketInterval} (hapart : Apart ranges)
    (hwraps : Wraps p ranges) : ¬Apart (addPacket p ranges) := by
  cases ranges with
  | nil => exact hwraps.elim
  | cons top lower =>
    have hbelow : ∀ prev ∈ lower, prev.stop + 1 < top.start :=
      (pairwise_cons.mp hapart.apart).1
    unfold addPacket
    rcases hwraps with ⟨rfl, hstop, hstart⟩ | ⟨rfl, hstart, hstop⟩
    · rw [if_neg (by omega), if_pos (by rw [hstop]; rfl)]
      intro hafter
      have hmem : (⟨top.start, 0⟩ : PacketInterval) ∈ mergeRange ⟨top.start, 0⟩ lower := by
        unfold mergeRange
        split
        · exact mem_singleton.mpr rfl
        next prev rest =>
          have hprev := hbelow prev mem_cons_self
          have hbound := hapart.ordered top mem_cons_self
          rw [if_neg (by dsimp only; omega)]
          exact mem_cons_self
      have hordered := (hafter.ordered _ hmem).1
      dsimp only at hordered
      omega
    · have hnone : lower = [] := by
        cases lower with
        | nil => rfl
        | cons prev rest =>
          have hprev := hbelow prev mem_cons_self
          omega
      rw [if_neg (by omega), if_neg (by unfold sub64; omega), if_pos (by rw [hstart]; rfl), hnone]
      intro hafter
      have hordered := (hafter.ordered _ mem_cons_self).1
      dsimp only at hordered
      omega

theorem NoWrap.of_refines (hr : Refines calls h) (hstep : historyStep h call = some (next, out))
    (hafter : Refines (calls ++ out) next) : NoWrap h call := by
  obtain ⟨-, ⟨p, rfl, hnext⟩ | ⟨p, rfl, -⟩⟩ := historyStep_cases hstep
  · intro hwraps
    exact not_apart_of_wraps hr.ranges hwraps (hnext ▸ hafter.ranges)
  · trivial

theorem Refines.noWrap (hr : Refines calls h) (hzero : 0 ∉ recorded calls)
    (hnumbered : call.Numbered) : NoWrap h call := by
  cases call with
  | deleteUpTo p => trivial
  | receivedPacket p =>
    intro hwraps
    cases hranges : h.ranges with
    | nil =>
      rw [hranges] at hwraps
      exact hwraps
    | cons top lower =>
      rw [hranges] at hwraps
      rcases hwraps with ⟨hp, -⟩ | ⟨-, hstart, -⟩
      · exact hnumbered (UInt64.toNat_inj.mp hp)
      · refine hzero (hr.covers ▸ ⟨top, ?_, Nat.le_of_eq hstart, Nat.zero_le _⟩)
        rw [hranges]
        exact mem_cons_self

theorem HistoryCall.Numbered.onSet (hnumbered : call.Numbered) {numbers : Set Nat}
    (hzero : 0 ∉ numbers) : 0 ∉ call.onSet numbers := by
  cases call with
  | deleteUpTo p => exact fun hmem => hzero hmem.1
  | receivedPacket p =>
    rintro (hp | hmem)
    · exact hnumbered (UInt64.toNat_inj.mp hp.symm)
    · exact hzero hmem

theorem refines_new : Refines [] newReceivedPacketHistory := by
  refine refines_of_apart ?_ ⟨fun el hel => absurd hel not_mem_nil, List.Pairwise.nil⟩
  refine Set.ext fun n => ⟨?_, False.elim⟩
  rintro ⟨el, hel, -⟩
  cases hel

end Refinement

-- After every call of a run without errors the history stands for the set of the numbers that
-- were received and not deleted, exactly if no call takes the ends of the packet numbers for
-- neighbours.
theorem history_refines_set_iff {calls log : List HistoryCall} {last : ReceivedPacketHistory}
    (hrun : run historyStep newReceivedPacketHistory calls = some (last, log)) :
    (∀ first second, calls = first ++ second → ∀ h part,
      run historyStep newReceivedPacketHistory first = some (h, part) → Refines part h) ↔
      Along historyStep NoWrap newReceivedPacketHistory calls :=
  run_always_iff Refines Refines (fun _ _ hr => hr)
    (fun _ _ _ _ _ hr hfits hstep => hr.step hfits hstep)
    (fun _ _ _ _ _ hr hstep hafter => NoWrap.of_refines hr hstep hafter) refines_new hrun

-- In every run without errors the history stands for the set of the numbers that were received
-- and not deleted.
theorem history_refines_set {calls log : List HistoryCall} {last : ReceivedPacketHistory}
    (hnumbered : ∀ call ∈ calls, call.Numbered)
    (hrun : run historyStep newReceivedPacketHistory calls = some (last, log)) :
    Refines log last := by
  have halong : Along historyStep NoWrap newReceivedPacketHistory calls :=
    (Along.of_forall hnumbered _).strengthen
      (fun h => ∃ calls, Refines calls h ∧ 0 ∉ recorded calls)
      (fun h call hinv hcall => by
        obtain ⟨calls, hr, hzero⟩ := hinv
        have hfits := hr.noWrap hzero hcall
        refine ⟨hfits, fun next out hstep => ⟨calls ++ out, hr.step hfits hstep, ?_⟩⟩
        rw [(historyStep_cases hstep).1, recorded_concat]
        exact hcall.onSet hzero)
      ⟨[], refines_new, Set.notMem_empty 0⟩
  exact (history_refines_set_iff hrun).mpr halong calls [] (append_nil _).symm last log hrun

theorem history_refines_set_example :
    let calls : List HistoryCall := [.receivedPacket 4, .receivedPacket 1, .receivedPacket 2,
      .receivedPacket 3, .receivedPacket 9, .deleteUpTo 2]
    ∃ h log, run historyStep newReceivedPacketHistory calls = some (h, log) ∧
      h.ranges = [⟨9, 9⟩, ⟨3, 4⟩] ∧ Refines log h := by
  intro calls
  have hranges : (run historyStep newReceivedPacketHistory calls).map (fun r => r.1.ranges) =
      some [⟨9, 9⟩, ⟨3, 4⟩] := by decide
  obtain ⟨⟨h, log⟩, hrun, heq⟩ := Option.map_eq_some_iff.mp hranges
  exact ⟨h, log, hrun, heq, history_refines_set (by decide) hrun⟩

-- The highest packet number is lost when the packet number zero comes in.
theorem highest_number_is_lost :
    let calls : List HistoryCall := [.receivedPacket 18446744073709551615, .receivedPacket 0]
    ∃ h log, run historyStep newReceivedPacketHistory calls = some (h, log) ∧
      h.ranges = [⟨18446744073709551615, 0⟩] ∧ 18446744073709551615 ∈ recorded log ∧
      ¬Received h.ranges 18446744073709551615 := by
  intro calls
  have hranges : (run historyStep newReceivedPacketHistory calls).map (fun r => (r.1.ranges, r.2)) =
      some ([⟨18446744073709551615, 0⟩], calls) := by decide
  obtain ⟨⟨h, log⟩, hrun, heq⟩ := Option.map_eq_some_iff.mp hranges
  obtain ⟨hfinal, rfl⟩ : h.ranges = [⟨18446744073709551615, 0⟩] ∧ log = calls :=
    Prod.mk.inj heq
  refine ⟨h, _, hrun, hfinal, ?_, ?_⟩
  · exact Set.mem_insert_of_mem _ (Set.mem_insert _ _)
  · rw [hfinal]
    rintro ⟨el, hel, -, hle⟩
    rw [List.mem_singleton.mp hel] at hle
    exact absurd hle (by decide)

end MpQuic.AckHandler

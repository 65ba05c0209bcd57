import MpQuic.AckHandler.ClosePath
import MpQuic.Packing.Defs

namespace MpQuic.AckHandler

open MpQuic.Library MpQuic.Wire List
open MpQuic.Packing (PacketNumberGenerator)

variable {σ : Type}

def skipPacketAveragePeriodLength : Nat := 500

-- The first number to skip is left at zero.
def newPacketNumberGenerator (averagePeriod : Nat) : PacketNumberGenerator :=
  ⟨averagePeriod, 1, 0⟩

structure NumberedPath (σ : Type) where
  packetNumberGenerator : PacketNumberGenerator
  sentPacketHandler : SentPacketHandler σ

def newPath : NumberedPath σ where
  packetNumberGenerator := newPacketNumberGenerator skipPacketAveragePeriodLength
  sentPacketHandler := newSentPacketHandler

def Event.sends : Event σ → Bool
  | .sentPacket _ _ => true
  | _ => false

-- Every packet that is sent gets its number from the generator; `num` is what the source of
-- randomness returns if it is asked.
inductive PathEvent (σ : Type) where
  | send (num : UInt16) (packet : Packet σ) (now : Int)
  | handler (event : Event σ) (hother : event.sends = false)

def PathEvent.pops : PathEvent σ → Bool
  | .send _ _ _ => true
  | .handler _ _ => false

-- The numbers of the packets that are sent are put out.
def pathStep (s : NumberedPath σ) : PathEvent σ → Option (NumberedPath σ × List Nat)
  | .send num packet now =>
    let popped := s.packetNumberGenerator.pop (some num.toNat)
    let sent := s.sentPacketHandler.sentPacket { packet with packetNumber := popped.2 } now
    some (⟨popped.1, sent.1⟩, [popped.2])
  | .handler event _ =>
    (step s.sentPacketHandler event).map fun next =>
      ({ s with sentPacketHandler := next.1 }, [])

def Skipped (s : NumberedPath σ) (popped : List Nat) (n : Nat) : Prop :=
  1 ≤ n ∧ n < s.packetNumberGenerator.next ∧ n ∉ popped

def skippedNumbers (s : NumberedPath σ) (popped : List Nat) : List Nat :=
  (List.range s.packetNumberGenerator.next).filter fun n => 1 ≤ n ∧ n ∉ popped

-- What it takes to detect optimistic ACKs: a number is skipped in every three periods, but
-- never two in a row, and an ACK frame for one of the last numbers that were skipped is refused.
structure Detects (s : NumberedPath σ) (popped : List Nat) : Prop where
  apart : ∀ n, ¬(Skipped s popped n ∧ Skipped s popped (n + 1))
  often : ∀ before window after, popped = before ++ window ++ after →
    window.length = 3 * skipPacketAveragePeriodLength →
    ∃ n, Skipped s popped n ∧ (∀ first ∈ window.head?, first < n) ∧
      ∀ last ∈ window.getLast?, n ≤ last + 1
  refused : ∀ (ackFrame : AckFrame) (withPacketNumber : Nat) (now delayUntilLost : Int),
    s.sentPacketHandler.largestReceivedPacketWithAck < withPacketNumber →
    ackFrame.largestAcked ≤ s.sentPacketHandler.lastSentPacketNumber →
    s.sentPacketHandler.largestInOrderAcked < ackFrame.largestAcked →
    (∃ n ∈ (skippedNumbers s popped).rtake maxTrackedSkippedPackets,
      s.sentPacketHandler.largestInOrderAcked < n ∧ ackFrame.acksPacket n = true) →
    (s.sentPacketHandler.receivedAck ackFrame withPacketNumber now delayUntilLost).2 =
      some .errAckForSkippedPacket

section Generator

theorem pop_of_never {g : PacketNumberGenerator} (hnever : g.nextToSkip = 0) (random : Option Nat) :
    g.pop random = ({ g with next := g.next + 1 }, g.next) := by
  unfold PacketNumberGenerator.pop
  dsimp only
  rw [hnever, if_neg (Nat.succ_ne_zero _)]

-- Without a number to skip, the numbers go up one by one.
structure Consecutive (s : NumberedPath σ) (popped : List Nat) : Prop where
  never : s.packetNumberGenerator.nextToSkip = 0
  next : s.packetNumberGenerator.next = popped.length + 1
  popped : popped = List.range' 1 popped.length

theorem consecutive_newPath : Consecutive (@newPath σ) [] :=
  ⟨rfl, rfl, rfl⟩

theorem Consecutive.pathStep {s : NumberedPath σ} {popped : List Nat} (h : Consecutive s popped)
    (event : PathEvent σ) :
    ∃ next out, AckHandler.pathStep s event = some (next, out) ∧ Consecutive next (popped ++ out) ∧
      out.length = [event].countP PathEvent.pops := by
  cases event with
  | send num packet now =>
    have hpop := pop_of_never h.never (some num.toNat)
    refine ⟨_, _, rfl, ⟨?_, ?_, ?_⟩, rfl⟩
    · rw [hpop]
      exact h.never
    · rw [hpop, length_append, length_singleton]
      exact congrArg (· + 1) h.next
    · rw [hpop, length_append, length_singleton, range'_1_concat, ← h.popped, Nat.add_comm 1, ← h.next]
  | handler event hother =>
    obtain ⟨next, out, hstep⟩ : ∃ next out, step s.sentPacketHandler event = some (next, out) := by
      cases event <;> exact ⟨_, _, rfl⟩
    refine ⟨{ s with sentPacketHandler := next }, [], ?_, ?_, rfl⟩
    · rw [AckHandler.pathStep, hstep]
      rfl
    · rw [append_nil]
      exact ⟨h.never, h.next, h.popped⟩

theorem run_consecutive (events : List (PathEvent σ)) :
    ∃ s popped, run AckHandler.pathStep newPath events = some (s, popped) ∧ Consecutive s popped ∧
      popped.length = events.countP PathEvent.pops := by
  obtain ⟨s, popped, hrun, hlast, hlength⟩ := run_progress
    (fun past popped s => Consecutive s popped ∧ popped.length = past.countP PathEvent.pops)
    (fun past popped s event h _ => by
      obtain ⟨next, out, hstep, hnext, hout⟩ := h.1.pathStep event
      refine ⟨next, out, hstep, hnext, ?_⟩
      rw [length_append, countP_append, h.2, hout])
    [] [] newPath events ⟨consecutive_newPath, rfl⟩ (Along.always _ _)
  exact ⟨s, popped, hrun, hlast, hlength⟩

variable {s : NumberedPath σ} {popped : List Nat}

theorem Consecutive.not_skipped (h : Consecutive s popped) (n : Nat) : ¬Skipped s popped n := by
  rintro ⟨hfirst, hnext, hout⟩
  rw [h.next] at hnext
  rw [h.popped, mem_range'_1] at hout
  omega

theorem Consecutive.skippedNumbers_eq_nil (h : Consecutive s popped) :
    skippedNumbers s popped = [] := by
  refine filter_eq_nil_iff.mpr fun n hn hskipped => ?_
  obtain ⟨hfirst, hout⟩ := of_decide_eq_true hskipped
  exact h.not_skipped n ⟨hfirst, mem_range.mp hn, hout⟩

theorem Consecutive.detects_iff (h : Consecutive s popped) :
    Detects s popped ↔ popped.length < 3 * skipPacketAveragePeriodLength := by
  constructor
  · intro hdetects
    by_contra hlong
    have hsplit : popped = [] ++ popped.take (3 * skipPacketAveragePeriodLength) ++
        popped.drop (3 * skipPacketAveragePeriodLength) := (take_append_drop _ _).symm
    obtain ⟨n, hn, -⟩ := hdetects.often _ _ _ hsplit (length_take_of_le (Nat.le_of_not_lt hlong))
    exact h.not_skipped n hn
  · intro hshort
    refine ⟨fun n hn => h.not_skipped n hn.1, fun before window after hsplit hlength => ?_, ?_⟩
    · rw [hsplit, length_append, length_append] at hshort
      omega
    · rintro ackFrame withPacketNumber now delayUntilLost - - - ⟨n, hn, -⟩
      rw [h.skippedNumbers_eq_nil] at hn
      cases hn

end Generator

-- A path skips no number, so optimistic ACKs are detected only as long as none would have to be
-- skipped yet: in runs with fewer packets than three periods.
theorem optimistic_acks_detected_iff (events : List (PathEvent σ)) :
    ∃ s popped, run pathStep newPath events = some (s, popped) ∧
      (Detects s popped ↔
        events.countP PathEvent.pops < 3 * skipPacketAveragePeriodLength) := by
  obtain ⟨s, popped, hrun, hlast, hlength⟩ := run_consecutive events
  exact ⟨s, popped, hrun, hlength ▸ hlast.detects_iff⟩

-- Three periods of packets get consecutive numbers.
theorem newPath_skips_nothing_in_three_periods :
    let events : List (PathEvent StreamFrame) :=
      List.replicate (3 * skipPacketAveragePeriodLength) (.send 0 (dataPacket 0) 0)
    ∃ s popped, run pathStep newPath events = some (s, popped) ∧
      popped.length = 3 * skipPacketAveragePeriodLength ∧ ∀ n, ¬Skipped s popped n := by
  intro events
  obtain ⟨s, popped, hrun, hlast, hlength⟩ := run_consecutive events
  refine ⟨s, popped, hrun, ?_, hlast.not_skipped⟩
  rw [hlength, countP_replicate]
  exact if_pos rfl

end MpQuic.AckHandler

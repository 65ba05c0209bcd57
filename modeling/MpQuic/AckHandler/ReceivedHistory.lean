import MpQuic.Wire.AckRoundTrip

namespace MpQuic.AckHandler

open MpQuic.Wire List

-- The packet numbers from `start` to `stop`, both included.
structure PacketInterval where
  start : Nat
  stop : Nat
  deriving DecidableEq, Repr

def maxTrackedReceivedAckRanges : Nat := 2500

-- The intervals of received packets. The highest one comes first, which is the back of the
-- list in the source.
structure ReceivedPacketHistory where
  ranges : List PacketInterval
  deriving DecidableEq, Repr

-- A range that was extended is merged with the next lower one if no packet is missing between
-- them.
def mergeRange (el : PacketInterval) (lower : List PacketInterval) : List PacketInterval :=
  match lower with
  | [] => [el]
  | prev :: rest =>
    if (prev.stop + 1) % 2 ^ 64 = el.start then ⟨prev.start, el.stop⟩ :: rest
    else el :: prev :: rest

def addPacket (p : Nat) : List PacketInterval → List PacketInterval
  | [] => [⟨p, p⟩]
  | el :: lower =>
    if p ≥ el.start ∧ p ≤ el.stop then el :: lower
    else if el.stop = sub64 p 1 then mergeRange ⟨el.start, p⟩ lower
    else if el.start = (p + 1) % 2 ^ 64 then mergeRange ⟨p, el.stop⟩ lower
    else if p > el.stop then ⟨p, p⟩ :: el :: lower
    else el :: addPacket p lower

def deleteRanges (p : Nat) : List PacketInterval → List PacketInterval
  | [] => []
  | el :: higher =>
    if p ≥ el.start ∧ p < el.stop then ⟨p + 1, el.stop⟩ :: deleteRanges p higher
    else if el.stop ≤ p then deleteRanges p higher
    else el :: higher

namespace ReceivedPacketHistory

-- Nothing is returned for the error of too many ranges.
def receivedPacket (h : ReceivedPacketHistory) (p : Nat) : Option ReceivedPacketHistory :=
  if h.ranges.length ≥ maxTrackedReceivedAckRanges then none
  else some { h with ranges := addPacket p h.ranges }

def deleteUpTo (h : ReceivedPacketHistory) (p : Nat) : ReceivedPacketHistory :=
  { h with ranges := (deleteRanges p h.ranges.reverse).reverse }

def getAckRanges (h : ReceivedPacketHistory) : List AckRange :=
  h.ranges.map fun el => ⟨el.start, el.stop⟩

def getHighestAckRange (h : ReceivedPacketHistory) : AckRange :=
  match h.ranges with
  | [] => ⟨0, 0⟩
  | el :: _ => ⟨el.start, el.stop⟩

end ReceivedPacketHistory

structure PacketInterval.Valid (el : PacketInterval) : Prop where
  positive : 0 < el.start
  ordered : el.start ≤ el.stop
  unsigned : el.stop < 2 ^ 64

structure Separated (ranges : List PacketInterval) : Prop where
  valid : ∀ el ∈ ranges, el.Valid
  apart : ranges.Pairwise fun upper lower => lower.stop + 1 < upper.start

def Received (ranges : List PacketInterval) (n : Nat) : Prop :=
  ∃ el ∈ ranges, el.start ≤ n ∧ n ≤ el.stop

-- The same without a lower bound on the packet numbers.
structure Apart (ranges : List PacketInterval) : Prop where
  ordered : ∀ el ∈ ranges, el.start ≤ el.stop ∧ el.stop < 2 ^ 64
  apart : ranges.Pairwise fun upper lower => lower.stop + 1 < upper.start

-- The two ends of the packet numbers look adjacent when one more or less is a wrap-around,
-- and the first look is at the highest range.
def Wraps (p : Nat) : List PacketInterval → Prop
  | [] => False
  | top :: _ =>
    (p = 0 ∧ top.stop = 2 ^ 64 - 1 ∧ 0 < top.start) ∨
      (p = 2 ^ 64 - 1 ∧ top.start = 0 ∧ top.stop + 1 < p)

instance (p : Nat) : (ranges : List PacketInterval) → Decidable (Wraps p ranges)
  | [] => isFalse id
  | _ :: _ => inferInstanceAs (Decidable ((_ ∧ _ ∧ _) ∨ (_ ∧ _ ∧ _)))

section Adding

variable {p n : Nat} {el : PacketInterval} {ranges lower : List PacketInterval}

theorem received_cons : Received (el :: lower) n ↔ (el.start ≤ n ∧ n ≤ el.stop) ∨ Received lower n :=
  exists_mem_cons_iff _ el lower

theorem Apart.tail (h : Apart (el :: lower)) : Apart lower :=
  ⟨fun other hother => h.ordered other (mem_cons_of_mem _ hother),
    (pairwise_cons.mp h.apart).2⟩

theorem Apart.below (h : Apart (el :: lower)) (hn : Received lower n) : n + 1 < el.start := by
  obtain ⟨other, hother, -, hle⟩ := hn
  have hapart := (pairwise_cons.mp h.apart).1 other hother
  omega

theorem Apart.cons (hlower : Apart lower) (hel : el.start ≤ el.stop ∧ el.stop < 2 ^ 64)
    (hbelow : ∀ n, Received lower n → n + 1 < el.start) : Apart (el :: lower) := by
  refine ⟨fun other hother => ?_, pairwise_cons.mpr ⟨fun other hother => ?_, hlower.apart⟩⟩
  · rcases mem_cons.mp hother with rfl | hother
    · exact hel
    · exact hlower.ordered other hother
  · exact hbelow other.stop ⟨other, hother, (hlower.ordered other hother).1, Nat.le_refl _⟩

theorem mergeRange_spec (hlower : Apart lower) (hel : el.start ≤ el.stop ∧ el.stop < 2 ^ 64)
    (hbelow : ∀ n, Received lower n → n < el.start) :
    Apart (mergeRange el lower) ∧
      ∀ n, Received (mergeRange el lower) n ↔ (el.start ≤ n ∧ n ≤ el.stop) ∨ Received lower n := by
  cases lower with
  | nil =>
    refine ⟨hlower.cons hel fun n hn => ?_, fun n => received_cons⟩
    obtain ⟨other, hother, -⟩ := hn
    cases hother
  | cons prev rest =>
    have hprev := hlower.ordered prev mem_cons_self
    have hstop := hbelow prev.stop ⟨prev, mem_cons_self, hprev.1, Nat.le_refl _⟩
    unfold mergeRange
    dsimp only
    rw [Nat.mod_eq_of_lt (by omega : prev.stop + 1 < 2 ^ 64)]
    split_ifs with hmerge
    · refine ⟨hlower.tail.cons ⟨by dsimp only; omega, hel.2⟩ fun n => hlower.below, fun n => ?_⟩
      rw [received_cons, received_cons, ← or_assoc]
      refine or_congr_left ?_
      dsimp only
      omega
    · refine ⟨hlower.cons hel fun n hn => ?_, fun n => received_cons⟩
      rcases received_cons.mp hn with hin | hrest
      · omega
      · have hless := hlower.below hrest
        omega

theorem addPacket_spec (h : Apart ranges) (hp : p < 2 ^ 64) (hfits : ¬Wraps p ranges) :
    Apart (addPacket p ranges) ∧
      ∀ n, Received (addPacket p ranges) n ↔ n = p ∨ Received ranges n := by
  induction ranges with
  | nil =>
    refine ⟨h.cons ⟨Nat.le_refl p, hp⟩ fun n hn => ?_, fun n => ?_⟩
    · obtain ⟨other, hother, -⟩ := hn
      cases hother
    · unfold addPacket
      rw [received_cons]
      refine or_congr_left ?_
      dsimp only
      omega
  | cons el lower ih =>
    obtain ⟨hordered, hbound⟩ := h.ordered el mem_cons_self
    unfold Wraps at hfits
    have hend : el.stop = sub64 p 1 → el.stop + 1 = p ∨ p = 0 ∧ el.start = 0 := by
      unfold sub64
      omega
    have hnotEnd : ¬el.stop = sub64 p 1 → ¬el.stop + 1 = p := by
      unfold sub64
      omega
    have hstart : el.start = (p + 1) % 2 ^ 64 → el.start = p + 1 ∨ p ≤ el.stop + 1 := by
      omega
    unfold addPacket
    split_ifs with hin hextend hfront habove
    · refine ⟨h, fun n => ⟨Or.inr, ?_⟩⟩
      rintro (rfl | hn)
      · exact ⟨el, mem_cons_self, hin⟩
      · exact hn
    · have hnext : el.stop + 1 = p := by
        have := hend hextend
        omega
      obtain ⟨hmerged, hset⟩ := @mergeRange_spec ⟨el.start, p⟩ lower h.tail
        ⟨by dsimp only; omega, hp⟩ fun n hn => Nat.lt_of_succ_lt (h.below hn)
      refine ⟨hmerged, fun n => ?_⟩
      rw [hset, received_cons, ← or_assoc]
      refine or_congr_left ?_
      dsimp only
      omega
    · have hnext : el.start = p + 1 := by
        have := hstart hfront
        omega
      obtain ⟨hmerged, hset⟩ := @mergeRange_spec ⟨p, el.stop⟩ lower h.tail
        ⟨by dsimp only; omega, hbound⟩ fun n hn => by
          have := h.below hn
          dsimp only
          omega
      refine ⟨hmerged, fun n => ?_⟩
      rw [hset, received_cons, ← or_assoc]
      refine or_congr_left ?_
      dsimp only
      omega
    · refine ⟨h.cons ⟨Nat.le_refl p, hp⟩ fun n hn => ?_, fun n => ?_⟩
      · have hgap := hnotEnd hextend
        dsimp only
        rcases received_cons.mp hn with hinside | hlower
        · omega
        · have := h.below hlower
          omega
      · rw [received_cons]
        refine or_congr_left ?_
        dsimp only
        omega
    · have hgap : p + 1 < el.start := by omega
      have hlater : ¬Wraps p lower := by
        cases lower with
        | nil => exact id
        | cons next rest =>
          have hnext := (pairwise_cons.mp h.apart).1 next mem_cons_self
          unfold Wraps
          omega
      obtain ⟨hadded, hset⟩ := ih h.tail hlater
      refine ⟨hadded.cons ⟨hordered, hbound⟩ fun n hn => ?_, fun n => ?_⟩
      · rcases (hset n).mp hn with rfl | hold
        · exact hgap
        · exact h.below hold
      · rw [received_cons, hset, received_cons, or_left_comm]

theorem separated_iff : Separated ranges ↔ Apart ranges ∧ ¬Received ranges 0 := by
  constructor
  · intro h
    refine ⟨⟨fun el hel => ⟨(h.valid el hel).ordered, (h.valid el hel).unsigned⟩, h.apart⟩, ?_⟩
    rintro ⟨el, hel, hzero, -⟩
    have hpos := (h.valid el hel).positive
    omega
  · rintro ⟨h, hzero⟩
    refine ⟨fun el hel => ⟨Nat.pos_of_ne_zero fun hstart => ?_, (h.ordered el hel).1,
      (h.ordered el hel).2⟩, h.apart⟩
    exact hzero ⟨el, hel, Nat.le_of_eq hstart, Nat.zero_le _⟩

theorem Separated.addPacket (h : Separated ranges) (hpos : 0 < p) (hbound : p < 2 ^ 64) :
    Separated (addPacket p ranges) := by
  obtain ⟨hapart, hzero⟩ := separated_iff.mp h
  have hfits : ¬Wraps p ranges := by
    cases ranges with
    | nil => exact id
    | cons top lower =>
      have htop := (h.valid top mem_cons_self).positive
      unfold Wraps
      omega
  obtain ⟨hadded, hset⟩ := addPacket_spec hapart hbound hfits
  refine separated_iff.mpr ⟨hadded, fun hnow => ?_⟩
  rcases (hset 0).mp hnow with heq | hold
  · omega
  · exact hzero hold

end Adding

def highest (ranges : List PacketInterval) : Nat :=
  (ranges.head?.map PacketInterval.stop).getD 0

section Highest

variable {p : Nat} {ranges : List PacketInterval}

theorem highest_cons (el : PacketInterval) (lower : List PacketInterval) :
    highest (el :: lower) = el.stop := rfl

theorem highest_mergeRange (el : PacketInterval) (lower : List PacketInterval) :
    highest (mergeRange el lower) = el.stop := by
  unfold mergeRange
  split
  · rfl
  · split <;> rfl

theorem highest_addPacket (h : Separated ranges) (hpos : 0 < p) (hbound : p < 2 ^ 64) :
    highest (addPacket p ranges) = max (highest ranges) p := by
  cases ranges with
  | nil => exact (Nat.zero_max p).symm
  | cons el lower =>
    have hel := h.valid el mem_cons_self
    have hordered := hel.ordered
    have helpos := hel.positive
    unfold addPacket
    rw [sub64_of_le hpos hbound, highest_cons]
    split_ifs with hin hend hstart habove
    · rw [highest_cons]
      omega
    · rw [highest_mergeRange]
      dsimp only
      omega
    · rw [highest_mergeRange]
      dsimp only
      omega
    · rw [highest_cons]
      dsimp only
      omega
    · rw [highest_cons]
      omega

end Highest

section Deleting

variable {p : Nat} {ranges : List PacketInterval}

theorem deleteRanges_spec
    (hordered : ∀ el ∈ ranges, el.start ≤ el.stop ∧ el.stop < 2 ^ 64)
    (hapart : ranges.Pairwise fun lower upper => lower.stop + 1 < upper.start) :
    (∀ el ∈ deleteRanges p ranges, el.start ≤ el.stop ∧ el.stop < 2 ^ 64) ∧
      (deleteRanges p ranges).Pairwise (fun lower upper => lower.stop + 1 < upper.start) ∧
      ∀ n, Received (deleteRanges p ranges) n ↔ p < n ∧ Received ranges n := by
  induction ranges with
  | nil =>
    refine ⟨hordered, hapart, fun n => ⟨?_, And.right⟩⟩
    rintro ⟨el, hel, -⟩
    cases hel
  | cons el higher ih =>
    obtain ⟨hfirst, hrest⟩ := pairwise_cons.mp hapart
    have hel := hordered el mem_cons_self
    obtain ⟨hlater, hpairwise, hset⟩ :=
      ih (fun other hother => hordered other (mem_cons_of_mem _ hother)) hrest
    have habove : ∀ n, Received higher n → el.stop + 1 < n := by
      rintro n ⟨other, hother, hle, -⟩
      exact Nat.lt_of_lt_of_le (hfirst other hother) hle
    unfold deleteRanges
    split_ifs with htrim hdelete
    · refine ⟨fun other hother => ?_, pairwise_cons.mpr ⟨fun upper hupper => ?_, hpairwise⟩,
        fun n => ?_⟩
      · rcases mem_cons.mp hother with rfl | hother
        · exact ⟨htrim.2, hel.2⟩
        · exact hlater other hother
      · have hstart : Received (deleteRanges p higher) upper.start :=
          ⟨upper, hupper, Nat.le_refl _, (hlater upper hupper).1⟩
        exact habove _ ((hset _).mp hstart).2
      · rw [received_cons, received_cons, hset, and_or_left]
        refine or_congr_left ?_
        dsimp only
        omega
    · refine ⟨hlater, hpairwise, fun n => ?_⟩
      rw [hset, received_cons, and_or_left]
      refine (or_iff_right ?_).symm
      omega
    · refine ⟨hordered, hapart, fun n => ⟨fun hn => ⟨?_, hn⟩, And.right⟩⟩
      rcases received_cons.mp hn with hin | hhigher
      · omega
      · have := habove n hhigher
        omega

theorem deleteUpTo_spec (h : Apart ranges) :
    Apart (deleteRanges p ranges.reverse).reverse ∧
      ∀ n, Received (deleteRanges p ranges.reverse).reverse n ↔ p < n ∧ Received ranges n := by
  have hreverse : ∀ (list : List PacketInterval) n, Received list.reverse n ↔ Received list n := by
    intro list n
    simp only [Received, mem_reverse]
  obtain ⟨hordered, hapart, hset⟩ := @deleteRanges_spec p ranges.reverse
    (fun el hel => h.ordered el (mem_reverse.mp hel)) (pairwise_reverse.mpr h.apart)
  refine ⟨⟨fun el hel => hordered el (mem_reverse.mp hel),
    pairwise_reverse.mpr hapart⟩, fun n => ?_⟩
  rw [hreverse, hset, hreverse]

theorem Separated.deleteUpTo (h : Separated ranges) :
    Separated (deleteRanges p ranges.reverse).reverse := by
  obtain ⟨hapart, hzero⟩ := separated_iff.mp h
  obtain ⟨hdeleted, hset⟩ := @deleteUpTo_spec p ranges hapart
  exact separated_iff.mpr ⟨hdeleted, fun hnow => hzero ((hset 0).mp hnow).2⟩

theorem getLast_deleteRanges {top : PacketInterval} (hlast : ranges.getLast? = some top)
    (habove : p < top.stop) :
    ∃ last, (deleteRanges p ranges).getLast? = some last ∧ last.stop = top.stop := by
  induction ranges with
  | nil => cases hlast
  | cons first higher ih =>
    cases higher with
    | nil =>
      obtain rfl : first = top := by simpa using hlast
      unfold deleteRanges
      split_ifs with htrim hdelete
      · exact ⟨_, rfl, rfl⟩
      · omega
      · exact ⟨_, rfl, rfl⟩
    | cons second rest =>
      rw [List.getLast?_cons_cons] at hlast
      obtain ⟨last, hkept, hstop⟩ := ih hlast
      unfold deleteRanges
      split_ifs
      · exact ⟨last, by rw [List.getLast?_cons, hkept]; rfl, hstop⟩
      · exact ⟨last, hkept, hstop⟩
      · exact ⟨top, by rw [List.getLast?_cons_cons, hlast], rfl⟩

theorem highest_deleteUpTo (h : p < highest ranges) :
    highest (deleteRanges p ranges.reverse).reverse = highest ranges := by
  cases ranges with
  | nil => exact absurd h (Nat.not_lt_zero p)
  | cons top lower =>
    have hlast : (top :: lower).reverse.getLast? = some top := by simp
    obtain ⟨last, hkept, hstop⟩ := getLast_deleteRanges hlast h
    unfold highest
    rw [List.head?_reverse, hkept]
    exact hstop

end Deleting

end MpQuic.AckHandler

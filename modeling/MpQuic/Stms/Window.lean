import MpQuic.Stms.Pop
import MpQuic.Stms.Framer

namespace MpQuic.Stms

open MpQuic.Library MpQuic.Wire MpQuic.FlowControl List

-- The unsent bytes that a pop leaves in front of its frame: the open hole, or the
-- one that a slower path is about to open.
def ahead (s : Stream) (gap : Int) : Nat :=
  if s.writeOffsetSN > s.writeOffsetSS then s.writeOffsetSS - s.writeOffsetF else gap.toNat

-- The sender counts the bytes it has sent, without those of the hole. This holds
-- in every mode, whatever has become of the buffer.
structure Budget (s : Stream) (bytesSent : Nat) : Prop where
  offsets : Offsets s
  finishedWriting : s.finishedWriting = false
  paid : s.writeOffsetF + (s.writeOffsetSN - s.writeOffsetSS) ≤ bytesSent

variable {s t : Stream} {bytesSent maxBytes : Nat} {ret data : List UInt8} {gap : Int}
  {taken : Taken}

theorem Budget.reach_le (h : Budget s bytesSent) (gap : Int) :
    s.writeOffsetSN ≤ bytesSent + ahead s gap := by
  have hp := h.paid
  have hc := h.offsets.closed
  have hs := h.offsets.slower
  unfold ahead
  split_ifs <;> omega

structure Charged (s t : Stream) (gap : Int) (bytesSent : Nat) (ret : List UInt8) : Prop where
  budget : Budget t (bytesSent + ret.length)
  ahead_le : ahead t gap ≤ ahead s gap
  start : frameOffset s gap ≤ bytesSent + if gap < 0 then 0 else ahead s gap
  stop : frameOffset s gap + ret.length ≤ t.writeOffsetSN
  mono : s.writeOffsetSN ≤ t.writeOffsetSN
  buffer : gap < 0 ∨ (t.dataForWriting.getD []).length + ret.length ≤ (s.dataForWriting.getD []).length

theorem Charged.keep {rest : List UInt8} (ho : Offsets t) (hfin : t.finishedWriting = false)
    (hpaid : t.writeOffsetF + (t.writeOffsetSN - t.writeOffsetSS) ≤ bytesSent + ret.length)
    (hahead : ahead t gap ≤ ahead s gap)
    (hstart : frameOffset s gap ≤ bytesSent + if gap < 0 then 0 else ahead s gap)
    (hstop : frameOffset s gap + ret.length ≤ t.writeOffsetSN)
    (hmono : s.writeOffsetSN ≤ t.writeOffsetSN)
    (hbuffer : gap < 0 ∨ rest.length + ret.length ≤ (s.dataForWriting.getD []).length) :
    Charged s (t.keep rest) gap bytesSent ret := by
  refine ⟨⟨ho.keep rest, hfin, hpaid⟩, hahead, hstart, hstop, hmono, ?_⟩
  rwa [(keep_data t rest).1]

theorem Outcome.charged (h : Budget s bytesSent) (hd : s.dataForWriting = some data)
    (hm : 1 ≤ maxBytes) (hout : Outcome s data maxBytes gap taken) (hret : taken.ret = some ret) :
    Charged s taken.stream gap bytesSent ret := by
  have ho := h.offsets
  have hp := h.paid
  have hf := ho.fastest
  have hs := ho.slower
  have hc := ho.closed
  have hh := ho.hole
  have hfast : Int.toNat (-1) = 0 := rfl
  cases hout with
  | idle => cases hret
  | stuck count hlen hshort =>
    have hsize : ret.length = count := by
      cases hret
      exact length_take_of_le (by omega)
    have hoff : frameOffset s (-1) = s.writeOffsetF := frameOffset_hole (by omega) (by omega)
    exact .keep ho h.finishedWriting (by omega) (Nat.le_refl _) (by rw [hoff]; simp; omega)
      (by omega) (Nat.le_refl _) (by omega)
  | fill hlen hle hopen =>
    have hsize : ret.length = maxBytes := by
      cases hret
      exact length_take_of_le (by omega)
    have hoff : frameOffset s (-1) = s.writeOffsetF := frameOffset_hole (by omega) hopen
    refine .keep ⟨?_, ?_, ?_, ?_⟩ h.finishedWriting ?_ ?_ ?_ ?_ ?_ (by omega) <;>
      simp only [ahead, hoff, hfast] <;> (try split_ifs) <;> omega
  | meet hlen hmax hopen =>
    have hsize : ret.length = s.writeOffsetSS - s.writeOffsetF := by
      cases hret
      exact length_take_of_le hlen
    have hoff : frameOffset s (-1) = s.writeOffsetF := frameOffset_hole (by omega) hopen
    refine .keep ⟨?_, ?_, ?_, ?_⟩ h.finishedWriting ?_ ?_ ?_ ?_ ?_ (by omega) <;>
      simp only [ahead, hoff, hfast, implies_true] <;> (try split_ifs) <;> omega
  | follow count hlen hclosed =>
    have hsize : ret.length = count := by
      cases hret
      exact length_take_of_le (by omega)
    have hoff : frameOffset s (-1) = s.writeOffsetSN :=
      frameOffset_in_order (by omega) ho hclosed
    refine .keep ⟨?_, ?_, ?_, ?_⟩ h.finishedWriting ?_ ?_ ?_ ?_ ?_ (by omega) <;>
      simp only [ahead, hoff, hfast, implies_true] <;> (try split_ifs) <;> omega
  | alone count hlen =>
    have hsize : ret.length = count := by
      cases hret
      exact length_take_of_le (by omega)
    refine .keep ⟨?_, ?_, ?_, ?_⟩ h.finishedWriting ?_ ?_ ?_ ?_ ?_ (by omega) <;>
      simp only [ahead, frameOffset] <;> (try split_ifs) <;> omega
  | behind gap count hgap hhole hlen hopen =>
    have hsize : ret.length = count := by
      cases hret
      simp only [length_take, length_drop]
      omega
    have hoff : frameOffset s gap = s.writeOffsetSN := frameOffset_behind hopen
    refine .keep ⟨?_, ?_, ?_, ?_⟩ h.finishedWriting ?_ ?_ ?_ ?_ ?_ (Or.inr ?_) <;>
      simp only [ahead, hoff, hd, Option.getD_some, length_append, length_take,
        length_drop] <;> (try split_ifs) <;> omega
  | jump gap count hgap hlen hclosed =>
    have hsize : ret.length = count := by
      cases hret
      simp only [length_take, length_drop]
      omega
    have hoff : frameOffset s gap = s.writeOffsetSS + gap := frameOffset_jump ho hclosed
    refine .keep ⟨?_, ?_, ?_, ?_⟩ h.finishedWriting ?_ ?_ ?_ ?_ ?_ (Or.inr ?_) <;>
      simp only [ahead, hoff, hd, Option.getD_some, length_append, length_take,
        length_drop] <;> (try split_ifs) <;> omega

theorem Outcome.length_bounds (hm : 1 ≤ maxBytes) (hpos : 0 < data.length)
    (hout : Outcome s data maxBytes gap taken) (hret : taken.ret = some ret) :
    0 < ret.length ∧ ret.length ≤ maxBytes := by
  cases hout <;> cases hret <;> simp only [length_take, length_drop] <;> omega

theorem Outcome.idle_of_none (hout : Outcome s data maxBytes gap taken) (hret : taken.ret = none) :
    taken.stream = s := by
  cases hout with
  | idle => rfl
  | _ => cases hret

theorem shouldSendFin_of_open (h : s.finishedWriting = false) : s.shouldSendFin = false := by
  simp [Stream.shouldSendFin, h]

theorem popStreamFrame_charged {streamID : Nat} {maxLen window : Nat}
    {frame : Option StreamFrame} (h : Budget s bytesSent)
    (hpop : popStreamFrame streamID s gap maxLen window = some (t, frame)) :
    (frame = none ∧ t = s) ∨
      ∃ f, frame = some f ∧ f.streamID = streamID ∧ f.offset = frameOffset s gap ∧
        0 < f.dataLen ∧ f.dataLen ≤ min maxLen window ∧ s.lenOfDataForWriting ≠ 0 ∧
        Charged s t gap bytesSent f.data := by
  have hopen := shouldSendFin_of_open h.finishedWriting
  by_cases hlen : s.lenOfDataForWriting = 0
  · have hquiet : popStreamFrame streamID s gap maxLen window = some (s, none) := by
      by_cases hm : maxLen = 0 <;> simp [popStreamFrame, hlen, hm, hopen]
    rw [hquiet] at hpop
    cases hpop
    exact Or.inl ⟨rfl, rfl⟩
  by_cases hm : min maxLen window = 0
  · rw [popStreamFrame_blocked streamID gap maxLen window hlen hm] at hpop
    cases hpop
    exact Or.inl ⟨rfl, rfl⟩
  obtain ⟨data, hd⟩ : ∃ data, s.dataForWriting = some data := by
    cases hd : s.dataForWriting with
    | none => simp [Stream.lenOfDataForWriting, hd] at hlen
    | some data => exact ⟨data, rfl⟩
  cases htaken : getDataForWritingSTMS s (min maxLen window) gap with
  | none => simp [popStreamFrame, hlen, hm, htaken] at hpop
  | some taken =>
    have hout := getDataForWritingSTMS_outcome hd htaken
    have hflags := getDataForWritingSTMS_flags htaken
    simp only [Stream.flags, Prod.mk.injEq] at hflags
    have hfin := shouldSendFin_of_open (hflags.2.1.trans h.finishedWriting)
    rw [popStreamFrame_data streamID gap maxLen window hlen hm htaken] at hpop
    cases hret : taken.ret with
    | none =>
      simp only [hret, hfin, and_self, if_true, Option.some.injEq, Prod.mk.injEq] at hpop
      exact Or.inl ⟨hpop.2.symm, hpop.1.symm.trans (hout.idle_of_none hret)⟩
    | some ret =>
      simp only [hret, hfin, reduceCtorEq, false_and, if_false, Bool.false_eq_true,
        Option.getD_some, Option.some.injEq, Prod.mk.injEq] at hpop
      obtain ⟨rfl, rfl⟩ := hpop
      have hpos : 0 < data.length := by
        by_contra hzero
        simp [Stream.lenOfDataForWriting, hd, Nat.eq_zero_of_not_pos hzero] at hlen
      have hsize := hout.length_bounds (Nat.pos_of_ne_zero hm) hpos hret
      exact Or.inr ⟨_, rfl, rfl, rfl, hsize.1, hsize.2, hlen,
        hout.charged h hd (Nat.pos_of_ne_zero hm) hret⟩

end MpQuic.Stms

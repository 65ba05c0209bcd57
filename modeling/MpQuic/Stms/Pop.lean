import MpQuic.Stms.Layout
import MpQuic.Stms.Outcome

namespace MpQuic.Stms

open MpQuic.Library List

structure Served (s : Stream) (bytes : List UInt8) (offset : Nat) (taken : Taken) : Prop where
  layout : Layout taken.stream bytes
  errorCase : taken.errorCase = false
  sends : (taken.ret = none ∧ taken.stream = s) ∨
    ∃ ret, taken.ret = some ret ∧ Sends s taken.stream bytes offset ret

theorem Sends.of_stretch {s t : Stream} {bytes : List UInt8} {offset count : Nat}
    (hc : 0 < count) (hb : offset + count ≤ bytes.length)
    (hu : ∀ i, Unsent t bytes i ↔ Unsent s bytes i ∧ ¬(offset ≤ i ∧ i < offset + count))
    (hf : ∀ i, offset ≤ i → i < offset + count → Unsent s bytes i) :
    Sends s t bytes offset (stretch bytes offset (offset + count)) := by
  have hl : (stretch bytes offset (offset + count)).length = count := by
    rw [length_stretch _ hb]
    omega
  refine ⟨?_, ?_, ?_, ?_, ?_⟩
  · intro he
    rw [he] at hl
    simp only [length_nil] at hl
    omega
  · rwa [hl]
  · rw [hl]
  · simpa only [hl] using hu
  · simpa only [hl] using hf

section Cases

variable {s : Stream} {bytes data : List UInt8} {maxBytes : Nat}

section

variable (h : Layout s bytes) (hd : s.dataForWriting = some data)

include h hd

theorem served_hole {count : Nat}
    (hc : 0 < count) (hle : s.writeOffsetF + count ≤ s.writeOffsetSS) :
    Served s bytes s.writeOffsetF
      ⟨{ s with writeOffsetF := s.writeOffsetF + count, gap := s.gap - count }.keep
        (data.drop count), some (data.take count), false⟩ := by
  have ho := h.offsets
  have hb := h.start_le
  obtain ⟨htake, hdrop⟩ := h.split_hole hd hle
  refine ⟨Layout.keep ⟨hle, ho.slower, ?_, ?_⟩ h.err h.bound hdrop, rfl, Or.inr ⟨_, rfl, ?_⟩⟩
  · intro he
    have := ho.closed he
    simp only
    omega
  · intro hl
    have := ho.hole hl
    simp only
    omega
  · rw [htake]
    apply Sends.of_stretch hc (by omega)
    · intro i
      have := ho.slower
      simp only [Unsent, Stream.keep]
      omega
    · intro i hlo hhi
      simp only [Unsent]
      omega

theorem served_last_of_hole
    (hlt : s.writeOffsetF < s.writeOffsetSS) :
    Served s bytes s.writeOffsetF
      ⟨{ s with
          writeOffsetF := s.writeOffsetSN, writeOffsetSS := s.writeOffsetSN, gap := 0 }.keep
        (data.drop (s.writeOffsetSS - s.writeOffsetF)),
        some (data.take (s.writeOffsetSS - s.writeOffsetF)), false⟩ := by
  have ho := h.offsets
  have hb := h.start_le
  obtain ⟨htake, hdrop⟩ := h.split hd
  have hstop : s.writeOffsetSS = s.writeOffsetF + (s.writeOffsetSS - s.writeOffsetF) := by omega
  refine ⟨Layout.keep ⟨Nat.le_refl _, Nat.le_refl _, fun _ => rfl, ?_⟩ h.err h.bound ?_, rfl,
    Or.inr ⟨_, rfl, ?_⟩⟩
  · intro hl
    simp only at hl
    omega
  · rw [hdrop, stretch_empty _ (Nat.le_refl _), nil_append]
  · rw [htake, hstop]
    apply Sends.of_stretch (by omega) (by omega)
    · intro i
      have := ho.slower
      simp only [Unsent, Stream.keep]
      omega
    · intro i hlo hhi
      simp only [Unsent]
      omega

theorem served_in_order {count : Nat}
    (hc : 0 < count) (hle : s.writeOffsetSN + count ≤ bytes.length)
    (heq : s.writeOffsetF = s.writeOffsetSS) (t : Stream) (herr : t.err = false)
    (ht : Offsets t) (hsame : t.writeOffsetF = t.writeOffsetSS)
    (hnext : t.writeOffsetSN = s.writeOffsetSN + count) :
    Served s bytes s.writeOffsetSN ⟨t.keep (data.drop count), some (data.take count), false⟩ := by
  obtain ⟨htake, hdrop⟩ := h.split_tail hd hle
  rw [heq, Nat.sub_self, drop_zero] at htake
  rw [heq, Nat.sub_self, Nat.zero_add] at hdrop
  refine ⟨Layout.keep ht herr (hnext ▸ hle) ?_, rfl, Or.inr ⟨_, rfl, ?_⟩⟩
  · rw [hsame, stretch_empty _ (Nat.le_refl _), nil_append, hnext, hdrop]
  · rw [htake]
    apply Sends.of_stretch hc hle
    · intro i
      simp only [Unsent, Stream.keep, hsame, hnext, heq]
      omega
    · intro i hlo hhi
      simp only [Unsent]
      omega

theorem served_behind
    (count hole : Nat) (hc : 0 < count) (t : Stream) (herr : t.err = false) (ht : Offsets t)
    (hfast : t.writeOffsetF = s.writeOffsetF)
    (hhole : t.writeOffsetSS = s.writeOffsetF + hole)
    (hopen : s.writeOffsetSS < s.writeOffsetSN ∧ t.writeOffsetSS = s.writeOffsetSS ∧
        t.writeOffsetSN = s.writeOffsetSN + count ∨
      s.writeOffsetSS = s.writeOffsetSN ∧ t.writeOffsetSN = t.writeOffsetSS + count)
    (hle : t.writeOffsetSN ≤ bytes.length) :
    Served s bytes (t.writeOffsetSN - count)
      ⟨t.keep (data.take hole ++ data.drop (hole + count)),
        some ((data.drop hole).take count), false⟩ := by
  have ho := h.offsets
  have hdata := h.data
  simp only [hd, Option.getD_some] at hdata
  rcases hopen with ⟨hlt, hss, hsn⟩ | ⟨heq, hsn⟩
  · -- the hole was open before, and the frame extends what lies behind it
    have hsize : hole = s.writeOffsetSS - s.writeOffsetF := by omega
    subst hole
    have hend : s.writeOffsetSN + count ≤ bytes.length := by omega
    obtain ⟨htake, hdrop⟩ := h.split_tail hd hend
    have hoff : t.writeOffsetSN - count = s.writeOffsetSN := by omega
    refine ⟨Layout.keep ht herr hle ?_, rfl, Or.inr ⟨_, rfl, ?_⟩⟩
    · rw [(h.split hd).1, hdrop, hfast, hss, hsn]
    · rw [htake, hoff]
      apply Sends.of_stretch hc (by omega)
      · intro i
        simp only [Unsent, Stream.keep, hfast, hss, hsn]
        omega
      · intro i hlo hhi
        simp only [Unsent]
        omega
  · -- the buffer was in order, and the cut opens the hole
    have hclosed := ho.closed heq
    rw [hclosed, heq, stretch_empty _ (Nat.le_refl _), nil_append] at hdata
    have hfirst : s.writeOffsetSN = s.writeOffsetF := by omega
    rw [hfirst] at hdata
    have hoff : t.writeOffsetSN - count = s.writeOffsetF + hole := by omega
    have hret : (data.drop hole).take count =
        stretch bytes (s.writeOffsetF + hole) (s.writeOffsetF + hole + count) := by
      rw [hdata, drop_stretch, take_stretch _ (by omega)]
    have hrest : data.take hole ++ data.drop (hole + count) =
        stretch bytes t.writeOffsetF t.writeOffsetSS ++
          stretch bytes t.writeOffsetSN bytes.length := by
      rw [hdata, take_stretch _ (by omega), drop_stretch, hsn, hfast, hhole, Nat.add_assoc]
    refine ⟨Layout.keep ht herr hle hrest, rfl, Or.inr ⟨_, rfl, ?_⟩⟩
    · rw [hret, hoff]
      apply Sends.of_stretch hc (by omega)
      · intro i
        simp only [Unsent, Stream.keep, hfast, hhole, hsn]
        omega
      · intro i hlo hhi
        simp only [Unsent]
        omega

end

theorem frameOffset_hole {gap : Int} (hg : gap < 0) (hopen : s.writeOffsetF < s.writeOffsetSS) :
    frameOffset s gap = s.writeOffsetF := by
  simp only [frameOffset]
  rw [if_pos hg, if_neg (by omega)]

theorem frameOffset_in_order {gap : Int} (hg : gap < 0) (ho : Offsets s)
    (heq : s.writeOffsetF = s.writeOffsetSS) : frameOffset s gap = s.writeOffsetSN := by
  have := ho.closed
  have := ho.slower
  simp only [frameOffset]
  split_ifs <;> omega

theorem frameOffset_behind {gap : Nat} (hopen : s.writeOffsetSS < s.writeOffsetSN) :
    frameOffset s gap = s.writeOffsetSN := by
  simp only [frameOffset]
  rw [if_neg (by omega), if_pos hopen]

theorem frameOffset_jump {gap : Nat} (ho : Offsets s)
    (hclosed : s.writeOffsetSN ≤ s.writeOffsetSS) :
    frameOffset s gap = s.writeOffsetSS + gap := by
  have hsame := ho.closed (Nat.le_antisymm ho.slower hclosed)
  simp only [frameOffset, hsame]
  rw [if_neg (by omega), if_neg (by omega), Int.toNat_natCast]

theorem Offsets.of_eq {t : Stream} (h₁ : t.writeOffsetF = t.writeOffsetSS)
    (h₂ : t.writeOffsetSS = t.writeOffsetSN) : Offsets t :=
  ⟨by omega, by omega, fun _ => h₁, fun hlt => by omega⟩

theorem Outcome.served {gap : Int} {taken : Taken} (h : Layout s bytes)
    (hd : s.dataForWriting = some data) (hm : 1 ≤ maxBytes)
    (hmode : gap = -2 → s.writeOffsetF = s.writeOffsetSS)
    (hout : Outcome s data maxBytes gap taken) : Served s bytes (frameOffset s gap) taken := by
  have ho := h.offsets
  have hl := h.length hd
  have hb := h.bound
  have hpos : 0 < data.length := length_pos_iff.mpr (by rintro rfl; exact h.nonempty hd)
  cases hout with
  | idle => exact ⟨h, rfl, Or.inl ⟨rfl, rfl⟩⟩
  | stuck count hlen hshort =>
    have := ho.fastest
    omega
  | fill hlen hle hopen =>
    rw [frameOffset_hole (by omega) hopen]
    exact served_hole h hd hm hle
  | meet hlen hmax hopen =>
    rw [frameOffset_hole (by omega) hopen]
    exact served_last_of_hole h hd hopen
  | follow count hlen hclosed =>
    rw [frameOffset_in_order (by omega) ho hclosed]
    exact served_in_order h hd (by omega) (by omega) hclosed _ h.err (.of_eq rfl rfl) rfl rfl
  | alone count hlen =>
    have hclosed := hmode rfl
    have hslower := ho.slower
    have hhole := ho.hole
    rw [frameOffset_in_order (by omega) ho hclosed]
    refine served_in_order h hd (by omega) (by omega) hclosed _ h.err ?_ ?_ rfl
    · exact ⟨by simp only; omega, by simp only; omega, by simp only; omega, by simp only; omega⟩
    · simp only [hclosed]
  | behind gap count hgap hhole hlen hopen =>
    have hsize := ho.hole hopen
    have hfast := ho.fastest
    rw [frameOffset_behind hopen]
    have hbehind := served_behind h hd count s.gap (by omega)
      { s with writeOffsetSN := s.writeOffsetSN + count } h.err
      ⟨hfast, by simp only; omega, by simp only; omega, by simp only; omega⟩
      rfl (by simp only; omega) (Or.inl ⟨hopen, rfl, rfl⟩) (by simp only; omega)
    simpa only [Nat.add_sub_cancel] using hbehind
  | jump gap count hgap hlen hclosed =>
    have hss : s.writeOffsetSS = s.writeOffsetSN := Nat.le_antisymm ho.slower hclosed
    have hsame := ho.closed hss
    rw [frameOffset_jump ho hclosed]
    have hbehind := served_behind h hd count gap (by omega)
      { s with
        gap := gap
        writeOffsetSS := s.writeOffsetSS + gap
        writeOffsetSN := s.writeOffsetSS + gap + count } h.err
      ⟨by simp only; omega, by simp only; omega, by simp only; omega, by simp only; omega⟩
      rfl (by simp only; omega) (Or.inr ⟨hss, rfl⟩) (by simp only; omega)
    simpa only [Nat.add_sub_cancel] using hbehind

theorem getDataForWritingSTMS_isSome (h : Layout s bytes) (maxBytes : Nat) (gap : Int) :
    (getDataForWritingSTMS s maxBytes gap).isSome := by
  cases hd : s.dataForWriting with
  | none => rw [getDataForWritingSTMS_nil hd, Option.isSome_some]
  | some data =>
    have hl := h.length hd
    simp only [getDataForWritingSTMS, h.err, hd, Bool.false_eq_true, if_false]
    split_ifs
    · exact fastestPath_isSome s data maxBytes
    · rw [onlyPath_eq s data maxBytes _ rfl, Option.isSome_some]
    · rfl
    · refine slowerPath_isSome maxBytes gap.toNat ?_
      intro hopen
      rw [h.offsets.hole hopen]
      omega

end Cases

theorem getDataForWritingSTMS_served {s : Stream} {bytes : List UInt8} (h : Layout s bytes)
    {maxBytes : Nat} (hm : 1 ≤ maxBytes) (gap : Int)
    (hmode : gap = -2 → s.writeOffsetF = s.writeOffsetSS) :
    ∃ taken, getDataForWritingSTMS s maxBytes gap = some taken ∧
      Served s bytes (frameOffset s gap) taken := by
  obtain ⟨taken, ht⟩ := Option.isSome_iff_exists.mp (getDataForWritingSTMS_isSome h maxBytes gap)
  refine ⟨taken, ht, ?_⟩
  cases hd : s.dataForWriting with
  | none =>
    rw [getDataForWritingSTMS_nil hd] at ht
    cases ht
    exact ⟨h, rfl, Or.inl ⟨rfl, rfl⟩⟩
  | some data => exact (getDataForWritingSTMS_outcome hd ht).served h hd hm hmode

end MpQuic.Stms

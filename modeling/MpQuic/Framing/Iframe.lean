import MpQuic.Framing.Visit

namespace MpQuic.Framing

open MpQuic.Library MpQuic.Wire MpQuic.FlowControl List

inductive Marked : List UInt8 → List UInt8 → Prop where
  | nil : Marked [] []
  | byte (b : UInt8) {bytes marked : List UInt8} (h : Marked bytes marked) :
      Marked (b :: bytes) (b :: marked)
  | marker {bytes marked : List UInt8} (h : Marked bytes marked) :
      Marked bytes (patternDiscard ++ marked)

namespace Marked

theorem refl (bytes : List UInt8) : Marked bytes bytes := by
  induction bytes with
  | nil => exact .nil
  | cons b bytes ih => exact .byte b ih

theorem append {first second marked later : List UInt8} (h : Marked first marked)
    (hlater : Marked second later) : Marked (first ++ second) (marked ++ later) := by
  induction h with
  | nil => exact hlater
  | byte b _ ih => exact .byte b ih
  | marker _ ih =>
    rw [append_assoc]
    exact .marker ih

theorem length_le {bytes marked : List UInt8} (h : Marked bytes marked) :
    bytes.length ≤ marked.length := by
  induction h with
  | nil => exact Nat.le_refl _
  | byte b _ ih => exact Nat.succ_le_succ ih
  | marker _ ih =>
    rw [length_append]
    omega

end Marked

-- The rest of an I-frame stands in the buffer behind `lead`, and the indices of the
-- stream cover it. Without an end index it goes on to the end of the buffer.
structure Stream.Holds (s : Stream) (lead rest tail : List UInt8) : Prop where
  err : s.err = false
  pending : s.pending = lead ++ rest ++ tail
  rest_ne : rest ≠ []
  indices :
    (s.iEndinx = -1 ∧ tail = [] ∧ (s.iStartinx = lead.length ∨ lead = [] ∧ s.iStartinx = -2)) ∨
      (s.iStartinx = lead.length ∧ (lead.length : Int) + rest.length ≤ s.iEndinx + 1)

-- No branch is taken that discards bytes of an I-frame or moves its indices away from it:
-- there is no I-frame on its way; or the bandwidth is and was sufficient, and the packet
-- reaches the I-frame if that has an end index; or the bandwidth is too small and the
-- I-frame starts in this packet; or the header of the I-frame is the next one, and with it
-- no marker is due, or one is due, there is no end index and the header fits.
def Stream.Spares (lackbw flagBwUnenough : Bool) (maxLen : Nat) (s : Stream) : Prop :=
  s.iStartinx = -1 ∨
  maxLen < 2 ^ 63 ∧
    ((lackbw = false ∧ flagBwUnenough = false ∧ (maxLen ≤ s.iStartinx → s.iEndinx = -1)) ∨
      (lackbw = true ∧ 0 ≤ s.iStartinx ∧ s.iStartinx < maxLen) ∨
      (0 ≤ s.iStartinx ∧ s.nextHeaderOff.first = s.iStartinx ∧
        (flagBwUnenough = true ∨ lackbw = true ∧ s.iEndinx = -1 ∧ headerlen ≤ maxLen)))

instance (lackbw flagBwUnenough : Bool) (maxLen : Nat) (s : Stream) :
    Decidable (s.Spares lackbw flagBwUnenough maxLen) := by
  unfold Stream.Spares
  infer_instance

-- What a frame takes of the rest of an I-frame: other bytes may come before it and, once
-- all of it is out, behind it.
def Given (lead rest data : List UInt8) (t : Stream) : Prop :=
  ∃ skipped sent left marked back, data = skipped ++ marked ++ back ∧ rest = sent ++ left ∧
    Marked sent marked ∧ (lead = [] → skipped = []) ∧
    (left = [] ∨ back = [] ∧ ∃ lead' tail, t.Holds lead' left tail ∧
      (lead' ≠ [] → lead ≠ [] ∧ marked = []))

section Holds

variable {s t : Stream} {lead rest tail : List UInt8} {n : Nat}

theorem toInt_of_lt (h : n < 2 ^ 63) : toInt n = n :=
  if_pos h

theorem updateIndices_before (hstart : (n : Int) ≤ t.iStartinx) (hend : t.iEndinx = -1) :
    t.updateIndices n = { t with iStartinx := t.iStartinx - n } := by
  unfold Stream.updateIndices
  rw [if_neg (by omega), if_neg (by omega), if_pos hstart, if_pos hend]

theorem updateIndices_open (hstart : t.iStartinx ≠ -1) (hlow : -2 ≤ t.iStartinx)
    (hin : t.iStartinx < n) (hend : t.iEndinx = -1) :
    t.updateIndices n = { t with iStartinx := -2 } := by
  unfold Stream.updateIndices
  rw [if_neg (fun h => hstart h.1), if_pos ⟨hlow, hin⟩, if_pos hend]

theorem updateIndices_inside (hstart : 0 ≤ t.iStartinx) (hin : t.iStartinx < n)
    (hend : (n : Int) ≤ t.iEndinx) :
    t.updateIndices n = { t with iStartinx := 0, iEndinx := t.iEndinx - n } := by
  unfold Stream.updateIndices
  rw [if_neg (by omega), if_pos ⟨by omega, hin⟩, if_neg (by omega), if_neg (by omega)]

variable (h : s.Holds lead rest tail) (herr : t.err = false) (hstart : t.iStartinx = s.iStartinx)
  (hend : t.iEndinx = s.iEndinx) (hpending : t.pending = s.pending.drop n)

include h herr hstart hend hpending

theorem Stream.Holds.before (hn : 0 < n) (hle : n ≤ lead.length) (hopen : s.iEndinx = -1) :
    (t.updateIndices n).Holds (lead.drop n) rest tail := by
  rcases h.indices with ⟨-, htail, hlead | ⟨hnil, -⟩⟩ | ⟨-, hlong⟩
  · rw [updateIndices_before (by omega) (hend.trans hopen)]
    refine ⟨herr, ?_, h.rest_ne, Or.inl ⟨hend.trans hopen, htail, Or.inl ?_⟩⟩
    · show t.pending = _
      rw [hpending, h.pending, append_assoc, drop_append_of_le_length hle,
        append_assoc]
    · show t.iStartinx - n = _
      rw [length_drop]
      omega
  · rw [hnil] at hle
    exact absurd hn (Nat.not_lt_of_le hle)
  · have hrest := length_pos_of_ne_nil h.rest_ne
    omega

theorem Stream.Holds.inside (hlt : lead.length < n) (hin : n < lead.length + rest.length) :
    (t.updateIndices n).Holds [] (rest.drop (n - lead.length)) tail := by
  have hleft : (rest.drop (n - lead.length)).length = rest.length - (n - lead.length) :=
    length_drop
  have hdrop : t.pending = [] ++ rest.drop (n - lead.length) ++ tail := by
    rw [hpending, h.pending, append_assoc, drop_append,
      drop_of_length_le (Nat.le_of_lt hlt), drop_append_of_le_length (by omega)]
    rfl
  have hne : rest.drop (n - lead.length) ≠ [] := by
    apply ne_nil_of_length_pos
    omega
  rcases h.indices with ⟨hopen, htail, hlead⟩ | ⟨hlead, hlong⟩
  · rw [updateIndices_open (by omega) (by omega) (by omega) (hend.trans hopen)]
    exact ⟨herr, hdrop, hne, Or.inl ⟨hend.trans hopen, htail, Or.inr ⟨rfl, rfl⟩⟩⟩
  · rw [updateIndices_inside (by omega) (by omega) (by omega)]
    refine ⟨herr, hdrop, hne, Or.inr ⟨rfl, ?_⟩⟩
    show ((0 : Nat) : Int) + (rest.drop (n - lead.length)).length ≤ t.iEndinx - n + 1
    omega

theorem Stream.Holds.given (hn : 0 < n)
    (hreach : n ≤ lead.length → s.iEndinx = -1) :
    Given lead rest (s.pending.take n) (t.updateIndices n) := by
  rw [h.pending, append_assoc, take_append, take_append]
  by_cases hle : n ≤ lead.length
  · refine ⟨lead.take n, [], rest, [], [], ?_, rfl, .nil, ?_, Or.inr ⟨rfl, _, tail,
      h.before herr hstart hend hpending hn hle (hreach hle), ?_⟩⟩
    · simp [Nat.sub_eq_zero_of_le hle]
    · intro hnil
      rw [hnil, take_nil]
    · intro hmore
      refine ⟨fun hnil => hmore ?_, rfl⟩
      rw [hnil, drop_nil]
  · refine ⟨lead, rest.take (n - lead.length), rest.drop (n - lead.length),
      rest.take (n - lead.length), tail.take (n - lead.length - rest.length), ?_,
      (take_append_drop _ _).symm, .refl _, id, ?_⟩
    · rw [take_of_length_le (by omega), append_assoc]
    · by_cases hin : n < lead.length + rest.length
      · right
        refine ⟨?_, [], tail, h.inside herr hstart hend hpending (by omega) hin,
          fun hne => absurd rfl hne⟩
        rw [Nat.sub_eq_zero_of_le (by omega), take_zero]
      · left
        exact drop_of_length_le (by omega)

end Holds

section Discard

variable {s : Stream} {lead rest tail : List UInt8} {lackbw flag : Bool} {maxLen : Nat}

theorem Stream.Holds.iStartinx_ne (h : s.Holds lead rest tail) : s.iStartinx ≠ -1 := by
  rcases h.indices with ⟨-, -, hstart | ⟨-, hstart⟩⟩ | ⟨hstart, -⟩ <;> omega

theorem Stream.Holds.congr {t : Stream} (h : s.Holds lead rest tail) (herr : t.err = s.err)
    (hdata : t.dataForWriting = s.dataForWriting) (hstart : t.iStartinx = s.iStartinx)
    (hend : t.iEndinx = s.iEndinx) : t.Holds lead rest tail := by
  refine ⟨herr.trans h.err, ?_, h.rest_ne, ?_⟩
  · rw [← h.pending, Stream.pending, hdata]
    rfl
  · rw [hstart, hend]
    exact h.indices

theorem Stream.Holds.dropToHeader {t : Stream} (h : s.Holds lead rest tail)
    (hstart : 0 ≤ s.iStartinx) (hfirst : s.nextHeaderOff.first = s.iStartinx) {b : Bool}
    (hdrop : ({ s with iStartinx := 0, cansendpattern := b } : Stream).dropToHeader
      (s.dataForWriting.getD []) = some t) :
    t.Holds [] rest tail ∧ t.iEndinx = s.iEndinx := by
  obtain ⟨bytes, hbytes, rfl⟩ := Option.map_eq_some_iff.mp hdrop
  have hlead : s.iStartinx = lead.length := by
    rcases h.indices with ⟨-, -, hlead | ⟨-, hneg⟩⟩ | ⟨hlead, -⟩ <;> omega
  have hrest : bytes = rest ++ tail := by
    have hcut := (sliceFrom_eq_some hbytes).2
    rw [← hcut]
    show s.pending.drop s.nextHeaderOff.first.toNat = _
    rw [hfirst, hlead, Int.toNat_natCast, h.pending, append_assoc, drop_left]
  refine ⟨⟨h.err, hrest, h.rest_ne, ?_⟩, rfl⟩
  rcases h.indices with ⟨hopen, htail, -⟩ | ⟨-, hlong⟩
  · exact Or.inl ⟨hopen, htail, Or.inl rfl⟩
  · right
    refine ⟨rfl, ?_⟩
    show ((0 : Nat) : Int) + rest.length ≤ s.iEndinx + 1
    omega

theorem discard_spared {d : Discarded} (h : s.Holds lead rest tail) (hm : 0 < maxLen)
    (hspares : s.Spares lackbw flag maxLen) (hd : s.discard true lackbw flag maxLen = some d) :
    (∃ lead', d.retPatternCnt = 0 ∧ d.stream.Holds lead' rest tail ∧ (lead' = lead ∨ lead' = []) ∧
      (maxLen ≤ lead'.length → d.stream.iEndinx = -1)) ∨
    (d.retPatternCnt = 1 ∧ d.retPattern = patternDiscard ∧ headerlen ≤ maxLen ∧
      d.stream.Holds [] rest tail ∧ d.stream.iEndinx = -1) := by
  obtain ⟨hsmall, hspares⟩ := hspares.resolve_left h.iStartinx_ne
  have hto : toInt maxLen = maxLen := toInt_of_lt hsmall
  have hlead : 0 ≤ s.iStartinx → s.iStartinx = lead.length := by
    intro hstart
    rcases h.indices with ⟨-, -, hlead | ⟨-, hneg⟩⟩ | ⟨hlead, -⟩ <;> omega
  have hzero : maxLen ≤ ([] : List UInt8).length → d.stream.iEndinx = -1 :=
    fun hle => absurd hm (Nat.not_lt_of_le hle)
  rcases discard_stream hd with ⟨-, hlack, -, after, hd⟩ | ⟨-, hlack, hflag, hd⟩ |
    ⟨hcalm, hsame, -, hcnt⟩
  · obtain ⟨kept, flag', pattern, cnt⟩ := d
    unfold Stream.discardLack at hd
    dsimp only at hd hzero ⊢
    rw [hto] at hd
    by_cases hin : 0 ≤ s.iStartinx ∧ s.iStartinx < maxLen
    · rw [if_pos hin] at hd
      cases hd
      refine Or.inl ⟨lead, rfl, h.congr rfl rfl rfl rfl, Or.inl rfl, ?_⟩
      intro hle
      have hstart := hlead hin.1
      omega
    · obtain ⟨hstart, hfirst, hmarker⟩ : 0 ≤ s.iStartinx ∧ s.nextHeaderOff.first = s.iStartinx ∧
          (flag = true ∨ lackbw = true ∧ s.iEndinx = -1 ∧ headerlen ≤ maxLen) := by
        rcases hspares with hcalm | hnow | hnext
        · exact absurd hcalm.1 (by simp [hlack])
        · exact absurd hnow.2 hin
        · exact hnext
      rw [if_neg hin, if_pos (hfirst ▸ hstart), if_pos hstart] at hd
      obtain ⟨t, ht, he⟩ := Option.map_eq_some_iff.mp hd
      cases he
      obtain ⟨hholds, hend⟩ := h.dropToHeader hstart hfirst ht
      cases flag with
      | true => exact Or.inl ⟨[], rfl, hholds, Or.inr rfl, hzero⟩
      | false =>
        obtain ⟨-, hopen, hroom⟩ := hmarker.resolve_left Bool.false_ne_true
        exact Or.inr ⟨rfl, rfl, hroom, hholds, hend.trans hopen⟩
  · obtain ⟨hstart, hfirst, -⟩ : 0 ≤ s.iStartinx ∧ s.nextHeaderOff.first = s.iStartinx ∧
        (flag = true ∨ lackbw = true ∧ s.iEndinx = -1 ∧ headerlen ≤ maxLen) := by
      rcases hspares with hcalm | hnow | hnext
      · exact absurd hcalm.2.1 (by simp [hflag])
      · exact absurd hnow.1 (by simp [hlack])
      · exact hnext
    unfold Stream.discardRest at hd
    dsimp only at hd
    rw [if_pos (hfirst ▸ hstart), if_pos hstart] at hd
    obtain ⟨t, ht, rfl⟩ := Option.map_eq_some_iff.mp hd
    obtain ⟨hholds, hend⟩ := h.dropToHeader (b := s.cansendpattern) hstart hfirst ht
    exact Or.inl ⟨[], rfl, hholds, Or.inr rfl, hzero⟩
  · rw [hsame]
    refine Or.inl ⟨lead, hcnt, h, Or.inl rfl, ?_⟩
    intro hle
    rcases hspares with ⟨-, -, hreach⟩ | ⟨-, hstart, hin⟩ | ⟨hstart, hfirst, hmarker⟩
    · apply hreach
      rcases h.indices with ⟨-, -, hstart | ⟨hnil, -⟩⟩ | ⟨hstart, -⟩
      · omega
      · rw [hnil] at hle
        exact absurd hm (Nat.not_lt_of_le hle)
      · omega
    · have hstart := hlead hstart
      omega
    · rcases hcalm rfl with ⟨hlack, hflag⟩ | hunsearched
      · simp [hlack, hflag] at hmarker
      · omega

end Discard

section Take

variable {s : Stream} {lead rest tail data : List UInt8} {maxLen : Nat}

theorem Given.of_nil {t : Stream} (h : Given [] rest data t) : Given lead rest data t := by
  obtain ⟨skipped, sent, left, marked, back, hdata, hrest, hmarked, hskipped, hleft⟩ := h
  refine ⟨skipped, sent, left, marked, back, hdata, hrest, hmarked, fun _ => hskipped rfl, ?_⟩
  refine hleft.imp_right fun ⟨hback, lead', tail, hholds, hlead⟩ =>
    ⟨hback, lead', tail, hholds, fun hne => absurd rfl (hlead hne).1⟩

theorem getDataForWriting_indices (maxBytes : Nat) :
    (s.getDataForWriting maxBytes).1.iStartinx = s.iStartinx ∧
      (s.getDataForWriting maxBytes).1.iEndinx = s.iEndinx := by
  unfold Stream.getDataForWriting
  split
  · exact ⟨rfl, rfl⟩
  split
  · exact ⟨rfl, rfl⟩
  split <;> exact ⟨rfl, rfl⟩

def Gathered.settled (gathered : Gathered) : Stream :=
  { gathered.stream with
    nextHeaderOff := gathered.stream.nextHeaderOff.behind (toInt gathered.maxLen) }.updateIndices
    (toInt gathered.maxLen)

theorem pending_settled (gathered : Gathered) : gathered.settled.pending = gathered.stream.pending := by
  obtain ⟨start, stop, hindices⟩ := updateIndices_eq (t := gathered.settled) rfl
  rw [hindices]
  rfl

theorem holds_open (n : Nat) (hne : rest ≠ []) (herr : s.err = false) (hopen : s.iEndinx = -1)
    (hstart : s.iStartinx = 0 ∨ s.iStartinx = -2) (hpending : s.pending = rest) :
    (s.updateIndices n).Holds [] rest [] := by
  have hbytes : s.pending = [] ++ rest ++ [] := by simpa using hpending
  by_cases hbefore : (n : Int) ≤ s.iStartinx
  · rw [updateIndices_before hbefore hopen]
    refine ⟨herr, hbytes, hne, Or.inl ⟨hopen, rfl, Or.inl ?_⟩⟩
    show s.iStartinx - n = (0 : Nat)
    omega
  · rw [updateIndices_open (by omega) (by omega) (by omega) hopen]
    exact ⟨herr, hbytes, hne, Or.inl ⟨hopen, rfl, Or.inr ⟨rfl, rfl⟩⟩⟩

theorem gather_given (pattern : List UInt8) (h : s.Holds lead rest tail) (hm : 0 < maxLen)
    (hsmall : maxLen < 2 ^ 63) (hreach : maxLen ≤ lead.length → s.iEndinx = -1) :
    Given lead rest ((s.gather pattern 0 maxLen).data.getD []) (s.gather pattern 0 maxLen).settled ∧
      (s.gather pattern 0 maxLen).stream.pending = s.pending.drop maxLen := by
  obtain ⟨hadv, htaken, hleft, -⟩ := getDataForWriting_spec maxLen h.err
  obtain ⟨hstart, hend⟩ := getDataForWriting_indices (s := s) maxLen
  unfold Gathered.settled
  show Given lead rest ((s.getDataForWriting maxLen).2.getD [])
      (Stream.updateIndices _ (toInt maxLen)) ∧ (s.getDataForWriting maxLen).1.pending = _
  rw [toInt_of_lt hsmall, htaken]
  exact ⟨h.given (hadv.err.trans h.err) hstart hend hleft hm hreach, hleft⟩

theorem gather_marked (h : s.Holds [] rest tail) (hopen : s.iEndinx = -1)
    (hroom : headerlen ≤ maxLen) (hsmall : maxLen < 2 ^ 63) :
    Given [] rest ((s.gather patternDiscard 1 maxLen).data.getD [])
        (s.gather patternDiscard 1 maxLen).settled ∧
      (s.gather patternDiscard 1 maxLen).stream.pending.length < s.pending.length := by
  have hlong := length_pos_of_ne_nil h.rest_ne
  obtain ⟨htail, hstart⟩ : tail = [] ∧ (s.iStartinx = 0 ∨ s.iStartinx = -2) := by
    rcases h.indices with ⟨-, htail, hstart | ⟨-, hstart⟩⟩ | ⟨-, hlong⟩
    · exact ⟨htail, Or.inl hstart⟩
    · exact ⟨htail, Or.inr hstart⟩
    · omega
  have hpending : s.pending = rest := by
    rw [h.pending, htail, append_nil, nil_append]
  unfold Stream.gather
  rw [if_pos Nat.one_pos]
  by_cases hshort : 1 > (s.dataForWriting.getD []).length / headerlen
  · obtain ⟨-, htaken, hleft, -⟩ := getDataForWriting_spec maxLen h.err
    have hless : rest.length < headerlen := by
      have hless := (Nat.div_lt_iff_lt_mul (by decide)).mp hshort
      rw [Nat.one_mul] at hless
      rw [← hpending]
      exact hless
    rw [if_pos hshort]
    constructor
    · refine ⟨[], rest, [], patternDiscard ++ rest, [], ?_, (append_nil _).symm,
        .marker (.refl _), fun _ => rfl, Or.inl rfl⟩
      show patternDiscard ++ (s.getDataForWriting maxLen).2.getD [] = _
      rw [htaken, hpending, take_of_length_le (by omega)]
      simp
    · show (s.getDataForWriting maxLen).1.pending.length < _
      rw [hleft, hpending, length_drop]
      have hpos : 0 < headerlen := by decide
      omega
  · obtain ⟨hadv, htaken, hleft, -⟩ := getDataForWriting_spec headerlen h.err
    obtain ⟨hkept, hend⟩ := getDataForWriting_indices (s := s) headerlen
    have hmax : (if maxLen < headerlen then maxLen + 2 ^ 64 - headerlen else maxLen - headerlen) =
        maxLen - headerlen := if_neg (Nat.not_lt_of_le hroom)
    rw [if_neg hshort]
    unfold Stream.gatherHeaders Stream.gatherHeaders Gathered.settled
    dsimp only
    rw [hmax, toInt_of_lt (by omega)]
    constructor
    · refine ⟨[], rest.take headerlen, rest.drop headerlen,
        rest.take headerlen ++ patternDiscard, [], ?_, (take_append_drop _ _).symm, ?_,
        fun _ => rfl, ?_⟩
      · rw [htaken, hpending]
        simp
      · have hmarked := (Marked.refl (rest.take headerlen)).append (Marked.marker .nil)
        simpa using hmarked
      · by_cases hdone : rest.drop headerlen = []
        · exact Or.inl hdone
        · refine Or.inr ⟨rfl, [], [], ?_, fun hne => absurd rfl hne⟩
          apply holds_open _ hdone
          · exact hadv.err.trans h.err
          · exact hend.trans hopen
          · exact hstart.imp hkept.trans hkept.trans
          · rw [← hpending]
            exact hleft
    · show (s.getDataForWriting headerlen).1.pending.length < _
      rw [hleft, length_drop, hpending]
      have hpos : 0 < headerlen := by decide
      omega

theorem takeData_spared {lackbw flag flag' : Bool} {gathered : Gathered}
    (h : s.Holds lead rest tail) (hm : 0 < maxLen) (hspares : s.Spares lackbw flag maxLen)
    (htake : s.takeData true lackbw flag maxLen = some (gathered, flag')) :
    Given lead rest (gathered.data.getD []) gathered.stream ∧
      gathered.stream.pending.length < s.pending.length := by
  obtain ⟨d, hd, he⟩ := Option.map_eq_some_iff.mp htake
  have hsmall := (hspares.resolve_left h.iStartinx_ne).1
  cases he
  show Given lead rest _ (d.stream.gather d.retPattern d.retPatternCnt maxLen).settled ∧
    (d.stream.gather d.retPattern d.retPatternCnt maxLen).settled.pending.length < _
  rw [pending_settled]
  have hlong := length_pos_of_ne_nil h.rest_ne
  have htotal : s.pending.length = lead.length + rest.length + tail.length := by
    rw [h.pending, length_append, length_append]
  rcases discard_spared h hm hspares hd with ⟨lead', hcnt, hholds, hlead, hreach⟩ |
    ⟨hcnt, hpattern, hroom, hholds, hopen⟩
  · obtain ⟨hgiven, hleft⟩ := gather_given d.retPattern hholds hm hsmall hreach
    have hpart : d.stream.pending.length = lead'.length + rest.length + tail.length := by
      rw [hholds.pending, length_append, length_append]
    rw [hcnt, hleft, length_drop]
    rcases hlead with rfl | rfl
    · exact ⟨hgiven, by omega⟩
    · refine ⟨hgiven.of_nil, ?_⟩
      rw [length_nil] at hpart
      omega
  · obtain ⟨hgiven, hless⟩ := gather_marked hholds hopen hroom hsmall
    have hpart : d.stream.pending.length = 0 + rest.length + tail.length := by
      rw [hholds.pending, length_append, length_append]
      rfl
    rw [hcnt, hpattern]
    exact ⟨hgiven.of_nil, by omega⟩

end Take

end MpQuic.Framing

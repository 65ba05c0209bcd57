import MpQuic.Stms.Defs

namespace MpQuic.Stms

open MpQuic.Library List Option

-- Everything a pop on a non-nil buffer can do, one constructor for each way in
-- which the offsets move. `count` is the number of bytes in the frame.
inductive Outcome (s : Stream) (data : List UInt8) (maxBytes : Nat) : Int → Taken → Prop where
  | idle (gap : Int) (hmode : s.err = false → gap ≠ -1 ∧ gap ≠ -2) :
      Outcome s data maxBytes gap ⟨s, none, false⟩
  -- logged as ERROR CASE: the frame goes out and the buffer keeps its bytes
  | stuck (count : Nat) (hlen : count = min maxBytes data.length)
      (hshort : s.writeOffsetF + data.length < s.writeOffsetSS ∨
        s.writeOffsetSS < s.writeOffsetF) :
      Outcome s data maxBytes (-1) ⟨s.keep data, some (data.take count), true⟩
  -- the fastest path fills a part of the hole
  | fill (hlen : maxBytes < data.length) (hle : s.writeOffsetF + maxBytes ≤ s.writeOffsetSS)
      (hopen : s.writeOffsetF < s.writeOffsetSS) :
      Outcome s data maxBytes (-1)
        ⟨{ s with writeOffsetF := s.writeOffsetF + maxBytes, gap := s.gap - maxBytes }.keep
          (data.drop maxBytes), some (data.take maxBytes), false⟩
  -- the fastest path fills the hole and catches up with the slower ones
  | meet (hlen : s.writeOffsetSS - s.writeOffsetF ≤ data.length)
      (hmax : s.writeOffsetSS - s.writeOffsetF ≤ maxBytes)
      (hopen : s.writeOffsetF < s.writeOffsetSS) :
      Outcome s data maxBytes (-1)
        ⟨{ s with
            writeOffsetF := s.writeOffsetSN, writeOffsetSS := s.writeOffsetSN, gap := 0 }.keep
          (data.drop (s.writeOffsetSS - s.writeOffsetF)),
          some (data.take (s.writeOffsetSS - s.writeOffsetF)), false⟩
  -- no hole is open and the fastest path follows the slower ones
  | follow (count : Nat) (hlen : count = min maxBytes data.length)
      (hclosed : s.writeOffsetF = s.writeOffsetSS) :
      Outcome s data maxBytes (-1)
        ⟨{ s with
            writeOffsetF := s.writeOffsetSN + count
            writeOffsetSS := s.writeOffsetSN + count
            writeOffsetSN := s.writeOffsetSN + count
            gap := 0 }.keep (data.drop count), some (data.take count), false⟩
  | alone (count : Nat) (hlen : count = min maxBytes data.length) :
      Outcome s data maxBytes (-2)
        ⟨{ s with
            writeOffsetF := s.writeOffsetF + count
            writeOffsetSS := s.writeOffsetSS + count
            writeOffsetSN := s.writeOffsetSN + count }.keep (data.drop count),
          some (data.take count), false⟩
  -- a slower path goes on behind the open hole
  | behind (gap count : Nat) (hgap : gap < data.length) (hhole : s.gap < data.length)
      (hlen : count = min maxBytes (data.length - s.gap))
      (hopen : s.writeOffsetSS < s.writeOffsetSN) :
      Outcome s data maxBytes gap
        ⟨{ s with writeOffsetSN := s.writeOffsetSN + count }.keep
          (data.take s.gap ++ data.drop (s.gap + count)),
          some ((data.drop s.gap).take count), false⟩
  -- a slower path leaves a hole of `gap` bytes
  | jump (gap count : Nat) (hgap : gap < data.length)
      (hlen : count = min maxBytes (data.length - gap))
      (hclosed : s.writeOffsetSN ≤ s.writeOffsetSS) :
      Outcome s data maxBytes gap
        ⟨{ s with
            gap := gap
            writeOffsetSS := s.writeOffsetSS + gap
            writeOffsetSN := s.writeOffsetSS + gap + count }.keep
          (data.take gap ++ data.drop (gap + count)),
          some ((data.drop gap).take count), false⟩

section Inversion

variable {s : Stream} {data : List UInt8} {maxBytes : Nat} {taken : Taken}

theorem fastestPath_outcome (h : fastestPath s data maxBytes = some taken) :
    Outcome s data maxBytes (-1) taken := by
  simp only [fastestPath, bind_eq_bind] at h
  by_cases hlen : data.length > maxBytes
  · have hsize : (data.take maxBytes).length = maxBytes := length_take_of_le (by omega)
    simp only [if_pos hlen, sliceTo_eq (Nat.le_of_lt hlen), sliceFrom_eq (Nat.le_of_lt hlen),
      bind_some, hsize] at h
    split_ifs at h with hover hfill hclosed
    · rw [sliceTo_eq (by omega), sliceFrom_eq (by omega)] at h
      cases h
      exact .meet (by omega) (by omega) hover.2
    · cases h
      exact .fill hlen hfill.1 hfill.2
    · cases h
      exact .follow maxBytes (by omega) hclosed
    · cases h
      exact .stuck maxBytes (by omega) (by omega)
  · rw [if_neg hlen] at h
    split_ifs at h with hmeet hshort hclosed
    · rw [sliceTo_eq (by omega), sliceFrom_eq (by omega)] at h
      cases h
      exact .meet (by omega) (by omega) hmeet.2
    · cases h
      have hstuck : Outcome s data maxBytes (-1) _ :=
        .stuck data.length (by omega) (by omega)
      rwa [take_length] at hstuck
    · cases h
      have hfollow : Outcome s data maxBytes (-1) _ :=
        .follow data.length (by omega) hclosed
      rwa [take_length, drop_length] at hfollow
    · cases h
      have hstuck : Outcome s data maxBytes (-1) _ :=
        .stuck data.length (by omega) (by omega)
      rwa [take_length] at hstuck

theorem onlyPath_eq (s : Stream) (data : List UInt8) (maxBytes count : Nat)
    (hc : count = min maxBytes data.length) :
    onlyPath s data maxBytes = some
      ⟨{ s with
          writeOffsetF := s.writeOffsetF + count
          writeOffsetSS := s.writeOffsetSS + count
          writeOffsetSN := s.writeOffsetSN + count }.keep (data.drop count),
        some (data.take count), false⟩ := by
  simp only [onlyPath, bind_eq_bind]
  by_cases hlen : data.length > maxBytes
  · obtain rfl : count = maxBytes := by omega
    have hsize : (data.take count).length = count := length_take_of_le (by omega)
    have hrest : (data.drop count).length ≠ 0 := by
      rw [length_drop]
      omega
    simp only [if_pos hlen, sliceTo_eq (Nat.le_of_lt hlen), sliceFrom_eq (Nat.le_of_lt hlen),
      bind_some, hsize, Stream.keep, if_neg hrest]
  · obtain rfl : count = data.length := by omega
    simp only [if_neg hlen, Stream.keep, take_length, drop_length, length_nil,
      if_true]

theorem tail_cases (data : List UInt8) (maxBytes hole : Nat) (hhole : hole ≤ data.length) :
    (data.length - hole > maxBytes ∧ slice data hole (hole + maxBytes) =
        some ((data.drop hole).take maxBytes) ∧
      ((data.drop hole).take maxBytes).length = maxBytes ∧
      sliceFrom data (hole + maxBytes) = some (data.drop (hole + maxBytes))) ∨
    (¬data.length - hole > maxBytes ∧
      data.take hole ++ data.drop (hole + (data.length - hole)) = data.take hole ∧
      (data.drop hole).take (data.length - hole) = data.drop hole) := by
  by_cases hlen : data.length - hole > maxBytes
  · refine Or.inl ⟨hlen, ?_, ?_, sliceFrom_eq (by omega)⟩
    · rw [slice_eq (by omega) (by omega), Nat.add_sub_cancel_left]
    · simp only [length_take, length_drop]
      omega
  · refine Or.inr ⟨hlen, ?_, ?_⟩
    · rw [drop_eq_nil_of_le (by omega), append_nil]
    · exact take_of_length_le (by simp)

theorem slowerPath_outcome {gap : Nat} (hd : s.dataForWriting = some data)
    (h : slowerPath s data maxBytes gap = some taken) : Outcome s data maxBytes gap taken := by
  simp only [slowerPath, bind_eq_bind] at h
  by_cases hgap : gap ≥ data.length
  · rw [if_pos hgap] at h
    cases h
    exact .idle _ (by omega)
  rw [if_neg hgap] at h
  by_cases hopen : s.writeOffsetSN > s.writeOffsetSS
  · rw [if_pos hopen] at h
    by_cases hhole : s.gap ≤ data.length
    · rw [sliceFrom_eq hhole, sliceTo_eq hhole] at h
      simp only [bind_some, length_drop] at h
      rcases tail_cases data maxBytes s.gap hhole with
        ⟨hlen, hslice, hsize, hback⟩ | ⟨hlen, hfront, htail⟩
      · simp only [if_pos hlen, hslice, hback, bind_some, hsize] at h
        cases h
        exact .behind gap maxBytes (by omega) (by omega) (by omega) hopen
      · rw [if_neg hlen] at h
        by_cases hnone : data.length - s.gap = 0
        · -- nothing lies behind the hole, and the stream stays as it is
          have hne : data.length ≠ 0 := by omega
          rw [if_pos hnone, hnone, take_of_length_le (by omega)] at h
          simp only [Stream.keep, if_neg hne, Nat.add_zero, ← hd] at h
          cases h
          exact .idle _ (by omega)
        · have hbehind : Outcome s data maxBytes gap _ :=
            .behind gap (data.length - s.gap) (by omega) (by omega) (by omega) hopen
          rw [hfront, htail] at hbehind
          rw [if_neg hnone] at h
          cases h
          exact hbehind
    · simp [sliceFrom, hhole] at h
  · rw [if_neg hopen, sliceFrom_eq (by omega), sliceTo_eq (by omega)] at h
    simp only [bind_some, length_drop] at h
    rcases tail_cases data maxBytes gap (by omega) with
      ⟨hlen, hslice, hsize, hback⟩ | ⟨hlen, hfront, htail⟩
    · simp only [if_pos hlen, hslice, hback, bind_some, hsize] at h
      cases h
      exact .jump gap maxBytes (by omega) (by omega) (by omega)
    · rw [if_neg hlen] at h
      have hjump : Outcome s data maxBytes gap _ :=
        .jump gap (data.length - gap) (by omega) (by omega) (by omega)
      rw [hfront, htail] at hjump
      cases h
      exact hjump

theorem getDataForWritingSTMS_outcome {gap : Int} (hd : s.dataForWriting = some data)
    (h : getDataForWritingSTMS s maxBytes gap = some taken) :
    Outcome s data maxBytes gap taken := by
  simp only [getDataForWritingSTMS, hd] at h
  split_ifs at h with herr hneg hfast honly
  · cases h
    exact .idle _ fun hok => by simp [hok] at herr
  · exact hfast ▸ fastestPath_outcome h
  · rw [onlyPath_eq s data maxBytes _ rfl] at h
    cases h
    exact honly ▸ .alone _ rfl
  · cases h
    exact .idle _ fun _ => ⟨hfast, honly⟩
  · have hslow := slowerPath_outcome hd h
    rwa [Int.toNat_of_nonneg (by omega)] at hslow

end Inversion

theorem fastestPath_isSome (s : Stream) (data : List UInt8) (maxBytes : Nat) :
    (fastestPath s data maxBytes).isSome := by
  simp only [fastestPath, bind_eq_bind]
  by_cases hlen : data.length > maxBytes
  · have hsize : (data.take maxBytes).length = maxBytes := length_take_of_le (by omega)
    simp only [if_pos hlen, sliceTo_eq (Nat.le_of_lt hlen), sliceFrom_eq (Nat.le_of_lt hlen),
      bind_some, hsize]
    split_ifs
    · rw [sliceTo_eq (by omega), sliceFrom_eq (by omega)]
      rfl
    all_goals rfl
  · rw [if_neg hlen]
    split_ifs
    · rw [sliceTo_eq (by omega), sliceFrom_eq (by omega)]
      rfl
    all_goals rfl

theorem slowerPath_isSome {s : Stream} {data : List UInt8} (maxBytes gap : Nat)
    (hl : s.writeOffsetSN > s.writeOffsetSS → s.gap ≤ data.length) :
    (slowerPath s data maxBytes gap).isSome := by
  simp only [slowerPath, bind_eq_bind]
  split_ifs with hgap hopen
  · rfl
  · rw [sliceFrom_eq (hl hopen), sliceTo_eq (hl hopen)]
    simp only [bind_some, length_drop]
    split_ifs with hlen
    · rw [slice_eq (by omega) (by omega), sliceFrom_eq (by omega)]
      rfl
    · rfl
    · rfl
  · rw [sliceFrom_eq (by omega), sliceTo_eq (by omega)]
    simp only [bind_some, length_drop]
    split_ifs with hlen
    · rw [slice_eq (by omega) (by omega), sliceFrom_eq (by omega)]
      rfl
    · rfl

theorem getDataForWritingSTMS_nil {s : Stream} (hd : s.dataForWriting = none) (maxBytes : Nat)
    (gap : Int) : getDataForWritingSTMS s maxBytes gap = some ⟨s, none, false⟩ := by
  simp [getDataForWritingSTMS, hd]

def Stream.flags (s : Stream) : Bool × Bool × Bool :=
  (s.err, s.finishedWriting, s.finSent)

theorem getDataForWritingSTMS_flags {s : Stream} {maxBytes : Nat} {gap : Int} {taken : Taken}
    (h : getDataForWritingSTMS s maxBytes gap = some taken) : taken.stream.flags = s.flags := by
  cases hd : s.dataForWriting with
  | none =>
    rw [getDataForWritingSTMS_nil hd] at h
    cases h
    rfl
  | some data => cases getDataForWritingSTMS_outcome hd h <;> rfl

end MpQuic.Stms

import MpQuic.Wire.Length
import MpQuic.Stms.Window
import MpQuic.Framing.Offsets

namespace MpQuic.Framing

open MpQuic.Library MpQuic.Wire MpQuic.FlowControl

variable {maxBytes streamID maxLen : Nat} {lackbw flag : Bool} {st : PopState} {s : Stream}
  {gathered : Gathered}

theorem Asked.data_le (h : Asked maxBytes lackbw st streamID s maxLen gathered flag)
    (hoff : st.framer.iPriority = false) : (gathered.data.getD []).length ≤ maxLen := by
  have hdata := h.data
  unfold popData at hdata
  by_cases hlen : s.lenOfDataForWriting ≠ 0
  · rw [if_pos hlen, hoff] at hdata
    have herr : s.err = false := by
      by_contra herr
      apply hlen
      simp [Stream.lenOfDataForWriting, eq_true_of_ne_false herr]
    obtain ⟨htaken, -, -, -⟩ := takeData_plain herr hdata
    rw [htaken]
    exact List.length_take_le _ _
  · rw [if_neg hlen] at hdata
    cases hdata
    exact Nat.zero_le maxLen

theorem Asked.maxLen_le (h : Asked maxBytes lackbw st streamID s maxLen gathered flag) :
    maxLen ≤ maxBytes - st.currentLen - frameHeaderBytes streamID s := by
  rw [h.maxLen_eq]
  unfold maxLenFor
  split
  · exact Nat.min_le_left _ _
  · exact Nat.le_refl _

structure Spent (maxBytes : Nat) (log : List Emission) (st : PopState) : Prop where
  off : st.framer.iPriority = false
  room : st.currentLen ≤ maxBytes
  total : StreamFrame.total (log.map Emission.frame) = st.currentLen

theorem Spent.visit {log out : List Emission} {next : PopState}
    {v : Visit} (h : Spent maxBytes log st) (hv : visit maxBytes lackbw st v = some (next, out)) :
    Spent maxBytes (log ++ out) next := by
  have hoff : next.framer.iPriority = false := (visit_iPriority hv).trans h.off
  obtain ⟨_, -, hvisited⟩ := visit_visited hv
  cases hvisited with
  | idle index cont => exact ⟨hoff, h.room, by rw [List.append_nil]; exact h.total⟩
  | silent streamID maxLen index s gathered flag cont asked data fin =>
    exact ⟨hoff, h.room, by rw [List.append_nil]; exact h.total⟩
  | framed streamID maxLen index s gathered flag cont blocked asked due =>
    have hdata := asked.data_le h.off
    have hmax := asked.maxLen_le
    have hheader := asked.header
    refine ⟨hoff, ?_, ?_⟩
    · show st.currentLen + (frameHeaderBytes streamID s + (gathered.data.getD []).length) ≤ maxBytes
      omega
    · rw [List.map_append, StreamFrame.total_append, h.total]
      rfl

theorem maybePopNormalFrames_total_le {f next : Framer} {out : List Emission}
    (hoff : f.iPriority = false) (h : maybePopNormalFrames f maxBytes lackbw = some (next, out)) :
    StreamFrame.total (out.map Emission.frame) ≤ maxBytes := by
  obtain ⟨⟨last, log⟩, hrun, hlast⟩ := Option.map_eq_some_iff.mp h
  cases hlast
  have hspent := run_invariant (fun _ log st => Spent maxBytes log st)
    (fun _ _ _ _ _ _ hinv _ hv => hinv.visit hv) [] [] ⟨f, 0, true⟩ last f.visits log
    ⟨hoff, Nat.zero_le _, rfl⟩ (Along.always _ _) hrun
  rw [List.nil_append] at hspent
  exact hspent.total.trans_le hspent.room

end MpQuic.Framing

namespace MpQuic.Stms

open MpQuic.Library MpQuic.Wire MpQuic.FlowControl

variable {streamID : Nat} {cont : Bool} {ids : List Nat}

theorem popStreamFrame_size {s t : Stream} {gap : Int} {maxLen window : Nat}
    {frame : StreamFrame} (h : popStreamFrame streamID s gap maxLen window = some (t, some frame)) :
    frame.minLength = frameHeaderBytes streamID s gap ∧ frame.dataLen ≤ maxLen := by
  by_cases hlen : s.lenOfDataForWriting = 0
  · simp only [popStreamFrame, hlen, ne_eq, not_true_eq_false, if_false, Option.bind_eq_bind,
      Option.bind_some] at h
    split at h
    · cases h
    split at h
    · cases h
    cases h
    exact ⟨rfl, Nat.zero_le maxLen⟩
  by_cases hm : min maxLen window = 0
  · rw [popStreamFrame_blocked streamID gap maxLen window hlen hm] at h
    cases h
  obtain ⟨data, hd⟩ : ∃ data, s.dataForWriting = some data := by
    cases hd : s.dataForWriting with
    | none => simp [Stream.lenOfDataForWriting, hd] at hlen
    | some data => exact ⟨data, rfl⟩
  have hpos : 0 < data.length := by
    by_contra hzero
    simp [Stream.lenOfDataForWriting, hd, Nat.eq_zero_of_not_pos hzero] at hlen
  cases htaken : getDataForWritingSTMS s (min maxLen window) gap with
  | none => simp [popStreamFrame, hlen, hm, htaken] at h
  | some taken =>
    have hout := getDataForWritingSTMS_outcome hd htaken
    rw [popStreamFrame_data streamID gap maxLen window hlen hm htaken] at h
    split at h
    · cases h
    cases h
    refine ⟨rfl, ?_⟩
    show (taken.ret.getD []).length ≤ maxLen
    cases hret : taken.ret with
    | none => exact Nat.zero_le maxLen
    | some ret =>
      have hsize := hout.length_bounds (Nat.pos_of_ne_zero hm) hpos hret
      exact hsize.2.trans (Nat.min_le_left _ _)

structure Spent (maxBytes : Nat) (st : PopState) : Prop where
  room : st.currentLen ≤ maxBytes
  total : StreamFrame.total st.res = st.currentLen

variable {maxBytes : Nat} {gap : Int} {st next : PopState}

theorem Spent.popFromStream {s : Stream} (h : Spent maxBytes st)
    (hpop : popFromStream maxBytes gap st streamID s = some (next, cont)) :
    Spent maxBytes next := by
  unfold Stms.popFromStream at hpop
  dsimp only at hpop
  split at hpop
  · cases hpop
    exact h
  split at hpop
  · cases hpop
    exact h
  next hheader =>
  split at hpop
  · cases hpop
  · cases hpop
    exact ⟨h.room, h.total⟩
  next t frame hframe =>
    cases hpop
    obtain ⟨hmin, hdata⟩ := popStreamFrame_size hframe
    refine ⟨?_, ?_⟩
    · show st.currentLen + (frameHeaderBytes streamID s gap + frame.dataLen) ≤ maxBytes
      omega
    · rw [StreamFrame.total_append, h.total, StreamFrame.total_cons, hmin]
      rfl

theorem Spent.iteratePrioritized (h : Spent maxBytes st)
    (hpop : iteratePrioritized maxBytes gap st ids = some (next, cont)) : Spent maxBytes next := by
  induction ids generalizing st with
  | nil =>
    cases hpop
    exact h
  | cons streamID rest ih =>
    rw [Stms.iteratePrioritized] at hpop
    split at hpop
    · exact ih h hpop
    split at hpop
    · cases hpop
    next hvisit => exact ih (h.popFromStream hvisit) hpop
    next hvisit =>
      cases hpop
      exact h.popFromStream hvisit

theorem Spent.iterateRest (h : Spent maxBytes st)
    (hpop : iterateRest maxBytes gap st ids = some next) : Spent maxBytes next := by
  induction ids generalizing st with
  | nil =>
    cases hpop
    exact h
  | cons streamID rest ih =>
    rw [Stms.iterateRest] at hpop
    split at hpop
    · exact ih h hpop
    split at hpop
    · cases hpop
      exact h
    split at hpop
    · cases hpop
    next hvisit =>
      have hnext := h.popFromStream hvisit
      dsimp only at hpop
      split at hpop
      · refine ih ?_ hpop
        exact ⟨hnext.room, hnext.total⟩
      · cases hpop
        exact ⟨hnext.room, hnext.total⟩

theorem maybePopNormalFramesSTMS_total_le {f next : Framer} {frames : List StreamFrame}
    (h : maybePopNormalFramesSTMS f maxBytes gap = some (next, frames)) :
    StreamFrame.total frames ≤ maxBytes := by
  have hstart : Spent maxBytes ⟨f, [], 0⟩ := ⟨Nat.zero_le _, rfl⟩
  unfold maybePopNormalFramesSTMS at h
  split at h
  · cases h
  next hfirst =>
    cases h
    have hspent := hstart.iteratePrioritized hfirst
    exact hspent.total.trans_le hspent.room
  next hfirst =>
    obtain ⟨last, hrest, hlast⟩ := Option.map_eq_some_iff.mp h
    cases hlast
    have hspent := (hstart.iteratePrioritized hfirst).iterateRest hrest
    exact hspent.total.trans_le hspent.room

end MpQuic.Stms

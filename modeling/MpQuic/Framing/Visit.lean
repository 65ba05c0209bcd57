import MpQuic.Framing.Defs

namespace MpQuic.Framing

open MpQuic.Library MpQuic.Wire MpQuic.FlowControl List Function Option

def Stream.pending (s : Stream) : List UInt8 :=
  s.dataForWriting.getD []

structure Advanced (s t : Stream) (n : Nat) : Prop where
  err : t.err = s.err
  finishedWriting : t.finishedWriting = s.finishedWriting
  finSent : t.finSent = s.finSent
  writeOffset : t.writeOffset = s.writeOffset + n

namespace Advanced

variable {s t u : Stream}

theorem refl (s : Stream) : Advanced s s 0 :=
  ⟨rfl, rfl, rfl, rfl⟩

theorem trans {n m : Nat} (h₁ : Advanced s t n) (h₂ : Advanced t u m) : Advanced s u (n + m) := by
  refine ⟨h₂.err.trans h₁.err, h₂.finishedWriting.trans h₁.finishedWriting,
    h₂.finSent.trans h₁.finSent, ?_⟩
  rw [h₂.writeOffset, h₁.writeOffset, Nat.add_assoc]

end Advanced

namespace Framer

@[simp] theorem streams_setStream_self (f : Framer) (streamID : Nat) (s : Stream) :
    (f.setStream streamID s).streams streamID = some s := by
  show update f.streams streamID (some s) streamID = some s
  rw [update_self]

theorem streams_setStream_of_ne (f : Framer) {streamID id : Nat} (s : Stream) (h : id ≠ streamID) :
    (f.setStream streamID s).streams id = f.streams id := by
  show update f.streams streamID (some s) id = f.streams id
  rw [update_of_ne h]

end Framer

section Data

variable {s : Stream}

theorem getDataForWriting_spec (maxBytes : Nat) (herr : s.err = false) :
    Advanced s (s.getDataForWriting maxBytes).1
        ((s.getDataForWriting maxBytes).2.getD []).length ∧
      (s.getDataForWriting maxBytes).2.getD [] = s.pending.take maxBytes ∧
      (s.getDataForWriting maxBytes).1.pending = s.pending.drop maxBytes ∧
      ((s.getDataForWriting maxBytes).2 = none ↔ s.dataForWriting = none) := by
  unfold Stream.getDataForWriting Stream.pending
  rw [herr, if_neg Bool.false_ne_true]
  cases hd : s.dataForWriting with
  | none => exact ⟨Advanced.refl s, by simp, by simp [hd], by simp⟩
  | some data =>
    by_cases hlong : data.length > maxBytes
    · simp only [if_pos hlong, getD_some]
      refine ⟨⟨herr.symm, rfl, rfl, ?_⟩, trivial, trivial, by simp⟩
      rw [length_take, Nat.min_eq_left (Nat.le_of_lt hlong)]
    · have hshort : data.length ≤ maxBytes := Nat.le_of_not_gt hlong
      simp only [if_neg hlong, getD_some, getD_none]
      refine ⟨⟨herr.symm, rfl, rfl, rfl⟩, ?_, ?_, by simp⟩
      · rw [take_of_length_le hshort]
      · rw [drop_of_length_le hshort]

theorem advanced_addPattern (pattern : List UInt8) :
    Advanced s (s.addPattern pattern) pattern.length :=
  ⟨rfl, rfl, rfl, rfl⟩

theorem gatherHeaders_advanced (pattern : List UInt8) (patterncnt : Nat) {s t : Stream}
    {data : Option (List UInt8)} (maxLen : Nat) (wrapped : Bool) (herr : t.err = false)
    (h : Advanced s t (data.getD []).length) :
    Advanced s (t.gatherHeaders pattern patterncnt data maxLen wrapped).stream
      ((t.gatherHeaders pattern patterncnt data maxLen wrapped).data.getD []).length := by
  induction patterncnt generalizing t data maxLen wrapped with
  | zero => exact h
  | succ patterncnt ih =>
    obtain ⟨htaken, -, -, -⟩ := getDataForWriting_spec headerlen herr
    have hnext := (h.trans htaken).trans (advanced_addPattern pattern)
    apply ih
    · rw [hnext.err, ← h.err, herr]
    · rw [getD_some, length_append, length_append]
      exact hnext

theorem gather_advanced (pattern : List UInt8) (patterncnt maxLen : Nat) (herr : s.err = false) :
    Advanced s (s.gather pattern patterncnt maxLen).stream
      ((s.gather pattern patterncnt maxLen).data.getD []).length := by
  obtain ⟨htaken, -, -, -⟩ := getDataForWriting_spec maxLen herr
  unfold Stream.gather
  split
  · split
    · have hfirst := htaken.trans (advanced_addPattern pattern)
      apply gatherHeaders_advanced
      · rw [hfirst.err, herr]
      · rw [getD_some, length_append, Nat.add_comm]
        exact hfirst
    · exact gatherHeaders_advanced pattern patterncnt maxLen false herr (Advanced.refl s)
  · exact htaken

theorem updateIndices_eq {t : Stream} {maxLen : Int} (h : s.updateIndices maxLen = t) :
    ∃ start stop, t = { s with iStartinx := start, iEndinx := stop } := by
  subst h
  unfold Stream.updateIndices
  split_ifs <;> exact ⟨_, _, rfl⟩

theorem dropToHeader_advanced {t : Stream} {data : List UInt8}
    (h : s.dropToHeader data = some t) : Advanced s t 0 := by
  obtain ⟨rest, -, rfl⟩ := map_eq_some_iff.mp h
  exact ⟨rfl, rfl, rfl, rfl⟩

variable {flag iPriority lackbw : Bool} {maxLen : Nat} {d : Discarded}

theorem discardLack_advanced (h : s.discardLack flag maxLen = some d) : Advanced s d.stream 0 := by
  unfold Stream.discardLack at h
  dsimp only at h
  split at h
  · cases h
    exact ⟨rfl, rfl, rfl, rfl⟩
  split at h
  · split at h
    · obtain ⟨t, ht, rfl⟩ := map_eq_some_iff.mp h
      have hdrop := dropToHeader_advanced ht
      exact ⟨hdrop.err, hdrop.finishedWriting, hdrop.finSent, hdrop.writeOffset⟩
    · obtain ⟨headers, -, rfl⟩ := map_eq_some_iff.mp h
      exact ⟨rfl, rfl, rfl, rfl⟩
  split at h
  · split at h <;> cases h <;> exact ⟨rfl, rfl, rfl, rfl⟩
  · cases h
    exact Advanced.refl s

theorem discardRest_advanced (h : s.discardRest = some d) : Advanced s d.stream 0 := by
  unfold Stream.discardRest at h
  dsimp only at h
  split at h
  · obtain ⟨t, ht, rfl⟩ := map_eq_some_iff.mp h
    have hdrop := dropToHeader_advanced ht
    exact ⟨hdrop.err, hdrop.finishedWriting, hdrop.finSent, hdrop.writeOffset⟩
  split at h <;> cases h <;> exact ⟨rfl, rfl, rfl, rfl⟩

theorem discard_stream (h : s.discard iPriority lackbw flag maxLen = some d) :
    (iPriority = true ∧ lackbw = true ∧ s.nextHeaderOff.first ≠ -3 ∧
      ∃ flag', s.discardLack flag maxLen = some { d with flagBwUnenough := flag' }) ∨
    (iPriority = true ∧ lackbw = false ∧ flag = true ∧ s.discardRest = some d) ∨
    ((iPriority = true → lackbw = false ∧ flag = false ∨ s.nextHeaderOff.first = -3) ∧
      d.stream = s ∧ d.retPattern = [] ∧ d.retPatternCnt = 0) := by
  unfold Stream.discard at h
  obtain ⟨first, hfirst, rfl⟩ := map_eq_some_iff.mp h
  split at hfirst
  next hlack =>
    simp only [Bool.and_eq_true, decide_eq_true_eq] at hlack
    left
    refine ⟨hlack.1.1, hlack.1.2, hlack.2, first.flagBwUnenough, ?_⟩
    split <;> exact hfirst
  next hlack =>
    right
    split at hfirst
    next hrest =>
      simp only [Bool.and_eq_true, Bool.not_eq_true'] at hrest
      left
      refine ⟨hrest.1.1, hrest.1.2, hrest.2, ?_⟩
      rw [if_neg (by simp [hrest.1.2])]
      exact hfirst
    next hrest =>
      right
      cases hfirst
      refine ⟨?_, by split <;> exact ⟨rfl, rfl, rfl⟩⟩
      intro hon
      simp only [hon, Bool.true_and, Bool.and_eq_true, decide_eq_true_eq, not_and, not_not] at hlack
      cases lackbw with
      | false =>
        rw [hon] at hrest
        exact Or.inl ⟨rfl, by simpa using hrest⟩
      | true => exact Or.inr (hlack rfl)

theorem discard_advanced
    (h : s.discard iPriority lackbw flag maxLen = some d) : Advanced s d.stream 0 := by
  rcases discard_stream h with ⟨-, -, -, flag', hlack⟩ | ⟨-, -, -, hrest⟩ | ⟨-, hsame, -, -⟩
  · have hkept := discardLack_advanced hlack
    exact hkept
  · exact discardRest_advanced hrest
  · rw [hsame]
    exact Advanced.refl s

end Data

variable {s : Stream} {lackbw flag flag' : Bool} {maxLen : Nat} {gathered : Gathered}

theorem takeData_advanced {iPriority : Bool} (herr : s.err = false)
    (h : s.takeData iPriority lackbw flag maxLen = some (gathered, flag')) :
    Advanced s gathered.stream (gathered.data.getD []).length := by
  obtain ⟨d, hd, he⟩ := map_eq_some_iff.mp h
  cases he
  have hdiscard := discard_advanced hd
  have hgather := gather_advanced d.retPattern d.retPatternCnt maxLen
    (hdiscard.err.trans herr)
  have hall := hdiscard.trans hgather
  rw [Nat.zero_add] at hall
  dsimp only
  generalize hindices : Stream.updateIndices _ _ = settled
  obtain ⟨start, stop, rfl⟩ := updateIndices_eq hindices
  exact ⟨hall.err, hall.finishedWriting, hall.finSent, hall.writeOffset⟩

theorem takeData_plain (herr : s.err = false)
    (h : s.takeData false lackbw flag maxLen = some (gathered, flag')) :
    gathered.data.getD [] = s.pending.take maxLen ∧
      gathered.stream.pending = s.pending.drop maxLen ∧ gathered.wrapped = false ∧ flag' = flag := by
  obtain ⟨d, hd, he⟩ := map_eq_some_iff.mp h
  have hsame : d = ⟨s, flag, [], 0⟩ := by
    simpa [Stream.discard] using hd.symm
  subst hsame
  cases he
  obtain ⟨-, hdata, hrest, -⟩ := getDataForWriting_spec maxLen herr
  dsimp only
  generalize hindices : Stream.updateIndices _ _ = settled
  obtain ⟨start, stop, rfl⟩ := updateIndices_eq hindices
  exact ⟨hdata, hrest, rfl, rfl⟩

-- The stream that a visit is about, unless the iteration is over or passes it by.
def Visit.target (st : PopState) : Visit → Option Nat
  | .prioritized streamID => if st.cont then some streamID else none
  | .inTurn streamID =>
    if st.cont = true ∧ streamID ≠ 1 ∧ streamID ≠ 3 then some streamID else none

def maxLenFor (maxBytes : Nat) (st : PopState) (streamID : Nat) (s : Stream) : Nat :=
  if s.lenOfDataForWriting ≠ 0 then
    min (maxBytes - st.currentLen - frameHeaderBytes streamID s)
      (st.framer.flowControlManager.sendWindowSize streamID)
  else maxBytes - st.currentLen - frameHeaderBytes streamID s

def HasRoom (maxBytes : Nat) (st : PopState) (streamID : Nat) (s : Stream) : Prop :=
  streamID ≠ 1 ∧ st.currentLen + frameHeaderBytes streamID s ≤ maxBytes ∧
    maxLenFor maxBytes st streamID s ≠ 0

instance (maxBytes : Nat) (st : PopState) (streamID : Nat) (s : Stream) :
    Decidable (HasRoom maxBytes st streamID s) :=
  inferInstanceAs (Decidable (_ ∧ _ ∧ _))

def asks (maxBytes : Nat) (st : PopState) (v : Visit) : Option (Nat × Stream) :=
  match v.target st with
  | none => none
  | some streamID =>
    match st.framer.streams streamID with
    | none => none
    | some s => if HasRoom maxBytes st streamID s then some (streamID, s) else none

structure Asked (maxBytes : Nat) (lackbw : Bool) (st : PopState) (streamID : Nat) (s : Stream)
    (maxLen : Nat) (gathered : Gathered) (flag : Bool) : Prop where
  stream : st.framer.streams streamID = some s
  ne_one : streamID ≠ 1
  header : st.currentLen + frameHeaderBytes streamID s ≤ maxBytes
  maxLen_eq : maxLen = maxLenFor maxBytes st streamID s
  maxLen_ne : maxLen ≠ 0
  data : popData st.framer lackbw maxLen s = some (gathered, flag)

def Framer.charge (f : Framer) (streamID : Nat) (t : Stream) (flag : Bool) (n : Nat)
    (blocked : List BlockedFrame) : Framer :=
  { f.setStream streamID t with
    flagBwUnenough := flag
    flowControlManager := f.flowControlManager.addBytesSent streamID n
    blockedFrameQueue := f.blockedFrameQueue ++ blocked }

-- The three things that a visit can do: it moves on, or it takes from a stream that
-- has nothing for a frame, or it puts out one frame. The round robin index may change.
inductive Visited (maxBytes : Nat) (lackbw : Bool) (st : PopState) :
    Option (Nat × Stream) → PopState → List Emission → Prop
  | idle (index : Nat) (cont : Bool) :
      Visited maxBytes lackbw st none
        ⟨{ st.framer with roundRobinIndex := index }, st.currentLen, cont⟩ []
  | silent (streamID maxLen index : Nat) (s : Stream) (gathered : Gathered) (flag cont : Bool)
      (asked : Asked maxBytes lackbw st streamID s maxLen gathered flag)
      (data : gathered.data = none) (fin : gathered.stream.shouldSendFin = false) :
      Visited maxBytes lackbw st (some (streamID, s))
        ⟨{ st.framer.setStream streamID gathered.stream with
            flagBwUnenough := flag, roundRobinIndex := index }, st.currentLen, cont⟩ []
  | framed (streamID maxLen index : Nat) (s : Stream) (gathered : Gathered) (flag cont : Bool)
      (blocked : List BlockedFrame)
      (asked : Asked maxBytes lackbw st streamID s maxLen gathered flag)
      (due : gathered.data ≠ none ∨ gathered.stream.shouldSendFin = true) :
      Visited maxBytes lackbw st (some (streamID, s))
        ⟨{ st.framer.charge streamID
              (if gathered.stream.shouldSendFin then gathered.stream.sentFin else gathered.stream)
              flag (gathered.data.getD []).length blocked with roundRobinIndex := index },
          st.currentLen + (frameHeaderBytes streamID s + (gathered.data.getD []).length), cont⟩
        [⟨⟨streamID, gathered.stream.shouldSendFin, true, s.writeOffset, gathered.data.getD []⟩,
          maxBytes - st.currentLen, st.framer.flowControlManager.sendWindowSize streamID,
          st.framer.streamWindow streamID, st.framer.connWindow, gathered.wrapped⟩]

section Visited

variable {maxBytes : Nat} {lackbw : Bool} {st next : PopState} {out : List Emission}

theorem Visited.moveOn {asked : Option (Nat × Stream)}
    (h : Visited maxBytes lackbw st asked next out) :
    Visited maxBytes lackbw st asked next.moveOn out := by
  cases h with
  | idle index cont => exact .idle _ cont
  | silent streamID maxLen index s gathered flag cont asked data fin =>
    exact .silent streamID maxLen _ s gathered flag cont asked data fin
  | framed streamID maxLen index s gathered flag cont blocked asked due =>
    exact .framed streamID maxLen _ s gathered flag cont blocked asked due

theorem popFromStream_eq (streamID : Nat) (s : Stream) :
    popFromStream maxBytes lackbw st streamID s =
      if streamID = 1 then some (st, [])
      else if st.currentLen + frameHeaderBytes streamID s > maxBytes then
        some ({ st with cont := false }, [])
      else if maxLenFor maxBytes st streamID s = 0 then some (st, [])
      else
        (popData st.framer lackbw (maxLenFor maxBytes st streamID s) s).map fun popped =>
          finishFrame maxBytes (if s.lenOfDataForWriting ≠ 0 then
              st.framer.flowControlManager.sendWindowSize streamID else 0)
            (frameHeaderBytes streamID s) streamID st s popped.1 popped.2 := by
  unfold popFromStream maxLenFor
  by_cases hlen : s.lenOfDataForWriting ≠ 0
  · simp only [if_pos hlen]
  · simp only [if_neg hlen]

theorem popFromStream_visited {streamID : Nat} {s : Stream}
    (hs : st.framer.streams streamID = some s)
    (h : popFromStream maxBytes lackbw st streamID s = some (next, out)) :
    Visited maxBytes lackbw st
      (if HasRoom maxBytes st streamID s then some (streamID, s) else none) next out := by
  rw [popFromStream_eq] at h
  split at h
  next hone =>
    cases h
    rw [if_neg (fun hroom => hroom.1 hone)]
    exact .idle st.framer.roundRobinIndex st.cont
  next hone =>
  split at h
  next hheader =>
    cases h
    rw [if_neg (fun hroom => absurd hroom.2.1 (Nat.not_le_of_gt hheader))]
    exact .idle st.framer.roundRobinIndex false
  next hheader =>
  split at h
  next hmax =>
    cases h
    rw [if_neg (fun hroom => hroom.2.2 hmax)]
    exact .idle st.framer.roundRobinIndex st.cont
  next hmax =>
  obtain ⟨⟨gathered, flag⟩, hdata, he⟩ := map_eq_some_iff.mp h
  have asked : Asked maxBytes lackbw st streamID s _ gathered flag :=
    ⟨hs, hone, Nat.le_of_not_gt hheader, rfl, hmax, hdata⟩
  rw [if_pos ⟨hone, Nat.le_of_not_gt hheader, hmax⟩]
  unfold finishFrame at he
  dsimp only at he
  split at he
  next hnone =>
    simp only [Bool.and_eq_true, isNone_iff_eq_none, Bool.not_eq_true'] at hnone
    cases he
    exact .silent streamID _ st.framer.roundRobinIndex s gathered flag st.cont asked hnone.1 hnone.2
  next hsome =>
    have hdue : gathered.data ≠ none ∨ gathered.stream.shouldSendFin = true := by
      by_contra hno
      simp only [not_or, not_not, Bool.not_eq_true] at hno
      exact hsome (by simp [hno.1, hno.2])
    cases he
    exact .framed streamID _ st.framer.roundRobinIndex s gathered flag _ _ asked hdue

variable {v : Visit}

theorem visited_asks (h : visit maxBytes lackbw st v = some (next, out)) :
    Visited maxBytes lackbw st (asks maxBytes st v) next out := by
  have hidle : Visited maxBytes lackbw st none st [] := .idle st.framer.roundRobinIndex st.cont
  unfold asks
  cases v with
  | prioritized streamID =>
    unfold visit at h
    unfold Visit.target
    dsimp only at h ⊢
    by_cases hcont : st.cont = false
    · rw [if_pos hcont] at h
      rw [if_neg (by simp [hcont])]
      cases h
      exact hidle
    · rw [if_neg hcont] at h
      rw [if_pos (by simpa using hcont)]
      cases hs : st.framer.streams streamID with
      | none =>
        simp only [hs] at h ⊢
        cases h
        exact hidle
      | some s =>
        simp only [hs] at h ⊢
        exact popFromStream_visited hs h
  | inTurn streamID =>
    unfold visit at h
    unfold Visit.target
    dsimp only at h ⊢
    by_cases hcont : st.cont = false
    · rw [if_pos hcont] at h
      rw [if_neg (by simp [hcont])]
      cases h
      exact hidle
    rw [if_neg hcont] at h
    by_cases hfirst : streamID = 1 ∨ streamID = 3
    · rw [if_pos hfirst] at h
      rw [if_neg (by omega)]
      cases h
      exact hidle
    · rw [if_neg hfirst] at h
      rw [if_pos ⟨by simpa using hcont, by omega, by omega⟩]
      cases hs : st.framer.streams streamID with
      | none =>
        simp only [hs] at h ⊢
        cases h
        exact .idle st.framer.roundRobinIndex false
      | some s =>
        simp only [hs] at h ⊢
        obtain ⟨⟨popped, later⟩, hpop, he⟩ := map_eq_some_iff.mp h
        cases he
        exact (popFromStream_visited hs hpop).moveOn

theorem visit_visited (h : visit maxBytes lackbw st v = some (next, out)) :
    ∃ asked, asks maxBytes st v = asked ∧ Visited maxBytes lackbw st asked next out :=
  ⟨_, rfl, visited_asks h⟩

end Visited

theorem pop_keeps (inv : List Emission → Framer → Prop) {cond : PopState → Visit → Prop}
    {maxBytes : Nat} {f f' : Framer} (log : List Emission) {out : List Emission}
    (hvisit : ∀ log st v next out, inv log st.framer → cond st v →
      visit maxBytes lackbw st v = some (next, out) → inv (log ++ out) next.framer)
    (h : inv log f) (hcond : Along (visit maxBytes lackbw) cond ⟨f, 0, true⟩ f.visits)
    (hpop : maybePopNormalFrames f maxBytes lackbw = some (f', out)) : inv (log ++ out) f' := by
  obtain ⟨⟨last, emitted⟩, hrun, he⟩ := map_eq_some_iff.mp hpop
  cases he
  exact run_invariant (fun _ log st => inv log st.framer)
    (fun _ log st v next out hinv hc hs => hvisit log st v next out hinv hc hs)
    [] log ⟨f, 0, true⟩ last f.visits emitted h hcond hrun

end MpQuic.Framing

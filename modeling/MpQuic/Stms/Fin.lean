import MpQuic.Stms.Theorems
import MpQuic.Stms.Framer

namespace MpQuic.Stms.Fin

open MpQuic.Library MpQuic.Wire List Option

inductive Event where
  | write (p : List UInt8)
  | close
  | pop (gap : Int) (maxLen sendWindowSize : Nat)
  deriving DecidableEq, Repr

def step (streamID : Nat) (s : Stream) : Event → Option (Stream × List StreamFrame)
  | .write p => some (s.write p, [])
  | .close => some (s.close, [])
  | .pop gap maxLen sendWindowSize =>
    (popStreamFrame streamID s gap maxLen sendWindowSize).map fun popped =>
      (popped.1, popped.2.toList)

def Event.payload : Event → List UInt8
  | .write p => p
  | _ => []

-- The bytes the stream has taken from the application. `Write` refuses the call
-- once `Close` has been called.
def accepted (events : List Event) : List UInt8 :=
  (events.takeWhile fun event => event ≠ .close).flatMap Event.payload

def Ready (s : Stream) : Event → Prop
  | .write _ => s.finishedWriting = true ∨ s.dataForWriting = none
  | .close => True
  | .pop gap _ _ => gap = -1 ∨ 0 ≤ gap

-- When the FIN is due, no slower path with a positive gap sends it without data
-- while the offsets agree, and the fastest path does not empty the buffer by
-- filling the hole.
def FinSafe (s : Stream) : Event → Prop
  | .pop gap maxLen sendWindowSize =>
    s.finishedWriting = true → s.finSent = false → maxLen ≠ 0 →
      match s.dataForWriting with
      | none => 0 < gap → s.writeOffsetSS < s.writeOffsetSN
      | some data => gap = -1 → s.writeOffsetF < s.writeOffsetSS →
          data.length = s.writeOffsetSS - s.writeOffsetF →
            min maxLen sendWindowSize < data.length
  | _ => True

instance (s : Stream) : (event : Event) → Decidable (Ready s event)
  | .write _ => inferInstanceAs (Decidable (_ = true ∨ _ = none))
  | .close => isTrue trivial
  | .pop gap _ _ => inferInstanceAs (Decidable (gap = -1 ∨ 0 ≤ gap))

instance (s : Stream) : (event : Event) → Decidable (FinSafe s event)
  | .write _ | .close => isTrue trivial
  | .pop gap maxLen sendWindowSize =>
    match h : s.dataForWriting with
    | none => decidable_of_iff
        (s.finishedWriting = true → s.finSent = false → maxLen ≠ 0 →
          0 < gap → s.writeOffsetSS < s.writeOffsetSN) (by simp [FinSafe, h])
    | some data => decidable_of_iff
        (s.finishedWriting = true → s.finSent = false → maxLen ≠ 0 →
          gap = -1 → s.writeOffsetF < s.writeOffsetSS →
            data.length = s.writeOffsetSS - s.writeOffsetF →
              min maxLen sendWindowSize < data.length) (by simp [FinSafe, h])

def FinAtEnd (bytes : List UInt8) (frames : List StreamFrame) : Prop :=
  ∀ f ∈ frames, f.finBit = true → f.offset + f.data.length = bytes.length

section Pop

variable {s : Stream} {bytes : List UInt8} (streamID : Nat) {gap : Int} (maxLen window : Nat)

structure Popped (s : Stream) (bytes : List UInt8) (event : Event) (t : Stream)
    (frames : List StreamFrame) : Prop where
  layout : Layout t bytes
  due : (∃ f ∈ frames, f.finBit = true) → s.finishedWriting = true ∧ s.finSent = false
  finSent : t.finSent = true ↔ s.finSent = true ∨ ∃ f ∈ frames, f.finBit = true
  once : (frames.filter (·.finBit)).length ≤ 1
  safe : FinAtEnd bytes frames ↔ FinSafe s event

theorem shouldSendFin_iff (herr : s.err = false) :
    s.shouldSendFin = true ↔
      s.finishedWriting = true ∧ s.finSent = false ∧ s.dataForWriting = none := by
  simp [Stream.shouldSendFin, herr, and_assoc]

variable {event : Event} {t : Stream} {data : List UInt8} {taken : Taken}

theorem popped_without_fin {frames : List StreamFrame} (hl : Layout t bytes)
    (hsame : t.finSent = s.finSent) (hnone : ∀ f ∈ frames, f.finBit = false)
    (hsafe : FinSafe s event) : Popped s bytes event t frames := by
  have hno : ¬∃ f ∈ frames, f.finBit = true := by
    rintro ⟨f, hf, hfin⟩
    rw [hnone f hf] at hfin
    cases hfin
  refine ⟨hl, fun h => absurd h hno, by simp [hsame, hno], ?_, ?_⟩
  · rw [filter_eq_nil_iff.mpr (by simpa using hnone)]
    exact Nat.zero_le _
  · exact iff_of_true (fun f hf hfin => absurd ⟨f, hf, hfin⟩ hno) hsafe

theorem popped_with_fin {f : StreamFrame} (hl : Layout t bytes)
    (hdue : s.finishedWriting = true ∧ s.finSent = false) (hsent : t.finSent = true)
    (hfin : f.finBit = true) (hsafe : f.offset + f.data.length = bytes.length ↔ FinSafe s event) :
    Popped s bytes event t [f] := by
  refine ⟨hl, fun _ => hdue, by simp [hsent, hfin], ?_, ?_⟩
  · exact length_filter_le _ _
  · rw [← hsafe]
    simp [FinAtEnd, hfin]

section

variable (h : Layout s bytes)

include h

theorem layout_close : Layout s.close bytes :=
  ⟨⟨h.offsets.fastest, h.offsets.slower, h.offsets.closed, h.offsets.hole⟩, h.err, h.bound,
    h.data, h.nonempty⟩

theorem layout_sentFin : Layout s.sentFin bytes :=
  ⟨⟨h.offsets.fastest, h.offsets.slower, h.offsets.closed, h.offsets.hole⟩, h.err, h.bound,
    h.data, h.nonempty⟩

theorem frameOffset_of_nil (hd : s.dataForWriting = none) (gap : Int) :
    frameOffset s gap = bytes.length ↔ (0 < gap → s.writeOffsetSS < s.writeOffsetSN) := by
  obtain ⟨hsame, hend⟩ := h.of_nil hd
  have hclosed := h.offsets.closed
  have hslower := h.offsets.slower
  simp only [frameOffset]
  split_ifs <;> omega

theorem pop_of_nil (hd : s.dataForWriting = none) (gap : Int) :
    ∃ t frames, step streamID s (.pop gap maxLen window) = some (t, frames) ∧
      t.finishedWriting = s.finishedWriting ∧ Popped s bytes (.pop gap maxLen window) t frames := by
  have hpop := popStreamFrame_nil streamID gap maxLen window hd
  simp only [step, hpop, map_some]
  by_cases hfin : maxLen ≠ 0 ∧ s.shouldSendFin = true
  · obtain ⟨hdue, hunsent, -⟩ := (shouldSendFin_iff h.err).mp hfin.2
    rw [if_pos hfin]
    refine ⟨_, _, rfl, rfl, popped_with_fin (layout_sentFin h) ⟨hdue, hunsent⟩ rfl rfl ?_⟩
    rw [length_nil, Nat.add_zero, frameOffset_of_nil h hd]
    simp only [FinSafe, hdue, hunsent, hfin.1, hd, ne_eq, not_false_eq_true, forall_const]
  · rw [if_neg hfin]
    refine ⟨_, _, rfl, rfl, popped_without_fin h rfl (by simp) ?_⟩
    intro hdue hunsent hm
    exact absurd ⟨hm, (shouldSendFin_iff h.err).mpr ⟨hdue, hunsent, hd⟩⟩ hfin

theorem end_of_emptied {m : Nat} {ret : List UInt8} (hd : s.dataForWriting = some data) (hm : 1 ≤ m)
    (hg : gap = -1 ∨ 0 ≤ gap) (ht : getDataForWritingSTMS s m gap = some taken)
    (hret : taken.ret = some ret) (hnil : taken.stream.dataForWriting = none) :
    frameOffset s gap + ret.length = bytes.length ↔
      (gap = -1 → s.writeOffsetF < s.writeOffsetSS →
        data.length = s.writeOffsetSS - s.writeOffsetF → m < data.length) := by
  have hout := getDataForWritingSTMS_outcome hd ht
  have ho := h.offsets
  have hl := h.length hd
  obtain ⟨-, hend⟩ := (hout.served h hd hm (by omega)).layout.of_nil hnil
  cases hout with
  | idle => cases hret
  | stuck count hlen hshort =>
    have := ho.fastest
    omega
  | fill hlen hle hopen =>
    simp only [Stream.keep, length_drop, ite_eq_left_iff, reduceCtorEq, imp_false] at hnil
    omega
  | meet hlen hmax hopen =>
    have hsize : ret.length = s.writeOffsetSS - s.writeOffsetF := by
      cases hret
      exact length_take_of_le hlen
    have hslower := ho.slower
    have hclosed := ho.closed
    simp only [Stream.keep] at hend
    rw [frameOffset_hole (by omega) hopen]
    omega
  | follow count hlen hclosed =>
    have hsize : ret.length = count := by
      cases hret
      simp only [length_take]
      omega
    simp only [Stream.keep] at hend
    rw [frameOffset_in_order (by omega) ho hclosed]
    omega
  | alone => omega
  | behind gap count hgap hhole hlen hopen =>
    have hsize : ret.length = count := by
      cases hret
      simp only [length_take, length_drop]
      omega
    simp only [Stream.keep] at hend
    rw [frameOffset_behind hopen]
    omega
  | jump gap count hgap hlen hclosed =>
    have hsize : ret.length = count := by
      cases hret
      simp only [length_take, length_drop]
      omega
    simp only [Stream.keep] at hend
    rw [frameOffset_jump ho hclosed]
    omega

theorem emptied_of_hole {m : Nat} (hd : s.dataForWriting = some data)
    (hg : gap = -1) (ht : getDataForWritingSTMS s m gap = some taken)
    (hopen : s.writeOffsetF < s.writeOffsetSS)
    (hsize : data.length = s.writeOffsetSS - s.writeOffsetF) (hm : data.length ≤ m) :
    taken.stream.dataForWriting = none := by
  cases getDataForWritingSTMS_outcome hd ht with
  | idle _ hmode => exact absurd hg (hmode h.err).1
  | stuck count hlen hshort => omega
  | fill hlen => omega
  | meet => simp only [Stream.keep, length_drop, ← hsize, Nat.sub_self, if_true]
  | _ => omega

theorem pop_of_data (hd : s.dataForWriting = some data)
    (hg : gap = -1 ∨ 0 ≤ gap) :
    ∃ t frames, step streamID s (.pop gap maxLen window) = some (t, frames) ∧
      t.finishedWriting = s.finishedWriting ∧ Popped s bytes (.pop gap maxLen window) t frames := by
  have hlen : s.lenOfDataForWriting ≠ 0 := by
    have hne : data ≠ [] := by rintro rfl; exact h.nonempty hd
    simpa [Stream.lenOfDataForWriting, h.err, hd] using hne
  by_cases hm : min maxLen window = 0
  · have hpop := popStreamFrame_blocked streamID gap maxLen window hlen hm
    simp only [step, hpop, map_some]
    refine ⟨_, _, rfl, rfl, popped_without_fin h rfl (by simp) ?_⟩
    simp only [FinSafe, hd]
    intro _ _ _ _ hopen hsize
    omega
  obtain ⟨taken, ht, hserved⟩ :=
    getDataForWritingSTMS_served h (Nat.pos_of_ne_zero hm) gap (by omega)
  have hflags := getDataForWritingSTMS_flags ht
  have hpop := popStreamFrame_data streamID gap maxLen window hlen hm ht
  simp only [step, hpop, map_some]
  have hfields := hflags
  simp only [Stream.flags, Prod.mk.injEq] at hfields
  have hdue := shouldSendFin_iff (s := taken.stream) hserved.layout.err
  rw [hfields.2.1, hfields.2.2] at hdue
  cases hfin : taken.stream.shouldSendFin with
  | true =>
    obtain ⟨hclosed, hunsent, hnil⟩ := hdue.mp hfin
    obtain ⟨ret, hret⟩ : ∃ ret, taken.ret = some ret := by
      rcases hserved.sends with ⟨-, hsame⟩ | ⟨ret, hret, -⟩
      · rw [hsame, hd] at hnil
        cases hnil
      · exact ⟨ret, hret⟩
    simp only [reduceCtorEq, and_false, if_false, if_true, toList_some]
    refine ⟨_, _, rfl, hfields.2.1, popped_with_fin (layout_sentFin hserved.layout) ⟨hclosed, hunsent⟩
      rfl rfl ?_⟩
    have hend := end_of_emptied h hd (Nat.pos_of_ne_zero hm) hg ht hret hnil
    have hroom : maxLen ≠ 0 := by omega
    simp only [hret, getD_some, hend, FinSafe, hclosed, hunsent, hroom, hd, ne_eq,
      not_false_eq_true, forall_const]
  | false =>
    have hsafe : FinSafe s (.pop gap maxLen window) := by
      simp only [FinSafe, hd]
      intro hclosed hunsent _ hfast hopen hsize
      by_contra hle
      have hnil := emptied_of_hole h hd hfast ht hopen hsize (by omega)
      rw [hdue.mpr ⟨hclosed, hunsent, hnil⟩] at hfin
      cases hfin
    by_cases hnone : taken.ret = none
    · rw [if_pos ⟨hnone, rfl⟩]
      exact ⟨_, _, rfl, hfields.2.1, popped_without_fin hserved.layout hfields.2.2 (by simp) hsafe⟩
    · rw [if_neg (fun hand => hnone hand.1)]
      exact ⟨_, _, rfl, hfields.2.1, popped_without_fin hserved.layout hfields.2.2 (by simp) hsafe⟩

end

end Pop

section Run

variable (streamID : Nat)

theorem accepted_snoc (past : List Event) (event : Event) :
    accepted (past ++ [event]) =
      accepted past ++ if .close ∈ past then [] else event.payload := by
  induction past with
  | nil => cases event <;> simp [accepted, Event.payload]
  | cons head tail ih =>
    by_cases hh : head = .close
    · simp [accepted, hh]
    · simp only [accepted, cons_append, ne_eq, hh, not_false_eq_true, decide_true,
        takeWhile_cons_of_pos, flatMap_cons, append_assoc, mem_cons,
        Ne.symm hh, false_or]
      exact congrArg (head.payload ++ ·) ih

-- The state of a run: the stream knows whether it has been closed and whether
-- the FIN is out, and all FIN frames are in place exactly if every step was safe.
structure Finished (past : List Event) (log : List StreamFrame) (s : Stream) : Prop where
  run : run (step streamID) newStream past = some (s, log)
  layout : Layout s (accepted past)
  closed : s.finishedWriting = true ↔ .close ∈ past
  sent : s.finSent = true ↔ ∃ f ∈ log, f.finBit = true
  due : s.finSent = true → s.finishedWriting = true
  once : (log.filter (·.finBit)).length ≤ 1
  safe : FinAtEnd (accepted past) log ↔ Along (step streamID) FinSafe newStream past

theorem finAtEnd_append (bytes : List UInt8) (first second : List StreamFrame) :
    FinAtEnd bytes (first ++ second) ↔ FinAtEnd bytes first ∧ FinAtEnd bytes second := by
  simp only [FinAtEnd, mem_append, or_imp, forall_and]

variable {past : List Event} {log : List StreamFrame} {s : Stream} {event : Event}

theorem Finished.stable (h : Finished streamID past log s) (event : Event) :
    FinAtEnd (accepted (past ++ [event])) log ↔ FinAtEnd (accepted past) log := by
  by_cases hsent : ∃ f ∈ log, f.finBit = true
  · have hclosed := h.closed.mp (h.due (h.sent.mpr hsent))
    rw [accepted_snoc, if_pos hclosed, append_nil]
  · have hnone : ∀ bytes, FinAtEnd bytes log :=
      fun bytes f hf hfin => absurd ⟨f, hf, hfin⟩ hsent
    exact iff_of_true (hnone _) (hnone _)

theorem Finished.snoc {out : List StreamFrame} {t : Stream} (h : Finished streamID past log s)
    (hstep : step streamID s event = some (t, out))
    (hclosed : t.finishedWriting = true ↔ s.finishedWriting = true ∨ event = .close)
    (hp : Popped s (accepted (past ++ [event])) event t out) :
    Finished streamID (past ++ [event]) (log ++ out) t := by
  refine ⟨run_snoc h.run hstep, hp.layout, ?_, ?_, ?_, ?_, ?_⟩
  · rw [hclosed, h.closed, mem_append, mem_singleton, eq_comm (a := event)]
  · rw [hp.finSent, h.sent]
    simp only [mem_append, or_and_right, exists_or]
  · intro hsent
    rcases hp.finSent.mp hsent with hold | hnew
    · exact hclosed.mpr (Or.inl (h.due hold))
    · exact hclosed.mpr (Or.inl (hp.due hnew).1)
  · -- the FIN is not due in a step after the one that has sent it
    rw [filter_append, length_append]
    by_cases hnew : ∃ f ∈ out, f.finBit = true
    · have hold : log.filter (·.finBit) = [] := by
        rw [filter_eq_nil_iff]
        intro f hf hfin
        have := (hp.due hnew).2
        rw [h.sent.mpr ⟨f, hf, hfin⟩] at this
        cases this
      rw [hold, length_nil, Nat.zero_add]
      exact hp.once
    · have hout : out.filter (·.finBit) = [] := by
        rw [filter_eq_nil_iff]
        exact fun f hf hfin => hnew ⟨f, hf, hfin⟩
      rw [hout, length_nil, Nat.add_zero]
      exact h.once
  · rw [finAtEnd_append, h.stable, Along.snoc h.run, h.safe, hp.safe]

theorem step_finished (h : Finished streamID past log s) (hready : Ready s event) :
    ∃ t out, step streamID s event = some (t, out) ∧
      Finished streamID (past ++ [event]) (log ++ out) t := by
  have hbytes := accepted_snoc past event
  cases event with
  | write p =>
    refine ⟨s.write p, [], rfl, h.snoc streamID rfl (by simp [write_finishedWriting]) ?_⟩
    refine popped_without_fin ?_ (write_finSent s p) (by simp) trivial
    by_cases hclosed : s.finishedWriting = true
    · have hrefused : s.write p = s := by simp [Stream.write, hclosed]
      rw [hbytes, if_pos (h.closed.mp hclosed), append_nil, hrefused]
      exact h.layout
    · rw [hbytes, if_neg (fun hc => hclosed (h.closed.mpr hc))]
      exact h.layout.write_open (by simpa using hclosed) (hready.resolve_left hclosed) p
  | close =>
    refine ⟨s.close, [], rfl, h.snoc streamID rfl (by simp [Stream.close]) ?_⟩
    refine popped_without_fin ?_ rfl (by simp) trivial
    have hsame : accepted (past ++ [.close]) = accepted past := by
      rw [hbytes]
      split_ifs <;> simp [Event.payload]
    rw [hsame]
    exact layout_close h.layout
  | pop gap maxLen window =>
    have hsame : accepted (past ++ [.pop gap maxLen window]) = accepted past := by
      rw [hbytes]
      split_ifs <;> simp [Event.payload]
    have hpop : ∃ t frames, step streamID s (.pop gap maxLen window) = some (t, frames) ∧
        t.finishedWriting = s.finishedWriting ∧
          Popped s (accepted past) (.pop gap maxLen window) t frames := by
      cases hd : s.dataForWriting with
      | none => exact pop_of_nil streamID maxLen window h.layout hd gap
      | some data => exact pop_of_data streamID maxLen window h.layout hd hready
    obtain ⟨t, frames, hstep, hwriting, hp⟩ := hpop
    exact ⟨t, frames, hstep, h.snoc streamID hstep (by simp [hwriting]) (hsame ▸ hp)⟩

end Run

-- In a run of writes, closes and pops at most one frame has the FIN bit, and the
-- FIN ends up behind the last byte exactly when no pop breaks the rule.
theorem fin_at_end_iff (streamID : Nat) (events : List Event)
    (ha : Along (step streamID) Ready newStream events) :
    ∃ s frames, run (step streamID) newStream events = some (s, frames) ∧
      (((frames.filter (·.finBit)).length ≤ 1 ∧
          ∀ f ∈ frames, f.finBit = true → f.offset + f.data.length = (accepted events).length) ↔
        Along (step streamID) FinSafe newStream events) := by
  have hinit : Finished streamID [] [] newStream :=
    ⟨rfl, sent_newStream.layout, by simp [newStream], by simp [newStream], by simp [newStream],
      by simp, iff_of_true (by simp [FinAtEnd]) trivial⟩
  obtain ⟨s, frames, hrun, h⟩ := run_progress (Finished streamID)
    (fun _ _ _ _ hinv hcond => step_finished streamID hinv hcond) [] [] newStream events hinit ha
  simp only [List.nil_append] at h
  exact ⟨s, frames, hrun, by rw [← h.safe]; exact and_iff_right h.once⟩

theorem fin_at_end_iff_example :
    ∃ s frames, run (step 5) newStream
        [.write [1, 2, 3, 4], .pop 2 1 9, .close, .pop (-1) 9 9, .pop (-1) 9 9] =
          some (s, frames) ∧
      ∀ f ∈ frames, f.finBit = true → f.offset + f.data.length = 4 := by
  obtain ⟨s, frames, hrun, hiff⟩ := fin_at_end_iff 5
    [.write [1, 2, 3, 4], .pop 2 1 9, .close, .pop (-1) 9 9, .pop (-1) 9 9] (by decide)
  exact ⟨s, frames, hrun, (hiff.mpr (by decide)).2⟩

-- The frame that fills the hole empties the buffer and gets the FIN, although a
-- slower path has sent the last byte before.
theorem fin_inside_stream :
    ¬∀ (streamID : Nat) (events : List Event) (s : Stream) (frames : List StreamFrame),
      events.count .close = 1 → Along (step streamID) Ready newStream events →
        run (step streamID) newStream events = some (s, frames) →
          (frames.filter (·.finBit)).length ≤ 1 ∧
            ∀ f ∈ frames, f.finBit = true →
              f.offset + f.data.length = (accepted events).length := by
  intro h
  have hfin := (h 5 [.write [1, 2, 3], .pop 2 1 9, .close, .pop (-1) 9 9] _ _ (by decide)
    (by decide) rfl).2
  exact absurd (hfin ⟨5, true, true, 0, [1, 2]⟩ (by decide) rfl) (by decide)

end MpQuic.Stms.Fin

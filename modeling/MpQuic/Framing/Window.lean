import MpQuic.FlowControl.Send
import MpQuic.Framing.Offsets

namespace MpQuic.Framing

open MpQuic.Library MpQuic.Wire MpQuic.FlowControl List Function Option FlowControlManager
open MpQuic.Stms (contributesToConnection)

def Emission.share (e : Emission) : Nat :=
  if contributesToConnection e.frame.streamID then e.frame.dataLen else 0

def contributed (log : List Emission) : Nat :=
  (log.map Emission.share).sum

theorem contributed_append (first second : List Emission) :
    contributed (first ++ second) = contributed first + contributed second := by
  simp [contributed]

-- The first window update of a stream does not lower its window. Before it the
-- negotiated window is in force, with which the source does not compare the new one.
def KeepsWindow (f : Framer) : Event → Prop
  | .updateWindow streamID offset =>
    streamID = 0 ∨ offset = 0 ∨
      ((f.flowControlManager.streamFlowController streamID).all fun c =>
        c.sendWindow ≠ 0 || f.streamWindow streamID ≤ offset) = true
  | _ => True

instance (f : Framer) : (event : Event) → Decidable (KeepsWindow f event)
  | .updateWindow _ _ => inferInstanceAs (Decidable (_ ∨ _ ∨ _ = true))
  | .openStream _ | .write _ _ | .close _ | .flag _ | .pop _ _ => isTrue trivial

-- The counters agree with what was sent. A frame with bytes for the connection found
-- room for them in its window.
structure Charged (log : List Emission) (f : Framer) : Prop where
  off : f.iPriority = false
  counted : ∀ id s, f.streams id = some s → s.err = false ∧
    ∃ c, f.flowControlManager.streamFlowController id = some c ∧ c.bytesSent = s.writeOffset ∧
      c.contributesToConnection = contributesToConnection id
  absent : ∀ id, f.streams id = none → f.flowControlManager.streamFlowController id = none
  conn : f.flowControlManager.connFlowController.bytesSent = contributed log
  allowed : Logged (fun before e => e.share ≠ 0 → contributed before + e.share ≤ e.connWindow) log

def Below (f : Framer) : Prop :=
  ∀ id s, f.streams id = some s → s.writeOffset ≤ f.streamWindow id

def Fits (log : List Emission) : Prop :=
  ∀ e ∈ log, e.frame.offset + e.frame.dataLen ≤ e.streamWindow

structure Still (f f' : Framer) : Prop where
  iPriority : f'.iPriority = f.iPriority
  manager : f'.flowControlManager = f.flowControlManager
  streams : ∀ id, (f'.streams id).map (fun s => (s.err, s.writeOffset)) =
    (f.streams id).map fun s => (s.err, s.writeOffset)

section Still

variable {f f' : Framer} {log : List Emission} {streamID : Nat} {s t : Stream}

theorem Still.stream (h : Still f f') {u : Stream} (hu : f'.streams streamID = some u) :
    ∃ s, f.streams streamID = some s ∧ u.err = s.err ∧ u.writeOffset = s.writeOffset := by
  have hsame := h.streams streamID
  rw [hu, map_some] at hsame
  obtain ⟨s, hs, heq⟩ := map_eq_some_iff.mp hsame.symm
  simp only [Prod.mk.injEq] at heq
  exact ⟨s, hs, heq.1.symm, heq.2.symm⟩

theorem Still.charged (h : Still f f') (hc : Charged log f) : Charged log f' := by
  refine ⟨h.iPriority.trans hc.off, ?_, ?_, ?_, hc.allowed⟩
  · intro id u hu
    obtain ⟨s, hs, herr, hoffset⟩ := h.stream hu
    rw [h.manager, herr, hoffset]
    exact hc.counted id s hs
  · intro id hnone
    rw [h.manager]
    apply hc.absent id
    have hsame := h.streams id
    rw [hnone, map_none] at hsame
    exact map_eq_none_iff.mp hsame.symm
  · rw [h.manager]
    exact hc.conn

theorem Still.below (h : Still f f') (hb : Below f) : Below f' := by
  intro id u hu
  obtain ⟨s, hs, -, hoffset⟩ := h.stream hu
  unfold Framer.streamWindow
  rw [h.manager, hoffset]
  exact hb id s hs

theorem still_of_update (hs : f.streams streamID = some s) (hpriority : f'.iPriority = f.iPriority)
    (hmanager : f'.flowControlManager = f.flowControlManager)
    (hstreams : f'.streams = update f.streams streamID (some t))
    (herr : t.err = s.err) (hoffset : t.writeOffset = s.writeOffset) : Still f f' := by
  refine ⟨hpriority, hmanager, ?_⟩
  intro id
  rw [hstreams]
  by_cases hid : id = streamID
  · rw [hid, update_self, hs, map_some, map_some, herr, hoffset]
  · rw [update_of_ne hid]

end Still

section Visit

variable {maxBytes maxLen streamID : Nat} {lackbw flag : Bool} {st : PopState} {s : Stream}
  {gathered : Gathered}

variable {f f' : Framer} {t : Stream}

theorem popData_length_le (hoff : f.iPriority = false) (herr : s.err = false)
    (h : popData f lackbw maxLen s = some (gathered, flag)) :
    (gathered.data.getD []).length ≤ maxLen := by
  unfold popData at h
  split at h
  · rw [hoff] at h
    obtain ⟨hdata, -, -, -⟩ := takeData_plain herr h
    rw [hdata]
    exact length_take_le _ _
  · cases h
    exact Nat.zero_le _

theorem Asked.length_le_sendWindowSize (hoff : st.framer.iPriority = false) (herr : s.err = false)
    (asked : Asked maxBytes lackbw st streamID s maxLen gathered flag)
    (hpos : 0 < (gathered.data.getD []).length) :
    (gathered.data.getD []).length ≤ st.framer.flowControlManager.sendWindowSize streamID := by
  have hle := popData_length_le hoff herr asked.data
  have hlen : s.lenOfDataForWriting ≠ 0 := by
    intro hzero
    have hdata := asked.data
    rw [popData, if_neg (by simpa using hzero)] at hdata
    cases hdata
    exact absurd hpos (by simp)
  have hmax := asked.maxLen_eq
  rw [maxLenFor, if_pos hlen] at hmax
  omega

variable {log : List Emission} {blocked : List BlockedFrame} {index : Nat} {e : Emission}

theorem Charged.framed (h : Charged log st.framer)
    (asked : Asked maxBytes lackbw st streamID s maxLen gathered flag)
    (hid : e.frame.streamID = streamID) (hdata : e.frame.data = gathered.data.getD [])
    (hwindow : e.connWindow = st.framer.connWindow)
    (hpriority : f'.iPriority = st.framer.iPriority)
    (hstreams : f'.streams = update st.framer.streams streamID (some t))
    (hmanager : f'.flowControlManager = st.framer.flowControlManager.addBytesSent streamID
      (gathered.data.getD []).length)
    (ht : t.err = gathered.stream.err ∧ t.writeOffset = gathered.stream.writeOffset) :
    Charged (log ++ [e]) f' := by
  obtain ⟨herr, c, hc, hsent, hflag⟩ := h.counted streamID s asked.stream
  obtain ⟨hadv, -, -⟩ := popData_spec herr asked.data
  have hcontrollers := streamFlowController_addBytesSent
    (gathered.data.getD []).length hc
  have hconn := connFlowController_addBytesSent
    (gathered.data.getD []).length hc
  have hshare : e.share =
      if c.contributesToConnection then (gathered.data.getD []).length else 0 := by
    rw [Emission.share, hid, hflag, StreamFrame.dataLen, hdata]
  refine ⟨hpriority.trans h.off, ?_, ?_, ?_, ?_⟩
  · intro id u hu
    rw [hstreams] at hu
    rw [hmanager, hcontrollers]
    by_cases heq : id = streamID
    · subst heq
      rw [update_self] at hu ⊢
      cases hu
      refine ⟨ht.1.trans (hadv.err.trans herr), c.addBytesSent (gathered.data.getD []).length, rfl,
        ?_, hflag⟩
      rw [ht.2, hadv.writeOffset, ← hsent]
      rfl
    · rw [update_of_ne heq] at hu ⊢
      exact h.counted id u hu
  · intro id hnone
    rw [hstreams] at hnone
    rw [hmanager, hcontrollers]
    have heq : id ≠ streamID := by
      intro heq
      rw [heq, update_self] at hnone
      cases hnone
    rw [update_of_ne heq] at hnone ⊢
    exact h.absent id hnone
  · rw [hmanager, hconn, contributed_append]
    have hone : contributed [e] = e.share := by simp [contributed]
    rw [hone, hshare, ← h.conn]
    split <;> rfl
  · apply Logged.snoc h.allowed
    intro hne
    rw [hshare] at hne ⊢
    have hcounts : c.contributesToConnection = true := by
      by_contra hnot
      exact hne (if_neg hnot)
    rw [if_pos hcounts] at hne ⊢
    have hpos : 0 < (gathered.data.getD []).length := Nat.pos_of_ne_zero hne
    have hallowed := (bytesSent_add_le _ hc hpos
      (asked.length_le_sendWindowSize h.off herr hpos)).2 hcounts
    rw [hwindow, ← h.conn]
    exact hallowed

theorem Charged.room (h : Charged log st.framer) (hb : Below st.framer)
    (asked : Asked maxBytes lackbw st streamID s maxLen gathered flag) :
    s.writeOffset + (gathered.data.getD []).length ≤ st.framer.streamWindow streamID := by
  obtain ⟨herr, c, hc, hsent, -⟩ := h.counted streamID s asked.stream
  by_cases hzero : (gathered.data.getD []).length = 0
  · rw [hzero]
    exact hb streamID s asked.stream
  · have hpos : 0 < (gathered.data.getD []).length := Nat.pos_of_ne_zero hzero
    have hallowed := (bytesSent_add_le _ hc hpos
      (asked.length_le_sendWindowSize h.off herr hpos)).1
    rw [hsent] at hallowed
    simp only [Framer.streamWindow, hc]
    exact hallowed

theorem streamWindow_addBytesSent {c : FlowController} {n : Nat}
    (hc : f.flowControlManager.streamFlowController streamID = some c)
    (hmanager : f'.flowControlManager = f.flowControlManager.addBytesSent streamID n) (id : Nat) :
    f'.streamWindow id = f.streamWindow id := by
  unfold Framer.streamWindow
  rw [hmanager, streamFlowController_addBytesSent n hc,
    params_addBytesSent]
  by_cases hid : id = streamID
  · rw [hid, update_self, hc]
    rfl
  · rw [update_of_ne hid]

theorem Below.framed (hb : Below st.framer)
    (h : Charged log st.framer)
    (asked : Asked maxBytes lackbw st streamID s maxLen gathered flag)
    (hstreams : f'.streams = update st.framer.streams streamID (some t))
    (hmanager : f'.flowControlManager = st.framer.flowControlManager.addBytesSent streamID
      (gathered.data.getD []).length)
    (ht : t.writeOffset = gathered.stream.writeOffset) : Below f' := by
  obtain ⟨herr, c, hc, -, -⟩ := h.counted streamID s asked.stream
  obtain ⟨hadv, -, -⟩ := popData_spec herr asked.data
  intro id u hu
  rw [hstreams] at hu
  rw [streamWindow_addBytesSent hc hmanager]
  by_cases hid : id = streamID
  · subst hid
    rw [update_self] at hu
    cases hu
    rw [ht, hadv.writeOffset]
    exact h.room hb asked
  · rw [update_of_ne hid] at hu
    exact hb id u hu

theorem visit_charged {next : PopState} {v : Visit} {out : List Emission}
    (h : Charged log st.framer) (hv : visit maxBytes lackbw st v = some (next, out)) :
    Charged (log ++ out) next.framer ∧
      (Below st.framer ∧ Fits log → Below next.framer ∧ Fits (log ++ out)) := by
  obtain ⟨_, -, hvisited⟩ := visit_visited hv
  cases hvisited with
  | idle index cont =>
    rw [append_nil]
    have hstill : Still st.framer { st.framer with roundRobinIndex := index } :=
      ⟨rfl, rfl, fun _ => rfl⟩
    exact ⟨hstill.charged h, fun hb => ⟨hstill.below hb.1, hb.2⟩⟩
  | silent streamID maxLen index s gathered flag cont asked data fin =>
    rw [append_nil]
    have hadv := (popData_spec (h.counted streamID s asked.stream).1 asked.data).1
    rw [data] at hadv
    have hstill : Still st.framer { st.framer.setStream streamID gathered.stream with
        flagBwUnenough := flag, roundRobinIndex := index } :=
      still_of_update asked.stream rfl rfl rfl hadv.err hadv.writeOffset
    exact ⟨hstill.charged h, fun hb => ⟨hstill.below hb.1, hb.2⟩⟩
  | framed streamID maxLen index s gathered flag cont blocked asked due =>
    have hkept : (if gathered.stream.shouldSendFin then gathered.stream.sentFin
          else gathered.stream).err = gathered.stream.err ∧
        (if gathered.stream.shouldSendFin then gathered.stream.sentFin
          else gathered.stream).writeOffset = gathered.stream.writeOffset := by
      split <;> exact ⟨rfl, rfl⟩
    refine ⟨h.framed asked rfl rfl rfl rfl rfl rfl hkept, ?_⟩
    rintro ⟨hb, hfits⟩
    refine ⟨hb.framed h asked rfl rfl hkept.2, ?_⟩
    intro e he
    rcases mem_append.mp he with he | he
    · exact hfits e he
    · rw [mem_singleton.mp he]
      exact h.room hb asked

end Visit

section Run

variable {f f' : Framer} {log out : List Emission} {event : Event}

theorem Charged.updateWindow (h : Charged log f) (streamID offset : Nat) :
    Charged log
      { f with flowControlManager := f.flowControlManager.updateWindow streamID offset } := by
  unfold FlowControlManager.updateWindow
  by_cases hzero : streamID = 0
  · rw [if_pos hzero]
    refine ⟨h.off, h.counted, h.absent, ?_, h.allowed⟩
    rw [← h.conn]
    simp only [FlowController.updateSendWindow]
    split <;> rfl
  · rw [if_neg hzero]
    cases hc : f.flowControlManager.streamFlowController streamID with
    | none => exact h
    | some c =>
      have hsame : (c.updateSendWindow offset).bytesSent = c.bytesSent ∧
          (c.updateSendWindow offset).contributesToConnection = c.contributesToConnection := by
        unfold FlowController.updateSendWindow
        split <;> exact ⟨rfl, rfl⟩
      refine ⟨h.off, ?_, ?_, h.conn, h.allowed⟩
      · intro id s hs
        obtain ⟨herr, d, hd, hsent, hflag⟩ := h.counted id s hs
        refine ⟨herr, ?_⟩
        by_cases hid : id = streamID
        · subst hid
          obtain rfl : c = d := Option.some.inj (hc.symm.trans hd)
          exact ⟨c.updateSendWindow offset, update_self .., hsame.1.trans hsent,
            hsame.2.trans hflag⟩
        · exact ⟨d, (update_of_ne hid ..).trans hd, hsent, hflag⟩
      · intro id hnone
        have hid : id ≠ streamID := by
          intro heq
          have hmissing := h.absent id hnone
          rw [heq, hc] at hmissing
          cases hmissing
        exact (update_of_ne hid ..).trans (h.absent id hnone)

theorem Below.updateWindow {streamID offset : Nat} (hb : Below f)
    (hkeeps : KeepsWindow f (.updateWindow streamID offset)) :
    Below { f with flowControlManager := f.flowControlManager.updateWindow streamID offset } := by
  have hgrows : ∀ id, f.streamWindow id ≤ Framer.streamWindow
      { f with flowControlManager := f.flowControlManager.updateWindow streamID offset } id := by
    intro id
    unfold Framer.streamWindow FlowControlManager.updateWindow
    by_cases hzero : streamID = 0
    · rw [if_pos hzero]
    · rw [if_neg hzero]
      cases hc : f.flowControlManager.streamFlowController streamID with
      | none => exact Nat.le_refl _
      | some c =>
        by_cases hid : id = streamID
        · subst hid
          have hkept : offset = 0 ∨ c.sendWindow ≠ 0 ∨
              c.getSendWindow f.flowControlManager.params ≤ offset := by
            simpa [KeepsWindow, hzero, hc, Framer.streamWindow] using hkeeps
          simp only [hc, FlowControlManager.setStream, update_self]
          unfold FlowController.updateSendWindow
          split
          next hlarger =>
            unfold FlowController.getSendWindow at hkept ⊢
            split_ifs at hkept ⊢ <;> simp_all
            omega
          · exact Nat.le_refl _
        · simp only [FlowControlManager.setStream, update_of_ne hid]
          exact Nat.le_refl _
  intro id s hs
  exact Nat.le_trans (hb id s hs) (hgrows id)

theorem openStream_charged (h : Charged log f) (streamID : Nat) :
    Charged log (f.openStream streamID) ∧ (Below f → Below (f.openStream streamID)) := by
  unfold Framer.openStream
  cases hs : f.streams streamID with
  | some s => exact ⟨h, id⟩
  | none =>
    have hmissing := h.absent streamID hs
    have hmanager : f.flowControlManager.newStream streamID (contributesToConnection streamID) =
        f.flowControlManager.setStream streamID (newFlowController f.flowControlManager.params
          streamID (contributesToConnection streamID)) := by
      simp only [FlowControlManager.newStream, hmissing]
    have hother : ∀ id, id ≠ streamID →
        (f.setStream streamID newStream).streams id = f.streams id :=
      fun id hid => Framer.streams_setStream_of_ne f newStream hid
    rw [hmanager]
    refine ⟨⟨h.off, ?_, ?_, h.conn, h.allowed⟩, ?_⟩
    · intro id u hu
      by_cases hid : id = streamID
      · subst hid
        obtain rfl : newStream = u := Option.some.inj
          ((Framer.streams_setStream_self f id newStream).symm.trans hu)
        exact ⟨rfl, _, update_self .., rfl, rfl⟩
      · obtain ⟨herr, c, hc, hrest⟩ := h.counted id u ((hother id hid).symm.trans hu)
        exact ⟨herr, c, (update_of_ne hid ..).trans hc, hrest⟩
    · intro id hnone
      have hid : id ≠ streamID := by
        rintro rfl
        have hnew := (Framer.streams_setStream_self f id newStream).symm.trans hnone
        cases hnew
      exact (update_of_ne hid ..).trans (h.absent id ((hother id hid).symm.trans hnone))
    · intro hb id u hu
      by_cases hid : id = streamID
      · subst hid
        obtain rfl : newStream = u := Option.some.inj
          ((Framer.streams_setStream_self f id newStream).symm.trans hu)
        exact Nat.zero_le _
      · have hold := hb id u ((hother id hid).symm.trans hu)
        simp only [Framer.streamWindow, FlowControlManager.setStream,
          update_of_ne hid] at hold ⊢
        exact hold

theorem write_still {streamID : Nat} {p : List UInt8} (h : Charged log f)
    (hw : f.write streamID p = some f') : Still f f' := by
  unfold Framer.write at hw
  cases hs : f.streams streamID with
  | none =>
    rw [hs] at hw
    cases hw
    exact ⟨rfl, rfl, fun _ => rfl⟩
  | some s =>
    rw [hs] at hw
    obtain ⟨t, ht, rfl⟩ := map_eq_some_iff.mp hw
    have hadv := (write_spec (h.counted streamID s hs).1 ht).1
    exact still_of_update hs rfl rfl rfl hadv.err hadv.writeOffset

theorem close_still (f : Framer) (streamID : Nat) : Still f (f.close streamID) := by
  unfold Framer.close
  cases hs : f.streams streamID with
  | none => exact ⟨rfl, rfl, fun _ => rfl⟩
  | some s => exact still_of_update hs rfl rfl rfl rfl rfl

theorem step_charged (h : Charged log f) (hstep : step f event = some (f', out)) :
    Charged (log ++ out) f' ∧
      (KeepsWindow f event → Below f ∧ Fits log → Below f' ∧ Fits (log ++ out)) := by
  cases event with
  | openStream streamID =>
    cases hstep
    rw [append_nil]
    obtain ⟨hcharged, hbelow⟩ := openStream_charged h streamID
    exact ⟨hcharged, fun _ hb => ⟨hbelow hb.1, hb.2⟩⟩
  | write streamID p =>
    obtain ⟨g, hw, he⟩ := map_eq_some_iff.mp hstep
    cases he
    rw [append_nil]
    have hstill := write_still h hw
    exact ⟨hstill.charged h, fun _ hb => ⟨hstill.below hb.1, hb.2⟩⟩
  | close streamID =>
    cases hstep
    rw [append_nil]
    have hstill := close_still f streamID
    exact ⟨hstill.charged h, fun _ hb => ⟨hstill.below hb.1, hb.2⟩⟩
  | updateWindow streamID offset =>
    cases hstep
    rw [append_nil]
    exact ⟨h.updateWindow streamID offset, fun hk hb => ⟨hb.1.updateWindow hk, hb.2⟩⟩
  | flag flagBwUnenough =>
    cases hstep
    rw [append_nil]
    have hstill : Still f { f with flagBwUnenough := flagBwUnenough } :=
      ⟨rfl, rfl, fun _ => rfl⟩
    exact ⟨hstill.charged h, fun _ hb => ⟨hstill.below hb.1, hb.2⟩⟩
  | pop maxBytes lackbw =>
    have hcharged := pop_keeps Charged log
      (fun _ _ _ _ _ hinv _ hv => (visit_charged hinv hv).1) h (Along.always _ _) hstep
    refine ⟨hcharged, fun _ hb => ?_⟩
    have hall := pop_keeps (fun log g => Charged log g ∧ Below g ∧ Fits log) log
      (fun _ _ _ _ _ hinv _ hv =>
        ⟨(visit_charged hinv.1 hv).1, (visit_charged hinv.1 hv).2 hinv.2⟩)
      ⟨h, hb⟩ (Along.always _ _) hstep
    exact hall.2

theorem charged_newFramer (params : ConnectionParameters) : Charged [] (newFramer false params) :=
  ⟨rfl, by simp [newFramer], fun _ _ => rfl, rfl, Logged.nil _⟩

theorem contributed_le {log : List Emission}
    (h : Logged (fun before e => e.share ≠ 0 → contributed before + e.share ≤ e.connWindow) log)
    (before after : List Emission) (heq : log = before ++ after) :
    contributed before = 0 ∨ ∃ e ∈ before, contributed before ≤ e.connWindow := by
  induction before using List.reverseRecOn generalizing after with
  | nil => exact Or.inl rfl
  | append_singleton front e ih =>
    have hsum : contributed (front ++ [e]) = contributed front + e.share := by
      rw [contributed_append]
      simp [contributed]
    by_cases hzero : e.share = 0
    · rw [hsum, hzero, Nat.add_zero]
      rcases ih ([e] ++ after) (by simpa using heq) with hnone | ⟨earlier, hmem, hle⟩
      · exact Or.inl hnone
      · exact Or.inr ⟨earlier, mem_append_left _ hmem, hle⟩
    · have hroom := h front e after (by simpa using heq) hzero
      exact Or.inr ⟨e, by simp, by omega⟩

end Run

-- Without the switch, a frame ends below the window of its stream if no first window
-- update lowered one. All bytes that count for the connection are within the window it
-- had when one of the frames was put together, whatever the window updates were.
theorem normal_framing_within_window (params : ConnectionParameters) (events : List Event)
    (f : Framer) (log : List Emission)
    (hrun : run step (newFramer false params) events = some (f, log)) :
    (Along step KeepsWindow (newFramer false params) events →
      ∀ e ∈ log, e.frame.offset + e.frame.dataLen ≤ e.streamWindow) ∧
    ∀ before after, log = before ++ after →
      contributed before = 0 ∨ ∃ e ∈ before, contributed before ≤ e.connWindow := by
  have hcharged : Charged log f := by
    simpa using run_invariant (fun _ log g => Charged log g)
      (fun _ _ _ _ _ _ hinv _ hstep => (step_charged hinv hstep).1)
      [] [] (newFramer false params) f events log (charged_newFramer params)
      (Along.always _ _) hrun
  refine ⟨?_, contributed_le hcharged.allowed⟩
  intro hkeeps
  have hinit : Charged [] (newFramer false params) ∧ Below (newFramer false params) ∧ Fits [] :=
    ⟨charged_newFramer params, by simp [Below, newFramer], by simp [Fits]⟩
  have hall := run_invariant (fun _ log g => Charged log g ∧ Below g ∧ Fits log)
    (fun _ _ _ _ _ _ hinv hcond hstep =>
      ⟨(step_charged hinv.1 hstep).1, (step_charged hinv.1 hstep).2 hcond hinv.2⟩)
    [] [] (newFramer false params) f events log hinit hkeeps hrun
  exact hall.2.2

theorem normal_framing_within_window_example :
    ∃ f log, run step (newFramer false ⟨3, 100, 0, 0, 0, 0⟩)
        [.openStream 5, .write 5 [1, 2, 3, 4, 5], .pop 40 false, .updateWindow 5 5, .close 5,
          .pop 40 false] = some (f, log) ∧
      ∀ e ∈ log, e.frame.offset + e.frame.dataLen ≤ e.streamWindow :=
  ⟨_, _, rfl, (normal_framing_within_window ⟨3, 100, 0, 0, 0, 0⟩
    [.openStream 5, .write 5 [1, 2, 3, 4, 5], .pop 40 false, .updateWindow 5 5, .close 5,
      .pop 40 false] _ _ rfl).1 (by decide)⟩

-- Three bytes are sent in the negotiated window. The first window update sets the window
-- to one byte, and then the FIN goes out behind the three bytes.
theorem fin_beyond_lowered_window :
    ¬∀ (params : ConnectionParameters) (events : List Event) (f : Framer) (log : List Emission),
      run step (newFramer false params) events = some (f, log) →
        ∀ e ∈ log, e.frame.offset + e.frame.dataLen ≤ e.streamWindow := by
  intro h
  have hfits := h ⟨3, 100, 0, 0, 0, 0⟩
    [.openStream 5, .write 5 [1, 2, 3], .pop 40 false, .updateWindow 5 1, .close 5, .pop 40 false]
    _ _ rfl ⟨⟨5, true, true, 3, []⟩, 40, 0, 1, 100, false⟩ (by decide)
  exact absurd hfits (by decide)

end MpQuic.Framing

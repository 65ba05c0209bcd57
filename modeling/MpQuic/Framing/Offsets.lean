import MpQuic.Framing.Visit

namespace MpQuic.Framing

open MpQuic.Library MpQuic.Wire MpQuic.FlowControl List Function Option

def framesOf (streamID : Nat) (log : List Emission) : List StreamFrame :=
  (log.map Emission.frame).filter fun frame => frame.streamID = streamID

def dataOf (streamID : Nat) (log : List Emission) : List UInt8 :=
  (framesOf streamID log).flatMap StreamFrame.data

def Event.payload (streamID : Nat) : Event → List UInt8
  | .write id p => if id = streamID then p else []
  | _ => []

-- The bytes a stream has taken from the application. `Write` refuses the call once
-- `Close` has been called.
def accepted (streamID : Nat) (events : List Event) : List UInt8 :=
  (events.takeWhile fun event => event ≠ .close streamID).flatMap (Event.payload streamID)

theorem accepted_snoc (streamID : Nat) (past : List Event) (event : Event) :
    accepted streamID (past ++ [event]) =
      accepted streamID past ++
        if .close streamID ∈ past then [] else event.payload streamID := by
  induction past with
  | nil =>
    by_cases hclose : event = .close streamID
    · simp [accepted, hclose, Event.payload]
    · simp [accepted, hclose]
  | cons head tail ih =>
    by_cases hh : head = .close streamID
    · simp [accepted, hh]
    · simp only [accepted, cons_append, ne_eq, hh, not_false_eq_true, decide_true,
        takeWhile_cons_of_pos, flatMap_cons, append_assoc, mem_cons,
        Ne.symm hh, false_or]
      exact congrArg (head.payload streamID ++ ·) ih

theorem framesOf_append (streamID : Nat) (first second : List Emission) :
    framesOf streamID (first ++ second) = framesOf streamID first ++ framesOf streamID second := by
  simp [framesOf]

variable {e : Emission} {streamID : Nat} {f f' : Framer} {events : List Event}
  {log out : List Emission}

theorem framesOf_self (h : e.frame.streamID = streamID) : framesOf streamID [e] = [e.frame] := by
  simp [framesOf, h]

theorem framesOf_other (h : e.frame.streamID ≠ streamID) : framesOf streamID [e] = [] := by
  simp [framesOf, h]

theorem dataOf_append (streamID : Nat) (first second : List Emission) :
    dataOf streamID (first ++ second) = dataOf streamID first ++ dataOf streamID second := by
  simp [dataOf, framesOf_append]

theorem popData_spec {lackbw flag : Bool} {maxLen : Nat} {s : Stream} {gathered : Gathered}
    (herr : s.err = false) (h : popData f lackbw maxLen s = some (gathered, flag)) :
    Advanced s gathered.stream (gathered.data.getD []).length ∧
      (s.dataForWriting = none → gathered.stream = s ∧ gathered.data = none) ∧
      (f.iPriority = false → gathered.data.getD [] ++ gathered.stream.pending = s.pending) := by
  unfold popData at h
  split at h
  next hlen =>
    refine ⟨takeData_advanced herr h, ?_, ?_⟩
    · intro hnone
      exact absurd (by simp [Stream.lenOfDataForWriting, hnone]) hlen
    · intro hoff
      rw [hoff] at h
      obtain ⟨hdata, hrest, -, -⟩ := takeData_plain herr h
      rw [hdata, hrest, take_append_drop]
  next hlen =>
    cases h
    exact ⟨Advanced.refl s, fun _ => ⟨rfl, rfl⟩, fun _ => rfl⟩

structure StreamState (iPriority : Bool) (past : List Event) (log : List Emission)
    (streamID : Nat) (s : Stream) : Prop where
  err : s.err = false
  offset : s.writeOffset = (dataOf streamID log).length
  closed : s.finishedWriting = true ↔ .close streamID ∈ past
  sent : s.finSent = true ↔ ∃ frame ∈ framesOf streamID log, frame.finBit = true
  due : s.finSent = true → s.finishedWriting = true ∧ s.dataForWriting = none
  bytes : iPriority = false → dataOf streamID log ++ s.pending = accepted streamID past

-- Where a frame has to start: its offset is the number of bytes in the frames before
-- it, none of which has the FIN bit.
def Placed (before : List Emission) (e : Emission) : Prop :=
  e.frame.offset = (dataOf e.frame.streamID before).length ∧
    ∀ frame ∈ framesOf e.frame.streamID before, frame.finBit = false

structure Framed (past : List Event) (log : List Emission) (f : Framer) : Prop where
  known : ∀ streamID s, f.streams streamID = some s →
    StreamState f.iPriority past log streamID s
  absent : ∀ streamID, f.streams streamID = none →
    framesOf streamID log = [] ∧ .close streamID ∉ past ∧ accepted streamID past = []
  placed : Logged Placed log

section Streams

variable {past : List Event} {log : List Emission} {f : Framer} {streamID : Nat} {s : Stream}

variable {t : Stream} {maxBytes maxLen index : Nat} {lackbw flag : Bool} {st : PopState}
  {gathered : Gathered}

theorem Framed.replace {e : List Emission} {f' : Framer} (h : Framed past log f)
    (hs : f.streams streamID = some s) (hpriority : f'.iPriority = f.iPriority)
    (hstreams : f'.streams = update f.streams streamID (some t))
    (hothers : ∀ id, id ≠ streamID → framesOf id e = [])
    (hstate : StreamState f.iPriority past (log ++ e) streamID t)
    (hplaced : Logged Placed (log ++ e)) : Framed past (log ++ e) f' := by
  have hsame : ∀ id, id ≠ streamID → framesOf id (log ++ e) = framesOf id log := by
    intro id hid
    rw [framesOf_append, hothers id hid, append_nil]
  refine ⟨?_, ?_, hplaced⟩
  · intro id u hu
    rw [hstreams] at hu
    rw [hpriority]
    by_cases hid : id = streamID
    · subst hid
      rw [update_self] at hu
      cases hu
      exact hstate
    · rw [update_of_ne hid] at hu
      have hold := h.known id u hu
      have hdata : dataOf id (log ++ e) = dataOf id log := by
        rw [dataOf, hsame id hid, dataOf]
      refine ⟨hold.err, ?_, hold.closed, ?_, hold.due, ?_⟩
      · rw [hdata]
        exact hold.offset
      · rw [hsame id hid]
        exact hold.sent
      · rw [hdata]
        exact hold.bytes
  · intro id hnone
    rw [hstreams] at hnone
    have hid : id ≠ streamID := by
      intro heq
      rw [heq, update_self] at hnone
      cases hnone
    rw [update_of_ne hid] at hnone
    rw [hsame id hid]
    exact h.absent id hnone

theorem shouldSendFin_iff (herr : t.err = false) :
    t.shouldSendFin = true ↔
      t.finishedWriting = true ∧ t.finSent = false ∧ t.dataForWriting = none := by
  simp [Stream.shouldSendFin, herr, and_assoc]

theorem Framed.silent (h : Framed past log st.framer)
    (asked : Asked maxBytes lackbw st streamID s maxLen gathered flag)
    (hdata : gathered.data = none) :
    Framed past log { st.framer.setStream streamID gathered.stream with
      flagBwUnenough := flag, roundRobinIndex := index } := by
  have hold := h.known streamID s asked.stream
  obtain ⟨hadv, hempty, hplain⟩ := popData_spec hold.err asked.data
  rw [hdata, getD_none] at hadv hplain
  have hstate : StreamState st.framer.iPriority past (log ++ []) streamID gathered.stream := by
    rw [append_nil]
    refine ⟨hadv.err.trans hold.err, hadv.writeOffset.trans hold.offset, ?_, ?_, ?_, ?_⟩
    · rw [hadv.finishedWriting]
      exact hold.closed
    · rw [hadv.finSent]
      exact hold.sent
    · intro hsent
      rw [hadv.finSent] at hsent
      rw [(hempty (hold.due hsent).2).1]
      exact hold.due hsent
    · intro hoff
      rw [← hold.bytes hoff, ← hplain hoff]
      rfl
  have hnext : Framed past (log ++ []) { st.framer.setStream streamID gathered.stream with
      flagBwUnenough := flag, roundRobinIndex := index } :=
    h.replace asked.stream rfl rfl (fun _ _ => rfl) hstate (by rw [append_nil]; exact h.placed)
  rw [append_nil] at hnext
  exact hnext

theorem Framed.framed
    {blocked : List BlockedFrame} {e : Emission}
    (h : Framed past log st.framer)
    (asked : Asked maxBytes lackbw st streamID s maxLen gathered flag)
    (he : e.frame = ⟨streamID, gathered.stream.shouldSendFin, true, s.writeOffset,
      gathered.data.getD []⟩)
    (hdue : gathered.data ≠ none ∨ gathered.stream.shouldSendFin = true) :
    Framed past (log ++ [e]) { st.framer.charge streamID
        (if gathered.stream.shouldSendFin then gathered.stream.sentFin else gathered.stream)
        flag (gathered.data.getD []).length blocked with roundRobinIndex := index } := by
  have hold := h.known streamID s asked.stream
  obtain ⟨hadv, hempty, hplain⟩ := popData_spec hold.err asked.data
  have hid : e.frame.streamID = streamID := by rw [he]
  have herr : gathered.stream.err = false := hadv.err.trans hold.err
  have hfin := shouldSendFin_iff herr
  have hfresh : s.finSent = false := by
    by_contra hsent
    have hsent : s.finSent = true := by simpa using hsent
    obtain ⟨hstream, hnone⟩ := hempty (hold.due hsent).2
    rcases hdue with hdata | hnow
    · exact hdata hnone
    · have hunsent := (hfin.mp hnow).2.1
      rw [hstream, hsent] at hunsent
      cases hunsent
  have hnofin : ∀ frame ∈ framesOf streamID log, frame.finBit = false := by
    intro frame hframe
    by_contra hbit
    have hsent := hold.sent.mpr ⟨frame, hframe, by simpa using hbit⟩
    rw [hfresh] at hsent
    cases hsent
  have hdata : dataOf streamID (log ++ [e]) = dataOf streamID log ++ gathered.data.getD [] := by
    rw [dataOf_append]
    simp [dataOf, framesOf_self hid, he]
  have hframes : framesOf streamID (log ++ [e]) = framesOf streamID log ++ [e.frame] := by
    rw [framesOf_append, framesOf_self hid]
  refine h.replace asked.stream rfl rfl ?_ ?_ ?_
  · intro id hother
    exact framesOf_other (by rw [hid]; exact Ne.symm hother)
  · have hfields : ∀ t : Stream, t.err = gathered.stream.err →
        t.finishedWriting = gathered.stream.finishedWriting →
        t.writeOffset = gathered.stream.writeOffset →
        t.dataForWriting = gathered.stream.dataForWriting →
        (t.finSent = true ↔ gathered.stream.shouldSendFin = true) →
        StreamState st.framer.iPriority past (log ++ [e]) streamID t := by
      intro t hterr htwriting htoffset htdata htsent
      refine ⟨hterr.trans herr, ?_, ?_, ?_, ?_, ?_⟩
      · rw [htoffset, hadv.writeOffset, hold.offset, hdata, length_append]
      · rw [htwriting, hadv.finishedWriting]
        exact hold.closed
      · rw [htsent, hframes]
        constructor
        · intro hnow
          exact ⟨e.frame, mem_append_right _ mem_cons_self, by rw [he]; exact hnow⟩
        · rintro ⟨frame, hframe, hbit⟩
          rcases mem_append.mp hframe with hbefore | hlast
          · rw [hnofin frame hbefore] at hbit
            cases hbit
          · rw [mem_singleton.mp hlast, he] at hbit
            exact hbit
      · intro hsent
        obtain ⟨hwriting, -, hnone⟩ := hfin.mp (htsent.mp hsent)
        exact ⟨htwriting.trans hwriting, htdata.trans hnone⟩
      · intro hoff
        have hpending : t.pending = gathered.stream.pending := by
          rw [Stream.pending, htdata, Stream.pending]
        rw [hdata, hpending, append_assoc, hplain hoff]
        exact hold.bytes hoff
    split
    next hnow => exact hfields _ rfl rfl rfl rfl (by simp [Stream.sentFin, hnow])
    next hnot =>
      have hunsent : gathered.stream.finSent = false := hadv.finSent.trans hfresh
      exact hfields _ rfl rfl rfl rfl (by simp [hunsent, hnot])
  · apply Logged.snoc h.placed
    rw [Placed, hid]
    refine ⟨?_, hnofin⟩
    rw [he]
    exact hold.offset

theorem visit_framed {next : PopState} {v : Visit}
    {out : List Emission} (h : Framed past log st.framer)
    (hv : visit maxBytes lackbw st v = some (next, out)) : Framed past (log ++ out) next.framer := by
  obtain ⟨_, -, hvisited⟩ := visit_visited hv
  cases hvisited with
  | idle index cont =>
    rw [append_nil]
    exact ⟨h.known, h.absent, h.placed⟩
  | silent streamID maxLen index s gathered flag cont asked data fin =>
    rw [append_nil]
    exact h.silent asked data
  | framed streamID maxLen index s gathered flag cont blocked asked due =>
    exact h.framed asked rfl due

end Streams

section Events

variable {past : List Event} {log : List Emission} {f f' : Framer} {event : Event}

variable {iPriority : Bool} {streamID : Nat} {s t : Stream} {p : List UInt8}

theorem StreamState.snoc (h : StreamState iPriority past log streamID s)
    (hclose : event ≠ .close streamID) (hpayload : event.payload streamID = []) :
    StreamState iPriority (past ++ [event]) log streamID s := by
  refine ⟨h.err, h.offset, ?_, h.sent, h.due, ?_⟩
  · rw [h.closed]
    simp [Ne.symm hclose]
  · rw [accepted_snoc, hpayload, ite_self, append_nil]
    exact h.bytes

theorem Framed.snoc (h : Framed past log f) (hpriority : f'.iPriority = f.iPriority)
    (hstreams : f'.streams = f.streams)
    (hquiet : ∀ streamID, event ≠ .close streamID ∧ event.payload streamID = []) :
    Framed (past ++ [event]) log f' := by
  refine ⟨?_, ?_, h.placed⟩
  · intro id s hs
    rw [hstreams] at hs
    rw [hpriority]
    exact (h.known id s hs).snoc (hquiet id).1 (hquiet id).2
  · intro id hnone
    rw [hstreams] at hnone
    obtain ⟨hframes, hclose, hbytes⟩ := h.absent id hnone
    refine ⟨hframes, ?_, ?_⟩
    · simp [hclose, Ne.symm (hquiet id).1]
    · rw [accepted_snoc, (hquiet id).2, ite_self, append_nil, hbytes]

theorem Framed.touch (h : Framed past log f) (hs : f.streams streamID = some s)
    (hquiet : ∀ id, id ≠ streamID → event ≠ .close id ∧ event.payload id = [])
    (hstate : StreamState f.iPriority (past ++ [event]) log streamID t) :
    Framed (past ++ [event]) log (f.setStream streamID t) := by
  refine ⟨?_, ?_, h.placed⟩
  · intro id u hu
    by_cases hid : id = streamID
    · subst hid
      rw [Framer.streams_setStream_self] at hu
      cases hu
      exact hstate
    · rw [Framer.streams_setStream_of_ne f t hid] at hu
      exact (h.known id u hu).snoc (hquiet id hid).1 (hquiet id hid).2
  · intro id hnone
    have hid : id ≠ streamID := by
      intro heq
      rw [heq, Framer.streams_setStream_self] at hnone
      cases hnone
    rw [Framer.streams_setStream_of_ne f t hid] at hnone
    obtain ⟨hframes, hclose, hbytes⟩ := h.absent id hnone
    refine ⟨hframes, ?_, ?_⟩
    · simp [hclose, Ne.symm (hquiet id hid).1]
    · rw [accepted_snoc, (hquiet id hid).2, ite_self, append_nil, hbytes]

theorem findIframe_advanced (h : s.findIframe = some t) :
    Advanced s t 0 ∧ t.dataForWriting = s.dataForWriting := by
  obtain ⟨found, -, rfl⟩ := map_eq_some_iff.mp h
  exact ⟨⟨rfl, rfl, rfl, rfl⟩, rfl⟩

theorem write_spec (herr : s.err = false) (h : s.write iPriority p = some t) :
    Advanced s t 0 ∧ (s.finishedWriting = true → t = s) ∧
      (s.finishedWriting = false → s.dataForWriting = none → t.pending = p) := by
  unfold Stream.write at h
  rw [if_neg (by simp [herr])] at h
  by_cases hclosed : s.finishedWriting = true
  · rw [if_pos hclosed] at h
    cases h
    exact ⟨Advanced.refl s, fun _ => rfl, fun hopen => absurd hclosed (by simp [hopen])⟩
  · rw [if_neg hclosed] at h
    by_cases hempty : p.length = 0
    · rw [if_pos hempty] at h
      cases h
      refine ⟨Advanced.refl s, fun _ => rfl, fun _ hnone => ?_⟩
      rw [Stream.pending, hnone, eq_nil_of_length_eq_zero hempty]
      rfl
    · rw [if_neg hempty] at h
      dsimp only at h
      split at h
      · obtain ⟨hadv, hdata⟩ := findIframe_advanced h
        refine ⟨⟨hadv.err, hadv.finishedWriting, hadv.finSent, hadv.writeOffset⟩,
          fun hyes => absurd hyes hclosed, fun _ _ => ?_⟩
        rw [Stream.pending, hdata]
        rfl
      · cases h
        exact ⟨⟨rfl, rfl, rfl, rfl⟩, fun hyes => absurd hyes hclosed, fun _ _ => rfl⟩

theorem Framed.write (h : Framed past log f) (hready : Ready f (.write streamID p))
    (hw : f.write streamID p = some f') : Framed (past ++ [.write streamID p]) log f' := by
  have hfound : ∃ s, f.streams streamID = some s ∧
      (s.finishedWriting || s.dataForWriting.isNone) = true := by
    unfold Ready at hready
    cases hs : f.streams streamID with
    | none => simp [hs] at hready
    | some s => exact ⟨s, rfl, by simpa [hs] using hready⟩
  obtain ⟨s, hs, hfree⟩ := hfound
  unfold Framer.write at hw
  rw [hs] at hw
  obtain ⟨t, ht, rfl⟩ := map_eq_some_iff.mp hw
  have hold := h.known streamID s hs
  obtain ⟨hadv, hrefused, htaken⟩ := write_spec hold.err ht
  apply h.touch hs
  · intro id hid
    exact ⟨by simp, if_neg (Ne.symm hid)⟩
  · refine ⟨hadv.err.trans hold.err, hadv.writeOffset.trans hold.offset, ?_, ?_, ?_, ?_⟩
    · rw [hadv.finishedWriting, hold.closed]
      simp
    · rw [hadv.finSent]
      exact hold.sent
    · intro hsent
      rw [hadv.finSent] at hsent
      rw [hrefused (hold.due hsent).1]
      exact hold.due hsent
    · intro hoff
      rw [accepted_snoc, ← hold.bytes hoff]
      by_cases hclosed : s.finishedWriting = true
      · rw [if_pos (hold.closed.mp hclosed), hrefused hclosed, append_nil]
      · have hnone : s.dataForWriting = none := by
          simpa [hclosed] using hfree
        have hpayload : Event.payload streamID (.write streamID p) = p := if_pos rfl
        rw [if_neg (fun hc => hclosed (hold.closed.mpr hc)), hpayload,
          htaken (by simpa using hclosed) hnone, Stream.pending, hnone]
        simp

theorem Framed.close (h : Framed past log f) (hready : Ready f (.close streamID)) :
    Framed (past ++ [.close streamID]) log (f.close streamID) := by
  obtain ⟨s, hs⟩ := isSome_iff_exists.mp hready
  unfold Framer.close
  rw [hs]
  have hold := h.known streamID s hs
  apply h.touch hs
  · intro id hid
    exact ⟨by simpa using Ne.symm hid, rfl⟩
  · refine ⟨hold.err, hold.offset, by simp [Stream.close], hold.sent, ?_, ?_⟩
    · intro hsent
      exact ⟨rfl, (hold.due hsent).2⟩
    · intro hoff
      rw [accepted_snoc, ← hold.bytes hoff]
      simp [Event.payload, Stream.close, Stream.pending]

theorem Framed.openStream (h : Framed past log f) :
    Framed (past ++ [.openStream streamID]) log (f.openStream streamID) := by
  have hquiet : ∀ id, Event.openStream streamID ≠ .close id ∧
      Event.payload id (.openStream streamID) = [] := fun id => ⟨by simp, rfl⟩
  unfold Framer.openStream
  cases hs : f.streams streamID with
  | some s => exact h.snoc rfl rfl hquiet
  | none =>
    have hbefore : Framed (past ++ [.openStream streamID]) log f := h.snoc rfl rfl hquiet
    obtain ⟨hframes, hclose, hbytes⟩ := hbefore.absent streamID hs
    refine ⟨?_, ?_, h.placed⟩
    · intro id u hu
      by_cases hid : id = streamID
      · subst hid
        simp only [Framer.setStream, update_self, Option.some.injEq] at hu
        subst hu
        refine ⟨rfl, by simp [newStream, dataOf, hframes], by simpa [newStream] using hclose,
          by simp [newStream, hframes], by simp [newStream], fun _ => ?_⟩
        rw [hbytes]
        simp [dataOf, hframes, newStream, Stream.pending]
      · simp only [Framer.setStream, update_of_ne hid] at hu
        exact hbefore.known id u hu
    · intro id hnone
      have hid : id ≠ streamID := by
        intro heq
        simp [heq, Framer.setStream] at hnone
      simp only [Framer.setStream, update_of_ne hid] at hnone
      exact hbefore.absent id hnone

theorem step_framed {out : List Emission} (h : Framed past log f) (hready : Ready f event)
    (hstep : step f event = some (f', out)) : Framed (past ++ [event]) (log ++ out) f' := by
  cases event with
  | openStream streamID =>
    cases hstep
    rw [append_nil]
    exact h.openStream
  | write streamID p =>
    obtain ⟨g, hw, he⟩ := map_eq_some_iff.mp hstep
    cases he
    rw [append_nil]
    exact h.write hready hw
  | close streamID =>
    cases hstep
    rw [append_nil]
    exact h.close hready
  | updateWindow streamID offset =>
    cases hstep
    rw [append_nil]
    exact h.snoc rfl rfl fun id => ⟨by simp, rfl⟩
  | flag flagBwUnenough =>
    cases hstep
    rw [append_nil]
    exact h.snoc rfl rfl fun id => ⟨by simp, rfl⟩
  | pop maxBytes lackbw =>
    have hpopped : Framed past (log ++ out) f' :=
      pop_keeps (Framed past) log (fun _ _ _ _ _ hinv _ hv => visit_framed hinv hv) h
        (Along.always _ _) hstep
    exact hpopped.snoc rfl rfl fun id => ⟨by simp, rfl⟩

end Events

theorem framed_newFramer (iPriority : Bool) (params : ConnectionParameters) :
    Framed [] [] (newFramer iPriority params) :=
  ⟨by simp [newFramer], fun _ _ => ⟨rfl, by simp, rfl⟩, Logged.nil _⟩

theorem run_framed {iPriority : Bool} {params : ConnectionParameters}
    (hready : Along step Ready (newFramer iPriority params) events)
    (hrun : run step (newFramer iPriority params) events = some (f, log)) :
    Framed events log f := by
  simpa using run_invariant Framed
    (fun _ _ _ _ _ _ hinv hcond hstep => step_framed hinv hcond hstep)
    [] [] (newFramer iPriority params) f events log (framed_newFramer iPriority params) hready hrun

theorem visit_iPriority {maxBytes : Nat} {lackbw : Bool} {st next : PopState} {v : Visit}
    (hv : visit maxBytes lackbw st v = some (next, out)) :
    next.framer.iPriority = st.framer.iPriority := by
  obtain ⟨_, -, hvisited⟩ := visit_visited hv
  cases hvisited <;> rfl

theorem step_iPriority {event : Event}
    (hstep : step f event = some (f', out)) : f'.iPriority = f.iPriority := by
  cases event with
  | openStream streamID =>
    cases hstep
    unfold Framer.openStream
    split <;> rfl
  | write streamID p =>
    obtain ⟨g, hw, he⟩ := map_eq_some_iff.mp hstep
    cases he
    unfold Framer.write at hw
    split at hw
    · cases hw
      rfl
    · obtain ⟨t, -, rfl⟩ := map_eq_some_iff.mp hw
      rfl
  | close streamID =>
    cases hstep
    unfold Framer.close
    split <;> rfl
  | updateWindow streamID offset =>
    cases hstep
    rfl
  | flag flagBwUnenough =>
    cases hstep
    rfl
  | pop maxBytes lackbw =>
    exact pop_keeps (fun _ g => g.iPriority = f.iPriority) []
      (fun _ _ _ _ _ hsame _ hv => (visit_iPriority hv).trans hsame) rfl (Along.always _ _) hstep

theorem run_iPriority (hrun : run step f events = some (f', log)) : f'.iPriority = f.iPriority :=
  run_invariant (fun _ _ g => g.iPriority = f.iPriority)
    (fun _ _ _ _ _ _ hsame _ hstep => (step_iPriority hstep).trans hsame)
    [] [] f f' events log rfl (Along.always _ _) hrun

theorem framesOf_after_fin {before after : List Emission} (h : Logged Placed (before ++ e :: after))
    (hfin : e.frame.finBit = true) : framesOf e.frame.streamID after = [] := by
  by_contra hne
  obtain ⟨frame, hframe⟩ := exists_mem_of_ne_nil _ hne
  obtain ⟨hlater, hid⟩ := mem_filter.mp hframe
  obtain ⟨later, hin, rfl⟩ := mem_map.mp hlater
  obtain ⟨first, second, rfl⟩ := append_of_mem hin
  have hplaced := h (before ++ e :: first) later second (by simp)
  have hsame : later.frame.streamID = e.frame.streamID := by simpa using hid
  have hmem : e.frame ∈ framesOf later.frame.streamID (before ++ e :: first) := by
    simp [framesOf, hsame]
  have hnot := hplaced.2 e.frame hmem
  rw [hfin] at hnot
  cases hnot

theorem fin_last {frame : StreamFrame}
    (h : Logged Placed log) (hframe : frame ∈ framesOf streamID log) (hfin : frame.finBit = true) :
    ∃ before : List StreamFrame, framesOf streamID log = before ++ [frame] ∧
      (∀ other ∈ before, other.finBit = false) ∧
      frame.offset + frame.data.length = (dataOf streamID log).length := by
  obtain ⟨hin, hid⟩ := mem_filter.mp hframe
  obtain ⟨e, he, rfl⟩ := mem_map.mp hin
  obtain ⟨before, after, rfl⟩ := append_of_mem he
  have hid : e.frame.streamID = streamID := by simpa using hid
  obtain ⟨hoffset, hnone⟩ := h before e after rfl
  have hafter := framesOf_after_fin h hfin
  rw [hid] at hafter hoffset hnone
  have hall : framesOf streamID (before ++ e :: after) = framesOf streamID before ++ [e.frame] := by
    rw [framesOf_append, ← singleton_append, framesOf_append, framesOf_self hid, hafter,
      append_nil]
  refine ⟨framesOf streamID before, hall, hnone, ?_⟩
  rw [dataOf, hall, flatMap_append, length_append, hoffset]
  simp [dataOf]

-- In every run of writes, closes, window updates and pops the frames of a stream follow
-- each other without a gap, whatever was discarded. At most one of them has the FIN bit,
-- and that one ends where the stream ends. Without the switch they carry what was
-- written, up to what is still in the buffer.
theorem normal_framing_contiguous (iPriority : Bool) (params : ConnectionParameters)
    (events : List Event) (hready : Along step Ready (newFramer iPriority params) events)
    (f : Framer) (log : List Emission)
    (hrun : run step (newFramer iPriority params) events = some (f, log)) :
    (∀ before e after, log = before ++ e :: after →
      e.frame.offset = ((framesOf e.frame.streamID before).map (·.data.length)).sum) ∧
    (∀ streamID, ((framesOf streamID log).filter (·.finBit)).length ≤ 1 ∧
      ∀ frame ∈ framesOf streamID log, frame.finBit = true →
        frame.offset + frame.data.length =
          ((framesOf streamID log).map (·.data.length)).sum) ∧
    (iPriority = false → ∀ streamID s, f.streams streamID = some s →
      dataOf streamID log ++ s.pending = accepted streamID events ∧
        (s.dataForWriting = none → dataOf streamID log = accepted streamID events)) := by
  have h := run_framed hready hrun
  have hsum : ∀ streamID log, (dataOf streamID log).length =
      ((framesOf streamID log).map (·.data.length)).sum := by
    intro streamID log
    rw [dataOf, List.length_flatMap]
  refine ⟨?_, ?_, ?_⟩
  · intro before e after heq
    rw [(h.placed before e after heq).1, hsum]
  · intro streamID
    refine ⟨?_, ?_⟩
    · by_cases hany : ∃ frame ∈ framesOf streamID log, frame.finBit = true
      · obtain ⟨frame, hframe, hfin⟩ := hany
        obtain ⟨before, hall, hnone, -⟩ := fin_last h.placed hframe hfin
        have hfilter : before.filter (·.finBit) = [] := by
          rw [List.filter_eq_nil_iff]
          intro other hother
          simp [hnone other hother]
        rw [hall, List.filter_append, hfilter, List.nil_append]
        exact List.length_filter_le _ _
      · have hfilter : (framesOf streamID log).filter (·.finBit) = [] := by
          rw [List.filter_eq_nil_iff]
          exact fun frame hframe hfin => hany ⟨frame, hframe, hfin⟩
        rw [hfilter]
        exact Nat.zero_le _
    · intro frame hframe hfin
      obtain ⟨-, -, -, hend⟩ := fin_last h.placed hframe hfin
      rw [hend, hsum]
  · intro hoff streamID s hs
    have hpriority : f.iPriority = false := (run_iPriority hrun).trans hoff
    have hbytes := (h.known streamID s hs).bytes hpriority
    refine ⟨hbytes, fun hnone => ?_⟩
    rw [← hbytes, Stream.pending, hnone, Option.getD_none, List.append_nil]

theorem normal_framing_contiguous_example :
    ∃ f log, run step (newFramer false ⟨100, 100, 0, 0, 0, 0⟩)
        [.openStream 5, .openStream 7, .write 5 [1, 2, 3, 4, 5], .pop 8 false, .write 7 [6, 7],
          .close 5, .pop 40 false] = some (f, log) ∧
      dataOf 5 log = [1, 2, 3, 4, 5] ∧
      ∀ frame ∈ framesOf 5 log, frame.finBit = true → frame.offset + frame.data.length = 5 := by
  have hsplit := normal_framing_contiguous false ⟨100, 100, 0, 0, 0, 0⟩
    [.openStream 5, .openStream 7, .write 5 [1, 2, 3, 4, 5], .pop 8 false, .write 7 [6, 7],
      .close 5, .pop 40 false] (by decide) _ _ rfl
  refine ⟨_, _, rfl, ?_, ?_⟩
  · exact (hsplit.2.2 rfl 5 _ rfl).2 rfl
  · exact (hsplit.2.1 5).2

end MpQuic.Framing

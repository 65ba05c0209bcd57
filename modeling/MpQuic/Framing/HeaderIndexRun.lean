import MpQuic.Framing.HeaderIndex

namespace MpQuic.Framing

open MpQuic.Library MpQuic.Wire MpQuic.FlowControl List

-- There is room for the headers of a payload: there are at most thirty, or the loop ends
-- before the last place because it comes behind an I-frame.
def Stream.HeadersFit (s : Stream) (p : List UInt8) : Prop :=
  let headers := (List.range (p.length - 12)).filter (isHeader p)
  s.iStartinx = -1 → headers.length ≤ 30 ∨ ∃ i ∈ headers.take 29, isIHeader p i = true

instance (s : Stream) (p : List UInt8) : Decidable (s.HeadersFit p) := by
  unfold Stream.HeadersFit
  infer_instance

section Find

variable {data : List UInt8} {positions : List Nat} {countheader : Nat} {start stop : Int}

theorem findHeaders_behind_isSome (hstart : start ≠ -1)
    (hcount : countheader + (positions.filter (isHeader data)).length ≤ 30 ∨ countheader < 30) :
    ∃ found, findHeaders data positions countheader start stop = some found := by
  induction positions with
  | nil => exact ⟨_, rfl⟩
  | cons i rest ih =>
    unfold findHeaders
    by_cases hheader : isHeader data i = true
    · rw [filter_cons_of_pos hheader, length_cons] at hcount
      rw [if_pos hheader, if_neg (by omega), if_pos hstart]
      exact ⟨_, rfl⟩
    · rw [filter_cons_of_neg hheader] at hcount
      rw [if_neg hheader]
      exact ih hcount

theorem findHeaders_isSome
    (h : countheader + (positions.filter (isHeader data)).length ≤ 30 ∨
      ∃ i ∈ (positions.filter (isHeader data)).take (29 - countheader),
        isIHeader data i = true) :
    ∃ found, findHeaders data positions countheader (-1) stop = some found := by
  induction positions generalizing countheader with
  | nil => exact ⟨_, rfl⟩
  | cons i rest ih =>
    unfold findHeaders
    by_cases hheader : isHeader data i = true
    · rw [filter_cons_of_pos hheader, length_cons] at h
      rw [if_pos hheader]
      have hroom : countheader + (rest.filter (isHeader data)).length < 30 ∨
          countheader < 29 := by
        rcases h with hfew | ⟨j, hj, -⟩
        · exact Or.inl (by omega)
        · right
          by_contra hfull
          rw [show 29 - countheader = 0 by omega] at hj
          cases hj
      rw [if_neg (by omega), if_neg (fun hne => hne rfl)]
      by_cases hi : isIHeader data i = true
      · rw [if_pos hi]
        have hbehind : ∃ found,
            findHeaders data rest (countheader + 1) (i : Int) stop = some found :=
          findHeaders_behind_isSome (by omega) (by omega)
        obtain ⟨found, hfound⟩ := hbehind
        rw [hfound]
        exact ⟨_, rfl⟩
      · rw [if_neg hi]
        have hnext : countheader + 1 + (rest.filter (isHeader data)).length ≤ 30 ∨
            ∃ j ∈ (rest.filter (isHeader data)).take (29 - (countheader + 1)),
              isIHeader data j = true := by
          rcases h with hfew | ⟨j, hj, hij⟩
          · exact Or.inl (by omega)
          · rcases hroom with hfew | hlast
            · exact Or.inl (by omega)
            right
            rw [show 29 - countheader = (29 - (countheader + 1)) + 1 by omega,
              take_succ_cons] at hj
            rcases mem_cons.mp hj with rfl | hlater
            · exact absurd hij hi
            · exact ⟨j, hlater, hij⟩
        obtain ⟨found, hfound⟩ := ih hnext
        rw [hfound]
        exact ⟨_, rfl⟩
    · rw [filter_cons_of_neg hheader] at h
      rw [if_neg hheader]
      exact ih h

theorem findHeaders_sublist {found : FoundHeaders}
    (h : findHeaders data positions countheader start stop = some found) :
    found.headers.Sublist positions := by
  induction positions generalizing countheader start found with
  | nil =>
    cases h
    exact List.Sublist.slnil
  | cons i rest ih =>
    unfold findHeaders at h
    split at h
    · split at h
      · cases h
      split at h
      · cases h
        exact (nil_sublist rest).cons_cons i
      · obtain ⟨more, hmore, rfl⟩ := Option.map_eq_some_iff.mp h
        exact (ih hmore).cons_cons i
    · exact (ih h).cons i

end Find

-- `FindIframe` recorded a header at position `i` when this payload was written to the
-- stream.
def Recorded (initial : Framer) (events : List Event) (streamID : Nat) (payload : List UInt8)
    (i : Nat) : Prop :=
  ∃ before after f log s t, events = before ++ .write streamID payload :: after ∧
    run step initial before = some (f, log) ∧ f.streams streamID = some s ∧
    s.finishedWriting = false ∧ { s with dataForWriting := some payload }.findIframe = some t ∧
    (i : Int) ∈ t.nextHeaderOff.toList

theorem Recorded.snoc {initial : Framer} {past : List Event} {streamID i : Nat}
    {payload : List UInt8} (h : Recorded initial past streamID payload i) (event : Event) :
    Recorded initial (past ++ [event]) streamID payload i := by
  obtain ⟨before, after, f, log, s, t, rfl, hrest⟩ := h
  exact ⟨before, after ++ [event], f, log, s, t, by simp, hrest⟩

section Write

variable {s : Stream} {p : List UInt8}

theorem findIframe_tracked (hdata : s.dataForWriting = some p) (hfits : s.HeadersFit p) :
    ∃ t, s.findIframe = some t ∧
      Tracked (fun payload i => payload = p ∧ (i : Int) ∈ t.nextHeaderOff.toList) t.pending
        t.nextHeaderOff := by
  have hfind : ∃ found, findHeaders p (List.range (p.length - 12)) 0 s.iStartinx s.iEndinx =
      some found := by
    by_cases hstart : s.iStartinx = -1
    · rw [hstart]
      exact findHeaders_isSome ((hfits hstart).imp_left fun hfew => by omega)
    · exact findHeaders_behind_isSome hstart (Or.inr (by decide))
  obtain ⟨found, hfound⟩ := hfind
  have hpending : s.dataForWriting.getD [] = p := by rw [hdata, Option.getD_some]
  have hsublist := findHeaders_sublist hfound
  unfold Stream.findIframe
  dsimp only
  rw [hpending, hfound]
  refine ⟨_, rfl, ?_⟩
  have hsame : Stream.pending { s with
      iStartinx := found.iStartinx
      iEndinx := found.iEndinx
      nextHeaderOff := HeaderOffsets.ofList (found.headers.map Int.ofNat) } = p := hpending
  rw [hsame]
  apply tracked_ofList
  · rw [pairwise_map]
    exact (pairwise_lt_range.sublist hsublist).imp fun hlt => Int.ofNat_lt.mpr hlt
  · intro offset hoffset
    obtain ⟨i, hi, rfl⟩ := mem_map.mp hoffset
    have hlong : i < p.length - 12 := mem_range.mp (hsublist.subset hi)
    have hne : found.headers.map Int.ofNat ≠ [] := ne_nil_of_mem hoffset
    refine ⟨Int.natCast_nonneg i, p, 0, rfl, ⟨rfl, ?_⟩, ?_⟩
    · dsimp only
      rw [toList_ofList hne, Nat.zero_add]
      exact hoffset
    · show i + 12 ≤ p.length
      omega

end Write

def ShiftFitsAt (maxBytes : Nat) (lackbw : Bool) (st : PopState) (v : Visit) : Prop :=
  match asks maxBytes st v with
  | none => True
  | some (streamID, s) =>
    s.lenOfDataForWriting ≠ 0 →
      s.ShiftFits lackbw st.framer.flagBwUnenough (maxLenFor maxBytes st streamID s)

instance (maxBytes : Nat) (lackbw : Bool) (st : PopState) (v : Visit) :
    Decidable (ShiftFitsAt maxBytes lackbw st v) :=
  decidable_of_iff (∀ asked ∈ asks maxBytes st v, asked.2.lenOfDataForWriting ≠ 0 →
      asked.2.ShiftFits lackbw st.framer.flagBwUnenough (maxLenFor maxBytes st asked.1 asked.2)) (by
    unfold ShiftFitsAt
    cases asks maxBytes st v with
    | none => exact ⟨fun _ => trivial, fun _ => nofun⟩
    | some asked =>
      exact ⟨fun h => h asked rfl, fun h other hother => Option.mem_some.mp hother ▸ h⟩)

def IndexFits (f : Framer) : Event → Prop
  | .write streamID p => ∀ s ∈ f.streams streamID, s.finishedWriting = false → s.HeadersFit p
  | .pop maxBytes lackbw =>
    Along (visit maxBytes lackbw) (ShiftFitsAt maxBytes lackbw) ⟨f, 0, true⟩ f.visits
  | _ => True

instance (f : Framer) : (event : Event) → Decidable (IndexFits f event)
  | .write streamID p => inferInstanceAs (Decidable
      (∀ s ∈ f.streams streamID, s.finishedWriting = false → s.HeadersFit p))
  | .pop maxBytes lackbw => inferInstanceAs (Decidable (Along (visit maxBytes lackbw) _ _ _))
  | .openStream _ | .close _ | .updateWindow _ _ | .flag _ => isTrue trivial

structure Framer.Tracked (recorded : Nat → List UInt8 → Nat → Prop) (f : Framer) : Prop where
  iPriority : f.iPriority = true
  streams : ∀ streamID s, f.streams streamID = some s → s.err = false ∧
    MpQuic.Framing.Tracked (recorded streamID) s.pending s.nextHeaderOff

section Runs

variable {recorded : Nat → List UInt8 → Nat → Prop} {f f' : Framer} {streamID : Nat} {t : Stream}

theorem Framer.Tracked.replace (h : f.Tracked recorded) (hpriority : f'.iPriority = f.iPriority)
    (hstreams : f'.streams = Function.update f.streams streamID (some t)) (herr : t.err = false)
    (ht : MpQuic.Framing.Tracked (recorded streamID) t.pending t.nextHeaderOff) :
    f'.Tracked recorded := by
  refine ⟨hpriority.trans h.iPriority, ?_⟩
  intro id u hu
  rw [hstreams] at hu
  by_cases hid : id = streamID
  · rw [hid, Function.update_self] at hu
    cases hu
    exact ⟨herr, hid ▸ ht⟩
  · rw [Function.update_of_ne hid] at hu
    exact h.streams id u hu

theorem Framer.Tracked.mono {other : Nat → List UInt8 → Nat → Prop} (h : f.Tracked recorded)
    (himp : ∀ streamID payload i, recorded streamID payload i → other streamID payload i) :
    f.Tracked other :=
  ⟨h.iPriority, fun streamID s hs =>
    ⟨(h.streams streamID s hs).1, (h.streams streamID s hs).2.mono (himp streamID)⟩⟩

variable {maxBytes : Nat} {lackbw : Bool} {st : PopState} {s : Stream} {v : Visit}

theorem popFromStream_isSome
    (h : HasRoom maxBytes st streamID s →
      ∃ popped, popData st.framer lackbw (maxLenFor maxBytes st streamID s) s = some popped) :
    ∃ result, popFromStream maxBytes lackbw st streamID s = some result := by
  rw [popFromStream_eq]
  split
  · exact ⟨_, rfl⟩
  split
  · exact ⟨_, rfl⟩
  split
  · exact ⟨_, rfl⟩
  next hone hheader hmax =>
    obtain ⟨popped, hpopped⟩ := h ⟨hone, Nat.not_lt.mp hheader, hmax⟩
    rw [hpopped]
    exact ⟨_, rfl⟩

theorem visit_isSome
    (h : ∀ streamID s, asks maxBytes st v = some (streamID, s) →
      ∃ popped, popData st.framer lackbw (maxLenFor maxBytes st streamID s) s = some popped) :
    ∃ result, visit maxBytes lackbw st v = some result := by
  have hpop : ∀ streamID s, v.target st = some streamID → st.framer.streams streamID = some s →
      ∃ result, popFromStream maxBytes lackbw st streamID s = some result := by
    intro streamID s htarget hs
    apply popFromStream_isSome
    intro hroom
    apply h streamID s
    unfold asks
    rw [htarget]
    dsimp only
    rw [hs]
    exact if_pos hroom
  cases v with
  | prioritized streamID =>
    unfold visit
    dsimp only
    by_cases hcont : st.cont = false
    · rw [if_pos hcont]
      exact ⟨_, rfl⟩
    rw [if_neg hcont]
    cases hs : st.framer.streams streamID with
    | none => exact ⟨_, rfl⟩
    | some s => exact hpop streamID s (if_pos (by simpa using hcont)) hs
  | inTurn streamID =>
    unfold visit
    dsimp only
    by_cases hcont : st.cont = false
    · rw [if_pos hcont]
      exact ⟨_, rfl⟩
    rw [if_neg hcont]
    by_cases hfirst : streamID = 1 ∨ streamID = 3
    · rw [if_pos hfirst]
      exact ⟨_, rfl⟩
    rw [if_neg hfirst]
    cases hs : st.framer.streams streamID with
    | none => exact ⟨_, rfl⟩
    | some s =>
      obtain ⟨result, hresult⟩ := hpop streamID s
        (if_pos ⟨by simpa using hcont, by omega, by omega⟩) hs
      dsimp only
      rw [hresult]
      exact ⟨_, rfl⟩

theorem popData_tracked {maxLen : Nat} (h : f.Tracked recorded) (hs : f.streams streamID = some s)
    (hfits : s.lenOfDataForWriting ≠ 0 → s.ShiftFits lackbw f.flagBwUnenough maxLen) :
    ∃ gathered flag, popData f lackbw maxLen s = some (gathered, flag) ∧
      gathered.stream.err = false ∧
      MpQuic.Framing.Tracked (recorded streamID) gathered.stream.pending
        gathered.stream.nextHeaderOff := by
  obtain ⟨herr, htracked⟩ := h.streams streamID s hs
  unfold popData
  rw [h.iPriority]
  by_cases hlen : s.lenOfDataForWriting ≠ 0
  · obtain ⟨gathered, flag, htake, hnext⟩ := takeData_tracked herr htracked (hfits hlen)
    rw [if_pos hlen]
    exact ⟨gathered, flag, htake, (takeData_advanced herr htake).err.trans herr, hnext⟩
  · rw [if_neg hlen]
    exact ⟨_, _, rfl, herr, htracked⟩

theorem visit_tracked (h : st.framer.Tracked recorded) (hfits : ShiftFitsAt maxBytes lackbw st v) :
    ∃ next out, visit maxBytes lackbw st v = some (next, out) ∧ next.framer.Tracked recorded := by
  have hstream : ∀ streamID s, asks maxBytes st v = some (streamID, s) →
      st.framer.streams streamID = some s := by
    intro streamID s hasks
    unfold asks at hasks
    split at hasks
    · cases hasks
    split at hasks
    · cases hasks
    next s' hs' =>
      split at hasks
      · cases hasks
        exact hs'
      · cases hasks
  have hasked : ∀ streamID s, asks maxBytes st v = some (streamID, s) →
      s.lenOfDataForWriting ≠ 0 →
        s.ShiftFits lackbw st.framer.flagBwUnenough (maxLenFor maxBytes st streamID s) := by
    intro streamID s hasks
    unfold ShiftFitsAt at hfits
    rw [hasks] at hfits
    exact hfits
  obtain ⟨⟨next, out⟩, hvisit⟩ := visit_isSome fun streamID s hasks => by
    obtain ⟨gathered, flag, hpop, -⟩ :=
      popData_tracked h (hstream streamID s hasks) (hasked streamID s hasks)
    exact ⟨_, hpop⟩
  refine ⟨next, out, hvisit, ?_⟩
  have hkept : ∀ streamID s maxLen gathered flag, asks maxBytes st v = some (streamID, s) →
      Asked maxBytes lackbw st streamID s maxLen gathered flag →
        gathered.stream.err = false ∧ MpQuic.Framing.Tracked (recorded streamID)
          gathered.stream.pending gathered.stream.nextHeaderOff := by
    intro streamID s maxLen gathered flag hasks asked
    obtain ⟨_, _, hpop, hgathered⟩ :=
      popData_tracked h (hstream streamID s hasks) (hasked streamID s hasks)
    have hdata := asked.data
    rw [asked.maxLen_eq, hpop] at hdata
    cases hdata
    exact hgathered
  obtain ⟨asked, hasks, hvisited⟩ := visit_visited hvisit
  cases hvisited with
  | idle index cont => exact ⟨h.iPriority, h.streams⟩
  | silent streamID maxLen index s gathered flag cont asked data fin =>
    obtain ⟨herr, htracked⟩ := hkept streamID s maxLen gathered flag hasks asked
    exact h.replace rfl rfl herr htracked
  | framed streamID maxLen index s gathered flag cont blocked asked due =>
    obtain ⟨herr, htracked⟩ := hkept streamID s maxLen gathered flag hasks asked
    refine h.replace rfl rfl ?_ ?_
    · split <;> exact herr
    · split <;> exact htracked

theorem pop_tracked (h : f.Tracked recorded)
    (hfits : Along (visit maxBytes lackbw) (ShiftFitsAt maxBytes lackbw) ⟨f, 0, true⟩ f.visits) :
    ∃ next out, maybePopNormalFrames f maxBytes lackbw = some (next, out) ∧
      next.Tracked recorded := by
  obtain ⟨last, out, hrun, hlast⟩ := run_progress
    (fun _ _ (st : PopState) => st.framer.Tracked recorded)
    (fun _ _ _ _ hinv hcond => visit_tracked hinv hcond) [] [] ⟨f, 0, true⟩ f.visits h hfits
  exact ⟨last.framer, out, by rw [maybePopNormalFrames, hrun]; rfl, hlast⟩

end Runs

section Steps

variable {initial f : Framer} {past : List Event} {log : List Emission}

theorem write_tracked {streamID : Nat} {p : List UInt8} (h : f.Tracked (Recorded initial past))
    (hrun : run step initial past = some (f, log)) (hfits : IndexFits f (.write streamID p)) :
    ∃ next, f.write streamID p = some next ∧
      next.Tracked (Recorded initial (past ++ [.write streamID p])) := by
  have hold : f.Tracked (Recorded initial (past ++ [.write streamID p])) :=
    h.mono fun _ _ _ hrecorded => hrecorded.snoc _
  unfold Framer.write
  cases hs : f.streams streamID with
  | none => exact ⟨f, rfl, hold⟩
  | some s =>
    obtain ⟨herr, htracked⟩ := hold.streams streamID s hs
    have hwrite : ∃ t, s.write true p = some t ∧ t.err = false ∧
        Tracked (Recorded initial (past ++ [.write streamID p]) streamID) t.pending
          t.nextHeaderOff := by
      unfold Stream.write
      rw [if_neg (ne_true_of_eq_false herr)]
      by_cases hfin : s.finishedWriting = true
      · rw [if_pos hfin]
        exact ⟨s, rfl, herr, htracked⟩
      rw [if_neg hfin]
      by_cases hempty : p.length = 0
      · rw [if_pos hempty]
        exact ⟨s, rfl, herr, htracked⟩
      rw [if_neg hempty]
      have hopen : s.finishedWriting = false := by simpa using hfin
      obtain ⟨t, hfind, ht⟩ := findIframe_tracked (s := { s with dataForWriting := some p }) rfl
        (hfits s hs hopen)
      refine ⟨t, hfind, (findIframe_advanced hfind).1.err.trans herr, ht.mono ?_⟩
      rintro payload i ⟨rfl, hi⟩
      exact ⟨past, [], f, log, s, t, rfl, hrun, hs, hopen, hfind, hi⟩
    obtain ⟨t, ht, hterr, hnext⟩ := hwrite
    dsimp only
    rw [h.iPriority, ht]
    exact ⟨_, rfl, hold.replace rfl rfl hterr hnext⟩

theorem step_tracked {event : Event} (h : f.Tracked (Recorded initial past))
    (hrun : run step initial past = some (f, log)) (hfits : IndexFits f event) :
    ∃ next out, step f event = some (next, out) ∧
      next.Tracked (Recorded initial (past ++ [event])) := by
  have hold : f.Tracked (Recorded initial (past ++ [event])) :=
    h.mono fun _ _ _ hrecorded => hrecorded.snoc _
  cases event with
  | openStream streamID =>
    refine ⟨_, _, rfl, ?_⟩
    unfold Framer.openStream
    split
    · exact hold
    · exact hold.replace rfl rfl rfl (tracked_none (by decide))
  | write streamID p =>
    obtain ⟨next, hwrite, hnext⟩ := write_tracked h hrun hfits
    exact ⟨next, [], by rw [step, hwrite]; rfl, hnext⟩
  | close streamID =>
    refine ⟨_, _, rfl, ?_⟩
    unfold Framer.close
    split
    · exact hold
    next s hs =>
      obtain ⟨herr, htracked⟩ := hold.streams streamID s hs
      exact hold.replace rfl rfl herr htracked
  | updateWindow streamID offset => exact ⟨_, _, rfl, hold.iPriority, hold.streams⟩
  | flag flagBwUnenough => exact ⟨_, _, rfl, hold.iPriority, hold.streams⟩
  | pop maxBytes lackbw => exact pop_tracked hold hfits

end Steps

-- In every run in which the headers of the payloads find room and the shifts are right,
-- no slice is out of range, and every entry of the index is the position in the buffer of
-- a header that was recorded, with all of its bytes.
theorem header_index_consistent (params : ConnectionParameters) (events : List Event)
    (h : Along step IndexFits (newFramer true params) events) :
    ∃ f log, run step (newFramer true params) events = some (f, log) ∧
      ∀ streamID s, f.streams streamID = some s →
        ∀ offset ∈ s.nextHeaderOff.toList, 0 ≤ offset →
          HeaderAt (Recorded (newFramer true params) events streamID) s.pending offset := by
  obtain ⟨f, log, hrun, -, hf⟩ := run_progress
    (fun past log f => run step (newFramer true params) past = some (f, log) ∧
      f.Tracked (Recorded (newFramer true params) past))
    (fun past log f event hinv hcond => by
      obtain ⟨next, out, hstep, hnext⟩ := step_tracked hinv.2 hinv.1 hcond
      exact ⟨next, out, hstep, run_snoc hinv.1 hstep, hnext⟩)
    [] [] (newFramer true params) events ⟨rfl, rfl, nofun⟩ h
  exact ⟨f, log, hrun, fun streamID s hs => (hf.streams streamID s hs).2.located⟩

theorem header_index_consistent_example :
    ∃ f log, run step (newFramer true ⟨100, 100, 0, 0, 0, 0⟩)
        [.openStream 5, .write 5 (audioPacket ++ iframePacket), .pop 30 true] = some (f, log) ∧
      ∀ streamID s, f.streams streamID = some s →
        ∀ offset ∈ s.nextHeaderOff.toList, 0 ≤ offset →
          HeaderAt (Recorded (newFramer true ⟨100, 100, 0, 0, 0, 0⟩)
            [.openStream 5, .write 5 (audioPacket ++ iframePacket), .pop 30 true] streamID)
            s.pending offset :=
  header_index_consistent ⟨100, 100, 0, 0, 0, 0⟩
    [.openStream 5, .write 5 (audioPacket ++ iframePacket), .pop 30 true] (by decide)

-- The marker in front of an I-frame takes twelve bytes along, but the index is shifted by
-- what is left of the room after them: by one byte here. The entry points past the end.
-- And the search has no room for a header more than thirty.
theorem header_index_breaks :
    (∃ f log s, Along step Ready (newFramer true ⟨100, 100, 0, 0, 0, 0⟩)
        [.openStream 5, .write 5 (audioPacket ++ iframePacket), .pop 17 true] ∧
      run step (newFramer true ⟨100, 100, 0, 0, 0, 0⟩)
        [.openStream 5, .write 5 (audioPacket ++ iframePacket), .pop 17 true] = some (f, log) ∧
      f.streams 5 = some s ∧ 12 ∈ s.nextHeaderOff.toList ∧ s.pending.length < 12 + headerlen) ∧
    Along step Ready (newFramer true ⟨100, 100, 0, 0, 0, 0⟩)
      [.openStream 5, .write 5 (List.replicate 31 audioPacket).flatten] ∧
    run step (newFramer true ⟨100, 100, 0, 0, 0, 0⟩)
      [.openStream 5, .write 5 (List.replicate 31 audioPacket).flatten] = none := by
  refine ⟨⟨_, _, _, by decide, rfl, rfl, by decide, by decide⟩, ?_, ?_⟩
  · have hready : Along step Ready (newFramer true ⟨100, 100, 0, 0, 0, 0⟩)
        ([.openStream 5] ++ [.write 5 (List.replicate 31 audioPacket).flatten]) :=
      (Along.snoc (rfl : run step _ [.openStream 5] = some (_, _))).mpr ⟨by decide, by decide⟩
    exact hready
  · exact Option.isNone_iff_eq_none.mp (by decide +kernel)

end MpQuic.Framing

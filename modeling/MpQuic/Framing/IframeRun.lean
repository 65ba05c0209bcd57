import MpQuic.Framing.Offsets
import MpQuic.Framing.Discard
import MpQuic.Framing.Iframe

namespace MpQuic.Framing

open MpQuic.Library MpQuic.Wire MpQuic.FlowControl List Option Framer

section Find

variable {data : List UInt8} {positions : List Nat} {countheader : Nat} {start stop : Int}
  {found : FoundHeaders}

theorem findHeaders_behind (hstart : start ≠ -1)
    (h : findHeaders data positions countheader start stop = some found) :
    found.iStartinx = start ∧
      (found.headers = [] ∧ found.iEndinx = stop ∨
        ∃ j ∈ positions, found.headers = [j] ∧
          found.iEndinx = if j ≠ 0 then (j : Int) - 1 else -2) := by
  induction positions with
  | nil =>
    cases h
    exact ⟨rfl, Or.inl ⟨rfl, rfl⟩⟩
  | cons i rest ih =>
    unfold findHeaders at h
    split at h
    · split at h
      · cases h
      · cases h
        exact ⟨rfl, Or.inr ⟨i, mem_cons_self, rfl, rfl⟩⟩
    · obtain ⟨hfirst, hnext⟩ := ih h
      exact ⟨hfirst, hnext.imp_right fun ⟨j, hj, hrest⟩ => ⟨j, mem_cons_of_mem _ hj, hrest⟩⟩

theorem findHeaders_spec (hsorted : positions.Pairwise (· < ·))
    (h : findHeaders data positions countheader (-1) stop = some found) :
    (found.iStartinx = -1 ∧ found.iEndinx = stop) ∨
      ∃ front, ∃ i ∈ positions, found.iStartinx = i ∧ (∀ header ∈ front, header < i) ∧
        (found.headers = front ++ [i] ∧ found.iEndinx = stop ∨
          ∃ j, i < j ∧ j ∈ positions ∧ found.headers = front ++ [i, j] ∧
            found.iEndinx = (j : Int) - 1) := by
  induction positions generalizing countheader found with
  | nil =>
    cases h
    exact Or.inl ⟨rfl, rfl⟩
  | cons i rest ih =>
    obtain ⟨hlater, hrest⟩ := pairwise_cons.mp hsorted
    unfold findHeaders at h
    split at h
    · split at h
      · cases h
      rw [if_neg (fun hne => hne rfl)] at h
      obtain ⟨more, hmore, rfl⟩ := map_eq_some_iff.mp h
      by_cases hi : isIHeader data i = true
      · rw [if_pos hi] at hmore
        obtain ⟨hstart, hnext⟩ := findHeaders_behind (by omega) hmore
        refine Or.inr ⟨[], i, mem_cons_self, hstart, by simp, ?_⟩
        rcases hnext with ⟨hnone, hend⟩ | ⟨j, hj, hone, hend⟩
        · exact Or.inl ⟨by rw [hnone]; rfl, hend⟩
        · have hij : i < j := hlater j hj
          rw [if_pos (by omega)] at hend
          exact Or.inr ⟨j, hij, mem_cons_of_mem _ hj, by rw [hone]; rfl, hend⟩
      · rw [if_neg hi] at hmore
        rcases ih hrest hmore with hnone | ⟨front, k, hk, hstart, hfront, hend⟩
        · exact Or.inl hnone
        · refine Or.inr ⟨i :: front, k, mem_cons_of_mem _ hk, hstart, ?_, ?_⟩
          · intro header hheader
            rcases mem_cons.mp hheader with rfl | hin
            · exact hlater k hk
            · exact hfront header hin
          · rcases hend with ⟨hheaders, hend⟩ | ⟨j, hkj, hj, hheaders, hend⟩
            · exact Or.inl ⟨by rw [hheaders]; rfl, hend⟩
            · exact Or.inr ⟨j, hkj, mem_cons_of_mem _ hj, by rw [hheaders]; rfl, hend⟩
    · rcases ih hrest h with hnone | ⟨front, k, hk, hstart, hfront, hend⟩
      · exact Or.inl hnone
      · refine Or.inr ⟨front, k, mem_cons_of_mem _ hk, hstart, hfront, ?_⟩
        exact hend.imp_right fun ⟨j, hkj, hj, hother⟩ =>
          ⟨j, hkj, mem_cons_of_mem _ hj, hother⟩

end Find

-- The I-frame that was found in the buffer: the bytes from its header up to the next
-- header that was found, or up to the end.
def Stream.iframe (s : Stream) : List UInt8 :=
  match s.nextHeaderOff.toList.find? (· > s.iStartinx) with
  | some next => (s.pending.drop s.iStartinx.toNat).take (next - s.iStartinx).toNat
  | none => s.pending.drop s.iStartinx.toNat

section Write

variable {s t : Stream} {p : List UInt8}

theorem toList_ofList {offsets : List Int} (h : offsets ≠ []) :
    (HeaderOffsets.ofList offsets).toList = offsets := by
  cases offsets with
  | nil => exact absurd rfl h
  | cons first rest => rfl

theorem find_none {front : List Nat} {i : Nat} (hfront : ∀ header ∈ front, header < i) :
    ((front ++ [i]).map Int.ofNat).find? (· > (i : Int)) = none := by
  rw [List.find?_eq_none]
  intro offset hoffset
  obtain ⟨header, hheader, rfl⟩ := mem_map.mp hoffset
  rcases mem_append.mp hheader with hin | hlast
  · have hlt := hfront header hin
    simp only [gt_iff_lt, decide_eq_true_eq, Int.ofNat_eq_natCast]
    omega
  · rw [mem_singleton.mp hlast]
    simp

theorem findIframe_holds (herr : s.err = false) (hstart : s.iStartinx = -1)
    (hend : s.iEndinx = -1) (hfound : s.findIframe = some t) (hnew : t.iStartinx ≠ -1) :
    ∃ lead tail, t.Holds lead t.iframe tail := by
  obtain ⟨found, hfind, rfl⟩ := map_eq_some_iff.mp hfound
  rw [hstart, hend] at hfind
  dsimp only at hnew
  rcases findHeaders_spec pairwise_lt_range hfind with hnone |
    ⟨front, i, hi, hi', hfront, hnext⟩
  · exact absurd hnone.1 hnew
  have hlong : i < s.pending.length - 12 := mem_range.mp hi
  have hlead : (s.pending.take i).length = i := by
    rw [length_take]
    omega
  have hrest : s.pending.drop i ≠ [] := by
    apply ne_nil_of_length_pos
    rw [length_drop]
    omega
  unfold Stream.iframe
  rcases hnext with ⟨hheaders, hstop⟩ | ⟨j, hij, hj, hheaders, hstop⟩
  · refine ⟨s.pending.take i, [], ?_⟩
    dsimp only
    rw [hheaders, toList_ofList (by simp), hi', find_none hfront, Int.toNat_natCast]
    refine ⟨herr, ?_, hrest, Or.inl ⟨hstop, rfl, Or.inl ?_⟩⟩
    · rw [append_nil]
      exact (take_append_drop i s.pending).symm
    · show (i : Int) = _
      rw [hlead]
  · have hlist : (front ++ [i, j]).map Int.ofNat =
        (front ++ [i]).map Int.ofNat ++ [(j : Int)] := by simp
    have hjlong : j < s.pending.length - 12 := mem_range.mp hj
    refine ⟨s.pending.take i, s.pending.drop j, ?_⟩
    dsimp only
    rw [hheaders, toList_ofList (by simp), hi', hlist, List.find?_append, find_none hfront,
      Int.toNat_natCast]
    have hsome : [(j : Int)].find? (· > (i : Int)) = some (j : Int) := by simp [hij]
    have hcount : ((j : Int) - i).toNat = j - i := by omega
    rw [none_or, hsome]
    dsimp only
    rw [hcount]
    show Stream.Holds _ _ ((s.pending.drop i).take (j - i)) _
    have hpart : ((s.pending.drop i).take (j - i)).length = j - i := by
      rw [length_take, length_drop]
      omega
    refine ⟨herr, ?_, ne_nil_of_length_pos (by omega), Or.inr ⟨?_, ?_⟩⟩
    · show s.pending = _
      have hback : (s.pending.drop i).drop (j - i) = s.pending.drop j := by
        rw [drop_drop]
        congr 1
        omega
      rw [append_assoc, ← hback, take_append_drop, take_append_drop]
    · show (i : Int) = _
      rw [hlead]
    · show _ ≤ found.iEndinx + 1
      rw [hlead, hpart, hstop]
      omega

theorem write_holds (herr : s.err = false) (hstart : s.iStartinx = -1) (hend : s.iEndinx = -1)
    (hwrite : s.write true p = some t) (hnew : t.iStartinx ≠ -1) :
    (∃ lead tail, t.Holds lead t.iframe tail) ∧ t.pending = p := by
  unfold Stream.write at hwrite
  rw [if_neg (by simp [herr])] at hwrite
  split at hwrite
  · cases hwrite
    exact absurd hstart hnew
  split at hwrite
  · cases hwrite
    exact absurd hstart hnew
  dsimp only at hwrite
  rw [if_pos rfl] at hwrite
  refine ⟨findIframe_holds (s := { s with dataForWriting := some p }) herr hstart hend hwrite hnew, ?_⟩
  rw [Stream.pending, (findIframe_advanced hwrite).2]
  rfl

end Write

def Stream.Indexed (s : Stream) : Prop :=
  s.iStartinx = -1 → s.iEndinx = -1

section Indexed

variable {s t : Stream}

variable {flag iPriority : Bool} {maxLen : Nat} {d : Discarded}

theorem discardLack_indices (h : s.discardLack flag maxLen = some d) :
    (d.stream.iStartinx = s.iStartinx ∨ d.stream.iStartinx = 0) ∧
      d.stream.iEndinx = s.iEndinx := by
  unfold Stream.discardLack at h
  dsimp only at h
  split at h
  · cases h
    exact ⟨Or.inl rfl, rfl⟩
  split at h
  · split at h
    · obtain ⟨t, ht, rfl⟩ := map_eq_some_iff.mp h
      obtain ⟨rest, -, rfl⟩ := map_eq_some_iff.mp ht
      exact ⟨Or.inr rfl, rfl⟩
    · obtain ⟨headers, -, rfl⟩ := map_eq_some_iff.mp h
      exact ⟨Or.inl rfl, rfl⟩
  split at h
  · split at h <;> cases h <;> exact ⟨Or.inl rfl, rfl⟩
  · cases h
    exact ⟨Or.inl rfl, rfl⟩

theorem discardRest_indices (h : s.discardRest = some d) :
    (d.stream.iStartinx = s.iStartinx ∨ d.stream.iStartinx = 0) ∧
      d.stream.iEndinx = s.iEndinx := by
  unfold Stream.discardRest at h
  dsimp only at h
  split at h
  · obtain ⟨t, ht, rfl⟩ := map_eq_some_iff.mp h
    obtain ⟨rest, -, rfl⟩ := map_eq_some_iff.mp ht
    refine ⟨?_, rfl⟩
    dsimp only
    split
    · exact Or.inr rfl
    · exact Or.inl rfl
  split at h <;> cases h <;> exact ⟨Or.inl rfl, rfl⟩

theorem gatherHeaders_indices (pattern : List UInt8) (patterncnt : Nat) (data : Option (List UInt8))
    (maxLen : Nat) (wrapped : Bool) :
    (s.gatherHeaders pattern patterncnt data maxLen wrapped).stream.iStartinx = s.iStartinx ∧
      (s.gatherHeaders pattern patterncnt data maxLen wrapped).stream.iEndinx = s.iEndinx := by
  induction patterncnt generalizing s data maxLen wrapped with
  | zero => exact ⟨rfl, rfl⟩
  | succ patterncnt ih =>
    obtain ⟨hstart, hend⟩ := getDataForWriting_indices (s := s) headerlen
    unfold Stream.gatherHeaders
    obtain ⟨hstart', hend'⟩ := ih (s := (s.getDataForWriting headerlen).1.addPattern pattern)
      (some (data.getD [] ++ (s.getDataForWriting headerlen).2.getD [] ++ pattern))
      (if maxLen < headerlen then maxLen + 2 ^ 64 - headerlen else maxLen - headerlen)
      (wrapped || maxLen < headerlen)
    exact ⟨hstart'.trans hstart, hend'.trans hend⟩

theorem gather_indices (pattern : List UInt8) (patterncnt maxLen : Nat) :
    (s.gather pattern patterncnt maxLen).stream.iStartinx = s.iStartinx ∧
      (s.gather pattern patterncnt maxLen).stream.iEndinx = s.iEndinx := by
  obtain ⟨hstart, hend⟩ := getDataForWriting_indices (s := s) maxLen
  unfold Stream.gather
  split
  · split
    · obtain ⟨hstart', hend'⟩ := gatherHeaders_indices
        (s := (s.getDataForWriting maxLen).1.addPattern pattern) pattern (patterncnt - 1)
        (some (pattern ++ (s.getDataForWriting maxLen).2.getD [])) maxLen false
      exact ⟨hstart'.trans hstart, hend'.trans hend⟩
    · exact gatherHeaders_indices pattern patterncnt none maxLen false
  · exact ⟨hstart, hend⟩

theorem Stream.Indexed.updateIndices (h : s.Indexed) (maxLen : Int) :
    (s.updateIndices maxLen).Indexed := by
  unfold Stream.Indexed at h ⊢
  unfold Stream.updateIndices
  split_ifs <;> intro hstart <;> simp_all

theorem Stream.Indexed.takeData {lackbw flag' : Bool} {gathered : Gathered} (h : s.Indexed)
    (htake : s.takeData iPriority lackbw flag maxLen = some (gathered, flag')) :
    gathered.stream.Indexed := by
  obtain ⟨d, hd, he⟩ := map_eq_some_iff.mp htake
  cases he
  have hkept : (d.stream.iStartinx = s.iStartinx ∨ d.stream.iStartinx = 0) ∧
      d.stream.iEndinx = s.iEndinx := by
    rcases discard_stream hd with ⟨-, -, -, flag', hlack⟩ | ⟨-, -, -, hrest⟩ | ⟨-, hsame, -, -⟩
    · have hindices := discardLack_indices hlack
      exact hindices
    · exact discardRest_indices hrest
    · rw [hsame]
      exact ⟨Or.inl rfl, rfl⟩
  obtain ⟨hstart, hend⟩ := gather_indices (s := d.stream) d.retPattern d.retPatternCnt maxLen
  apply Stream.Indexed.updateIndices
  intro hnone
  have hnone : (d.stream.gather d.retPattern d.retPatternCnt maxLen).stream.iStartinx = -1 := hnone
  show (d.stream.gather d.retPattern d.retPatternCnt maxLen).stream.iEndinx = -1
  rw [hend, hkept.2]
  apply h
  omega

theorem Stream.Indexed.write {p : List UInt8} (h : s.Indexed)
    (hwrite : s.write iPriority p = some t) : t.Indexed := by
  unfold Stream.write at hwrite
  split at hwrite
  · cases hwrite
    exact h
  split at hwrite
  · cases hwrite
    exact h
  split at hwrite
  · cases hwrite
    exact h
  dsimp only at hwrite
  split at hwrite
  · obtain ⟨found, hfind, rfl⟩ := map_eq_some_iff.mp hwrite
    dsimp only at hfind
    intro hstart
    dsimp only at hstart ⊢
    by_cases hnew : s.iStartinx = -1
    · rw [hnew] at hfind
      rcases findHeaders_spec pairwise_lt_range hfind with ⟨-, hend⟩ |
        ⟨front, i, -, hi, -⟩
      · rw [hend]
        exact h hnew
      · omega
    · obtain ⟨hold, -⟩ := findHeaders_behind hnew hfind
      exact absurd (hold.symm.trans hstart) hnew
  · cases hwrite
    exact h

end Indexed

def Framer.Indexed (f : Framer) : Prop :=
  ∀ streamID s, f.streams streamID = some s → s.err = false ∧ s.Indexed

section Runs

variable {f f' : Framer} {streamID : Nat} {s t : Stream}

theorem Framer.Indexed.replace (h : f.Indexed)
    (hstreams : f'.streams = Function.update f.streams streamID (some t)) (herr : t.err = false)
    (ht : t.Indexed) : f'.Indexed := by
  intro id u hu
  rw [hstreams] at hu
  by_cases hid : id = streamID
  · rw [hid, Function.update_self] at hu
    cases hu
    exact ⟨herr, ht⟩
  · rw [Function.update_of_ne hid] at hu
    exact h id u hu

theorem Asked.indexed {maxBytes maxLen : Nat} {lackbw flag : Bool} {st : PopState}
    {gathered : Gathered} (asked : Asked maxBytes lackbw st streamID s maxLen gathered flag)
    (h : st.framer.Indexed) : gathered.stream.err = false ∧ gathered.stream.Indexed := by
  obtain ⟨herr, hs⟩ := h streamID s asked.stream
  have hdata := asked.data
  refine ⟨(popData_spec herr hdata).1.err.trans herr, ?_⟩
  unfold popData at hdata
  split at hdata
  · exact hs.takeData hdata
  · cases hdata
    exact hs

variable {out : List Emission}

theorem visit_indexed {maxBytes : Nat} {lackbw : Bool} {st next : PopState} {v : Visit}
    (h : st.framer.Indexed)
    (hv : visit maxBytes lackbw st v = some (next, out)) : next.framer.Indexed := by
  obtain ⟨_, -, hvisited⟩ := visit_visited hv
  cases hvisited with
  | idle index cont => exact h
  | silent streamID maxLen index s gathered flag cont asked data fin =>
    obtain ⟨herr, hindexed⟩ := asked.indexed h
    exact h.replace rfl herr hindexed
  | framed streamID maxLen index s gathered flag cont blocked asked due =>
    obtain ⟨herr, hindexed⟩ := asked.indexed h
    refine h.replace rfl ?_ ?_
    · split
      · exact herr
      · exact herr
    · split
      · exact hindexed
      · exact hindexed

theorem step_indexed {event : Event} (h : f.Indexed)
    (hstep : step f event = some (f', out)) : f'.Indexed := by
  cases event with
  | openStream streamID =>
    cases hstep
    unfold Framer.openStream
    split
    · exact h
    · exact h.replace rfl rfl (fun _ => rfl)
  | write streamID p =>
    obtain ⟨g, hwrite, he⟩ := map_eq_some_iff.mp hstep
    cases he
    unfold Framer.write at hwrite
    split at hwrite
    · cases hwrite
      exact h
    next s hs =>
      obtain ⟨t, ht, rfl⟩ := map_eq_some_iff.mp hwrite
      obtain ⟨herr, hindexed⟩ := h streamID s hs
      exact h.replace rfl ((write_spec herr ht).1.err.trans herr) (hindexed.write ht)
  | close streamID =>
    cases hstep
    unfold Framer.close
    split
    · exact h
    next s hs =>
      obtain ⟨herr, hindexed⟩ := h streamID s hs
      exact h.replace rfl herr hindexed
  | updateWindow streamID offset =>
    cases hstep
    exact h
  | flag flagBwUnenough =>
    cases hstep
    exact h
  | pop maxBytes lackbw =>
    exact pop_keeps (fun _ g => g.Indexed) [] (fun _ _ _ _ _ hinv _ hv => visit_indexed hinv hv)
      h (Along.always _ _) hstep

theorem run_indexed {iPriority : Bool} {params : ConnectionParameters} {events : List Event}
    {log : List Emission} (hrun : run step (newFramer iPriority params) events = some (f, log)) :
    f.Indexed :=
  run_invariant (fun _ _ g => g.Indexed) (fun _ _ _ _ _ _ hinv _ hstep => step_indexed hinv hstep)
    [] [] (newFramer iPriority params) f events log (by simp [Framer.Indexed, newFramer])
    (Along.always _ _) hrun

end Runs

def Emitted (bytes data : List UInt8) : Prop :=
  ∃ before marked after, data = before ++ marked ++ after ∧ Marked bytes marked

-- An I-frame is out, or a part of it is and the rest stands in the buffer. Every frame
-- took at least one byte of the payload.
inductive Kept (streamID : Nat) (iframe : List UInt8) (payload : Nat) (log : List Emission)
    (f : Framer) : Prop where
  | out (emitted : Emitted iframe (dataOf streamID log))
  | held (s : Stream) (before marked sent lead rest tail : List UInt8)
      (stream : f.streams streamID = some s) (data : dataOf streamID log = before ++ marked)
      (inOrder : Marked sent marked) (parts : iframe = sent ++ rest)
      (unsent : lead ≠ [] → marked = []) (holds : s.Holds lead rest tail)
      (shorter : (framesOf streamID log).length + s.pending.length ≤ payload)

def SparesAt (streamID maxBytes : Nat) (lackbw : Bool) (st : PopState) (v : Visit) : Prop :=
  match asks maxBytes st v with
  | none => True
  | some (id, s) =>
    id = streamID → s.lenOfDataForWriting ≠ 0 →
      s.Spares lackbw st.framer.flagBwUnenough (maxLenFor maxBytes st id s)

instance (streamID maxBytes : Nat) (lackbw : Bool) (st : PopState) (v : Visit) :
    Decidable (SparesAt streamID maxBytes lackbw st v) :=
  match h : asks maxBytes st v with
  | none => isTrue (by rw [SparesAt, h]; trivial)
  | some asked =>
    decidable_of_iff (asked.1 = streamID → asked.2.lenOfDataForWriting ≠ 0 →
      asked.2.Spares lackbw st.framer.flagBwUnenough (maxLenFor maxBytes st asked.1 asked.2))
      (by rw [SparesAt, h])

def IframeSpared (streamID : Nat) (f : Framer) : Event → Prop
  | .pop maxBytes lackbw =>
    Along (visit maxBytes lackbw) (SparesAt streamID maxBytes lackbw) ⟨f, 0, true⟩ f.visits
  | _ => True

instance (streamID : Nat) (f : Framer) : (event : Event) → Decidable (IframeSpared streamID f event)
  | .pop maxBytes lackbw => inferInstanceAs (Decidable (Along (visit maxBytes lackbw) _ _ _))
  | .openStream _ | .write _ _ | .close _ | .updateWindow _ _ | .flag _ => isTrue trivial

section Kept

variable {streamID payload : Nat} {iframe : List UInt8} {log : List Emission} {f f' : Framer}

variable {e out : List Emission} {s t : Stream}

theorem Kept.other (h : Kept streamID iframe payload log f)
    (hframes : framesOf streamID e = []) (hstream : f'.streams streamID = f.streams streamID) :
    Kept streamID iframe payload (log ++ e) f' := by
  have hsame : framesOf streamID (log ++ e) = framesOf streamID log := by
    rw [framesOf_append, hframes, append_nil]
  have hdata : dataOf streamID (log ++ e) = dataOf streamID log := by
    rw [dataOf, hsame]
    rfl
  cases h with
  | out emitted => exact .out (hdata ▸ emitted)
  | held s before marked sent lead rest tail stream data inOrder parts unsent holds shorter =>
    exact .held s before marked sent lead rest tail (hstream.trans stream) (hdata.trans data)
      inOrder parts unsent holds (hsame ▸ shorter)

theorem Kept.touch (h : Kept streamID iframe payload log f)
    (hs : f.streams streamID = some s) (ht : f'.streams streamID = some t) (herr : t.err = s.err)
    (hdata : t.dataForWriting = s.dataForWriting) (hstart : t.iStartinx = s.iStartinx)
    (hend : t.iEndinx = s.iEndinx) : Kept streamID iframe payload log f' := by
  cases h with
  | out emitted => exact .out emitted
  | held u before marked sent lead rest tail stream data inOrder parts unsent holds shorter =>
    cases hs.symm.trans stream
    refine .held t before marked sent lead rest tail ht data inOrder parts unsent
      (holds.congr herr hdata hstart hend) ?_
    rw [Stream.pending, hdata]
    exact shorter

theorem Kept.take {u : Stream} {data : List UInt8}
    (h : Kept streamID iframe payload log f) (hs : f.streams streamID = some s)
    (hu : f'.streams streamID = some u)
    (hgiven : ∀ lead rest tail, s.Holds lead rest tail →
      Given lead rest data t ∧ t.pending.length < s.pending.length)
    (hdata : dataOf streamID (log ++ e) = dataOf streamID log ++ data)
    (hcount : (framesOf streamID e).length ≤ 1) (herr : u.err = t.err)
    (hbuffer : u.dataForWriting = t.dataForWriting) (hstart : u.iStartinx = t.iStartinx)
    (hend : u.iEndinx = t.iEndinx) : Kept streamID iframe payload (log ++ e) f' := by
  cases h with
  | out emitted =>
    obtain ⟨before, marked, after, hparts, hmarked⟩ := emitted
    refine .out ⟨before, marked, after ++ data, ?_, hmarked⟩
    rw [hdata, hparts, append_assoc]
  | held v before marked sent lead rest tail stream hlog inOrder parts unsent holds shorter =>
    cases hs.symm.trans stream
    obtain ⟨⟨skipped, more, left, marked', back, htaken, hrest, hmore, hskipped, hleft⟩, hless⟩ :=
      hgiven lead rest tail holds
    -- what is skipped comes before the I-frame, of which nothing is out in that case
    have hall : dataOf streamID (log ++ e) =
        (before ++ skipped) ++ (marked ++ marked') ++ back := by
      rw [hdata, hlog, htaken]
      by_cases hlead : lead = []
      · rw [hskipped hlead]
        simp
      · rw [unsent hlead]
        simp
    have hsent : iframe = (sent ++ more) ++ left := by
      rw [parts, hrest, append_assoc]
    rcases hleft with hnone | ⟨hback, lead', tail', hholds, hlead'⟩
    · refine .out ⟨_, _, _, hall, ?_⟩
      rw [hsent, hnone, append_nil]
      exact inOrder.append hmore
    · rw [hback, append_nil] at hall
      refine .held u _ _ _ lead' left tail' hu hall (inOrder.append hmore) hsent ?_
        (hholds.congr herr hbuffer hstart hend) ?_
      · intro hne
        obtain ⟨hlead, hnone⟩ := hlead' hne
        rw [unsent hlead, hnone]
        rfl
      · rw [framesOf_append, length_append, Stream.pending, hbuffer]
        have hshort : t.pending.length < s.pending.length := hless
        have hsame : t.pending.length = (t.dataForWriting.getD []).length := rfl
        omega

theorem Stream.Holds.lenOfDataForWriting_ne {lead rest tail : List UInt8}
    (h : s.Holds lead rest tail) : s.lenOfDataForWriting ≠ 0 := by
  have hlong := length_pos_of_ne_nil h.rest_ne
  unfold Stream.lenOfDataForWriting
  rw [if_neg (by simp [h.err])]
  show s.pending.length ≠ 0
  rw [h.pending, length_append, length_append]
  omega

theorem Asked.given {maxBytes maxLen : Nat} {lackbw flag : Bool} {st : PopState}
    {gathered : Gathered} (asked : Asked maxBytes lackbw st streamID s maxLen gathered flag)
    (hon : st.framer.iPriority = true)
    (hspares : s.lenOfDataForWriting ≠ 0 → s.Spares lackbw st.framer.flagBwUnenough maxLen) :
    ∀ lead rest tail, s.Holds lead rest tail →
      Given lead rest (gathered.data.getD []) gathered.stream ∧
        gathered.stream.pending.length < s.pending.length := by
  intro lead rest tail holds
  have hdata := asked.data
  have hlen := holds.lenOfDataForWriting_ne
  rw [popData, if_pos hlen, hon] at hdata
  exact takeData_spared holds (Nat.pos_of_ne_zero asked.maxLen_ne) (hspares hlen) hdata

theorem visit_kept {maxBytes : Nat} {lackbw : Bool} {st next : PopState} {v : Visit}
    (h : Kept streamID iframe payload log st.framer)
    (hon : st.framer.iPriority = true) (hspares : SparesAt streamID maxBytes lackbw st v)
    (hv : visit maxBytes lackbw st v = some (next, out)) :
    Kept streamID iframe payload (log ++ out) next.framer := by
  obtain ⟨_, hasks, hvisited⟩ := visit_visited hv
  unfold SparesAt at hspares
  rw [hasks] at hspares
  cases hvisited with
  | idle index cont => exact h.other rfl rfl
  | silent id maxLen index s gathered flag cont asked data fin =>
    by_cases hid : id = streamID
    · subst hid
      have hgiven := asked.given hon (asked.maxLen_eq ▸ hspares rfl)
      rw [data] at hgiven
      refine h.take asked.stream (streams_setStream_self _ _ _) hgiven ?_ (Nat.zero_le _)
        rfl rfl rfl rfl
      simp
    · exact h.other rfl (streams_setStream_of_ne _ _ (Ne.symm hid))
  | framed id maxLen index s gathered flag cont blocked asked due =>
    by_cases hid : id = streamID
    · subst hid
      have hgiven := asked.given hon (asked.maxLen_eq ▸ hspares rfl)
      refine h.take asked.stream (streams_setStream_self _ _ _) hgiven ?_ ?_ ?_ ?_ ?_ ?_
      · rw [dataOf_append]
        simp [dataOf, framesOf]
      · simp [framesOf]
      all_goals split <;> rfl
    · exact h.other (framesOf_other hid) (streams_setStream_of_ne _ _ (Ne.symm hid))

section

variable (h : Kept streamID iframe payload log f)

include h

theorem Kept.elsewhere {id : Nat}
    (hid : id ≠ streamID) : Kept streamID iframe payload log (f.setStream id t) := by
  have hnext := h.other (e := []) rfl (streams_setStream_of_ne f t (Ne.symm hid))
  rw [append_nil] at hnext
  exact hnext

theorem Kept.write {p : List UInt8}
    (hs : f.streams streamID = some s) (hready : s.finishedWriting = true ∨ s.dataForWriting = none)
    (hwrite : s.write f.iPriority p = some t) :
    Kept streamID iframe payload log (f.setStream streamID t) := by
  cases h with
  | out emitted => exact .out emitted
  | held u before marked sent lead rest tail stream data inOrder parts unsent holds shorter =>
    cases hs.symm.trans stream
    have hclosed : s.finishedWriting = true := by
      refine hready.resolve_right fun hnone => holds.lenOfDataForWriting_ne ?_
      simp [Stream.lenOfDataForWriting, hnone]
    rw [(write_spec holds.err hwrite).2.1 hclosed]
    exact .held s before marked sent lead rest tail (streams_setStream_self _ _ _) data
      inOrder parts unsent holds shorter

theorem step_kept {event : Event}
    (hon : f.iPriority = true) (hready : Ready f event) (hspares : IframeSpared streamID f event)
    (hstep : step f event = some (f', out)) : Kept streamID iframe payload (log ++ out) f' := by
  cases event with
  | openStream id =>
    cases hstep
    rw [append_nil]
    unfold Framer.openStream
    split
    · exact h
    next hnone =>
      cases h with
      | out emitted => exact .out emitted
      | held s before marked sent lead rest tail stream data inOrder parts unsent holds shorter =>
        have hid : streamID ≠ id := by
          rintro rfl
          cases hnone.symm.trans stream
        exact .held s before marked sent lead rest tail
          ((streams_setStream_of_ne _ _ hid).trans stream) data inOrder parts unsent
          holds shorter
  | write id p =>
    obtain ⟨g, hwrite, he⟩ := map_eq_some_iff.mp hstep
    cases he
    rw [append_nil]
    unfold Framer.write at hwrite
    split at hwrite
    · cases hwrite
      exact h
    next s hs =>
      obtain ⟨t, ht, rfl⟩ := map_eq_some_iff.mp hwrite
      by_cases hid : id = streamID
      · subst hid
        exact h.write hs (by simpa [Ready, hs] using hready) ht
      · exact h.elsewhere hid
  | close id =>
    cases hstep
    rw [append_nil]
    unfold Framer.close
    split
    · exact h
    next s hs =>
      by_cases hid : id = streamID
      · subst hid
        exact h.touch hs (streams_setStream_self _ _ _) rfl rfl rfl rfl
      · exact h.elsewhere hid
  | updateWindow id offset =>
    cases hstep
    exact h.other rfl rfl
  | flag flagBwUnenough =>
    cases hstep
    exact h.other rfl rfl
  | pop maxBytes lackbw =>
    have hinit : Kept streamID iframe payload log f ∧ f.iPriority = true := ⟨h, hon⟩
    refine (pop_keeps (fun log g => Kept streamID iframe payload log g ∧ g.iPriority = true) log
      ?_ hinit hspares hstep).1
    intro log st v next out hinv hc hv
    exact ⟨visit_kept hinv.1 hinv.2 hc hv, (visit_iPriority hv).trans hinv.2⟩

theorem Kept.emitted
    (hs : f.streams streamID = some s) : Emitted iframe (dataOf streamID log ++ s.pending) := by
  cases h with
  | out emitted =>
    obtain ⟨before, marked, after, hparts, hmarked⟩ := emitted
    refine ⟨before, marked, after ++ s.pending, ?_, hmarked⟩
    rw [hparts, append_assoc]
  | held u before marked sent lead rest tail stream data inOrder parts unsent holds shorter =>
    cases hs.symm.trans stream
    refine ⟨before ++ lead, marked ++ rest, tail, ?_, ?_⟩
    · rw [data, holds.pending]
      by_cases hlead : lead = []
      · simp [hlead]
      · simp [unsent hlead]
    · rw [parts]
      exact inOrder.append (.refl rest)

theorem Kept.out_of_frames
    (hmany : payload ≤ (framesOf streamID log).length) : Emitted iframe (dataOf streamID log) := by
  cases h with
  | out emitted => exact emitted
  | held s before marked sent lead rest tail stream data inOrder parts unsent holds shorter =>
    have hlong := length_pos_of_ne_nil holds.rest_ne
    have htotal : s.pending.length = lead.length + rest.length + tail.length := by
      rw [holds.pending, length_append, length_append]
    omega

end

end Kept

-- An I-frame that a write recorded reaches the frames of its stream, if every visit that
-- takes data from the stream spares it: nothing of it is discarded while it waits in the
-- buffer, and after as many frames as the payload has bytes all of it is out.
theorem iframe_emitted (params : ConnectionParameters) (before after : List Event)
    (f g h : Framer) (earlier log : List Emission) (streamID : Nat) (p : List UInt8)
    (s t : Stream) (hbefore : run step (newFramer true params) before = some (f, earlier))
    (hwrite : step f (.write streamID p) = some (g, [])) (hs : f.streams streamID = some s)
    (ht : g.streams streamID = some t) (hidle : s.iStartinx = -1) (hfound : t.iStartinx ≠ -1)
    (hafter : run step g after = some (h, log)) (hready : Along step Ready g after)
    (hspared : Along step (IframeSpared streamID) g after) :
    (∀ u, h.streams streamID = some u → Emitted t.iframe (dataOf streamID log ++ u.pending)) ∧
      (p.length ≤ (framesOf streamID log).length → Emitted t.iframe (dataOf streamID log)) := by
  have hon : f.iPriority = true := run_iPriority hbefore
  obtain ⟨herr, hindexed⟩ := run_indexed hbefore streamID s hs
  have ht' : s.write true p = some t := by
    obtain ⟨g', hw, he⟩ := Option.map_eq_some_iff.mp hwrite
    cases he
    unfold Framer.write at hw
    simp only [hs, hon] at hw
    obtain ⟨u, hu, rfl⟩ := Option.map_eq_some_iff.mp hw
    rw [Framer.streams_setStream_self] at ht
    rw [hu, ht]
  obtain ⟨⟨lead, tail, hholds⟩, hpending⟩ := write_holds herr hidle (hindexed hidle) ht' hfound
  have hinit : Kept streamID t.iframe p.length [] g := by
    refine .held t [] [] [] lead t.iframe tail ht rfl .nil rfl (fun _ => rfl) hholds ?_
    rw [hpending]
    simp [framesOf]
  have hkept := run_invariant
    (fun _ log g => Kept streamID t.iframe p.length log g ∧ g.iPriority = true)
    (fun _ _ _ _ _ _ hinv hcond hstep =>
      ⟨step_kept hinv.1 hinv.2 hcond.1 hcond.2 hstep, (step_iPriority hstep).trans hinv.2⟩)
    [] [] g h after log ⟨hinit, (step_iPriority hwrite).trans hon⟩ (hready.and hspared) hafter
  exact ⟨fun u hu => hkept.1.emitted hu, hkept.1.out_of_frames⟩

def iframePacket : List UInt8 :=
  [7, 0, 0, 0, 0, 0, 0, 9, 1, 0, 0, 0, 23, 1, 2, 3, 4, 5, 6, 7]

theorem iframe_emitted_example :
    ∃ g h log t u, step ((newFramer true ⟨100, 100, 0, 0, 0, 0⟩).openStream 5)
        (.write 5 (iframePacket ++ audioPacket)) = some (g, []) ∧
      g.streams 5 = some t ∧ run step g [.pop 16 true, .pop 18 true] = some (h, log) ∧
      h.streams 5 = some u ∧ Emitted t.iframe (dataOf 5 log ++ u.pending) :=
  ⟨_, _, _, _, _, rfl, rfl, rfl, rfl,
    (iframe_emitted ⟨100, 100, 0, 0, 0, 0⟩ [.openStream 5] [.pop 16 true, .pop 18 true] _ _ _ _ _ 5
      (iframePacket ++ audioPacket) _ _ rfl rfl rfl rfl (by decide)
      (by decide) rfl (by decide) (by decide)).1 _ rfl⟩

-- Twelve bytes of an I-frame that goes on to the end of the payload are sent. Then the
-- bandwidth becomes too small, and the other eight are discarded.
theorem iframe_tail_discarded :
    ¬∀ (params : ConnectionParameters) (before after : List Event) (f g h : Framer)
      (earlier log : List Emission) (streamID : Nat) (p : List UInt8) (s t u : Stream),
      run step (newFramer true params) before = some (f, earlier) →
      step f (.write streamID p) = some (g, []) → f.streams streamID = some s →
      g.streams streamID = some t → s.iStartinx = -1 → t.iStartinx ≠ -1 →
      run step g after = some (h, log) → Along step Ready g after → h.streams streamID = some u →
        Emitted t.iframe (dataOf streamID log ++ u.pending) := by
  intro hall
  obtain ⟨first, marked, last, hparts, hmarked⟩ := hall ⟨100, 100, 0, 0, 0, 0⟩ [.openStream 5]
    [.pop 16 false, .pop 24 true] _ _ _ _ _ 5 iframePacket _ _ _ rfl rfl rfl rfl (by decide)
    (by decide) rfl (by decide) rfl
  have hiframe : 20 ≤ marked.length := hmarked.length_le
  have hdata : 16 = (first ++ marked ++ last).length := congrArg List.length hparts
  rw [List.length_append, List.length_append] at hdata
  omega

end MpQuic.Framing

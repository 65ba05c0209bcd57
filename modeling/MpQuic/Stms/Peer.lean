import MpQuic.FlowControl.Receive
import MpQuic.Stms.Theorems
import MpQuic.Stms.Connection

namespace MpQuic.Stms.Peer

open MpQuic.Library MpQuic.Wire MpQuic.FlowControl List Function

inductive Event where
  | openStream (streamID : Nat)
  | write (streamID : Nat) (p : List UInt8)
  | windowUpdate (streamID offset : Nat)
  | pop (maxBytes : Nat) (gap : Int)
  deriving DecidableEq, Repr

structure Emission where
  frame : StreamFrame
  streamWindow : Nat
  connWindow : Nat
  deriving DecidableEq, Repr

def step (f : Framer) : Event → Option (Framer × List Emission)
  | .openStream streamID => some (f.openStream streamID, [])
  | .write streamID p => some (f.write streamID p, [])
  | .windowUpdate streamID offset =>
    some ({ f with flowControlManager := f.flowControlManager.updateWindow streamID offset }, [])
  | .pop maxBytes gap =>
    (maybePopNormalFramesSTMS f maxBytes gap).map fun popped =>
      (popped.1, popped.2.map fun frame =>
        ⟨frame, f.streamWindow frame.streamID, f.connWindow⟩)

-- A slower path finds room for the bytes it leaves in front of its frames.
def Room (f : Framer) : Event → Prop
  | .pop maxBytes gap => gap < 0 ∨ ∀ id ∈ f.openStreams, RoomFor f maxBytes gap id
  | _ => True

-- The connection has no open hole, or room for all of them.
def ConnRoom (f : Framer) : Event → Prop
  | .pop maxBytes gap =>
    f.total (fun s _ => ahead s gap) = 0 ∨
      f.flowControlManager.connFlowController.bytesSent + f.total (fun s _ => ahead s gap) +
        maxBytes ≤ f.connWindow
  | _ => True

instance (f : Framer) (budget : Nat) (gap : Int) (streamID : Nat) :
    Decidable (RoomFor f budget gap streamID) :=
  match hs : f.streams streamID, hc : f.flowControlManager.streamFlowController streamID with
  | some s, some c => decidable_of_iff
      (ahead s gap = 0 ∨ c.bytesSent + ahead s gap +
        min budget (s.dataForWriting.getD []).length ≤ f.streamWindow streamID)
      (by simp [RoomFor, hs, hc])
  | none, _ => isTrue (by simp [RoomFor, hs])
  | _, none => isTrue (by cases f.streams streamID <;> simp [RoomFor, hc])

instance (f : Framer) : (event : Event) → Decidable (Room f event)
  | .pop maxBytes gap => inferInstanceAs
      (Decidable (gap < 0 ∨ ∀ id ∈ f.openStreams, RoomFor f maxBytes gap id))
  | .openStream _ | .write _ _ | .windowUpdate _ _ => isTrue trivial

section Accounts

variable {f : Framer} {streamID : Nat} {s : Stream} {c : FlowController}

theorem write_replaced (hs : f.streams streamID = some s)
    (hc : f.flowControlManager.streamFlowController streamID = some c) (p : List UInt8) :
    Replaced f (f.write streamID p) streamID (s.write p) c := by
  simp only [Framer.write, hs]
  refine ⟨rfl, ?_, rfl⟩
  rw [← hc, update_eq_self]
  rfl

theorem budget_write {bytesSent : Nat} (h : Budget s bytesSent) (p : List UInt8) :
    Budget (s.write p) bytesSent := by
  obtain ⟨hf, hss, hsn⟩ := write_offsets s p
  have hgap : (s.write p).gap = s.gap := by
    unfold Stream.write
    split_ifs <;> rfl
  have ho := h.offsets
  refine ⟨⟨?_, ?_, ?_, ?_⟩, (write_finishedWriting s p).trans h.finishedWriting, ?_⟩
  all_goals rw [hss]
  · exact hf ▸ ho.fastest
  · exact hsn ▸ ho.slower
  · exact hf ▸ hsn ▸ ho.closed
  · exact hf ▸ hsn ▸ hgap ▸ ho.hole
  · exact hf ▸ hsn ▸ h.paid

theorem updateWindow_replaced (hs : f.streams streamID = some s)
    (hc : f.flowControlManager.streamFlowController streamID = some c) (hid : streamID ≠ 0)
    (offset : Nat) :
    Replaced f
      { f with flowControlManager := f.flowControlManager.updateWindow streamID offset }
      streamID s (c.updateSendWindow offset) := by
  refine ⟨?_, ?_, ?_⟩
  · rw [← hs, update_eq_self]
  · simp only [FlowControlManager.updateWindow, if_neg hid, hc]
    rfl
  · simp only [FlowControlManager.updateWindow, if_neg hid, hc]
    rfl

structure Quiet (f f' : Framer) : Prop where
  accounts : Accounts f'
  grows : ∀ id s, f.streams id = some s →
    ∃ t, f'.streams id = some t ∧ s.writeOffsetSN ≤ t.writeOffsetSN
  total : f'.total (fun s _ => s.writeOffsetSN) = f.total (fun s _ => s.writeOffsetSN)

theorem Quiet.refl (h : Accounts f) : Quiet f f :=
  ⟨h, fun _ s hs => ⟨s, hs, Nat.le_refl _⟩, rfl⟩

theorem quiet_of_replaced {f' : Framer} {t : Stream} {d : FlowController} (ha : Accounts f)
    (h : Replaced f f' streamID t d) (hopen : f'.openStreams = f.openStreams)
    (hs : f.streams streamID = some s)
    (hc : f.flowControlManager.streamFlowController streamID = some c)
    (hflag : d.contributesToConnection = c.contributesToConnection)
    (hsent : d.bytesSent = c.bytesSent) (hb : Budget t c.bytesSent)
    (hreach : t.writeOffsetSN = s.writeOffsetSN)
    (hconn : f.flowControlManager.connFlowController.bytesSent ≤
      f'.flowControlManager.connFlowController.bytesSent) : Quiet f f' := by
  refine ⟨ha.replace h hopen hs hc hflag (hsent ▸ hb) (n := 0) hsent (by simpa using hconn), ?_, ?_⟩
  · intro id u hu
    rw [h.streams]
    by_cases hid : id = streamID
    · rw [hid, hs] at hu
      cases hu
      rw [hid, update_self]
      exact ⟨t, rfl, Nat.le_of_eq hreach.symm⟩
    · rw [update_of_ne hid]
      exact ⟨u, hu, Nat.le_refl _⟩
  · have hshare : ∀ id, f'.share (fun s _ => s.writeOffsetSN) id =
        f.share (fun s _ => s.writeOffsetSN) id := by
      intro id
      by_cases hid : id = streamID
      · rw [hid, h.share_self hflag]
        simp only [Framer.share, hs, hc, hreach]
      · exact h.share_other _ hid
    rw [Framer.total, hopen]
    exact congrArg List.sum (map_congr_left fun id _ => hshare id)

theorem quiet_write (h : Accounts f) (p : List UInt8) : Quiet f (f.write streamID p) := by
  cases hs : f.streams streamID with
  | none =>
    have hsame : f.write streamID p = f := by simp only [Framer.write, hs]
    rw [hsame]
    exact .refl h
  | some s =>
    obtain ⟨c, hc, hb⟩ := h.budget streamID s hs
    have hframer : f.write streamID p = f.setStream streamID (s.write p) := by
      simp only [Framer.write, hs]
    exact quiet_of_replaced h (write_replaced hs hc p) (by rw [hframer]; rfl) hs hc rfl rfl
      (budget_write hb p) (write_offsets s p).2.2 (by rw [hframer]; exact Nat.le_refl _)

theorem quiet_updateWindow (h : Accounts f) (offset : Nat) :
    Quiet f { f with flowControlManager := f.flowControlManager.updateWindow streamID offset } := by
  by_cases hid : streamID = 0
  · have hsent : (f.flowControlManager.connFlowController.updateSendWindow offset).bytesSent =
        f.flowControlManager.connFlowController.bytesSent := by
      simp only [FlowController.updateSendWindow]
      split_ifs <;> rfl
    simp only [FlowControlManager.updateWindow, if_pos hid]
    exact ⟨⟨h.nodup, h.listed, h.known, h.budget, Nat.le_trans h.total (Nat.le_of_eq hsent.symm)⟩,
      fun _ s hs => ⟨s, hs, Nat.le_refl _⟩, rfl⟩
  cases hc : f.flowControlManager.streamFlowController streamID with
  | none =>
    simp only [FlowControlManager.updateWindow, if_neg hid, hc]
    exact .refl h
  | some c =>
    obtain ⟨s, hs⟩ := Option.ne_none_iff_exists'.mp (h.known streamID c hc).1
    obtain ⟨c', hc', hb⟩ := h.budget streamID s hs
    obtain rfl : c = c' := Option.some.inj (hc ▸ hc')
    refine quiet_of_replaced h (updateWindow_replaced hs hc hid offset) rfl hs hc ?_ ?_ hb rfl ?_
    · simp only [FlowController.updateSendWindow]
      split_ifs <;> rfl
    · simp only [FlowController.updateSendWindow]
      split_ifs <;> rfl
    · simp only [FlowControlManager.updateWindow, if_neg hid, hc]
      exact Nat.le_refl _

theorem budget_newStream (bytesSent : Nat) : Budget newStream bytesSent :=
  ⟨⟨Nat.le_refl _, Nat.le_refl _, fun _ => rfl, fun _ => rfl⟩, rfl, Nat.zero_le _⟩

theorem quiet_openStream (h : Accounts f) : Quiet f (f.openStream streamID) := by
  cases hs : f.streams streamID with
  | some s =>
    have hsame : f.openStream streamID = f := by simp only [Framer.openStream, hs]
    rw [hsame]
    exact .refl h
  | none =>
    have hc : f.flowControlManager.streamFlowController streamID = none := by
      by_contra hne
      obtain ⟨c, hc⟩ := Option.ne_none_iff_exists'.mp hne
      exact (h.known streamID c hc).1 hs
    have hnew : streamID ∉ f.openStreams := fun hmem => (h.listed streamID).mpr hmem hs
    obtain ⟨f', hf'⟩ : ∃ f', f' = f.openStream streamID := ⟨_, rfl⟩
    have hopen : f'.openStreams = f.openStreams ++ [streamID] := by
      rw [hf']
      simp only [Framer.openStream, hs]
    have hreplaced : Replaced f f' streamID newStream
        (newFlowController f.flowControlManager.params streamID
          (contributesToConnection streamID)) := by
      rw [hf']
      simp only [Framer.openStream, hs, FlowControlManager.newStream, hc]
      exact ⟨rfl, rfl, rfl⟩
    have hconn : f'.flowControlManager.connFlowController =
        f.flowControlManager.connFlowController := by
      rw [hf']
      simp only [Framer.openStream, hs, FlowControlManager.newStream, hc]
      rfl
    have htotal : ∀ g : Stream → FlowController → Nat,
        g newStream (newFlowController f.flowControlManager.params streamID
          (contributesToConnection streamID)) = 0 → f'.total g = f.total g := by
      intro g hg
      have hself : f'.share g streamID = 0 := by
        rw [hreplaced.share_self rfl, hg, ite_self]
      have hold : f.openStreams.map (f'.share g) = f.openStreams.map (f.share g) :=
        map_congr_left fun id hid =>
          hreplaced.share_other g fun he => hnew (he ▸ hid)
      simp only [Framer.total, hopen, map_append, map_singleton, sum_append,
        sum_singleton, hself, hold, Nat.add_zero]
    rw [← hf']
    refine ⟨⟨?_, ?_, ?_, ?_, ?_⟩, ?_, htotal _ rfl⟩
    · rw [hopen]
      refine nodup_append.mpr ⟨h.nodup, pairwise_singleton _ _, ?_⟩
      intro a ha b hb he
      exact hnew (mem_singleton.mp hb ▸ he ▸ ha)
    · intro id
      rw [hopen, hreplaced.streams]
      by_cases hid : id = streamID
      · simp [hid]
      · simp [h.listed id, hid]
    · intro id d hd
      rw [hreplaced.controllers] at hd
      rw [hreplaced.streams]
      by_cases hid : id = streamID
      · rw [hid, update_self] at hd
        cases hd
        rw [hid, update_self]
        exact ⟨by simp, rfl⟩
      · rw [update_of_ne hid] at hd ⊢
        exact h.known id d hd
    · intro id u hu
      rw [hreplaced.streams] at hu
      rw [hreplaced.controllers]
      by_cases hid : id = streamID
      · rw [hid, update_self] at hu ⊢
        cases hu
        exact ⟨_, rfl, budget_newStream _⟩
      · rw [update_of_ne hid] at hu ⊢
        exact h.budget id u hu
    · rw [htotal _ rfl, hconn]
      exact h.total
    · intro id u hu
      have hid : id ≠ streamID := by
        rintro rfl
        rw [hs] at hu
        cases hu
      rw [hreplaced.streams, update_of_ne hid]
      exact ⟨u, hu, Nat.le_refl _⟩

end Accounts

variable {f f' : Framer} {event : Event} {out log : List Emission}

theorem step_cases (h : Accounts f) (hstep : step f event = some (f', out)) :
    (out = [] ∧ Quiet f f') ∨ ∃ maxBytes gap st, event = .pop maxBytes gap ∧
      PopInv f maxBytes gap st ∧ st.framer = f' ∧
      out = st.res.map fun frame => ⟨frame, f.streamWindow frame.streamID, f.connWindow⟩ := by
  cases event with
  | openStream streamID =>
    cases hstep
    exact Or.inl ⟨rfl, quiet_openStream h⟩
  | write streamID p =>
    cases hstep
    exact Or.inl ⟨rfl, quiet_write h p⟩
  | windowUpdate streamID offset =>
    cases hstep
    exact Or.inl ⟨rfl, quiet_updateWindow h offset⟩
  | pop maxBytes gap =>
    obtain ⟨⟨g, frames⟩, hpop, he⟩ := Option.map_eq_some_iff.mp hstep
    obtain ⟨st, hinv, rfl, rfl⟩ := maybePopNormalFramesSTMS_inv h hpop
    cases he
    exact Or.inr ⟨maxBytes, gap, st, rfl, hinv, rfl, rfl⟩

def Fits (log : List Emission) : Prop :=
  ∀ e ∈ log, e.frame.offset + e.frame.dataLen ≤ e.streamWindow

theorem accounts_newFramer (params : ConnectionParameters) : Accounts (newFramer params) :=
  ⟨nodup_nil, by simp [newFramer], by simp [newFramer, newFlowControlManager],
    by simp [newFramer], Nat.zero_le _⟩

theorem step_fits (h : Accounts f ∧ Fits log) (hroom : Room f event)
    (hstep : step f event = some (f', out)) : Accounts f' ∧ Fits (log ++ out) := by
  obtain ⟨ha, hfits⟩ := h
  rcases step_cases ha hstep with ⟨rfl, hquiet⟩ | ⟨maxBytes, gap, st, rfl, hinv, rfl, rfl⟩
  · exact ⟨hquiet.accounts, by simpa using hfits⟩
  · refine ⟨hinv.accounts, ?_⟩
    have hall : gap < 0 ∨ ∀ id, RoomFor f maxBytes gap id := by
      refine hroom.imp_right fun hlisted id => ?_
      by_cases hid : id ∈ f.openStreams
      · exact hlisted id hid
      · have hnone : f.streams id = none := by
          by_contra hne
          exact hid ((ha.listed id).mp hne)
        simp only [RoomFor, hnone]
    intro e he
    rcases mem_append.mp he with he | he
    · exact hfits e he
    · obtain ⟨frame, hframe, rfl⟩ := mem_map.mp he
      exact hinv.fits hall frame hframe

structure Reached (log : List Emission) (f : Framer) : Prop where
  accounts : Accounts f
  stream : ∀ e ∈ log, ∃ s, f.streams e.frame.streamID = some s ∧
    e.frame.offset + e.frame.dataLen ≤ s.writeOffsetSN
  conn : ∀ bound, (∀ e ∈ log, e.connWindow ≤ bound) →
    f.total (fun s _ => s.writeOffsetSN) ≤ bound

theorem total_reach_le (h : Accounts f) (gap : Int) :
    f.total (fun s _ => s.writeOffsetSN) ≤
      f.flowControlManager.connFlowController.bytesSent + f.total (fun s _ => ahead s gap) := by
  have hshare : ∀ id, f.share (fun s _ => s.writeOffsetSN) id ≤
      f.share (fun _ c => c.bytesSent) id + f.share (fun s _ => ahead s gap) id := by
    intro id
    simp only [Framer.share]
    split
    · next s c hs hc =>
        obtain ⟨c', hc', hb⟩ := h.budget id s hs
        obtain rfl : c = c' := Option.some.inj (hc ▸ hc')
        have := hb.reach_le gap
        split_ifs <;> omega
    · exact Nat.zero_le _
  calc f.total (fun s _ => s.writeOffsetSN)
      ≤ (f.openStreams.map fun id =>
          f.share (fun _ c => c.bytesSent) id + f.share (fun s _ => ahead s gap) id).sum :=
        sum_le_sum fun id _ => hshare id
    _ = f.total (fun _ c => c.bytesSent) + f.total (fun s _ => ahead s gap) := sum_map_add
    _ ≤ _ := Nat.add_le_add_right h.total _

theorem step_reached (h : Reached log f) (hroom : ConnRoom f event)
    (hstep : step f event = some (f', out)) : Reached (log ++ out) f' := by
  rcases step_cases h.accounts hstep with ⟨rfl, hquiet⟩ | ⟨maxBytes, gap, st, rfl, hinv, rfl, rfl⟩
  · rw [append_nil]
    refine ⟨hquiet.accounts, ?_, fun bound hb => hquiet.total ▸ h.conn bound hb⟩
    intro e he
    obtain ⟨s, hs, hstop⟩ := h.stream e he
    obtain ⟨t, ht, hle⟩ := hquiet.grows _ s hs
    exact ⟨t, ht, Nat.le_trans hstop hle⟩
  · refine ⟨hinv.accounts, ?_, ?_⟩
    · intro e he
      rcases mem_append.mp he with he | he
      · obtain ⟨s, hs, hstop⟩ := h.stream e he
        obtain ⟨t, ht, hle⟩ := hinv.grows _ s hs
        exact ⟨t, ht, Nat.le_trans hstop hle⟩
      · obtain ⟨frame, hframe, rfl⟩ := mem_map.mp he
        exact hinv.reach frame hframe
    · intro bound hbound
      rcases hinv.conn with hsame | ⟨⟨frame, hframe, -⟩, hsent⟩
      · have htotal : st.framer.total (fun s _ => s.writeOffsetSN) =
            f.total (fun s _ => s.writeOffsetSN) := by
          rw [Framer.total, hinv.openStreams]
          exact congrArg List.sum (map_congr_left fun id _ => hsame id)
        rw [htotal]
        exact h.conn bound fun e he => hbound e (mem_append_left _ he)
      · have hwindow : f.connWindow ≤ bound :=
          hbound _ (mem_append_right _ (mem_map_of_mem hframe))
        have hahead : st.framer.total (fun s _ => ahead s gap) ≤ f.total (fun s _ => ahead s gap) := by
          rw [Framer.total, hinv.openStreams]
          exact sum_le_sum fun id _ => hinv.ahead_le id
        have hreach := total_reach_le hinv.accounts gap
        have hlen := hinv.len
        have hcount := hinv.sent
        rcases hroom with hnone | hroom
        · omega
        · omega

structure Advertised (peer : FlowControlManager) (log : List Emission) : Prop where
  stream : ∀ e ∈ log, ∃ c, peer.streamFlowController e.frame.streamID = some c ∧
    e.streamWindow ≤ c.receiveWindow
  conn : ∀ e ∈ log, e.connWindow ≤ peer.connFlowController.receiveWindow
  fresh : ∀ id c, peer.streamFlowController id = some c →
    c.highestReceived = 0 ∧ c.contributesToConnection = contributesToConnection id
  connFresh : peer.connFlowController.highestReceived = 0

def reach (f : Framer) (streamID : Nat) : Nat :=
  match f.streams streamID with
  | none => 0
  | some s => s.writeOffsetSN

theorem Reached.allowance_le {peer : FlowControlManager}
    (h : Reached log f) (hp : Advertised peer log) :
    (f.openStreams.map (allowance peer (reach f))).sum ≤
      peer.connFlowController.receiveWindow := by
  refine Nat.le_trans (sum_le_sum fun id _ => ?_) (h.conn _ hp.conn)
  simp only [allowance, reach, Framer.share]
  split
  · exact Nat.zero_le _
  · next c hc =>
      cases hs : f.streams id with
      | none => simp
      | some s =>
        obtain ⟨d, hd, -⟩ := h.accounts.budget id s hs
        simp only [hd, (hp.fresh id c hc).2, (h.accounts.known id d hd).2]
        exact Nat.le_refl _

-- When the slower paths find room for the bytes they leave in front, no frame
-- reaches beyond the window of its stream. When the connection has room for them
-- too, a peer that gets the frames in any order reports nothing.
theorem frames_within_window (params : ConnectionParameters) (events : List Event)
    (hroom : Along step Room (newFramer params) events) (f : Framer) (log : List Emission)
    (hrun : run step (newFramer params) events = some (f, log)) :
    (∀ e ∈ log, e.frame.offset + e.frame.dataLen ≤ e.streamWindow) ∧
    (Along step ConnRoom (newFramer params) events →
      ∀ peer, Advertised peer log →
        ∀ frames : List StreamFrame, (∀ frame ∈ frames, ∃ e ∈ log, e.frame = frame) →
          peer.receive (frames.map fun frame => (frame.streamID, frame.offset + frame.dataLen)) =
            []) := by
  have hfits : Accounts f ∧ Fits log := by
    simpa using run_invariant (fun _ log f => Accounts f ∧ Fits log)
      (fun _ _ _ _ _ _ hinv hcond hstep => step_fits hinv hcond hstep)
      [] [] (newFramer params) f events log ⟨accounts_newFramer params, by simp [Fits]⟩ hroom hrun
  refine ⟨hfits.2, ?_⟩
  intro hconn peer hpeer frames hframes
  have hinit : Reached [] (newFramer params) :=
    ⟨accounts_newFramer params, by simp, fun _ _ => Nat.zero_le _⟩
  have hreached : Reached log f := by
    simpa using run_invariant (fun _ log f => Reached log f)
      (fun _ _ _ _ _ _ hinv hcond hstep => step_reached hinv hcond hstep)
      [] [] (newFramer params) f events log hinit hconn hrun
  have hstart : Received peer f.openStreams (reach f) peer := by
    refine ⟨rfl, fun _ c hc => ⟨c, hc, rfl, rfl⟩, ?_, ?_⟩
    · intro id d hd
      have := (hpeer.fresh id d hd).1
      exact ⟨d, hd, rfl, by omega, by omega⟩
    · rw [hpeer.connFresh]
      exact Nat.zero_le _
  refine receive_eq_nil hreached.accounts.nodup (hreached.allowance_le hpeer) _ ?_ hstart
  intro a ha
  obtain ⟨frame, hframe, rfl⟩ := List.mem_map.mp ha
  obtain ⟨e, he, rfl⟩ := hframes frame hframe
  obtain ⟨s, hs, hstop⟩ := hreached.stream e he
  obtain ⟨c, hc, hwindow⟩ := hpeer.stream e he
  refine ⟨(hreached.accounts.listed _).mp (by simp [hs]), ?_, c, hc, ?_⟩
  · simpa only [reach, hs] using hstop
  · exact Nat.le_trans (hfits.2 e he) hwindow

theorem frames_within_window_example :
    ∃ f log, run step (newFramer ⟨10, 100, 0, 0, 0, 0⟩)
        [.openStream 5, .write 5 [1, 2, 3, 4, 5, 6], .pop 13 2, .pop 1000 (-1)] = some (f, log) ∧
      ∀ e ∈ log, e.frame.offset + e.frame.dataLen ≤ e.streamWindow :=
  ⟨_, _, rfl, (frames_within_window ⟨10, 100, 0, 0, 0, 0⟩
    [.openStream 5, .write 5 [1, 2, 3, 4, 5, 6], .pop 13 2, .pop 1000 (-1)]
    (by decide) _ _ rfl).1⟩

-- Twelve bytes are written and the window allows five. The slower path leaves
-- seven bytes in front and sends the rest.
theorem slower_path_exceeds_window :
    ¬∀ (params : ConnectionParameters) (events : List Event) (f : Framer) (log : List Emission),
      run step (newFramer params) events = some (f, log) →
        ∀ e ∈ log, e.frame.offset + e.frame.dataLen ≤ e.streamWindow := by
  intro h
  have hfits := h ⟨5, 100, 0, 0, 0, 0⟩
    [.openStream 5, .write 5 [1, 2, 3, 4, 5, 6, 7, 8, 9, 10, 11, 12], .pop 100 7] _ _ rfl
    ⟨⟨5, false, true, 7, [8, 9, 10, 11, 12]⟩, 5, 100⟩ (by decide)
  exact absurd hfits (by decide)

end MpQuic.Stms.Peer

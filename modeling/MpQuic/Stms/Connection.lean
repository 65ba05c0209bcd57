import MpQuic.Library.Sum
import MpQuic.FlowControl.Send
import MpQuic.Stms.Window

namespace MpQuic.Stms

open MpQuic.Library MpQuic.Wire MpQuic.FlowControl Function FlowControlManager

namespace Framer

def streamWindow (f : Framer) (streamID : Nat) : Nat :=
  match f.flowControlManager.streamFlowController streamID with
  | none => 0
  | some c => c.getSendWindow f.flowControlManager.params

def connWindow (f : Framer) : Nat :=
  f.flowControlManager.connFlowController.getSendWindow f.flowControlManager.params

def share (f : Framer) (g : Stream → FlowController → Nat) (streamID : Nat) : Nat :=
  match f.streams streamID, f.flowControlManager.streamFlowController streamID with
  | some s, some c => if c.contributesToConnection then g s c else 0
  | _, _ => 0

def total (f : Framer) (g : Stream → FlowController → Nat) : Nat :=
  (f.openStreams.map (f.share g)).sum

def charge (f : Framer) (streamID : Nat) (t : Stream) (n : Nat) (blocked : List Nat) : Framer :=
  { f.setStream streamID t with
    flowControlManager := f.flowControlManager.addBytesSent streamID n
    blockedFrameQueue := f.blockedFrameQueue ++ blocked }

end Framer

-- Every stream has its flow controller, which has counted its bytes, and the
-- connection has counted those of all the streams that contribute to it.
structure Accounts (f : Framer) : Prop where
  nodup : f.openStreams.Nodup
  listed : ∀ id, f.streams id ≠ none ↔ id ∈ f.openStreams
  known : ∀ id c, f.flowControlManager.streamFlowController id = some c →
    f.streams id ≠ none ∧ c.contributesToConnection = contributesToConnection id
  budget : ∀ id s, f.streams id = some s →
    ∃ c, f.flowControlManager.streamFlowController id = some c ∧ Budget s c.bytesSent
  total : f.total (fun _ c => c.bytesSent) ≤ f.flowControlManager.connFlowController.bytesSent

structure Replaced (f f' : Framer) (streamID : Nat) (t : Stream) (d : FlowController) : Prop where
  streams : f'.streams = Function.update f.streams streamID (some t)
  controllers : f'.flowControlManager.streamFlowController =
    Function.update f.flowControlManager.streamFlowController streamID (some d)
  params : f'.flowControlManager.params = f.flowControlManager.params

section Replace

variable {f f' : Framer} {streamID : Nat} {s t : Stream} {c d : FlowController}

theorem Replaced.share_self (h : Replaced f f' streamID t d)
    (hflag : d.contributesToConnection = c.contributesToConnection)
    (g : Stream → FlowController → Nat) :
    f'.share g streamID = if c.contributesToConnection then g t d else 0 := by
  simp only [Framer.share, h.streams, h.controllers, update_self, hflag]

theorem Replaced.share_other (h : Replaced f f' streamID t d) (g : Stream → FlowController → Nat)
    {id : Nat} (hid : id ≠ streamID) : f'.share g id = f.share g id := by
  simp only [Framer.share, h.streams, h.controllers, update_of_ne hid]

theorem Replaced.streamWindow (h : Replaced f f' streamID t d)
    (hc : f.flowControlManager.streamFlowController streamID = some c)
    (hsame : d.getSendWindow f.flowControlManager.params =
      c.getSendWindow f.flowControlManager.params) : f'.streamWindow = f.streamWindow := by
  funext id
  simp only [Framer.streamWindow, h.controllers, h.params]
  by_cases hid : id = streamID
  · rw [hid, update_self, hc]
    exact hsame
  · rw [update_of_ne hid]

theorem Accounts.replace (ha : Accounts f) (h : Replaced f f' streamID t d)
    (hopen : f'.openStreams = f.openStreams) (hs : f.streams streamID = some s)
    (hc : f.flowControlManager.streamFlowController streamID = some c)
    (hflag : d.contributesToConnection = c.contributesToConnection)
    (hb : Budget t d.bytesSent) {n : Nat} (hn : d.bytesSent = c.bytesSent + n)
    (hconn : f.flowControlManager.connFlowController.bytesSent +
        (if c.contributesToConnection then n else 0) ≤
      f'.flowControlManager.connFlowController.bytesSent) : Accounts f' := by
  have hlisted := (ha.listed streamID).mp (by simp [hs])
  refine ⟨hopen ▸ ha.nodup, ?_, ?_, ?_, ?_⟩
  · intro id
    rw [h.streams, hopen]
    by_cases hid : id = streamID
    · rw [hid, update_self]
      exact iff_of_true (by simp) hlisted
    · rw [update_of_ne hid]
      exact ha.listed id
  · intro id e he
    rw [h.controllers] at he
    rw [h.streams]
    by_cases hid : id = streamID
    · rw [hid, update_self] at he
      cases he
      rw [hid, update_self, hflag]
      exact ⟨by simp, (ha.known streamID c hc).2⟩
    · rw [update_of_ne hid] at he ⊢
      exact ha.known id e he
  · intro id u hu
    rw [h.streams] at hu
    rw [h.controllers]
    by_cases hid : id = streamID
    · rw [hid, update_self] at hu ⊢
      cases hu
      exact ⟨d, rfl, hb⟩
    · rw [update_of_ne hid] at hu ⊢
      exact ha.budget id u hu
  · have hself : f'.share (fun _ c => c.bytesSent) streamID =
        f.share (fun _ c => c.bytesSent) streamID + if c.contributesToConnection then n else 0 := by
      rw [h.share_self hflag]
      simp only [Framer.share, hs, hc, hn]
      split_ifs <;> omega
    have hsum : f'.total (fun _ c => c.bytesSent) =
        f.total (fun _ c => c.bytesSent) + if c.contributesToConnection then n else 0 := by
      rw [Framer.total, hopen]
      exact sum_map_of_update ha.nodup hlisted (fun _ hid => h.share_other _ hid) hself
    have := ha.total
    omega

end Replace

section Charge

variable {f : Framer} {streamID : Nat} {c : FlowController} (t : Stream) (n : Nat)
  (blocked : List Nat)

section

variable (hc : f.flowControlManager.streamFlowController streamID = some c)

include hc

theorem charge_replaced :
    Replaced f (f.charge streamID t n blocked) streamID t (c.addBytesSent n) :=
  ⟨rfl, streamFlowController_addBytesSent n hc,
    params_addBytesSent n⟩

theorem charge_connFlowController :
    (f.charge streamID t n blocked).flowControlManager.connFlowController =
      if c.contributesToConnection then f.flowControlManager.connFlowController.addBytesSent n
      else f.flowControlManager.connFlowController :=
  connFlowController_addBytesSent n hc

theorem charge_streamWindow :
    (f.charge streamID t n blocked).streamWindow = f.streamWindow :=
  (charge_replaced t n blocked hc).streamWindow hc rfl

theorem charge_connWindow :
    (f.charge streamID t n blocked).connWindow = f.connWindow := by
  simp only [Framer.connWindow, charge_connFlowController t n blocked hc,
    (charge_replaced t n blocked hc).params]
  split_ifs <;> rfl

theorem sendWindowSize_le
    (hpos : 0 < n) (hn : n ≤ f.flowControlManager.sendWindowSize streamID) :
    c.bytesSent + n ≤ f.streamWindow streamID ∧
      (c.contributesToConnection = true →
        f.flowControlManager.connFlowController.bytesSent + n ≤ f.connWindow) := by
  simp only [Framer.streamWindow, hc, Framer.connWindow]
  exact bytesSent_add_le n hc hpos hn

end

end Charge

section Visit

variable {maxBytes : Nat} {gap : Int} {st next : PopState} {streamID : Nat} {s : Stream}
  {c : FlowController} {cont : Bool}

theorem popFromStream_cases (hs : st.framer.streams streamID = some s) (hb : Budget s c.bytesSent)
    (h : popFromStream maxBytes gap st streamID s = some (next, cont)) :
    next = st ∨ ∃ frame t blocked,
      frame.streamID = streamID ∧ frame.offset = frameOffset s gap ∧
      Charged s t gap c.bytesSent frame.data ∧ 0 < frame.dataLen ∧
      frame.dataLen ≤ st.framer.flowControlManager.sendWindowSize streamID ∧
      st.currentLen + frame.dataLen ≤ next.currentLen ∧ next.currentLen ≤ maxBytes ∧
      next.res = st.res ++ [frame] ∧
      next.framer = st.framer.charge streamID t frame.dataLen blocked := by
  simp only [popFromStream] at h
  split_ifs at h with hcrypto hfull
  · cases h
    exact Or.inl rfl
  · cases h
    exact Or.inl rfl
  · split at h
    · cases h
    · next t hpop =>
        rcases popStreamFrame_charged hb hpop with ⟨-, rfl⟩ | ⟨f, hf, -⟩
        · have hsame : st.framer.setStream streamID t = st.framer := by
            simp only [Framer.setStream, ← hs, update_eq_self]
          rw [hsame] at h
          cases h
          exact Or.inl rfl
        · cases hf
    · next t frame hpop =>
        rcases popStreamFrame_charged hb hpop with
          ⟨hf, -⟩ | ⟨f, hf, hid, hoff, hpos, hlen, hdata, hcharged⟩
        · cases hf
        · cases hf
          have hallowed : allowedBytes st.framer.flowControlManager streamID s =
              st.framer.flowControlManager.sendWindowSize streamID := if_pos hdata
          rw [hallowed] at hlen
          cases h
          exact Or.inr ⟨frame, t, _, hid, hoff, hcharged, hpos, by omega, by simp only; omega,
            by simp only; omega, rfl, rfl⟩

end Visit

-- The condition on a slower path, for one stream: it leaves no unsent byte in
-- front of its frame, or the window of the stream has room for the bytes sent,
-- those left in front and those that fit into the packet.
def RoomFor (f : Framer) (budget : Nat) (gap : Int) (streamID : Nat) : Prop :=
  match f.streams streamID, f.flowControlManager.streamFlowController streamID with
  | some s, some c => ahead s gap = 0 ∨
      c.bytesSent + ahead s gap + min budget (s.dataForWriting.getD []).length ≤
        f.streamWindow streamID
  | _, _ => True

-- What holds between the streams of one call of `maybePopNormalFramesSTMS` that
-- was entered with the framer `f`.
structure PopInv (f : Framer) (maxBytes : Nat) (gap : Int) (st : PopState) : Prop where
  accounts : Accounts st.framer
  openStreams : st.framer.openStreams = f.openStreams
  streamWindow : st.framer.streamWindow = f.streamWindow
  connWindow : st.framer.connWindow = f.connWindow
  len : st.currentLen ≤ maxBytes
  sent : st.framer.flowControlManager.connFlowController.bytesSent ≤
    f.flowControlManager.connFlowController.bytesSent + st.currentLen
  ahead_le : ∀ id, st.framer.share (fun s _ => ahead s gap) id ≤ f.share (fun s _ => ahead s gap) id
  room : (gap < 0 ∨ ∀ id, RoomFor f maxBytes gap id) →
    gap < 0 ∨ ∀ id, RoomFor st.framer (maxBytes - st.currentLen) gap id
  fits : (gap < 0 ∨ ∀ id, RoomFor f maxBytes gap id) →
    ∀ frame ∈ st.res, frame.offset + frame.dataLen ≤ f.streamWindow frame.streamID
  reach : ∀ frame ∈ st.res, ∃ s, st.framer.streams frame.streamID = some s ∧
    frame.offset + frame.dataLen ≤ s.writeOffsetSN
  grows : ∀ id s, f.streams id = some s →
    ∃ t, st.framer.streams id = some t ∧ s.writeOffsetSN ≤ t.writeOffsetSN
  conn : (∀ id, st.framer.share (fun s _ => s.writeOffsetSN) id =
      f.share (fun s _ => s.writeOffsetSN) id) ∨
    (∃ frame ∈ st.res, contributesToConnection frame.streamID = true) ∧
      st.framer.flowControlManager.connFlowController.bytesSent ≤ f.connWindow

variable {f : Framer} {budget streamID : Nat} {gap : Int} {s t : Stream} {c : FlowController}
  {data : List UInt8}

theorem popInv_start (h : Accounts f) (maxBytes : Nat) (gap : Int) :
    PopInv f maxBytes gap ⟨f, [], 0⟩ :=
  ⟨h, rfl, rfl, rfl, Nat.zero_le _, Nat.le_refl _, fun _ => Nat.le_refl _, fun hroom => hroom,
    by simp, by simp, fun _ s hs => ⟨s, hs, Nat.le_refl _⟩, Or.inl fun _ => rfl⟩

theorem roomFor_charge {later n : Nat} (blocked : List Nat) (hs : f.streams streamID = some s)
    (hc : f.flowControlManager.streamFlowController streamID = some c) (hg : ¬gap < 0)
    (hcharged : Charged s t gap c.bytesSent data) (hn : n = data.length)
    (hlater : later + n ≤ budget) (hroom : ∀ id, RoomFor f budget gap id) (id : Nat) :
    RoomFor (f.charge streamID t n blocked) later gap id := by
  have hreplaced := charge_replaced t n blocked hc
  have hr := hroom id
  by_cases hid : id = streamID
  · have ha := hcharged.ahead_le
    have hbuffer := hcharged.buffer.resolve_left hg
    subst hid
    simp only [RoomFor, hs, hc] at hr
    simp only [RoomFor, hreplaced.streams, hreplaced.controllers,
      charge_streamWindow t n blocked hc, update_self, FlowController.addBytesSent]
    omega
  · simp only [RoomFor, hreplaced.streams, hreplaced.controllers,
      charge_streamWindow t n blocked hc, update_of_ne hid]
    simp only [RoomFor] at hr
    split at hr
    · omega
    · trivial

theorem fits_of_room (hs : f.streams streamID = some s)
    (hc : f.flowControlManager.streamFlowController streamID = some c)
    (hcharged : Charged s t gap c.bytesSent data)
    (hfits : c.bytesSent + data.length ≤ f.streamWindow streamID) (hbudget : data.length ≤ budget)
    (hroom : gap < 0 ∨ ∀ id, RoomFor f budget gap id) :
    frameOffset s gap + data.length ≤ f.streamWindow streamID := by
  have hstart := hcharged.start
  have hbuffer := hcharged.buffer
  by_cases hg : gap < 0
  · rw [if_pos hg] at hstart
    omega
  · have hr := hroom.resolve_left hg streamID
    rw [if_neg hg] at hstart
    simp only [RoomFor, hs, hc] at hr
    omega

theorem PopInv.charge {maxBytes : Nat} {st next : PopState} (h : PopInv f maxBytes gap st)
    {frame : StreamFrame} {blocked : List Nat} (hs : st.framer.streams streamID = some s)
    (hc : st.framer.flowControlManager.streamFlowController streamID = some c)
    (hid : frame.streamID = streamID) (hoff : frame.offset = frameOffset s gap)
    (hcharged : Charged s t gap c.bytesSent frame.data) (hpos : 0 < frame.dataLen)
    (hallowed : frame.dataLen ≤ st.framer.flowControlManager.sendWindowSize streamID)
    (hlen : st.currentLen + frame.dataLen ≤ next.currentLen) (hmax : next.currentLen ≤ maxBytes)
    (hres : next.res = st.res ++ [frame])
    (hnext : next.framer = st.framer.charge streamID t frame.dataLen blocked) :
    PopInv f maxBytes gap next := by
  have hreplaced := charge_replaced t frame.dataLen blocked hc
  rw [← hnext] at hreplaced
  have hstreams := hreplaced.streams
  have hflag : (c.addBytesSent frame.dataLen).contributesToConnection =
    c.contributesToConnection := rfl
  have hconn := charge_connFlowController t frame.dataLen blocked hc
  rw [← hnext] at hconn
  obtain ⟨hstreamFits, hconnFits⟩ := sendWindowSize_le frame.dataLen hc hpos hallowed
  rw [h.streamWindow] at hstreamFits
  rw [h.connWindow] at hconnFits
  refine ⟨?_, ?_, ?_, ?_, hmax, ?_, ?_, ?_, ?_, ?_, ?_, ?_⟩
  · refine h.accounts.replace hreplaced (by rw [hnext]; rfl) hs hc rfl hcharged.budget rfl ?_
    rw [hconn]
    split_ifs <;> rfl
  · rw [hnext]
    exact h.openStreams
  · rw [hnext, charge_streamWindow t _ blocked hc, h.streamWindow]
  · rw [hnext, charge_connWindow t _ blocked hc, h.connWindow]
  · have := h.sent
    rw [hconn]
    split_ifs
    · simp only [FlowController.addBytesSent]
      omega
    · omega
  · intro id
    refine Nat.le_trans ?_ (h.ahead_le id)
    by_cases he : id = streamID
    · rw [he, hreplaced.share_self hflag]
      have := hcharged.ahead_le
      simp only [Framer.share, hs, hc]
      split_ifs <;> omega
    · rw [hreplaced.share_other _ he]
  · intro hroom
    by_cases hg : gap < 0
    · exact Or.inl hg
    · right
      rw [hnext]
      exact roomFor_charge blocked hs hc hg hcharged rfl (by omega)
        ((h.room hroom).resolve_left hg)
  · intro hroom other hother
    rw [hres] at hother
    rcases List.mem_append.mp hother with hother | hother
    · exact h.fits hroom other hother
    · obtain rfl := List.mem_singleton.mp hother
      have hbudget : other.dataLen ≤ maxBytes - st.currentLen := by omega
      rw [hid, hoff, ← h.streamWindow]
      exact fits_of_room hs hc hcharged (by rwa [h.streamWindow]) hbudget (h.room hroom)
  · intro other hother
    rw [hres] at hother
    rw [hstreams]
    rcases List.mem_append.mp hother with hother | hother
    · obtain ⟨u, hu, hstop⟩ := h.reach other hother
      by_cases he : other.streamID = streamID
      · rw [he, hs] at hu
        cases hu
        rw [he, update_self]
        exact ⟨t, rfl, Nat.le_trans hstop hcharged.mono⟩
      · rw [update_of_ne he]
        exact ⟨u, hu, hstop⟩
    · rw [List.mem_singleton.mp hother, hid, hoff, update_self]
      exact ⟨t, rfl, hcharged.stop⟩
  · intro id u hu
    obtain ⟨v, hv, hle⟩ := h.grows id u hu
    rw [hstreams]
    by_cases he : id = streamID
    · rw [he, hs] at hv
      cases hv
      rw [he, update_self]
      exact ⟨t, rfl, Nat.le_trans hle hcharged.mono⟩
    · rw [update_of_ne he]
      exact ⟨v, hv, hle⟩
  · by_cases hcontr : c.contributesToConnection = true
    · right
      rw [hconn, if_pos hcontr, hres]
      refine ⟨⟨frame, by simp, ?_⟩, hconnFits hcontr⟩
      rw [hid, ← (h.accounts.known streamID c hc).2, hcontr]
    · rw [hconn, if_neg hcontr, hres]
      refine h.conn.imp ?_ ?_
      · intro hsame id
        rw [← hsame id]
        by_cases he : id = streamID
        · rw [he, hreplaced.share_self hflag]
          simp only [Framer.share, hs, hc, if_neg hcontr]
        · exact hreplaced.share_other _ he
      · rintro ⟨⟨other, hother, hcount⟩, hle⟩
        exact ⟨⟨other, List.mem_append_left _ hother, hcount⟩, hle⟩

section Loop

variable {f : Framer} {maxBytes : Nat} {gap : Int}

variable {st next : PopState} {cont : Bool} {ids : List Nat}

theorem PopInv.visit {streamID : Nat} {s : Stream}
    (h : PopInv f maxBytes gap st) (hs : st.framer.streams streamID = some s)
    (hpop : popFromStream maxBytes gap st streamID s = some (next, cont)) :
    PopInv f maxBytes gap next := by
  obtain ⟨c, hc, hb⟩ := h.accounts.budget streamID s hs
  rcases popFromStream_cases hs hb hpop with
    rfl | ⟨frame, t, blocked, hid, hoff, hcharged, hpos, hallowed, hlen, hmax, hres, hnext⟩
  · exact h
  · exact h.charge hs hc hid hoff hcharged hpos hallowed hlen hmax hres hnext

theorem PopInv.prioritized (h : PopInv f maxBytes gap st)
    (hloop : iteratePrioritized maxBytes gap st ids = some (next, cont)) :
    PopInv f maxBytes gap next := by
  induction ids generalizing st with
  | nil =>
    cases hloop
    exact h
  | cons id rest ih =>
    simp only [iteratePrioritized] at hloop
    split at hloop
    · exact ih h hloop
    · next s hs =>
        split at hloop
        · cases hloop
        · next middle hpop => exact ih (h.visit hs hpop) hloop
        · next middle hpop =>
            cases hloop
            exact h.visit hs hpop

theorem PopInv.rest (h : PopInv f maxBytes gap st)
    (hloop : iterateRest maxBytes gap st ids = some next) : PopInv f maxBytes gap next := by
  induction ids generalizing st with
  | nil =>
    cases hloop
    exact h
  | cons id rest ih =>
    simp only [iterateRest] at hloop
    split_ifs at hloop with hskip
    · exact ih h hloop
    · split at hloop
      · cases hloop
        exact h
      · next s hs =>
          split at hloop
          · cases hloop
          · next middle cont hpop =>
              have hmiddle := h.visit hs hpop
              -- the index of the round robin is not part of the invariant
              have hmoved : PopInv f maxBytes gap { middle with
                  framer := { middle.framer with
                    roundRobinIndex := (middle.framer.roundRobinIndex + 1) %
                      middle.framer.openStreams.length } } :=
                { hmiddle with
                  accounts := { hmiddle.accounts with } }
              split_ifs at hloop
              · exact ih hmoved hloop
              · cases hloop
                exact hmoved

theorem maybePopNormalFramesSTMS_inv {f' : Framer} {frames : List StreamFrame} (h : Accounts f)
    (hpop : maybePopNormalFramesSTMS f maxBytes gap = some (f', frames)) :
    ∃ st, PopInv f maxBytes gap st ∧ st.framer = f' ∧ st.res = frames := by
  simp only [maybePopNormalFramesSTMS] at hpop
  split at hpop
  · cases hpop
  · next st hfirst =>
      cases hpop
      exact ⟨st, (popInv_start h maxBytes gap).prioritized hfirst, rfl, rfl⟩
  · next st hfirst =>
      obtain ⟨last, hlast, hpop⟩ := Option.map_eq_some_iff.mp hpop
      cases hpop
      exact ⟨last, ((popInv_start h maxBytes gap).prioritized hfirst).rest hlast, rfl, rfl⟩

end Loop

end MpQuic.Stms

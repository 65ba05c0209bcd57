import MpQuic.Library.Run
import MpQuic.Congestion.Olia

namespace MpQuic.Congestion

open MpQuic.Library Function
open MpQuic.Wire (sub64 sub64_of_le)

inductive SenderEvent where
  | onPacketSent (packetNumber : Nat) (isRetransmittable : Bool)
  | onPacketAcked (orders : Orders) (ackedPacketNumber ackedBytes bytesInFlight : Nat)
  | onPacketLost (packetNumber lostBytes : Nat)
  | onRetransmissionTimeout (packetsRetransmitted : Bool)
  | exitSlowstart
  | setSlowStartLargeReduction (enabled : Bool)
  | setUtilityControl (gain backoff : ℚ)
  | updateRTT (smoothedRTT : Int)

def performCall (ids : List Nat) (senders : Nat → OliaSender) (id : Nat) :
    SenderEvent → (Nat → OliaSender) × Int
  | .onPacketSent packetNumber isRetransmittable =>
    (Function.update senders id ((senders id).onPacketSent packetNumber isRetransmittable), 0)
  | .onPacketAcked orders ackedPacketNumber ackedBytes bytesInFlight =>
    onPacketAcked senders ids orders id ackedPacketNumber ackedBytes bytesInFlight
  | .onPacketLost packetNumber lostBytes =>
    (Function.update senders id ((senders id).onPacketLost packetNumber lostBytes), 0)
  | .onRetransmissionTimeout packetsRetransmitted =>
    (Function.update senders id ((senders id).onRetransmissionTimeout packetsRetransmitted), 0)
  | .exitSlowstart => (Function.update senders id (senders id).exitSlowstart, 0)
  | .setSlowStartLargeReduction enabled =>
    (Function.update senders id { senders id with slowStartLargeReduction := enabled }, 0)
  | .setUtilityControl gain backoff =>
    (Function.update senders id ((senders id).setUtilityControl gain backoff), 0)
  | .updateRTT smoothedRTT =>
    (Function.update senders id { senders id with smoothedRTT := smoothedRTT }, 0)

structure Change where
  id : Nat
  event : SenderEvent
  before : OliaSender
  after : OliaSender
  unscaled : Int

def senderStep (ids : List Nat) (senders : Nat → OliaSender) (call : Nat × SenderEvent) :
    Option ((Nat → OliaSender) × List Change) :=
  let result := performCall ids senders call.1 call.2
  some (result.1, [⟨call.1, call.2, senders call.1, result.1 call.1, result.2⟩])

section Ack

variable {senders : Nat → OliaSender} {ids : List Nat} {orders : Orders}

theorem getEpsilon_same (id : Nat) :
    ∃ olia, getEpsilon senders ids orders id = { senders id with olia := olia } := by
  unfold getEpsilon
  dsimp only
  generalize getMaxCwnd senders orders.maxCwnd = maxCwnd
  generalize getBestPath senders orders.best = best
  generalize countPaths senders maxCwnd best orders.count = counts
  generalize orders.assign = assign
  induction assign generalizing senders with
  | nil => exact ⟨(senders id).olia, rfl⟩
  | cons other rest ih =>
    rw [List.foldl_cons]
    obtain ⟨olia, holia⟩ := @ih (update senders other ((senders other).setEpsilon
      (epsilonOf ids.length maxCwnd best counts (senders other))))
    refine ⟨olia, holia.trans ?_⟩
    by_cases heq : id = other
    · subst heq
      rw [update_self]
      rfl
    · rw [update_of_ne heq]

theorem congestionWindowAfterAck_cases (o : Olia) {window : Nat} (rate cwndScaled : Nat)
    (hpos : 0 < window) (hlt : window + 1 < 2 ^ 64) :
    (o.congestionWindowAfterAck window rate cwndScaled).2 = window + 1 ∨
      (o.congestionWindowAfterAck window rate cwndScaled).2 = window ∨
      (o.congestionWindowAfterAck window rate cwndScaled).2 = max 1 (window - 1) := by
  unfold Olia.congestionWindowAfterAck
  dsimp only
  split_ifs
  · exact Or.inl (Nat.mod_eq_of_lt hlt)
  · rw [sub64_of_le hpos (by omega)]
    exact Or.inr (Or.inr rfl)
  · exact Or.inr (Or.inl rfl)

def OliaSender.grown (o : OliaSender) : OliaSender :=
  let grown := growWindow o.congestionWindow (o.utilitySsAckAccum + o.utilityGain)
    (o.maxTCPCongestionWindow - o.congestionWindow)
  { o with congestionWindow := grown.1, utilitySsAckAccum := grown.2 }

theorem maybeIncreaseCwnd_cases {id : Nat} (bytesInFlight : Nat)
    (hpos : 0 < (senders id).congestionWindow)
    (hmax : (senders id).maxTCPCongestionWindow < 2 ^ 64)
    {result : (Nat → OliaSender) × Int}
    (hresult : maybeIncreaseCwnd senders ids orders id bytesInFlight = result) :
    result = (senders, 0) ∨
    ((senders id).inSlowStart = true ∧
      (senders id).congestionWindow < (senders id).maxTCPCongestionWindow ∧
      result = (update senders id (senders id).grown, 1)) ∨
    ((senders id).inSlowStart = false ∧
      (senders id).congestionWindow < (senders id).maxTCPCongestionWindow ∧
      ∃ (olia : Olia) (newCwnd : Nat),
        (newCwnd = (senders id).congestionWindow + 1 ∨ newCwnd = (senders id).congestionWindow ∨
          newCwnd = max 1 ((senders id).congestionWindow - 1)) ∧
        result.1 id = { senders id with
          olia := olia, congestionWindow := scaledWindow (senders id) newCwnd } ∧
        result.2 = newCwnd - (senders id).congestionWindow) := by
  unfold maybeIncreaseCwnd at hresult
  dsimp only at hresult
  split_ifs at hresult with hlimited hfull hslow
  · exact Or.inl hresult.symm
  · exact Or.inl hresult.symm
  · exact Or.inr (Or.inl ⟨hslow, Nat.lt_of_not_le hfull, hresult.symm⟩)
  · right; right
    refine ⟨Bool.eq_false_iff.mpr hslow, Nat.lt_of_not_le hfull, ?_⟩
    have hsame := @getEpsilon_same senders ids orders
    generalize getEpsilon senders ids orders = after at hresult hsame
    obtain ⟨olia, holia⟩ := hsame id
    generalize getRate after orders.rate (after id).smoothedRTT = rate at hresult
    generalize oliaScale (after id).congestionWindow = cwndScaled at hresult
    rw [holia] at hresult
    dsimp only at hresult
    have hcases := congestionWindowAfterAck_cases olia rate cwndScaled hpos (by omega)
    generalize olia.congestionWindowAfterAck (senders id).congestionWindow rate cwndScaled =
      computed at hresult hcases
    refine ⟨computed.1, min (senders id).maxTCPCongestionWindow computed.2, by omega, ?_, ?_⟩
    · rw [← hresult]
      exact update_self id _ after
    · rw [← hresult]

theorem maybeIncreaseCwnd_other {id other : Nat} (bytesInFlight : Nat) (hother : other ≠ id) :
    ∃ olia, (maybeIncreaseCwnd senders ids orders id bytesInFlight).1 other =
      { senders other with olia := olia } := by
  unfold maybeIncreaseCwnd
  dsimp only
  split_ifs
  · exact ⟨_, rfl⟩
  · exact ⟨_, rfl⟩
  · refine ⟨(senders other).olia, ?_⟩
    dsimp only
    rw [update_of_ne hother]
  · dsimp only
    rw [update_of_ne hother]
    exact getEpsilon_same other

end Ack

structure OliaSender.WithinBounds (o : OliaSender) : Prop where
  positive : 0 < o.minCongestionWindow
  lower : o.minCongestionWindow ≤ o.congestionWindow
  upper : o.congestionWindow ≤ o.maxTCPCongestionWindow
  width : o.maxTCPCongestionWindow < 2 ^ 64

section Bounds

variable {o t : OliaSender}

theorem OliaSender.WithinBounds.congr (h : o.WithinBounds)
    (hmin : t.minCongestionWindow = o.minCongestionWindow)
    (hmax : t.maxTCPCongestionWindow = o.maxTCPCongestionWindow)
    (hlower : o.minCongestionWindow ≤ t.congestionWindow)
    (hupper : t.congestionWindow ≤ o.maxTCPCongestionWindow) : t.WithinBounds :=
  ⟨hmin ▸ h.positive, hmin ▸ hlower, hmax ▸ hupper, hmax ▸ h.width⟩

theorem growWindow_bounds (window : Nat) (accum : ℚ) (room : Nat) :
    window ≤ (OliaSender.growWindow window accum room).1 ∧
      (OliaSender.growWindow window accum room).1 ≤ window + room := by
  induction room generalizing window accum with
  | zero => exact ⟨Nat.le_refl _, Nat.le_refl _⟩
  | succ room ih =>
    unfold OliaSender.growWindow
    split_ifs
    · have hnext := ih (window + 1) (accum - 1)
      omega
    · exact ⟨Nat.le_refl _, Nat.le_add_right _ _⟩

theorem OliaSender.WithinBounds.grown (h : o.WithinBounds) : o.grown.WithinBounds := by
  obtain ⟨hle, hroom⟩ := growWindow_bounds o.congestionWindow
    (o.utilitySsAckAccum + o.utilityGain) (o.maxTCPCongestionWindow - o.congestionWindow)
  have hupper := h.upper
  refine h.congr rfl rfl (h.lower.trans hle) (hroom.trans ?_)
  omega

theorem scaledWindow_bounds (h : o.WithinBounds) (newCwnd : Nat) :
    o.minCongestionWindow ≤ scaledWindow o newCwnd ∧
      scaledWindow o newCwnd ≤ o.maxTCPCongestionWindow := by
  have hlower := h.lower
  have hupper := h.upper
  unfold scaledWindow
  dsimp only
  omega

theorem effectiveBeta_bounds (o : OliaSender) : 0 ≤ o.effectiveBeta ∧ o.effectiveBeta ≤ 1 := by
  unfold OliaSender.effectiveBeta
  dsimp only
  split_ifs with hone hzero hzero
  · norm_num
  · norm_num
  · norm_num
  · exact ⟨le_of_lt (not_le.mp hzero), not_lt.mp hone⟩

theorem OliaSender.WithinBounds.onFurtherLoss (h : o.WithinBounds) (lostBytes : Nat) :
    (o.onFurtherLoss lostBytes).WithinBounds ∧
      (o.onFurtherLoss lostBytes).congestionWindow ≤ o.congestionWindow := by
  have hpos := h.positive
  have hlower := h.lower
  have hupper := h.upper
  have hwidth := h.width
  have hless : sub64 o.congestionWindow 1 = o.congestionWindow - 1 :=
    sub64_of_le (by omega) (by omega)
  unfold OliaSender.onFurtherLoss
  dsimp only
  split_ifs
  · dsimp only
    rw [hless]
    have hle : max (o.congestionWindow - 1) o.minCongestionWindow ≤ o.congestionWindow := by omega
    exact ⟨h.congr rfl rfl (Nat.le_max_right _ _) (hle.trans hupper), hle⟩
  · exact ⟨h.congr rfl rfl hlower hupper, Nat.le_refl _⟩
  · exact ⟨h.congr rfl rfl hlower hupper, Nat.le_refl _⟩
  · exact ⟨h, Nat.le_refl _⟩

theorem OliaSender.WithinBounds.onPacketLost (h : o.WithinBounds) (packetNumber lostBytes : Nat) :
    (o.onPacketLost packetNumber lostBytes).WithinBounds ∧
      (o.onPacketLost packetNumber lostBytes).congestionWindow ≤ o.congestionWindow := by
  have hpos := h.positive
  have hlower := h.lower
  have hupper := h.upper
  have hwidth := h.width
  have hless : sub64 o.congestionWindow 1 = o.congestionWindow - 1 :=
    sub64_of_le (by omega) (by omega)
  have hscaled : ⌊(o.congestionWindow : ℚ) * o.effectiveBeta⌋₊ ≤ o.congestionWindow := by
    refine Nat.floor_le_of_le ?_
    exact mul_le_of_le_one_right (Nat.cast_nonneg _) (effectiveBeta_bounds o).2
  have hreduced : (if o.slowStartLargeReduction = true ∧ o.inSlowStart = true then
      sub64 o.congestionWindow 1 else ⌊(o.congestionWindow : ℚ) * o.effectiveBeta⌋₊) ≤
      o.congestionWindow := by
    split_ifs
    · omega
    · exact hscaled
  unfold OliaSender.onPacketLost
  by_cases hfurther : packetNumber ≤ o.largestSentAtLastCutback
  · rw [if_pos hfurther]
    exact h.onFurtherLoss lostBytes
  · rw [if_neg hfurther]
    dsimp only
    generalize (if o.slowStartLargeReduction = true ∧ o.inSlowStart = true then
      sub64 o.congestionWindow 1 else ⌊(o.congestionWindow : ℚ) * o.effectiveBeta⌋₊) =
        reduced at hreduced ⊢
    have hle : (if reduced < o.minCongestionWindow then o.minCongestionWindow else reduced) ≤
        o.congestionWindow := by
      split_ifs
      · exact hlower
      · exact hreduced
    have hge : o.minCongestionWindow ≤
        if reduced < o.minCongestionWindow then o.minCongestionWindow else reduced := by
      split_ifs with hsmall
      · exact Nat.le_refl _
      · exact Nat.le_of_not_lt hsmall
    exact ⟨h.congr rfl rfl hge (hle.trans hupper), hle⟩

theorem OliaSender.WithinBounds.onRetransmissionTimeout (h : o.WithinBounds)
    (packetsRetransmitted : Bool) :
    (o.onRetransmissionTimeout packetsRetransmitted).WithinBounds ∧
      (o.onRetransmissionTimeout packetsRetransmitted).congestionWindow ≤ o.congestionWindow := by
  unfold OliaSender.onRetransmissionTimeout
  split_ifs
  · exact ⟨h.congr rfl rfl (Nat.le_refl _) (h.lower.trans h.upper), h.lower⟩
  · exact ⟨h.congr rfl rfl h.lower h.upper, Nat.le_refl _⟩

end Bounds

section Run

variable {senders : Nat → OliaSender} {ids : List Nat}

theorem bounds_update {o : OliaSender} {id : Nat} (h : ∀ id ∈ ids, (senders id).WithinBounds)
    (ho : o.WithinBounds) : ∀ other ∈ ids, (update senders id o other).WithinBounds := by
  intro other hother
  by_cases heq : other = id
  · rw [heq, update_self]
    exact ho
  · rw [update_of_ne heq]
    exact h other hother

theorem bounds_onPacketAcked {id : Nat} (h : ∀ id ∈ ids, (senders id).WithinBounds)
    (hid : id ∈ ids) (orders : Orders) (ackedPacketNumber ackedBytes bytesInFlight : Nat) :
    ∀ other ∈ ids, ((onPacketAcked senders ids orders id ackedPacketNumber ackedBytes
      bytesInFlight).1 other).WithinBounds := by
  have hbounds := h id hid
  unfold onPacketAcked
  dsimp only
  split_ifs with hrecovery
  · exact bounds_update h (hbounds.congr rfl rfl hbounds.lower hbounds.upper)
  · generalize hcounted : ({ senders id with
      largestAckedPacketNumber := max ackedPacketNumber (senders id).largestAckedPacketNumber
      olia := (senders id).olia.updateAckedSinceLastLoss ackedBytes } : OliaSender) = counted
    have hnow : counted.WithinBounds := by
      subst hcounted
      exact hbounds.congr rfl rfl hbounds.lower hbounds.upper
    have hstart : ∀ other ∈ ids, (update senders id counted other).WithinBounds :=
      bounds_update h hnow
    generalize update senders id counted = start at hstart
    have hone := hstart id hid
    intro other hother
    by_cases heq : other = id
    · subst heq
      rcases maybeIncreaseCwnd_cases bytesInFlight (Nat.lt_of_lt_of_le hone.positive hone.lower)
        hone.width rfl with hsame | ⟨-, -, hgrown⟩ | ⟨-, -, olia, newCwnd, -, hself, -⟩
      · rw [hsame]
        exact hone
      · rw [hgrown]
        exact bounds_update hstart hone.grown other hother
      · obtain ⟨hlower, hupper⟩ := scaledWindow_bounds hone newCwnd
        rw [hself]
        exact hone.congr rfl rfl hlower hupper
    · obtain ⟨olia, hsame⟩ := maybeIncreaseCwnd_other bytesInFlight heq
      have hbefore := hstart other hother
      rw [hsame]
      exact hbefore.congr rfl rfl hbefore.lower hbefore.upper

theorem bounds_performCall {id : Nat} (h : ∀ id ∈ ids, (senders id).WithinBounds)
    (hid : id ∈ ids) (event : SenderEvent) :
    ∀ other ∈ ids, ((performCall ids senders id event).1 other).WithinBounds := by
  have hbounds := h id hid
  cases event with
  | onPacketSent packetNumber isRetransmittable =>
    refine bounds_update h ?_
    unfold OliaSender.onPacketSent
    split_ifs
    · exact hbounds.congr rfl rfl hbounds.lower hbounds.upper
    · exact hbounds
  | onPacketAcked orders ackedPacketNumber ackedBytes bytesInFlight =>
    exact bounds_onPacketAcked h hid orders ackedPacketNumber ackedBytes bytesInFlight
  | onPacketLost packetNumber lostBytes =>
    exact bounds_update h (hbounds.onPacketLost packetNumber lostBytes).1
  | onRetransmissionTimeout packetsRetransmitted =>
    exact bounds_update h (hbounds.onRetransmissionTimeout packetsRetransmitted).1
  | exitSlowstart => exact bounds_update h (hbounds.congr rfl rfl hbounds.lower hbounds.upper)
  | setSlowStartLargeReduction enabled =>
    exact bounds_update h (hbounds.congr rfl rfl hbounds.lower hbounds.upper)
  | setUtilityControl gain backoff =>
    exact bounds_update h (hbounds.congr rfl rfl hbounds.lower hbounds.upper)
  | updateRTT smoothedRTT =>
    exact bounds_update h (hbounds.congr rfl rfl hbounds.lower hbounds.upper)

def SenderEvent.isLoss : SenderEvent → Bool
  | .onPacketLost _ _ => true
  | .onRetransmissionTimeout _ => true
  | _ => false

theorem performCall_isLoss {id : Nat} (h : (senders id).WithinBounds) {event : SenderEvent}
    (hloss : event.isLoss = true) :
    ((performCall ids senders id event).1 id).congestionWindow ≤ (senders id).congestionWindow := by
  cases event with
  | onPacketLost packetNumber lostBytes =>
    simp only [performCall, update_self]
    exact (h.onPacketLost packetNumber lostBytes).2
  | onRetransmissionTimeout packetsRetransmitted =>
    simp only [performCall, update_self]
    exact (h.onRetransmissionTimeout packetsRetransmitted).2
  | _ => cases hloss

theorem OliaSender.WithinBounds.no_wrap {o : OliaSender} (h : o.WithinBounds) :
    sub64 o.congestionWindow 1 + 1 = o.congestionWindow ∧
      (o.congestionWindow < o.maxTCPCongestionWindow →
        (o.congestionWindow + 1) % 2 ^ 64 = o.congestionWindow + 1) := by
  have hpos := h.positive
  have hlower := h.lower
  have hupper := h.upper
  have hwidth := h.width
  refine ⟨?_, fun hlt => Nat.mod_eq_of_lt (by omega)⟩
  rw [sub64_of_le (by omega) (by omega)]
  omega

-- Whatever happens to the senders of a map, their windows stay between their bounds, one
-- packet more or less is no wrap-around, and no loss raises a window.
theorem windows_stay_bounded (ids : List Nat) (start : Nat → OliaSender)
    (hstart : ∀ id ∈ ids, (start id).WithinBounds) (calls : List (Nat × SenderEvent))
    (hcalls : ∀ call ∈ calls, call.1 ∈ ids) :
    ∃ senders log, run (senderStep ids) start calls = some (senders, log) ∧
      (∀ id ∈ ids, (senders id).minCongestionWindow ≤ (senders id).congestionWindow ∧
        (senders id).congestionWindow ≤ (senders id).maxTCPCongestionWindow ∧
        sub64 (senders id).congestionWindow 1 + 1 = (senders id).congestionWindow ∧
        ((senders id).congestionWindow < (senders id).maxTCPCongestionWindow →
          ((senders id).congestionWindow + 1) % 2 ^ 64 = (senders id).congestionWindow + 1)) ∧
      ∀ change ∈ log, change.event.isLoss = true →
        change.after.congestionWindow ≤ change.before.congestionWindow := by
  have hstep : ∀ (past : List (Nat × SenderEvent)) (log : List Change)
      (senders : Nat → OliaSender) (call : Nat × SenderEvent),
      ((∀ id ∈ ids, (senders id).WithinBounds) ∧ ∀ change ∈ log, change.event.isLoss = true →
        change.after.congestionWindow ≤ change.before.congestionWindow) → call.1 ∈ ids →
      ∃ next out, senderStep ids senders call = some (next, out) ∧
        (∀ id ∈ ids, (next id).WithinBounds) ∧ ∀ change ∈ log ++ out,
          change.event.isLoss = true →
            change.after.congestionWindow ≤ change.before.congestionWindow := by
    rintro past log senders call ⟨hbounds, hlog⟩ hcall
    refine ⟨_, _, rfl, bounds_performCall hbounds hcall call.2, fun change hchange hloss => ?_⟩
    rcases List.mem_append.mp hchange with hchange | hchange
    · exact hlog change hchange hloss
    · rw [List.mem_singleton.mp hchange] at hloss ⊢
      exact performCall_isLoss (hbounds call.1 hcall) hloss
  obtain ⟨senders, log, hrun, hbounds, hlog⟩ := run_progress _ hstep [] [] start calls
    ⟨hstart, by simp⟩ (Along.of_forall hcalls start)
  refine ⟨senders, log, hrun, fun id hid => ?_, hlog⟩
  exact ⟨(hbounds id hid).lower, (hbounds id hid).upper, (hbounds id hid).no_wrap⟩

theorem windows_stay_bounded_example :
    let start : Nat → OliaSender := fun _ => newOliaSender 100000000 32 2500
    let calls : List (Nat × SenderEvent) := [(1, .onPacketSent 1 true), (3, .onPacketSent 1 true),
      (1, .onPacketAcked ⟨[1, 3], [1, 3], [1, 3], [1, 3], [1, 3]⟩ 1 1350 46720),
      (1, .setUtilityControl 2 2), (3, .onPacketLost 1 1350), (3, .onRetransmissionTimeout true)]
    ∃ senders log, run (senderStep [1, 3]) start calls = some (senders, log) ∧
      (senders 1).congestionWindow = 33 ∧ (senders 3).congestionWindow = 2 ∧
      ∀ change ∈ log, change.event.isLoss = true →
        change.after.congestionWindow ≤ change.before.congestionWindow := by
  intro start calls
  obtain ⟨senders, log, hrun, -, hlog⟩ := windows_stay_bounded [1, 3] start
    (fun _ _ => ⟨by decide, by decide, by decide, by decide⟩) calls (by decide)
  refine ⟨senders, log, hrun, ?_, ?_, hlog⟩
  all_goals
    cases hrun
    decide +kernel

end Run

end MpQuic.Congestion

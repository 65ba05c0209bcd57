import MpQuic.Congestion.Window

namespace MpQuic.Congestion

open MpQuic.Library List Function

def OliaSender.StrictlyWithin (o : OliaSender) : Prop :=
  o.minCongestionWindow < o.congestionWindow ∧ o.congestionWindow < o.maxTCPCongestionWindow

instance (o : OliaSender) : Decidable o.StrictlyWithin :=
  inferInstanceAs (Decidable (_ ∧ _))

-- A sender that only sends packets and receives acknowledgements for them.
def SenderEvent.Undisturbed : SenderEvent → Prop
  | .onPacketSent _ _ => True
  | .onPacketAcked _ _ _ _ => True
  | .updateRTT _ => True
  | _ => False

instance : (event : SenderEvent) → Decidable event.Undisturbed
  | .onPacketSent _ _ | .onPacketAcked _ _ _ _ | .updateRTT _ => isTrue trivial
  | .onPacketLost _ _ | .onRetransmissionTimeout _ | .exitSlowstart
  | .setSlowStartLargeReduction _ | .setUtilityControl _ _ => isFalse id

def SenderEvent.avoids (event : SenderEvent) (before : OliaSender) : Bool :=
  match event with
  | .onPacketAcked _ _ _ _ => !before.inSlowStart
  | _ => false

def avoided (id : Nat) (log : List Change) : Nat :=
  (log.map fun change =>
    if change.id = id then (change.event.avoids change.before).toNat else 0).sum

def unscaledTotal (id : Nat) (log : List Change) : Int :=
  (log.map fun change => if change.id = id then change.unscaled else 0).sum

section Grow

theorem growWindow_sum (window : Nat) (accum : ℚ) (room : Nat) :
    ((OliaSender.growWindow window accum room).1 : ℚ) +
      (OliaSender.growWindow window accum room).2 = window + accum := by
  induction room generalizing window accum with
  | zero => rfl
  | succ room ih =>
    unfold OliaSender.growWindow
    split_ifs
    · rw [ih]
      push_cast
      ring
    · rfl

theorem growWindow_accum {window : Nat} {accum : ℚ} {room : Nat} (haccum : 0 ≤ accum) :
    0 ≤ (OliaSender.growWindow window accum room).2 ∧
      ((OliaSender.growWindow window accum room).1 < window + room →
        (OliaSender.growWindow window accum room).2 < 1) := by
  induction room generalizing window accum with
  | zero => exact ⟨haccum, fun hlt => absurd hlt (Nat.lt_irrefl _)⟩
  | succ room ih =>
    unfold OliaSender.growWindow
    split_ifs with hone
    · obtain ⟨hnonneg, hless⟩ := @ih (window + 1) (accum - 1) (by linarith)
      exact ⟨hnonneg, fun hlt => hless (by omega)⟩
    · exact ⟨haccum, fun _ => not_le.mp hone⟩

end Grow

section Scale

variable {o : OliaSender}

theorem mathRound_add {window : Nat} {x : ℚ} {delta : Int} (hnonneg : 0 ≤ (window : ℚ) + x)
    (hlow : (delta : ℚ) ≤ x + 1 / 2) (hhigh : x + 1 / 2 < delta + 1) :
    mathRound (window + x) = window + delta := by
  rw [mathRound, if_pos hnonneg, Int.floor_eq_iff]
  push_cast
  constructor
  · linarith
  · linarith

theorem scaledWindow_eq {newCwnd : Nat} (hwithin : o.StrictlyWithin)
    (hgain : 4 / 5 ≤ o.utilityGain ∧ o.utilityGain ≤ 6 / 5)
    (hnew : newCwnd = o.congestionWindow + 1 ∨ newCwnd = o.congestionWindow ∨
      newCwnd = max 1 (o.congestionWindow - 1)) :
    scaledWindow o newCwnd = newCwnd := by
  obtain ⟨hmin, hmax⟩ := hwithin
  obtain ⟨hlow, hhigh⟩ := hgain
  have hround : mathRound (o.congestionWindow +
      ((newCwnd : ℚ) - o.congestionWindow) * o.utilityGain) = newCwnd := by
    have hcases : (newCwnd : Int) - o.congestionWindow = 1 ∨
        (newCwnd : Int) - o.congestionWindow = 0 ∨
        ((newCwnd : Int) - o.congestionWindow = -1 ∧ 2 ≤ o.congestionWindow) := by
      omega
    have hdelta : ((newCwnd : ℚ) - o.congestionWindow) =
        (((newCwnd : Int) - o.congestionWindow : Int) : ℚ) := by
      push_cast
      ring
    have hsum : (newCwnd : Int) = o.congestionWindow + (newCwnd - o.congestionWindow : Int) := by
      ring
    rw [hdelta]
    nth_rewrite 2 [hsum]
    have hpos : (0 : ℚ) ≤ o.congestionWindow := Nat.cast_nonneg _
    rcases hcases with hone | hzero | ⟨hless, htwo⟩
    · rw [hone]
      exact mathRound_add (by push_cast; linarith) (by push_cast; linarith) (by push_cast; linarith)
    · rw [hzero]
      exact mathRound_add (by push_cast; linarith) (by push_cast; linarith) (by push_cast; linarith)
    · have htwo : (2 : ℚ) ≤ o.congestionWindow := by exact_mod_cast htwo
      rw [hless]
      exact mathRound_add (by push_cast; linarith) (by push_cast; linarith) (by push_cast; linarith)
  unfold scaledWindow
  dsimp only
  rw [hround]
  omega

end Scale

-- Where a sender with the gain `g` is after some calls, compared with where it was at
-- `first`. `unscaled` is the total of the changes before they are scaled. What the
-- accumulator holds is not in the window yet, and each of the `rounded` acknowledgements
-- in the congestion avoidance may be off by `|g - 1|`.
structure Follows (g : ℚ) (first o : OliaSender) (unscaled : Int) (rounded : Nat) : Prop where
  gain : o.utilityGain = g
  width : o.maxTCPCongestionWindow < 2 ^ 64
  nonneg : 0 ≤ o.utilitySsAckAccum
  fraction : o.congestionWindow < o.maxTCPCongestionWindow → o.utilitySsAckAccum < 1
  error : |((o.congestionWindow : ℚ) - first.congestionWindow) - g * unscaled -
    (first.utilitySsAckAccum - o.utilitySsAckAccum)| ≤ rounded * |g - 1|

namespace Follows

variable {g : ℚ} {first o t : OliaSender} {unscaled : Int} {rounded : Nat}

section

variable (h : Follows g first o unscaled rounded)

include h

theorem congr (hgain : t.utilityGain = o.utilityGain)
    (hmax : t.maxTCPCongestionWindow = o.maxTCPCongestionWindow)
    (hwindow : t.congestionWindow = o.congestionWindow)
    (haccum : t.utilitySsAckAccum = o.utilitySsAckAccum) :
    Follows g first t unscaled rounded := by
  refine ⟨hgain.trans h.gain, hmax ▸ h.width, haccum ▸ h.nonneg, ?_, ?_⟩
  · rw [hmax, hwindow, haccum]
    exact h.fraction
  · rw [hwindow, haccum]
    exact h.error

theorem mono {more : Nat} (hle : rounded ≤ more) :
    Follows g first o unscaled more := by
  have hle : (rounded : ℚ) ≤ more := Nat.cast_le.mpr hle
  have herror := h.error
  exact { h with error := herror.trans (mul_le_mul_of_nonneg_right hle (abs_nonneg _)) }

theorem grown (hgain : 0 ≤ g)
    (hlt : o.congestionWindow < o.maxTCPCongestionWindow) :
    Follows g first o.grown (unscaled + 1) rounded := by
  have hsum := growWindow_sum o.congestionWindow (o.utilitySsAckAccum + o.utilityGain)
    (o.maxTCPCongestionWindow - o.congestionWindow)
  have haccum : 0 ≤ o.utilitySsAckAccum + o.utilityGain := by
    rw [h.gain]
    exact add_nonneg h.nonneg hgain
  obtain ⟨hnonneg, hless⟩ := @growWindow_accum o.congestionWindow _
    (o.maxTCPCongestionWindow - o.congestionWindow) haccum
  refine ⟨h.gain, h.width, hnonneg, fun hroom => hless ?_, ?_⟩
  · rw [Nat.add_sub_cancel' hlt.le]
    exact hroom
  · have herror := h.error
    rw [h.gain] at hsum
    refine le_of_eq_of_le (congrArg abs ?_) herror
    unfold OliaSender.grown
    dsimp only
    rw [h.gain]
    push_cast
    linarith

theorem avoided (hgain : 4 / 5 ≤ g ∧ g ≤ 6 / 5)
    (hwithin : o.StrictlyWithin) {newCwnd : Nat}
    (hnew : newCwnd = o.congestionWindow + 1 ∨ newCwnd = o.congestionWindow ∨
      newCwnd = max 1 (o.congestionWindow - 1))
    (ht : t = { o with olia := t.olia, congestionWindow := scaledWindow o newCwnd }) :
    Follows g first t (unscaled + (newCwnd - o.congestionWindow)) (rounded + 1) := by
  have hscaled := scaledWindow_eq hwithin (h.gain.symm ▸ hgain) hnew
  rw [hscaled] at ht
  have hless : o.utilitySsAckAccum < 1 := h.fraction hwithin.2
  have hstep : |(newCwnd : ℚ) - o.congestionWindow| ≤ 1 := by
    have hcases : (newCwnd : Int) - o.congestionWindow ≤ 1 ∧
        -1 ≤ (newCwnd : Int) - o.congestionWindow := by
      omega
    rw [abs_le]
    constructor
    · exact_mod_cast hcases.2
    · exact_mod_cast hcases.1
  rw [ht]
  refine ⟨h.gain, h.width, h.nonneg, fun _ => hless, ?_⟩
  dsimp only
  generalize herr : ((o.congestionWindow : ℚ) - first.congestionWindow) - g * unscaled -
    (first.utilitySsAckAccum - o.utilitySsAckAccum) = before
  have herror : |before| ≤ rounded * |g - 1| := herr ▸ h.error
  have hsplit : ((newCwnd : ℚ) - first.congestionWindow) -
      g * ((unscaled + (newCwnd - o.congestionWindow) : Int) : ℚ) -
      (first.utilitySsAckAccum - o.utilitySsAckAccum) =
      before + ((newCwnd : ℚ) - o.congestionWindow) * (1 - g) := by
    rw [← herr]
    push_cast
    ring
  calc _ = |before + ((newCwnd : ℚ) - o.congestionWindow) * (1 - g)| := congrArg abs hsplit
    _ ≤ |before| + |((newCwnd : ℚ) - o.congestionWindow) * (1 - g)| := abs_add_le _ _
    _ = |before| + |(newCwnd : ℚ) - o.congestionWindow| * |g - 1| := by
        rw [abs_mul, abs_sub_comm 1 g]
    _ ≤ rounded * |g - 1| + 1 * |g - 1| :=
        add_le_add herror (mul_le_mul_of_nonneg_right hstep (abs_nonneg _))
    _ = ((rounded + 1 : Nat) : ℚ) * |g - 1| := by
        push_cast
        ring

end

end Follows

section Run

variable {g : ℚ} {first : OliaSender} {senders : Nat → OliaSender} {ids : List Nat} {id : Nat}
  {unscaled : Int} {rounded : Nat}

section

variable (h : Follows g first (senders id) unscaled rounded) (hgain : 4 / 5 ≤ g ∧ g ≤ 6 / 5)
  (hwithin : (senders id).StrictlyWithin)

include h hgain hwithin

theorem follows_onPacketAcked (orders : Orders)
    (ackedPacketNumber ackedBytes bytesInFlight : Nat)
    {result : (Nat → OliaSender) × Int}
    (hresult : onPacketAcked senders ids orders id ackedPacketNumber ackedBytes bytesInFlight =
      result) :
    Follows g first (result.1 id) (unscaled + result.2)
      (rounded + (!(senders id).inSlowStart).toNat) := by
  unfold onPacketAcked at hresult
  dsimp only at hresult
  split_ifs at hresult with hrecovery
  · subst hresult
    dsimp only
    rw [update_self, add_zero]
    exact (h.mono (Nat.le_add_right _ _)).congr rfl rfl rfl rfl
  · generalize hcounted : ({ senders id with
      largestAckedPacketNumber := max ackedPacketNumber (senders id).largestAckedPacketNumber
      olia := (senders id).olia.updateAckedSinceLastLoss ackedBytes } : OliaSender) = counted
      at hresult
    have hslow : (senders id).inSlowStart = counted.inSlowStart := by
      subst hcounted
      rfl
    have hnow : Follows g first counted unscaled rounded := by
      subst hcounted
      exact h.congr rfl rfl rfl rfl
    have hwithin : counted.StrictlyWithin := by
      subst hcounted
      exact hwithin
    have hstart : update senders id counted id = counted := update_self ..
    rw [hslow]
    rw [← hstart] at hnow hwithin ⊢
    generalize update senders id counted = start at *
    rcases maybeIncreaseCwnd_cases bytesInFlight (Nat.zero_lt_of_lt hwithin.1) hnow.width
      hresult with hsame | ⟨hin, hlt, hgrown⟩ | ⟨hout, -, olia, newCwnd, hnew, hself, hchange⟩
    · rw [hsame]
      dsimp only
      rw [add_zero]
      exact hnow.mono (Nat.le_add_right _ _)
    · rw [hgrown, hin]
      dsimp only
      rw [update_self]
      exact hnow.grown (by linarith [hgain.1]) hlt
    · rw [hout, hchange]
      refine hnow.avoided hgain hwithin hnew ?_
      rw [hself]

theorem follows_performCall {event : SenderEvent}
    (hevent : event.Undisturbed) :
    Follows g first ((performCall ids senders id event).1 id)
      (unscaled + (performCall ids senders id event).2)
      (rounded + (event.avoids (senders id)).toNat) := by
  cases event with
  | onPacketSent packetNumber isRetransmittable =>
    simp only [performCall, SenderEvent.avoids, update_self, add_zero,
      Bool.toNat_false]
    unfold OliaSender.onPacketSent
    split_ifs
    · exact h.congr rfl rfl rfl rfl
    · exact h
  | onPacketAcked orders ackedPacketNumber ackedBytes bytesInFlight =>
    exact follows_onPacketAcked h hgain hwithin orders ackedPacketNumber ackedBytes
      bytesInFlight rfl
  | updateRTT smoothedRTT =>
    simp only [performCall, SenderEvent.avoids, update_self, add_zero,
      Bool.toNat_false]
    exact h.congr rfl rfl rfl rfl
  | _ => cases hevent

end

theorem performCall_other {other : Nat} (event : SenderEvent) (hother : id ≠ other) :
    ∃ olia, (performCall ids senders other event).1 id = { senders id with olia := olia } := by
  cases event with
  | onPacketAcked orders ackedPacketNumber ackedBytes bytesInFlight =>
    simp only [performCall, onPacketAcked]
    split_ifs
    · exact ⟨(senders id).olia, update_of_ne hother _ _⟩
    · obtain ⟨olia, hsame⟩ := maybeIncreaseCwnd_other bytesInFlight hother
      refine ⟨olia, hsame.trans ?_⟩
      rw [update_of_ne hother]
  | _ => exact ⟨(senders id).olia, update_of_ne hother _ _⟩

theorem follows_senderStep {log : List Change}
    (h : Follows g first (senders id) (unscaledTotal id log) (avoided id log))
    (hgain : 4 / 5 ≤ g ∧ g ≤ 6 / 5) (hwithin : (senders id).StrictlyWithin)
    {call : Nat × SenderEvent} (hcall : call.1 = id → call.2.Undisturbed) :
    ∃ next out, senderStep ids senders call = some (next, out) ∧
      Follows g first (next id) (unscaledTotal id (log ++ out)) (avoided id (log ++ out)) := by
  obtain ⟨other, event⟩ := call
  refine ⟨_, _, rfl, ?_⟩
  simp only [unscaledTotal, avoided, map_append, sum_append, map_cons,
    map_nil, sum_cons, sum_nil, add_zero]
  by_cases heq : other = id
  · subst heq
    rw [if_pos rfl, if_pos rfl]
    exact follows_performCall h hgain hwithin (hcall rfl)
  · obtain ⟨olia, hsame⟩ := @performCall_other senders ids id other event (Ne.symm heq)
    rw [hsame, if_neg heq, if_neg heq, add_zero, add_zero]
    exact h.congr rfl rfl rfl rfl

-- A sender with a constant gain, whose window stays strictly between its bounds, follows
-- the algorithm in proportion to the gain, as long as the acknowledgements in the
-- congestion avoidance are few for how far the gain is from one.
theorem gain_is_proportional (ids : List Nat) (start : Nat → OliaSender) (id : Nat) (g : ℚ)
    (hgain : 4 / 5 ≤ g ∧ g ≤ 6 / 5) (hset : (start id).utilityGain = g)
    (haccum : 0 ≤ (start id).utilitySsAckAccum)
    (hwidth : (start id).maxTCPCongestionWindow < 2 ^ 64) (calls : List (Nat × SenderEvent))
    (hcalls : Along (senderStep ids) (fun senders call =>
      (senders id).StrictlyWithin ∧ (call.1 = id → call.2.Undisturbed)) start calls)
    (hfraction : (start id).utilitySsAckAccum < 1) :
    ∃ senders log, run (senderStep ids) start calls = some (senders, log) ∧
      ((senders id).StrictlyWithin → avoided id log * |g - 1| ≤ 1 →
        |((senders id).congestionWindow - (start id).congestionWindow : ℚ) -
          g * unscaledTotal id log| < 2) := by
  have hstep : ∀ (past : List (Nat × SenderEvent)) (log : List Change)
      (senders : Nat → OliaSender) (call : Nat × SenderEvent),
      Follows g (start id) (senders id) (unscaledTotal id log) (avoided id log) →
      ((senders id).StrictlyWithin ∧ (call.1 = id → call.2.Undisturbed)) →
      ∃ next out, senderStep ids senders call = some (next, out) ∧
        Follows g (start id) (next id) (unscaledTotal id (log ++ out)) (avoided id (log ++ out)) :=
    fun _ _ _ _ h hcall => follows_senderStep h hgain hcall.1 hcall.2
  have hfirst : Follows g (start id) (start id) (unscaledTotal id []) (avoided id []) := by
    refine ⟨hset, hwidth, haccum, fun _ => hfraction, ?_⟩
    simp [unscaledTotal, avoided]
  obtain ⟨senders, log, hrun, hfollows⟩ := run_progress _ hstep [] [] start calls hfirst hcalls
  rw [List.nil_append] at hfollows
  refine ⟨senders, log, hrun, fun hwithin hfew => ?_⟩
  have herror := abs_le.mp (hfollows.error.trans hfew)
  have hless := hfollows.fraction hwithin.2
  have hnonneg := hfollows.nonneg
  rw [abs_lt]
  constructor
  · linarith [herror.1]
  · linarith [herror.2]

theorem gain_is_proportional_example :
    let start : Nat → OliaSender := fun _ =>
      { newOliaSender 100000000 3 2500 with slowstartThreshold := 4 }.setUtilityControl 2 1
    let calls : List (Nat × SenderEvent) := List.replicate 6
      (1, .onPacketAcked ⟨[1], [1], [1], [1], [1]⟩ 1 1350 100000)
    ∃ senders log, run (senderStep [1]) start calls = some (senders, log) ∧
      (senders 1).congestionWindow = 5 ∧ unscaledTotal 1 log = 2 ∧ avoided 1 log = 5 ∧
      |((senders 1).congestionWindow - (start 1).congestionWindow : ℚ) -
        6 / 5 * unscaledTotal 1 log| < 2 := by
  intro start calls
  obtain ⟨senders, log, hrun, hbound⟩ := gain_is_proportional [1] start 1 (6 / 5) (by norm_num)
    (by decide +kernel) (by decide) (by decide) calls (by decide +kernel) (by decide)
  have hevaluated : (run (senderStep [1]) start calls).map (fun result =>
      ((result.1 1).congestionWindow, decide (result.1 1).StrictlyWithin,
        unscaledTotal 1 result.2, avoided 1 result.2)) = some (5, true, 2, 5) := by
    decide +kernel
  rw [hrun, Option.map_some, Option.some_inj, Prod.mk.injEq, Prod.mk.injEq, Prod.mk.injEq]
    at hevaluated
  obtain ⟨hwindow, hwithin, htotal, havoided⟩ := hevaluated
  refine ⟨senders, log, hrun, hwindow, htotal, havoided, hbound (of_decide_eq_true hwithin) ?_⟩
  rw [havoided]
  norm_num

-- In the congestion avoidance the smallest gain changes nothing: the algorithm asks for ten
-- packets, the window grows by ten, and eight would be in proportion.
theorem small_gain_has_no_effect :
    let start : Nat → OliaSender := fun _ =>
      ((newOliaSender 100000000 3 2500).exitSlowstart).setUtilityControl (4 / 5) 1
    let calls : List (Nat × SenderEvent) := List.replicate 83
      (1, .onPacketAcked ⟨[1], [1], [1], [1], [1]⟩ 1 1350 100000)
    Along (senderStep [1]) (fun senders call =>
      (senders 1).StrictlyWithin ∧ (senders 1).isCwndLimited 100000 = true ∧
        (call.1 = 1 → call.2.Undisturbed)) start calls ∧
    ∃ senders log, run (senderStep [1]) start calls = some (senders, log) ∧
      (senders 1).StrictlyWithin ∧
      (start 1).congestionWindow = 3 ∧ (senders 1).congestionWindow = 13 ∧
      unscaledTotal 1 log = 10 ∧
      ¬ |((senders 1).congestionWindow - (start 1).congestionWindow : ℚ) -
        4 / 5 * unscaledTotal 1 log| < 2 := by
  intro start calls
  refine ⟨by decide +kernel, ?_⟩
  have hevaluated : (run (senderStep [1]) start calls).map (fun result =>
      ((result.1 1).congestionWindow, decide (result.1 1).StrictlyWithin,
        unscaledTotal 1 result.2)) = some (13, true, 10) := by
    decide +kernel
  obtain ⟨⟨senders, log⟩, hrun, hresult⟩ := Option.map_eq_some_iff.mp hevaluated
  obtain ⟨hwindow, hwithin, htotal⟩ : (senders 1).congestionWindow = 13 ∧
      decide (senders 1).StrictlyWithin = true ∧ unscaledTotal 1 log = 10 := by
    simpa only [Prod.mk.injEq] using hresult
  refine ⟨senders, log, hrun, of_decide_eq_true hwithin, rfl, hwindow, htotal, ?_⟩
  have hfirst : (start 1).congestionWindow = 3 := rfl
  rw [hwindow, htotal, hfirst]
  norm_num

end Run

end MpQuic.Congestion

import MpQuic.Streams.Defs

namespace MpQuic.Streams

open MpQuic.Library List
open MpQuic.Wire (Perspective)

variable {σ : Type*}

namespace StreamsMap

-- The live streams that the endpoint opened itself, or the ones that its peer opened.
def live (m : StreamsMap σ) (own : Bool) : Nat :=
  m.openStreams.countP fun id => opensItself m.perspective id == own

def limit (m : StreamsMap σ) (own : Bool) : Nat :=
  if own then m.connectionParameters.getMaxOutgoingStreams
  else m.connectionParameters.getMaxIncomingStreams

-- The counter that goes up when such a stream is opened: the even streams are the
-- outgoing ones for both endpoints.
def counter (m : StreamsMap σ) (own : Bool) : Nat :=
  match m.perspective, own with
  | .server, true => m.numOutgoingStreams
  | .server, false => m.numIncomingStreams
  | .client, true => m.numIncomingStreams
  | .client, false => m.numOutgoingStreams

def toOpen (m : StreamsMap σ) (id : Nat) : Nat :=
  if (m.streams id).isNone && !opensItself m.perspective id then
    (id + 2 - m.nextRemoteStream) / 2
  else 0

end StreamsMap

-- A client tests one counter and increments the other one. Either its call is refused,
-- or there is room in the counter that it increments.
def CountersAgree (m : StreamsMap σ) : StreamsEvent → Prop
  | .openStream => m.perspective = .client →
      m.numOutgoingStreams ≥ m.connectionParameters.getMaxOutgoingStreams ∨
        m.numIncomingStreams < m.connectionParameters.getMaxOutgoingStreams
  | .getOrOpenStream id => m.perspective = .client →
      m.numIncomingStreams ≥ m.connectionParameters.getMaxIncomingStreams ∨
        m.numOutgoingStreams + m.toOpen id ≤ m.connectionParameters.getMaxIncomingStreams
  | .removeStream _ => True
  | .closeWithError _ => True

instance (m : StreamsMap σ) : (event : StreamsEvent) → Decidable (CountersAgree m event)
  | .openStream | .getOrOpenStream _ => inferInstanceAs (Decidable (_ → _))
  | .removeStream _ | .closeWithError _ => isTrue trivial

structure Limited (params : ConnectionParameters) (m : StreamsMap σ) : Prop where
  parameters : m.connectionParameters = params
  next : opensItself m.perspective m.nextStream = true
  remote : opensItself m.perspective m.nextRemoteStream = false
  nodup : m.openStreams.Nodup
  known : ∀ id, m.streams id = none ↔ id ∉ m.openStreams
  counted : ∀ own, m.live own ≤ m.counter own
  within : ∀ own, m.counter own ≤ m.limit own

section Counting

variable {params : ConnectionParameters} {m next : StreamsMap σ} {id : Nat}

theorem limit_lt (m : StreamsMap σ) (own : Bool) : m.limit own < 2 ^ 32 := by
  cases own with
  | false => exact Nat.lt_of_le_of_lt (Nat.le_refl 110) (by norm_num)
  | true => exact m.connectionParameters.maxIncomingDynamicStreamsPerConnection.toNat_lt

variable {m : StreamsMap σ} {own : Bool}

theorem increment_of_lt (h : m.counter own < m.limit own) :
    increment (m.counter own) = m.counter own + 1 := by
  have hlimit := limit_lt m own
  exact Nat.mod_eq_of_lt (by omega)

structure Adds (m next : StreamsMap σ) (id : Nat) (own : Bool) : Prop where
  perspective : next.perspective = m.perspective
  connectionParameters : next.connectionParameters = m.connectionParameters
  newStream : next.newStream = m.newStream
  counter : next.counter own = increment (m.counter own)
  other : next.counter (!own) = m.counter (!own)
  put : (m.streams id ≠ none ∧ next.streams = m.streams ∧ next.openStreams = m.openStreams) ∨
    (m.streams id = none ∧ next.openStreams = m.openStreams ++ [id] ∧
      next.streams = Function.update m.streams id (some (m.newStream id)))

theorem live_of_eq (hp : next.perspective = m.perspective)
    (hopen : next.openStreams = m.openStreams) : next.live own = m.live own := by
  unfold StreamsMap.live
  rw [hp, hopen]

theorem limit_of_eq (hp : next.connectionParameters = m.connectionParameters) :
    next.limit own = m.limit own := by
  unfold StreamsMap.limit
  rw [hp]

theorem Limited.adds (h : Limited params m) (ha : Adds m next id own)
    (hid : opensItself m.perspective id = own) (hroom : m.counter own < m.limit own)
    (hnext : opensItself m.perspective next.nextStream = true)
    (hremote : opensItself m.perspective next.nextRemoteStream = false) : Limited params next := by
  have hcounter := ha.counter.trans (increment_of_lt hroom)
  have hlive : next.live own ≤ m.live own + 1 ∧ next.live (!own) ≤ m.live (!own) := by
    rcases ha.put with ⟨-, -, hopen⟩ | ⟨-, hopen, -⟩
    · rw [live_of_eq ha.perspective hopen, live_of_eq ha.perspective hopen]
      exact ⟨Nat.le_succ _, Nat.le_refl _⟩
    · unfold StreamsMap.live
      rw [ha.perspective, hopen, countP_append, countP_append]
      simp [hid]
  refine ⟨ha.connectionParameters.trans h.parameters, ha.perspective ▸ hnext,
    ha.perspective ▸ hremote, ?_, ?_, fun any => ?_, fun any => ?_⟩
  · rcases ha.put with ⟨-, -, hopen⟩ | ⟨hnone, hopen, -⟩
    · rw [hopen]
      exact h.nodup
    · have hnodup := h.nodup.concat ((h.known id).mp hnone)
      rwa [concat_eq_append, ← hopen] at hnodup
  · intro other
    rcases ha.put with ⟨-, hstreams, hopen⟩ | ⟨-, hopen, hstreams⟩
    · rw [hstreams, hopen]
      exact h.known other
    · rw [hstreams, hopen]
      by_cases he : other = id
      · simp [he]
      · simp [he, h.known]
  · by_cases he : any = own
    · have := h.counted own
      rw [he]
      omega
    · have := h.counted (!own)
      rw [Bool.eq_not_of_ne he, ha.other]
      omega
  · rw [limit_of_eq ha.connectionParameters]
    by_cases he : any = own
    · rw [he]
      omega
    · rw [Bool.eq_not_of_ne he, ha.other]
      exact h.within _

theorem putStream_put (m : StreamsMap σ) (id : Nat) :
    (m.streams id ≠ none ∧ (m.putStream id).streams = m.streams ∧
      (m.putStream id).openStreams = m.openStreams) ∨
    (m.streams id = none ∧ (m.putStream id).openStreams = m.openStreams ++ [id] ∧
      (m.putStream id).streams = Function.update m.streams id (some (m.newStream id))) := by
  unfold StreamsMap.putStream
  cases hs : m.streams id with
  | some s => exact Or.inl ⟨Option.some_ne_none s, rfl, rfl⟩
  | none => exact Or.inr ⟨rfl, rfl, rfl⟩

theorem putStream_frame (m : StreamsMap σ) (id : Nat) :
    m.putStream id = { m with
      streams := (m.putStream id).streams, openStreams := (m.putStream id).openStreams } := by
  unfold StreamsMap.putStream
  cases hs : m.streams id <;> rfl

theorem putStream_counter (m : StreamsMap σ) (id : Nat) (own : Bool) :
    (m.putStream id).counter own = m.counter own := by
  rw [putStream_frame]
  rfl

theorem Adds.putStream {counted : StreamsMap σ}
    (hperspective : counted.perspective = m.perspective)
    (hparams : counted.connectionParameters = m.connectionParameters)
    (hnew : counted.newStream = m.newStream) (hstreams : counted.streams = m.streams)
    (hopen : counted.openStreams = m.openStreams)
    (hcounter : counted.counter own = increment (m.counter own))
    (hother : counted.counter (!own) = m.counter (!own)) : Adds m (counted.putStream id) id own := by
  have hput := putStream_put counted id
  rw [hstreams, hopen, hnew] at hput
  refine ⟨?_, ?_, ?_, ?_, ?_, hput⟩
  · rw [putStream_frame]
    exact hperspective
  · rw [putStream_frame]
    exact hparams
  · rw [putStream_frame]
    exact hnew
  · rw [putStream_counter, hcounter]
  · rw [putStream_counter, hother]

theorem openRemoteStream_adds (ho : m.openRemoteStream id = .ok next) :
    Adds m next id false ∧ next.nextStream = m.nextStream ∧
      next.highestStreamOpenedByPeer = max m.highestStreamOpenedByPeer id ∧
      m.numIncomingStreams < m.connectionParameters.getMaxIncomingStreams := by
  unfold StreamsMap.openRemoteStream at ho
  split at ho
  · cases ho
  next hlimit =>
  split at ho
  · cases ho
  cases ho
  cases hp : m.perspective <;>
    refine ⟨Adds.putStream hp.symm rfl rfl rfl rfl ?_ ?_, ?_, ?_, Nat.lt_of_not_le hlimit⟩ <;>
    first | (rw [putStream_frame]; rfl) | simp [StreamsMap.counter, hp]

theorem openStream_adds (ho : m.openStream = .ok next) :
    Adds m next m.nextStream true ∧ next.nextStream = (m.nextStream + 2) % 2 ^ 32 ∧
      next.highestStreamOpenedByPeer = m.highestStreamOpenedByPeer ∧
      m.numOutgoingStreams < m.connectionParameters.getMaxOutgoingStreams := by
  unfold StreamsMap.openStream StreamsMap.openStreamImpl at ho
  split at ho
  · cases ho
  split at ho
  · cases ho
  next hlimit =>
  cases ho
  cases hp : m.perspective <;>
    refine ⟨Adds.putStream hp.symm rfl rfl rfl rfl ?_ ?_, ?_, ?_, Nat.lt_of_not_le hlimit⟩ <;>
    first | (rw [putStream_frame]; rfl) | simp [StreamsMap.counter, hp]

theorem opensItself_add_two (pers : Perspective) (id : Nat) :
    opensItself pers (id + 2) = opensItself pers id := by
  cases pers <;> simp [opensItself]

theorem opensItself_add_two_mod (pers : Perspective) (id : Nat) :
    opensItself pers ((id + 2) % 2 ^ 32) = opensItself pers id := by
  cases pers <;> simp [opensItself]

theorem nextRemoteStream_of_ne (h : m.highestStreamOpenedByPeer ≠ 0) :
    m.nextRemoteStream = m.highestStreamOpenedByPeer + 2 := by
  unfold StreamsMap.nextRemoteStream
  rw [if_neg (fun hc => h (by omega))]

theorem nextRemoteStream_congr (hp : next.perspective = m.perspective)
    (hh : next.highestStreamOpenedByPeer = m.highestStreamOpenedByPeer) :
    next.nextRemoteStream = m.nextRemoteStream := by
  unfold StreamsMap.nextRemoteStream
  rw [hp, hh]

theorem lt_nextRemoteStream (m : StreamsMap σ) :
    m.highestStreamOpenedByPeer < m.nextRemoteStream := by
  unfold StreamsMap.nextRemoteStream
  split <;> omega

theorem openRemoteStream_next (ho : m.openRemoteStream id = .ok next)
    (hid : m.nextRemoteStream = id) : next.nextRemoteStream = id + 2 := by
  have hlt := lt_nextRemoteStream m
  have hh := (openRemoteStream_adds ho).2.2.1
  rw [Nat.max_eq_right (by omega)] at hh
  rw [nextRemoteStream_of_ne (by omega), hh]

def Room (m : StreamsMap σ) (n : Nat) : Prop :=
  m.perspective = .client →
    m.numIncomingStreams ≥ m.connectionParameters.getMaxIncomingStreams ∨
      m.numOutgoingStreams + n ≤ m.connectionParameters.getMaxIncomingStreams

theorem Room.lt {n : Nat} (h : Room m (n + 1))
    (htested : m.numIncomingStreams < m.connectionParameters.getMaxIncomingStreams) :
    m.counter false < m.limit false := by
  cases hp : m.perspective with
  | server => simpa [StreamsMap.counter, StreamsMap.limit, hp] using htested
  | client =>
    have hroom := (h hp).resolve_left (Nat.not_le_of_lt htested)
    simp only [StreamsMap.counter, StreamsMap.limit, hp]
    exact Nat.lt_of_succ_le (Nat.le_trans (by omega) hroom)

theorem Room.step {n : Nat} (h : Room m (n + 1)) (ha : Adds m next id false)
    (htested : m.numIncomingStreams < m.connectionParameters.getMaxIncomingStreams) :
    Room next n := by
  intro hp
  rw [ha.perspective] at hp
  have hcounter := ha.counter.trans (increment_of_lt (h.lt htested))
  have hroom := (h hp).resolve_left (Nat.not_le_of_lt htested)
  simp only [StreamsMap.counter, ha.perspective, hp] at hcounter
  rw [ha.connectionParameters, hcounter]
  exact Or.inr (by omega)

theorem openRemoteStreams_limited (sid : Nat) (h : Limited params m) (hsid : m.nextRemoteStream = sid)
    (hroom : Room m ((id + 2 - sid) / 2)) :
    Limited params (StreamsMap.openRemoteStreams id m sid).1 := by
  fun_induction StreamsMap.openRemoteStreams id m sid with
  | case1 m sid hle err ho => exact h
  | case2 m sid hle next ho ih =>
    obtain ⟨ha, hnext, -, htested⟩ := openRemoteStream_adds ho
    have hremote := openRemoteStream_next ho hsid
    have hturns : (id + 2 - sid) / 2 = (id + 2 - (sid + 2)) / 2 + 1 := by omega
    rw [hturns] at hroom
    have hown : opensItself m.perspective sid = false := hsid ▸ h.remote
    apply ih _ hremote (hroom.step ha htested)
    apply h.adds ha hown (hroom.lt htested)
    · rw [hnext]
      exact h.next
    · rw [hremote, opensItself_add_two]
      exact hown
  | case3 m sid hle => exact h

theorem openUpTo_fst (m : StreamsMap σ) (id : Nat) :
    (m.openUpTo id).1 = (StreamsMap.openRemoteStreams id m m.nextRemoteStream).1 := by
  unfold StreamsMap.openUpTo
  split
  next hr => rw [hr]
  next hr => rw [hr]

inductive Got (m : StreamsMap σ) (id : Nat) :
    StreamsMap σ × Except StreamsError (Option σ) → Prop
  | known (s : σ) (hs : m.streams id = some s) : Got m id (m, .ok (some s))
  | ownClosed (hs : m.streams id = none) (hown : opensItself m.perspective id = true)
      (hle : id ≤ m.nextStream) : Got m id (m, .ok none)
  | refused (err : StreamsError) (hs : m.streams id = none) : Got m id (m, .error err)
  | peerClosed (hs : m.streams id = none) (hpeer : opensItself m.perspective id = false)
      (hle : id ≤ m.highestStreamOpenedByPeer) : Got m id (m, .ok none)
  | opens (hs : m.streams id = none) (hpeer : opensItself m.perspective id = false)
      (hlt : m.highestStreamOpenedByPeer < id) : Got m id (m.openUpTo id)

theorem getOrOpenStream_got (m : StreamsMap σ) (id : Nat) : Got m id (m.getOrOpenStream id) := by
  unfold StreamsMap.getOrOpenStream
  cases hs : m.streams id with
  | some s => exact .known s hs
  | none =>
    cases hp : m.perspective with
    | server =>
      dsimp only
      split
      next heven =>
        split
        next hle => exact .ownClosed hs (by simp [opensItself, hp, heven]) hle
        next => exact .refused _ hs
      next hodd =>
        split
        next hle => exact .peerClosed hs (by simp [opensItself, hp, hodd]) hle
        next hlt => exact .opens hs (by simp [opensItself, hp, hodd]) (Nat.lt_of_not_le hlt)
    | client =>
      dsimp only
      split
      next hodd =>
        split
        next hle => exact .ownClosed hs (by simp [opensItself, hp, hodd]) hle
        next => exact .refused _ hs
      next heven =>
        split
        next hle => exact .peerClosed hs (by simp [opensItself, hp, heven]) hle
        next hlt => exact .opens hs (by simp [opensItself, hp, heven]) (Nat.lt_of_not_le hlt)

theorem getOrOpenStream_limited (h : Limited params m)
    (hcond : CountersAgree m (.getOrOpenStream id)) : Limited params (m.getOrOpenStream id).1 := by
  have hgot := getOrOpenStream_got m id
  generalize m.getOrOpenStream id = got at hgot ⊢
  cases hgot with
  | known s hs => exact h
  | ownClosed hs hown hle => exact h
  | refused err hs => exact h
  | peerClosed hs hpeer hle => exact h
  | opens hs hpeer hlt =>
    rw [openUpTo_fst]
    apply openRemoteStreams_limited _ h rfl
    have htoOpen : m.toOpen id = (id + 2 - m.nextRemoteStream) / 2 := by
      simp [StreamsMap.toOpen, hs, hpeer]
    rw [← htoOpen]
    exact hcond

theorem openStream_limited (h : Limited params m) (hcond : CountersAgree m .openStream)
    (ho : m.openStream = .ok next) : Limited params next := by
  obtain ⟨ha, hnext, hhighest, htested⟩ := openStream_adds ho
  have hroom : m.counter true < m.limit true := by
    cases hp : m.perspective with
    | server => simpa [StreamsMap.counter, StreamsMap.limit, hp] using htested
    | client =>
      simp only [StreamsMap.counter, StreamsMap.limit, hp]
      exact (hcond hp).resolve_left (Nat.not_le_of_lt htested)
  apply h.adds ha h.next hroom
  · rw [hnext, opensItself_add_two_mod]
    exact h.next
  · rw [nextRemoteStream_congr ha.perspective hhighest]
    exact h.remote

structure Removes (m next : StreamsMap σ) (id : Nat) : Prop where
  known : m.streams id ≠ none
  perspective : next.perspective = m.perspective
  connectionParameters : next.connectionParameters = m.connectionParameters
  newStream : next.newStream = m.newStream
  nextStream : next.nextStream = m.nextStream
  highest : next.highestStreamOpenedByPeer = m.highestStreamOpenedByPeer
  streams : next.streams = Function.update m.streams id none
  openStreams : next.openStreams = m.openStreams.erase id
  counter : ∀ own, next.counter own =
    if opensItself m.perspective id = own then decrement (m.counter own) else m.counter own

theorem removeStream_removes (hr : m.removeStream id = .ok next) : Removes m next id := by
  unfold StreamsMap.removeStream at hr
  split at hr
  · cases hr
  next s hs =>
  cases hr
  have hknown : m.streams id ≠ none := by
    rw [hs]
    exact Option.some_ne_none s
  by_cases heven : id % 2 = 0
  · rw [if_pos heven]
    refine ⟨hknown, rfl, rfl, rfl, rfl, rfl, rfl, rfl, fun own => ?_⟩
    cases hp : m.perspective <;> cases own <;> simp [StreamsMap.counter, opensItself, hp, heven]
  · rw [if_neg heven]
    have hodd : id % 2 = 1 := by omega
    refine ⟨hknown, rfl, rfl, rfl, rfl, rfl, rfl, rfl, fun own => ?_⟩
    cases hp : m.perspective <;> cases own <;> simp [StreamsMap.counter, opensItself, hp, hodd]

theorem Limited.removes (h : Limited params m) (hr : Removes m next id) : Limited params next := by
  have hin : id ∈ m.openStreams := by
    by_contra hout
    exact hr.known ((h.known id).mpr hout)
  have hlive : ∀ own, next.live own =
      if opensItself m.perspective id = own then m.live own - 1 else m.live own := by
    intro own
    unfold StreamsMap.live
    rw [hr.perspective, hr.openStreams, countP_erase]
    by_cases he : opensItself m.perspective id = own <;> simp [he, hin]
  refine ⟨hr.connectionParameters.trans h.parameters, ?_, ?_, ?_, fun other => ?_,
    fun own => ?_, fun own => ?_⟩
  · rw [hr.perspective, hr.nextStream]
    exact h.next
  · rw [hr.perspective, nextRemoteStream_congr hr.perspective hr.highest]
    exact h.remote
  · rw [hr.openStreams]
    exact h.nodup.erase id
  · rw [hr.streams, hr.openStreams, h.nodup.mem_erase_iff]
    by_cases he : other = id
    · simp [he]
    · simp [he, h.known]
  · have hcounted := h.counted own
    rw [hlive, hr.counter]
    split
    · unfold decrement
      split <;> omega
    · exact hcounted
  · have hwithin := h.within own
    rw [limit_of_eq hr.connectionParameters, hr.counter]
    split
    next hown =>
      have hpos : 0 < m.live own := by
        unfold StreamsMap.live
        rw [countP_pos_iff]
        exact ⟨id, hin, by simp [hown]⟩
      have hcounted := h.counted own
      unfold decrement
      rw [if_neg (by omega)]
      omega
    · exact hwithin

theorem newStreamsMap_limited (newStream : Nat → σ) (pers : Perspective)
    (params : ConnectionParameters) : Limited params (newStreamsMap newStream pers params) := by
  refine ⟨rfl, ?_, ?_, nodup_nil, fun id => by simp [newStreamsMap], fun own => ?_,
    fun own => ?_⟩
  · cases pers <;> simp [newStreamsMap, opensItself]
  · cases pers <;> simp [newStreamsMap, opensItself, StreamsMap.nextRemoteStream]
  · simp [StreamsMap.live, newStreamsMap]
  · have hzero : (newStreamsMap newStream pers params).counter own = 0 := by
      cases pers <;> cases own <;> rfl
    rw [hzero]
    exact Nat.zero_le _

theorem streamsStep_limited {event : StreamsEvent} {out : List (Entry σ)} (h : Limited params m)
    (hcond : CountersAgree m event) (hs : streamsStep m event = some (next, out)) :
    Limited params next := by
  unfold streamsStep at hs
  cases event with
  | openStream =>
    dsimp only at hs
    split at hs
    · cases hs
      exact h
    next reached ho =>
      cases hs
      exact openStream_limited h hcond ho
  | getOrOpenStream id =>
    cases hs
    exact getOrOpenStream_limited h hcond
  | removeStream id =>
    dsimp only at hs
    split at hs
    · cases hs
      exact h
    next reached hr =>
      cases hs
      exact h.removes (removeStream_removes hr)
  | closeWithError err =>
    cases hs
    exact ⟨h.parameters, h.next, h.remote, h.nodup, h.known, h.counted, h.within⟩

end Counting

-- Both limits hold in every run, if the counters of a client agree.
theorem stream_limits_hold (newStream : Nat → σ) (pers : Perspective)
    (params : ConnectionParameters) (events : List StreamsEvent) (last : StreamsMap σ)
    (log : List (Entry σ))
    (hagree : Along streamsStep CountersAgree (newStreamsMap newStream pers params) events)
    (hr : run streamsStep (newStreamsMap newStream pers params) events = some (last, log)) :
    last.live false ≤ params.getMaxIncomingStreams ∧
      last.live true ≤ params.getMaxOutgoingStreams := by
  have hlast : Limited params last :=
    run_invariant (fun _ _ m => Limited params m)
      (fun _ _ _ _ _ _ hinv hcond hs => streamsStep_limited hinv hcond hs)
      [] [] _ last events log (newStreamsMap_limited newStream pers params) hagree hr
  have hin := Nat.le_trans (hlast.counted false) (hlast.within false)
  have hout := Nat.le_trans (hlast.counted true) (hlast.within true)
  simp only [StreamsMap.limit, hlast.parameters] at hin hout
  exact ⟨hin, hout⟩

def serverEvents : List StreamsEvent := [.openStream, .getOrOpenStream 3, .removeStream 1]

theorem stream_limits_hold_example :
    (run streamsStep (newStreamsMap (id : Nat → Nat) .server newConnectionParametersManager)
        serverEvents).map (fun reached => reached.1.openStreams) = some [2, 3] ∧
      ∀ last log, run streamsStep (newStreamsMap (id : Nat → Nat) .server
          newConnectionParametersManager) serverEvents = some (last, log) →
        last.live false ≤ newConnectionParametersManager.getMaxIncomingStreams ∧
          last.live true ≤ newConnectionParametersManager.getMaxOutgoingStreams := by
  refine ⟨by decide +kernel, fun last log hr => ?_⟩
  exact stream_limits_hold id .server newConnectionParametersManager serverEvents last log
    (by decide +kernel) hr

-- A client that may open one stream opens two.
theorem client_exceeds_stream_limit :
    ∃ (last : StreamsMap Nat) (log : List (Entry Nat)),
      run streamsStep (newStreamsMap id .client (newConnectionParametersManager.setFromMap 1))
        [.openStream, .openStream] = some (last, log) ∧
      last.openStreams = [1, 3] ∧ last.live true = 2 ∧
      (newConnectionParametersManager.setFromMap 1).getMaxOutgoingStreams = 1 := by
  refine ⟨_, _, rfl, ?_⟩
  decide +kernel

end MpQuic.Streams

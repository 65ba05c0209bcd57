import MpQuic.Streams.Limits

namespace MpQuic.Streams

open MpQuic.Library List
open MpQuic.Wire (Perspective)

variable {σ : Type*}

def Entry.opened : Entry σ → List Nat
  | .openStream id => [id]
  | .getOrOpenStream _ opened _ => opened
  | .removeStream _ => []

def everOpened (log : List (Entry σ)) : List Nat :=
  log.flatMap Entry.opened

def liveAfter (log : List (Entry σ)) : List Nat :=
  log.foldl (fun live entry =>
    match entry with
    | .removeStream id => live.filter (· ≠ id)
    | entry => live ++ entry.opened) []

def notYetOpened (pers : Perspective) (log : List (Entry σ)) (id : Nat) : List Nat :=
  (List.range (id + 1)).filter fun sid =>
    0 < sid && !opensItself pers sid && sid ∉ everOpened log

-- `GetOrOpenStream` either returns an existing stream, a newly opened stream, or nil if a
-- stream with the provided ID is already closed.
def Documented (pers : Perspective) (newStream : Nat → σ) (before : List (Entry σ)) :
    Entry σ → Prop
  | .getOrOpenStream id opened result => 1 ≤ id →
      (id ∈ liveAfter before → result = .ok (some (newStream id)) ∧ opened = []) ∧
      (id ∉ liveAfter before → ∀ s, result = .ok s →
        (s = none ∧ opened = [] ∧ id ∈ everOpened before) ∨
        (s = some (newStream id) ∧ opened = notYetOpened pers before id ∧ id ∈ opened))
  | .openStream _ => True
  | .removeStream _ => True

-- The ID of the stream that the endpoint opens next counts as already closed.
def SparesNext (m : StreamsMap σ) : StreamsEvent → Prop
  | .getOrOpenStream id => id = m.nextStream → m.streams id ≠ none
  | _ => True

instance (m : StreamsMap σ) : (event : StreamsEvent) → Decidable (SparesNext m event)
  | .getOrOpenStream id => decidable_of_iff (id = m.nextStream → (m.streams id).isSome = true)
      (by simp only [SparesNext, Option.isSome_iff_ne_none])
  | .openStream | .removeStream _ | .closeWithError _ => isTrue trivial

structure Recorded (pers : Perspective) (newStream : Nat → σ) (log : List (Entry σ))
    (m : StreamsMap σ) : Prop where
  perspective : m.perspective = pers
  made : m.newStream = newStream
  next : opensItself pers m.nextStream = true
  bound : m.nextStream < 2 ^ 32
  remote : opensItself pers m.nextRemoteStream = false
  streams : ∀ id, m.streams id = if id ∈ liveAfter log then some (newStream id) else none
  own : ∀ id, 1 ≤ id → opensItself pers id = true → id < m.nextStream → id ∈ everOpened log
  peer : ∀ id, 1 ≤ id → opensItself pers id = false →
    (id ∈ everOpened log ↔ id < m.nextRemoteStream)

section Logs

variable (log : List (Entry σ))

@[simp] theorem everOpened_snoc (entry : Entry σ) :
    everOpened (log ++ [entry]) = everOpened log ++ entry.opened := by
  simp [everOpened]

@[simp] theorem liveAfter_openStream (id : Nat) :
    liveAfter (log ++ [.openStream id]) = liveAfter log ++ [id] := by
  simp [liveAfter, Entry.opened]

@[simp] theorem liveAfter_getOrOpenStream (id : Nat) (opened : List Nat)
    (result : Except StreamsError (Option σ)) :
    liveAfter (log ++ [.getOrOpenStream id opened result]) = liveAfter log ++ opened := by
  simp [liveAfter, Entry.opened]

@[simp] theorem liveAfter_removeStream (id : Nat) :
    liveAfter (log ++ [.removeStream id]) = (liveAfter log).filter (· ≠ id) := by
  simp [liveAfter]

theorem mem_everOpened_of_liveAfter {id : Nat} (hlive : id ∈ liveAfter log) :
    id ∈ everOpened log := by
  induction log using List.reverseRecOn with
  | nil => cases hlive
  | append_singleton log entry ih =>
    rw [everOpened_snoc, mem_append]
    cases entry with
    | openStream other =>
      rw [liveAfter_openStream, mem_append] at hlive
      exact hlive.imp_left ih
    | getOrOpenStream other opened result =>
      rw [liveAfter_getOrOpenStream, mem_append] at hlive
      exact hlive.imp_left ih
    | removeStream other =>
      rw [liveAfter_removeStream] at hlive
      exact Or.inl (ih (mem_of_mem_filter hlive))

end Logs

theorem opensItself_eq_iff {pers : Perspective} {a b : Nat} :
    opensItself pers a = opensItself pers b ↔ a % 2 = b % 2 := by
  cases pers with
  | server =>
    simp only [opensItself, decide_eq_decide]
    omega
  | client =>
    simp only [opensItself, decide_eq_decide]
    omega

theorem filter_range_eq_range' {first last : Nat} (hle : first ≤ last) (p : Nat → Bool)
    (hp : ∀ id, p id = true ↔ first ≤ id ∧ id % 2 = first % 2) :
    (List.range (last + 1)).filter p = List.range' first ((last + 2 - first) / 2) 2 := by
  apply List.Pairwise.eq_of_mem_iff (r := (· < ·))
  · exact pairwise_lt_range.filter p
  · exact pairwise_lt_range' 2 Nat.two_pos
  · intro id
    rw [mem_filter, mem_range, hp, mem_range']
    constructor
    · rintro ⟨hlast, hfirst, hmod⟩
      exact ⟨(id - first) / 2, by omega, by omega⟩
    · rintro ⟨i, hi, rfl⟩
      omega

section Loop

variable {m next : StreamsMap σ} {id : Nat}

structure OpensAll (m next : StreamsMap σ) (ids : List Nat) : Prop where
  perspective : next.perspective = m.perspective
  newStream : next.newStream = m.newStream
  nextStream : next.nextStream = m.nextStream
  openStreams : next.openStreams = m.openStreams ++ ids
  streams : ∀ id, next.streams id = if id ∈ ids then some (m.newStream id) else m.streams id

theorem OpensAll.nil (m : StreamsMap σ) : OpensAll m m [] :=
  ⟨rfl, rfl, rfl, (append_nil _).symm, fun _ => rfl⟩

theorem OpensAll.cons {last : StreamsMap σ} {ids : List Nat} (ha : Adds m next id false)
    (hnone : m.streams id = none) (hnext : next.nextStream = m.nextStream)
    (h : OpensAll next last ids) : OpensAll m last (id :: ids) := by
  obtain ⟨-, hopen, hstreams⟩ := ha.put.resolve_left fun hput => hput.1 hnone
  refine ⟨h.perspective.trans ha.perspective, h.newStream.trans ha.newStream,
    h.nextStream.trans hnext, ?_, fun other => ?_⟩
  · rw [h.openStreams, hopen, append_assoc]
    rfl
  · rw [h.streams, ha.newStream, hstreams]
    by_cases hin : other ∈ ids
    · simp [hin]
    · by_cases he : other = id <;> simp [hin, he]

theorem openRemoteStreams_opens (id sid : Nat) (hsid : m.nextRemoteStream = sid)
    (hfresh : ∀ other, sid ≤ other → opensItself m.perspective other =
      opensItself m.perspective sid → m.streams other = none) :
    ∃ n, OpensAll m (StreamsMap.openRemoteStreams id m sid).1 (List.range' sid n 2) ∧
      (StreamsMap.openRemoteStreams id m sid).1.nextRemoteStream = sid + 2 * n ∧
      ((StreamsMap.openRemoteStreams id m sid).2 = none → n = (id + 2 - sid) / 2) := by
  fun_induction StreamsMap.openRemoteStreams id m sid with
  | case1 m sid hle err ho => exact ⟨0, OpensAll.nil m, hsid, fun herr => by cases herr⟩
  | case2 m sid hle next ho ih =>
    obtain ⟨ha, hnext, -, -⟩ := openRemoteStream_adds ho
    have hnone := hfresh sid (Nat.le_refl sid) rfl
    obtain ⟨-, -, hstreams⟩ := ha.put.resolve_left fun hput => hput.1 hnone
    obtain ⟨n, hopens, hremote, hall⟩ := ih (openRemoteStream_next ho hsid) (by
      intro other hge hown
      rw [ha.perspective, opensItself_add_two] at hown
      rw [hstreams, Function.update_of_ne (by omega)]
      exact hfresh other (by omega) hown)
    refine ⟨n + 1, ?_, by rw [hremote]; omega, fun hok => ?_⟩
    · rw [range'_succ]
      exact OpensAll.cons ha hnone hnext hopens
    · have := hall hok
      omega
  | case3 m sid hle => exact ⟨0, OpensAll.nil m, hsid, fun _ => by omega⟩

end Loop

section Steps

variable {pers : Perspective} {newStream : Nat → σ} {log : List (Entry σ)}
  {m next : StreamsMap σ} {id : Nat}

section

variable (h : Recorded pers newStream log m)

include h

theorem Recorded.mem_liveAfter :
    id ∈ liveAfter log ↔ m.streams id ≠ none := by
  rw [h.streams]
  split <;> simp [*]

theorem Recorded.le_highest_iff (hid : 1 ≤ id)
    (hpeer : opensItself pers id = false) :
    id ≤ m.highestStreamOpenedByPeer ↔ id < m.nextRemoteStream := by
  have hmod := opensItself_eq_iff.mp (hpeer.trans h.remote.symm)
  revert hmod
  unfold StreamsMap.nextRemoteStream
  split
  · omega
  · omega

theorem Recorded.openStream (ho : m.openStream = .ok next) :
    Recorded pers newStream (log ++ [.openStream m.nextStream]) next := by
  obtain ⟨ha, hnext, hhighest, -⟩ := openStream_adds ho
  have hremote := nextRemoteStream_congr ha.perspective hhighest
  refine ⟨ha.perspective.trans h.perspective, ha.newStream.trans h.made, ?_, ?_, ?_,
    fun id => ?_, fun id hid hown hlt => ?_, fun id hid hpeer => ?_⟩
  · rw [hnext, opensItself_add_two_mod]
    exact h.next
  · rw [hnext]
    exact Nat.mod_lt _ (by norm_num)
  · rw [hremote]
    exact h.remote
  · rw [liveAfter_openStream]
    rcases ha.put with ⟨hlive, hstreams, -⟩ | ⟨-, -, hstreams⟩
    · rw [hstreams, h.streams]
      by_cases he : id = m.nextStream
      · subst he
        simp [h.mem_liveAfter.mpr hlive]
      · simp [he]
    · rw [hstreams, h.made]
      by_cases he : id = m.nextStream
      · subst he
        simp
      · simp [he, h.streams]
  · rw [everOpened_snoc, mem_append]
    have hmod := opensItself_eq_iff.mp (hown.trans h.next.symm)
    have hbound := h.bound
    rw [hnext] at hlt
    by_cases he : id = m.nextStream
    · exact Or.inr (mem_singleton.mpr he)
    · exact Or.inl (h.own id hid hown (by omega))
  · have hne : id ≠ m.nextStream := by
      intro he
      rw [he, h.next] at hpeer
      cases hpeer
    rw [everOpened_snoc, hremote, ← h.peer id hid hpeer]
    simp [Entry.opened, hne]

theorem Recorded.removeStream
    (hr : m.removeStream id = .ok next) :
    Recorded pers newStream (log ++ [.removeStream id]) next := by
  have hrem := removeStream_removes hr
  have hremote := nextRemoteStream_congr hrem.perspective hrem.highest
  have hever : everOpened (log ++ [.removeStream id]) = everOpened log := by
    simp [Entry.opened]
  refine ⟨hrem.perspective.trans h.perspective, hrem.newStream.trans h.made,
    hrem.nextStream ▸ h.next, hrem.nextStream ▸ h.bound, hremote ▸ h.remote, fun other => ?_, ?_, ?_⟩
  · rw [liveAfter_removeStream, hrem.streams]
    by_cases he : other = id
    · subst he
      simp
    · simp [he, h.streams]
  · rw [hever, hrem.nextStream]
    exact h.own
  · rw [hever, hremote]
    exact h.peer

theorem Recorded.unchanged
    (result : Except StreamsError (Option σ)) :
    Recorded pers newStream (log ++ [.getOrOpenStream id [] result]) m := by
  have hever : everOpened (log ++ [.getOrOpenStream id [] result]) = everOpened log := by
    simp [Entry.opened]
  refine ⟨h.perspective, h.made, h.next, h.bound, h.remote, fun other => ?_, ?_, ?_⟩
  · rw [liveAfter_getOrOpenStream, append_nil]
    exact h.streams other
  · rw [hever]
    exact h.own
  · rw [hever]
    exact h.peer

theorem Recorded.opensAll {n : Nat}
    (ho : OpensAll m next (List.range' m.nextRemoteStream n 2))
    (hremote : next.nextRemoteStream = m.nextRemoteStream + 2 * n)
    (result : Except StreamsError (Option σ)) :
    Recorded pers newStream (log ++
      [.getOrOpenStream id (List.range' m.nextRemoteStream n 2) result]) next := by
  refine ⟨ho.perspective.trans h.perspective, ho.newStream.trans h.made, ho.nextStream ▸ h.next,
    ho.nextStream ▸ h.bound, ?_, fun other => ?_, fun other hid hown hlt => ?_,
    fun other hid hpeer => ?_⟩
  · rw [← h.remote, hremote, opensItself_eq_iff]
    omega
  · rw [liveAfter_getOrOpenStream, ho.streams, h.streams, h.made]
    by_cases hin : other ∈ List.range' m.nextRemoteStream n 2
    · rw [if_pos hin, if_pos (mem_append_right _ hin)]
    · simp only [mem_append, hin, or_false, if_false]
  · rw [everOpened_snoc, mem_append]
    exact Or.inl (h.own other hid hown (ho.nextStream ▸ hlt))
  · have hmod := opensItself_eq_iff.mp (hpeer.trans h.remote.symm)
    rw [everOpened_snoc, mem_append, h.peer other hid hpeer, hremote]
    simp only [Entry.opened, mem_range']
    constructor
    · rintro (hlt | ⟨i, hi, rfl⟩) <;> omega
    · intro hlt
      by_cases hbefore : other < m.nextRemoteStream
      · exact Or.inl hbefore
      · exact Or.inr ⟨(other - m.nextRemoteStream) / 2, by omega, by omega⟩

theorem Recorded.notYetOpened_eq
    (hle : m.nextRemoteStream ≤ id) :
    notYetOpened pers log id =
      List.range' m.nextRemoteStream ((id + 2 - m.nextRemoteStream) / 2) 2 := by
  apply filter_range_eq_range' hle
  intro other
  have hpos : 0 < m.nextRemoteStream := Nat.lt_of_le_of_lt (Nat.zero_le _) (lt_nextRemoteStream m)
  simp only [Bool.and_eq_true, decide_eq_true_eq, Bool.not_eq_true']
  constructor
  · rintro ⟨⟨hid, hpeer⟩, hnew⟩
    rw [h.peer other hid hpeer] at hnew
    exact ⟨by omega, opensItself_eq_iff.mp (hpeer.trans h.remote.symm)⟩
  · rintro ⟨hge, hmod⟩
    have hpeer : opensItself pers other = false := by
      rw [opensItself_eq_iff.mpr hmod]
      exact h.remote
    have hid : 1 ≤ other := by omega
    rw [h.peer other hid hpeer]
    exact ⟨⟨hid, hpeer⟩, by omega⟩

theorem Recorded.closed (hid : 1 ≤ id → id ∈ everOpened log)
    (hs : m.streams id = none) :
    Documented pers newStream log (.getOrOpenStream id [] (.ok none)) := by
  have hdead : id ∉ liveAfter log := fun hlive => h.mem_liveAfter.mp hlive hs
  intro hpos
  refine ⟨fun hlive => absurd hlive hdead, fun _ s hok => ?_⟩
  obtain rfl : none = s := Except.ok.inj hok
  exact Or.inl ⟨rfl, rfl, hid hpos⟩

theorem Recorded.error {opened : List Nat}
    (err : StreamsError) (hs : m.streams id = none) :
    Documented pers newStream log (.getOrOpenStream id opened (.error err)) := by
  have hdead : id ∉ liveAfter log := fun hlive => h.mem_liveAfter.mp hlive hs
  intro hpos
  refine ⟨fun hlive => absurd hlive hdead, fun _ s hok => ?_⟩
  cases hok

theorem Recorded.openUpTo (hs : m.streams id = none)
    (hpeer : opensItself pers id = false) (hlt : m.highestStreamOpenedByPeer < id) :
    Recorded pers newStream (log ++ [.getOrOpenStream id
        ((m.openUpTo id).1.openStreams.drop m.openStreams.length) (m.openUpTo id).2])
      (m.openUpTo id).1 ∧
    Documented pers newStream log (.getOrOpenStream id
      ((m.openUpTo id).1.openStreams.drop m.openStreams.length) (m.openUpTo id).2) := by
  have hdead : id ∉ liveAfter log := fun hlive => h.mem_liveAfter.mp hlive hs
  have hge : m.nextRemoteStream ≤ id := by
    have := h.le_highest_iff (by omega) hpeer
    omega
  have hfresh : ∀ other, m.nextRemoteStream ≤ other → opensItself m.perspective other =
      opensItself m.perspective m.nextRemoteStream → m.streams other = none := by
    intro other hother hown
    rw [h.perspective, h.remote] at hown
    by_contra hlive
    have hopened := mem_everOpened_of_liveAfter log (h.mem_liveAfter.mpr hlive)
    have hpos := lt_nextRemoteStream m
    have := (h.peer other (by omega) hown).mp hopened
    omega
  obtain ⟨n, ho, hremote, hall⟩ := openRemoteStreams_opens id m.nextRemoteStream rfl hfresh
  have hopened : (m.openUpTo id).1.openStreams.drop m.openStreams.length =
      List.range' m.nextRemoteStream n 2 := by
    rw [openUpTo_fst, ho.openStreams, drop_left]
  rw [hopened]
  refine ⟨?_, fun hpos => ⟨fun hlive => absurd hlive hdead, fun _ s hok => Or.inr ?_⟩⟩
  · rw [openUpTo_fst]
    exact h.opensAll ho hremote _
  · unfold StreamsMap.openUpTo at hok
    split at hok
    · cases hok
    next reached hreached =>
      rw [hreached] at ho hall
      obtain rfl := hall rfl
      have hmod := opensItself_eq_iff.mp (hpeer.trans h.remote.symm)
      have hin : id ∈ List.range' m.nextRemoteStream ((id + 2 - m.nextRemoteStream) / 2) 2 := by
        rw [mem_range']
        exact ⟨(id - m.nextRemoteStream) / 2, by omega, by omega⟩
      obtain rfl : reached.streams id = s := Except.ok.inj hok
      refine ⟨?_, (h.notYetOpened_eq hge).symm, hin⟩
      rw [ho.streams, if_pos hin, h.made]

theorem Recorded.getOrOpenStream
    (hcond : SparesNext m (.getOrOpenStream id)) :
    Recorded pers newStream (log ++ [.getOrOpenStream id
        ((m.getOrOpenStream id).1.openStreams.drop m.openStreams.length) (m.getOrOpenStream id).2])
      (m.getOrOpenStream id).1 ∧
    Documented pers newStream log (.getOrOpenStream id
      ((m.getOrOpenStream id).1.openStreams.drop m.openStreams.length)
      (m.getOrOpenStream id).2) := by
  have hgot := getOrOpenStream_got m id
  have hsame : m.openStreams.drop m.openStreams.length = [] := drop_length
  generalize m.getOrOpenStream id = got at hgot ⊢
  cases hgot with
  | known s hs =>
    rw [hsame]
    have hlive : id ∈ liveAfter log := h.mem_liveAfter.mpr (by rw [hs]; exact Option.some_ne_none s)
    have hnew := h.streams id
    rw [if_pos hlive, hs] at hnew
    refine ⟨h.unchanged _, fun _ => ⟨fun _ => ⟨congrArg Except.ok hnew, rfl⟩, fun hdead => ?_⟩⟩
    exact absurd hlive hdead
  | ownClosed hs hown hle =>
    rw [hsame]
    refine ⟨h.unchanged _, h.closed (fun hpos => ?_) hs⟩
    have hne : id ≠ m.nextStream := fun he => hcond he hs
    exact h.own id hpos (h.perspective ▸ hown) (by omega)
  | refused err hs =>
    rw [hsame]
    exact ⟨h.unchanged _, h.error err hs⟩
  | peerClosed hs hpeer hle =>
    rw [hsame]
    refine ⟨h.unchanged _, h.closed (fun hpos => ?_) hs⟩
    rw [h.perspective] at hpeer
    exact (h.peer id hpos hpeer).mpr ((h.le_highest_iff hpos hpeer).mp hle)
  | opens hs hpeer hlt => exact h.openUpTo hs (h.perspective ▸ hpeer) hlt

end

theorem newStreamsMap_recorded (newStream : Nat → σ) (pers : Perspective)
    (params : ConnectionParameters) :
    Recorded pers newStream [] (newStreamsMap newStream pers params) := by
  refine ⟨rfl, rfl, ?_, ?_, ?_, fun id => rfl, fun id hid hown hlt => ?_, fun id hid hpeer => ?_⟩
  · cases pers <;> simp [newStreamsMap, opensItself]
  · cases pers <;> simp [newStreamsMap]
  · cases pers <;> simp [newStreamsMap, opensItself, StreamsMap.nextRemoteStream]
  · cases pers <;> simp [newStreamsMap, opensItself] at hown hlt <;> omega
  · have hnever : id ∉ everOpened ([] : List (Entry σ)) := not_mem_nil
    refine iff_of_false hnever ?_
    cases pers <;> simp [newStreamsMap, opensItself, StreamsMap.nextRemoteStream] at hpeer ⊢ <;>
      omega

theorem streamsStep_recorded {event : StreamsEvent} {out : List (Entry σ)}
    (h : Recorded pers newStream log m) (hdoc : Logged (Documented pers newStream) log)
    (hcond : SparesNext m event) (hs : streamsStep m event = some (next, out)) :
    Recorded pers newStream (log ++ out) next ∧
      Logged (Documented pers newStream) (log ++ out) := by
  unfold streamsStep at hs
  cases event with
  | openStream =>
    dsimp only at hs
    split at hs
    · cases hs
      rw [append_nil]
      exact ⟨h, hdoc⟩
    next reached ho =>
      cases hs
      exact ⟨h.openStream ho, hdoc.snoc trivial⟩
  | getOrOpenStream id =>
    cases hs
    obtain ⟨hrec, hnew⟩ := h.getOrOpenStream hcond
    exact ⟨hrec, hdoc.snoc hnew⟩
  | removeStream id =>
    dsimp only at hs
    split at hs
    · cases hs
      rw [append_nil]
      exact ⟨h, hdoc⟩
    next reached hr =>
      cases hs
      exact ⟨h.removeStream hr, hdoc.snoc trivial⟩
  | closeWithError err =>
    cases hs
    rw [append_nil]
    exact ⟨⟨h.perspective, h.made, h.next, h.bound, h.remote, h.streams, h.own, h.peer⟩, hdoc⟩

end Steps

-- In every run `GetOrOpenStream` does what its comment says, if it is not asked for the
-- stream that the endpoint opens next.
theorem getOrOpenStream_documented (newStream : Nat → σ) (pers : Perspective)
    (params : ConnectionParameters) (events : List StreamsEvent) (last : StreamsMap σ)
    (log : List (Entry σ))
    (hspares : Along streamsStep SparesNext (newStreamsMap newStream pers params) events)
    (hr : run streamsStep (newStreamsMap newStream pers params) events = some (last, log)) :
    Logged (Documented pers newStream) log :=
  (run_invariant (fun _ log m => Recorded pers newStream log m ∧
      Logged (Documented pers newStream) log)
    (fun _ _ _ _ _ _ hinv hcond hs => streamsStep_recorded hinv.1 hinv.2 hcond hs)
    [] [] _ last events log
    ⟨newStreamsMap_recorded newStream pers params, Logged.nil _⟩ hspares hr).2

def reopenEvents : List StreamsEvent := [.getOrOpenStream 5, .removeStream 3, .getOrOpenStream 3]

theorem getOrOpenStream_documented_example :
    (run streamsStep (newStreamsMap (id : Nat → Nat) .server newConnectionParametersManager)
        reopenEvents).map (fun reached => liveAfter reached.2) = some [1, 5] ∧
      ∀ last log, run streamsStep (newStreamsMap (id : Nat → Nat) .server
          newConnectionParametersManager) reopenEvents = some (last, log) →
        Logged (Documented .server id) log := by
  refine ⟨by decide +kernel, fun last log hr => ?_⟩
  refine getOrOpenStream_documented id .server newConnectionParametersManager reopenEvents
    last log ?_ hr
  decide +kernel

-- No stream was opened, but stream 2 is reported as closed.
theorem next_stream_reported_closed :
    ∃ last : StreamsMap Nat,
      run streamsStep (newStreamsMap id .server newConnectionParametersManager)
        [.getOrOpenStream 2] = some (last, [.getOrOpenStream 2 [] (.ok none)]) ∧
      ¬ Logged (Documented .server (id : Nat → Nat)) [.getOrOpenStream 2 [] (.ok none)] := by
  refine ⟨_, rfl, fun hlogged => ?_⟩
  have hdoc := hlogged [] (.getOrOpenStream 2 [] (.ok none)) [] rfl (by norm_num)
  rcases hdoc.2 List.not_mem_nil none rfl with ⟨-, -, hopened⟩ | ⟨hsome, -⟩
  · exact List.not_mem_nil hopened
  · cases hsome

end MpQuic.Streams

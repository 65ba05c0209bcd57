import MpQuic.Streams.RoundRobin

namespace MpQuic.Streams

open MpQuic.Library List Function Option
open MpQuic.Wire (Perspective)

variable {σ τ ε : Type*}

namespace StreamsMap

-- The number of keys of the map. The keys have 32 bits, and so has their number.
def numStreams (m : StreamsMap σ) : Nat :=
  ((List.range (2 ^ 32)).countP fun id => (m.streams id).isSome) % 2 ^ 32

def turnIndex (m : StreamsMap σ) (i : Nat) : Nat :=
  (i + m.roundRobinIndex) % 2 ^ 32 % m.numStreams

-- One turn of the loop of `RoundRobinIterate`. An index that is out of range is a panic.
def iterateAt (m : StreamsMap σ) (fn : StreamLambda σ τ ε) (it : Iteration τ ε) (i : Nat) :
    Option (Iteration τ ε) :=
  match it.flow with
  | .next =>
    match m.openStreams[m.turnIndex i]? with
    | none => none
    | some id =>
      if id = 1 ∨ id = 3 then some it
      else
        match m.streams id with
        | none => some { it with flow := .failed .mapAccess }
        | some s => some ((it.answered id (fn id s it.state)).movedOn m.numStreams)
  | _ => some it

def roundRobinIterateAt (m : StreamsMap σ) (fn : StreamLambda σ τ ε) (t : τ) :
    Option (Iteration τ ε) :=
  (List.range m.numStreams).foldlM (m.iterateAt fn)
    ([1, 3].foldl (m.iteratePrioritized fn) ⟨m.roundRobinIndex, t, [], .next⟩)

end StreamsMap

inductive MapCall (σ τ ε : Type*) where
  | call (event : StreamsEvent)
  | roundRobinIterate (fn : StreamLambda σ τ ε)

def mapStep (s : StreamsMap σ × τ) : MapCall σ τ ε → Option ((StreamsMap σ × τ) × List (Entry σ))
  | .call event => (streamsStep s.1 event).map fun reached => ((reached.1, s.2), reached.2)
  | .roundRobinIterate fn =>
    (s.1.roundRobinIterateAt fn s.2).map fun it =>
      (({ s.1 with roundRobinIndex := it.roundRobinIndex }, it.state), [])

structure StreamsMap.Consistent (m : StreamsMap σ) : Prop where
  listed : m.Listed
  index : m.roundRobinIndex ≤ m.openStreams.length
  inRange : ∀ i < m.numStreams, m.turnIndex i < m.openStreams.length
  incoming : m.numIncomingStreams = m.openStreams.countP fun id => id % 2 = 1
  outgoing : m.numOutgoingStreams = m.openStreams.countP fun id => id % 2 = 0

-- The step of `iterateStep` with the loop over indices.
def iterateAtStep (s : StreamsMap σ × τ) (fn : StreamLambda σ τ ε) :
    Option ((StreamsMap σ × τ) × List Nat) :=
  (s.1.roundRobinIterateAt fn s.2).map fun it =>
    (({ s.1 with roundRobinIndex := it.roundRobinIndex }, it.state), it.visited)

-- A stream that the endpoint opens does not have the ID of a live one. The IDs have 32 bits
-- and start again at the end of their range.
def FreshID (s : StreamsMap σ × τ) : MapCall σ τ ε → Prop
  | .call .openStream => s.1.closeErr = none →
      s.1.numOutgoingStreams < s.1.connectionParameters.getMaxOutgoingStreams →
        s.1.streams s.1.nextStream = none
  | _ => True

-- What the calls keep: the streams of the peer are those below the next one.
structure Represented (m : StreamsMap σ) : Prop where
  listed : m.Listed
  index : m.roundRobinIndex ≤ m.openStreams.length
  counted : ∀ own, m.counter own = m.live own
  next : opensItself m.perspective m.nextStream = true
  nextBound : m.nextStream < 2 ^ 32
  remote : opensItself m.perspective m.nextRemoteStream = false
  remoteBound : m.nextRemoteStream < 2 ^ 32
  bound : ∀ id ∈ m.openStreams, id < 2 ^ 32
  peer : ∀ id ∈ m.openStreams, opensItself m.perspective id = false → id < m.nextRemoteStream

section Keys

variable {m next : StreamsMap σ} {id : Nat}

theorem countP_range {l : List Nat} {n : Nat} {p : Nat → Bool} (hnodup : l.Nodup)
    (hmem : ∀ id, id ∈ l ↔ id < n ∧ p id = true) : (List.range n).countP p = l.length := by
  have hperm : ((List.range n).filter p).Perm l := by
    rw [perm_ext_iff_of_nodup (nodup_range.filter p) hnodup]
    intro id
    rw [mem_filter, mem_range, hmem]
  rw [countP_eq_length_filter, hperm.length_eq]

theorem numStreams_eq (hlisted : m.Listed) (hbound : ∀ id ∈ m.openStreams, id < 2 ^ 32) :
    m.numStreams = m.openStreams.length % 2 ^ 32 := by
  unfold StreamsMap.numStreams
  rw [countP_range hlisted.nodup fun id => ?_]
  rw [isSome_iff_ne_none, Ne, hlisted.known, not_not]
  exact ⟨fun hid => ⟨hbound id hid, hid⟩, And.right⟩

theorem numStreams_le (h : Represented m) : m.numStreams ≤ m.openStreams.length := by
  rw [numStreams_eq h.listed h.bound]
  exact Nat.mod_le _ _

theorem turnIndex_lt (h : Represented m) {i : Nat} (hi : i < m.numStreams) :
    m.turnIndex i < m.openStreams.length :=
  (Nat.mod_lt _ (Nat.zero_lt_of_lt hi)).trans_le (numStreams_le h)

theorem counter_eq_live_iff (m : StreamsMap σ) :
    (∀ own, m.counter own = m.live own) ↔
      (m.numIncomingStreams = m.openStreams.countP fun id => id % 2 = 1) ∧
        m.numOutgoingStreams = m.openStreams.countP fun id => id % 2 = 0 := by
  have hodd : ∀ id : Nat, (!decide (id % 2 = 0)) = decide (id % 2 = 1) := by
    intro id
    rcases Nat.mod_two_eq_zero_or_one id with h | h <;> simp [h]
  have heven : ∀ id : Nat, (!decide (id % 2 = 1)) = decide (id % 2 = 0) := by
    intro id
    rcases Nat.mod_two_eq_zero_or_one id with h | h <;> simp [h]
  cases hp : m.perspective with
  | server => simp [StreamsMap.counter, StreamsMap.live, hp, opensItself, hodd, and_comm]
  | client => simp [StreamsMap.counter, StreamsMap.live, hp, opensItself, heven, and_comm]

theorem Represented.consistent (h : Represented m) : m.Consistent := by
  obtain ⟨hincoming, houtgoing⟩ := (counter_eq_live_iff m).mp h.counted
  exact ⟨h.listed, h.index, fun i hi => turnIndex_lt h hi, hincoming, houtgoing⟩

end Keys

section Counting

variable {m next : StreamsMap σ} {id : Nat}

theorem live_lt (h : Represented m) (hid : id < 2 ^ 32) (hnew : id ∉ m.openStreams) :
    m.live (opensItself m.perspective id) + 1 < 2 ^ 32 := by
  obtain ⟨other, hother, hkind⟩ : ∃ other < 2 ^ 32,
      opensItself m.perspective other ≠ opensItself m.perspective id := by
    refine ⟨(id + 1) % 2, by omega, fun hsame => ?_⟩
    cases hp : m.perspective <;> simp [hp, opensItself] at hsame <;> omega
  let ids := m.openStreams.filter fun live =>
    opensItself m.perspective live == opensItself m.perspective id
  have hout : other ∉ id :: ids := by
    intro hmem
    rcases mem_cons.mp hmem with rfl | hmem
    · exact hkind rfl
    · exact hkind (beq_iff_eq.mp (mem_filter.mp hmem).2)
  have hnodup : (other :: id :: ids).Nodup :=
    nodup_cons.mpr ⟨hout, nodup_cons.mpr
      ⟨fun hmem => hnew (mem_of_mem_filter hmem), h.listed.nodup.filter _⟩⟩
  have hsubset : other :: id :: ids ⊆ List.range (2 ^ 32) := by
    intro live hlive
    rw [mem_range]
    rcases mem_cons.mp hlive with rfl | hlive
    · exact hother
    rcases mem_cons.mp hlive with rfl | hlive
    · exact hid
    · exact h.bound live (mem_of_mem_filter hlive)
  have hlength := (subperm_of_subset hnodup hsubset).length_le
  rw [length_cons, length_cons, length_range] at hlength
  unfold StreamsMap.live
  rw [countP_eq_length_filter]
  exact hlength

theorem live_adds {own : Bool} (ha : Adds m next id (opensItself m.perspective id))
    (hnew : m.streams id = none) :
    next.live own = if own = opensItself m.perspective id then m.live own + 1 else m.live own := by
  obtain ⟨hsome, -⟩ | ⟨-, hopen, -⟩ := ha.put
  · exact absurd hnew hsome
  · unfold StreamsMap.live
    rw [ha.perspective, hopen, countP_append]
    by_cases hown : own = opensItself m.perspective id
    · simp [hown]
    · simp [hown, Ne.symm hown]

theorem Represented.adds (h : Represented m) (ha : Adds m next id (opensItself m.perspective id))
    (hid : id < 2 ^ 32) (hnew : m.streams id = none) (hindex : next.roundRobinIndex = m.roundRobinIndex)
    (hnext : opensItself m.perspective next.nextStream = true) (hnextBound : next.nextStream < 2 ^ 32)
    (hremote : opensItself m.perspective next.nextRemoteStream = false)
    (hremoteBound : next.nextRemoteStream < 2 ^ 32)
    (hgrows : m.nextRemoteStream ≤ next.nextRemoteStream)
    (hpeer : opensItself m.perspective id = false → id < next.nextRemoteStream) :
    Represented next := by
  have hopen : next.openStreams = m.openStreams ++ [id] := by
    obtain ⟨hsome, -⟩ | ⟨-, hopen, -⟩ := ha.put
    · exact absurd hnew hsome
    · exact hopen
  refine ⟨h.listed.adds ha, ?_, fun own => ?_, ha.perspective ▸ hnext, hnextBound,
    ha.perspective ▸ hremote, hremoteBound, ?_, ?_⟩
  · rw [hindex, hopen, length_append]
    exact h.index.trans (Nat.le_add_right _ _)
  · rw [live_adds ha hnew]
    by_cases hown : own = opensItself m.perspective id
    · have hlt := live_lt h hid ((h.listed.known id).mp hnew)
      rw [if_pos hown, hown, ha.counter, h.counted]
      exact Nat.mod_eq_of_lt hlt
    · rw [if_neg hown, Bool.eq_not_of_ne hown, ha.other, h.counted]
  · intro live hlive
    rw [hopen, mem_append, mem_singleton] at hlive
    rcases hlive with hlive | rfl
    · exact h.bound live hlive
    · exact hid
  · intro live hlive hkind
    rw [ha.perspective] at hkind
    rw [hopen, mem_append, mem_singleton] at hlive
    rcases hlive with hlive | rfl
    · exact (h.peer live hlive hkind).trans_le hgrows
    · exact hpeer hkind

theorem Represented.removes (h : Represented m) (hr : Removes m next id)
    (hindex : next.roundRobinIndex ≤ next.openStreams.length) : Represented next := by
  have hin : id ∈ m.openStreams := by
    by_contra hout
    exact hr.known ((h.listed.known id).mpr hout)
  have hremote := nextRemoteStream_congr hr.perspective hr.highest
  have hkept : ∀ live ∈ next.openStreams, live ∈ m.openStreams := by
    intro live hlive
    rw [hr.openStreams] at hlive
    exact mem_of_mem_erase hlive
  refine ⟨h.listed.removes hr, hindex, fun own => ?_, ?_, ?_, ?_, ?_, fun live hlive =>
    h.bound live (hkept live hlive), fun live hlive hkind => ?_⟩
  · have hcounted := h.counted own
    unfold StreamsMap.live at hcounted ⊢
    rw [hr.counter, hr.perspective, hr.openStreams, countP_erase, hcounted]
    by_cases hown : opensItself m.perspective id = own
    · have hpos : 0 < m.openStreams.countP fun live => opensItself m.perspective live == own :=
        countP_pos_iff.mpr ⟨id, hin, beq_iff_eq.mpr hown⟩
      rw [if_pos hown, decrement, if_neg (by omega), if_pos ⟨hin, beq_iff_eq.mpr hown⟩]
    · rw [if_neg hown, if_neg fun hc => hown (beq_iff_eq.mp hc.2), Nat.sub_zero]
  · rw [hr.perspective, hr.nextStream]
    exact h.next
  · rw [hr.nextStream]
    exact h.nextBound
  · rw [hr.perspective, hremote]
    exact h.remote
  · rw [hremote]
    exact h.remoteBound
  · rw [hr.perspective] at hkind
    rw [hremote]
    exact h.peer live (hkept live hlive) hkind

theorem newStreamsMap_represented (newStream : Nat → σ) (pers : Perspective)
    (params : ConnectionParameters) : Represented (newStreamsMap newStream pers params) := by
  refine ⟨newStreamsMap_listed newStream pers params, Nat.le_refl _, fun own => ?_, ?_, ?_, ?_, ?_,
    nofun, nofun⟩
  · cases pers <;> cases own <;> rfl
  · cases pers <;> simp [newStreamsMap, opensItself]
  · cases pers <;> simp [newStreamsMap]
  · cases pers <;> simp [newStreamsMap, opensItself, StreamsMap.nextRemoteStream]
  · cases pers <;> simp [newStreamsMap, StreamsMap.nextRemoteStream]

end Counting

section Opening

variable {m next : StreamsMap σ} {id : Nat}

theorem openRemoteStream_index (ho : m.openRemoteStream id = .ok next) :
    next.roundRobinIndex = m.roundRobinIndex := by
  unfold StreamsMap.openRemoteStream at ho
  split_ifs at ho <;> cases ho <;> rw [putStream_frame]

theorem openStream_index (ho : m.openStream = .ok next) :
    next.roundRobinIndex = m.roundRobinIndex := by
  unfold StreamsMap.openStream StreamsMap.openStreamImpl at ho
  split at ho
  · cases ho
  · split_ifs at ho <;> cases ho <;> rw [putStream_frame]

theorem Represented.openRemoteStream (h : Represented m) (ho : m.openRemoteStream id = .ok next)
    (hid : m.nextRemoteStream = id) : Represented next := by
  obtain ⟨ha, hnext, -, -⟩ := openRemoteStream_adds ho
  have hkind : opensItself m.perspective id = false := hid ▸ h.remote
  have hlt : id < 2 ^ 32 := hid ▸ h.remoteBound
  have hremote := openRemoteStream_next ho hid
  have hnew : m.streams id = none := by
    rw [h.listed.known]
    intro hmem
    have hpeer := h.peer id hmem hkind
    omega
  have hlast : id + 2 < 2 ^ 32 := by
    by_cases hhighest : m.highestStreamOpenedByPeer + 2 = id
    · exact openRemoteStream_lt ho hlt hhighest
    · unfold StreamsMap.nextRemoteStream at hid
      split_ifs at hid <;> omega
  refine h.adds (hkind.symm ▸ ha) hlt hnew (openRemoteStream_index ho) ?_ ?_ ?_ ?_ ?_ ?_
  · rw [hnext]
    exact h.next
  · rw [hnext]
    exact h.nextBound
  · rw [hremote, opensItself_add_two]
    exact hkind
  · rw [hremote]
    exact hlast
  · omega
  · intro _
    omega

theorem openRemoteStreams_represented (sid : Nat) (h : Represented m)
    (hsid : m.nextRemoteStream = sid) : Represented (StreamsMap.openRemoteStreams id m sid).1 := by
  fun_induction StreamsMap.openRemoteStreams id m sid with
  | case1 m sid hle err ho => exact h
  | case2 m sid hle next ho ih =>
    exact ih (h.openRemoteStream ho hsid) (openRemoteStream_next ho hsid)
  | case3 m sid hle => exact h

theorem Represented.getOrOpenStream (h : Represented m) (id : Nat) :
    Represented (m.getOrOpenStream id).1 := by
  have hgot := getOrOpenStream_got m id
  generalize m.getOrOpenStream id = got at hgot ⊢
  cases hgot with
  | known s hs => exact h
  | ownClosed hs hown hle => exact h
  | refused err hs => exact h
  | peerClosed hs hpeer hle => exact h
  | opens hs hpeer hlt =>
    rw [openUpTo_fst]
    exact openRemoteStreams_represented _ h rfl

theorem Represented.openStream (h : Represented m) (ho : m.openStream = .ok next)
    (hfresh : m.streams m.nextStream = none) : Represented next := by
  obtain ⟨ha, hnext, hhighest, -⟩ := openStream_adds ho
  have hremote := nextRemoteStream_congr ha.perspective hhighest
  refine h.adds (h.next.symm ▸ ha) h.nextBound hfresh (openStream_index ho) ?_ ?_ ?_ ?_ ?_ ?_
  · rw [hnext, opensItself_add_two_mod]
    exact h.next
  · rw [hnext]
    exact Nat.mod_lt _ (by norm_num)
  · rw [hremote]
    exact h.remote
  · rw [hremote]
    exact h.remoteBound
  · exact hremote.ge
  · intro hkind
    rw [h.next] at hkind
    cases hkind

theorem not_consistent_of_reopened (h : Represented m) (ho : m.openStream = .ok next)
    (hlive : m.streams m.nextStream ≠ none) : ¬next.Consistent := by
  intro hnext
  obtain ⟨ha, -⟩ := openStream_adds ho
  have hopen : next.openStreams = m.openStreams := by
    obtain ⟨-, -, hopen⟩ | ⟨hnone, -⟩ := ha.put
    · exact hopen
    · exact absurd hnone hlive
  have hcounted := (counter_eq_live_iff next).mpr ⟨hnext.incoming, hnext.outgoing⟩ true
  rw [ha.counter, h.counted, live_of_eq ha.perspective hopen] at hcounted
  unfold increment at hcounted
  omega

theorem removeStream_index (h : Represented m) (hr : m.removeStream id = .ok next) :
    next.roundRobinIndex ≤ next.openStreams.length := by
  have hremoves := removeStream_removes hr
  have hin : id ∈ m.openStreams := by
    by_contra hout
    exact hremoves.known ((h.listed.known id).mpr hout)
  have hplace := idxOf_lt_length_of_mem hin
  have hindex := h.index
  have hmoved : next.roundRobinIndex =
      if id ∈ m.openStreams ∧ m.openStreams.idxOf id < m.roundRobinIndex then m.roundRobinIndex - 1
      else m.roundRobinIndex := by
    unfold StreamsMap.removeStream at hr
    split at hr
    · cases hr
    · cases hr
      split_ifs <;> rfl
  rw [hremoves.openStreams, length_erase_of_mem hin, hmoved]
  split_ifs with hbefore
  · omega
  · have hafter : ¬m.openStreams.idxOf id < m.roundRobinIndex := fun hlt => hbefore ⟨hin, hlt⟩
    omega

end Opening

section Iterating

variable {m : StreamsMap σ} (fn : StreamLambda σ τ ε)

theorem answered_index (it : Iteration τ ε) (id : Nat) (answer : Except ε Bool × τ) :
    (it.answered id answer).roundRobinIndex = it.roundRobinIndex := rfl

theorem iteratePrioritized_index (it : Iteration τ ε) (id : Nat) :
    (m.iteratePrioritized fn it id).roundRobinIndex = it.roundRobinIndex := by
  unfold StreamsMap.iteratePrioritized
  split
  · split
    · rfl
    · exact answered_index _ _ _
  · rfl

theorem iterateAt_index (h : Represented m) {it : Iteration τ ε} {i : Nat} (hi : i < m.numStreams)
    (hindex : it.roundRobinIndex ≤ m.openStreams.length) :
    ∃ next, m.iterateAt fn it i = some next ∧ next.roundRobinIndex ≤ m.openStreams.length := by
  have hplace := turnIndex_lt h hi
  unfold StreamsMap.iterateAt
  split
  · rw [List.getElem?_eq_getElem hplace]
    dsimp only
    split
    · exact ⟨it, rfl, hindex⟩
    · split
      · exact ⟨_, rfl, hindex⟩
      · refine ⟨_, rfl, ?_⟩
        unfold Iteration.movedOn
        split
        · exact hindex
        · exact ((Nat.mod_lt _ (Nat.zero_lt_of_lt hi)).trans_le (numStreams_le h)).le
  · exact ⟨it, rfl, hindex⟩

theorem foldlM_iterateAt_index (h : Represented m) (turns : List Nat)
    (hturns : ∀ i ∈ turns, i < m.numStreams) {it : Iteration τ ε}
    (hindex : it.roundRobinIndex ≤ m.openStreams.length) :
    ∃ last, turns.foldlM (m.iterateAt fn) it = some last ∧
      last.roundRobinIndex ≤ m.openStreams.length := by
  induction turns generalizing it with
  | nil => exact ⟨it, rfl, hindex⟩
  | cons i rest ih =>
    obtain ⟨next, hnext, hkept⟩ := iterateAt_index fn h (hturns i mem_cons_self) hindex
    obtain ⟨last, hlast, hfinal⟩ :=
      ih (fun other hother => hturns other (mem_cons_of_mem _ hother)) hkept
    refine ⟨last, ?_, hfinal⟩
    rw [foldlM_cons, hnext]
    exact hlast

theorem roundRobinIterateAt_index (h : Represented m) (t : τ) :
    ∃ it, m.roundRobinIterateAt fn t = some it ∧ it.roundRobinIndex ≤ m.openStreams.length := by
  refine foldlM_iterateAt_index fn h _ (fun i hi => mem_range.mp hi) ?_
  rw [foldl_cons, foldl_cons, foldl_nil, iteratePrioritized_index,
    iteratePrioritized_index]
  exact h.index

theorem iterateAt_eq (it : Iteration τ ε) {i : Nat} (hi : m.turnIndex i < m.openStreams.length)
    (hnum : m.numStreams = m.openStreams.length) :
    m.iterateAt fn it i = some (m.iterateInTurn fn it (m.openStreams.getD (m.turnIndex i) 0)) := by
  unfold StreamsMap.iterateAt StreamsMap.iterateInTurn
  rw [List.getElem?_eq_getElem hi, getD_eq_getElem _ _ hi, hnum]
  cases it.flow with
  | next =>
    dsimp only
    split
    · rfl
    · cases m.streams m.openStreams[m.turnIndex i] <;> rfl
  | done => rfl
  | failed err => rfl

theorem roundRobinIterateAt_eq (h : Represented m) (hlength : m.openStreams.length < 2 ^ 31)
    (t : τ) : m.roundRobinIterateAt fn t = some (m.roundRobinIterate fn t) := by
  have hnum : m.numStreams = m.openStreams.length := by
    rw [numStreams_eq h.listed h.bound, Nat.mod_eq_of_lt (by omega)]
  have hindex := h.index
  have hring : m.openStreams.rotate m.roundRobinIndex =
      (List.range m.numStreams).map fun i => m.openStreams.getD (m.turnIndex i) 0 := by
    refine ext_getElem (by rw [length_rotate, length_map, length_range, hnum])
      fun i hi _ => ?_
    rw [length_rotate] at hi
    rw [getElem_rotate, getElem_map, getElem_range]
    unfold StreamsMap.turnIndex
    rw [Nat.mod_eq_of_lt (b := 2 ^ 32) (by omega), hnum, getD_eq_getElem]
  have hturn : ∀ i ∈ List.range m.numStreams, ∀ it, m.iterateAt fn it i =
      some (m.iterateInTurn fn it (m.openStreams.getD (m.turnIndex i) 0)) :=
    fun i hi it => iterateAt_eq fn it (turnIndex_lt h (mem_range.mp hi)) hnum
  unfold StreamsMap.roundRobinIterateAt StreamsMap.roundRobinIterate
  rw [hring, foldl_map]
  generalize [1, 3].foldl (m.iteratePrioritized fn) ⟨m.roundRobinIndex, t, [], .next⟩ = it
  generalize List.range m.numStreams = turns at hturn
  induction turns generalizing it with
  | nil => rfl
  | cons i rest ih =>
    rw [foldlM_cons, foldl_cons, hturn i mem_cons_self]
    exact ih _ (fun other hother => hturn other (mem_cons_of_mem _ hother))

theorem Represented.moved (h : Represented m) {index : Nat} (hindex : index ≤ m.openStreams.length) :
    Represented { m with roundRobinIndex := index } :=
  ⟨⟨h.listed.nodup, h.listed.known⟩, hindex, h.counted, h.next, h.nextBound, h.remote,
    h.remoteBound, h.bound, h.peer⟩

theorem run_iterateAtStep (h : Represented m) (hsmall : m.openStreams.length < 2 ^ 31)
    (calls : List (StreamLambda σ τ ε)) (t : τ) :
    run iterateAtStep (m, t) calls = run iterateStep (m, t) calls := by
  induction calls generalizing m t with
  | nil => rw [run_nil, run_nil]
  | cons fn rest ih =>
    have heq := roundRobinIterateAt_eq fn h hsmall t
    obtain ⟨it, hit, hindex⟩ := roundRobinIterateAt_index fn h t
    obtain rfl : m.roundRobinIterate fn t = it := Option.some.inj (heq.symm.trans hit)
    have hstep : iterateAtStep (m, t) fn = iterateStep (m, t) fn := by
      unfold iterateAtStep
      rw [heq]
      rfl
    have hnext : iterateStep (m, t) fn = some _ := rfl
    rw [run_cons rest (hstep.trans hnext), run_cons rest hnext, ih (h.moved hindex) hsmall _]

-- No stream is starved by the loop over indices either.
theorem index_loop_visits {calls : List (StreamLambda σ τ ε)} (h : Represented m)
    (hsmall : m.openStreams.length < 2 ^ 31) (hindex : m.roundRobinIndex < m.openStreams.length)
    (hcalls : ∀ fn ∈ calls, Willing fn) (hlength : calls.length = m.openStreams.length) (t : τ) :
    ∃ last visited, run iterateAtStep (m, t) calls = some (last, visited) ∧
      m.openStreams.filter isData ⊆ visited := by
  rw [run_iterateAtStep h hsmall]
  exact calls_visit hcalls h.listed hindex hlength t

end Iterating

section Runs

variable {s : StreamsMap σ × τ} {call : MapCall σ τ ε}

theorem mapStep_represented (h : Represented s.1) (hfresh : FreshID s call) :
    ∃ next out, mapStep s call = some (next, out) ∧ Represented next.1 := by
  cases call with
  | roundRobinIterate fn =>
    obtain ⟨it, hit, hindex⟩ := roundRobinIterateAt_index fn h s.2
    refine ⟨({ s.1 with roundRobinIndex := it.roundRobinIndex }, it.state), [], ?_, ?_⟩
    · simp only [mapStep, hit, map_some]
    · exact h.moved hindex
  | call event =>
    cases event with
    | openStream =>
      cases ho : s.1.openStream with
      | error err => exact ⟨s, [], by simp only [mapStep, streamsStep, ho, map_some], h⟩
      | ok next =>
        refine ⟨(next, s.2), _, by simp only [mapStep, streamsStep, ho, map_some]; rfl, ?_⟩
        refine h.openStream ho (hfresh ?_ (openStream_adds ho).2.2.2)
        unfold StreamsMap.openStream at ho
        split at ho
        · cases ho
        · assumption
    | getOrOpenStream id =>
      exact ⟨((s.1.getOrOpenStream id).1, s.2), _, rfl, h.getOrOpenStream id⟩
    | removeStream id =>
      cases hr : s.1.removeStream id with
      | error err => exact ⟨s, [], by simp only [mapStep, streamsStep, hr, map_some], h⟩
      | ok next =>
        refine ⟨(next, s.2), _, by simp only [mapStep, streamsStep, hr, map_some]; rfl, ?_⟩
        exact h.removes (removeStream_removes hr) (removeStream_index h hr)
    | closeWithError err =>
      exact ⟨(s.1.closeWithError err, s.2), [], rfl, ⟨h.listed.nodup, h.listed.known⟩, h.index,
        h.counted, h.next, h.nextBound, h.remote, h.remoteBound, h.bound, h.peer⟩

theorem freshID_of_consistent {next : StreamsMap σ × τ} {out : List (Entry σ)}
    (h : Represented s.1) (hs : mapStep s call = some (next, out)) (hnext : next.1.Consistent) :
    FreshID s call := by
  cases call with
  | roundRobinIterate fn => trivial
  | call event =>
    cases event with
    | openStream =>
      intro hclosed hroom
      by_contra hlive
      have ho : ∃ opened, s.1.openStream = .ok opened := by
        unfold StreamsMap.openStream StreamsMap.openStreamImpl
        rw [hclosed]
        dsimp only
        rw [if_neg (Nat.not_le_of_lt hroom)]
        exact ⟨_, rfl⟩
      obtain ⟨opened, ho⟩ := ho
      simp only [mapStep, streamsStep, ho, map_some] at hs
      cases hs
      exact not_consistent_of_reopened h ho hlive hnext
    | _ => trivial

end Runs

-- In a run on either side every part ends without a panic and with a consistent
-- representation, exactly if no stream is opened with the ID of a live one.
theorem representation_consistent_iff (newStream : Nat → σ) (pers : Perspective)
    (params : ConnectionParameters) (t : τ) (calls : List (MapCall σ τ ε)) :
    (∀ first second, calls = first ++ second → ∃ last log,
      run mapStep (newStreamsMap newStream pers params, t) first = some (last, log) ∧
        last.1.Consistent) ↔
      Along mapStep FreshID (newStreamsMap newStream pers params, t) calls := by
  exact run_reaches_iff (fun s : StreamsMap σ × τ => Represented s.1) (fun s => s.1.Consistent)
    (fun _ hrep => hrep.consistent) (fun _ _ hrep hfresh => mapStep_represented hrep hfresh)
    (fun _ _ _ _ hrep hs hafter => freshID_of_consistent hrep hs hafter) calls
    (newStreamsMap_represented newStream pers params)

def opener (nextStream : Nat) : StreamsMap Nat :=
  { newStreamsMap id .server newConnectionParametersManager with
    streams := Function.update (fun _ => none) 2 (some 2)
    openStreams := [2]
    nextStream := nextStream
    numOutgoingStreams := 1 }

def openAndRemove (turn : Nat) : List (MapCall Nat Unit Unit) :=
  [.call .openStream, .call (.removeStream ((4 + 2 * turn) % 2 ^ 32))]

theorem opener_streams {next : Nat} (hnext : next ≠ 2) : (opener next).streams next = none := by
  simp only [opener, update_of_ne hnext]

theorem openStream_opener {next : Nat} (hnext : next ≠ 2) :
    (opener next).openStream = .ok
      { opener ((next + 2) % 2 ^ 32) with
        streams := update (opener next).streams next (some next)
        openStreams := [2, next]
        numOutgoingStreams := 2 } := by
  have hroom : ¬1 ≥ newConnectionParametersManager.getMaxOutgoingStreams := by decide
  have hnone := opener_streams hnext
  simp only [opener, newStreamsMap] at hnone
  simp only [opener, newStreamsMap, StreamsMap.openStream, StreamsMap.openStreamImpl,
    StreamsMap.putStream, hroom, hnone, ↓reduceIte]
  rfl

theorem run_openAndRemove {turn : Nat} (hturn : turn < 2 ^ 31 - 1) :
    ∃ log, run mapStep (opener ((4 + 2 * turn) % 2 ^ 32), ()) (openAndRemove turn) =
      some ((opener ((4 + 2 * (turn + 1)) % 2 ^ 32), ()), log) := by
  have hne : (4 + 2 * turn) % 2 ^ 32 ≠ 2 := by omega
  have heven : (4 + 2 * turn) % 2 ^ 32 % 2 = 0 := by omega
  have hnext : ((4 + 2 * turn) % 2 ^ 32 + 2) % 2 ^ 32 = (4 + 2 * (turn + 1)) % 2 ^ 32 := by omega
  unfold openAndRemove
  rw [← hnext]
  generalize (4 + 2 * turn) % 2 ^ 32 = next at hne heven
  have hback : update (update (opener next).streams next (some next)) next none =
      (opener next).streams := by
    rw [update_idem, ← opener_streams hne, update_eq_self]
  have herase : [2, next].erase next = [2] := by simp [Ne.symm hne]
  have hindex : ¬(next ∈ [2, next] ∧
      [2, next].idxOf next < (opener ((next + 2) % 2 ^ 32)).roundRobinIndex) :=
    fun h => Nat.not_lt_zero _ h.2
  refine ⟨[.openStream next, .removeStream next], ?_⟩
  simp only [run, mapStep, streamsStep, openStream_opener hne, map_some,
    StreamsMap.removeStream, update_self, heven, hback, herase, hindex, ↓reduceIte]
  rfl

-- The IDs of the server start again, and its counter goes up for a stream that is already
-- there.
theorem counter_drifts_after_wrap :
    ∃ (calls : List (MapCall Nat Unit Unit)) (last : StreamsMap Nat × Unit) (log : List (Entry Nat)),
      run mapStep (newStreamsMap id .server newConnectionParametersManager, ()) calls =
        some (last, log) ∧
      last.1.openStreams = [2] ∧ last.1.numOutgoingStreams = 2 := by
  have hturns : ∀ turns ≤ 2 ^ 31 - 1, ∃ log,
      run mapStep (opener 4, ()) ((List.range turns).flatMap openAndRemove) =
        some ((opener ((4 + 2 * turns) % 2 ^ 32), ()), log) := by
    intro turns
    induction turns with
    | zero => exact fun _ => ⟨[], rfl⟩
    | succ turns ih =>
      intro hle
      obtain ⟨log, hr⟩ := ih (by omega)
      obtain ⟨later, hturn⟩ := run_openAndRemove (show turns < 2 ^ 31 - 1 by omega)
      refine ⟨log ++ later, ?_⟩
      rw [List.range_succ, List.flatMap_append, List.flatMap_singleton, run_append _ hr, hturn]
      rfl
  obtain ⟨log, hr⟩ := hturns (2 ^ 31 - 1) (Nat.le_refl _)
  have hwrap : (4 + 2 * (2 ^ 31 - 1)) % 2 ^ 32 = 2 := by norm_num
  have hfirst : mapStep (newStreamsMap id .server newConnectionParametersManager, ())
      (.call .openStream : MapCall Nat Unit Unit) = some ((opener 4, ()), [.openStream 2]) := rfl
  have hlast : mapStep (opener 2, ()) (.call .openStream : MapCall Nat Unit Unit) =
      some (({ opener 4 with numOutgoingStreams := 2 }, ()), [.openStream 2]) := rfl
  rw [hwrap] at hr
  refine ⟨.call .openStream :: ((List.range (2 ^ 31 - 1)).flatMap openAndRemove ++
    [.call .openStream]), ({ opener 4 with numOutgoingStreams := 2 }, ()),
    [.openStream 2] ++ (log ++ [.openStream 2]), ?_, rfl, rfl⟩
  rw [run_cons _ hfirst, run_snoc hr hlast]
  rfl

end MpQuic.Streams

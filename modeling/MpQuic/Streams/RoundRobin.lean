import MpQuic.Streams.Limits

namespace MpQuic.Streams

open MpQuic.Library List

variable {σ τ ε : Type*}

-- A function that is called on the open streams and says whether to go on. What it does to
-- the streams is part of the state `τ`.
abbrev StreamLambda (σ τ ε : Type*) := Nat → σ → τ → Except ε Bool × τ

inductive IterateError (ε : Type*) where
  | mapAccess
  | lambda (err : ε)

inductive Flow (ε : Type*) where
  | next
  | done
  | failed (err : IterateError ε)

structure Iteration (τ ε : Type*) where
  roundRobinIndex : Nat
  state : τ
  visited : List Nat
  flow : Flow ε

namespace Iteration

def answered (it : Iteration τ ε) (id : Nat) (answer : Except ε Bool × τ) : Iteration τ ε :=
  { it with
    state := answer.2
    visited := it.visited ++ [id]
    flow :=
      match answer.1 with
      | .error err => .failed (.lambda err)
      | .ok cont => if cont then .next else .done }

def movedOn (it : Iteration τ ε) (numStreams : Nat) : Iteration τ ε :=
  match it.flow with
  | .failed _ => it
  | _ => { it with roundRobinIndex := (it.roundRobinIndex + 1) % numStreams }

end Iteration

namespace StreamsMap

-- The streams 1 and 3 are passed over if they are not in the map.
def iteratePrioritized (m : StreamsMap σ) (fn : StreamLambda σ τ ε) (it : Iteration τ ε) (id : Nat) :
    Iteration τ ε :=
  match it.flow with
  | .next =>
    match m.streams id with
    | none => it
    | some s => it.answered id (fn id s it.state)
  | _ => it

def iterateInTurn (m : StreamsMap σ) (fn : StreamLambda σ τ ε) (it : Iteration τ ε) (id : Nat) :
    Iteration τ ε :=
  match it.flow with
  | .next =>
    if id = 1 ∨ id = 3 then it
    else
      match m.streams id with
      | none => { it with flow := .failed .mapAccess }
      | some s => (it.answered id (fn id s it.state)).movedOn m.openStreams.length
  | _ => it

-- The number of streams is the length of their list. The sum of two indices stays far
-- below the end of its 32 bits.
def roundRobinIterate (m : StreamsMap σ) (fn : StreamLambda σ τ ε) (t : τ) : Iteration τ ε :=
  (m.openStreams.rotate m.roundRobinIndex).foldl (m.iterateInTurn fn)
    ([1, 3].foldl (m.iteratePrioritized fn) ⟨m.roundRobinIndex, t, [], .next⟩)

end StreamsMap

def iterateStep (s : StreamsMap σ × τ) (fn : StreamLambda σ τ ε) :
    Option ((StreamsMap σ × τ) × List Nat) :=
  let it := s.1.roundRobinIterate fn s.2
  some (({ s.1 with roundRobinIndex := it.roundRobinIndex }, it.state), it.visited)

-- A function that does not fail and goes on after the streams 1 and 3.
def Willing (fn : StreamLambda σ τ ε) : Prop :=
  ∀ id s t, ∃ cont, (fn id s t).1 = .ok cont ∧ (id = 1 ∨ id = 3 → cont = true)

-- The list of the open streams has the keys of the map, each of them once.
structure StreamsMap.Listed (m : StreamsMap σ) : Prop where
  nodup : m.openStreams.Nodup
  known : ∀ id, m.streams id = none ↔ id ∉ m.openStreams

def isData (id : Nat) : Bool :=
  id ≠ 1 && id ≠ 3

section Lists

variable {m next : StreamsMap σ} {id : Nat}

theorem newStreamsMap_listed (newStream : Nat → σ) (pers : MpQuic.Wire.Perspective)
    (params : ConnectionParameters) : (newStreamsMap newStream pers params).Listed :=
  ⟨nodup_nil, fun _ => ⟨fun _ => not_mem_nil, fun _ => rfl⟩⟩

theorem StreamsMap.Listed.adds (h : m.Listed) {own : Bool} (ha : Adds m next id own) :
    next.Listed := by
  rcases ha.put with ⟨-, hstreams, hopen⟩ | ⟨hnone, hopen, hstreams⟩
  · refine ⟨?_, fun other => ?_⟩
    · rw [hopen]
      exact h.nodup
    · rw [hstreams, hopen]
      exact h.known other
  · refine ⟨?_, fun other => ?_⟩
    · have hnodup := h.nodup.concat ((h.known id).mp hnone)
      rwa [concat_eq_append, ← hopen] at hnodup
    · rw [hstreams, hopen]
      by_cases hsame : other = id
      · simp [hsame]
      · simp [hsame, h.known]

theorem StreamsMap.Listed.removes (h : m.Listed) (hr : Removes m next id) : next.Listed := by
  refine ⟨?_, fun other => ?_⟩
  · rw [hr.openStreams]
    exact h.nodup.erase id
  · rw [hr.streams, hr.openStreams, h.nodup.mem_erase_iff]
    by_cases hsame : other = id
    · simp [hsame]
    · simp [hsame, h.known]

theorem StreamsMap.Listed.isSome (h : m.Listed) (hid : id ∈ m.openStreams) : (m.streams id).isSome := by
  rw [Option.isSome_iff_ne_none]
  exact fun hnone => (h.known id).mp hnone hid

end Lists

section Call

variable {m : StreamsMap σ} {fn : StreamLambda σ τ ε} {it : Iteration τ ε}

theorem Willing.answered (hfn : Willing fn) (it : Iteration τ ε) (id : Nat) (s : σ) :
    ∃ cont, (id = 1 ∨ id = 3 → cont = true) ∧
      it.answered id (fn id s it.state) =
        { it with
          state := (fn id s it.state).2
          visited := it.visited ++ [id]
          flow := if cont then .next else .done } := by
  obtain ⟨cont, hanswer, hcont⟩ := hfn id s it.state
  refine ⟨cont, hcont, ?_⟩
  unfold Iteration.answered
  rw [hanswer]

theorem StreamsMap.iteratePrioritized_keeps (m : StreamsMap σ) (hfn : Willing fn)
    (hnext : it.flow = .next) {id : Nat} (hid : id = 1 ∨ id = 3) :
    (m.iteratePrioritized fn it id).flow = .next ∧
      (m.iteratePrioritized fn it id).roundRobinIndex = it.roundRobinIndex := by
  unfold StreamsMap.iteratePrioritized
  rw [hnext]
  cases m.streams id with
  | none => exact ⟨hnext, rfl⟩
  | some s =>
    obtain ⟨cont, hcont, hanswered⟩ := hfn.answered it id s
    dsimp only
    rw [hanswered, hcont hid]
    exact ⟨rfl, rfl⟩

theorem foldl_iterateInTurn_done (hdone : it.flow = .done) (ids : List Nat) :
    ids.foldl (m.iterateInTurn fn) it = it := by
  induction ids with
  | nil => rfl
  | cons id ids ih =>
    have hkeeps : m.iterateInTurn fn it id = it := by
      unfold StreamsMap.iterateInTurn
      rw [hdone]
    rw [foldl_cons, hkeeps, ih]

theorem foldl_iterateInTurn (hfn : Willing fn) {ids : List Nat}
    (hlisted : ∀ id ∈ ids, (m.streams id).isSome) (hnext : it.flow = .next)
    (hindex : it.roundRobinIndex < m.openStreams.length) :
    ∃ turn, turn <+: ids.filter isData ∧ (ids.filter isData ≠ [] → turn ≠ []) ∧
      (ids.foldl (m.iterateInTurn fn) it).visited = it.visited ++ turn ∧
      (ids.foldl (m.iterateInTurn fn) it).roundRobinIndex =
        (it.roundRobinIndex + turn.length) % m.openStreams.length := by
  induction ids generalizing it with
  | nil =>
    refine ⟨[], prefix_rfl, fun h => h, (append_nil _).symm, ?_⟩
    exact (Nat.mod_eq_of_lt hindex).symm
  | cons id ids ih =>
    have hrest : ∀ other ∈ ids, (m.streams other).isSome :=
      fun other hother => hlisted other (mem_cons_of_mem _ hother)
    rw [foldl_cons]
    by_cases hspecial : id = 1 ∨ id = 3
    · have hkeeps : m.iterateInTurn fn it id = it := by
        unfold StreamsMap.iterateInTurn
        rw [hnext]
        exact if_pos hspecial
      have hdata : isData id = false := by
        rcases hspecial with rfl | rfl <;> rfl
      rw [hkeeps, filter_cons_of_neg (by simp [hdata])]
      exact ih hrest hnext hindex
    · obtain ⟨s, hs⟩ := Option.isSome_iff_exists.mp (hlisted id mem_cons_self)
      obtain ⟨cont, -, hanswered⟩ := hfn.answered it id s
      have hvisit : m.iterateInTurn fn it id =
          { it with
            roundRobinIndex := (it.roundRobinIndex + 1) % m.openStreams.length
            state := (fn id s it.state).2
            visited := it.visited ++ [id]
            flow := if cont then .next else .done } := by
        unfold StreamsMap.iterateInTurn
        rw [hnext]
        dsimp only
        rw [if_neg hspecial, hs]
        dsimp only
        rw [hanswered]
        cases cont <;> rfl
      have hdata : isData id = true := by
        simpa [isData, not_or] using hspecial
      rw [hvisit, filter_cons_of_pos hdata]
      cases cont with
      | false =>
        rw [foldl_iterateInTurn_done rfl]
        exact ⟨[id], by simp, fun _ => cons_ne_nil _ _, rfl, rfl⟩
      | true =>
        have hlength : 0 < m.openStreams.length := Nat.zero_lt_of_lt hindex
        obtain ⟨turn, hpart, -, hvisited, hmoved⟩ :=
          @ih ⟨(it.roundRobinIndex + 1) % m.openStreams.length, (fn id s it.state).2,
            it.visited ++ [id], .next⟩ hrest rfl (Nat.mod_lt _ hlength)
        refine ⟨id :: turn, (prefix_cons_inj id).mpr hpart, fun _ => cons_ne_nil _ _,
          ?_, ?_⟩
        · exact hvisited.trans (append_assoc _ [id] turn)
        · refine hmoved.trans ?_
          rw [Nat.mod_add_mod, length_cons, Nat.add_assoc, Nat.add_comm 1]

theorem prioritized_keeps (m : StreamsMap σ) (hfn : Willing fn) (hnext : it.flow = .next) :
    ([1, 3].foldl (m.iteratePrioritized fn) it).flow = .next ∧
      ([1, 3].foldl (m.iteratePrioritized fn) it).roundRobinIndex = it.roundRobinIndex := by
  obtain ⟨hone, hsame⟩ := m.iteratePrioritized_keeps hfn hnext (.inl rfl)
  obtain ⟨hthree, hkept⟩ := m.iteratePrioritized_keeps hfn hone (.inr rfl)
  exact ⟨hthree, hkept.trans hsame⟩

theorem roundRobinIterate_turn (hfn : Willing fn) (hlisted : m.Listed)
    (hindex : m.roundRobinIndex < m.openStreams.length) (t : τ) :
    ∃ turn, turn <+: (m.openStreams.rotate m.roundRobinIndex).filter isData ∧
      ((m.openStreams.rotate m.roundRobinIndex).filter isData ≠ [] → turn ≠ []) ∧
      turn ⊆ (m.roundRobinIterate fn t).visited ∧
      (m.roundRobinIterate fn t).roundRobinIndex =
        (m.roundRobinIndex + turn.length) % m.openStreams.length := by
  have hring : ∀ id ∈ m.openStreams.rotate m.roundRobinIndex, (m.streams id).isSome :=
    fun id hid => hlisted.isSome (mem_rotate.mp hid)
  unfold StreamsMap.roundRobinIterate
  generalize hit : [1, 3].foldl (m.iteratePrioritized fn) ⟨m.roundRobinIndex, t, [], .next⟩ = it
  obtain ⟨hnext, hstart⟩ : it.flow = .next ∧ it.roundRobinIndex = m.roundRobinIndex :=
    hit ▸ prioritized_keeps m hfn rfl
  rw [← hstart] at hindex
  obtain ⟨turn, hpart, hsome, hvisited, hmoved⟩ := foldl_iterateInTurn hfn hring hnext hindex
  refine ⟨turn, hpart, hsome, fun id hid => ?_, ?_⟩
  · rw [hvisited]
    exact mem_append_right _ hid
  · rw [hmoved, hstart]

end Call

section Turns

theorem mem_turn {α : Type*} {p : α → Bool} {l turn : List α} (hturn : turn <+: l.filter p) {j : Nat}
    (hj : j < turn.length) (hl : j < l.length) (hp : p (l.get ⟨j, hl⟩) = true) :
    l.get ⟨j, hl⟩ ∈ turn := by
  have hfirst : (l.take (j + 1)).filter p <+: l.filter p := ( take_prefix _ _).filter p
  have hlength : ((l.take (j + 1)).filter p).length ≤ turn.length :=
    (length_filter_le _ _).trans ((length_take_le _ _).trans hj)
  refine (prefix_of_prefix_length_le hfirst hturn hlength).subset (mem_filter.mpr ⟨?_, hp⟩)
  rw [mem_take_iff_getElem]
  exact ⟨j, by omega, rfl⟩

theorem calls_cover {m : StreamsMap σ} {calls : List (StreamLambda σ τ ε)}
    (hcalls : ∀ fn ∈ calls, Willing fn) (hlisted : m.Listed)
    (hindex : m.roundRobinIndex < m.openStreams.length) (t : τ) :
    ∃ last visited covered, run iterateStep (m, t) calls = some (last, visited) ∧
      ((∃ id ∈ m.openStreams, isData id = true) → calls.length ≤ covered) ∧
      ∀ j < covered, ∀ id, m.openStreams[(m.roundRobinIndex + j) % m.openStreams.length]? = some id →
        isData id = true → id ∈ visited := by
  induction calls generalizing m t with
  | nil => exact ⟨(m, t), [], 0, rfl, fun _ => Nat.le_refl _, nofun⟩
  | cons fn calls ih =>
    have hpositive : 0 < m.openStreams.length := Nat.zero_lt_of_lt hindex
    obtain ⟨turn, hpart, hsome, hvisited, hmoved⟩ :=
      roundRobinIterate_turn (hcalls fn mem_cons_self) hlisted hindex t
    have hnext : (m.roundRobinIterate fn t).roundRobinIndex < m.openStreams.length := by
      rw [hmoved]
      exact Nat.mod_lt _ hpositive
    obtain ⟨last, later, covered, hrun, hlength, hcover⟩ :=
      ih (m := { m with roundRobinIndex := (m.roundRobinIterate fn t).roundRobinIndex })
        (fun other hother => hcalls other (mem_cons_of_mem _ hother))
        ⟨hlisted.nodup, hlisted.known⟩ hnext (m.roundRobinIterate fn t).state
    refine ⟨last, (m.roundRobinIterate fn t).visited ++ later, turn.length + covered, ?_, ?_, ?_⟩
    · rw [run_cons calls (rfl : iterateStep (m, t) fn = some _), hrun]
      rfl
    · intro hdata
      have hfirst : 0 < turn.length := by
        obtain ⟨id, hid, hisdata⟩ := hdata
        have hmem : id ∈ (m.openStreams.rotate m.roundRobinIndex).filter isData :=
          mem_filter.mpr ⟨mem_rotate.mpr hid, hisdata⟩
        exact length_pos_of_ne_nil (hsome (ne_nil_of_mem hmem))
      have hrest := hlength hdata
      rw [length_cons]
      omega
    · intro j hj id hplace hisdata
      rcases Nat.lt_or_ge j turn.length with hfirst | hlater
      · have hring : j < (m.openStreams.rotate m.roundRobinIndex).length :=
          hfirst.trans_le (hpart.length_le.trans (length_filter_le _ _))
        have hget : (m.openStreams.rotate m.roundRobinIndex).get ⟨j, hring⟩ = id := by
          rw [get_eq_getElem, getElem_rotate]
          rw [Nat.add_comm m.roundRobinIndex] at hplace
          exact (List.getElem_of_getElem? hplace).2
        refine mem_append_left _ (hvisited ?_)
        rw [← hget] at hisdata ⊢
        exact mem_turn hpart hfirst hring hisdata
      · refine mem_append_right _ (hcover (j - turn.length) (by omega) id ?_ hisdata)
        dsimp only
        rw [hmoved, Nat.mod_add_mod, Nat.add_assoc, Nat.add_sub_cancel' hlater]
        exact hplace

theorem calls_visit {m : StreamsMap σ} {calls : List (StreamLambda σ τ ε)}
    (hcalls : ∀ fn ∈ calls, Willing fn) (hlisted : m.Listed)
    (hindex : m.roundRobinIndex < m.openStreams.length)
    (hlength : calls.length = m.openStreams.length) (t : τ) :
    ∃ last visited, run iterateStep (m, t) calls = some (last, visited) ∧
      m.openStreams.filter isData ⊆ visited := by
  obtain ⟨last, visited, covered, hrun, hcovered, hcover⟩ := calls_cover hcalls hlisted hindex t
  refine ⟨last, visited, hrun, fun id hid => ?_⟩
  obtain ⟨hid, hdata⟩ := mem_filter.mp hid
  have henough := hcovered ⟨id, hid, hdata⟩
  obtain ⟨place, hplace, rfl⟩ := List.mem_iff_getElem.mp hid
  -- How far the stream is from the index, around the ring.
  have hdistance : (m.roundRobinIndex + (place + m.openStreams.length - m.roundRobinIndex) %
      m.openStreams.length) % m.openStreams.length = place := by
    rw [Nat.add_mod_mod, Nat.add_sub_cancel' (by omega), Nat.add_mod_right, Nat.mod_eq_of_lt hplace]
  refine hcover ((place + m.openStreams.length - m.roundRobinIndex) % m.openStreams.length) ?_ _
    ?_ hdata
  · exact (Nat.mod_lt _ (Nat.zero_lt_of_lt hplace)).trans_le (hlength ▸ henough)
  · rw [hdistance]
    exact List.getElem?_eq_getElem hplace

end Turns

-- With n open streams, n calls visit every one of them other than 1 and 3.
theorem round_robin_starves_no_stream {m : StreamsMap σ} {calls : List (StreamLambda σ τ ε)}
    (hlisted : m.Listed) (hindex : m.roundRobinIndex < m.openStreams.length)
    (hcalls : ∀ fn ∈ calls, Willing fn) (hlength : calls.length = m.openStreams.length) (t : τ) :
    ∃ last visited, run iterateStep (m, t) calls = some (last, visited) ∧
      ∀ id ∈ m.openStreams, id ≠ 1 → id ≠ 3 → id ∈ visited := by
  obtain ⟨last, visited, hrun, hvisited⟩ := calls_visit hcalls hlisted hindex hlength t
  refine ⟨last, visited, hrun, fun id hid hone hthree => hvisited (mem_filter.mpr ⟨hid, ?_⟩)⟩
  simp [isData, hone, hthree]

def fourStreams : StreamsMap Unit :=
  { newStreamsMap (fun _ => ()) .server newConnectionParametersManager with
    streams := fun id => if id ∈ [1, 5, 3, 7] then some () else none
    openStreams := [1, 5, 3, 7]
    roundRobinIndex := 2 }

def oneAtATime : StreamLambda Unit Unit Unit :=
  fun id _ _ => (.ok (!isData id), ())

theorem round_robin_starves_no_stream_example :
    ∃ last visited,
      run iterateStep (fourStreams, ()) (List.replicate 4 oneAtATime) = some (last, visited) ∧
      ∀ id ∈ fourStreams.openStreams, id ≠ 1 → id ≠ 3 → id ∈ visited := by
  have hlisted : fourStreams.Listed := by
    refine ⟨by decide, fun id => ?_⟩
    show (if id ∈ [1, 5, 3, 7] then some () else none) = none ↔ id ∉ [1, 5, 3, 7]
    split_ifs with hmem <;> simp [hmem]
  refine round_robin_starves_no_stream hlisted (by decide) (fun fn hfn => ?_) (by decide) ()
  rw [List.eq_of_mem_replicate hfn]
  refine fun id s t => ⟨!isData id, rfl, fun hid => ?_⟩
  rcases hid with rfl | rfl <;> rfl

end MpQuic.Streams

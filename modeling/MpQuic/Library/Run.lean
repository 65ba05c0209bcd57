import Mathlib.Data.List.Basic

namespace MpQuic.Library

variable {σ ι ω : Type*}

-- A run feeds the events one by one and collects what the steps put out.
-- A step without a successor ends the run.
def run (step : σ → ι → Option (σ × List ω)) : σ → List ι → Option (σ × List ω)
  | state, [] => some (state, [])
  | state, event :: rest =>
    match step state event with
    | none => none
    | some (next, out) =>
      match run step next rest with
      | none => none
      | some (last, later) => some (last, out ++ later)

-- Every event meets `cond` in the state in which it occurs.
def Along (step : σ → ι → Option (σ × List ω)) (cond : σ → ι → Prop) : σ → List ι → Prop
  | _, [] => True
  | state, event :: rest =>
    cond state event ∧
      match step state event with
      | none => True
      | some (next, _) => Along step cond next rest

instance Along.decidable (step : σ → ι → Option (σ × List ω)) (cond : σ → ι → Prop)
    [∀ state event, Decidable (cond state event)] :
    (state : σ) → (events : List ι) → Decidable (Along step cond state events)
  | _, [] => isTrue trivial
  | state, event :: rest =>
    match h : step state event with
    | none => decidable_of_iff (cond state event) (by simp [Along, h])
    | some (next, _) =>
      have := Along.decidable step cond next rest
      decidable_of_iff (cond state event ∧ Along step cond next rest) (by simp [Along, h])

section Rules

variable {step : σ → ι → Option (σ × List ω)} {cond : σ → ι → Prop}

@[simp] theorem run_nil (state : σ) : run step state [] = some (state, []) := rfl

theorem run_cons {state next : σ} {event : ι} {out : List ω} (rest : List ι)
    (hs : step state event = some (next, out)) :
    run step state (event :: rest) =
      (run step next rest).map fun last => (last.1, out ++ last.2) := by
  simp only [run, hs]
  cases run step next rest <;> rfl

theorem run_cons_eq_some {state last : σ} {event : ι} {rest : List ι} {log : List ω}
    (hr : run step state (event :: rest) = some (last, log)) :
    ∃ next out later, step state event = some (next, out) ∧
      run step next rest = some (last, later) ∧ log = out ++ later := by
  cases hs : step state event with
  | none => simp [run, hs] at hr
  | some pair =>
    obtain ⟨next, out⟩ := pair
    rw [run_cons rest hs] at hr
    obtain ⟨⟨reached, later⟩, hl, he⟩ := Option.map_eq_some_iff.mp hr
    simp only [Prod.mk.injEq] at he
    exact ⟨next, out, later, rfl, by rw [hl, he.1], he.2.symm⟩

theorem run_append {state middle : σ} {first : List ι} {log : List ω} (second : List ι)
    (hr : run step state first = some (middle, log)) :
    run step state (first ++ second) =
      (run step middle second).map fun last => (last.1, log ++ last.2) := by
  induction first generalizing state log with
  | nil =>
    obtain ⟨rfl, rfl⟩ : state = middle ∧ [] = log := by simpa using hr
    cases h : run step state second <;> simp [h]
  | cons event rest ih =>
    obtain ⟨next, out, later, hs, hl, rfl⟩ := run_cons_eq_some hr
    rw [List.cons_append, run_cons _ hs, ih hl]
    cases run step middle second <;> simp

theorem Along.cons {state next : σ} {event : ι} {rest : List ι} {out : List ω}
    (ha : Along step cond state (event :: rest)) (hs : step state event = some (next, out)) :
    cond state event ∧ Along step cond next rest := by
  simpa only [Along, hs] using ha

theorem Along.strengthen {other : σ → ι → Prop} {state : σ} {events : List ι}
    (ha : Along step cond state events) (inv : σ → Prop)
    (hstep : ∀ state event, inv state → cond state event →
      other state event ∧ ∀ next out, step state event = some (next, out) → inv next)
    (hinv : inv state) : Along step other state events := by
  induction events generalizing state with
  | nil => trivial
  | cons event rest ih =>
    obtain ⟨hother, hnext⟩ := hstep state event hinv ha.1
    refine ⟨hother, ?_⟩
    cases hs : step state event with
    | none => trivial
    | some pair => exact ih (ha.cons hs).2 (hnext _ _ hs)

theorem Along.mono {other : σ → ι → Prop} {state : σ} {events : List ι}
    (ha : Along step cond state events) (himp : ∀ state event, cond state event → other state event) :
    Along step other state events :=
  ha.strengthen (fun _ => True)
    (fun state event _ hcond => ⟨himp state event hcond, fun _ _ _ => trivial⟩) trivial

theorem Along.and {other : σ → ι → Prop} {state : σ} {events : List ι}
    (ha : Along step cond state events) (hb : Along step other state events) :
    Along step (fun state event => cond state event ∧ other state event) state events := by
  induction events generalizing state with
  | nil => trivial
  | cons event rest ih =>
    refine ⟨⟨ha.1, hb.1⟩, ?_⟩
    have hleft := ha.2
    have hright := hb.2
    cases hs : step state event with
    | none => trivial
    | some pair =>
      simp only [hs] at hleft hright
      exact ih hleft hright

theorem Along.always (state : σ) (events : List ι) : Along step (fun _ _ => True) state events := by
  induction events generalizing state with
  | nil => trivial
  | cons event rest ih =>
    refine ⟨trivial, ?_⟩
    cases step state event with
    | none => trivial
    | some pair => exact ih pair.1

theorem Along.of_forall {valid : ι → Prop} {events : List ι} (h : ∀ event ∈ events, valid event)
    (state : σ) : Along step (fun _ event => valid event) state events := by
  induction events generalizing state with
  | nil => trivial
  | cons event rest ih =>
    refine ⟨h event List.mem_cons_self, ?_⟩
    cases step state event with
    | none => trivial
    | some pair => exact ih (fun other hother => h other (List.mem_cons_of_mem _ hother)) pair.1

theorem Along.append {state middle : σ} {first second : List ι} {log : List ω}
    (hr : run step state first = some (middle, log)) :
    Along step cond state (first ++ second) ↔
      Along step cond state first ∧ Along step cond middle second := by
  induction first generalizing state log with
  | nil =>
    obtain ⟨rfl, rfl⟩ : state = middle ∧ [] = log := by simpa using hr
    simp [Along]
  | cons event rest ih =>
    obtain ⟨next, out, later, hs, hl, rfl⟩ := run_cons_eq_some hr
    simp only [List.cons_append, Along, hs, ih hl, and_assoc]

theorem Along.left {state : σ} {first second : List ι}
    (ha : Along step cond state (first ++ second)) : Along step cond state first := by
  induction first generalizing state with
  | nil => trivial
  | cons event rest ih =>
    refine ⟨ha.1, ?_⟩
    have hrest := ha.2
    cases hs : step state event with
    | none => trivial
    | some pair =>
      simp only [hs] at hrest
      exact ih hrest

theorem run_snoc {state middle last : σ} {past : List ι} {event : ι} {log out : List ω}
    (hr : run step state past = some (middle, log)) (hs : step middle event = some (last, out)) :
    run step state (past ++ [event]) = some (last, log ++ out) := by
  rw [run_append _ hr, run_cons _ hs]
  simp

theorem Along.snoc {state middle : σ} {past : List ι} {event : ι} {log : List ω}
    (hr : run step state past = some (middle, log)) :
    Along step cond state (past ++ [event]) ↔ Along step cond state past ∧ cond middle event := by
  rw [Along.append hr]
  cases hs : step middle event <;> simp [Along, hs]

-- What one step keeps, a whole run keeps. The invariant may speak about the
-- events and the output so far, and the rule also shows that no step gets stuck.
theorem run_progress (inv : List ι → List ω → σ → Prop)
    (hstep : ∀ past log state event, inv past log state → cond state event →
      ∃ next out, step state event = some (next, out) ∧ inv (past ++ [event]) (log ++ out) next)
    (past : List ι) (log : List ω) (state : σ) (events : List ι)
    (hinv : inv past log state) (ha : Along step cond state events) :
    ∃ last out, run step state events = some (last, out) ∧
      inv (past ++ events) (log ++ out) last := by
  induction events generalizing past log state with
  | nil => exact ⟨state, [], rfl, by simpa using hinv⟩
  | cons event rest ih =>
    obtain ⟨next, out, hs, hn⟩ := hstep past log state event hinv ha.1
    obtain ⟨last, later, hr, hl⟩ := ih _ _ next hn (ha.cons hs).2
    refine ⟨last, out ++ later, ?_, by simpa using hl⟩
    rw [run_cons rest hs, hr]
    rfl

theorem run_invariant (inv : List ι → List ω → σ → Prop)
    (hstep : ∀ past log state event next out, inv past log state → cond state event →
      step state event = some (next, out) → inv (past ++ [event]) (log ++ out) next)
    (past : List ι) (log : List ω) (state last : σ) (events : List ι) (out : List ω)
    (hinv : inv past log state) (ha : Along step cond state events)
    (hr : run step state events = some (last, out)) :
    inv (past ++ events) (log ++ out) last := by
  induction events generalizing past log state out with
  | nil =>
    obtain ⟨rfl, rfl⟩ : state = last ∧ [] = out := by simpa using hr
    simpa using hinv
  | cons event rest ih =>
    obtain ⟨next, first, later, hs, hl, rfl⟩ := run_cons_eq_some hr
    have hn := hstep past log state event next first hinv ha.1 hs
    simpa using ih _ _ next later hn (ha.cons hs).2 hl

-- All outputs of a run are in order exactly if every step meets the condition, when
-- that is so for one step.
theorem run_forall_iff {ok : ω → Prop}
    (hstep : ∀ state event next out, step state event = some (next, out) →
      ((∀ o ∈ out, ok o) ↔ cond state event))
    {state last : σ} {events : List ι} {log : List ω}
    (hr : run step state events = some (last, log)) :
    (∀ o ∈ log, ok o) ↔ Along step cond state events := by
  induction events generalizing state log with
  | nil =>
    obtain ⟨rfl, rfl⟩ : state = last ∧ [] = log := by simpa using hr
    simp [Along]
  | cons event rest ih =>
    obtain ⟨next, out, later, hs, hl, rfl⟩ := run_cons_eq_some hr
    simp only [List.mem_append, or_imp, forall_and, Along, hs]
    rw [hstep state event next out hs, ih hl]

-- A property holds after every part of a run exactly if every step meets the condition,
-- when the condition keeps an invariant that implies the property, and the property after
-- a step from the invariant implies the condition.
theorem run_always_iff (inv holds : List ω → σ → Prop)
    (himplies : ∀ log state, inv log state → holds log state)
    (hkeeps : ∀ log state event next out, inv log state → cond state event →
      step state event = some (next, out) → inv (log ++ out) next)
    (hneeds : ∀ log state event next out, inv log state → step state event = some (next, out) →
      holds (log ++ out) next → cond state event)
    {state last : σ} {events : List ι} {log out : List ω} (hinv : inv log state)
    (hr : run step state events = some (last, out)) :
    (∀ first second, events = first ++ second → ∀ middle part,
      run step state first = some (middle, part) → holds (log ++ part) middle) ↔
      Along step cond state events := by
  induction events generalizing state log out with
  | nil =>
    refine ⟨fun _ => trivial, fun _ first second hsplit middle part hpart => ?_⟩
    obtain ⟨rfl, rfl⟩ := List.append_eq_nil_iff.mp hsplit.symm
    obtain ⟨rfl, rfl⟩ : state = middle ∧ [] = part := by simpa using hpart
    rw [List.append_nil]
    exact himplies _ _ hinv
  | cons event rest ih =>
    obtain ⟨next, later, tail, hs, hl, rfl⟩ := run_cons_eq_some hr
    simp only [Along, hs]
    constructor
    · intro h
      have hnow := hneeds log state event next later hinv hs
        (h [event] rest rfl next later (by rw [run_cons _ hs]; simp))
      refine ⟨hnow, (ih (hkeeps log state event next later hinv hnow hs) hl).mp ?_⟩
      intro first second hsplit middle part hpart
      rw [List.append_assoc]
      refine h (event :: first) second (by rw [hsplit, List.cons_append]) middle _ ?_
      rw [run_cons _ hs, hpart]
      rfl
    · rintro ⟨hnow, hlater⟩ first second hsplit middle part hpart
      cases first with
      | nil =>
        obtain ⟨rfl, rfl⟩ : state = middle ∧ [] = part := by simpa using hpart
        rw [List.append_nil]
        exact himplies _ _ hinv
      | cons head front =>
        obtain ⟨rfl, hrest⟩ := List.cons.inj hsplit
        obtain ⟨after, first, tail, hs', hl', rfl⟩ := run_cons_eq_some hpart
        obtain ⟨rfl, rfl⟩ : next = after ∧ later = first := by
          simpa using hs.symm.trans hs'
        rw [← List.append_assoc]
        exact (ih (hkeeps log state event next later hinv hnow hs) hl).mpr hlater front second
          hrest middle _ hl'

-- The same when the condition also keeps the steps from getting stuck.
theorem run_reaches_iff (inv holds : σ → Prop) (himplies : ∀ state, inv state → holds state)
    (hkeeps : ∀ state event, inv state → cond state event →
      ∃ next out, step state event = some (next, out) ∧ inv next)
    (hneeds : ∀ state event next out, inv state → step state event = some (next, out) →
      holds next → cond state event)
    {state : σ} (events : List ι) (hinv : inv state) :
    (∀ first second, events = first ++ second → ∃ last log,
      run step state first = some (last, log) ∧ holds last) ↔ Along step cond state events := by
  constructor
  · intro h
    obtain ⟨last, log, hr, -⟩ := h events [] (List.append_nil events).symm
    refine (@run_always_iff _ _ _ _ _ (fun _ state => inv state) (fun _ state => holds state)
      (fun _ state => himplies state) ?_ (fun _ => hneeds) _ _ _ [] _ hinv hr).mp ?_
    · intro log state event next out hinv hnow hs
      obtain ⟨reached, out', hs', hkept⟩ := hkeeps state event hinv hnow
      cases hs.symm.trans hs'
      exact hkept
    · intro first second hsplit middle part hpart
      obtain ⟨reached, log', hreached, hholds⟩ := h first second hsplit
      cases hpart.symm.trans hreached
      exact hholds
  · rintro ha first second rfl
    obtain ⟨last, log, hr, hlast⟩ := run_progress (fun _ _ state => inv state)
      (fun _ _ state event => hkeeps state event) [] [] state first hinv ha.left
    exact ⟨last, log, hr, himplies last hlast⟩

end Rules

-- Every output fits what was put out before it.
def Logged (fits : List ω → ω → Prop) (log : List ω) : Prop :=
  ∀ before out after, log = before ++ out :: after → fits before out

theorem Logged.nil (fits : List ω → ω → Prop) : Logged fits [] := by
  intro before out after h
  simp at h

theorem Logged.snoc {fits : List ω → ω → Prop} {log : List ω} {last : ω} (h : Logged fits log)
    (hlast : fits log last) : Logged fits (log ++ [last]) := by
  intro before out after heq
  rcases List.eq_nil_or_concat after with rfl | ⟨front, back, rfl⟩
  · obtain ⟨rfl, hsame⟩ := List.append_inj' heq rfl
    obtain rfl : last = out := by simpa using hsame
    exact hlast
  · have hsplit : log ++ [last] = (before ++ out :: front) ++ [back] := by simpa using heq
    exact h before out front (List.append_inj' hsplit rfl).1

end MpQuic.Library

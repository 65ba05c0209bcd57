import MpQuic.Library.Run
import MpQuic.QAccess.Session

namespace MpQuic.QAccess

open MpQuic.Library

inductive Phase2Call where
  | configurePhase2 (identity : Phase2SessionConfig) (connectionID : String)
  | disablePhase2
  deriving DecidableEq

namespace SessionScheduler

def onCall (sch : SessionScheduler) : Phase2Call → SessionScheduler × Option Phase2Error
  | .configurePhase2 identity connectionID => sch.configurePhase2 identity connectionID
  | .disablePhase2 => sch.disablePhase2

def phase2Step (sch : SessionScheduler) (call : Phase2Call) :
    Option (SessionScheduler × List (Option Phase2Error)) :=
  some ((sch.onCall call).1, [(sch.onCall call).2])

structure InStep (sch : SessionScheduler) : Prop where
  monitor : sch.monitor = some sch.utilityController
  owns : ∀ identity ∈ sch.phase2Identity, Owns identity

-- What the configuration of a scheduler guarantees: a call with an error changes nothing, once
-- there is an identity nothing changes any more, and the same identity may come again.
structure Latched (sch : SessionScheduler) : Prop where
  monitor : sch.monitor = some sch.utilityController
  refused : ∀ call err, (sch.onCall call).2 = some err → (sch.onCall call).1 = sch
  kept : ∀ identity ∈ sch.phase2Identity, ∀ later,
    ∃ errs, run phase2Step sch later = some (sch, errs)
  again : ∀ identity ∈ sch.phase2Identity, ∀ connectionID,
    sch.onCall (.configurePhase2 identity connectionID) = (sch, none)

section Calls

variable {sch : SessionScheduler}

variable {identity : Phase2SessionConfig}

theorem configurePhase2_same (howns : Owns identity) (hstored : sch.phase2Identity = some identity)
    (connectionID : String) : sch.configurePhase2 identity connectionID = (sch, none) := by
  unfold configurePhase2
  rw [howns.enabled, howns.owner, howns.role, howns.absolute, hstored]
  simp

theorem onCall_stored (hstored : sch.phase2Identity = some identity)
    (call : Phase2Call) : (sch.onCall call).1 = sch := by
  cases call with
  | configurePhase2 other connectionID =>
    rcases sch.configurePhase2_spec other connectionID with ⟨err, herr⟩ | ⟨hsame, -⟩ | ⟨hnone, -⟩
    · exact congrArg Prod.fst herr
    · exact congrArg Prod.fst hsame
    · cases hstored.symm.trans hnone
  | disablePhase2 =>
    simp only [onCall, disablePhase2, hstored]

theorem onCall_refused {call : Phase2Call} {err : Phase2Error} (herr : (sch.onCall call).2 = some err) :
    (sch.onCall call).1 = sch := by
  cases call with
  | configurePhase2 identity connectionID =>
    simp only [onCall] at herr ⊢
    rcases sch.configurePhase2_spec identity connectionID with
      ⟨other, hother⟩ | ⟨hsame, -⟩ | ⟨-, -, hnew⟩
    · rw [hother]
    · rw [hsame]
    · rw [hnew] at herr
      cases herr
  | disablePhase2 =>
    cases hstored : sch.phase2Identity with
    | none =>
      simp only [onCall, disablePhase2, hstored] at herr
      cases herr
    | some identity => exact onCall_stored hstored .disablePhase2

theorem inStep_onCall (h : InStep sch) (call : Phase2Call) : InStep (sch.onCall call).1 := by
  cases call with
  | configurePhase2 identity connectionID =>
    simp only [onCall]
    rcases sch.configurePhase2_spec identity connectionID with
      ⟨err, herr⟩ | ⟨hsame, -⟩ | ⟨-, howns, hnew⟩
    · rw [herr]
      exact h
    · rw [hsame]
      exact h
    · rw [hnew]
      refine ⟨?_, fun stored hmem => ?_⟩
      · dsimp only
        rw [h.monitor]
        rfl
      · obtain rfl := Option.mem_some.mp hmem
        exact howns
  | disablePhase2 =>
    cases hstored : sch.phase2Identity with
    | some identity =>
      rw [onCall_stored hstored]
      exact h
    | none =>
      simp only [onCall, disablePhase2, hstored]
      refine ⟨?_, nofun⟩
      dsimp only
      rw [h.monitor]
      rfl

theorem run_stored (hstored : sch.phase2Identity = some identity)
    (later : List Phase2Call) : ∃ errs, run phase2Step sch later = some (sch, errs) := by
  induction later with
  | nil => exact ⟨[], rfl⟩
  | cons call rest ih =>
    obtain ⟨errs, hr⟩ := ih
    have hs : phase2Step sch call = some (sch, [(sch.onCall call).2]) := by
      unfold phase2Step
      rw [onCall_stored hstored]
    refine ⟨[(sch.onCall call).2] ++ errs, ?_⟩
    rw [run_cons _ hs, hr]
    rfl

theorem InStep.latched (h : InStep sch) : Latched sch :=
  ⟨h.monitor, fun _ _ herr => onCall_refused herr, fun _ hstored later => run_stored hstored later,
    fun identity hstored connectionID =>
      configurePhase2_same (h.owns identity hstored) hstored connectionID⟩

theorem inStep_setup (config : SchedulerConfig) : InStep (setup config) :=
  ⟨rfl, nofun⟩

end Calls

-- The configuration is a latch in every state that calls can reach after `setup`.
theorem phase2_is_one_way_latch (config : SchedulerConfig) (calls : List Phase2Call) :
    ∃ last errs, run phase2Step (setup config) calls = some (last, errs) ∧ Latched last := by
  obtain ⟨last, errs, hr, hinv⟩ := run_progress (fun _ _ sch => InStep sch)
    (fun _ _ sch call h _ => ⟨_, _, rfl, inStep_onCall h call⟩) [] [] (setup config) calls
    (inStep_setup config) (Along.always _ _)
  exact ⟨last, errs, hr, hinv.latched⟩

-- A call that is refused, a configuration, the same one again, another one, and an attempt to
-- disable it.
example :
    let first : Phase2SessionConfig := ⟨true, true, phase2OwnerRole, "/run/a", "r", "1", "key"⟩
    let other : Phase2SessionConfig := ⟨true, true, phase2OwnerRole, "/run/b", "r", "2", "key"⟩
    (run phase2Step (setup ⟨.qaccessT, false, false, "", "", "r"⟩)
      [.configurePhase2 { first with stateDir := "run" } "c", .configurePhase2 first "c",
        .configurePhase2 first "c", .configurePhase2 other "c", .disablePhase2]).map
      (fun reached => (reached.1.monitor, reached.1.controllers.length, reached.2)) =
    some (some (some 0), 1, [some (.stateDirNotAbsolute "run"), none, none,
      some (.alreadyConfigured "1"), some (.cannotDisableActiveOwner "1")]) := by
  decide +kernel

end SessionScheduler

end MpQuic.QAccess

import MpQuic.Connection.Lookups

namespace MpQuic.Connection

open MpQuic.Library MpQuic.Wire List

variable {σ S ε : Type}

structure Assignment where
  pathID : Nat
  taken : Bool
  deriving DecidableEq, Repr

def creatorParity : Perspective → Nat
  | .client => 1
  | .server => 0

theorem PathManager.withAddress_nxtPathID {pm added : PathManager} {f : AddAddressFrame}
    (hadd : pm.withAddress f = some added) : added.nxtPathID = pm.nxtPathID := by
  unfold PathManager.withAddress at hadd
  split_ifs at hadd <;> cases hadd <;> rfl

namespace Session

def assignments (env : Environment σ S ε) : Session σ S → List (Address × Address) → List Assignment
  | _, [] => []
  | s, (locAddr, remAddr) :: rest =>
    match s.pathManager with
    | none => []
    | some pm =>
      let assigned :=
        if s.hasPath locAddr remAddr then [] else [⟨pm.nxtPathID, (s.paths pm.nxtPathID).isSome⟩]
      match s.createPath env pm locAddr remAddr with
      | (_, some _) => assigned
      | (s, none) => assigned ++ assignments env s rest

def assignedBy (env : Environment σ S ε) (s : Session σ S) (pm : PathManager) : List Assignment :=
  match s.perspective with
  | .server => []
  | .client => s.assignments env (addressPairs env pm)

end Session

inductive ManagerEvent (σ S ε : Type) where
  | createPaths (env : Environment σ S ε)
  | addAddress (env : Environment σ S ε) (f : AddAddressFrame)
  | createPathFromRemote (env : Environment σ S ε) (p : ReceivedPacket)

namespace Session

def managerStep (s : Session σ S) (event : ManagerEvent σ S ε) :
    Option (Session σ S × List Assignment) :=
  match s.pathManager with
  | none => none
  | some pm =>
    match event with
    | .createPaths env => some ((s.runCreatePaths env pm).1, s.assignedBy env pm)
    | .addAddress env f =>
      some ((s.handleAddAddressFrame env pm f).1,
        match pm.withAddress f with
        | none => []
        | some pm =>
          if s.createPaths then ({ s with pathManager := some pm }).assignedBy env pm else [])
    | .createPathFromRemote env p =>
      match s.createPathFromRemote env p with
      | .error _ => none
      | .ok (s, _) => some (s, [])

end Session

-- The session as `setup` leaves it: the first path has the ID zero.
def setupSession (perspective : Perspective) (version : Int) (createPaths : Bool) (first : Path σ)
    (streams : S) : Session σ S where
  perspective := perspective
  version := version
  createPaths := createPaths
  paths := Function.update (fun _ => none) 0 (some first)
  closedPaths := fun _ => false
  pathManager := some
    { nxtPathID := match perspective with
        | .client => 1
        | .server => 2
      remoteAddrs4 := if (to4 first.remoteAddr.ip).isSome then [first.remoteAddr] else []
      remoteAddrs6 := if (to4 first.remoteAddr.ip).isSome then [] else [first.remoteAddr]
      advertisedLocAddrs := [] }
  remoteRTTs := fun _ => none
  lastNetworkActivityTime := first.lastNetworkActivityTime
  keepAlivePingSent := false
  peerBlocked := false
  closeRemote := none
  diversificationNonces := []
  pathsFrame := none
  lastPathsFrameSent := 0
  addAddressFrames := []
  streams := streams

namespace Session

def oddPaths (s : Session σ S) : Nat :=
  ((List.range 128).filter fun index => (s.paths (2 * index + 1)).isSome).length

def missingPairs (s : Session σ S) (pairs : List (Address × Address)) : Nat :=
  (pairs.filter fun pair => !s.hasPath pair.1 pair.2).length

-- There are enough odd IDs for the pairs of addresses that have no path yet.
def Room (env : Environment σ S ε) (s : Session σ S) (pm : PathManager) : Prop :=
  s.perspective = .client → s.oddPaths + s.missingPairs (addressPairs env pm) ≤ 128

def HasRoom (s : Session σ S) : ManagerEvent σ S ε → Prop
  | .createPaths env => ∀ pm, s.pathManager = some pm → Room env s pm
  | .addAddress env f =>
    s.createPaths = true →
      ∀ pm next, s.pathManager = some pm → pm.withAddress f = some next → Room env s next
  | .createPathFromRemote _ _ => True

def KeepsPaths (s next : Session σ S) : Prop :=
  ∀ pathID pth, s.paths pathID = some pth → next.paths pathID = some pth

theorem KeepsPaths.refl (s : Session σ S) : KeepsPaths s s :=
  fun _ _ h => h

variable {s next : Session σ S} {count nxtPathID : Nat}

theorem KeepsPaths.trans {last : Session σ S} (hfirst : KeepsPaths s next)
    (hsecond : KeepsPaths next last) : KeepsPaths s last :=
  fun pathID pth h => hsecond pathID pth (hfirst pathID pth h)

theorem keepsPaths_setPath {pathID : Nat} (hfree : s.paths pathID = none)
    (pth : Path σ) : KeepsPaths s (s.setPath pathID pth) := by
  intro other found hfound
  have hne : other ≠ pathID := by
    rintro rfl
    rw [hfree] at hfound
    cases hfound
  rw [setPath_paths_of_ne s hne]
  exact hfound

theorem KeepsPaths.hasPath (hkeeps : KeepsPaths s next) {locAddr remAddr : Address}
    (hpath : s.hasPath locAddr remAddr = true) : next.hasPath locAddr remAddr = true := by
  unfold Session.hasPath at hpath ⊢
  rw [any_eq_true] at hpath ⊢
  obtain ⟨pathID, hmem, hsame⟩ := hpath
  refine ⟨pathID, hmem, ?_⟩
  cases hfound : s.paths pathID with
  | none =>
    rw [hfound] at hsame
    cases hsame
  | some pth =>
    rw [hfound] at hsame
    rw [hkeeps pathID pth hfound]
    exact hsame

theorem KeepsPaths.missingPairs_le (hkeeps : KeepsPaths s next)
    (pairs : List (Address × Address)) : next.missingPairs pairs ≤ s.missingPairs pairs := by
  unfold missingPairs
  refine List.Sublist.length_le (monotone_filter_right pairs fun pair hmissing => ?_)
  cases hpath : s.hasPath pair.1 pair.2 with
  | false => rfl
  | true => simp [hkeeps.hasPath hpath] at hmissing

structure Numbered (s : Session σ S) (nxtPathID count : Nat) : Prop where
  bound : count ≤ 128
  next : nxtPathID = (2 * count + 1) % 256
  keys : ∀ pathID < 256, pathID % 2 = 1 → ((s.paths pathID).isSome ↔ pathID < 2 * count + 1)

theorem length_filter_lt {bound : Nat} (hle : count ≤ bound) :
    ((List.range bound).filter fun index => decide (index < count)).length = count := by
  obtain ⟨extra, rfl⟩ := Nat.exists_eq_add_of_le hle
  rw [range_add, filter_append, filter_eq_self.mpr, filter_eq_nil_iff.mpr]
  · simp
  · simp
  · simp

theorem Numbered.oddPaths_eq (hn : Numbered s nxtPathID count) : s.oddPaths = count := by
  rw [← length_filter_lt hn.bound]
  unfold oddPaths
  congr 1
  refine filter_congr fun index hmem => ?_
  have hkey := hn.keys (2 * index + 1) (by rw [mem_range] at hmem; omega) (by omega)
  rw [Bool.eq_iff_iff, hkey, decide_eq_true_iff]
  omega

theorem Numbered.free (hn : Numbered s nxtPathID count)
    (hroom : count < 128) : nxtPathID % 2 = 1 ∧ s.paths nxtPathID = none := by
  have hnext : nxtPathID = 2 * count + 1 := by
    rw [hn.next]
    omega
  refine ⟨by omega, ?_⟩
  have hkey := hn.keys nxtPathID (by omega) (by omega)
  rw [← Option.not_isSome_iff_eq_none, hkey]
  omega

theorem Numbered.setPath (hn : Numbered s nxtPathID count) (hroom : count < 128) (pth : Path σ) :
    Numbered (s.setPath nxtPathID pth) ((nxtPathID + 2) % 256) (count + 1) := by
  have hnext : nxtPathID = 2 * count + 1 := by
    rw [hn.next]
    omega
  refine ⟨by omega, by omega, fun pathID hlt hodd => ?_⟩
  by_cases heq : pathID = nxtPathID
  · subst heq
    rw [setPath_paths_self]
    simp only [Option.isSome_some, true_iff]
    omega
  · rw [setPath_paths_of_ne s heq, hn.keys pathID hlt hodd]
    omega

theorem createPathsLoop_fresh (env : Environment σ S ε) {pairs : List (Address × Address)}
    {pm : PathManager} (hpm : s.pathManager = some pm)
    (hn : Numbered s pm.nxtPathID count) (hroom : count + s.missingPairs pairs ≤ 128) :
    (∀ a ∈ s.assignments env pairs, a.taken = false ∧ a.pathID % 2 = 1) ∧
      KeepsPaths s (s.createPathsLoop env pairs).1 ∧
      (s.createPathsLoop env pairs).1.perspective = s.perspective ∧
      ∃ last total, (s.createPathsLoop env pairs).1.pathManager = some last ∧
        Numbered (s.createPathsLoop env pairs).1 last.nxtPathID total := by
  induction pairs generalizing s pm count with
  | nil => exact ⟨by simp [assignments], KeepsPaths.refl s, rfl, pm, count, hpm, hn⟩
  | cons pair rest ih =>
    obtain ⟨locAddr, remAddr⟩ := pair
    unfold assignments createPathsLoop createPath
    rw [hpm]
    dsimp only
    cases hpath : s.hasPath locAddr remAddr with
    | true =>
      simp only [if_pos]
      refine ih hpm hn ?_
      simpa [missingPairs, hpath] using hroom
    | false =>
      have hmissing : s.missingPairs ((locAddr, remAddr) :: rest) = s.missingPairs rest + 1 := by
        simp [missingPairs, hpath]
      rw [hmissing] at hroom
      obtain ⟨hodd, hfree⟩ := hn.free (by omega)
      simp only [Bool.false_eq_true, if_false, hfree, Option.isSome_none]
      have hkeeps := keepsPaths_setPath hfree
        (env.sendPing (newPath s.version env.now locAddr remAddr)).1
      have hnumbered := hn.setPath (by omega)
        (env.sendPing (newPath s.version env.now locAddr remAddr)).1
      cases hping : (env.sendPing (newPath s.version env.now locAddr remAddr)).2 with
      | some err =>
        refine ⟨?_, hkeeps, rfl, _, count + 1, rfl, ?_⟩
        · simp [hodd]
        · exact ⟨hnumbered.bound, hnumbered.next, hnumbered.keys⟩
      | none =>
        have hle := hkeeps.missingPairs_le rest
        obtain ⟨hlater, hkept, hsame, last, total, hlast, htotal⟩ := ih
          (s := { s.setPath pm.nxtPathID
            (env.sendPing (newPath s.version env.now locAddr remAddr)).1 with
            pathManager := some { pm with nxtPathID := (pm.nxtPathID + 2) % 256 } })
          rfl ⟨hnumbered.bound, hnumbered.next, hnumbered.keys⟩
          (le_trans (Nat.add_le_add_left hle (count + 1)) (by omega))
        refine ⟨?_, hkeeps.trans hkept, hsame, last, total, hlast, htotal⟩
        intro a ha
        rcases mem_append.mp ha with ha | ha
        · rw [mem_singleton] at ha
          subst ha
          exact ⟨rfl, hodd⟩
        · exact hlater a ha

-- What every call keeps: a client's odd IDs are numbered by the manager.
structure Managed (perspective : Perspective) (s : Session σ S) : Prop where
  side : s.perspective = perspective
  manager : ∃ pm, s.pathManager = some pm ∧
    (perspective = .client → ∃ count, Numbered s pm.nxtPathID count)

def Fresh (perspective : Perspective) (a : Assignment) : Prop :=
  a.taken = false ∧ a.pathID % 2 = creatorParity perspective

section Calls

variable {env : Environment σ S ε} {perspective : Perspective}

variable {s next : Session σ S}

theorem runCreatePaths_fresh {pm : PathManager} (hside : s.perspective = perspective)
    (hpm : s.pathManager = some pm)
    (hn : perspective = .client → ∃ count, Numbered s pm.nxtPathID count) (hroom : Room env s pm) :
    (∀ a ∈ s.assignedBy env pm, Fresh perspective a) ∧
      KeepsPaths s (s.runCreatePaths env pm).1 ∧ Managed perspective (s.runCreatePaths env pm).1 := by
  subst hside
  unfold assignedBy runCreatePaths
  cases hside : s.perspective with
  | server =>
    refine ⟨by simp, KeepsPaths.refl _, hside, _, rfl, ?_⟩
    rintro ⟨⟩
  | client =>
    obtain ⟨count, hcount⟩ := hn hside
    have hfits := hroom hside
    rw [hcount.oddPaths_eq] at hfits
    obtain ⟨hfresh, hkeeps, hsame, last, total, hlast, htotal⟩ :=
      createPathsLoop_fresh env hpm hcount hfits
    dsimp only
    refine ⟨hfresh, ?_⟩
    cases hloop : s.createPathsLoop env (addressPairs env pm) with
    | mk next err =>
      rw [hloop] at hkeeps hsame hlast htotal
      cases err with
      | some err => exact ⟨hkeeps, hsame.trans hside, last, hlast, fun _ => ⟨total, htotal⟩⟩
      | none =>
        exact ⟨hkeeps, hsame.trans hside, last, hlast,
          fun _ => ⟨total, htotal.bound, htotal.next, htotal.keys⟩⟩

theorem Managed.createPathFromRemote {p : ReceivedPacket} {err : Option (SessionError ε)}
    (hm : Managed perspective s) (hcreate : s.createPathFromRemote env p = .ok (next, err)) :
    KeepsPaths s next ∧ Managed perspective next := by
  obtain ⟨hside, pm, hpm, hn⟩ := hm
  unfold Session.createPathFromRemote at hcreate
  rw [hpm] at hcreate
  dsimp only at hcreate
  split_ifs at hcreate with hknown hodd heven
  · cases hcreate
    exact ⟨KeepsPaths.refl _, hside, pm, hpm, hn⟩
  · cases hcreate
    exact ⟨KeepsPaths.refl _, hside, pm, hpm, hn⟩
  · cases hcreate
    exact ⟨KeepsPaths.refl _, hside, pm, hpm, hn⟩
  · cases hcreate
    refine ⟨keepsPaths_setPath (Option.not_isSome_iff_eq_none.mp hknown) _, hside, pm, hpm, ?_⟩
    intro hclient
    obtain ⟨count, hcount⟩ := hn hclient
    refine ⟨count, hcount.bound, hcount.next, fun pathID hlt hkey => ?_⟩
    have hne : pathID ≠ p.publicHeader.pathID := by
      rintro rfl
      exact hodd ⟨hside.trans hclient, by omega⟩
    rw [setPath_paths_of_ne s hne]
    exact hcount.keys pathID hlt hkey

theorem managerStep_fresh {event : ManagerEvent σ S ε}
    {out : List Assignment} (hm : Managed perspective s) (hroom : HasRoom s event)
    (hstep : s.managerStep event = some (next, out)) :
    (∀ a ∈ out, Fresh perspective a) ∧ KeepsPaths s next ∧ Managed perspective next := by
  obtain ⟨hside, pm, hpm, hn⟩ := hm
  unfold managerStep at hstep
  rw [hpm] at hstep
  cases event with
  | createPaths env =>
    cases hstep
    exact runCreatePaths_fresh hside hpm hn (hroom pm hpm)
  | addAddress env f =>
    dsimp only at hstep
    unfold handleAddAddressFrame at hstep
    cases hadd : pm.withAddress f with
    | none =>
      rw [hadd] at hstep
      cases hstep
      exact ⟨by simp, KeepsPaths.refl _, hside, pm, hpm, hn⟩
    | some added =>
      have hnext : added.nxtPathID = pm.nxtPathID := PathManager.withAddress_nxtPathID hadd
      have hnumbered : perspective = .client → ∃ count,
          Numbered { s with pathManager := some added } added.nxtPathID count := by
        intro hclient
        obtain ⟨count, hcount⟩ := hn hclient
        rw [hnext]
        exact ⟨count, hcount.bound, hcount.next, hcount.keys⟩
      rw [hadd] at hstep
      dsimp only at hstep
      by_cases hcreate : s.createPaths = true
      · rw [if_pos hcreate, if_pos hcreate] at hstep
        cases hstep
        exact runCreatePaths_fresh (s := { s with pathManager := some added }) hside rfl hnumbered
          (hroom hcreate pm added hpm hadd)
      · rw [if_neg hcreate, if_neg hcreate] at hstep
        cases hstep
        exact ⟨by simp, KeepsPaths.refl _, hside, added, rfl, hnumbered⟩
  | createPathFromRemote env p =>
    dsimp only at hstep
    cases hcreate : s.createPathFromRemote env p with
    | error crash =>
      rw [hcreate] at hstep
      cases hstep
    | ok result =>
      rw [hcreate] at hstep
      cases hstep
      have hmanaged : Managed perspective s := ⟨hside, pm, hpm, hn⟩
      exact ⟨by simp, hmanaged.createPathFromRemote hcreate⟩

theorem managed_setupSession (perspective : Perspective) (version : Int) (createPaths : Bool)
    (first : Path σ) (streams : S) :
    Managed perspective (setupSession perspective version createPaths first streams) := by
  refine ⟨rfl, _, rfl, ?_⟩
  rintro rfl
  refine ⟨0, by decide, rfl, fun pathID hlt hodd => ?_⟩
  have hne : pathID ≠ 0 := by
    rintro rfl
    cases hodd
  have hpaths : (setupSession .client version createPaths first streams).paths =
      Function.update (fun _ => none) 0 (some first) := rfl
  simp only [hpaths, Function.update_of_ne hne, Option.isSome_none, Bool.false_eq_true, false_iff]
  omega

theorem managerRun_fresh {last : Session σ S} {events : List (ManagerEvent σ S ε)}
    {log : List Assignment} (hm : Managed perspective s) (hroom : Along managerStep HasRoom s events)
    (hrun : run managerStep s events = some (last, log)) :
    (∀ a ∈ log, Fresh perspective a) ∧ KeepsPaths s last ∧ Managed perspective last := by
  refine run_invariant
    (fun _ log reached => (∀ a ∈ log, Fresh perspective a) ∧ KeepsPaths s reached ∧
      Managed perspective reached)
    ?_ [] [] s last events log ⟨by simp, KeepsPaths.refl s, hm⟩ hroom hrun
  intro past log reached event next out hinv hcond hstep
  obtain ⟨hlog, hkept, hmanaged⟩ := hinv
  obtain ⟨hout, hkeeps, hnext⟩ := managerStep_fresh hmanaged hcond hstep
  refine ⟨?_, hkept.trans hkeeps, hnext⟩
  intro a ha
  rcases mem_append.mp ha with ha | ha
  · exact hlog a ha
  · exact hout a ha

end Calls

end Session

-- While the client has odd IDs left for the pairs of addresses without a path, every ID that
-- `createPath` assigns is a new one of the endpoint's parity, and no path is replaced.
theorem path_ids_are_fresh {perspective : Perspective} {version : Int} {createPaths : Bool}
    {first : Path σ} {streams : S} {events : List (ManagerEvent σ S ε)} {last : Session σ S}
    {log : List Assignment}
    (hroom : Along Session.managerStep Session.HasRoom
      (setupSession perspective version createPaths first streams) events)
    (hrun : run Session.managerStep
      (setupSession perspective version createPaths first streams) events = some (last, log)) :
    (∀ a ∈ log, a.taken = false ∧ a.pathID % 2 = creatorParity perspective) ∧
      ∀ before after middle early, events = before ++ after →
        run Session.managerStep
          (setupSession perspective version createPaths first streams) before = some (middle, early) →
        ∀ pathID pth, middle.paths pathID = some pth → last.paths pathID = some pth := by
  have hsetup := Session.managed_setupSession perspective version createPaths first streams
  refine ⟨(Session.managerRun_fresh hsetup hroom hrun).1, ?_⟩
  rintro before after middle early rfl hbefore
  obtain ⟨hearlier, hlater⟩ := (Along.append hbefore).mp hroom
  obtain ⟨-, -, hmiddle⟩ := Session.managerRun_fresh hsetup hearlier hbefore
  rw [run_append after hbefore] at hrun
  obtain ⟨⟨reached, late⟩, hreached, heq⟩ := Option.map_eq_some_iff.mp hrun
  cases heq
  exact (Session.managerRun_fresh hmiddle hlater hreached).2.1

namespace Session

-- What happens without room: the IDs start again, and they reach an ID that is in use.
section Wrapping

variable {env : Environment σ S ε}

variable {s : Session σ S} {pathID : Nat} {pairs : List (Address × Address)} {pm : PathManager}

theorem hasPath_setPath {pth : Path σ} {locAddr remAddr : Address}
    (hmissing : s.hasPath locAddr remAddr = false)
    (hother : ¬(pth.localAddr.printed = locAddr.printed ∧
      pth.remoteAddr.printed = remAddr.printed)) :
    (s.setPath pathID pth).hasPath locAddr remAddr = false := by
  unfold Session.hasPath at hmissing ⊢
  rw [any_eq_false] at hmissing ⊢
  intro key hkey
  by_cases heq : key = pathID
  · rw [heq, setPath_paths_self]
    simpa using hother
  · rw [setPath_paths_of_ne s heq]
    exact hmissing key hkey

def Apart (pair other : Address × Address) : Prop :=
  ¬(pair.1.printed = other.1.printed ∧ pair.2.printed = other.2.printed)

variable (hping : ∀ pth, env.sendPing pth = (pth, none))

include hping

theorem pathIDs_of_missing (hpm : s.pathManager = some pm) (hnxt : pm.nxtPathID < 256)
    (hapart : pairs.Pairwise Apart) (hmissing : ∀ pair ∈ pairs, s.hasPath pair.1 pair.2 = false) :
    (s.assignments env pairs).map Assignment.pathID =
      (List.range pairs.length).map fun index => (pm.nxtPathID + 2 * index) % 256 := by
  induction pairs generalizing s pm with
  | nil => rfl
  | cons pair rest ih =>
    obtain ⟨locAddr, remAddr⟩ := pair
    rw [pairwise_cons] at hapart
    have hfirst : s.hasPath locAddr remAddr = false := hmissing _ mem_cons_self
    unfold assignments createPath
    rw [hpm]
    simp only [hfirst, Bool.false_eq_true, if_false, hping, map_append, map_cons,
      map_nil]
    have hrest := ih
      (s := { s.setPath pm.nxtPathID (newPath s.version env.now locAddr remAddr) with
        pathManager := some { pm with nxtPathID := (pm.nxtPathID + 2) % 256 } })
      rfl (Nat.mod_lt _ (by decide)) hapart.2 ?_
    · rw [hrest]
      rw [length_cons, range_succ_eq_map, map_cons, map_map]
      simp only [Nat.mul_zero, Nat.add_zero, Nat.mod_eq_of_lt hnxt, singleton_append,
        List.cons.injEq, true_and]
      refine map_congr_left fun index _ => ?_
      simp only [Function.comp_apply, Nat.mod_add_mod]
      congr 1
      omega
    · intro other hother
      exact hasPath_setPath (hmissing other (mem_cons_of_mem _ hother))
        (hapart.1 other hother)

theorem taken_of_isSome (hknown : (s.paths pathID).isSome) :
    ∀ a ∈ s.assignments env pairs, a.pathID = pathID → a.taken = true := by
  induction pairs generalizing s with
  | nil => simp [assignments]
  | cons pair rest ih =>
    obtain ⟨locAddr, remAddr⟩ := pair
    intro a ha heq
    unfold assignments createPath at ha
    cases hpm : s.pathManager with
    | none => simp [hpm] at ha
    | some pm =>
      simp only [hpm, hping] at ha
      cases hpath : s.hasPath locAddr remAddr with
      | true =>
        simp only [hpath, if_pos, nil_append] at ha
        exact ih hknown a ha heq
      | false =>
        simp only [hpath, Bool.false_eq_true, if_false, singleton_append,
          mem_cons] at ha
        rcases ha with rfl | ha
        · rw [← heq] at hknown
          exact hknown
        · refine ih ?_ a ha heq
          by_cases hsame : pathID = pm.nxtPathID
          · rw [hsame]
            exact congrArg Option.isSome (setPath_paths_self s _ _)
          · exact (congrArg Option.isSome (setPath_paths_of_ne s hsame _)).trans hknown

theorem id_taken_of_missing (hpm : s.pathManager = some pm) (hnxt : pm.nxtPathID < 256)
    (hapart : pairs.Pairwise Apart) (hmissing : ∀ pair ∈ pairs, s.hasPath pair.1 pair.2 = false)
    (hmany : 128 < pairs.length) : ⟨pm.nxtPathID, true⟩ ∈ s.assignments env pairs := by
  obtain ⟨⟨locAddr, remAddr⟩, rest, rfl⟩ :=
    exists_cons_of_length_pos (Nat.zero_lt_of_lt hmany)
  have hfirst : s.hasPath locAddr remAddr = false := hmissing _ mem_cons_self
  have hpairs := pairwise_cons.mp hapart
  unfold assignments createPath
  rw [hpm]
  simp only [hfirst, Bool.false_eq_true, if_false, hping]
  refine mem_append_right _ ?_
  have hids := pathIDs_of_missing hping
    (s := { s.setPath pm.nxtPathID (newPath s.version env.now locAddr remAddr) with
      pathManager := some { pm with nxtPathID := (pm.nxtPathID + 2) % 256 } })
    rfl (Nat.mod_lt _ (by decide)) hpairs.2
    (fun other hother => hasPath_setPath (hmissing other (mem_cons_of_mem _ hother))
      (hpairs.1 other hother))
  -- 128 steps of two later the byte is the same again.
  have hmem : pm.nxtPathID ∈ (List.range rest.length).map fun index =>
      ((pm.nxtPathID + 2) % 256 + 2 * index) % 256 := by
    rw [length_cons] at hmany
    exact mem_map.mpr ⟨127, mem_range.mpr (by omega), by omega⟩
  rw [← hids, mem_map] at hmem
  obtain ⟨⟨pathID, taken⟩, ha, heq⟩ := hmem
  have htaken : taken = true := by
    refine taken_of_isSome hping ?_ _ ha heq
    exact congrArg Option.isSome (setPath_paths_self s pm.nxtPathID _)
  dsimp only at heq
  rw [htaken, heq] at ha
  exact ha

end Wrapping

end Session

def crowdedEnvironment : Environment Unit Unit Unit :=
  { lookupEnvironment with
    localAddrs := (List.range 129).map fun index => ⟨[10, 0, 0, 1], index + 1⟩ }

def crowdedClient : Session Unit Unit :=
  setupSession .client versionMP true (newPath versionMP 0 ⟨[10, 0, 0, 1], 0⟩ ⟨[10, 0, 0, 2], 1⟩) ()

def crowdedManager : PathManager := ⟨1, [⟨[10, 0, 0, 2], 1⟩], [], []⟩

theorem addressPairs_crowdedEnvironment :
    Session.addressPairs crowdedEnvironment crowdedManager =
      (List.range 129).map fun index => (⟨[10, 0, 0, 1], index + 1⟩, ⟨[10, 0, 0, 2], 1⟩) := by
  unfold Session.addressPairs crowdedEnvironment
  rw [flatMap_map]
  exact flatMap_pure_eq_map _ _

theorem hasPath_crowdedClient (index : Nat) (remAddr : Address) :
    crowdedClient.hasPath ⟨[10, 0, 0, 1], index + 1⟩ remAddr = false := by
  refine Session.hasPath_setPath (s := { crowdedClient with paths := fun _ => none }) ?_ ?_
  · exact any_eq_false.mpr fun _ _ => Bool.false_ne_true
  · rintro ⟨hlocal, -⟩
    cases congrArg Prod.snd hlocal

theorem client_reuses_path_id :
    ∃ last log, run Session.managerStep crowdedClient [.createPaths crowdedEnvironment] =
      some (last, log) ∧ ⟨1, true⟩ ∈ log := by
  refine ⟨_, crowdedClient.assignments crowdedEnvironment
    (Session.addressPairs crowdedEnvironment crowdedManager) ++ [], rfl, ?_⟩
  rw [List.append_nil, addressPairs_crowdedEnvironment]
  refine Session.id_taken_of_missing (fun _ => rfl) (s := crowdedClient) rfl (by decide) ?_ ?_ ?_
  · rw [List.pairwise_map]
    refine List.pairwise_lt_range.imp ?_
    rintro index other hlt ⟨hlocal, -⟩
    have hport : index + 1 = other + 1 := congrArg Prod.snd hlocal
    omega
  · intro pair hpair
    obtain ⟨index, -, rfl⟩ := List.mem_map.mp hpair
    exact hasPath_crowdedClient index _
  · rw [List.length_map, List.length_range]
    decide

def pairedEnvironment : Environment Unit Unit Unit :=
  { lookupEnvironment with localAddrs := [⟨[10, 0, 0, 1], 1⟩, ⟨[10, 0, 0, 1], 2⟩] }

theorem path_ids_are_fresh_example :
    ∃ last, run Session.managerStep crowdedClient [.createPaths pairedEnvironment] =
        some (last, [⟨1, false⟩, ⟨3, false⟩]) ∧
      ∀ pathID pth, crowdedClient.paths pathID = some pth → last.paths pathID = some pth := by
  have hassigned : crowdedClient.assignedBy pairedEnvironment crowdedManager =
      [⟨1, false⟩, ⟨3, false⟩] := by decide +kernel
  have hrun : run Session.managerStep crowdedClient [.createPaths pairedEnvironment] =
      some ((crowdedClient.runCreatePaths pairedEnvironment crowdedManager).1,
        crowdedClient.assignedBy pairedEnvironment crowdedManager ++ []) := rfl
  rw [List.append_nil, hassigned] at hrun
  refine ⟨_, hrun, ?_⟩
  have hroom : Along Session.managerStep Session.HasRoom crowdedClient
      [.createPaths pairedEnvironment] := by
    refine ⟨?_, trivial⟩
    rintro pm hpm
    cases hpm
    intro _
    decide +kernel
  exact (path_ids_are_fresh hroom hrun).2 [] _ crowdedClient [] rfl rfl

end MpQuic.Connection

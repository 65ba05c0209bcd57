import MpQuic.Scheduler.Select

namespace MpQuic.Scheduler

open List

structure PathMap where
  paths : List PathInfo
  nodup : (paths.map PathInfo.pathID).Nodup

def PathMap.IsOrder (m : PathMap) (order : List PathInfo) : Prop :=
  order.Perm m.paths

structure RoundRobin where
  selectedPath : Option PathInfo
  lowerQuota : Nat

def roundRobinStep (q : Query) (r : RoundRobin) (pth : PathInfo) : RoundRobin :=
  if !q.considers pth then r
  else if q.quotas pth.pathID < r.lowerQuota then ⟨some pth, q.quotas pth.pathID⟩
  else r

def maxQuota : Nat := 2 ^ 64 - 1

def selectPathRoundRobin (q : Query) (paths : List PathInfo) : Option PathInfo :=
  if paths.length ≤ 1 then selectOnlyPath q paths
  else (paths.foldl (roundRobinStep q) ⟨none, maxQuota⟩).selectedPath

inductive SchedulerName where
  | rtt
  | rr
  | blest
  | ecf
  | moooko
  deriving DecidableEq

structure Estimates where
  bSend : UInt64
  waiting : UInt64
  queueSize : UInt64

def selectPath (name : SchedulerName) (q : Query) (est : Estimates) (early paths : List PathInfo) :
    Option PathInfo :=
  match name with
  | .rtt => selectPathLowLatency q early paths
  | .rr => selectPathRoundRobin q paths
  | .blest => selectBLEST q est.bSend early paths
  | .ecf => (selectECF q est.waiting est.queueSize early paths).1
  | .moooko => selectPathLowLatency q early paths

-- The paths of a round of the redundancy schedulers. The third loop adds all paths on which
-- sending is allowed, and the only path of a session is added in any case.
def roundPaths (q : Query) (early paths others : List PathInfo) : List PathInfo :=
  let firstpath := selectPathLowLatency q early paths
  let added := others.filter fun pth =>
    pth.pathID ≠ initialPathID && pth.sendingAllowed &&
      firstpath.all fun first => pth.pathID ≠ first.pathID
  let only :=
    if paths.length = 1 then (paths.find? (·.pathID = initialPathID)).toList else []
  firstpath.toList ++ added ++ only

def redundancyPaths (q : Query) (early paths others : List PathInfo) : List PathInfo :=
  roundPaths q early paths others

def rddtPaths (q : Query) (early paths others : List PathInfo) : List PathInfo :=
  roundPaths q early paths others

def Query.Eligible (q : Query) (pth : PathInfo) : Prop :=
  pth.pathID ≠ initialPathID ∧ pth.isOpen = true ∧ pth.potentiallyFailed = false ∧
    (q.hasRetransmission = false → pth.sendingAllowed = true)

structure UsesEligible (q : Query) (m : PathMap) : Prop where
  selected : 1 < m.paths.length → ∀ name est early paths, m.IsOrder early → m.IsOrder paths →
    ∀ pth, selectPath name q est early paths = some pth → q.Eligible pth
  listed : 1 < m.paths.length → ∀ early paths others, m.IsOrder early → m.IsOrder paths →
    m.IsOrder others → ∀ pth, pth ∈ redundancyPaths q early paths others ∨
      pth ∈ rddtPaths q early paths others → q.Eligible pth
  only : m.paths.length = 1 → ∀ early paths others, m.IsOrder early → m.IsOrder paths →
    m.IsOrder others → ∀ pth, pth ∈ redundancyPaths q early paths others ∨
      pth ∈ rddtPaths q early paths others → pth.sendingAllowed = true ∨ q.hasRetransmission = true

def Query.offersUnprobed (q : Query) (pth : PathInfo) : Bool :=
  match q.fromPth with
  | none => false
  | some fromPth =>
    q.hasRetransmission && q.hasStreamRetransmission && fromPth.smoothedRTT = 0 &&
      q.sentLess fromPth pth

structure FewestSent (q : Query) (paths : List PathInfo) (pth : PathInfo) : Prop where
  mem : pth ∈ paths
  considered : q.considers pth = true
  quota : q.quotas pth.pathID < maxQuota
  fewest : ∀ other ∈ paths, q.considers other = true → q.quotas pth.pathID ≤ q.quotas other.pathID

-- No path is both usable and failed, and a retransmission finds no path that is closed: neither
-- the paths on which less was sent than on the unmeasured path it comes from, nor those that the
-- loops prefer.
structure PathsUsable (q : Query) (m : PathMap) : Prop where
  allowed : 1 < m.paths.length → ∀ pth ∈ m.paths, pth.pathID ≠ initialPathID →
    pth.sendingAllowed = true → pth.potentiallyFailed = false
  unprobed : 1 < m.paths.length → ∀ pth ∈ m.paths, q.offersUnprobed pth = true →
    pth.isOpen = true ∧ pth.potentiallyFailed = false
  preferred : 1 < m.paths.length → (∀ pth ∈ m.paths, q.offersUnprobed pth = false) →
    ∀ pth, Preferred q m.paths pth → pth.isOpen = true
  fewest : 1 < m.paths.length → ∀ pth, FewestSent q m.paths pth → pth.isOpen = true
  only : m.paths.length = 1 → ∀ pth ∈ m.paths, pth.pathID = initialPathID →
    pth.sendingAllowed = true ∨ q.hasRetransmission = true

section Considered

variable {q : Query} {pth : PathInfo}

theorem considers_iff : q.considers pth = true ↔
    (q.hasRetransmission = true ∨ pth.sendingAllowed = true) ∧ pth.potentiallyFailed = false ∧
      pth.pathID ≠ initialPathID := by
  simp [Query.considers, and_assoc]

theorem isOpen_of_sendingAllowed (hallowed : pth.sendingAllowed = true) : pth.isOpen = true := by
  unfold PathInfo.sendingAllowed at hallowed
  rw [Bool.and_eq_true] at hallowed
  exact hallowed.1

theorem eligible_of_considers (hcons : q.considers pth = true) (hopen : pth.isOpen = true) :
    q.Eligible pth := by
  obtain ⟨hsend, hfailed, hinitial⟩ := considers_iff.mp hcons
  refine ⟨hinitial, hopen, hfailed, fun hnone => ?_⟩
  rcases hsend with hretransmission | hallowed
  · rw [hnone] at hretransmission
    cases hretransmission
  · exact hallowed

theorem eligible_of_offersUnprobed (hoffers : q.offersUnprobed pth = true)
    (husable : pth.isOpen = true ∧ pth.potentiallyFailed = false) : q.Eligible pth := by
  unfold Query.offersUnprobed at hoffers
  split at hoffers
  · cases hoffers
  · simp only [Query.sentLess, Bool.and_eq_true, decide_eq_true_eq] at hoffers
    refine ⟨hoffers.2.1.1, husable.1, husable.2, fun hnone => ?_⟩
    rw [hnone] at hoffers
    cases hoffers.1.1.1

theorem selectUnprobed_eq (q : Query) (paths : List PathInfo) :
    selectUnprobed q paths = paths.find? q.offersUnprobed := by
  unfold selectUnprobed Query.offersUnprobed
  cases q.fromPth with
  | none =>
    dsimp only
    rw [List.find?_eq_none.mpr (by simp)]
  | some fromPth =>
    dsimp only
    split
    · rename_i hbranch
      simp [hbranch]
    · rename_i hbranch
      rw [List.find?_eq_none.mpr (by simp_all)]

theorem selectUnprobed_eq_none_iff (q : Query) (paths : List PathInfo) :
    selectUnprobed q paths = none ↔ ∀ pth ∈ paths, q.offersUnprobed pth = false := by
  rw [selectUnprobed_eq, List.find?_eq_none]
  simp only [Bool.not_eq_true]

end Considered

section RoundRobin

variable {q : Query} {seen paths : List PathInfo} {pth : PathInfo}

structure RoundRobin.Selects (q : Query) (seen : List PathInfo) (r : RoundRobin) : Prop where
  lower : ∀ other ∈ seen, q.considers other = true → r.lowerQuota ≤ q.quotas other.pathID
  none : r.selectedPath = none → r.lowerQuota = maxQuota
  some : ∀ pth, r.selectedPath = some pth → pth ∈ seen ∧ q.considers pth = true ∧
    r.lowerQuota = q.quotas pth.pathID ∧ r.lowerQuota < maxQuota

theorem RoundRobin.Selects.step {r : RoundRobin} (hr : r.Selects q seen) (pth : PathInfo) :
    (roundRobinStep q r pth).Selects q (seen ++ [pth]) := by
  have hkept (hlower : q.considers pth = true → r.lowerQuota ≤ q.quotas pth.pathID) :
      r.Selects q (seen ++ [pth]) := by
    refine ⟨fun other hother hcons => ?_, hr.none, fun cur hcur => ?_⟩
    · rcases mem_append.mp hother with hother | hother
      · exact hr.lower other hother hcons
      · obtain rfl := mem_singleton.mp hother
        exact hlower hcons
    · exact ⟨mem_append_left _ (hr.some cur hcur).1, (hr.some cur hcur).2⟩
  unfold roundRobinStep
  by_cases hcons : (!q.considers pth) = true
  · rw [if_pos hcons]
    exact hkept fun hconsidered => by simp [hconsidered] at hcons
  rw [if_neg hcons]
  by_cases hless : q.quotas pth.pathID < r.lowerQuota
  · rw [if_pos hless]
    have hmax : r.lowerQuota ≤ maxQuota := by
      cases hselected : r.selectedPath with
      | none => exact (hr.none hselected).le
      | some cur => exact (hr.some cur hselected).2.2.2.le
    refine ⟨fun other hother hconsidered => ?_, nofun, fun cur hcur => ?_⟩
    · rcases mem_append.mp hother with hother | hother
      · exact hless.le.trans (hr.lower other hother hconsidered)
      · obtain rfl := mem_singleton.mp hother
        exact le_refl _
    · obtain rfl := Option.some.inj hcur
      exact ⟨by simp, by simpa using hcons, rfl, hless.trans_le hmax⟩
  · rw [if_neg hless]
    exact hkept fun _ => not_lt.mp hless

theorem roundRobin_selects (rest : List PathInfo) {r : RoundRobin} (hr : r.Selects q seen) :
    (rest.foldl (roundRobinStep q) r).Selects q (seen ++ rest) := by
  induction rest generalizing r seen with
  | nil =>
    rw [append_nil]
    exact hr
  | cons pth rest ih =>
    have hnext := ih (hr.step pth)
    rw [append_assoc] at hnext
    exact hnext

theorem fewestSent_of_roundRobin
    (hselected : (paths.foldl (roundRobinStep q) ⟨none, maxQuota⟩).selectedPath = some pth) :
    FewestSent q paths pth := by
  have hstart : RoundRobin.Selects q [] ⟨none, maxQuota⟩ := ⟨by simp, fun _ => rfl, nofun⟩
  have hselects : RoundRobin.Selects q paths (paths.foldl (roundRobinStep q) ⟨none, maxQuota⟩) :=
    roundRobin_selects paths hstart
  obtain ⟨hmem, hcons, hquota, hmax⟩ := hselects.some pth hselected
  rw [hquota] at hmax
  refine ⟨hmem, hcons, hmax, fun other hother hconsidered => ?_⟩
  have hlower := hselects.lower other hother hconsidered
  rw [hquota] at hlower
  exact hlower

theorem roundRobin_keeps {rest : List PathInfo}
    (hfewest : ∀ other ∈ rest, q.considers other = true →
      q.quotas pth.pathID ≤ q.quotas other.pathID) :
    rest.foldl (roundRobinStep q) ⟨some pth, q.quotas pth.pathID⟩ =
      ⟨some pth, q.quotas pth.pathID⟩ := by
  induction rest with
  | nil => rfl
  | cons other rest ih =>
    have hstep : roundRobinStep q ⟨some pth, q.quotas pth.pathID⟩ other =
        ⟨some pth, q.quotas pth.pathID⟩ := by
      unfold roundRobinStep
      by_cases hcons : q.considers other = true
      · have hle := hfewest other (by simp) hcons
        simp [hcons, hle]
      · simp [hcons]
    rw [foldl_cons, hstep]
    exact ih fun another hanother => hfewest another (mem_cons_of_mem _ hanother)

theorem exists_order_of_fewestSent (hfewest : FewestSent q paths pth) :
    ∃ order : List PathInfo, order.Perm paths ∧
      (order.foldl (roundRobinStep q) ⟨none, maxQuota⟩).selectedPath = some pth := by
  have hperm : (pth :: paths.erase pth).Perm paths := (perm_cons_erase hfewest.mem).symm
  refine ⟨pth :: paths.erase pth, hperm, ?_⟩
  have hstep : roundRobinStep q ⟨none, maxQuota⟩ pth = ⟨some pth, q.quotas pth.pathID⟩ := by
    simp [roundRobinStep, hfewest.considered, hfewest.quota]
  rw [foldl_cons, hstep, roundRobin_keeps fun other hother =>
    hfewest.fewest other (mem_of_mem_erase hother)]

end RoundRobin

section LowLatency

variable {q : Query} {paths order : List PathInfo} {pth : PathInfo}

theorem Preferred.perm (hpref : Preferred q paths pth) (hperm : order.Perm paths) :
    Preferred q order pth :=
  ⟨hperm.mem_iff.mpr hpref.mem, hpref.considered,
    fun other hother => hpref.least other (hperm.mem_iff.mp hother),
    fun hzero other hother => hpref.fewest hzero other (hperm.mem_iff.mp hother)⟩

theorem FewestSent.perm (hfewest : FewestSent q paths pth) (hperm : order.Perm paths) :
    FewestSent q order pth :=
  ⟨hperm.mem_iff.mpr hfewest.mem, hfewest.considered, hfewest.quota,
    fun other hother => hfewest.fewest other (hperm.mem_iff.mp hother)⟩

theorem lowLatency_keeps {rest : List PathInfo} (hmeasured : pth.smoothedRTT ≠ 0)
    (hleast : ∀ other ∈ rest, q.considers other = true → other.smoothedRTT ≠ 0 →
      pth.smoothedRTT ≤ other.smoothedRTT) :
    rest.foldl (lowLatencyStep q) ⟨some pth, pth.smoothedRTT⟩ = ⟨some pth, pth.smoothedRTT⟩ := by
  induction rest with
  | nil => rfl
  | cons other rest ih =>
    have hstep : lowLatencyStep q ⟨some pth, pth.smoothedRTT⟩ other =
        ⟨some pth, pth.smoothedRTT⟩ := by
      unfold lowLatencyStep
      by_cases hcons : q.considers other = true
      · by_cases hzero : other.smoothedRTT = 0
        · simp [hcons, hmeasured, hzero]
        · simp [hcons, hmeasured, hzero, hleast other (by simp) hcons hzero]
      · simp [hcons]
    rw [foldl_cons, hstep]
    exact ih fun another hanother => hleast another (mem_cons_of_mem _ hanother)

theorem lowLatencyScan_append_unprobed {rest : List PathInfo} (hcons : q.considers pth = true)
    (hzero : pth.smoothedRTT = 0)
    (hall : ∀ other ∈ rest, q.considers other = true →
      other.smoothedRTT = 0 ∧ q.quotas pth.pathID ≤ q.quotas other.pathID) :
    (lowLatencyScan q (rest ++ [pth])).selectedPath = some pth := by
  have hselects := lowLatencyScan_selects q rest
  unfold lowLatencyScan at hselects ⊢
  rw [foldl_append, foldl_cons, foldl_nil]
  unfold Running.Selects at hselects
  generalize hr : rest.foldl (lowLatencyStep q) ⟨none, 0⟩ = r at hselects ⊢
  obtain ⟨selectedPath, lowerRTT⟩ := r
  cases selectedPath with
  | none =>
    obtain rfl : lowerRTT = 0 := hselects.1
    rw [lowLatencyStep_first hcons]
  | some cur =>
    obtain ⟨hlower, hcur⟩ := hselects
    obtain ⟨hcurZero, hquota⟩ := hall cur hcur.mem hcur.considered
    obtain rfl : lowerRTT = 0 := hlower.trans hcurZero
    simp [lowLatencyStep, hcons, hzero, numberOf, Nat.not_lt.mpr hquota]

theorem exists_order_of_preferred (hpref : Preferred q paths pth) :
    ∃ order : List PathInfo, order.Perm paths ∧ (lowLatencyScan q order).selectedPath = some pth := by
  by_cases hmeasured : pth.smoothedRTT = 0
  · refine ⟨paths.erase pth ++ [pth], ?_, lowLatencyScan_append_unprobed hpref.considered hmeasured ?_⟩
    · exact perm_append_comm.trans (perm_cons_erase hpref.mem).symm
    · intro other hother hcons
      have hmem := mem_of_mem_erase hother
      refine ⟨?_, hpref.fewest hmeasured other hmem hcons⟩
      by_contra hne
      exact (hpref.least other hmem hcons hne).1 hmeasured
  · refine ⟨pth :: paths.erase pth, (perm_cons_erase hpref.mem).symm, ?_⟩
    unfold lowLatencyScan
    rw [foldl_cons, lowLatencyStep_first hpref.considered, lowLatency_keeps hmeasured
      fun other hother hcons hne => (hpref.least other (mem_of_mem_erase hother) hcons hne).2]

theorem selectPathLowLatency_cases {early : List PathInfo} (hmany : 1 < paths.length)
    (hselected : selectPathLowLatency q early paths = some pth) :
    pth ∈ early ∧ q.offersUnprobed pth = true ∨
      (∀ other ∈ early, q.offersUnprobed other = false) ∧ Preferred q paths pth := by
  unfold selectPathLowLatency at hselected
  rw [if_neg (by omega)] at hselected
  cases hunprobed : selectUnprobed q early with
  | some found =>
    rw [hunprobed] at hselected
    obtain rfl := Option.some.inj hselected
    rw [selectUnprobed_eq] at hunprobed
    exact .inl ⟨List.mem_of_find?_eq_some hunprobed, List.find?_some hunprobed⟩
  | none =>
    rw [hunprobed] at hselected
    exact .inr ⟨(selectUnprobed_eq_none_iff q early).mp hunprobed,
      preferred_of_lowLatencyScan hselected⟩

end LowLatency

section Sufficient

variable {q : Query} {m : PathMap} {early paths others : List PathInfo} {pth : PathInfo}

section

variable (husable : PathsUsable q m)

include husable

theorem eligible_of_lowLatency (hmany : 1 < m.paths.length)
    (hearly : m.IsOrder early) (hpaths : m.IsOrder paths)
    (hselected : selectPathLowLatency q early paths = some pth) : q.Eligible pth := by
  have hlength : 1 < paths.length := by
    rw [hpaths.length_eq]
    exact hmany
  rcases selectPathLowLatency_cases hlength hselected with ⟨hmem, hoffers⟩ | ⟨hnone, hpref⟩
  · exact eligible_of_offersUnprobed hoffers
      (husable.unprobed hmany pth (hearly.mem_iff.mp hmem) hoffers)
  · exact eligible_of_considers hpref.considered (husable.preferred hmany
      (fun other hother => hnone other (hearly.mem_iff.mpr hother)) pth
      (hpref.perm hpaths.symm))

theorem eligible_of_roundRobin (hmany : 1 < m.paths.length)
    (hpaths : m.IsOrder paths) (hselected : selectPathRoundRobin q paths = some pth) :
    q.Eligible pth := by
  unfold selectPathRoundRobin at hselected
  rw [hpaths.length_eq, if_neg (by omega)] at hselected
  have hfewest := fewestSent_of_roundRobin hselected
  exact eligible_of_considers hfewest.considered
    (husable.fewest hmany pth (hfewest.perm hpaths.symm))

theorem eligible_of_selectPath (hmany : 1 < m.paths.length)
    (hearly : m.IsOrder early) (hpaths : m.IsOrder paths) {name : SchedulerName} {est : Estimates}
    (hselected : selectPath name q est early paths = some pth) : q.Eligible pth := by
  cases name with
  | rtt => exact eligible_of_lowLatency husable hmany hearly hpaths hselected
  | rr => exact eligible_of_roundRobin husable hmany hpaths hselected
  | blest =>
    exact eligible_of_lowLatency husable hmany hearly hpaths
      ((selectBLEST_eq q est.bSend early paths).symm.trans hselected)
  | ecf =>
    exact eligible_of_lowLatency husable hmany hearly hpaths
      ((selectECF_eq q est.waiting est.queueSize early paths).symm.trans hselected)
  | moooko => exact eligible_of_lowLatency husable hmany hearly hpaths hselected

theorem eligible_of_roundPaths (hmany : 1 < m.paths.length)
    (hearly : m.IsOrder early) (hpaths : m.IsOrder paths) (hothers : m.IsOrder others)
    (hmem : pth ∈ roundPaths q early paths others) : q.Eligible pth := by
  have hlength : paths.length ≠ 1 := by
    rw [hpaths.length_eq]
    omega
  unfold roundPaths at hmem
  dsimp only at hmem
  rw [if_neg hlength, append_nil] at hmem
  rcases mem_append.mp hmem with hfirst | hadded
  · exact eligible_of_lowLatency husable hmany hearly hpaths (Option.mem_toList.mp hfirst)
  · obtain ⟨hother, hadded⟩ := mem_filter.mp hadded
    simp only [Bool.and_eq_true, decide_eq_true_eq] at hadded
    obtain ⟨⟨hinitial, hallowed⟩, -⟩ := hadded
    exact ⟨hinitial, isOpen_of_sendingAllowed hallowed,
      husable.allowed hmany pth (hothers.mem_iff.mp hother) hinitial hallowed, fun _ => hallowed⟩

theorem sendable_of_only (honly : m.paths.length = 1)
    (hpaths : m.IsOrder paths) (hmem : pth ∈ roundPaths q early paths others) :
    pth.sendingAllowed = true ∨ q.hasRetransmission = true := by
  have hlength : paths.length = 1 := by
    rw [hpaths.length_eq]
    exact honly
  unfold roundPaths at hmem
  dsimp only at hmem
  rw [if_pos hlength] at hmem
  rcases mem_append.mp hmem with hmem | hmem
  · rcases mem_append.mp hmem with hfirst | hadded
    · have hselected := Option.mem_toList.mp hfirst
      unfold selectPathLowLatency selectOnlyPath at hselected
      rw [if_pos hlength.le] at hselected
      split at hselected
      · cases hselected
      · split at hselected
        · cases hselected
        · rename_i found _ hsend
          obtain rfl := Option.some.inj hselected
          simp only [Bool.and_eq_true, Bool.not_eq_true', not_and, Bool.not_eq_false] at hsend
          cases hretransmission : q.hasRetransmission with
          | true => exact .inr rfl
          | false => exact .inl (hsend hretransmission)
    · obtain ⟨-, hadded⟩ := mem_filter.mp hadded
      simp only [Bool.and_eq_true] at hadded
      exact .inl hadded.1.2
  · have hfound := Option.mem_toList.mp hmem
    exact husable.only honly pth (hpaths.mem_iff.mp (List.mem_of_find?_eq_some hfound))
      (by simpa using List.find?_some hfound)

theorem usesEligible_of_pathsUsable : UsesEligible q m where
  selected hmany _ _ _ _ hearly hpaths _ hselected :=
    eligible_of_selectPath husable hmany hearly hpaths hselected
  listed hmany _ _ _ hearly hpaths hothers _ hmem :=
    eligible_of_roundPaths husable hmany hearly hpaths hothers (hmem.elim id id)
  only honly _ _ _ _ hpaths _ _ hmem := sendable_of_only husable honly hpaths (hmem.elim id id)

end

end Sufficient

section Necessary

variable {q : Query} {m : PathMap} {early paths others : List PathInfo} {pth : PathInfo}

theorem selectPathLowLatency_of_scan {found : Option PathInfo} (hmany : 1 < paths.length)
    (hunprobed : selectUnprobed q early = none)
    (hscan : (lowLatencyScan q paths).selectedPath = found) :
    selectPathLowLatency q early paths = found := by
  unfold selectPathLowLatency
  rw [if_neg (by omega), hunprobed]
  exact hscan

theorem exists_order_of_offersUnprobed (hmem : pth ∈ m.paths) (hoffers : q.offersUnprobed pth = true) :
    ∃ order, m.IsOrder order ∧ selectUnprobed q order = some pth := by
  refine ⟨pth :: m.paths.erase pth, (perm_cons_erase hmem).symm, ?_⟩
  rw [selectUnprobed_eq, List.find?_cons, hoffers]

theorem mem_roundPaths_of_allowed (hmany : 1 < m.paths.length) (hmem : pth ∈ m.paths)
    (hinitial : pth.pathID ≠ initialPathID) (hallowed : pth.sendingAllowed = true) :
    pth ∈ roundPaths q m.paths m.paths m.paths := by
  unfold roundPaths
  dsimp only
  refine mem_append_left _ ?_
  cases hfirst : selectPathLowLatency q m.paths m.paths with
  | none =>
    refine mem_append_right _ (mem_filter.mpr ⟨hmem, ?_⟩)
    simp [hinitial, hallowed]
  | some first =>
    have hfirstMem : first ∈ m.paths := by
      rcases selectPathLowLatency_cases hmany hfirst with ⟨hfound, -⟩ | ⟨-, hpref⟩
      · exact hfound
      · exact hpref.mem
    by_cases hsame : pth.pathID = first.pathID
    · obtain rfl := inj_on_of_nodup_map m.nodup hmem hfirstMem hsame
      exact mem_append_left _ (by simp)
    · refine mem_append_right _ (mem_filter.mpr ⟨hmem, ?_⟩)
      simp [hinitial, hallowed, hsame]

theorem pathsUsable_of_usesEligible (huses : UsesEligible q m) : PathsUsable q m where
  allowed hmany pth hmem hinitial hallowed :=
    (huses.listed hmany _ _ _ (.refl _) (.refl _) (.refl _) pth
      (.inl (mem_roundPaths_of_allowed hmany hmem hinitial hallowed))).2.2.1
  unprobed hmany pth hmem hoffers := by
    obtain ⟨early, hearly, hselected⟩ := exists_order_of_offersUnprobed hmem hoffers
    have hreturned : selectPathLowLatency q early m.paths = some pth := by
      unfold selectPathLowLatency
      rw [if_neg (by omega), hselected]
    have heligible := huses.selected hmany .rtt ⟨0, 0, 0⟩ _ _ hearly (.refl _) pth hreturned
    exact ⟨heligible.2.1, heligible.2.2.1⟩
  preferred hmany hnone pth hpref := by
    obtain ⟨order, horder, hselected⟩ := exists_order_of_preferred hpref
    have hreturned : selectPathLowLatency q m.paths order = some pth := by
      refine selectPathLowLatency_of_scan ?_ ((selectUnprobed_eq_none_iff q m.paths).mpr hnone)
        hselected
      rw [horder.length_eq]
      exact hmany
    exact (huses.selected hmany .rtt ⟨0, 0, 0⟩ _ _ (.refl _) horder pth hreturned).2.1
  fewest hmany pth hfewest := by
    obtain ⟨order, horder, hselected⟩ := exists_order_of_fewestSent hfewest
    have hreturned : selectPathRoundRobin q order = some pth := by
      unfold selectPathRoundRobin
      rw [horder.length_eq, if_neg (by omega)]
      exact hselected
    exact (huses.selected hmany .rr ⟨0, 0, 0⟩ _ _ (.refl _) horder pth hreturned).2.1
  only honly pth hmem hinitial := by
    refine huses.only honly _ _ _ (.refl _) (.refl _) (.refl _) pth (.inl ?_)
    obtain ⟨only, hpaths⟩ := length_eq_one_iff.mp honly
    rw [hpaths, mem_singleton] at hmem
    unfold redundancyPaths roundPaths
    dsimp only
    refine mem_append_right _ ?_
    rw [if_pos honly, hpaths, ← hmem]
    simp [hinitial]

end Necessary

-- The schedulers use only eligible paths exactly if no usable path has failed and no path that a
-- retransmission can take is closed.
theorem paths_used_are_eligible_iff (q : Query) (m : PathMap) :
    UsesEligible q m ↔ PathsUsable q m :=
  ⟨pathsUsable_of_usesEligible, usesEligible_of_pathsUsable⟩

-- A retransmission takes a closed path, a round of the redundancy scheduler a failed one, and
-- the only path is used although its window is full.
theorem ineligible_paths_are_used :
    selectPathLowLatency { plainQuery with hasRetransmission := true } []
        [readyPath 0 5, { readyPath 1 30 with isOpen := false }] =
      some { readyPath 1 30 with isOpen := false } ∧
    redundancyPaths plainQuery [] [readyPath 0 5, { readyPath 1 30 with potentiallyFailed := true }]
        [readyPath 0 5, { readyPath 1 30 with potentiallyFailed := true }] =
      [{ readyPath 1 30 with potentiallyFailed := true }] ∧
    redundancyPaths plainQuery [] [{ readyPath 0 5 with handlerAllows := false }]
        [{ readyPath 0 5 with handlerAllows := false }] =
      [{ readyPath 0 5 with handlerAllows := false }] := by
  decide

end MpQuic.Scheduler

import MpQuic.Scheduler.Order

namespace MpQuic.Scheduler

open List

-- What the schedulers read of a path. The congestion control is in `handlerAllows`, which is
-- the `SendingAllowed` of the path's packet handler.
structure PathInfo where
  pathID : Nat
  isOpen : Bool
  handlerAllows : Bool
  potentiallyFailed : Bool
  smoothedRTT : Int
  meanDeviation : Int
  cwnd : UInt64
  bytesInflight : UInt64
  deriving DecidableEq

def PathInfo.sendingAllowed (pth : PathInfo) : Bool :=
  pth.isOpen && pth.handlerAllows

-- The arguments of a selection, and the numbers of packets that were sent on the paths. With a
-- retransmission there is a path that it comes from.
structure Query where
  quotas : Nat → Nat
  hasRetransmission : Bool
  hasStreamRetransmission : Bool
  fromPth : Option PathInfo

def selectOnlyPath (q : Query) (paths : List PathInfo) : Option PathInfo :=
  match paths.find? (·.pathID = initialPathID) with
  | none => none
  | some pth => if !q.hasRetransmission && !pth.sendingAllowed then none else some pth

def Query.sentLess (q : Query) (fromPth pth : PathInfo) : Bool :=
  pth.pathID ≠ initialPathID && pth.pathID ≠ fromPth.pathID &&
    q.quotas pth.pathID < q.quotas fromPth.pathID

def selectUnprobed (q : Query) (paths : List PathInfo) : Option PathInfo :=
  match q.fromPth with
  | none => none
  | some fromPth =>
    if q.hasRetransmission && q.hasStreamRetransmission && fromPth.smoothedRTT = 0 then
      paths.find? (q.sentLess fromPth)
    else none

def Query.considers (q : Query) (pth : PathInfo) : Bool :=
  (q.hasRetransmission || pth.sendingAllowed) && !pth.potentiallyFailed &&
    pth.pathID ≠ initialPathID

structure Running where
  selectedPath : Option PathInfo
  lowerRTT : Int

-- The number that stands for no path is 255.
def numberOf (pth : Option PathInfo) : Nat :=
  (pth.map PathInfo.pathID).getD 255

def lowLatencyStep (q : Query) (r : Running) (pth : PathInfo) : Running :=
  if !q.considers pth then r
  else if r.lowerRTT ≠ 0 ∧ pth.smoothedRTT = 0 then r
  else if pth.smoothedRTT = 0 ∧ r.selectedPath.isSome ∧
      q.quotas pth.pathID > q.quotas (numberOf r.selectedPath) then r
  else if pth.smoothedRTT ≠ 0 ∧ r.lowerRTT ≠ 0 ∧ r.selectedPath.isSome ∧
      pth.smoothedRTT ≥ r.lowerRTT then r
  else ⟨some pth, pth.smoothedRTT⟩

def lowLatencyScan (q : Query) (paths : List PathInfo) : Running :=
  paths.foldl (lowLatencyStep q) ⟨none, 0⟩

def selectPathLowLatency (q : Query) (early paths : List PathInfo) : Option PathInfo :=
  if paths.length ≤ 1 then selectOnlyPath q paths
  else
    match selectUnprobed q early with
    | some pth => some pth
    | none => (lowLatencyScan q paths).selectedPath

-- The loop of `selectBLEST` and `selectECF`, which also looks for a second path.
structure FastAndSlow where
  bestPath : Option PathInfo
  secondBestPath : Option PathInfo
  lowerRTT : Int
  secondLowerRTT : Int

def FastAndSlow.noteSecond (r : FastAndSlow) (pth : PathInfo) : FastAndSlow :=
  if (r.secondLowerRTT = 0 ∨ pth.smoothedRTT < r.secondLowerRTT) ∧ pth.sendingAllowed then
    { r with secondLowerRTT := pth.smoothedRTT, secondBestPath := some pth }
  else r

def fastAndSlowStep (q : Query) (r : FastAndSlow) (pth : PathInfo) : FastAndSlow :=
  if !q.considers pth then r
  else if r.lowerRTT ≠ 0 ∧ pth.smoothedRTT = 0 then r
  else if pth.smoothedRTT = 0 ∧ r.bestPath.isSome ∧
      q.quotas pth.pathID > q.quotas (numberOf r.bestPath) then r
  else if pth.smoothedRTT ≥ r.lowerRTT then
    let r := r.noteSecond pth
    if pth.smoothedRTT ≠ 0 ∧ r.lowerRTT ≠ 0 ∧ r.bestPath.isSome then r
    else { r with lowerRTT := pth.smoothedRTT, bestPath := some pth }
  else { r with lowerRTT := pth.smoothedRTT, bestPath := some pth }

def fastAndSlowScan (q : Query) (paths : List PathInfo) : FastAndSlow :=
  paths.foldl (fastAndSlowStep q) ⟨none, none, 0, 0⟩

def defaultTCPMSS : UInt64 := 1460

-- BLEST waits for the fast path if the slow one would block the send window.
def blestWaits (bSend : UInt64) (r : FastAndSlow) (best second : PathInfo) : Bool :=
  let lowerRTT := UInt64.ofInt r.lowerRTT
  let secondLowerRTT := UInt64.ofInt r.secondLowerRTT
  let firstCo :=
    defaultTCPMSS * secondLowerRTT * (best.cwnd * 2 * lowerRTT + secondLowerRTT - lowerRTT)
  let secondCo := 2 * 1 * lowerRTT * lowerRTT * (bSend - (second.bytesInflight + defaultTCPMSS))
  firstCo > secondCo

def selectBLEST (q : Query) (bSend : UInt64) (early paths : List PathInfo) : Option PathInfo :=
  if paths.length ≤ 1 then selectOnlyPath q paths
  else
    match selectUnprobed q early with
    | some pth => some pth
    | none =>
      let r := fastAndSlowScan q paths
      match r.bestPath with
      | none => r.secondBestPath
      | some best =>
        if q.hasRetransmission || best.sendingAllowed then some best
        else
          match r.secondBestPath with
          | none => none
          | some second => if blestWaits bSend r best second then none else some second

-- The decision of ECF between the two paths, and its new waiting flag.
def ecfDecision (waiting queueSize : UInt64) (r : FastAndSlow) (best second : PathInfo) :
    Option PathInfo × UInt64 :=
  let lowerRTT := UInt64.ofInt r.lowerRTT
  let secondLowerRTT := UInt64.ofInt r.secondLowerRTT
  let deviationBest := UInt64.ofInt best.meanDeviation
  let deviationSecond := UInt64.ofInt second.meanDeviation
  let delta := if deviationBest < deviationSecond then deviationSecond else deviationBest
  let xBest := if queueSize < best.cwnd then best.cwnd else queueSize
  let lhs := lowerRTT * (xBest + best.cwnd)
  let rhs := best.cwnd * (secondLowerRTT + delta)
  if lhs * 4 < rhs * 4 + waiting * rhs then
    let xSecond := if queueSize < second.cwnd then second.cwnd else queueSize
    let lhsSecond := secondLowerRTT * xSecond
    let rhsSecond := second.cwnd * (2 * lowerRTT + delta)
    if lhsSecond > rhsSecond then (none, 1) else (some second, waiting)
  else (some second, 0)

def selectECF (q : Query) (waiting queueSize : UInt64) (early paths : List PathInfo) :
    Option PathInfo × UInt64 :=
  if paths.length ≤ 1 then (selectOnlyPath q paths, waiting)
  else
    match selectUnprobed q early with
    | some pth => (some pth, waiting)
    | none =>
      let r := fastAndSlowScan q paths
      match r.bestPath with
      | none => (r.secondBestPath, waiting)
      | some best =>
        if q.hasRetransmission || best.sendingAllowed then (some best, waiting)
        else
          match r.secondBestPath with
          | none => (none, waiting)
          | some second => ecfDecision waiting queueSize r best second

section Minimum

variable {q : Query} {seen paths : List PathInfo} {pth : PathInfo}

structure Preferred (q : Query) (paths : List PathInfo) (pth : PathInfo) : Prop where
  mem : pth ∈ paths
  considered : q.considers pth = true
  least : ∀ other ∈ paths, q.considers other = true → other.smoothedRTT ≠ 0 →
    pth.smoothedRTT ≠ 0 ∧ pth.smoothedRTT ≤ other.smoothedRTT
  fewest : pth.smoothedRTT = 0 → ∀ other ∈ paths, q.considers other = true →
    q.quotas pth.pathID ≤ q.quotas other.pathID

def Running.Selects (q : Query) (seen : List PathInfo) (r : Running) : Prop :=
  match r.selectedPath with
  | none => r.lowerRTT = 0 ∧ ∀ other ∈ seen, q.considers other = false
  | some pth => r.lowerRTT = pth.smoothedRTT ∧ Preferred q seen pth

theorem Preferred.append_other (hpref : Preferred q seen pth) {other : PathInfo}
    (hother : q.considers other = true → (other.smoothedRTT ≠ 0 →
      pth.smoothedRTT ≠ 0 ∧ pth.smoothedRTT ≤ other.smoothedRTT) ∧
      (pth.smoothedRTT = 0 → q.quotas pth.pathID ≤ q.quotas other.pathID)) :
    Preferred q (seen ++ [other]) pth := by
  refine ⟨mem_append_left _ hpref.mem, hpref.considered, fun x hx hcons hne => ?_,
    fun hzero x hx hcons => ?_⟩
  · rcases mem_append.mp hx with hx | hx
    · exact hpref.least x hx hcons hne
    · obtain rfl := mem_singleton.mp hx
      exact (hother hcons).1 hne
  · rcases mem_append.mp hx with hx | hx
    · exact hpref.fewest hzero x hx hcons
    · obtain rfl := mem_singleton.mp hx
      exact (hother hcons).2 hzero

theorem preferred_append_new (hcons : q.considers pth = true)
    (hleast : ∀ other ∈ seen, q.considers other = true → other.smoothedRTT ≠ 0 →
      pth.smoothedRTT ≠ 0 ∧ pth.smoothedRTT ≤ other.smoothedRTT)
    (hfewest : pth.smoothedRTT = 0 → ∀ other ∈ seen, q.considers other = true →
      q.quotas pth.pathID ≤ q.quotas other.pathID) :
    Preferred q (seen ++ [pth]) pth := by
  refine ⟨mem_append_right _ (mem_singleton.mpr rfl), hcons, fun x hx hx' hne => ?_,
    fun hzero x hx hx' => ?_⟩
  · rcases mem_append.mp hx with hx | hx
    · exact hleast x hx hx' hne
    · obtain rfl := mem_singleton.mp hx
      exact ⟨hne, le_refl _⟩
  · rcases mem_append.mp hx with hx | hx
    · exact hfewest hzero x hx hx'
    · obtain rfl := mem_singleton.mp hx
      exact le_refl _

theorem lowLatencyStep_first (hcons : q.considers pth = true) :
    lowLatencyStep q ⟨none, 0⟩ pth = ⟨some pth, pth.smoothedRTT⟩ := by
  simp [lowLatencyStep, hcons]

theorem Running.Selects.step_first {lowerRTT : Int} (hr : Running.Selects q seen ⟨none, lowerRTT⟩)
    (hcons : q.considers pth = true) :
    (lowLatencyStep q ⟨none, lowerRTT⟩ pth).Selects q (seen ++ [pth]) := by
  obtain ⟨hzero, hnone⟩ := hr
  obtain rfl : lowerRTT = 0 := hzero
  have hskip : ∀ other ∈ seen, ¬q.considers other = true :=
    fun other hother => by simp [hnone other hother]
  rw [lowLatencyStep_first hcons]
  exact ⟨rfl, preferred_append_new hcons
    (fun other hother hconsidered => absurd hconsidered (hskip other hother))
    fun _ other hother hconsidered => absurd hconsidered (hskip other hother)⟩

variable {r : Running}

theorem Running.Selects.step_next {cur : PathInfo} (hselected : r.selectedPath = some cur)
    (hlower : r.lowerRTT = cur.smoothedRTT) (hcur : Preferred q seen cur)
    (hcons : q.considers pth = true) : (lowLatencyStep q r pth).Selects q (seen ++ [pth]) := by
  have hkept (hpref : Preferred q (seen ++ [pth]) cur) : r.Selects q (seen ++ [pth]) := by
    unfold Running.Selects
    rw [hselected]
    exact ⟨hlower, hpref⟩
  have hnumber : numberOf r.selectedPath = cur.pathID := by
    rw [hselected]
    rfl
  have hsome : r.selectedPath.isSome = true := by
    rw [hselected]
    rfl
  unfold lowLatencyStep
  rw [if_neg (by simp [hcons]), hlower, hnumber]
  by_cases hunprobed : cur.smoothedRTT ≠ 0 ∧ pth.smoothedRTT = 0
  · rw [if_pos hunprobed]
    exact hkept (hcur.append_other fun _ => ⟨fun hne => absurd hunprobed.2 hne,
      fun hzero => absurd hzero hunprobed.1⟩)
  rw [if_neg hunprobed]
  by_cases hmore : pth.smoothedRTT = 0 ∧ q.quotas pth.pathID > q.quotas cur.pathID
  · rw [if_pos ⟨hmore.1, hsome, hmore.2⟩]
    exact hkept (hcur.append_other fun _ => ⟨fun hne => absurd hmore.1 hne, fun _ => hmore.2.le⟩)
  rw [if_neg fun h => hmore ⟨h.1, h.2.2⟩]
  by_cases hslower : pth.smoothedRTT ≠ 0 ∧ cur.smoothedRTT ≠ 0 ∧
      pth.smoothedRTT ≥ cur.smoothedRTT
  · rw [if_pos ⟨hslower.1, hslower.2.1, hsome, hslower.2.2⟩]
    exact hkept (hcur.append_other fun _ => ⟨fun _ => hslower.2,
      fun hzero => absurd hzero hslower.2.1⟩)
  rw [if_neg fun h => hslower ⟨h.1, h.2.1, h.2.2.2⟩]
  refine ⟨rfl, preferred_append_new hcons (fun other hother hconsidered hne => ?_)
    fun hzero other hother hconsidered => ?_⟩
  · obtain ⟨hmeasured, hle⟩ := hcur.least other hother hconsidered hne
    have hpth : pth.smoothedRTT ≠ 0 := fun hzero => hunprobed ⟨hmeasured, hzero⟩
    have hless : pth.smoothedRTT < cur.smoothedRTT :=
      not_le.mp fun hge => hslower ⟨hpth, hmeasured, hge⟩
    exact ⟨hpth, hless.le.trans hle⟩
  · have hcurZero : cur.smoothedRTT = 0 := by
      by_contra hmeasured
      exact hunprobed ⟨hmeasured, hzero⟩
    have hquota : q.quotas pth.pathID ≤ q.quotas cur.pathID :=
      not_lt.mp fun hlt => hmore ⟨hzero, hlt⟩
    exact hquota.trans (hcur.fewest hcurZero other hother hconsidered)

theorem Running.Selects.step (hr : r.Selects q seen) (pth : PathInfo) :
    (lowLatencyStep q r pth).Selects q (seen ++ [pth]) := by
  obtain ⟨selectedPath, lowerRTT⟩ := r
  by_cases hcons : q.considers pth = true
  · cases selectedPath with
    | none => exact hr.step_first hcons
    | some cur =>
      obtain ⟨hlower, hcur⟩ := hr
      exact step_next rfl hlower hcur hcons
  · have hstep : lowLatencyStep q ⟨selectedPath, lowerRTT⟩ pth = ⟨selectedPath, lowerRTT⟩ := by
      simp [lowLatencyStep, hcons]
    rw [hstep]
    cases selectedPath with
    | none =>
      obtain ⟨hzero, hnone⟩ := hr
      refine ⟨hzero, fun other hother => ?_⟩
      rcases mem_append.mp hother with hother | hother
      · exact hnone other hother
      · obtain rfl := mem_singleton.mp hother
        simpa using hcons
    | some cur =>
      obtain ⟨hlower, hcur⟩ := hr
      exact ⟨hlower, hcur.append_other fun hconsidered => absurd hconsidered hcons⟩

theorem selects_foldl (rest : List PathInfo) (hr : r.Selects q seen) :
    (rest.foldl (lowLatencyStep q) r).Selects q (seen ++ rest) := by
  induction rest generalizing r seen with
  | nil =>
    rw [append_nil]
    exact hr
  | cons pth rest ih =>
    have hnext := ih (hr.step pth)
    rw [append_assoc] at hnext
    exact hnext

theorem lowLatencyScan_selects (q : Query) (paths : List PathInfo) :
    (lowLatencyScan q paths).Selects q paths := by
  have hstart : Running.Selects q [] ⟨none, 0⟩ := ⟨rfl, by simp⟩
  exact selects_foldl paths hstart

theorem lowLatencyScan_eq_none_iff (q : Query) (paths : List PathInfo) :
    (lowLatencyScan q paths).selectedPath = none ↔ ∀ pth ∈ paths, q.considers pth = false := by
  have hselects := lowLatencyScan_selects q paths
  unfold Running.Selects at hselects
  cases hselected : (lowLatencyScan q paths).selectedPath with
  | none =>
    rw [hselected] at hselects
    exact ⟨fun _ => hselects.2, fun _ => rfl⟩
  | some pth =>
    rw [hselected] at hselects
    refine ⟨nofun, fun hall => ?_⟩
    have hconsidered := hselects.2.considered
    rw [hall pth hselects.2.mem] at hconsidered
    cases hconsidered

theorem preferred_of_lowLatencyScan (hselected : (lowLatencyScan q paths).selectedPath = some pth) :
    Preferred q paths pth := by
  have hselects := lowLatencyScan_selects q paths
  unfold Running.Selects at hselects
  rw [hselected] at hselects
  exact hselects.2

end Minimum

-- If the early branch finds no path, a path is returned unless none is considered, and it has
-- the least RTT that was measured, or the least quota if there is no measurement.
theorem low_latency_picks_minimum (q : Query) (early paths : List PathInfo)
    (hmany : 1 < paths.length) (hearly : selectUnprobed q early = none) :
    (selectPathLowLatency q early paths = none ↔ ∀ pth ∈ paths, q.considers pth = false) ∧
      ∀ pth, selectPathLowLatency q early paths = some pth →
        pth ∈ paths ∧ q.considers pth = true ∧
        ((∃ other ∈ paths, q.considers other = true ∧ other.smoothedRTT ≠ 0) →
          pth.smoothedRTT ≠ 0 ∧ ∀ other ∈ paths, q.considers other = true →
            other.smoothedRTT ≠ 0 → pth.smoothedRTT ≤ other.smoothedRTT) ∧
        ((∀ other ∈ paths, q.considers other = true → other.smoothedRTT = 0) →
          ∀ other ∈ paths, q.considers other = true →
            q.quotas pth.pathID ≤ q.quotas other.pathID) := by
  have hscan : selectPathLowLatency q early paths = (lowLatencyScan q paths).selectedPath := by
    unfold selectPathLowLatency
    rw [if_neg (by omega), hearly]
  rw [hscan]
  refine ⟨lowLatencyScan_eq_none_iff q paths, fun pth hselected => ?_⟩
  have hpref := preferred_of_lowLatencyScan hselected
  refine ⟨hpref.mem, hpref.considered, ?_, ?_⟩
  · rintro ⟨other, hother, hconsidered, hne⟩
    exact ⟨(hpref.least other hother hconsidered hne).1, fun another hanother hcons hne' =>
      (hpref.least another hanother hcons hne').2⟩
  · intro hall
    exact hpref.fewest (hall pth hpref.mem hpref.considered)

def readyPath (pathID : Nat) (smoothedRTT : Int) : PathInfo :=
  ⟨pathID, true, true, false, smoothedRTT, 0, 14600, 0⟩

def plainQuery : Query :=
  ⟨fun _ => 0, false, false, none⟩

theorem low_latency_picks_minimum_example :
    selectPathLowLatency plainQuery [] [readyPath 0 5, readyPath 1 30, readyPath 3 20] =
        some (readyPath 3 20) ∧
      ∀ other ∈ [readyPath 0 5, readyPath 1 30, readyPath 3 20],
        plainQuery.considers other = true → other.smoothedRTT ≠ 0 → 20 ≤ other.smoothedRTT := by
  have hselected :
      selectPathLowLatency plainQuery [] [readyPath 0 5, readyPath 1 30, readyPath 3 20] =
        some (readyPath 3 20) := by decide
  have hspec := (low_latency_picks_minimum plainQuery []
    [readyPath 0 5, readyPath 1 30, readyPath 3 20] (by decide) rfl).2 _ hselected
  exact ⟨hselected, (hspec.2.2.1 ⟨readyPath 3 20, by decide, by decide, by decide⟩).2⟩

section Refinement

variable {q : Query}

def FastAndSlow.Follows (r : FastAndSlow) (s : Running) : Prop :=
  s.selectedPath = r.bestPath ∧ s.lowerRTT = r.lowerRTT

theorem bestPath_noteSecond (r : FastAndSlow) (pth : PathInfo) :
    (r.noteSecond pth).bestPath = r.bestPath ∧ (r.noteSecond pth).lowerRTT = r.lowerRTT := by
  unfold FastAndSlow.noteSecond
  split <;> exact ⟨rfl, rfl⟩

variable {r : FastAndSlow} {s : Running}

theorem FastAndSlow.Follows.step (hfollows : r.Follows s)
    (pth : PathInfo) : (fastAndSlowStep q r pth).Follows (lowLatencyStep q s pth) := by
  obtain ⟨hselected, hlower⟩ := hfollows
  obtain ⟨hbest, hnoted⟩ := bestPath_noteSecond r pth
  unfold fastAndSlowStep lowLatencyStep
  dsimp only
  rw [hselected, hlower, hbest, hnoted]
  by_cases hcons : (!q.considers pth) = true
  · rw [if_pos hcons, if_pos hcons]
    exact ⟨hselected, hlower⟩
  rw [if_neg hcons, if_neg hcons]
  by_cases hunprobed : r.lowerRTT ≠ 0 ∧ pth.smoothedRTT = 0
  · rw [if_pos hunprobed, if_pos hunprobed]
    exact ⟨hselected, hlower⟩
  rw [if_neg hunprobed, if_neg hunprobed]
  by_cases hmore : pth.smoothedRTT = 0 ∧ r.bestPath.isSome ∧
      q.quotas pth.pathID > q.quotas (numberOf r.bestPath)
  · rw [if_pos hmore, if_pos hmore]
    exact ⟨hselected, hlower⟩
  rw [if_neg hmore, if_neg hmore]
  by_cases hge : pth.smoothedRTT ≥ r.lowerRTT
  · rw [if_pos hge]
    by_cases hkeep : pth.smoothedRTT ≠ 0 ∧ r.lowerRTT ≠ 0 ∧ r.bestPath.isSome = true
    · rw [if_pos hkeep, if_pos ⟨hkeep.1, hkeep.2.1, hkeep.2.2, hge⟩]
      exact ⟨hselected.trans hbest.symm, hlower.trans hnoted.symm⟩
    · rw [if_neg hkeep, if_neg fun h => hkeep ⟨h.1, h.2.1, h.2.2.1⟩]
      exact ⟨rfl, rfl⟩
  · rw [if_neg hge, if_neg fun h => hge h.2.2.2]
    exact ⟨rfl, rfl⟩

theorem secondBestPath_fastAndSlowStep (pth : PathInfo)
    (hr : r.bestPath = none → r.secondBestPath = none) :
    (fastAndSlowStep q r pth).bestPath = none → (fastAndSlowStep q r pth).secondBestPath = none := by
  unfold fastAndSlowStep
  dsimp only
  split_ifs with hcons hunprobed hmore hge hkeep
  · exact hr
  · exact hr
  · exact hr
  · intro hnone
    rw [hnone] at hkeep
    cases hkeep.2.2
  · nofun
  · nofun

theorem follows_foldl (rest : List PathInfo)
    (hfollows : r.Follows s) (hr : r.bestPath = none → r.secondBestPath = none) :
    (rest.foldl (fastAndSlowStep q) r).Follows (rest.foldl (lowLatencyStep q) s) ∧
      ((rest.foldl (fastAndSlowStep q) r).bestPath = none →
        (rest.foldl (fastAndSlowStep q) r).secondBestPath = none) := by
  induction rest generalizing r s with
  | nil => exact ⟨hfollows, hr⟩
  | cons pth rest ih => exact ih (hfollows.step pth) (secondBestPath_fastAndSlowStep pth hr)

theorem bestPath_cases (q : Query) (paths : List PathInfo) :
    ((fastAndSlowScan q paths).bestPath = none ∧ (fastAndSlowScan q paths).secondBestPath = none ∧
        (lowLatencyScan q paths).selectedPath = none) ∨
      ∃ best, (fastAndSlowScan q paths).bestPath = some best ∧
        (q.hasRetransmission || best.sendingAllowed) = true ∧
        (lowLatencyScan q paths).selectedPath = some best := by
  have hstart : FastAndSlow.Follows ⟨none, none, 0, 0⟩ ⟨none, 0⟩ := ⟨rfl, rfl⟩
  obtain ⟨⟨hselected, -⟩, hsecond⟩ :
      (fastAndSlowScan q paths).Follows (lowLatencyScan q paths) ∧
        ((fastAndSlowScan q paths).bestPath = none →
          (fastAndSlowScan q paths).secondBestPath = none) :=
    follows_foldl paths hstart fun _ => rfl
  cases hbest : (fastAndSlowScan q paths).bestPath with
  | none => exact .inl ⟨rfl, hsecond hbest, hselected.trans hbest⟩
  | some best =>
    have hconsidered := (preferred_of_lowLatencyScan (hselected.trans hbest)).considered
    unfold Query.considers at hconsidered
    rw [Bool.and_eq_true, Bool.and_eq_true] at hconsidered
    exact .inr ⟨best, rfl, hconsidered.1.1, hselected.trans hbest⟩

theorem selectBLEST_eq (q : Query) (bSend : UInt64) (early paths : List PathInfo) :
    selectBLEST q bSend early paths = selectPathLowLatency q early paths := by
  unfold selectBLEST selectPathLowLatency
  by_cases honly : paths.length ≤ 1
  · rw [if_pos honly, if_pos honly]
  rw [if_neg honly, if_neg honly]
  cases selectUnprobed q early with
  | some pth => rfl
  | none =>
    rcases bestPath_cases q paths with ⟨hbest, hsecond, hselected⟩ | ⟨best, hbest, huse, hselected⟩
    · simp only [hbest, hsecond, hselected]
    · simp only [hbest, huse, hselected, if_true]

theorem selectECF_eq (q : Query) (waiting queueSize : UInt64) (early paths : List PathInfo) :
    (selectECF q waiting queueSize early paths).1 = selectPathLowLatency q early paths := by
  unfold selectECF selectPathLowLatency
  by_cases honly : paths.length ≤ 1
  · rw [if_pos honly, if_pos honly]
  rw [if_neg honly, if_neg honly]
  cases selectUnprobed q early with
  | some pth => rfl
  | none =>
    rcases bestPath_cases q paths with ⟨hbest, hsecond, hselected⟩ | ⟨best, hbest, huse, hselected⟩
    · simp only [hbest, hsecond, hselected]
    · simp only [hbest, huse, hselected, if_true]

end Refinement

-- The estimates of BLEST and ECF never change the choice of the minimum RTT scheduler.
theorem blest_and_ecf_select_low_latency (q : Query) (bSend waiting queueSize : UInt64)
    (early paths : List PathInfo) :
    selectBLEST q bSend early paths = selectPathLowLatency q early paths ∧
      (selectECF q waiting queueSize early paths).1 = selectPathLowLatency q early paths :=
  ⟨selectBLEST_eq q bSend early paths, selectECF_eq q waiting queueSize early paths⟩

end MpQuic.Scheduler

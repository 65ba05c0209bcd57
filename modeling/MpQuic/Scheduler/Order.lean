import MpQuic.Library.Selection

namespace MpQuic.Scheduler

open MpQuic.Library

def initialPathID : Nat := 0

-- The body of the inner loop of `orderPaths`, with the delay that was found so far and its
-- position. It is the position that is compared with the number of the initial path.
def compareDelay (stateOwd : Nat → Nat) (i : Nat) (found : Nat × Nat) (entry : Nat × Nat) :
    Nat × Nat :=
  if entry.2 < i then found
  else if entry.2 = initialPathID then found
  else
    let now := stateOwd entry.1
    if now < found.1 ∧ now ≠ 0 ∨ now > found.1 ∧ found.1 = 0 then (now, entry.2) else found

def placeNext (stateOwd : Nat → Nat) (st : List Nat × Nat) (i : Nat) : List Nat × Nat :=
  match st.1[i]? with
  | none => st
  | some ori =>
    let found := st.1.zipIdx.foldl (compareDelay stateOwd i) (stateOwd ori, i)
    (swap st.1 i found.2, found.1)

-- The paths in the order of their one-way delays, and the delay that was found last. The
-- map of paths is gone through in some order, and a delay of zero was not measured yet.
def orderPaths (paths : List Nat) (stateOwd : Nat → Nat) : List Nat × Nat :=
  let pathOrder := paths.filter (· ≠ initialPathID)
  let placed := (List.range pathOrder.length).foldl (placeNext stateOwd) (pathOrder, 0)
  (placed.1 ++ [initialPathID], placed.2)

def delayRank (d : Nat) : WithTop Nat :=
  if d = 0 then ⊤ else d

theorem delayRank_zero : delayRank 0 = ⊤ :=
  if_pos rfl

theorem delayRank_of_ne {d : Nat} (hd : d ≠ 0) : delayRank d = d :=
  if_neg hd

theorem delayRank_le_iff (d e : Nat) : delayRank d ≤ delayRank e ↔ e = 0 ∨ d ≠ 0 ∧ d ≤ e := by
  by_cases he : e = 0
  · simp [he, delayRank_zero]
  · by_cases hd : d = 0
    · simp [hd, he, delayRank_zero, delayRank_of_ne he]
    · simp [hd, he, delayRank_of_ne he, delayRank_of_ne hd]

theorem delayRank_lt_iff (now min : Nat) :
    delayRank now < delayRank min ↔ now < min ∧ now ≠ 0 ∨ now > min ∧ min = 0 := by
  rw [← not_le, delayRank_le_iff]
  omega

section Scan

variable {stateOwd : Nat → Nat} {l : List Nat} {i : Nat}

structure Found (stateOwd : Nat → Nat) (l : List Nat) (i k : Nat) (found : Nat × Nat) : Prop where
  position : i ≤ found.2
  delay : ∃ pathID, l[found.2]? = some pathID ∧ found.1 = stateOwd pathID
  least : ∀ j pathID, i ≤ j → j < k ∨ j = i → l[j]? = some pathID →
    delayRank found.1 ≤ delayRank (stateOwd pathID)

theorem Found.next {k pathID : Nat} {found : Nat × Nat} (hfound : Found stateOwd l i k found)
    (hk : l[k]? = some pathID) :
    Found stateOwd l i (k + 1) (compareDelay stateOwd i found (pathID, k)) := by
  unfold compareDelay
  dsimp only
  by_cases hki : k < i
  · rw [if_pos hki]
    exact ⟨hfound.position, hfound.delay, fun j p hj hjk => hfound.least j p hj (by omega)⟩
  rw [if_neg hki]
  by_cases hzero : k = initialPathID
  · -- The position 0 is compared by no one, but it is the one that the scan starts with.
    rw [if_pos hzero]
    unfold initialPathID at hzero
    exact ⟨hfound.position, hfound.delay, fun j p hj hjk => hfound.least j p hj (by omega)⟩
  rw [if_neg hzero]
  by_cases hless : delayRank (stateOwd pathID) < delayRank found.1
  · rw [if_pos ((delayRank_lt_iff _ _).mp hless)]
    refine ⟨by omega, ⟨pathID, hk, rfl⟩, fun j p hj hjk hp => ?_⟩
    rcases Nat.lt_or_ge j k with hlt | hge
    · exact hless.le.trans (hfound.least j p hj (.inl hlt) hp)
    · by_cases hji : j = i
      · exact hless.le.trans (hfound.least j p hj (.inr hji) hp)
      · obtain rfl : j = k := by omega
        obtain rfl : pathID = p := Option.some.inj (hk.symm.trans hp)
        exact le_refl _
  · rw [if_neg fun hcond => hless ((delayRank_lt_iff _ _).mpr hcond)]
    refine ⟨hfound.position, hfound.delay, fun j p hj hjk hp => ?_⟩
    by_cases hlt : j < k ∨ j = i
    · exact hfound.least j p hj hlt hp
    · obtain rfl : j = k := by omega
      obtain rfl : pathID = p := Option.some.inj (hk.symm.trans hp)
      exact not_lt.mp hless

theorem found_scan (rest : List Nat) {k : Nat} {found : Nat × Nat}
    (hrest : ∀ n, rest[n]? = l[k + n]?) (hfound : Found stateOwd l i k found) :
    Found stateOwd l i (k + rest.length)
      ((rest.zipIdx k).foldl (compareDelay stateOwd i) found) := by
  induction rest generalizing k found with
  | nil => exact hfound
  | cons pathID rest ih =>
    have hhead : l[k]? = some pathID := (hrest 0).symm
    have htail : ∀ n, rest[n]? = l[k + 1 + n]? := fun n => by
      rw [show k + 1 + n = k + (n + 1) by omega, ← hrest (n + 1), List.getElem?_cons_succ]
    rw [List.zipIdx_cons, List.foldl_cons, List.length_cons,
      show k + (rest.length + 1) = k + 1 + rest.length by omega]
    exact ih htail (hfound.next hhead)

end Scan

section Sorting

variable {stateOwd : Nat → Nat}

theorem placeNext_sorted {st : List Nat × Nat} {i : Nat} (hi : i < st.1.length)
    (hsorted : SortedPrefix (delayRank ∘ stateOwd) st.1 i) :
    (placeNext stateOwd st i).1.Perm st.1 ∧
      SortedPrefix (delayRank ∘ stateOwd) (placeNext stateOwd st i).1 (i + 1) := by
  have hstart : Found stateOwd st.1 i 0 (stateOwd st.1[i], i) := by
    refine ⟨le_refl i, ⟨_, List.getElem?_eq_getElem hi, rfl⟩, fun j p hj hjk hp => ?_⟩
    obtain rfl : j = i := by omega
    obtain ⟨-, rfl⟩ := List.getElem?_eq_some_iff.mp hp
    exact le_refl _
  have hfound := found_scan st.1 (fun n => by rw [Nat.zero_add]) hstart
  rw [Nat.zero_add] at hfound
  obtain ⟨pathID, hpathID, hdelay⟩ := hfound.delay
  obtain ⟨hlength, -⟩ := List.getElem?_eq_some_iff.mp hpathID
  unfold placeNext
  rw [List.getElem?_eq_getElem hi]
  refine ⟨swap_perm _ _ _, hsorted.swap hlength hfound.position fun j a b hj ha hb => ?_⟩
  obtain rfl : pathID = a := Option.some.inj (hpathID.symm.trans ha)
  have hleast := hfound.least j b hj (.inl (List.getElem?_eq_some_iff.mp hb).1) hb
  rw [hdelay] at hleast
  exact hleast

theorem placeNext_run (stateOwd : Nat → Nat) (l : List Nat) {k : Nat} (hk : k ≤ l.length) :
    ((List.range k).foldl (placeNext stateOwd) (l, 0)).1.Perm l ∧
      SortedPrefix (delayRank ∘ stateOwd)
        ((List.range k).foldl (placeNext stateOwd) (l, 0)).1 k := by
  induction k with
  | zero => exact ⟨List.Perm.refl l, sortedPrefix_zero⟩
  | succ k ih =>
    obtain ⟨hperm, hsorted⟩ := ih (by omega)
    rw [List.range_succ, List.foldl_append, List.foldl_cons, List.foldl_nil]
    have hlength : k < ((List.range k).foldl (placeNext stateOwd) (l, 0)).1.length := by
      rw [hperm.length_eq]
      omega
    obtain ⟨hstep, hnext⟩ := placeNext_sorted hlength hsorted
    exact ⟨hstep.trans hperm, hnext⟩

theorem orderPaths_sorted (paths : List Nat) (stateOwd : Nat → Nat) :
    ∃ sorted, (orderPaths paths stateOwd).1 = sorted ++ [initialPathID] ∧
      sorted.Perm (paths.filter (· ≠ initialPathID)) ∧
      sorted.Pairwise fun a b => delayRank (stateOwd a) ≤ delayRank (stateOwd b) := by
  obtain ⟨hperm, hsorted⟩ :=
    placeNext_run stateOwd (paths.filter (· ≠ initialPathID)) (le_refl _)
  refine ⟨_, rfl, hperm, SortedPrefix.pairwise ?_⟩
  rw [hperm.length_eq]
  exact hsorted

theorem split_measured {l : List Nat}
    (hsorted : l.Pairwise fun a b => delayRank (stateOwd a) ≤ delayRank (stateOwd b)) :
    ∃ measured unmeasured, l = measured ++ unmeasured ∧
      (∀ pathID ∈ measured, stateOwd pathID ≠ 0) ∧
      measured.Pairwise (fun a b => stateOwd a ≤ stateOwd b) ∧
      ∀ pathID ∈ unmeasured, stateOwd pathID = 0 := by
  induction l with
  | nil => exact ⟨[], [], rfl, by simp, List.Pairwise.nil, by simp⟩
  | cons head tail ih =>
    obtain ⟨hhead, htail⟩ := List.pairwise_cons.mp hsorted
    by_cases hzero : stateOwd head = 0
    · refine ⟨[], head :: tail, rfl, by simp, List.Pairwise.nil, fun pathID hmem => ?_⟩
      rcases List.mem_cons.mp hmem with rfl | hmem
      · exact hzero
      · rcases (delayRank_le_iff _ _).mp (hhead pathID hmem) with hlater | ⟨hne, -⟩
        · exact hlater
        · exact absurd hzero hne
    · obtain ⟨measured, unmeasured, rfl, hmeasured, hle, hunmeasured⟩ := ih htail
      refine ⟨head :: measured, unmeasured, rfl, ?_, ?_, hunmeasured⟩
      · intro pathID hmem
        rcases List.mem_cons.mp hmem with rfl | hmem
        · exact hzero
        · exact hmeasured pathID hmem
      · refine List.pairwise_cons.mpr ⟨fun pathID hmem => ?_, hle⟩
        rcases (delayRank_le_iff _ _).mp (hhead pathID (List.mem_append_left _ hmem)) with
          hlater | ⟨-, hle⟩
        · exact absurd hlater (hmeasured pathID hmem)
        · exact hle

end Sorting

-- The paths with a measured delay come first, by their delays, then those without one, and
-- the initial path comes last.
theorem paths_are_ordered (paths : List Nat) (stateOwd : Nat → Nat) :
    ∃ measured unmeasured,
      (orderPaths paths stateOwd).1 = measured ++ unmeasured ++ [initialPathID] ∧
      (measured ++ unmeasured).Perm (paths.filter (· ≠ initialPathID)) ∧
      (∀ pathID ∈ measured, stateOwd pathID ≠ 0) ∧
      measured.Pairwise (fun a b => stateOwd a ≤ stateOwd b) ∧
      ∀ pathID ∈ unmeasured, stateOwd pathID = 0 := by
  obtain ⟨sorted, horder, hperm, hsorted⟩ := orderPaths_sorted paths stateOwd
  obtain ⟨measured, unmeasured, rfl, hrest⟩ := split_measured hsorted
  exact ⟨measured, unmeasured, horder, hperm, hrest⟩

end MpQuic.Scheduler

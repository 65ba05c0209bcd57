import MpQuic.Library.Loop
import MpQuic.Congestion.Olia

namespace MpQuic.Congestion

open MpQuic.Library List

variable {senders : Nat → OliaSender} {ids : List Nat} {orders : Orders}

def OliaSender.epsilon (os : OliaSender) : ℚ :=
  os.olia.epsilonNum / os.olia.epsilonDen

section Loops

variable {order : List Nat}

theorem getEpsilon_apply (hnodup : orders.assign.Nodup) (id : Nat) :
    getEpsilon senders ids orders id =
      if id ∈ orders.assign then
        (senders id).setEpsilon (epsilonOf ids.length (getMaxCwnd senders orders.maxCwnd)
          (getBestPath senders orders.best)
          (countPaths senders (getMaxCwnd senders orders.maxCwnd)
            (getBestPath senders orders.best) orders.count) (senders id))
      else senders id := by
  unfold getEpsilon
  generalize getMaxCwnd senders orders.maxCwnd = maxCwnd
  generalize getBestPath senders orders.best = best
  generalize countPaths senders maxCwnd best orders.count = counts
  exact foldl_update hnodup (fun os => os.setEpsilon (epsilonOf ids.length maxCwnd best counts os))
    senders id

theorem countPaths_eq (maxCwnd : Nat) (best : BestPath) (order : List Nat) :
    countPaths senders maxCwnd best order =
      (order.countP (fun id => (senders id).congestionWindow = maxCwnd) % 2 ^ 8,
        order.countP (fun id => ¬(senders id).congestionWindow = maxCwnd ∧
          (senders id).reaches best = true) % 2 ^ 8) := by
  have hloop : ∀ counts : Nat × Nat, order.foldl (fun counts id =>
      if (senders id).congestionWindow = maxCwnd then ((counts.1 + 1) % 2 ^ 8, counts.2)
      else if (senders id).reaches best then (counts.1, (counts.2 + 1) % 2 ^ 8)
      else counts) (counts.1 % 2 ^ 8, counts.2 % 2 ^ 8) =
      ((counts.1 + order.countP (fun id => (senders id).congestionWindow = maxCwnd)) % 2 ^ 8,
        (counts.2 + order.countP (fun id => ¬(senders id).congestionWindow = maxCwnd ∧
          (senders id).reaches best = true)) % 2 ^ 8) := by
    induction order with
    | nil => exact fun counts => rfl
    | cons id rest ih =>
      intro counts
      rw [foldl_cons]
      by_cases hmax : (senders id).congestionWindow = maxCwnd
      · have hnext := ih (counts.1 + 1, counts.2)
        rw [if_pos hmax, countP_cons_of_pos (by simpa using hmax),
          countP_cons_of_neg (by simp [hmax])]
        simpa [Nat.add_assoc, Nat.add_comm 1] using hnext
      · rw [if_neg hmax, countP_cons_of_neg (by simpa using hmax)]
        by_cases hreaches : (senders id).reaches best = true
        · have hnext := ih (counts.1, counts.2 + 1)
          rw [if_pos hreaches, countP_cons_of_pos (by simp [hmax, hreaches])]
          simpa [Nat.add_assoc, Nat.add_comm 1] using hnext
        · rw [if_neg hreaches, countP_cons_of_neg (by simp [hreaches])]
          exact ih counts
  simpa [countPaths] using hloop (0, 0)

theorem getBestPath_cons (id : Nat) (rest : List Nat) :
    getBestPath senders (id :: rest) =
      (senders (champion (fun x best => (senders x).reaches (senders best).asBestPath) id
        rest)).asBestPath := by
  have hfirst : (senders id).reaches ⟨0, 0⟩ = true := by
    simp [OliaSender.reaches, int64]
  have hloop : ∀ first, rest.foldl (fun best id =>
      if (senders id).reaches best then (senders id).asBestPath else best)
        (senders first).asBestPath =
      (senders (champion (fun x best => (senders x).reaches (senders best).asBestPath) first
        rest)).asBestPath := by
    induction rest with
    | nil => exact fun first => rfl
    | cons x rest ih =>
      intro first
      have hpick : (if (senders x).reaches (senders first).asBestPath then
          (senders x).asBestPath else (senders first).asBestPath) =
          (senders (if (senders x).reaches (senders first).asBestPath then x
            else first)).asBestPath := by
        split_ifs <;> rfl
      rw [foldl_cons, hpick, ih, champion_cons]
  rw [getBestPath, foldl_cons, if_pos hfirst]
  exact hloop id

end Loops

def Largest (senders : Nat → OliaSender) (ids : List Nat) (id : Nat) : Prop :=
  ∀ other ∈ ids, (senders other).congestionWindow ≤ (senders id).congestionWindow

instance (senders : Nat → OliaSender) (ids : List Nat) (id : Nat) :
    Decidable (Largest senders ids id) :=
  inferInstanceAs (Decidable (∀ other ∈ ids, _ ≤ _))

theorem getMaxCwnd_iff {order : List Nat} (hperm : order.Perm ids) {id : Nat} (hid : id ∈ ids) :
    ((senders id).congestionWindow = getMaxCwnd senders order ↔ Largest senders ids id) ∧
      (senders id).congestionWindow ≤ getMaxCwnd senders order := by
  obtain ⟨-, hall, hreached⟩ :=
    foldl_max_spec (fun id => (senders id).congestionWindow) order 0
  have hle := hall id (hperm.mem_iff.mpr hid)
  refine ⟨⟨fun heq other hother => ?_, fun hlargest => Nat.le_antisymm hle ?_⟩, hle⟩
  · rw [heq]
    exact hall other (hperm.mem_iff.mpr hother)
  · rcases hreached with hzero | ⟨other, hother, heq⟩
    · exact (Nat.le_of_eq hzero).trans (Nat.zero_le _)
    · exact (Nat.le_of_eq heq.symm).trans (hlargest other (hperm.mem_iff.mp hother))

theorem exists_largest (hne : ids ≠ []) : ∃ id ∈ ids, Largest senders ids id := by
  obtain ⟨-, hall, hreached⟩ := foldl_max_spec (fun id => (senders id).congestionWindow) ids 0
  rcases hreached with hzero | ⟨id, hid, heq⟩
  · obtain ⟨id, hid⟩ := exists_mem_of_ne_nil ids hne
    refine ⟨id, hid, fun other hother => ?_⟩
    have hother := hall other hother
    rw [hzero] at hother
    exact hother.trans (Nat.zero_le _)
  · exact ⟨id, hid, fun other hother => (hall other hother).trans (Nat.le_of_eq heq.symm)⟩

theorem countPaths_of_few (hcount : ids.length ≤ 255) (horders : orders.Of ids)
    (best : BestPath) :
    countPaths senders (getMaxCwnd senders orders.maxCwnd) best orders.count =
      (ids.countP (fun id => Largest senders ids id),
        ids.countP (fun id => ¬Largest senders ids id ∧ (senders id).reaches best = true)) := by
  rw [countPaths_eq, horders.count.countP_eq, horders.count.countP_eq]
  have hlargest : ids.countP (fun id =>
      (senders id).congestionWindow = getMaxCwnd senders orders.maxCwnd) =
      ids.countP fun id => Largest senders ids id := by
    refine countP_congr fun id hid => ?_
    simp only [decide_eq_true_eq]
    exact (getMaxCwnd_iff horders.maxCwnd hid).1
  have hother : ids.countP (fun id =>
      ¬(senders id).congestionWindow = getMaxCwnd senders orders.maxCwnd ∧
        (senders id).reaches best = true) =
      ids.countP fun id => ¬Largest senders ids id ∧ (senders id).reaches best = true := by
    refine countP_congr fun id hid => ?_
    simp only [decide_eq_true_eq]
    rw [(getMaxCwnd_iff horders.maxCwnd hid).1]
  have hfit : ∀ p : Nat → Bool, ids.countP p % 2 ^ 8 = ids.countP p := fun p =>
    Nat.mod_eq_of_lt (Nat.lt_of_le_of_lt (countP_le_length.trans hcount) (by decide))
  rw [hlargest, hother, hfit, hfit]

theorem countP_pos_of_mem {p : Nat → Prop} [DecidablePred p] {id : Nat} (hid : id ∈ ids)
    (hp : p id) : 0 < ids.countP fun id => p id :=
  countP_pos_iff.mpr ⟨id, hid, decide_eq_true hp⟩

-- What the algorithm gives a path, if `inB` holds for the paths with the best rate: the
-- best paths that are not among the largest ones share what is taken from the largest.
def classEpsilon (senders : Nat → OliaSender) (ids : List Nat) (inB : Nat → Prop)
    [DecidablePred inB] (id : Nat) : ℚ :=
  let bNotM := ids.countP fun id => ¬Largest senders ids id ∧ inB id
  if ¬Largest senders ids id ∧ inB id then 1 / (ids.length * bNotM : ℚ)
  else if Largest senders ids id ∧ bNotM ≠ 0 then
    -1 / (ids.length * ids.countP (fun id => Largest senders ids id) : ℚ)
  else 0

theorem getEpsilon_epsilon (hcount : ids.length ≤ 255) (hnodup : ids.Nodup)
    (horders : orders.Of ids) {id : Nat} (hid : id ∈ ids) {best : BestPath}
    (hbest : getBestPath senders orders.best = best) :
    (getEpsilon senders ids orders id).epsilon =
        classEpsilon senders ids (fun id => (senders id).reaches best = true) id ∧
      0 < (getEpsilon senders ids orders id).olia.epsilonDen := by
  have hpaths : 0 < ids.length := length_pos_of_mem hid
  have hbound : ∀ p : Nat → Bool, ids.length * ids.countP p % 2 ^ 32 =
      ids.length * ids.countP p := fun p => by
    have hle : ids.countP p ≤ 255 := countP_le_length.trans hcount
    refine Nat.mod_eq_of_lt (Nat.lt_of_le_of_lt (Nat.mul_le_mul hcount hle) (by decide))
  have hmax := @getMaxCwnd_iff senders ids orders.maxCwnd horders.maxCwnd id hid
  obtain ⟨hlargest, hle⟩ := hmax
  rw [getEpsilon_apply (horders.assign.nodup_iff.mpr hnodup),
    if_pos (horders.assign.mem_iff.mpr hid), hbest, countPaths_of_few hcount horders best]
  have hlt : (senders id).congestionWindow < getMaxCwnd senders orders.maxCwnd ↔
      ¬Largest senders ids id := by
    rw [← hlargest]
    omega
  simp only [OliaSender.epsilon, OliaSender.setEpsilon, epsilonOf, classEpsilon, hlt, hlargest]
  by_cases hnone : ids.countP (fun id => ¬Largest senders ids id ∧
      (senders id).reaches best = true) = 0
  · have hout : ¬(¬Largest senders ids id ∧ (senders id).reaches best = true) := fun hin => by
      have hpos := countP_pos_of_mem (p := fun id => ¬Largest senders ids id ∧
        (senders id).reaches best = true) hid hin
      omega
    rw [if_pos hnone, if_neg hout, if_neg (fun h => h.2 hnone)]
    simp
  · rw [if_neg hnone]
    by_cases hin : ¬Largest senders ids id ∧ (senders id).reaches best = true
    · rw [if_pos hin, if_pos hin, hbound]
      refine ⟨?_, Nat.mul_pos hpaths (Nat.pos_of_ne_zero hnone)⟩
      push_cast
      rfl
    · rw [if_neg hin, if_neg hin]
      by_cases hmax : Largest senders ids id
      · rw [if_pos hmax, if_pos ⟨hmax, hnone⟩, hbound]
        refine ⟨?_, Nat.mul_pos hpaths (countP_pos_of_mem hid hmax)⟩
        push_cast
        rfl
      · rw [if_neg hmax, if_neg (fun h => hmax h.1)]
        simp

section Class

variable {inB : Nat → Prop} [DecidablePred inB]

theorem sum_classEpsilon (hne : ids ≠ []) : (ids.map (classEpsilon senders ids inB)).sum = 0 := by
  unfold classEpsilon
  dsimp only
  generalize hbNotM : ids.countP (fun id => ¬Largest senders ids id ∧ inB id) = bNotM
  rw [sum_two_classes, hbNotM]
  by_cases hnone : bNotM = 0
  · simp [hnone]
  · -- the second class is M
    have hclass : ids.countP (fun id => ¬(¬Largest senders ids id ∧ inB id) ∧
        Largest senders ids id ∧ bNotM ≠ 0) = ids.countP fun id => Largest senders ids id := by
      refine countP_congr fun id _ => ?_
      simp only [decide_eq_true_eq]
      exact ⟨fun h => h.2.1, fun h => ⟨fun hout => hout.1 h, h, hnone⟩⟩
    obtain ⟨id, hid, hlargest⟩ := @exists_largest senders ids hne
    have hmpos := countP_pos_of_mem hid hlargest
    have hpaths : 0 < ids.length := length_pos_of_mem hid
    rw [hclass]
    generalize ids.countP (fun id => Largest senders ids id) = m at *
    have hmne : (m : ℚ) ≠ 0 := by positivity
    have hbne : (bNotM : ℚ) ≠ 0 := by exact_mod_cast hnone
    have hnne : (ids.length : ℚ) ≠ 0 := by positivity
    field_simp
    ring

theorem classEpsilon_congr {other : Nat → Prop} [DecidablePred other]
    (h : ∀ id ∈ ids, (inB id ↔ other id)) {id : Nat} (hid : id ∈ ids) :
    classEpsilon senders ids inB id = classEpsilon senders ids other id := by
  have hcount : ids.countP (fun id => ¬Largest senders ids id ∧ inB id) =
      ids.countP fun id => ¬Largest senders ids id ∧ other id := by
    refine countP_congr fun id hid => ?_
    simp only [decide_eq_true_eq, h id hid]
  simp only [classEpsilon, hcount, h id hid]

theorem classEpsilon_ne_zero_iff {id : Nat} (hid : id ∈ ids) (hsmall : ¬Largest senders ids id) :
    classEpsilon senders ids inB id ≠ 0 ↔ inB id := by
  unfold classEpsilon
  dsimp only
  rw [if_neg (fun h : Largest senders ids id ∧ _ => hsmall h.1)]
  by_cases hin : inB id
  · have hpos := countP_pos_of_mem (p := fun id => ¬Largest senders ids id ∧ inB id) hid
      ⟨hsmall, hin⟩
    have hpaths : 0 < ids.length := length_pos_of_mem hid
    rw [if_pos ⟨hsmall, hin⟩]
    refine ⟨fun _ => hin, fun _ => ?_⟩
    positivity
  · rw [if_neg (fun h => hin h.2)]
    simp [hin]

end Class

-- The terms of all paths cancel, and no denominator is zero.
theorem epsilons_cancel (senders : Nat → OliaSender) (ids : List Nat) (hne : ids ≠ [])
    (hnodup : ids.Nodup) (hcount : ids.length ≤ 255) (orders : Orders) (horders : orders.Of ids) :
    (ids.map fun id => ((getEpsilon senders ids orders id).olia.epsilonNum : ℚ) /
        (getEpsilon senders ids orders id).olia.epsilonDen).sum = 0 ∧
      ∀ id ∈ ids, 0 < (getEpsilon senders ids orders id).olia.epsilonDen := by
  refine ⟨?_, fun id hid => (getEpsilon_epsilon hcount hnodup horders hid rfl).2⟩
  have hterms : (ids.map fun id => (getEpsilon senders ids orders id).epsilon) =
      ids.map (classEpsilon senders ids fun id =>
        (senders id).reaches (getBestPath senders orders.best) = true) :=
    List.map_congr_left fun id hid => (getEpsilon_epsilon hcount hnodup horders hid rfl).1
  exact (congrArg List.sum hterms).trans (sum_classEpsilon hne)

section Rates

def OliaSender.rate (os : OliaSender) : ℚ :=
  os.bytes / (os.smoothedRTT : ℚ) ^ 2

def Best (senders : Nat → OliaSender) (ids : List Nat) (id : Nat) : Prop :=
  ∀ other ∈ ids, (senders other).rate ≤ (senders id).rate

instance (senders : Nat → OliaSender) (ids : List Nat) (id : Nat) :
    Decidable (Best senders ids id) :=
  inferInstanceAs (Decidable (∀ other ∈ ids, _ ≤ _))

def exactEpsilon (senders : Nat → OliaSender) (ids : List Nat) (id : Nat) : ℚ :=
  classEpsilon senders ids (Best senders ids) id

-- The comparison with one of the best paths comes out right in 64 bits.
def Comparable (senders : Nat → OliaSender) (ids : List Nat) : Prop :=
  ∀ best ∈ ids, Best senders ids best → ∀ id ∈ ids,
    ((senders id).reaches (senders best).asBestPath = true ↔ Best senders ids id)

def withWindows (senders : Nat → OliaSender) (windows : Nat → Nat) (id : Nat) : OliaSender :=
  { senders id with congestionWindow := windows id }

theorem reaches_total (os other : OliaSender) :
    os.reaches other.asBestPath = true ∨ other.reaches os.asBestPath = true := by
  simp only [OliaSender.reaches, OliaSender.asBestPath, ge_iff_le, decide_eq_true_eq]
  exact le_total _ _

theorem reaches_self (os : OliaSender) : os.reaches os.asBestPath = true :=
  (reaches_total os os).elim id id

theorem exists_best (hne : ids ≠ []) : ∃ id ∈ ids, Best senders ids id := by
  obtain ⟨id, hid, hbest⟩ := ids.toFinset.exists_max_image (fun id => (senders id).rate)
    (by simpa using hne)
  exact ⟨id, mem_toFinset.mp hid, fun other hother => hbest other (mem_toFinset.mpr hother)⟩

theorem getBestPath_of_comparable (hcomparable : Comparable senders ids) (hne : ids ≠ [])
    {order : List Nat} (hperm : order.Perm ids) :
    ∃ best ∈ ids, Best senders ids best ∧
      getBestPath senders order = (senders best).asBestPath := by
  cases order with
  | nil => exact absurd (nil_perm.mp hperm) hne
  | cons first rest =>
    obtain ⟨best, hbest, htop⟩ := @exists_best senders ids hne
    suffices hchampion : ∀ id, id = champion
        (fun x best => (senders x).reaches (senders best).asBestPath) first rest →
        id ∈ ids ∧ Best senders ids id from
      ⟨_, (hchampion _ rfl).1, (hchampion _ rfl).2, getBestPath_cons first rest⟩
    rintro _ rfl
    refine champion_of_class (fun id => id ∈ ids ∧ Best senders ids id) ?_ ?_
      ⟨best, hperm.mem_iff.mpr hbest, hbest, htop⟩
    · intro x hx b hb hreaches
      have hmem := hperm.mem_iff.mp (mem_cons_of_mem _ hx)
      exact ⟨hmem, (hcomparable b hb.1 hb.2 x hmem).mp hreaches⟩
    · intro x _ hx b hb
      have hmem := hperm.mem_iff.mp hb
      by_cases hbtop : Best senders ids b
      · exact (hcomparable b hmem hbtop x hx.1).mpr hx.2
      · -- a path that is not the best one does not reach it
        refine (reaches_total (senders x) (senders b)).resolve_right fun hreaches => hbtop ?_
        exact (hcomparable x hx.1 hx.2 b hmem).mp hreaches

theorem epsilon_of_comparable (hcomparable : Comparable senders ids) (hcount : ids.length ≤ 255)
    (hnodup : ids.Nodup) (horders : orders.Of ids) {id : Nat} (hid : id ∈ ids) :
    (getEpsilon senders ids orders id).epsilon = exactEpsilon senders ids id := by
  have hne : ids ≠ [] := ne_nil_of_mem hid
  obtain ⟨best, hmem, htop, hbest⟩ := getBestPath_of_comparable hcomparable hne horders.best
  rw [(getEpsilon_epsilon hcount hnodup horders hid hbest).1]
  exact classEpsilon_congr (hcomparable best hmem htop) hid

-- The orders in which every loop sees the paths as they are listed, and the search for
-- the best path sees `last` at the end.
def endingWith (ids : List Nat) (last : Nat) : Orders :=
  ⟨ids, ids.erase last ++ [last], ids, ids, ids⟩

theorem endingWith_of {last : Nat} (hlast : last ∈ ids) : (endingWith ids last).Of ids := by
  refine ⟨.refl _, ?_, .refl _, .refl _, .refl _⟩
  exact (perm_append_singleton _ _).trans (perm_cons_erase hlast).symm

theorem getBestPath_endingWith (last : Nat) :
    getBestPath senders (endingWith ids last).best = (senders last).asBestPath ∨
      (senders last).reaches (getBestPath senders (endingWith ids last).best) = false := by
  unfold endingWith
  dsimp only
  cases ids.erase last with
  | nil =>
    left
    exact getBestPath_cons last []
  | cons first rest =>
    rw [cons_append, getBestPath_cons, champion_concat]
    split_ifs with hreaches
    · exact Or.inl rfl
    · exact Or.inr (Bool.eq_false_iff.mpr hreaches)

def oneLarge (first : Nat) (id : Nat) : Nat :=
  if id = first then 2 else 1

theorem not_largest_oneLarge {first id : Nat} (hfirst : first ∈ ids) (hne : id ≠ first) :
    ¬Largest (withWindows senders (oneLarge first)) ids id := by
  intro hlargest
  have hle := hlargest first hfirst
  simp [withWindows, oneLarge, hne] at hle

theorem comparable_of_epsilon (hcount : ids.length ≤ 255) (hnodup : ids.Nodup)
    (hexact : ∀ (windows : Nat → Nat) (orders : Orders), orders.Of ids → ∀ id ∈ ids,
      (getEpsilon (withWindows senders windows) ids orders id).epsilon =
        exactEpsilon (withWindows senders windows) ids id) :
    Comparable senders ids := by
  intro best hbest htop id hid
  have hclass : ∀ x ∈ ids, ∀ first ∈ ids, x ≠ first →
      ((senders x).reaches (getBestPath senders (endingWith ids best).best) = true ↔
        Best senders ids x) := by
    intro x hx first hfirst hne
    have hsmall := @not_largest_oneLarge senders ids first x hfirst hne
    have hvalue := hexact (oneLarge first) _ (endingWith_of hbest) x hx
    rw [(getEpsilon_epsilon hcount hnodup (endingWith_of hbest) hx rfl).1] at hvalue
    have hleft := @classEpsilon_ne_zero_iff (withWindows senders (oneLarge first)) ids
      (fun id => (withWindows senders (oneLarge first) id).reaches
        (getBestPath (withWindows senders (oneLarge first)) (endingWith ids best).best) = true)
      _ x hx hsmall
    have hright := @classEpsilon_ne_zero_iff (withWindows senders (oneLarge first)) ids
      (Best (withWindows senders (oneLarge first)) ids) _ x hx hsmall
    rw [hvalue] at hleft
    exact hleft.symm.trans hright
  by_cases heq : id = best
  · subst heq
    exact ⟨fun _ => htop, fun _ => reaches_self _⟩
  · have hreaches := (hclass best hbest id hid (Ne.symm heq)).mpr htop
    have hfound := (getBestPath_endingWith best).resolve_right
      (Bool.eq_false_iff.not.mpr (not_not.mpr hreaches))
    rw [← hfound]
    exact hclass id hid best hbest heq

theorem int64_of_lt {x : Int} (h : 0 ≤ x) (hlt : x < 2 ^ 63) : int64 x = x :=
  Int.bmod_eq_of_le_mul_two (by omega) (by omega)

theorem reaches_iff_rate_le {os best : OliaSender}
    (hrtt : 0 < os.smoothedRTT ∧ os.smoothedRTT ≤ 10 ^ 9)
    (hbest : 0 < best.smoothedRTT ∧ best.smoothedRTT ≤ 10 ^ 9)
    (hfit : (os.bytes : Int) * best.smoothedRTT ^ 2 < 2 ^ 63)
    (hfit' : (best.bytes : Int) * os.smoothedRTT ^ 2 < 2 ^ 63) :
    os.reaches best.asBestPath = true ↔ best.rate ≤ os.rate := by
  have hsquare : ∀ rtt : Int, 0 < rtt ∧ rtt ≤ 10 ^ 9 → int64 (rtt * rtt) = rtt ^ 2 := by
    rintro rtt ⟨hpos, hle⟩
    rw [← sq]
    refine int64_of_lt (by positivity) ?_
    calc rtt ^ 2 ≤ (10 ^ 9) ^ 2 := by gcongr
      _ < 2 ^ 63 := by norm_num
  have hbytes : ∀ (bytes : Nat) (rtt : Int), 0 < rtt → (bytes : Int) * rtt ^ 2 < 2 ^ 63 →
      int64 bytes = bytes := by
    intro bytes rtt hpos hlt
    refine int64_of_lt (by positivity) (lt_of_le_of_lt ?_ hlt)
    exact le_mul_of_one_le_right (by positivity) (one_le_pow₀ hpos)
  simp only [OliaSender.reaches, OliaSender.asBestPath, OliaSender.squaredRTT, hsquare _ hrtt,
    hsquare _ hbest, hbytes _ _ hbest.1 hfit, hbytes _ _ hrtt.1 hfit', ge_iff_le,
    decide_eq_true_eq]
  rw [int64_of_lt (by positivity) hfit, int64_of_lt (by positivity) hfit', OliaSender.rate,
    OliaSender.rate, div_le_div_iff₀ (by have := hbest.1; positivity) (by have := hrtt.1; positivity)]
  exact_mod_cast Iff.rfl

theorem comparable_of_fits
    (hrtt : ∀ id ∈ ids, 10 ^ 6 ≤ (senders id).smoothedRTT ∧ (senders id).smoothedRTT ≤ 10 ^ 9)
    (hfit : ∀ id ∈ ids, ∀ other ∈ ids,
      ((senders id).bytes : Int) * (senders other).smoothedRTT ^ 2 < 2 ^ 63) :
    Comparable senders ids := by
  intro best hbest htop id hid
  have hpos : ∀ id ∈ ids, 0 < (senders id).smoothedRTT ∧ (senders id).smoothedRTT ≤ 10 ^ 9 :=
    fun id hid => ⟨lt_of_lt_of_le (by norm_num) (hrtt id hid).1, (hrtt id hid).2⟩
  rw [reaches_iff_rate_le (hpos id hid) (hpos best hbest) (hfit id hid best hbest)
    (hfit best hbest id hid)]
  exact ⟨fun hle other hother => (htop other hother).trans hle, fun hid => hid best hbest⟩

end Rates

-- Every path is given the exact value for all windows and orders if and only if the
-- comparisons with the best paths come out right, as they do without an overflow.
theorem epsilon_exact_iff (senders : Nat → OliaSender) (ids : List Nat) (hnodup : ids.Nodup)
    (hcount : ids.length ≤ 255)
    (hrtt : ∀ id ∈ ids, 10 ^ 6 ≤ (senders id).smoothedRTT ∧ (senders id).smoothedRTT ≤ 10 ^ 9) :
    ((∀ (windows : Nat → Nat) (orders : Orders), orders.Of ids → ∀ id ∈ ids,
        (getEpsilon (withWindows senders windows) ids orders id).epsilon =
          exactEpsilon (withWindows senders windows) ids id) ↔
      Comparable senders ids) ∧
    ((∀ id ∈ ids, ∀ other ∈ ids,
        ((senders id).bytes : Int) * (senders other).smoothedRTT ^ 2 < 2 ^ 63) →
      Comparable senders ids) := by
  refine ⟨⟨comparable_of_epsilon hcount hnodup, ?_⟩, comparable_of_fits hrtt⟩
  intro hcomparable windows orders horders id hid
  have hwindows : Comparable (withWindows senders windows) ids := hcomparable
  exact epsilon_of_comparable hwindows hcount hnodup horders hid

section Examples

def twoPaths (smoothedRTT : Int) (id : Nat) : OliaSender :=
  if id = 1 then { newOliaSender smoothedRTT 10 2500 with olia := ⟨0, 0, 1000, 0, 1, 0⟩ }
  else { newOliaSender smoothedRTT 20 2500 with olia := ⟨0, 0, 900, 0, 1, 0⟩ }

def inOrder (ids : List Nat) : Orders :=
  ⟨ids, ids, ids, ids, ids⟩

theorem inOrder_of (ids : List Nat) : (inOrder ids).Of ids :=
  ⟨.refl _, .refl _, .refl _, .refl _, .refl _⟩

theorem epsilons_cancel_example :
    let senders := getEpsilon (twoPaths 10000000) [1, 3] (inOrder [1, 3])
    (senders 1).epsilon = 1 / 2 ∧ (senders 3).epsilon = -1 / 2 ∧
      ([1, 3].map fun id => ((senders id).olia.epsilonNum : ℚ) / (senders id).olia.epsilonDen).sum = 0 ∧
      ∀ id ∈ [1, 3], 0 < (senders id).olia.epsilonDen := by
  intro senders
  exact ⟨by decide +kernel, by decide +kernel, epsilons_cancel (twoPaths 10000000) [1, 3]
    (by decide) (by decide) (by decide) (inOrder [1, 3]) (inOrder_of _)⟩

theorem epsilon_exact_iff_example :
    let senders := twoPaths 10000000
    Comparable senders [1, 3] ∧ ∀ id ∈ [1, 3],
      (getEpsilon (withWindows senders fun id => id) [1, 3] (inOrder [1, 3]) id).epsilon =
        exactEpsilon (withWindows senders fun id => id) [1, 3] id := by
  intro senders
  obtain ⟨hiff, hfits⟩ := epsilon_exact_iff senders [1, 3] (by decide) (by decide) (by decide +kernel)
  have hcomparable := hfits (by decide +kernel)
  exact ⟨hcomparable, hiff.mpr hcomparable (fun id => id) (inOrder [1, 3]) (inOrder_of _)⟩

-- With a round trip time of 100 ms the product for 1000 bytes is beyond 64 bits, and path
-- 1 gets nothing.
theorem best_path_is_missed :
    let senders := twoPaths 100000000
    (∀ id ∈ [1, 3], 10 ^ 6 ≤ (senders id).smoothedRTT ∧ (senders id).smoothedRTT ≤ 10 ^ 9 ∧
      (senders id).bytes ≤ 2 ^ 30) ∧ (inOrder [1, 3]).Of [1, 3] ∧
    (getEpsilon senders [1, 3] (inOrder [1, 3]) 1).epsilon = 0 ∧
      exactEpsilon senders [1, 3] 1 = 1 / 2 := by
  intro senders
  exact ⟨by decide +kernel, inOrder_of _, by decide +kernel, by decide +kernel⟩

end Examples

end MpQuic.Congestion

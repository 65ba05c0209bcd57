import Mathlib

namespace MpQuic.Library

variable {α : Type*}

-- The elements at two positions change places. Nothing happens beyond the end.
def swap (l : List α) (i j : Nat) : List α :=
  match l[i]?, l[j]? with
  | some a, some b => (l.set i b).set j a
  | _, _ => l

theorem swap_eq {l : List α} {i j : Nat} (hi : i < l.length) (hj : j < l.length) :
    swap l i j = (l.set i l[j]).set j l[i] := by
  unfold swap
  rw [List.getElem?_eq_getElem hi, List.getElem?_eq_getElem hj]

theorem swap_perm (l : List α) (i j : Nat) : (swap l i j).Perm l := by
  unfold swap
  split
  · rename_i a b ha hb
    obtain ⟨hi, rfl⟩ := List.getElem?_eq_some_iff.mp ha
    obtain ⟨hj, rfl⟩ := List.getElem?_eq_some_iff.mp hb
    exact List.set_set_perm hi hj
  · exact List.Perm.refl l

theorem getElem?_swap {l : List α} {i j : Nat} (hi : i < l.length) (hj : j < l.length) (k : Nat) :
    (swap l i j)[k]? = if k = j then l[i]? else if k = i then l[j]? else l[k]? := by
  rw [swap_eq hi hj]
  by_cases hkj : k = j
  · rw [if_pos hkj, hkj, List.getElem?_set_self (by rw [List.length_set]; exact hj),
      List.getElem?_eq_getElem hi]
  · rw [if_neg hkj, List.getElem?_set_ne (Ne.symm hkj)]
    by_cases hki : k = i
    · rw [if_pos hki, hki, List.getElem?_set_self hi, List.getElem?_eq_getElem hj]
    · rw [if_neg hki, List.getElem?_set_ne (Ne.symm hki)]

-- The first positions hold their final elements: every later element has a greater key.
def SortedPrefix {β : Type*} [LE β] (key : α → β) (l : List α) (k : Nat) : Prop :=
  ∀ i j a b, i < k → i < j → l[i]? = some a → l[j]? = some b → key a ≤ key b

section SortedPrefix

variable {β : Type*} [Preorder β] {key : α → β} {l : List α}

theorem sortedPrefix_zero : SortedPrefix key l 0 :=
  fun _ _ _ _ hi => absurd hi (Nat.not_lt_zero _)

theorem SortedPrefix.swap {k m : Nat} (hsorted : SortedPrefix key l k) (hm : m < l.length)
    (hkm : k ≤ m) (hleast : ∀ j a b, k ≤ j → l[m]? = some a → l[j]? = some b → key a ≤ key b) :
    SortedPrefix key (swap l k m) (k + 1) := by
  have hk : k < l.length := by omega
  intro i j a b hi hij ha hb
  rw [getElem?_swap hk hm] at ha hb
  -- The element that comes later stood at `k` or after it, or between `i` and `k`.
  obtain ⟨j', hj', hb'⟩ : ∃ j', (k ≤ j' ∧ k ≤ j ∨ j' = j ∧ j < k) ∧ l[j']? = some b := by
    by_cases hjm : j = m
    · rw [if_pos hjm] at hb
      exact ⟨k, Or.inl ⟨le_refl k, by omega⟩, hb⟩
    · rw [if_neg hjm] at hb
      by_cases hjk : j = k
      · rw [if_pos hjk] at hb
        exact ⟨m, Or.inl ⟨hkm, by omega⟩, hb⟩
      · rw [if_neg hjk] at hb
        exact ⟨j, by omega, hb⟩
  rcases Nat.lt_succ_iff_lt_or_eq.mp hi with hik | rfl
  · rw [if_neg (by omega), if_neg (by omega)] at ha
    exact hsorted i j' a b hik (by omega) ha hb'
  · have ha' : l[m]? = some a := by
      by_cases him : i = m
      · rw [if_pos him] at ha
        rw [← him]
        exact ha
      · rw [if_neg him, if_pos rfl] at ha
        exact ha
    exact hleast j' a b (by omega) ha' hb'

theorem SortedPrefix.pairwise (hsorted : SortedPrefix key l l.length) :
    l.Pairwise fun a b => key a ≤ key b := by
  refine List.pairwise_iff_getElem.mpr fun i j hi hj hij => ?_
  exact hsorted i j _ _ hi hij (List.getElem?_eq_getElem hi) (List.getElem?_eq_getElem hj)

end SortedPrefix

end MpQuic.Library

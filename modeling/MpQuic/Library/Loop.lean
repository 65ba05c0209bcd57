import Mathlib

namespace MpQuic.Library

open List

variable {α β : Type*}

section Champion

-- A running comparison: whoever beats the champion takes its place.
def champion (beats : α → α → Bool) (first : α) (order : List α) : α :=
  order.foldl (fun best x => if beats x best then x else best) first

variable {beats : α → α → Bool}

-- Nobody outside of a class beats one of the class, and each of the class beats
-- everyone else. Then the champion is one of them as soon as one has been seen.
theorem champion_of_class (top : α → Prop) {first : α} {order : List α}
    (hout : ∀ x ∈ order, ∀ b, top b → beats x b = true → top x)
    (hin : ∀ x ∈ order, top x → ∀ b ∈ first :: order, beats x b = true)
    (hsome : ∃ x ∈ first :: order, top x) : top (champion beats first order) := by
  induction order generalizing first with
  | nil =>
    obtain ⟨x, hx, htop⟩ := hsome
    exact mem_singleton.mp hx ▸ htop
  | cons x rest ih =>
    unfold champion
    rw [foldl_cons]
    refine ih (fun y hy => hout y (mem_cons_of_mem _ hy)) ?_ ?_
    · intro y hy htop b hb
      refine hin y (mem_cons_of_mem _ hy) htop b ?_
      split_ifs at hb
      · exact mem_cons_of_mem _ hb
      · rcases mem_cons.mp hb with rfl | hb
        · exact mem_cons_self
        · exact mem_cons_of_mem _ (mem_cons_of_mem _ hb)
    · obtain ⟨y, hy, htop⟩ := hsome
      rcases mem_cons.mp hy with rfl | hy
      · refine ⟨_, mem_cons_self, ?_⟩
        split_ifs with hbeats
        · exact hout x mem_cons_self y htop hbeats
        · exact htop
      · rcases mem_cons.mp hy with rfl | hy
        · refine ⟨_, mem_cons_self, ?_⟩
          rw [if_pos (hin y mem_cons_self htop first mem_cons_self)]
          exact htop
        · exact ⟨y, mem_cons_of_mem _ hy, htop⟩

theorem champion_cons (first x : α) (order : List α) :
    champion beats first (x :: order) =
      champion beats (if beats x first then x else first) order :=
  rfl

theorem champion_concat (first last : α) (order : List α) :
    champion beats first (order ++ [last]) =
      if beats last (champion beats first order) then last else champion beats first order := by
  unfold champion
  rw [foldl_append]
  rfl

end Champion

section Update

variable [DecidableEq α]

theorem foldl_update {order : List α} (hnodup : order.Nodup) (f : β → β) (g : α → β) (a : α) :
    order.foldl (fun g b => Function.update g b (f (g b))) g a =
      if a ∈ order then f (g a) else g a := by
  induction order generalizing g with
  | nil => rfl
  | cons b rest ih =>
    obtain ⟨hb, hrest⟩ := nodup_cons.mp hnodup
    rw [foldl_cons, ih hrest]
    by_cases ha : a = b
    · subst ha
      rw [if_neg hb, if_pos mem_cons_self, Function.update_self]
    · rw [Function.update_of_ne ha]
      simp only [mem_cons, ha, false_or]

end Update

section Count

theorem foldl_max_spec (f : α → Nat) (order : List α) (start : Nat) :
    start ≤ order.foldl (fun best x => max best (f x)) start ∧
      (∀ x ∈ order, f x ≤ order.foldl (fun best x => max best (f x)) start) ∧
      (order.foldl (fun best x => max best (f x)) start = start ∨
        ∃ x ∈ order, f x = order.foldl (fun best x => max best (f x)) start) := by
  induction order generalizing start with
  | nil => exact ⟨Nat.le_refl _, by simp, Or.inl rfl⟩
  | cons y rest ih =>
    obtain ⟨hstart, hall, hreached⟩ := ih (max start (f y))
    rw [foldl_cons]
    refine ⟨(Nat.le_max_left _ _).trans hstart, ?_, ?_⟩
    · intro x hx
      rcases mem_cons.mp hx with rfl | hx
      · exact (Nat.le_max_right _ _).trans hstart
      · exact hall x hx
    · rcases hreached with hreached | ⟨x, hx, hreached⟩
      · rw [hreached]
        rcases Nat.le_total (f y) start with hle | hle
        · exact Or.inl (Nat.max_eq_left hle)
        · exact Or.inr ⟨y, mem_cons_self, (Nat.max_eq_right hle).symm⟩
      · exact Or.inr ⟨x, mem_cons_of_mem _ hx, hreached⟩

theorem sum_two_classes (p q : α → Prop) [DecidablePred p] [DecidablePred q] (a b : ℚ)
    (keys : List α) :
    (keys.map fun x => if p x then a else if q x then b else 0).sum =
      keys.countP p * a + keys.countP (fun x => ¬p x ∧ q x) * b := by
  induction keys with
  | nil => simp
  | cons x rest ih =>
    rw [map_cons, sum_cons, ih]
    by_cases hp : p x
    · rw [if_pos hp, countP_cons_of_pos (by simpa using hp),
        countP_cons_of_neg (by simp [hp])]
      push_cast
      ring
    · rw [if_neg hp, countP_cons_of_neg (by simpa using hp)]
      by_cases hq : q x
      · rw [if_pos hq, countP_cons_of_pos (by simp [hp, hq])]
        push_cast
        ring
      · rw [if_neg hq, countP_cons_of_neg (by simp [hq])]
        ring

end Count

end MpQuic.Library

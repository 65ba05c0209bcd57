import Mathlib

namespace MpQuic.Library

variable {α M : Type*} [AddCommMonoid M]

theorem sum_map_of_update {keys : List α} (hn : keys.Nodup) {f g : α → M} {a : α} {n : M}
    (ha : a ∈ keys) (hother : ∀ x, x ≠ a → g x = f x) (hself : g a = f a + n) :
    (keys.map g).sum = (keys.map f).sum + n := by
  induction keys with
  | nil => cases ha
  | cons head tail ih =>
    obtain ⟨hhead, htail⟩ := List.nodup_cons.mp hn
    simp only [List.map_cons, List.sum_cons]
    by_cases he : head = a
    · have hrest : tail.map g = tail.map f :=
        List.map_congr_left fun x hx => hother x fun hxa => hhead (he.trans hxa.symm ▸ hx)
      rw [hrest, he, hself]
      exact add_right_comm _ _ _
    · rcases List.mem_cons.mp ha with ha | ha
      · exact absurd ha.symm he
      · rw [hother head he, ih htail ha, add_assoc]

end MpQuic.Library

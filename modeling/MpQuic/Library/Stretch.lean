import Mathlib.Data.List.Basic
import Mathlib.Order.Basic

namespace MpQuic.Library

open List

variable {α : Type*}

-- The elements of `list` at the positions from `start` up to `stop`.
def stretch (list : List α) (start stop : Nat) : List α :=
  (list.drop start).take (stop - start)

variable {start stop : Nat}

theorem stretch_empty (list : List α) (h : stop ≤ start) : stretch list start stop = [] := by
  simp [stretch, Nat.sub_eq_zero_of_le h]

theorem length_stretch (list : List α) (h : stop ≤ list.length) :
    (stretch list start stop).length = stop - start := by
  simp only [stretch, length_take, length_drop]
  omega

theorem stretch_append_stretch (list : List α) {middle : Nat}
    (h₁ : start ≤ middle) (h₂ : middle ≤ stop) :
    stretch list start middle ++ stretch list middle stop = stretch list start stop := by
  have hd : list.drop middle = (list.drop start).drop (middle - start) := by
    rw [drop_drop]
    congr 1
    omega
  have hs : stop - start = (middle - start) + (stop - middle) := by omega
  rw [stretch, stretch, stretch, hd, hs, take_add]

theorem take_stretch (list : List α) {count : Nat} (h : start + count ≤ stop) :
    (stretch list start stop).take count = stretch list start (start + count) := by
  simp only [stretch, take_take]
  congr 1
  omega

theorem drop_stretch (list : List α) (start stop count : Nat) :
    (stretch list start stop).drop count = stretch list (start + count) stop := by
  simp only [stretch, drop_take, drop_drop]
  congr 1
  omega

theorem stretch_of_append (first second : List α) (h : stop ≤ first.length) :
    stretch (first ++ second) start stop = stretch first start stop := by
  by_cases hs : start ≤ stop
  · simp only [stretch]
    rw [drop_append_of_le_length (by omega), take_append_of_le_length]
    simp only [length_drop]
    omega
  · rw [stretch_empty _ (by omega), stretch_empty _ (by omega)]

theorem stretch_append_tail (first second : List α) (h : start ≤ first.length) :
    stretch (first ++ second) start (first ++ second).length =
      stretch first start first.length ++ second := by
  simp only [stretch, length_append]
  rw [drop_append_of_le_length h, take_of_length_le, take_of_length_le]
  all_goals simp [length_append, length_drop] <;> omega

theorem stretch_zero_length (list : List α) : stretch list 0 list.length = list := by
  simp [stretch]

end MpQuic.Library

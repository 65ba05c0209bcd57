import Mathlib.Data.List.Basic

namespace MpQuic.Library

variable {α : Type*}

-- Checked slice expressions. An index past the length is a run-time panic,
-- which ends the computation with `none`.
def sliceTo (list : List α) (stop : Nat) : Option (List α) :=
  if stop ≤ list.length then some (list.take stop) else none

def sliceFrom (list : List α) (start : Nat) : Option (List α) :=
  if start ≤ list.length then some (list.drop start) else none

def slice (list : List α) (start stop : Nat) : Option (List α) :=
  if start ≤ stop ∧ stop ≤ list.length then some ((list.drop start).take (stop - start)) else none

variable {list : List α} {stop start : Nat}

theorem sliceTo_eq (h : stop ≤ list.length) : sliceTo list stop = some (list.take stop) := by
  simp [sliceTo, h]

theorem sliceFrom_eq (h : start ≤ list.length) : sliceFrom list start = some (list.drop start) := by
  simp [sliceFrom, h]

theorem sliceFrom_eq_some {rest : List α} (h : sliceFrom list start = some rest) :
    start ≤ list.length ∧ list.drop start = rest := by
  unfold sliceFrom at h
  split at h
  next hle => exact ⟨hle, Option.some.inj h⟩
  next => cases h

theorem slice_eq (hs : start ≤ stop) (hl : stop ≤ list.length) :
    slice list start stop = some ((list.drop start).take (stop - start)) := by
  simp [slice, hs, hl]

end MpQuic.Library

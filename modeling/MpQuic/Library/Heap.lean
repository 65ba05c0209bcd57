import Mathlib

namespace MpQuic.Library

open Function

-- Objects that are shared by reference. The references below `next` have been
-- handed out.
structure Heap (α : Type*) where
  cells : Nat → α
  next : Nat

namespace Heap

variable {α : Type*}

def get (heap : Heap α) (ref : Nat) : α :=
  heap.cells ref

def set (heap : Heap α) (ref : Nat) (object : α) : Heap α :=
  { heap with cells := Function.update heap.cells ref object }

def alloc (heap : Heap α) (object : α) : Heap α :=
  { heap.set heap.next object with next := heap.next + 1 }

def allocAll : Heap α → List α → Heap α
  | heap, [] => heap
  | heap, object :: rest => (heap.alloc object).allocAll rest

@[simp] theorem get_set_self (heap : Heap α) (ref : Nat) (object : α) :
    (heap.set ref object).get ref = object := by
  show update heap.cells ref object ref = object
  rw [update_self]

theorem get_set_of_ne (heap : Heap α) {ref other : Nat} (object : α) (h : other ≠ ref) :
    (heap.set ref object).get other = heap.get other := by
  show update heap.cells ref object other = heap.cells other
  rw [update_of_ne h]

@[simp] theorem get_alloc_next (heap : Heap α) (object : α) :
    (heap.alloc object).get heap.next = object :=
  get_set_self heap heap.next object

theorem get_alloc_of_lt (heap : Heap α) {ref : Nat} (object : α) (h : ref < heap.next) :
    (heap.alloc object).get ref = heap.get ref :=
  get_set_of_ne heap object (Nat.ne_of_lt h)

theorem get_allocAll_of_lt (heap : Heap α) {ref : Nat} (objects : List α) (h : ref < heap.next) :
    (heap.allocAll objects).get ref = heap.get ref := by
  induction objects generalizing heap with
  | nil => rfl
  | cons object rest ih =>
    rw [allocAll, ih _ (Nat.lt_succ_of_lt h), get_alloc_of_lt heap object h]

theorem map_get_allocAll (heap : Heap α) (objects : List α) :
    (List.range' heap.next objects.length).map (heap.allocAll objects).get = objects := by
  induction objects generalizing heap with
  | nil => rfl
  | cons object rest ih =>
    rw [List.length_cons, List.range'_succ, List.map_cons, allocAll,
      get_allocAll_of_lt _ rest (Nat.lt_succ_self heap.next), get_alloc_next]
    exact congrArg (object :: ·) (ih (heap.alloc object))

end Heap

end MpQuic.Library

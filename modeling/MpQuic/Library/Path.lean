import Mathlib.Order.Basic
import Mathlib.Data.List.Basic

namespace MpQuic.Library

variable {α β : Type*}

-- The items lead from one place to the other, each from where the one before ends.
def Path (rel : β → α → β → Prop) : β → List α → β → Prop
  | first, [], last => first = last
  | first, item :: items, last => ∃ next, rel first item next ∧ Path rel next items last

section Rules

variable {rel : β → α → β → Prop} {first last : β} {items : List α}

theorem Path.single {item : α} (h : rel first item last) : Path rel first [item] last :=
  ⟨last, h, rfl⟩

theorem path_append {more : List α} :
    Path rel first (items ++ more) last ↔
      ∃ middle, Path rel first items middle ∧ Path rel middle more last := by
  induction items generalizing first with
  | nil => simp [Path]
  | cons item rest ih =>
    simp only [List.cons_append, Path, ih]
    constructor
    · rintro ⟨next, hone, middle, hrest, hmore⟩
      exact ⟨middle, ⟨next, hone, hrest⟩, hmore⟩
    · rintro ⟨middle, ⟨next, hone, hrest⟩, hmore⟩
      exact ⟨next, hone, middle, hrest, hmore⟩

theorem Path.trans {middle : β} {more : List α} (h₁ : Path rel first items middle)
    (h₂ : Path rel middle more last) : Path rel first (items ++ more) last :=
  path_append.mpr ⟨middle, h₁, h₂⟩

section Ordered

variable [Preorder β]

theorem Path.le (h : Path rel first items last) (hle : ∀ a x b, rel a x b → a ≤ b) :
    first ≤ last := by
  induction items generalizing first with
  | nil => exact le_of_eq h
  | cons item rest ih =>
    obtain ⟨next, hone, hrest⟩ := h
    exact le_trans (hle _ _ _ hone) (ih hrest)

theorem Path.imp {rel' : β → α → β → Prop} (h : Path rel first items last)
    (hle : ∀ a x b, rel a x b → a ≤ b)
    (himp : ∀ a x b, first ≤ a → b ≤ last → rel a x b → rel' a x b) :
    Path rel' first items last := by
  induction items generalizing first with
  | nil => exact h
  | cons item rest ih =>
    obtain ⟨next, hone, hrest⟩ := h
    have hstep := hle _ _ _ hone
    exact ⟨next, himp _ _ _ le_rfl (hrest.le hle) hone,
      ih hrest fun a x b ha => himp a x b (le_trans hstep ha)⟩

end Ordered

end Rules

end MpQuic.Library

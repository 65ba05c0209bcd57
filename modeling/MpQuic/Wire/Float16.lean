import MpQuic.Wire.ReadBack

namespace MpQuic.Wire

open MpQuic.Library

def uFloat16MaxValue : Nat := 0x3FFC0000000

def Representable (x : Nat) : Prop :=
  ∃ val < 2 ^ 16, ufloat16Value val = x

structure IsFloat (mantissa exponent : Nat) : Prop where
  mantissa_lt : mantissa < 2 ^ 12
  exponent_le : exponent ≤ 30
  hidden : exponent = 0 ∨ 2 ^ 11 ≤ mantissa

section Values

variable {mantissa exponent : Nat}

theorem ufloat16Value_encoded (h : IsFloat mantissa exponent) :
    ufloat16Value (mantissa + exponent * 2 ^ 11) = mantissa * 2 ^ exponent := by
  have hlt := h.mantissa_lt
  unfold ufloat16Value
  rcases h.hidden with rfl | hhidden
  · rw [if_pos (by omega)]
    omega
  · cases exponent with
    | zero =>
      rw [if_pos (by omega)]
      omega
    | succ exponent =>
      have hexponent : (mantissa + (exponent + 1) * 2 ^ 11) / 2 ^ 11 - 1 = exponent + 1 := by omega
      rw [if_neg (by omega), hexponent]
      dsimp only
      rw [Nat.add_sub_cancel]

theorem IsFloat.representable (h : IsFloat mantissa exponent) :
    Representable (mantissa * 2 ^ exponent) := by
  have hlt := h.mantissa_lt
  have hle := h.exponent_le
  exact ⟨mantissa + exponent * 2 ^ 11, by omega, ufloat16Value_encoded h⟩

theorem Representable.isFloat {x : Nat} (h : Representable x) :
    ∃ mantissa exponent, IsFloat mantissa exponent ∧ x = mantissa * 2 ^ exponent := by
  obtain ⟨val, hval, rfl⟩ := h
  by_cases hsmall : val < 2 ^ 12
  · refine ⟨val, 0, ⟨hsmall, Nat.zero_le _, Or.inl rfl⟩, ?_⟩
    unfold ufloat16Value
    rw [if_pos hsmall, Nat.pow_zero, Nat.mul_one]
  · refine ⟨val - (val / 2 ^ 11 - 1) * 2 ^ 11, val / 2 ^ 11 - 1, ⟨?_, ?_, Or.inr ?_⟩, ?_⟩
    · omega
    · omega
    · omega
    · unfold ufloat16Value
      rw [if_neg hsmall]

theorem IsFloat.greatest {u : Nat} (h : IsFloat mantissa exponent) (hu : u / 2 ^ exponent = mantissa) :
    IsGreatest {x | Representable x ∧ x ≤ u} (mantissa * 2 ^ exponent) := by
  refine ⟨⟨h.representable, hu ▸ Nat.div_mul_le_self u _⟩, ?_⟩
  rintro x ⟨hx, hle⟩
  obtain ⟨other, smaller, hfloat, rfl⟩ := hx.isFloat
  rcases Nat.lt_or_ge smaller exponent with hlt | hge
  · have hhidden : 2 ^ 11 ≤ mantissa := h.hidden.resolve_left (by omega)
    calc other * 2 ^ smaller
      _ ≤ 2 ^ 12 * 2 ^ (exponent - 1) :=
          Nat.mul_le_mul hfloat.mantissa_lt.le (Nat.pow_le_pow_right (by norm_num) (by omega))
      _ = 2 ^ 11 * 2 ^ exponent := by
          rw [← Nat.pow_add, ← Nat.pow_add]
          congr 1
          omega
      _ ≤ mantissa * 2 ^ exponent := Nat.mul_le_mul_right _ hhidden
  · obtain ⟨more, rfl⟩ := Nat.exists_eq_add_of_le hge
    have hmultiple : other * 2 ^ (exponent + more) = other * 2 ^ more * 2 ^ exponent := by
      rw [Nat.pow_add]
      ring
    rw [hmultiple] at hle ⊢
    refine Nat.mul_le_mul_right _ ?_
    rw [← hu]
    exact (Nat.le_div_iff_mul_le (by positivity)).mpr hle

end Values

section Search

-- The offsets of the search are halved until one.
def halves : Nat → List Nat
  | 0 => [1]
  | n + 1 => 2 ^ (n + 1) :: halves n

theorem shiftDown_spec (n : Nat) {value : Nat} (exponent : Nat) (hlow : 2 ^ 11 ≤ value)
    (hhigh : value < 2 ^ (11 + 2 ^ (n + 1))) :
    ∃ shift, shiftDown (halves n) value exponent = (value / 2 ^ shift, exponent + shift) ∧
      2 ^ 11 ≤ value / 2 ^ shift ∧ value / 2 ^ shift < 2 ^ 12 := by
  induction n generalizing value exponent with
  | zero =>
    unfold halves shiftDown shiftDown
    split
    · exact ⟨1, rfl, by omega, by omega⟩
    · exact ⟨0, by rw [Nat.pow_zero, Nat.div_one, Nat.add_zero], by omega, by omega⟩
  | succ n ih =>
    unfold halves shiftDown
    split
    next hbig =>
      have hpositive : 0 < 2 ^ 2 ^ (n + 1) := by positivity
      have hlow' : 2 ^ 11 ≤ value / 2 ^ 2 ^ (n + 1) := by
        rw [Nat.le_div_iff_mul_le hpositive, ← Nat.pow_add]
        exact hbig
      have hhigh' : value / 2 ^ 2 ^ (n + 1) < 2 ^ (11 + 2 ^ (n + 1)) := by
        rw [Nat.div_lt_iff_lt_mul hpositive, ← Nat.pow_add]
        have hdouble : 11 + 2 ^ (n + 1) + 2 ^ (n + 1) = 11 + 2 ^ (n + 1 + 1) := by
          rw [Nat.pow_succ 2 (n + 1)]
          omega
        rw [hdouble]
        exact hhigh
      obtain ⟨shift, hshift, hleast, hmost⟩ := ih (exponent + 2 ^ (n + 1)) hlow' hhigh'
      rw [Nat.div_div_eq_div_mul, ← Nat.pow_add] at hshift hleast hmost
      refine ⟨2 ^ (n + 1) + shift, ?_, hleast, hmost⟩
      rw [hshift, Nat.add_assoc]
    next hsmall => exact ih exponent hlow (Nat.lt_of_not_le hsmall)

theorem rounded_spec (value : Nat) :
    ∃ mantissa exponent, IsFloat mantissa exponent ∧
      min value uFloat16MaxValue / 2 ^ exponent = mantissa ∧
      rounded value = mantissa * 2 ^ exponent := by
  unfold rounded ufloat16 uFloat16MaxValue
  by_cases hsmall : value < 2 ^ 12
  · have hfloat : IsFloat value 0 := ⟨hsmall, Nat.zero_le _, Or.inl rfl⟩
    refine ⟨value, 0, hfloat, by omega, ?_⟩
    rw [if_pos hsmall, ← ufloat16Value_encoded hfloat, Nat.zero_mul, Nat.add_zero]
  · by_cases hlarge : value ≥ 0x3FFC0000000
    · have hfloat : IsFloat 4095 30 := ⟨by norm_num, Nat.le_refl _, Or.inr (by norm_num)⟩
      refine ⟨4095, 30, hfloat, by omega, ?_⟩
      rw [if_neg hsmall, if_pos hlarge, ← ufloat16Value_encoded hfloat]
      rfl
    · obtain ⟨shift, hshift, hleast, hmost⟩ := @shiftDown_spec 4 value 0 (by omega) (by omega)
      have hle : shift ≤ 30 := by
        by_contra hbeyond
        have hpow : 2 ^ 31 ≤ 2 ^ shift := Nat.pow_le_pow_right (by norm_num) (by omega)
        have hmul := (Nat.le_div_iff_mul_le (by positivity)).mp hleast
        omega
      have hfloat : IsFloat (value / 2 ^ shift) shift := ⟨hmost, hle, Or.inr hleast⟩
      refine ⟨value / 2 ^ shift, shift, hfloat, by rw [Nat.min_eq_left (by omega)], ?_⟩
      have hencoded := ufloat16Value_encoded hfloat
      have hoffsets : shiftDown [16, 8, 4, 2, 1] value 0 = (value / 2 ^ shift, shift) := by
        rw [Nat.zero_add] at hshift
        exact hshift
      rw [if_neg hsmall, if_neg hlarge, hoffsets, ← hencoded]
      dsimp only
      rw [Nat.mod_eq_of_lt (by omega)]

end Search

-- A number is rounded down to the next one that can be represented. Small numbers are exact,
-- and the others lose less than one part in 2048.
theorem ufloat16_rounds_down (order : ByteOrder) (value : Nat) :
    Parses (readUfloat16 order) (writeUfloat16 order value) (rounded value) ∧
      IsGreatest {x | Representable x ∧ x ≤ min value 0x3FFC0000000} (rounded value) ∧
      (∀ larger, value ≤ larger → rounded value ≤ rounded larger) ∧
      (value < 4096 → rounded value = value) ∧
      (value ≤ 0x3FFC0000000 → value - rounded value ≤ value / 2048) := by
  have hgreatest : ∀ value, IsGreatest {x | Representable x ∧ x ≤ min value 0x3FFC0000000}
      (rounded value) := by
    intro value
    obtain ⟨mantissa, exponent, hfloat, hcut, hrounded⟩ := rounded_spec value
    rw [hrounded]
    exact hfloat.greatest hcut
  refine ⟨parses_readUfloat16 order value, hgreatest value, fun larger hle => ?_, fun hsmall => ?_,
    fun hbound => ?_⟩
  · obtain ⟨⟨hrepresentable, hbelow⟩, -⟩ := hgreatest value
    exact (hgreatest larger).2 ⟨hrepresentable, hbelow.trans (min_le_min_right _ hle)⟩
  · have hfloat : IsFloat value 0 := ⟨hsmall, Nat.zero_le _, Or.inl rfl⟩
    have hself : value ∈ {x | Representable x ∧ x ≤ min value 0x3FFC0000000} := by
      have hrepresentable := hfloat.representable
      rw [Nat.pow_zero, Nat.mul_one] at hrepresentable
      exact ⟨hrepresentable, by omega⟩
    have hbelow := (hgreatest value).1.2
    have habove := (hgreatest value).2 hself
    omega
  · obtain ⟨mantissa, exponent, hfloat, hcut, hrounded⟩ := rounded_spec value
    rw [show min value uFloat16MaxValue = value from Nat.min_eq_left hbound] at hcut
    have hsplit := Nat.div_add_mod value (2 ^ exponent)
    have hmod := Nat.mod_lt value (show 0 < 2 ^ exponent by positivity)
    rw [hcut, Nat.mul_comm] at hsplit
    rw [hrounded, Nat.le_div_iff_mul_le (by norm_num)]
    rcases hfloat.hidden with rfl | hhidden
    · omega
    · have hpart : 2 ^ 11 * 2 ^ exponent ≤ mantissa * 2 ^ exponent := Nat.mul_le_mul_right _ hhidden
      omega

end MpQuic.Wire

import MpQuic.Wire.Write

namespace MpQuic.Wire

def delta (a b : Nat) : Nat :=
  if a < b then b - a else a - b

def closestTo (target a b : Nat) : Nat :=
  if delta target a < delta target b then a else b

-- The packet number that ends in the bytes of the header and is closest to the one that is
-- expected next. All of them are unsigned 64-bit integers, so the epoch before the first one
-- is the last one of all.
def inferPacketNumber (packetNumberLength lastPacketNumber wirePacketNumber : Nat) : Nat :=
  let epochDelta := 2 ^ (packetNumberLength * 8)
  let epoch := lastPacketNumber / epochDelta * epochDelta
  let prevEpochBegin := sub64 epoch epochDelta
  let nextEpochBegin := (epoch + epochDelta) % 2 ^ 64
  let target := (lastPacketNumber + 1) % 2 ^ 64
  closestTo target ((epoch + wirePacketNumber) % 2 ^ 64)
    (closestTo target ((prevEpochBegin + wirePacketNumber) % 2 ^ 64)
      ((nextEpochBegin + wirePacketNumber) % 2 ^ 64))

section Closest

variable {target a b : Nat}

theorem closestTo_left (h : delta target a < delta target b) : closestTo target a b = a :=
  if_pos h

theorem closestTo_right (h : delta target b ≤ delta target a) : closestTo target a b = b :=
  if_neg (Nat.not_lt.mpr h)

end Closest

section Epochs

-- An epoch that starts at `epoch` and holds the last packet number, and a packet number less
-- than half an epoch away from the next one.
variable {epochDelta epoch last wire p : Nat}

theorem previous_candidate (hstart : epoch = 0 ∨ epochDelta ≤ epoch) (hbound : epoch < 2 ^ 63)
    (hdelta : epochDelta ≤ 2 ^ 48) (hwire : wire < epochDelta) :
    (sub64 epoch epochDelta + wire) % 2 ^ 64 =
      if epoch = 0 then 2 ^ 64 - epochDelta + wire else epoch - epochDelta + wire := by
  unfold sub64
  rw [Nat.mod_eq_of_lt (by omega : epochDelta < 2 ^ 64)]
  split <;> omega

theorem epoch_cases (hdelta : 0 < epochDelta) (hlow : last < p + epochDelta)
    (hhigh : p ≤ last + epochDelta) :
    let epoch := last / epochDelta * epochDelta
    p = epoch + p % epochDelta ∨ p = epoch + epochDelta + p % epochDelta ∨
      p + epochDelta = epoch + p % epochDelta := by
  have hp := Nat.div_add_mod p epochDelta
  have hlast := Nat.div_add_mod last epochDelta
  have hpmod := Nat.mod_lt p hdelta
  have hlastmod := Nat.mod_lt last hdelta
  have hup : p / epochDelta < last / epochDelta + 2 := by
    apply Nat.div_lt_of_lt_mul
    rw [Nat.mul_add]
    omega
  have hdown : last / epochDelta < p / epochDelta + 2 := by
    apply Nat.div_lt_of_lt_mul
    rw [Nat.mul_add]
    omega
  dsimp only
  rw [Nat.mul_comm (last / epochDelta)]
  obtain heq | heq | heq : p / epochDelta = last / epochDelta ∨
      p / epochDelta = last / epochDelta + 1 ∨ last / epochDelta = p / epochDelta + 1 := by omega
  · rw [heq] at hp
    exact Or.inl (by omega)
  · rw [heq, Nat.mul_add] at hp
    exact Or.inr (Or.inl (by omega))
  · rw [heq, Nat.mul_add]
    exact Or.inr (Or.inr (by omega))

theorem closest_candidate (hstart : epoch = 0 ∨ epochDelta ≤ epoch) (hepoch : epoch ≤ last)
    (hlast : last < epoch + epochDelta) (hwire : wire < epochDelta) (hdelta : epochDelta ≤ 2 ^ 48)
    (hbound : p < 2 ^ 62)
    (hlow : 2 * (last + 1) < 2 * p + epochDelta) (hhigh : 2 * p < 2 * (last + 1) + epochDelta)
    (hp : p = epoch + wire ∨ p = epoch + epochDelta + wire ∨ p + epochDelta = epoch + wire) :
    closestTo (last + 1) (epoch + wire)
      (closestTo (last + 1) (if epoch = 0 then 2 ^ 64 - epochDelta + wire
        else epoch - epochDelta + wire) (epoch + epochDelta + wire)) = p := by
  rcases hp with rfl | rfl | hp
  · apply closestTo_left
    unfold closestTo delta
    split_ifs <;> omega
  · have hinner : closestTo (last + 1) (if epoch = 0 then 2 ^ 64 - epochDelta + wire
        else epoch - epochDelta + wire) (epoch + epochDelta + wire) =
        epoch + epochDelta + wire := by
      apply closestTo_right
      unfold delta
      split_ifs <;> omega
    rw [hinner]
    apply closestTo_right
    unfold delta
    split_ifs <;> omega
  · have hsome : epoch ≠ 0 := by omega
    have hprev : epoch - epochDelta + wire = p := by omega
    have hinner : closestTo (last + 1) p (epoch + epochDelta + wire) = p := by
      apply closestTo_left
      unfold delta
      split_ifs <;> omega
    rw [if_neg hsome, hprev, hinner]
    apply closestTo_right
    unfold delta
    split_ifs <;> omega

end Epochs

theorem inferPacketNumber_eq {length last p : Nat} (hlength : 1 ≤ length ∧ length ≤ 6)
    (hbound : p < 2 ^ 62) (hlow : last + 1 < p + 2 ^ (length * 8 - 1))
    (hhigh : p < last + 1 + 2 ^ (length * 8 - 1)) :
    inferPacketNumber length last (p % 2 ^ (length * 8)) = p := by
  have hhalf : 2 ^ (length * 8) = 2 * 2 ^ (length * 8 - 1) := by
    rw [← Nat.pow_succ']
    congr 1
    omega
  have hdelta : 2 ^ (length * 8) ≤ 2 ^ 48 := Nat.pow_le_pow_right (by omega) (by omega)
  have hpos : 0 < 2 ^ (length * 8) := Nat.two_pow_pos _
  unfold inferPacketNumber
  dsimp only
  generalize 2 ^ (length * 8) = epochDelta at hhalf hdelta hpos ⊢
  have hwire := Nat.mod_lt p hpos
  have hcases := epoch_cases hpos (by omega : last < p + epochDelta) (by omega)
  have hepoch : last / epochDelta * epochDelta ≤ last := Nat.div_mul_le_self last epochDelta
  have hlast : last < last / epochDelta * epochDelta + epochDelta :=
    Nat.lt_div_mul_add hpos
  have hstart : last / epochDelta * epochDelta = 0 ∨
      epochDelta ≤ last / epochDelta * epochDelta := by
    rcases Nat.eq_zero_or_pos (last / epochDelta) with hzero | hsome
    · exact Or.inl (by rw [hzero, Nat.zero_mul])
    · exact Or.inr (Nat.le_mul_of_pos_left epochDelta hsome)
  dsimp only at hcases
  generalize last / epochDelta * epochDelta = epoch at hcases hepoch hlast hstart ⊢
  rw [previous_candidate hstart (by omega) hdelta hwire, Nat.mod_eq_of_lt (by omega : last + 1 < 2 ^ 64),
    Nat.mod_eq_of_lt (by omega : epoch + p % epochDelta < 2 ^ 64),
    Nat.mod_eq_of_lt (by omega : epoch + epochDelta < 2 ^ 64),
    Nat.mod_eq_of_lt (by omega : epoch + epochDelta + p % epochDelta < 2 ^ 64)]
  exact closest_candidate hstart hepoch hlast hwire hdelta hbound (by omega) (by omega) hcases

theorem lt_of_getPacketNumberLengthForPublicHeader {p leastUnacked : Nat}
    (hle : leastUnacked ≤ p) (hbound : p < 2 ^ 62) (hflight : p - leastUnacked < 2 ^ 47) :
    let length := getPacketNumberLengthForPublicHeader p leastUnacked
    (1 ≤ length ∧ length ≤ 6) ∧ p - leastUnacked < 2 ^ (length * 8 - 1) := by
  unfold getPacketNumberLengthForPublicHeader
  rw [sub64_of_le hle (by omega)]
  dsimp only
  split_ifs <;> omega

-- The receiver recovers the packet number, wherever its largest one is.
theorem packet_numbers_are_recovered (p leastUnacked last : Nat) (hbound : p < 2 ^ 62)
    (hle : leastUnacked ≤ p) (hflight : p - leastUnacked < 2 ^ 47) (hlow : leastUnacked ≤ last + 1)
    (hhigh : p < last + 1 →
      last + 1 - p < 2 ^ (8 * getPacketNumberLengthForPublicHeader p leastUnacked - 1)) :
    let length := getPacketNumberLengthForPublicHeader p leastUnacked
    inferPacketNumber length last (p % 2 ^ (8 * length)) = p := by
  obtain ⟨hlength, hcovers⟩ := lt_of_getPacketNumberLengthForPublicHeader hle hbound hflight
  dsimp only at hlength hcovers ⊢
  rw [Nat.mul_comm 8] at hhigh ⊢
  apply inferPacketNumber_eq hlength hbound
  · by_cases hahead : p < last + 1
    · have := hhigh hahead
      omega
    · have := Nat.two_pow_pos (getPacketNumberLengthForPublicHeader p leastUnacked * 8 - 1)
      omega
  · omega

theorem packet_numbers_are_recovered_example :
    getPacketNumberLengthForPublicHeader 70000 40000 = 2 ∧
      inferPacketNumber 2 65535 (70000 % 2 ^ (8 * 2)) = 70000 :=
  ⟨rfl, packet_numbers_are_recovered 70000 40000 65535 (by norm_num) (by norm_num) (by norm_num)
    (by norm_num) (by norm_num)⟩

end MpQuic.Wire

import Mathlib

namespace MpQuic.Library

inductive ByteOrder where
  | littleEndian
  | bigEndian
  deriving DecidableEq, Repr

def lowBytes : Nat → Nat → List UInt8
  | 0, _ => []
  | count + 1, value => UInt8.ofNat value :: lowBytes count (value / 256)

def ofLowBytes : List UInt8 → Nat
  | [] => 0
  | byte :: rest => byte.toNat + 256 * ofLowBytes rest

namespace ByteOrder

def bytes : ByteOrder → Nat → Nat → List UInt8
  | littleEndian, count, value => lowBytes count value
  | bigEndian, count, value => (lowBytes count value).reverse

def value : ByteOrder → List UInt8 → Nat
  | littleEndian, bytes => ofLowBytes bytes
  | bigEndian, bytes => ofLowBytes bytes.reverse

end ByteOrder

theorem length_lowBytes (count value : Nat) : (lowBytes count value).length = count := by
  induction count generalizing value with
  | zero => rfl
  | succ count ih => rw [lowBytes, List.length_cons, ih]

theorem ofLowBytes_lt (bytes : List UInt8) : ofLowBytes bytes < 256 ^ bytes.length := by
  induction bytes with
  | nil => exact Nat.one_pos
  | cons byte rest ih =>
    have hbyte := byte.toNat_lt
    simp only [ofLowBytes, List.length_cons, pow_succ]
    omega

theorem ofLowBytes_lowBytes (count value : Nat) :
    ofLowBytes (lowBytes count value) = value % 256 ^ count := by
  induction count generalizing value with
  | zero =>
    show 0 = value % 256 ^ 0
    rw [pow_zero, Nat.mod_one]
  | succ count ih =>
    show (UInt8.ofNat value).toNat + 256 * ofLowBytes (lowBytes count (value / 256)) = _
    have hbyte : (UInt8.ofNat value).toNat = value % 256 := UInt8.toNat_ofNat'
    rw [ih, hbyte, pow_succ', Nat.mod_mul]

namespace ByteOrder

variable (order : ByteOrder)

@[simp] theorem length_bytes (count value : Nat) : (order.bytes count value).length = count := by
  cases order <;> simp [bytes, length_lowBytes]

theorem value_bytes (count value : Nat) :
    order.value (order.bytes count value) = value % 256 ^ count := by
  cases order with
  | littleEndian => exact ofLowBytes_lowBytes count value
  | bigEndian =>
    show ofLowBytes (lowBytes count value).reverse.reverse = _
    rw [List.reverse_reverse, ofLowBytes_lowBytes]

theorem value_bytes_of_lt {count value : Nat} (h : value < 256 ^ count) :
    order.value (order.bytes count value) = value := by
  rw [value_bytes, Nat.mod_eq_of_lt h]

end ByteOrder

end MpQuic.Library

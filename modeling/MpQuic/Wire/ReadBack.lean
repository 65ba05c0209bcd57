import MpQuic.Wire.Parse

namespace MpQuic.Wire

open MpQuic.Library

section Numbers

variable (order : ByteOrder)

theorem parses_readByte (byte : UInt8) : Parses readByte [byte] byte :=
  Parses.next _ byte

theorem parses_readUintN {length value : Nat} (h : value < 256 ^ length) :
    Parses (readUintN order length) (order.bytes length value) value := by
  have htake := Parses.take ParseError.eof (order.bytes length value)
  rw [ByteOrder.length_bytes] at htake
  unfold readUintN
  apply Parses.last htake
  rw [ByteOrder.value_bytes_of_lt order h]
  exact Parses.pure value

theorem parses_count {count : Nat} (h : count < 2 ^ 8) :
    Parses (UInt8.toNat <$> readByte) [UInt8.ofNat count] count := by
  have hread := Parses.map UInt8.toNat (parses_readByte (UInt8.ofNat count))
  rw [UInt8.toNat_ofNat_of_lt' h] at hread
  exact hread

theorem ufloat16_lt (value : Nat) : ufloat16 value < 256 ^ 2 := by
  unfold ufloat16
  split
  · omega
  split
  · omega
  · exact Nat.mod_lt _ (by omega)

def rounded (value : Nat) : Nat :=
  ufloat16Value (ufloat16 value)

theorem parses_readUfloat16 (value : Nat) :
    Parses (readUfloat16 order) (writeUfloat16 order value) (rounded value) := by
  unfold readUfloat16 writeUfloat16
  apply Parses.last (parses_readUintN order (ufloat16_lt value))
  exact Parses.pure (rounded value)

end Numbers

def packetNumberLengths : List Nat := [1, 2, 4, 6]

theorem getPacketNumberLength_spec {packetNumber : Nat} (h : packetNumber < 2 ^ 48) :
    getPacketNumberLength packetNumber ∈ packetNumberLengths ∧
      packetNumber < 256 ^ getPacketNumberLength packetNumber := by
  unfold getPacketNumberLength packetNumberLengths
  split_ifs <;> refine ⟨by simp, ?_⟩ <;> omega

end MpQuic.Wire

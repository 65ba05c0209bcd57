import MpQuic.Library.Stretch
import MpQuic.Stms.Defs

namespace MpQuic.Stms

open MpQuic.Library List

-- How the three offsets stand to each other. Between `writeOffsetF` and
-- `writeOffsetSS` lies the hole that the fastest path still has to fill, and
-- `gap` is its size while a slower path is ahead of it.
structure Offsets (s : Stream) : Prop where
  fastest : s.writeOffsetF ≤ s.writeOffsetSS
  slower : s.writeOffsetSS ≤ s.writeOffsetSN
  closed : s.writeOffsetSS = s.writeOffsetSN → s.writeOffsetF = s.writeOffsetSS
  hole : s.writeOffsetSS < s.writeOffsetSN → s.gap = s.writeOffsetSS - s.writeOffsetF

-- The buffer holds the bytes of the hole, and right behind them the bytes from
-- `writeOffsetSN` on. Everything in between has been cut out.
structure Layout (s : Stream) (bytes : List UInt8) : Prop where
  offsets : Offsets s
  err : s.err = false
  bound : s.writeOffsetSN ≤ bytes.length
  data : s.dataForWriting.getD [] = stretch bytes s.writeOffsetF s.writeOffsetSS ++
    stretch bytes s.writeOffsetSN bytes.length
  nonempty : s.dataForWriting ≠ some []

def Unsent (s : Stream) (bytes : List UInt8) (i : Nat) : Prop :=
  (s.writeOffsetF ≤ i ∧ i < s.writeOffsetSS) ∨ (s.writeOffsetSN ≤ i ∧ i < bytes.length)

structure Sends (s t : Stream) (bytes : List UInt8) (offset : Nat) (ret : List UInt8) :
    Prop where
  nonempty : ret ≠ []
  bound : offset + ret.length ≤ bytes.length
  exact : ret = stretch bytes offset (offset + ret.length)
  unsent : ∀ i, Unsent t bytes i ↔
    Unsent s bytes i ∧ ¬(offset ≤ i ∧ i < offset + ret.length)
  fresh : ∀ i, offset ≤ i → i < offset + ret.length → Unsent s bytes i

theorem Offsets.keep {s : Stream} (h : Offsets s) (rest : List UInt8) : Offsets (s.keep rest) :=
  ⟨h.fastest, h.slower, h.closed, h.hole⟩

theorem keep_data (s : Stream) (rest : List UInt8) :
    (s.keep rest).dataForWriting.getD [] = rest ∧ (s.keep rest).dataForWriting ≠ some [] := by
  cases rest <;> simp [Stream.keep]

theorem Layout.keep {s : Stream} {bytes rest : List UInt8} (ho : Offsets s)
    (herr : s.err = false) (hb : s.writeOffsetSN ≤ bytes.length)
    (hr : rest = stretch bytes s.writeOffsetF s.writeOffsetSS ++
      stretch bytes s.writeOffsetSN bytes.length) :
    Layout (s.keep rest) bytes :=
  ⟨ho.keep rest, herr, hb, (keep_data s rest).1.trans hr, (keep_data s rest).2⟩

section Buffer

variable {s : Stream} {bytes data : List UInt8}

theorem Layout.start_le (h : Layout s bytes) : s.writeOffsetSS ≤ bytes.length :=
  Nat.le_trans h.offsets.slower h.bound

section

variable (h : Layout s bytes) (hd : s.dataForWriting = some data)

include h hd

theorem Layout.length :
    data.length = (s.writeOffsetSS - s.writeOffsetF) + (bytes.length - s.writeOffsetSN) := by
  have hdata := h.data
  simp only [hd, Option.getD_some] at hdata
  rw [hdata, length_append, length_stretch _ (Nat.le_refl _), length_stretch _ h.start_le]

theorem Layout.split :
    data.take (s.writeOffsetSS - s.writeOffsetF) = stretch bytes s.writeOffsetF s.writeOffsetSS ∧
    data.drop (s.writeOffsetSS - s.writeOffsetF) =
      stretch bytes s.writeOffsetSN bytes.length := by
  have hdata := h.data
  simp only [hd, Option.getD_some] at hdata
  have hl : (stretch bytes s.writeOffsetF s.writeOffsetSS).length =
      s.writeOffsetSS - s.writeOffsetF :=
    length_stretch _ h.start_le
  rw [hdata, ← hl]
  exact ⟨take_left, drop_left⟩

theorem Layout.split_hole {count : Nat}
    (hc : s.writeOffsetF + count ≤ s.writeOffsetSS) :
    data.take count = stretch bytes s.writeOffsetF (s.writeOffsetF + count) ∧
    data.drop count = stretch bytes (s.writeOffsetF + count) s.writeOffsetSS ++
      stretch bytes s.writeOffsetSN bytes.length := by
  have hdata := h.data
  simp only [hd, Option.getD_some] at hdata
  have hl : count ≤ (stretch bytes s.writeOffsetF s.writeOffsetSS).length := by
    rw [length_stretch _ h.start_le]
    omega
  rw [hdata, take_append_of_le_length hl, drop_append_of_le_length hl,
    take_stretch _ hc, drop_stretch]
  exact ⟨rfl, rfl⟩

theorem Layout.split_tail {count : Nat}
    (hc : s.writeOffsetSN + count ≤ bytes.length) :
    (data.drop (s.writeOffsetSS - s.writeOffsetF)).take count =
      stretch bytes s.writeOffsetSN (s.writeOffsetSN + count) ∧
    data.drop (s.writeOffsetSS - s.writeOffsetF + count) =
      stretch bytes (s.writeOffsetSN + count) bytes.length := by
  rw [← drop_drop, (h.split hd).2, take_stretch _ hc, drop_stretch]
  exact ⟨rfl, rfl⟩

end

end Buffer

end MpQuic.Stms

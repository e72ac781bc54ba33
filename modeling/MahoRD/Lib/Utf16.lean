/-
MahoRD/Lib/Utf16.lean

UTF-16, as a stream of code units.  A reader takes one unit at a time and keeps a high
surrogate until its other half arrives.  What a character is encoded as reads back as that
character, whatever was pending before it (`encode_cases`).
-/
import Mathlib.Data.Nat.Notation

namespace Utf16

/-- The code units of a character. -/
def encode (c : Char) : List UInt16 :=
  if c.toNat < 0x10000 then [UInt16.ofNat c.toNat]
  else
    [UInt16.ofNat (0xD800 + (c.toNat - 0x10000) / 0x400),
      UInt16.ofNat (0xDC00 + (c.toNat - 0x10000) % 0x400)]

def IsHigh (u : UInt16) : Prop := 0xD800 ≤ u.toNat ∧ u.toNat < 0xDC00

def IsLow (u : UInt16) : Prop := 0xDC00 ≤ u.toNat ∧ u.toNat < 0xE000

instance (u : UInt16) : Decidable (IsHigh u) := inferInstanceAs (Decidable (_ ∧ _))

instance (u : UInt16) : Decidable (IsLow u) := inferInstanceAs (Decidable (_ ∧ _))

/-- One unit: the character it completes, and the high surrogate that is pending then.  A surrogate
without its other half stands for no character. -/
def read (high : Option UInt16) (u : UInt16) : Option Char × Option UInt16 :=
  if IsHigh u then (none, some u)
  else if IsLow u then
    (high.map fun h =>
      Char.ofNat (0x10000 + (h.toNat - 0xD800) * 0x400 + (u.toNat - 0xDC00)), none)
  else (some (Char.ofNat u.toNat), none)

theorem toNat_cases (c : Char) :
    c.toNat < 0xD800 ∨ (0xE000 ≤ c.toNat ∧ c.toNat < 0x110000) := by
  rcases c.valid with h | ⟨h, h'⟩
  · exact .inl h
  · exact .inr ⟨h, h'⟩

theorem read_bmp {c : Char} (high : Option UInt16) (hc : c.toNat < 0x10000) :
    read high (UInt16.ofNat c.toNat) = (some c, none) := by
  have hu : (UInt16.ofNat c.toNat).toNat = c.toNat := UInt16.toNat_ofNat_of_lt' hc
  have hcases := toNat_cases c
  have hhigh : ¬ IsHigh (UInt16.ofNat c.toNat) := by
    rw [IsHigh, hu]
    omega
  have hlow : ¬ IsLow (UInt16.ofNat c.toNat) := by
    rw [IsLow, hu]
    omega
  rw [read, if_neg hhigh, if_neg hlow, hu, Char.ofNat_toNat]

theorem read_high {n : ℕ} (high : Option UInt16) (hn : n < 0x400) :
    read high (UInt16.ofNat (0xD800 + n)) = (none, some (UInt16.ofNat (0xD800 + n))) := by
  have hu : (UInt16.ofNat (0xD800 + n)).toNat = 0xD800 + n :=
    UInt16.toNat_ofNat_of_lt' (by simp only [UInt16.size]; omega)
  have hhigh : IsHigh (UInt16.ofNat (0xD800 + n)) := by
    rw [IsHigh, hu]
    omega
  rw [read, if_pos hhigh]

theorem read_low {m n : ℕ} (hm : m < 0x400) (hn : n < 0x400) :
    read (some (UInt16.ofNat (0xD800 + m))) (UInt16.ofNat (0xDC00 + n)) =
      (some (Char.ofNat (0x10000 + m * 0x400 + n)), none) := by
  have hu : (UInt16.ofNat (0xDC00 + n)).toNat = 0xDC00 + n :=
    UInt16.toNat_ofNat_of_lt' (by simp only [UInt16.size]; omega)
  have hh : (UInt16.ofNat (0xD800 + m)).toNat = 0xD800 + m :=
    UInt16.toNat_ofNat_of_lt' (by simp only [UInt16.size]; omega)
  have hhigh : ¬ IsHigh (UInt16.ofNat (0xDC00 + n)) := by
    rw [IsHigh, hu]
    omega
  have hlow : IsLow (UInt16.ofNat (0xDC00 + n)) := by
    rw [IsLow, hu]
    omega
  rw [read, if_neg hhigh, if_pos hlow, hu, Option.map_some, hh, Nat.add_sub_cancel_left,
    Nat.add_sub_cancel_left]

/-- **A character is read back**, from its one unit or at the second of its two. -/
theorem encode_cases (c : Char) :
    (∃ u, encode c = [u] ∧ ∀ high, read high u = (some c, none)) ∨
      ∃ u v, encode c = [u, v] ∧ (∀ high, read high u = (none, some u)) ∧
        read (some u) v = (some c, none) := by
  rcases Nat.lt_or_ge c.toNat 0x10000 with hc | hc
  · exact .inl ⟨_, if_pos hc, fun high => read_bmp high hc⟩
  · have hm : (c.toNat - 0x10000) / 0x400 < 0x400 := by
      rcases toNat_cases c with h | ⟨-, h⟩ <;> omega
    have hn : (c.toNat - 0x10000) % 0x400 < 0x400 := Nat.mod_lt _ (by decide)
    refine .inr ⟨_, _, if_neg (Nat.not_lt.mpr hc), fun high => read_high high hm, ?_⟩
    rw [read_low hm hn]
    have hsum : 0x10000 + (c.toNat - 0x10000) / 0x400 * 0x400 + (c.toNat - 0x10000) % 0x400 =
        c.toNat := by omega
    rw [hsum, Char.ofNat_toNat]

end Utf16

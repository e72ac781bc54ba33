/-
MahoRD/Lib/Axis.lean

A line of pixels `0, …, n` seen through a device axis of units `0, …, m`: a position goes to the
nearest unit, and a unit stands for the nearest pixel.
-/
import Mathlib.Data.Rat.Floor

namespace Axis

variable {p : ℚ}

theorem round_mono {q : ℚ} (h : p ≤ q) : round p ≤ round q := by
  rw [round_eq, round_eq]
  exact Int.floor_mono (by linarith)

theorem round_nonneg (h : 0 ≤ p) : 0 ≤ round p := by
  have hmono := round_mono h
  rwa [round_zero] at hmono

theorem round_le_natCast {n : ℕ} (h : p ≤ n) : round p ≤ n := by
  have hmono := round_mono h
  rwa [round_natCast] at hmono

/-- The unit for a position. -/
def unit (m n : ℕ) (position : ℚ) : ℤ := round (position * m / n)

/-- The pixel of a unit. -/
def pixel (m n : ℕ) (a : ℤ) : ℤ := round (a * n / m : ℚ)

/-- Some unit stands for this pixel. -/
def Addressable (m n : ℕ) (k : ℤ) : Prop := ∃ a : ℤ, 0 ≤ a ∧ a ≤ m ∧ pixel m n a = k

variable {m n : ℕ}

theorem unit_mono {q : ℚ} (h : p ≤ q) : unit m n p ≤ unit m n q := by
  apply round_mono
  have hm : (0 : ℚ) ≤ m := Nat.cast_nonneg m
  have hn : (0 : ℚ) ≤ n := Nat.cast_nonneg n
  exact div_le_div_of_nonneg_right (mul_le_mul_of_nonneg_right h hm) hn

theorem pixel_mono {a b : ℤ} (h : a ≤ b) : pixel m n a ≤ pixel m n b := by
  apply round_mono
  have hab : (a : ℚ) ≤ b := Int.cast_le.mpr h
  have hm : (0 : ℚ) ≤ m := Nat.cast_nonneg m
  have hn : (0 : ℚ) ≤ n := Nat.cast_nonneg n
  exact div_le_div_of_nonneg_right (mul_le_mul_of_nonneg_right hab hn) hm

theorem unit_nonneg (h : 0 ≤ p) : 0 ≤ unit m n p :=
  round_nonneg (div_nonneg (mul_nonneg h (Nat.cast_nonneg m)) (Nat.cast_nonneg n))

theorem unit_le (hn : 0 < n) (h : p ≤ n) : unit m n p ≤ m := by
  have hpos : (0 : ℚ) < n := Nat.cast_pos.mpr hn
  apply round_le_natCast
  rw [div_le_iff₀ hpos, mul_comm]
  exact mul_le_mul_of_nonneg_left h (Nat.cast_nonneg m)

/-- How far the pixel of a unit is from `k`, in terms of how far the unit is from its position. -/
theorem pixel_sub (hm : 0 < m) (hn : 0 < n) (k b : ℤ) :
    (b * n / m : ℚ) - k = -((k * m / n - b) * (n / m)) := by
  field_simp
  ring

theorem abs_pixel_sub (hm : 0 < m) (hn : 0 < n) (k b : ℤ) :
    |(b * n / m : ℚ) - k| = |(k * m / n : ℚ) - b| * (n / m) := by
  have hpos : (0 : ℚ) < n / m := div_pos (Nat.cast_pos.mpr hn) (Nat.cast_pos.mpr hm)
  rw [pixel_sub hm hn, abs_neg, abs_mul, abs_of_pos hpos]

theorem unit_self (hn : 0 < n) (k : ℤ) : unit n n k = k := by
  have hne : (n : ℚ) ≠ 0 := Nat.cast_ne_zero.mpr hn.ne'
  rw [unit, mul_div_assoc, div_self hne, mul_one, round_intCast]

/-- A pixel is not halfway between the nearest unit and one below: the units would be as far apart
as the pixels, and then each unit is a pixel. -/
theorem no_tie (hm : 0 < m) (hn : 0 < n) {k a : ℤ}
    (hup : (unit m n k * n / m : ℚ) - k = 1 / 2) (hdown : (a * n / m : ℚ) - k = -(1 / 2)) :
    False := by
  have hmpos : (0 : ℚ) < m := Nat.cast_pos.mpr hm
  have hnpos : (0 : ℚ) < n := Nat.cast_pos.mpr hn
  have hnear : |(k * m / n : ℚ) - unit m n k| ≤ 1 / 2 := abs_sub_round _
  have hmn : (m : ℚ) ≤ n := by
    have hdist : |(unit m n k * n / m : ℚ) - k| = 1 / 2 := by
      rw [hup, abs_of_pos (by norm_num)]
    rw [abs_pixel_sub hm hn] at hdist
    have hprod := mul_le_mul_of_nonneg_right hnear (div_pos hnpos hmpos).le
    have hone : (1 : ℚ) ≤ n / m := by linarith
    rwa [le_div_iff₀ hmpos, one_mul] at hone
  have hapart : (unit m n k - a) * n = (m : ℤ) := by
    have hsub : (unit m n k * n / m : ℚ) - a * n / m = 1 := by linarith
    field_simp at hsub
    have hcast : ((unit m n k : ℚ) - a) * n = m := by linarith
    exact_mod_cast hcast
  have hmn' : (m : ℤ) ≤ n := by exact_mod_cast hmn
  have hge : 1 ≤ unit m n k - a := by
    by_contra hlt
    have hneg := mul_nonpos_of_nonpos_of_nonneg (show unit m n k - a ≤ 0 by omega)
      (Int.natCast_nonneg n)
    omega
  have hequal : m = n := by
    have hle := mul_le_mul_of_nonneg_right hge (Int.natCast_nonneg n)
    omega
  subst hequal
  rw [unit_self hn, mul_div_assoc, div_self hnpos.ne', mul_one] at hup
  linarith

theorem pixel_unit (hm : 0 < m) (hn : 0 < n) {k : ℤ} (h : Addressable m n k) :
    pixel m n (unit m n k) = k := by
  obtain ⟨a, -, -, ha⟩ := h
  have hpos : (0 : ℚ) < n / m := div_pos (Nat.cast_pos.mpr hn) (Nat.cast_pos.mpr hm)
  have hnearest : |(k * m / n : ℚ) - unit m n k| ≤ |(k * m / n : ℚ) - a| := round_le _ a
  have hle : |(unit m n k * n / m : ℚ) - k| ≤ |(a * n / m : ℚ) - k| := by
    rw [abs_pixel_sub hm hn, abs_pixel_sub hm hn]
    exact mul_le_mul_of_nonneg_right hnearest hpos.le
  rw [pixel, round_eq_iff] at ha ⊢
  obtain ⟨halo, hahi⟩ := ha
  have hhalf : |(a * n / m : ℚ) - k| ≤ 1 / 2 := abs_le.mpr ⟨by linarith, by linarith⟩
  obtain ⟨hlo, hhi⟩ := abs_le.mp (hle.trans hhalf)
  refine ⟨by linarith, lt_of_le_of_ne (by linarith) fun htie => ?_⟩
  have hup : (unit m n k * n / m : ℚ) - k = 1 / 2 := by
    rw [htie, add_sub_cancel_left]
  apply no_tie hm hn hup (a := a)
  rw [hup, abs_of_pos (by norm_num)] at hle
  rcases (abs_eq (by norm_num)).mp (le_antisymm hhalf hle) with habove | hbelow
  · linarith
  · exact hbelow

end Axis

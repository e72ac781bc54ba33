/-
MahoRD/Lib/Rounding.lean

Floats of a precision and of any exponent: a positive number goes to the nearest one whose
significand has `bits + 1` bits, a tie to the even one.  Rounding keeps the order
(`nearest_mono`).
-/
import MahoRD.Lib.Axis
import Mathlib.Data.Int.Log

namespace Rounding

/-- To the nearest integer, ties to the even one. -/
def roundEven (q : ℚ) : ℤ := if Int.fract q = 1 / 2 ∧ Even ⌊q⌋ then ⌊q⌋ else round q

variable {p q : ℚ}

theorem roundEven_le_round (q : ℚ) : roundEven q ≤ round q := by
  rw [roundEven]
  split
  · rw [round_eq]
    exact Int.floor_mono (by linarith)
  · exact le_rfl

theorem roundEven_mono (h : p ≤ q) : roundEven p ≤ roundEven q := by
  rcases h.eq_or_lt with rfl | hlt
  · exact le_rfl
  · by_cases htie : Int.fract q = 1 / 2 ∧ Even ⌊q⌋
    · -- Whatever is below a tie is below the middle between two integers.
      have hq : q = ⌊q⌋ + 1 / 2 := by rw [← htie.1, Int.floor_add_fract]
      calc roundEven p
        _ ≤ round p := roundEven_le_round p
        _ ≤ ⌊q⌋ := by
          rw [round_eq, ← Int.lt_add_one_iff, Int.floor_lt]
          push_cast
          linarith
        _ = roundEven q := by rw [roundEven, if_pos htie]
    · rw [roundEven.eq_def q, if_neg htie]
      exact (roundEven_le_round p).trans (Axis.round_mono h)

@[simp] theorem roundEven_intCast (z : ℤ) : roundEven z = z := by
  rw [roundEven, Int.fract_intCast, if_neg (by norm_num), round_intCast]

/-- The unit in the last place, as a power of two. -/
def lastPlace (bits : ℕ) (q : ℚ) : ℤ := Int.log 2 q - bits

def nearest (bits : ℕ) (q : ℚ) : ℚ :=
  roundEven (q / 2 ^ lastPlace bits q) * 2 ^ lastPlace bits q

variable {bits : ℕ}

theorem le_nearest (hq : 0 < q) : (2 : ℚ) ^ Int.log 2 q ≤ nearest bits q := by
  have hunit : (0 : ℚ) < 2 ^ lastPlace bits q := zpow_pos two_pos _
  have hlow : ((2 ^ bits : ℤ) : ℚ) ≤ q / 2 ^ lastPlace bits q := by
    rw [le_div_iff₀ hunit, lastPlace, zpow_sub₀ two_ne_zero, zpow_natCast]
    push_cast
    rw [mul_div_cancel₀ _ (by positivity)]
    exact_mod_cast Int.zpow_log_le_self one_lt_two hq
  have hround := roundEven_mono hlow
  rw [roundEven_intCast] at hround
  calc (2 : ℚ) ^ Int.log 2 q
    _ = ((2 ^ bits : ℤ) : ℚ) * 2 ^ lastPlace bits q := by
      rw [lastPlace, zpow_sub₀ two_ne_zero, zpow_natCast]
      push_cast
      rw [mul_div_cancel₀ _ (by positivity)]
    _ ≤ nearest bits q := mul_le_mul_of_nonneg_right (Int.cast_le.mpr hround) hunit.le

theorem nearest_le (q : ℚ) : nearest bits q ≤ 2 ^ (Int.log 2 q + 1) := by
  have hunit : (0 : ℚ) < 2 ^ lastPlace bits q := zpow_pos two_pos _
  have hscale : ((2 ^ (bits + 1) : ℤ) : ℚ) * 2 ^ lastPlace bits q = 2 ^ (Int.log 2 q + 1) := by
    rw [lastPlace, zpow_sub₀ two_ne_zero, zpow_add₀ two_ne_zero, zpow_natCast, zpow_one,
      pow_succ]
    push_cast
    field_simp
  have hhigh : q / 2 ^ lastPlace bits q ≤ ((2 ^ (bits + 1) : ℤ) : ℚ) := by
    rw [div_le_iff₀ hunit, hscale]
    exact_mod_cast (Int.lt_zpow_succ_log_self one_lt_two q).le
  have hround := roundEven_mono hhigh
  rw [roundEven_intCast] at hround
  exact (mul_le_mul_of_nonneg_right (Int.cast_le.mpr hround) hunit.le).trans_eq hscale

theorem nearest_mono (hp : 0 < p) (h : p ≤ q) : nearest bits p ≤ nearest bits q := by
  rcases (Int.log_mono_right (b := 2) hp h).eq_or_lt with heq | hlt
  · have hunit : (0 : ℚ) < 2 ^ lastPlace bits q := zpow_pos two_pos _
    rw [nearest, nearest, lastPlace, heq]
    refine mul_le_mul_of_nonneg_right (Int.cast_le.mpr (roundEven_mono ?_)) hunit.le
    exact div_le_div_of_nonneg_right h hunit.le
  · calc nearest bits p
      _ ≤ 2 ^ (Int.log 2 p + 1) := nearest_le p
      _ ≤ 2 ^ Int.log 2 q := zpow_le_zpow_right₀ one_le_two hlt
      _ ≤ nearest bits q := le_nearest (hp.trans_le h)

end Rounding

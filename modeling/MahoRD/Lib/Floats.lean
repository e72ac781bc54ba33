/-
MahoRD/Lib/Floats.lean

How large the result of a floating-point operation can be, for the formats that `Float` and
`Float32` are defined by.  `Within spec b x` says that `x` is a number of magnitude `b` at most: no
infinity, not `NaN`.

Rounding adds half a unit in the last place to a magnitude, or half of the least number
(`roundUp`); packing the result loses nothing while it stays below the exponents of the format
(`Within.packed`).  Each operation then has one rule, which tells the bound of its result by the
bounds of what it is applied to.
-/
import Mathlib

namespace Floats

open Float.Model (Format UnpackedFloat totalExponent)
open Float.Model.UnpackedFloat

variable {spec : Format} {b c q : ℚ} {x y : UnpackedFloat}

/-- A number of magnitude `b` at most. -/
inductive Within (spec : Format) (b : ℚ) : UnpackedFloat → Prop
  | zero (s : Sign) (hb : 0 ≤ b) : Within spec b (.zero s)
  | finite (s : Sign) (m : ℕ) (e : ℤ) (hm : 0 < m) (he : spec.minExponent ≤ e)
      (hb : (m : ℚ) * 2 ^ e ≤ b) : Within spec b (.finite s m e hm)

theorem Within.nonneg (h : Within spec b x) : 0 ≤ b := by
  cases h with
  | zero s hb => exact hb
  | finite s m e hm he hb => exact le_trans (by positivity) hb

theorem Within.mono (h : Within spec b x) (hbc : b ≤ c) : Within spec c x := by
  cases h with
  | zero s hb => exact .zero s (hb.trans hbc)
  | finite s m e hm he hb => exact .finite s m e hm he (hb.trans hbc)

theorem Within.not_nan (h : Within spec b x) : x.isNaN = false := by
  cases h <;> rfl

/-! ### Rounding -/

/-- What a magnitude may be rounded up to. -/
def roundUp (spec : Format) (b : ℚ) : ℚ :=
  b * (1 + 2 ^ (-(spec.mantissaBits : ℤ))) + 2 ^ (spec.minExponent - 1)

theorem roundUp_mono (h : b ≤ c) : roundUp spec b ≤ roundUp spec c := by
  have hunit : (0 : ℚ) ≤ 1 + 2 ^ (-(spec.mantissaBits : ℤ)) := by positivity
  exact add_le_add_left (mul_le_mul_of_nonneg_right h hunit) _

theorem le_roundUp (spec : Format) (h : 0 ≤ b) : b ≤ roundUp spec b := by
  have hunit : (0 : ℚ) < 2 ^ (-(spec.mantissaBits : ℤ)) := by positivity
  have hleast : (0 : ℚ) < 2 ^ (spec.minExponent - 1) := by positivity
  rw [roundUp]
  nlinarith

/-- Mantissa and round bit stay below `q`. -/
def Below (em : ExtendedMantissa) (q : ℚ) : Prop :=
  2 * (em.mantissa : ℚ) + (if em.roundBit then 1 else 0) ≤ 2 * q

variable {em : ExtendedMantissa} {e : ℤ} {m : ℕ}

theorem Below.mantissa_le (h : Below em q) : (em.mantissa : ℚ) ≤ q := by
  rw [Below] at h
  split at h <;> linarith

theorem Below.exact (m : ℕ) : Below (.ofMantissaAndAccuracy m .exact) m := by
  simp [Below, ExtendedMantissa.ofMantissaAndAccuracy]

theorem Below.shiftRightOne (h : Below em q) :
    Below em.shiftRightOne (q / 2) := by
  have hm := h.mantissa_le
  have hparts : 2 * ((em.mantissa / 2 : ℕ) : ℚ) + (em.mantissa % 2 : ℕ) = em.mantissa := by
    exact_mod_cast Nat.div_add_mod em.mantissa 2
  have hbit : (if (em.mantissa % 2 != 0) = true then 1 else 0 : ℚ) = (em.mantissa % 2 : ℕ) := by
    rcases Nat.mod_two_eq_zero_or_one em.mantissa with h₀ | h₀ <;> simp [h₀]
  rw [Below, ExtendedMantissa.shiftRightOne, hbit, hparts]
  linarith

theorem Below.shiftRight (h : Below em q) (k : ℕ) :
    Below (em >>> k) (q / 2 ^ k) := by
  change Below (k.repeat ExtendedMantissa.shiftRightOne em) _
  induction k with
  | zero => simpa [Nat.repeat] using h
  | succ k ih =>
    rw [Nat.repeat, pow_succ, ← div_div]
    exact ih.shiftRightOne

theorem Below.rounded_le (h : Below em q) :
    (em.roundedMantissa : ℚ) ≤ q + 1 / 2 := by
  obtain ⟨m, round, sticky⟩ := em
  have hmod : ((m % 2 : ℕ) : ℚ) ≤ 1 := by exact_mod_cast Nat.le_of_lt_succ (Nat.mod_lt m two_pos)
  cases round <;> cases sticky <;>
    simp [Below, ExtendedMantissa.roundedMantissa, ExtendedMantissa.accuracy,
      Accuracy.roundToNearestEven] at h ⊢ <;> linarith

theorem half_unit_le (spec : Format) (hq : (m : ℚ) ≤ q)
    (hm : 0 < m ∨ e ≤ spec.targetExponent (totalExponent m e)) :
    (2 : ℚ) ^ (spec.targetExponent (totalExponent m e) - 1)
      ≤ q * 2 ^ e * 2 ^ (-(spec.mantissaBits : ℤ)) + 2 ^ (spec.minExponent - 1) := by
  have hq₀ : 0 ≤ q := le_trans (Nat.cast_nonneg m) hq
  have hmant := spec.hm
  rcases le_total (totalExponent m e - spec.mantissaBits) spec.minExponent with hle | hle
  · rw [Format.targetExponent, max_eq_right hle]
    have : 0 ≤ q * (2 : ℚ) ^ e * 2 ^ (-(spec.mantissaBits : ℤ)) := by positivity
    linarith
  · rw [Format.targetExponent, max_eq_left hle] at hm ⊢
    rw [totalExponent, Format.mantissaBits] at hm
    have hpos : 0 < m := by
      rcases Nat.eq_zero_or_pos m with rfl | hpos
      · rw [Nat.log2_zero] at hm
        omega
      · exact hpos
    have hlog : (2 : ℚ) ^ m.log2 ≤ m := by exact_mod_cast Nat.log2_self_le hpos.ne'
    have hsplit : totalExponent m e - spec.mantissaBits - 1
        = (m.log2 : ℤ) + e + -(spec.mantissaBits : ℤ) := by
      rw [totalExponent]
      ring
    rw [hsplit, zpow_add₀ two_ne_zero, zpow_add₀ two_ne_zero, zpow_natCast]
    have : (2 : ℚ) ^ m.log2 * 2 ^ e * 2 ^ (-(spec.mantissaBits : ℤ))
        ≤ q * 2 ^ e * 2 ^ (-(spec.mantissaBits : ℤ)) := by
      gcongr
      exact hlog.trans hq
    have hleast : (0 : ℚ) < 2 ^ (spec.minExponent - 1) := by positivity
    linarith

theorem minExponent_le_targetExponent (spec : Format) (t : ℤ) :
    spec.minExponent ≤ spec.targetExponent t :=
  le_max_right ..

theorem dropped_le {k : ℕ} (h : Below em (q / 2 ^ k)) :
    (em.mantissa : ℚ) * 2 ^ (e + k) ≤ q * 2 ^ e := by
  have hm := (le_div_iff₀ (by positivity : (0 : ℚ) < 2 ^ k)).mp h.mantissa_le
  have he : (0 : ℚ) < 2 ^ e := by positivity
  calc (em.mantissa : ℚ) * 2 ^ (e + k) = em.mantissa * 2 ^ k * 2 ^ e := by
        rw [zpow_add₀ two_ne_zero, zpow_natCast]
        ring
    _ ≤ q * 2 ^ e := mul_le_mul_of_nonneg_right hm he.le

theorem mantissa_ofMantissaAndAccuracy (m : ℕ) (accuracy : Accuracy) :
    (ExtendedMantissa.ofMantissaAndAccuracy m accuracy).mantissa = m := by
  cases accuracy with
  | exact => rfl
  | inexact o => cases o <;> rfl

theorem rounded_shift_le (spec : Format) {accuracy : Accuracy}
    (hq : Below (.ofMantissaAndAccuracy m accuracy) q)
    (hshort : (0 < m ∧ accuracy = .exact) ∨ e ≤ spec.targetExponent (totalExponent m e)) :
    let r := shiftToTargetExponent spec m e accuracy
    (r.1.roundedMantissa : ℚ) * 2 ^ r.2 ≤ roundUp spec (q * 2 ^ e) := by
  have hmq : (m : ℚ) ≤ q := mantissa_ofMantissaAndAccuracy m accuracy ▸ hq.mantissa_le
  have hhalf := half_unit_le spec hmq (hshort.imp_left And.left)
  rw [shiftToTargetExponent, shiftToExponent]
  generalize spec.targetExponent (totalExponent m e) = target at hshort hhalf ⊢
  dsimp only
  rcases le_or_gt e target with hle | hlt
  · obtain ⟨k, rfl⟩ := Int.le.dest hle
    have hk : (e + (k : ℤ) - e).toNat = k := by omega
    have hrounded := (hq.shiftRight k).rounded_le
    have hpow : (0 : ℚ) < 2 ^ (e + (k : ℤ)) := by positivity
    rw [hk]
    calc _ ≤ (q / 2 ^ k + 1 / 2) * 2 ^ (e + (k : ℤ)) :=
          mul_le_mul_of_nonneg_right hrounded hpow.le
      _ = q * 2 ^ e + 2 ^ (e + (k : ℤ) - 1) := by
          rw [zpow_sub_one₀ two_ne_zero, zpow_add₀ two_ne_zero, zpow_natCast]
          field_simp
      _ ≤ roundUp spec (q * 2 ^ e) := by
          rw [roundUp]
          linarith
  · -- nothing is dropped, so nothing is rounded
    obtain ⟨-, rfl⟩ | hle := hshort
    swap
    · omega
    have hk : (target - e).toNat = 0 := by omega
    have hpow : (0 : ℚ) < 2 ^ e := by positivity
    rw [hk, Nat.cast_zero, add_zero]
    calc ((m : ℕ) : ℚ) * 2 ^ e ≤ q * 2 ^ e := mul_le_mul_of_nonneg_right hmq hpow.le
      _ ≤ roundUp spec (q * 2 ^ e) :=
          le_roundUp spec (mul_nonneg (le_trans (Nat.cast_nonneg m) hmq) hpow.le)

/-- **What rounding makes of a magnitude**. -/
theorem within_roundWithAccuracy {accuracy : Accuracy} (s : Sign)
    (hq : Below (.ofMantissaAndAccuracy m accuracy) q)
    (hshort : (0 < m ∧ accuracy = .exact) ∨ e ≤ spec.targetExponent (totalExponent m e)) :
    Within spec (roundUp spec (q * 2 ^ e)) (roundWithAccuracy spec s m e accuracy) := by
  have hrounded := rounded_shift_le spec hq hshort
  have hq₀ : 0 ≤ q := le_trans (Nat.cast_nonneg _) hq.mantissa_le
  rw [roundWithAccuracy]
  generalize shiftToTargetExponent spec m e accuracy = r at hrounded ⊢
  obtain ⟨em, e₁⟩ := r
  dsimp only at hrounded ⊢
  split
  · exact .zero s ((by positivity : 0 ≤ q * 2 ^ e).trans (le_roundUp spec (by positivity)))
  · refine .finite s _ _ _ ?_ (le_trans ?_ hrounded)
    · have htarget := minExponent_le_targetExponent spec
        (totalExponent em.roundedMantissa e₁)
      simp only [shiftToTargetExponent, shiftToExponent]
      omega
    · exact dropped_le ((Below.exact em.roundedMantissa).shiftRight _)

/-! ### Packing -/

theorem minExponent_eq (spec : Format) :
    spec.minExponent = 1 - (spec.exponentBias : ℤ) - spec.mantissaBitsWithoutImplicit := by
  have hpos : 1 ≤ 2 ^ (spec.exponentBits - 1) := Nat.one_le_two_pow
  rw [Format.minExponent, Format.exponentBias, Format.mantissaBits]
  push_cast [hpos]
  omega

/-- Much less than what rounding needs is enough where only infinity is to be ruled out. -/
theorem roundUp_le (h : 0 ≤ b) : roundUp spec b ≤ 2 * b + 1 := by
  have hunit : (2 : ℚ) ^ (-(spec.mantissaBits : ℤ)) ≤ 1 :=
    zpow_le_one_of_nonpos₀ one_le_two (by omega)
  have hleast : (2 : ℚ) ^ (spec.minExponent - 1) ≤ 1 := by
    have hmin := minExponent_eq spec
    exact zpow_le_one_of_nonpos₀ one_le_two (by omega)
  rw [roundUp]
  nlinarith

theorem two_pow_exponentBits (spec : Format) :
    2 ^ spec.exponentBits = 2 * spec.exponentBias + 2 := by
  have hpos : 1 ≤ 2 ^ (spec.exponentBits - 1) := Nat.one_le_two_pow
  have hbits : spec.exponentBits = spec.exponentBits - 1 + 1 := by
    have := spec.he
    omega
  rw [Format.exponentBias]
  conv_lhs => rw [hbits, pow_succ]
  omega

/-- Above it a format has no numbers. -/
def top (spec : Format) : ℚ := 2 ^ ((spec.exponentBias : ℤ) - spec.mantissaBitsWithoutImplicit)

/-- What is read back after a number was stored. -/
def stored (spec : Format) (x : UnpackedFloat) : UnpackedFloat := unpack spec (pack spec x)

theorem zero_ne_allOnes : (0#(spec.exponentBits)) ≠ -1#_ := by
  intro h
  have hval := congrArg BitVec.toNat h
  have hpos := spec.he
  have hpow : 2 ≤ 2 ^ spec.exponentBits := Nat.le_self_pow hpos.ne' 2
  rw [BitVec.neg_one_eq_allOnes, BitVec.toNat_allOnes, BitVec.toNat_zero] at hval
  omega

theorem within_unpack_subnormal {s : Sign} {m : BitVec spec.mantissaBitsWithoutImplicit}
    (hm : (m.toNat : ℚ) * 2 ^ spec.minExponent ≤ b) :
    Within spec b (unpack spec (packComponents spec s 0#_ m)) := by
  rw [unpack]
  simp only [unpackMantissa_packComponents, unpackExponent_packComponents]
  rw [if_neg zero_ne_allOnes, if_pos trivial]
  have hexp : ((0#(spec.exponentBits)).toNat : ℤ)
      - (spec.exponentBias + spec.mantissaBitsWithoutImplicit) + 1 = spec.minExponent := by
    rw [minExponent_eq, BitVec.toNat_zero]
    omega
  split
  · exact .zero _ (le_trans (by positivity) hm)
  · exact .finite _ _ _ _ hexp.ge (hexp ▸ hm)

theorem toNat_implicit (m : BitVec spec.mantissaBitsWithoutImplicit) :
    (1#1 ++ m).toNat = 2 ^ spec.mantissaBitsWithoutImplicit + m.toNat := by
  rw [BitVec.toNat_append, ← Nat.shiftLeft_add_eq_or_of_lt m.isLt]
  simp [Nat.shiftLeft_eq]

theorem within_unpack_normal {s : Sign} {e : BitVec spec.exponentBits}
    {m : BitVec spec.mantissaBitsWithoutImplicit} (hlarge : e ≠ -1#_) (hpos : e ≠ 0#_)
    (hm : ((2 ^ spec.mantissaBitsWithoutImplicit + m.toNat : ℕ) : ℚ)
      * 2 ^ ((e.toNat : ℤ) - (spec.exponentBias + spec.mantissaBitsWithoutImplicit)) ≤ b) :
    Within spec b (unpack spec (packComponents spec s e m)) := by
  have he : e.toNat ≠ 0 := fun h => hpos (BitVec.eq_of_toNat_eq h)
  rw [unpack]
  simp only [unpackMantissa_packComponents, unpackExponent_packComponents]
  rw [if_neg hlarge, if_neg hpos]
  refine .finite _ _ _ _ ?_ (toNat_implicit m ▸ hm)
  rw [minExponent_eq]
  omega

theorem exponent_lt (hm : 0 < m) (hb : (m : ℚ) * 2 ^ e ≤ b) (htop : b < top spec) :
    e < (spec.exponentBias : ℤ) - spec.mantissaBitsWithoutImplicit := by
  have hone : (1 : ℚ) ≤ m := by exact_mod_cast hm
  have hpow : (0 : ℚ) < 2 ^ e := by positivity
  refine (zpow_lt_zpow_iff_right₀ (one_lt_two (α := ℚ))).mp (lt_of_le_of_lt ?_ (hb.trans_lt htop))
  exact le_mul_of_one_le_left hpow.le hone

theorem implicit_le {k : ℕ} (hlog : m.log2 = k) (hm : 0 < m) : 2 ^ k + m % 2 ^ k ≤ m := by
  have hle : 2 ^ k ≤ m := hlog ▸ Nat.log2_self_le hm.ne'
  have hdiv : 1 ≤ m / 2 ^ k := (Nat.one_le_div_iff (by positivity)).mpr hle
  have hparts := Nat.div_add_mod m (2 ^ k)
  have := Nat.mul_le_mul_left (2 ^ k) hdiv
  omega

/-- **Storing loses no bound**: below the top of the format. -/
theorem Within.stored (h : Within spec b x) (htop : b < top spec) :
    Within spec b (stored spec x) := by
  rw [Floats.stored]
  cases h with
  | zero s hb => exact within_unpack_subnormal (by simpa using hb)
  | finite s m e hm he hb =>
    have hlt := exponent_lt hm hb htop
    have hbits := two_pow_exponentBits spec
    have hmin := minExponent_eq spec
    have hpow : (0 : ℚ) < 2 ^ e := by positivity
    rw [pack]
    generalize hbiased : (e + spec.exponentBias + spec.mantissaBitsWithoutImplicit).toNat = biased
    have hpos : 0 < biased := by omega
    rw [if_neg (by omega)]
    split
    next hlog =>
      have hexp : (BitVec.ofNat spec.exponentBits biased).toNat = biased :=
        Nat.mod_eq_of_lt (by omega)
      refine within_unpack_normal ?_ ?_ ?_
      · intro h
        have hval := congrArg BitVec.toNat h
        rw [hexp, BitVec.neg_one_eq_allOnes, BitVec.toNat_allOnes] at hval
        omega
      · intro h
        have hval := congrArg BitVec.toNat h
        rw [hexp, BitVec.toNat_zero] at hval
        omega
      · have he' : ((biased : ℤ) - (spec.exponentBias + spec.mantissaBitsWithoutImplicit)) = e := by
          omega
        rw [hexp, BitVec.toNat_ofNat, he']
        refine le_trans (mul_le_mul_of_nonneg_right ?_ hpow.le) hb
        exact_mod_cast implicit_le (by rw [Format.mantissaBits] at hlog; omega) hm
    next =>
      refine within_unpack_subnormal (le_trans ?_ hb)
      rw [BitVec.toNat_ofNat]
      have hmod : ((m % 2 ^ spec.mantissaBitsWithoutImplicit : ℕ) : ℚ) ≤ m := by
        exact_mod_cast Nat.mod_le ..
      have hexp : (2 : ℚ) ^ spec.minExponent ≤ 2 ^ e := zpow_le_zpow_right₀ one_le_two he
      exact mul_le_mul hmod hexp (by positivity) (Nat.cast_nonneg m)

/-! ### Bits -/

theorem packComponents_parts (b : BitVec spec.numBits) :
    packComponents spec (Sign.ofBitVec (unpackSign b)) (unpackExponent b) (unpackMantissa b)
      = b := by
  have hsign : ∀ v : BitVec 1, (Sign.ofBitVec v).toBitVec = v := by decide
  have hm := spec.hm
  have he := spec.he
  rw [packComponents, hsign]
  ext i hi
  rw [BitVec.getElem_append]
  split
  · simp [unpackMantissa, BitVec.getLsbD_eq_getElem hi]
  · rw [BitVec.getElem_append]
    split
    · simp only [unpackExponent, BitVec.getElem_cast, BitVec.getElem_extractLsb',
        BitVec.extractLsb]
      rw [← BitVec.getLsbD_eq_getElem hi]
      congr 1
      omega
    · simp only [unpackSign, BitVec.getElem_cast, BitVec.getElem_extractLsb',
        BitVec.extractLsb]
      rw [← BitVec.getLsbD_eq_getElem hi]
      congr 1
      omega

/-- **Storing what was read gives the same bits.** -/
theorem pack_unpack {b : BitVec spec.numBits} (hvalid : spec.Valid b)
    (hexp : 1 < spec.exponentBits) : pack spec (unpack spec b) = b := by
  have hparts := packComponents_parts b
  have hbits := two_pow_exponentBits spec
  have hlt := (unpackExponent b).isLt
  have hm := (unpackMantissa b).isLt
  rw [unpack]
  split
  next hones =>
    split
    next hzero =>
      rw [hones, hzero] at hparts
      exact hparts
    next hnan => exact (hvalid.eq_packedNaN hones hnan).symm
  next hlarge =>
  have hne : (unpackExponent b).toNat ≠ 2 ^ spec.exponentBits - 1 := by
    intro h
    refine hlarge (BitVec.eq_of_toNat_eq ?_)
    rw [BitVec.neg_one_eq_allOnes, BitVec.toNat_allOnes, h]
  split
  next hsmall =>
    rw [hsmall] at hparts
    split
    next hzero =>
      rw [hzero] at hparts
      exact hparts
    next hpos =>
      -- a subnormal number
      have hpos : (unpackMantissa b).toNat ≠ 0 := fun h => hpos (BitVec.eq_of_toNat_eq h)
      have hlog : (unpackMantissa b).toNat.log2 + 1 ≠ spec.mantissaBits := by
        have := (Nat.log2_lt hpos).mpr hm
        rw [Format.mantissaBits]
        omega
      have hpow : 2 ^ 2 ≤ 2 ^ spec.exponentBits := Nat.pow_le_pow_right two_pos hexp
      rw [pack, if_neg (by rw [hsmall, BitVec.toNat_zero]; omega), if_neg hlog,
        BitVec.ofNat_toNat, BitVec.setWidth_eq]
      exact hparts
  next hnormal =>
    have hpos : (unpackExponent b).toNat ≠ 0 := fun h => hnormal (BitVec.eq_of_toNat_eq h)
    have hlog : (1#1 ++ unpackMantissa b).toNat.log2 + 1 = spec.mantissaBits := by
      rw [Format.mantissaBits, toNat_implicit, Nat.add_comm 1]
      congr 1
      refine (Nat.log2_eq_iff (by positivity)).mpr ⟨by omega, ?_⟩
      rw [pow_succ]
      omega
    have hbiased : ((unpackExponent b).toNat - (spec.exponentBias
        + spec.mantissaBitsWithoutImplicit) + spec.exponentBias
        + spec.mantissaBitsWithoutImplicit : ℤ).toNat = (unpackExponent b).toNat := by
      omega
    have hmantissa : BitVec.ofNat spec.mantissaBitsWithoutImplicit
        (1#1 ++ unpackMantissa b).toNat = unpackMantissa b := by
      refine BitVec.eq_of_toNat_eq ?_
      rw [toNat_implicit, BitVec.toNat_ofNat, Nat.add_mod_left, Nat.mod_eq_of_lt hm]
    rw [pack, hbiased, if_neg (by omega), if_pos hlog, hmantissa, BitVec.ofNat_toNat,
      BitVec.setWidth_eq]
    exact hparts


/-! ### Operations -/

theorem decreaseExponent_value {t : ℤ} (hle : t ≤ e) :
    (decreaseExponent m e t).1 * (2 : ℚ) ^ t = m * 2 ^ e := by
  obtain ⟨k, rfl⟩ := Int.le.dest hle
  have hk : (t + (k : ℤ) - t).toNat = k := by omega
  rw [decreaseExponent, hk, Nat.shiftLeft_eq, zpow_add₀ two_ne_zero, zpow_natCast]
  push_cast
  ring

theorem within_round (e : ℤ) (s : Sign) (hm : 0 < m) :
    Within spec (roundUp spec (m * 2 ^ e)) (UnpackedFloat.round spec s m e) := by
  rw [UnpackedFloat.round, decreaseExponent]
  generalize spec.targetExponent (totalExponent m e) = t
  have hpos : 0 < m <<< (e - t).toNat := by
    rw [Nat.shiftLeft_eq]
    positivity
  have hvalue : ((m <<< (e - t).toNat : ℕ) : ℚ) * 2 ^ (e - ((e - t).toNat : ℤ)) = m * 2 ^ e := by
    rw [Nat.shiftLeft_eq, zpow_sub₀ two_ne_zero, zpow_natCast]
    push_cast
    field_simp
  rw [← hvalue]
  exact within_roundWithAccuracy s (Below.exact _) (.inl ⟨hpos, rfl⟩)

theorem within_normalize (spec : Format) (m e : ℤ) (s : Sign) :
    Within spec (roundUp spec (|(m : ℚ)| * 2 ^ e)) (UnpackedFloat.normalize spec m e s) := by
  have hnonneg : 0 ≤ |(m : ℚ)| * 2 ^ e := by positivity
  rw [UnpackedFloat.normalize]
  split
  next h =>
    have hneg : m < 0 := compare_lt_iff_lt.mp h
    have hcast : (((-m).toNat : ℕ) : ℚ) = |(m : ℚ)| := by
      rw [abs_of_neg (by exact_mod_cast hneg)]
      exact_mod_cast Int.toNat_of_nonneg (by omega : 0 ≤ -m)
    exact hcast ▸ within_round e .negative (by omega)
  next => exact .zero s (hnonneg.trans (le_roundUp spec hnonneg))
  next h =>
    have hpos : 0 < m := compare_gt_iff_gt.mp h
    have hcast : ((m.toNat : ℕ) : ℚ) = |(m : ℚ)| := by
      rw [abs_of_pos (by exact_mod_cast hpos)]
      exact_mod_cast Int.toNat_of_nonneg hpos.le
    exact hcast ▸ within_round e .positive (by omega)

theorem within_ofNat (n : ℕ) : Within spec (roundUp spec n) (ofNat spec n) := by
  have h := within_normalize spec n 0 .positive
  rw [zpow_zero, mul_one, Int.cast_natCast, Nat.abs_cast] at h
  exact h

theorem abs_apply (s : Sign) (n : ℕ) : |((s.apply n : ℤ) : ℚ)| = n := by
  cases s <;> simp [Sign.apply]

theorem within_combined {m₁ m₂ : ℕ} {e₁ e₂ : ℤ} (combine : ℤ → ℤ → ℤ)
    (habs : ∀ i j : ℤ, |((combine i j : ℤ) : ℚ)| ≤ |(i : ℚ)| + |(j : ℚ)|) (s₁ s₂ : Sign)
    (hb : (m₁ : ℚ) * 2 ^ e₁ ≤ b) (hc : (m₂ : ℚ) * 2 ^ e₂ ≤ c) :
    Within spec (roundUp spec (b + c)) (UnpackedFloat.normalize spec
      (combine (s₁.apply (decreaseExponent m₁ e₁ (min e₁ e₂)).1)
        (s₂.apply (decreaseExponent m₂ e₂ (min e₁ e₂)).1)) (min e₁ e₂) .positive) := by
  refine (within_normalize spec _ _ _).mono (roundUp_mono ?_)
  have hpow : (0 : ℚ) < 2 ^ min e₁ e₂ := by positivity
  calc _ ≤ (|((s₁.apply (decreaseExponent m₁ e₁ (min e₁ e₂)).1 : ℤ) : ℚ)|
          + |((s₂.apply (decreaseExponent m₂ e₂ (min e₁ e₂)).1 : ℤ) : ℚ)|) * 2 ^ min e₁ e₂ :=
        mul_le_mul_of_nonneg_right (habs _ _) hpow.le
    _ = m₁ * 2 ^ e₁ + m₂ * 2 ^ e₂ := by
        rw [abs_apply, abs_apply, add_mul, decreaseExponent_value (min_le_left ..),
          decreaseExponent_value (min_le_right ..)]
    _ ≤ b + c := add_le_add hb hc

theorem Within.add (hx : Within spec b x) (hy : Within spec c y) :
    Within spec (roundUp spec (b + c)) (UnpackedFloat.add spec x y) := by
  have hsum := add_nonneg hx.nonneg hy.nonneg
  have hround := le_roundUp spec hsum
  cases hx with
  | zero s₁ hb =>
    cases hy with
    | zero s₂ hc =>
      rw [UnpackedFloat.add]
      split <;> exact .zero _ (hsum.trans hround)
    | finite s₂ m₂ e₂ hm₂ he₂ hc =>
      exact (Within.finite s₂ m₂ e₂ hm₂ he₂ hc).mono ((le_add_of_nonneg_left hb).trans hround)
  | finite s₁ m₁ e₁ hm₁ he₁ hb =>
    cases hy with
    | zero s₂ hc =>
      exact (Within.finite s₁ m₁ e₁ hm₁ he₁ hb).mono ((le_add_of_nonneg_right hc).trans hround)
    | finite s₂ m₂ e₂ hm₂ he₂ hc =>
      exact within_combined (· + ·) (fun i j => by push_cast; exact abs_add_le _ _) s₁ s₂ hb hc

theorem Within.sub (hx : Within spec b x) (hy : Within spec c y) :
    Within spec (roundUp spec (b + c)) (UnpackedFloat.sub spec x y) := by
  have hsum := add_nonneg hx.nonneg hy.nonneg
  have hround := le_roundUp spec hsum
  cases hx with
  | zero s₁ hb =>
    cases hy with
    | zero s₂ hc =>
      rw [UnpackedFloat.sub]
      split <;> exact .zero _ (hsum.trans hround)
    | finite s₂ m₂ e₂ hm₂ he₂ hc =>
      exact (Within.finite (-s₂) m₂ e₂ hm₂ he₂ hc).mono ((le_add_of_nonneg_left hb).trans hround)
  | finite s₁ m₁ e₁ hm₁ he₁ hb =>
    cases hy with
    | zero s₂ hc =>
      exact (Within.finite s₁ m₁ e₁ hm₁ he₁ hb).mono ((le_add_of_nonneg_right hc).trans hround)
    | finite s₂ m₂ e₂ hm₂ he₂ hc =>
      exact within_combined (· - ·) (fun i j => by push_cast; exact abs_sub _ _) s₁ s₂ hb hc

theorem Within.mul (hx : Within spec b x) (hy : Within spec c y) :
    Within spec (roundUp spec (b * c)) (UnpackedFloat.mul spec x y) := by
  have hprod := mul_nonneg hx.nonneg hy.nonneg
  have hround := hprod.trans (le_roundUp spec hprod)
  cases hx with
  | zero s₁ hb => cases hy <;> exact .zero _ hround
  | finite s₁ m₁ e₁ hm₁ he₁ hb =>
    cases hy with
    | zero s₂ hc => exact .zero _ hround
    | finite s₂ m₂ e₂ hm₂ he₂ hc =>
      refine (within_roundWithAccuracy _ (Below.exact _)
        (.inl ⟨Nat.mul_pos hm₁ hm₂, rfl⟩)).mono (roundUp_mono ?_)
      calc ((m₁ * m₂ : ℕ) : ℚ) * 2 ^ (e₁ + e₂) = m₁ * 2 ^ e₁ * (m₂ * 2 ^ e₂) := by
            rw [zpow_add₀ two_ne_zero]
            push_cast
            ring
        _ ≤ b * c := mul_le_mul hb hc (by positivity) (le_trans (by positivity) hb)

/-! ### Division -/

theorem Below.fraction (n d : ℕ) (hd : 0 < d) :
    Below (.ofMantissaAndAccuracy (n / d) (accuracyOfFraction (n % d) d)) (n / d : ℚ) := by
  have hd' : (0 : ℚ) < d := by exact_mod_cast hd
  have hparts : (d : ℚ) * (n / d : ℕ) + (n % d : ℕ) = n := by exact_mod_cast Nat.div_add_mod n d
  have hrest : (0 : ℚ) ≤ (n % d : ℕ) := Nat.cast_nonneg _
  have hfloor : (2 : ℚ) * (n / d : ℕ) ≤ 2 * (n / d) := by
    rw [mul_le_mul_iff_right₀ two_pos, le_div_iff₀ hd']
    linarith
  have hhalf (h : d ≤ 2 * (n % d)) : (2 : ℚ) * (n / d : ℕ) + 1 ≤ 2 * (n / d) := by
    have h' : (d : ℚ) ≤ 2 * (n % d : ℕ) := by exact_mod_cast h
    rw [← mul_div_assoc, le_div_iff₀ hd']
    linarith
  rw [accuracyOfFraction]
  split
  · simpa [Below, ExtendedMantissa.ofMantissaAndAccuracy] using hfloor
  · rcases hcmp : compare (2 * (n % d)) d with - | - | -
    · simpa [Below, ExtendedMantissa.ofMantissaAndAccuracy] using hfloor
    · simpa [Below, ExtendedMantissa.ofMantissaAndAccuracy] using
        hhalf (compare_eq_iff_eq.mp hcmp).ge
    · simpa [Below, ExtendedMantissa.ofMantissaAndAccuracy] using
        hhalf (compare_gt_iff_gt.mp hcmp).le

theorem log2_le_log2_div {n d : ℕ} (hn : 0 < n) (hd : 0 < d) :
    n.log2 ≤ (n / d).log2 + d.log2 + 1 := by
  rcases Nat.lt_or_ge n.log2 (d.log2 + 1) with hlt | hge
  · omega
  have hle := Nat.log2_self_le hn.ne'
  have hlt : d < 2 ^ (d.log2 + 1) := Nat.lt_log2_self
  have hquot : 2 ^ (n.log2 - (d.log2 + 1)) ≤ n / d := by
    rw [Nat.le_div_iff_mul_le hd]
    calc 2 ^ (n.log2 - (d.log2 + 1)) * d
        ≤ 2 ^ (n.log2 - (d.log2 + 1)) * 2 ^ (d.log2 + 1) := Nat.mul_le_mul_left _ hlt.le
      _ = 2 ^ n.log2 := by rw [← pow_add, Nat.sub_add_cancel hge]
      _ ≤ n := hle
  have hpos : 0 < n / d := lt_of_lt_of_le (by positivity) hquot
  have := (Nat.le_log2 hpos.ne').mpr hquot
  omega

theorem log2_shiftLeft (k : ℕ) (hm : 0 < m) : (m <<< k).log2 = m.log2 + k := by
  have hlt : m < 2 ^ (m.log2 + 1) := Nat.lt_log2_self
  rw [Nat.shiftLeft_eq, Nat.log2_eq_iff (by positivity)]
  constructor
  · rw [pow_add]
    exact Nat.mul_le_mul_right _ (Nat.log2_self_le hm.ne')
  · rw [Nat.add_right_comm, pow_add]
    exact Nat.mul_lt_mul_of_pos_right hlt (by positivity)

/-- A number of magnitude `c` at least. -/
def AtLeast (c : ℚ) : UnpackedFloat → Prop
  | .finite _ m e _ => c ≤ m * 2 ^ e
  | _ => False

theorem Within.div (hx : Within spec b x) (hy : AtLeast c y) (hc : 0 < c) :
    Within spec (roundUp spec (b / c)) (UnpackedFloat.div spec x y) := by
  have hquot := div_nonneg hx.nonneg hc.le
  have hb₀ := hx.nonneg
  cases y with
  | finite s₂ m₂ e₂ hm₂ =>
    cases hx with
    | zero s₁ hb => exact .zero _ (hquot.trans (le_roundUp spec hquot))
    | finite s₁ m₁ e₁ hm₁ he₁ hb =>
      rw [UnpackedFloat.div, divCore]
      generalize hfine : spec.targetExponent (totalExponent m₁ e₁ - totalExponent m₂ e₂) = fine
      obtain ⟨k, hk⟩ := Int.le.dest (min_le_left (e₁ - e₂) fine)
      have hshift : (e₁ - e₂ - min (e₁ - e₂) fine).toNat = k := by omega
      have hfine' : min (e₁ - e₂) fine ≤ fine := min_le_right ..
      dsimp only
      rw [hshift]
      generalize min (e₁ - e₂) fine = e at hk hfine' ⊢
      refine (within_roundWithAccuracy _ (Below.fraction _ m₂ hm₂) (.inr ?_)).mono
        (roundUp_mono ?_)
      · have hlog := log2_le_log2_div (n := m₁ <<< k) (d := m₂)
          (by rw [Nat.shiftLeft_eq]; positivity) hm₂
        rw [log2_shiftLeft k hm₁] at hlog
        simp only [Format.targetExponent, totalExponent] at hfine ⊢
        omega
      · calc ((m₁ <<< k : ℕ) : ℚ) / m₂ * 2 ^ e = m₁ * 2 ^ e₁ / (m₂ * 2 ^ e₂) := by
              have he : e₁ = e + k + e₂ := by omega
              rw [he, Nat.shiftLeft_eq, zpow_add₀ two_ne_zero, zpow_add₀ two_ne_zero, zpow_natCast]
              push_cast
              field_simp
          _ ≤ b / c := div_le_div₀ hb₀ hb hc hy
  | _ => exact hy.elim

/-! ### Whole parts -/

theorem roundToInt_le (s : Sign) (m : ℕ) (e : ℤ) : ((roundToInt s m e : ℤ) : ℚ) ≤ m * 2 ^ e := by
  have hdropped := ((Below.exact (m <<< e.toNat)).shiftRight (-(e - e.toNat)).toNat).mantissa_le
  have hvalue : ((m <<< e.toNat : ℕ) : ℚ) / 2 ^ (-(e - e.toNat)).toNat = m * 2 ^ e := by
    rcases le_total 0 e with he | he
    · obtain ⟨k, rfl⟩ := Int.eq_ofNat_of_zero_le he
      simp [Nat.shiftLeft_eq]
    · obtain ⟨k, hk⟩ := Int.eq_ofNat_of_zero_le (neg_nonneg.mpr he)
      obtain rfl : e = -(k : ℤ) := by omega
      simp [div_eq_mul_inv]
  have happly (n : ℕ) : ((s.apply n : ℤ) : ℚ) ≤ n := (le_abs_self _).trans_eq (abs_apply s n)
  refine (happly _).trans (le_of_le_of_eq ?_ hvalue)
  simpa [decreaseExponent, shiftToExponent] using hdropped

theorem toInt_le (low high : ℤ) (h : Within spec b x) : ((x.toInt low high : ℤ) : ℚ) ≤ b := by
  cases h with
  | zero s hb => simpa [toInt] using hb
  | finite s m e hm he hb => exact (roundToInt_le s m e).trans hb

/-! ### Comparing -/

theorem swap_compare_then {α β : Type} [Ord α] [Ord β] [Std.OrientedOrd α] [Std.OrientedOrd β]
    (a a' : α) (d d' : β) :
    ((compare a a').then (compare d d')).swap = (compare a' a).then (compare d' d) := by
  rw [Ordering.swap_then, ← Std.OrientedOrd.eq_swap, ← Std.OrientedOrd.eq_swap]

theorem compare_swap (x y : UnpackedFloat) :
    y.compare x = (x.compare y).map Ordering.swap := by
  cases x with
  | notANumber => cases y <;> rfl
  | infinity s₁ => cases s₁ <;> rcases y with (- | -) | - | (- | -) | ⟨- | -, -, -, -⟩ <;> rfl
  | zero s₁ => cases s₁ <;> rcases y with (- | -) | - | (- | -) | ⟨- | -, -, -, -⟩ <;> rfl
  | finite s₁ m₁ e₁ hm₁ =>
    cases y with
    | notANumber => cases s₁ <;> rfl
    | infinity s₂ => cases s₁ <;> cases s₂ <;> rfl
    | zero s₂ => cases s₁ <;> cases s₂ <;> rfl
    | finite s₂ m₂ e₂ hm₂ =>
      cases s₁ <;> cases s₂
      · exact congrArg some (congrArg Ordering.swap (swap_compare_then e₁ e₂ m₁ m₂).symm)
      · rfl
      · rfl
      · exact congrArg some (swap_compare_then e₁ e₂ m₁ m₂).symm

theorem comparable (hx : x.isNaN = false) (hy : y.isNaN = false) :
    ∃ o, x.compare y = some o := by
  cases x with
  | notANumber => cases hx
  | infinity s₁ =>
    cases y with
    | notANumber => cases hy
    | _ => cases s₁ <;> exact ⟨_, rfl⟩
  | zero s₁ =>
    cases y with
    | notANumber => cases hy
    | zero s₂ => exact ⟨_, rfl⟩
    | infinity s₂ | finite s₂ => cases s₂ <;> exact ⟨_, rfl⟩
  | finite s₁ m₁ e₁ hm₁ =>
    cases y with
    | notANumber => cases hy
    | zero s₂ => cases s₁ <;> exact ⟨_, rfl⟩
    | infinity s₂ | finite s₂ => cases s₁ <;> cases s₂ <;> exact ⟨_, rfl⟩

theorem le_self (hx : x.isNaN = false) : x.le x = true := by
  obtain ⟨o, ho⟩ := comparable hx hx
  have hswap := compare_swap x x
  rw [ho] at hswap
  rw [UnpackedFloat.le, ho]
  cases o with
  | lt => cases hswap
  | eq => rfl
  | gt => cases hswap

theorem le_of_not_lt (hx : x.isNaN = false) (hy : y.isNaN = false) (h : x.lt y = false) :
    y.le x = true := by
  obtain ⟨o, ho⟩ := comparable hx hy
  rw [UnpackedFloat.lt, ho] at h
  rw [UnpackedFloat.le, compare_swap, ho]
  cases o with
  | lt => cases h
  | eq => rfl
  | gt => rfl

theorem isNaN_sub (hx : x.isFinite = true) (hy : y.isFinite = true) :
    (UnpackedFloat.sub spec x y).isNaN = false := by
  cases x with
  | notANumber | infinity => cases hx
  | zero s₁ =>
    cases y with
    | notANumber | infinity => cases hy
    | zero s₂ =>
      rw [UnpackedFloat.sub]
      split <;> rfl
    | finite => rfl
  | finite s₁ m₁ e₁ hm₁ =>
    cases y with
    | notANumber | infinity => cases hy
    | zero s₂ => rfl
    | finite s₂ m₂ e₂ hm₂ => exact (within_normalize spec _ _ _).not_nan

theorem isNaN_stored (hx : x.isNaN = false) : (stored spec x).isNaN = false := by
  have hread : ∀ (s : Sign) (e : BitVec spec.exponentBits)
      (m : BitVec spec.mantissaBitsWithoutImplicit), (e = -1#_ → m = 0#_) →
      (unpack spec (packComponents spec s e m)).isNaN = false := by
    intro s e m he
    rw [unpack]
    simp only [unpackMantissa_packComponents, unpackExponent_packComponents]
    split
    next h =>
      rw [if_pos (he h)]
      rfl
    · split
      · split <;> rfl
      · rfl
  rw [stored]
  fun_cases pack spec x with
  | case1 => cases hx
  | case2 s => exact hread s _ _ fun _ => rfl
  | case3 s => exact hread s _ _ fun _ => rfl
  | case4 s m e hm biased h => exact hread s _ _ fun _ => rfl
  | case5 s m e hm actual biased h₁ h₂ =>
    refine hread s _ _ fun h => ?_
    have hval := congrArg BitVec.toNat h
    rw [BitVec.neg_one_eq_allOnes, BitVec.toNat_allOnes, BitVec.toNat_ofNat,
      Nat.mod_eq_of_lt (by omega)] at hval
    omega
  | case6 s m e hm actual biased h₁ h₂ => exact hread s _ _ fun h => absurd h zero_ne_allOnes

end Floats

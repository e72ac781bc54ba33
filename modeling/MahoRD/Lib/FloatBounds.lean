/-
MahoRD/Lib/FloatBounds.lean

The bounds of `MahoRD.Lib.Floats` for `Float` and `Float32` themselves, whose operations store
what the format's operations give.  The bounds of a `Float` are as sharp as rounding allows; for a
`Float32` they are only to rule out infinity and `NaN`.
-/
import MahoRD.Lib.Floats

namespace Floats

open Float.Model (Format UnpackedFloat)

variable {b c : ℚ}

/-! ### Double precision -/

section Double

variable {x y : Float}

/-- A `Float` of magnitude `b` at most. -/
def Bounded (b : ℚ) (x : Float) : Prop := Within .binary64 b x.toModel.unpack

/-- A `Float` of magnitude `c` at least. -/
def FarFromZero (c : ℚ) (x : Float) : Prop := AtLeast c x.toModel.unpack

theorem Bounded.mono (h : Bounded b x) (hbc : b ≤ c) : Bounded c x := Within.mono h hbc

theorem Bounded.mul (hx : Bounded b x) (hy : Bounded c y)
    (htop : roundUp .binary64 (b * c) < top .binary64) :
    Bounded (roundUp .binary64 (b * c)) (x * y) :=
  (Within.mul hx hy).stored htop

theorem Bounded.div (hx : Bounded b x) (hy : FarFromZero c y) (hc : 0 < c)
    (htop : roundUp .binary64 (b / c) < top .binary64) :
    Bounded (roundUp .binary64 (b / c)) (x / y) :=
  (Within.div hx hy hc).stored htop

theorem bounded_toFloat (n : UInt32) (htop : roundUp .binary64 n.toNat < top .binary64) :
    Bounded (roundUp .binary64 n.toNat) n.toFloat :=
  (within_ofNat n.toNat).stored htop

theorem bounded_toFloat64 (n : UInt64) (htop : roundUp .binary64 n.toNat < top .binary64) :
    Bounded (roundUp .binary64 n.toNat) n.toFloat :=
  (within_ofNat n.toNat).stored htop

theorem toNat_ofNatClamp_le (n : ℕ) : (UInt64.ofNatClamp n).toNat ≤ n := by
  rw [UInt64.ofNatClamp]
  split
  · exact Nat.le_refl n
  next h => exact Nat.le_of_lt (lt_of_lt_of_le (UInt64.toNat_lt _) (not_lt.mp h))

theorem Bounded.toUInt64_le (h : Bounded b x) : (x.toUInt64.toNat : ℚ) ≤ b := by
  have hint := toInt_le 0 (UInt64.size - 1) h
  have hclamp : x.toUInt64.toNat ≤ (x.toModel.unpack.toInt 0 (UInt64.size - 1)).toNat :=
    toNat_ofNatClamp_le _
  rcases le_total 0 (x.toModel.unpack.toInt 0 (UInt64.size - 1)) with hpos | hneg
  · refine le_trans ?_ hint
    exact_mod_cast (Int.ofNat_le.mpr hclamp).trans_eq (Int.toNat_of_nonneg hpos)
  · rw [Int.toNat_of_nonpos hneg, Nat.le_zero] at hclamp
    rw [hclamp]
    exact_mod_cast Within.nonneg h

end Double

theorem top_binary64 : (2 ^ 200 : ℚ) < top .binary64 := by
  rw [top, ← zpow_natCast]
  exact zpow_lt_zpow_right₀ one_lt_two (by decide)

theorem roundUp_binary64_le (h : 1 / 2 ^ 100 ≤ b) :
    roundUp .binary64 b ≤ b * (1 + 1 / 2 ^ 52) := by
  have hround : roundUp .binary64 b = b * (1 + 2 ^ (-53 : ℤ)) + 2 ^ (-1075 : ℤ) := rfl
  have htiny : (2 : ℚ) ^ (-1075 : ℤ) ≤ 2 ^ (-153 : ℤ) := zpow_le_zpow_right₀ one_le_two (by decide)
  have hunit : (2 : ℚ) ^ (-53 : ℤ) = 1 / 2 ^ 53 := by norm_num
  have hleast : (2 : ℚ) ^ (-153 : ℤ) = 1 / 2 ^ 100 * (1 / 2 ^ 53) := by norm_num
  rw [hround, hunit]
  rw [hleast] at htiny
  linarith

/-! ### Single precision -/

section Single

variable {x y : Float32}

/-- A `Float32` of magnitude `b` at most. -/
def Bounded32 (b : ℚ) (x : Float32) : Prop := Within .binary32 b x.toModel.unpack

theorem Bounded32.mono (h : Bounded32 b x) (hbc : b ≤ c) : Bounded32 c x := Within.mono h hbc

theorem Bounded32.literal {s : UnpackedFloat.Sign} {m : ℕ} {e : ℤ} {hm : 0 < m}
    (hx : x.toModel.unpack = .finite s m e hm) (he : -149 ≤ e) (hb : (m : ℚ) * 2 ^ e ≤ b) :
    Bounded32 b x := by
  rw [Bounded32, hx]
  exact .finite s m e hm he hb

theorem top_binary32 : (10 ^ 30 : ℚ) < top .binary32 := by
  change (10 ^ 30 : ℚ) < 2 ^ (104 : ℤ)
  norm_num

/-- `as f32` -/
def narrow (x : Float) : Float32 :=
  .ofModel (.pack (match x.toModel.unpack with
    | .finite s m e _ => UnpackedFloat.round .binary32 s m e
    | other => other))

theorem bounded32_stored {u : UnpackedFloat} (h : Within .binary32 (roundUp .binary32 b) u)
    (hb : 0 ≤ b) (hc : 2 * b + 1 ≤ c) (htop : c < top .binary32) :
    Within .binary32 c (stored .binary32 u) :=
  (h.mono ((roundUp_le hb).trans hc)).stored htop

theorem Bounded32.add (hx : Bounded32 b x) (hy : Bounded32 c y)
    (htop : 2 * (b + c) + 1 < top .binary32) : Bounded32 (2 * (b + c) + 1) (x + y) :=
  bounded32_stored (Within.add hx hy) (add_nonneg hx.nonneg hy.nonneg) le_rfl htop

theorem Bounded32.sub (hx : Bounded32 b x) (hy : Bounded32 c y)
    (htop : 2 * (b + c) + 1 < top .binary32) : Bounded32 (2 * (b + c) + 1) (x - y) :=
  bounded32_stored (Within.sub hx hy) (add_nonneg hx.nonneg hy.nonneg) le_rfl htop

theorem Bounded32.mul (hx : Bounded32 b x) (hy : Bounded32 c y)
    (htop : 2 * (b * c) + 1 < top .binary32) : Bounded32 (2 * (b * c) + 1) (x * y) :=
  bounded32_stored (Within.mul hx hy) (mul_nonneg hx.nonneg hy.nonneg) le_rfl htop

theorem bounded32_toFloat32 (n : UInt8) (htop : 2 * (n.toNat : ℚ) + 1 < top .binary32) :
    Bounded32 (2 * n.toNat + 1) n.toFloat32 :=
  bounded32_stored (within_ofNat n.toNat) (Nat.cast_nonneg _) le_rfl htop

@[simp] theorem ofBits_toBits32 (x : Float32) : Float32.ofBits x.toBits = x := by
  obtain ⟨⟨bits, hvalid⟩⟩ := x
  have hbits := pack_unpack hvalid (by decide)
  show Float32.ofModel ⟨.ofBitVec (UnpackedFloat.pack .binary32
    (UnpackedFloat.unpack .binary32 bits.toBitVec)), _⟩ = _
  congr 2
  rw [hbits]

theorem le_self32 (hx : x.isNaN = false) : x ≤ x := decide_eq_true (le_self hx)

theorem le_of_not_lt32 (hx : x.isNaN = false) (hy : y.isNaN = false) (h : ¬ x < y) : y ≤ x := by
  have hlt : x.toModel.unpack.lt y.toModel.unpack = false :=
    Bool.eq_false_iff.mpr fun hlt => h (decide_eq_true hlt)
  exact decide_eq_true (le_of_not_lt hx hy hlt)

theorem Bounded32.le_of_not_lt (hx : Bounded32 b x) (hy : Bounded32 c y) (h : ¬ x < y) :
    y ≤ x := le_of_not_lt32 hx.not_nan hy.not_nan h

theorem isNaN_sub32 (hx : x.isFinite = true) (hy : y.isFinite = true) :
    (x - y).isNaN = false := isNaN_stored (isNaN_sub hx hy)

theorem isNaN_of_isFinite32 (hx : x.isFinite = true) : x.isNaN = false := by
  have hunpacked : x.toModel.unpack.isFinite = true := hx
  show x.toModel.unpack.isNaN = false
  cases h : x.toModel.unpack with
  | notANumber =>
    rw [h] at hunpacked
    cases hunpacked
  | infinity | zero | finite => rfl

end Single

end Floats

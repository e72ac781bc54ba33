/-
MahoRD/Lib/Bytes.lean

Numbers as byte strings of a fixed width, in either byte order.
-/
import Mathlib.Data.List.Basic
import Mathlib.Algebra.GroupWithZero.Nat

namespace Bytes

/-- The `width` low bytes of `n`, least significant first. -/
def toLE : (width : ℕ) → ℕ → List UInt8
  | 0, _ => []
  | width + 1, n => UInt8.ofNat n :: toLE width (n / 256)

/-- The number a byte string spells, least significant byte first. -/
def ofLE : List UInt8 → ℕ
  | [] => 0
  | b :: bs => b.toNat + 256 * ofLE bs

/-- The `width` low bytes of `n`, most significant first. -/
def toBE (width n : ℕ) : List UInt8 := (toLE width n).reverse

/-- The number a byte string spells, most significant byte first. -/
def ofBE (bs : List UInt8) : ℕ := ofLE bs.reverse

@[simp] theorem length_toLE (width n : ℕ) : (toLE width n).length = width := by
  induction width generalizing n with
  | zero => rfl
  | succ width ih => simp [toLE, ih]

@[simp] theorem length_toBE (width n : ℕ) : (toBE width n).length = width := by
  simp [toBE]

theorem ofLE_toLE (width n : ℕ) (h : n < 256 ^ width) : ofLE (toLE width n) = n := by
  induction width generalizing n with
  | zero =>
    have : n = 0 := by simpa using h
    simp [toLE, ofLE, this]
  | succ width ih =>
    have hdiv : n / 256 < 256 ^ width := by
      rw [Nat.div_lt_iff_lt_mul (by decide)]
      rwa [Nat.pow_succ] at h
    have hbyte : (UInt8.ofNat n).toNat = n % 256 := by simp
    simp only [toLE, ofLE, ih _ hdiv, hbyte]
    omega

theorem toLE_inj {width n m : ℕ} (hn : n < 256 ^ width) (hm : m < 256 ^ width)
    (h : toLE width n = toLE width m) : n = m := by
  rw [← ofLE_toLE width n hn, h, ofLE_toLE width m hm]

theorem toLE_ofLE (bs : List UInt8) : toLE bs.length (ofLE bs) = bs := by
  induction bs with
  | nil => rfl
  | cons b bs ih =>
    have hdiv : (b.toNat + 256 * ofLE bs) / 256 = ofLE bs := by
      have := b.toNat_lt
      omega
    have hbyte : UInt8.ofNat (b.toNat + 256 * ofLE bs) = b := by
      apply UInt8.toNat.inj
      simp
    rw [List.length_cons, ofLE, toLE, hdiv, hbyte, ih]

theorem ofLE_lt (bs : List UInt8) : ofLE bs < 256 ^ bs.length := by
  induction bs with
  | nil => decide
  | cons b bs ih =>
    have hb := b.toNat_lt
    rw [List.length_cons, Nat.pow_succ, ofLE]
    omega

theorem ofBE_toBE (width n : ℕ) (h : n < 256 ^ width) : ofBE (toBE width n) = n := by
  simp [ofBE, toBE, ofLE_toLE width n h]

theorem toBE_ofBE (bs : List UInt8) : toBE bs.length (ofBE bs) = bs := by
  rw [toBE, ofBE, ← List.length_reverse, toLE_ofLE, List.reverse_reverse]

theorem ofBE_lt (bs : List UInt8) : ofBE bs < 256 ^ bs.length := by
  rw [ofBE, ← List.length_reverse]
  exact ofLE_lt bs.reverse

/-! ### Words of 16 and 32 bits, most significant byte first -/

def u16FromBE (bs : List UInt8) : UInt16 := UInt16.ofNat (ofBE bs)

def u16ToBE (v : UInt16) : List UInt8 := toBE 2 v.toNat

def u32FromBE (bs : List UInt8) : UInt32 := UInt32.ofNat (ofBE bs)

def u32ToBE (v : UInt32) : List UInt8 := toBE 4 v.toNat

@[simp] theorem length_u16ToBE (v : UInt16) : (u16ToBE v).length = 2 := length_toBE ..

@[simp] theorem length_u32ToBE (v : UInt32) : (u32ToBE v).length = 4 := length_toBE ..

@[simp] theorem u16FromBE_toBE (v : UInt16) : u16FromBE (u16ToBE v) = v := by
  rw [u16FromBE, u16ToBE, ofBE_toBE _ _ v.toNat_lt, UInt16.ofNat_toNat]

@[simp] theorem u32FromBE_toBE (v : UInt32) : u32FromBE (u32ToBE v) = v := by
  rw [u32FromBE, u32ToBE, ofBE_toBE _ _ v.toNat_lt, UInt32.ofNat_toNat]

theorem u16ToBE_fromBE {bs : List UInt8} (h : bs.length = 2) : u16ToBE (u16FromBE bs) = bs := by
  have hlt := ofBE_lt bs
  rw [h] at hlt
  rw [u16ToBE, u16FromBE, UInt16.toNat_ofNat', Nat.mod_eq_of_lt (by omega), ← h, toBE_ofBE]

theorem u32ToBE_fromBE {bs : List UInt8} (h : bs.length = 4) : u32ToBE (u32FromBE bs) = bs := by
  have hlt := ofBE_lt bs
  rw [h] at hlt
  rw [u32ToBE, u32FromBE, UInt32.toNat_ofNat', Nat.mod_eq_of_lt (by omega), ← h, toBE_ofBE]

end Bytes

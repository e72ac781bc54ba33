/-
MahoRD/Lib/Hex.lean

Bytes as lower-case hexadecimal digits.
-/
import Mathlib.Data.List.Basic

namespace Hex

def digit (n : ℕ) : Char := if n < 10 then Char.ofNat (48 + n) else Char.ofNat (87 + n)

def value (c : Char) : ℕ := if c.toNat < 58 then c.toNat - 48 else c.toNat - 87

/-- The two digits of a byte. -/
def ofByte (b : UInt8) : List Char := [digit (b.toNat / 16), digit (b.toNat % 16)]

def encode (bytes : List UInt8) : List Char := bytes.flatMap ofByte

def decode : List Char → List UInt8
  | hi :: lo :: rest => UInt8.ofNat (16 * value hi + value lo) :: decode rest
  | _ => []

theorem value_digit : ∀ n < 16, value (digit n) = n := by decide

theorem decode_encode (bytes : List UInt8) : decode (encode bytes) = bytes := by
  induction bytes with
  | nil => rfl
  | cons b bytes ih =>
    have hb := b.toNat_lt
    have hhi := value_digit (b.toNat / 16) (by omega)
    have hlo := value_digit (b.toNat % 16) (by omega)
    have hbyte : UInt8.ofNat (16 * (b.toNat / 16) + b.toNat % 16) = b := by
      rw [Nat.div_add_mod]
      simp
    have hcons : encode (b :: bytes)
        = digit (b.toNat / 16) :: digit (b.toNat % 16) :: encode bytes := rfl
    rw [hcons, decode, hhi, hlo, hbyte, ih]

theorem digit_ne_hyphen : ∀ n < 16, digit n ≠ '-' := by decide

theorem ne_hyphen_of_mem_encode {bytes : List UInt8} {c : Char} (h : c ∈ encode bytes) :
    c ≠ '-' := by
  obtain ⟨b, -, hc⟩ := List.mem_flatMap.mp h
  have hb := b.toNat_lt
  simp only [ofByte, List.mem_cons, List.not_mem_nil, or_false] at hc
  rcases hc with rfl | rfl
  · exact digit_ne_hyphen _ (by omega)
  · exact digit_ne_hyphen _ (by omega)

end Hex

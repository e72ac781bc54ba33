/-
MahoRD/App/AddedAt.lean

When a pairing was added, as it is written and as it is read (`serialize_added_at` and
`deserialize_added_at` in `maho-app/src/pairing.rs`), in exact arithmetic.

The time is written in seconds since the reference date of Swift.  A number that is read may be
milliseconds or seconds of Unix time as well, and is told by its size only: what is written for a
time after 9 September 2032 is taken for seconds of Unix time (`added_at_round_trip_iff`).
-/
import Mathlib.Data.Rat.Floor

namespace MahoRD.AddedAt

/-- A JSON number, as the visitor gets it. -/
inductive Number
  | i64 (value : Int64)
  | u64 (value : UInt64)
  | f64 (value : ℚ)

/-- `SWIFT_REFERENCE_DATE_OFFSET` -/
def swiftReferenceDateOffset : ℚ := 978307200

/-- `as u64` -/
def asU64 (x : ℚ) : UInt64 := UInt64.ofNat (min ⌊x⌋₊ (2 ^ 64 - 1))

def visitF64 (value : ℚ) : UInt64 :=
  if value > 1000000000000 then
    -- already unix ms
    asU64 value
  else if value > 1000000000 then
    -- unix seconds
    asU64 (value * 1000)
  else
    -- Swift reference date seconds
    let unixSecs := value + swiftReferenceDateOffset
    asU64 (max unixSecs 0 * 1000)

def deserializeAddedAt : Number → UInt64
  | .i64 value => (max value 0).toUInt64
  | .u64 value => value
  | .f64 value => visitF64 value

def serializeAddedAt (value : UInt64) : Number :=
  .f64 ((value.toNat : ℚ) / 1000 - swiftReferenceDateOffset)

/-- What is stored for a time after it was loaded and saved so often. -/
def stored (t : UInt64) : ℕ → Number
  | 0 => serializeAddedAt t
  | n + 1 => serializeAddedAt (deserializeAddedAt (stored t n))

/-- The last millisecond that is read as it was written: the written number reaches the size of
seconds of Unix time. -/
def lastReadable : ℕ := (1000000000 + 978307200) * 1000

theorem toNat_asU64_le {x : ℚ} {n : ℕ} (hx : x ≤ n) : (asU64 x).toNat ≤ n := by
  have hfloor : ⌊x⌋₊ ≤ n := by
    rcases le_total 0 x with h | h
    · exact_mod_cast (Nat.floor_le h).trans hx
    · rw [Nat.floor_of_nonpos h]
      exact Nat.zero_le n
  have hmin := Nat.min_le_left ⌊x⌋₊ (2 ^ 64 - 1)
  rw [asU64, UInt64.toNat_ofNat']
  exact (Nat.mod_le _ _).trans (hmin.trans hfloor)

theorem asU64_toNat (t : UInt64) : asU64 (t.toNat : ℚ) = t := by
  have hlt := t.toNat_lt
  rw [asU64, Nat.floor_natCast, Nat.min_eq_left (by omega), UInt64.ofNat_toNat]

theorem deserialize_serialize {t : UInt64} (h : t.toNat ≤ lastReadable) :
    deserializeAddedAt (serializeAddedAt t) = t := by
  have hle : (t.toNat : ℚ) ≤ (1000000000 + 978307200) * 1000 := by exact_mod_cast h
  have hpos : (0 : ℚ) ≤ (t.toNat : ℚ) / 1000 := by positivity
  have hsmall : ¬ (t.toNat : ℚ) / 1000 - swiftReferenceDateOffset > 1000000000 := by
    rw [swiftReferenceDateOffset]
    linarith
  have hsmaller : ¬ (t.toNat : ℚ) / 1000 - swiftReferenceDateOffset > 1000000000000 := by
    linarith
  rw [serializeAddedAt, deserializeAddedAt, visitF64, if_neg hsmaller, if_neg hsmall]
  simp only [sub_add_cancel]
  rw [max_eq_left hpos, div_mul_cancel₀ _ (by norm_num), asU64_toNat]

theorem deserialize_serialize_lt {t : UInt64} (h : lastReadable < t.toNat) :
    (deserializeAddedAt (serializeAddedAt t)).toNat < t.toNat := by
  have hlt : ((1000000000 + 978307200) * 1000 : ℚ) < (t.toNat : ℚ) := by exact_mod_cast h
  have hlarge : (t.toNat : ℚ) / 1000 - swiftReferenceDateOffset > 1000000000 := by
    rw [swiftReferenceDateOffset]
    linarith
  have hless : 978307200000 < t.toNat := lt_of_le_of_lt (by decide) h
  have hcast : ((t.toNat - 978307200000 : ℕ) : ℚ) = (t.toNat : ℚ) - 978307200000 := by
    rw [Nat.cast_sub hless.le]
    norm_num
  have hvalue : ∀ x : ℚ, x ≤ (t.toNat : ℚ) - 978307200000 → (asU64 x).toNat < t.toNat := by
    intro x hx
    have := toNat_asU64_le (hx.trans_eq hcast.symm)
    omega
  rw [serializeAddedAt, deserializeAddedAt, visitF64]
  by_cases hms : (t.toNat : ℚ) / 1000 - swiftReferenceDateOffset > 1000000000000
  · -- taken for milliseconds
    rw [if_pos hms]
    apply hvalue
    rw [swiftReferenceDateOffset]
    linarith
  · -- taken for seconds of Unix time
    rw [if_neg hms, if_pos hlarge]
    apply hvalue
    rw [swiftReferenceDateOffset]
    linarith

/-- **A time comes back from every load, up to the last readable one, and no later one does.** -/
theorem added_at_round_trip_iff (t : UInt64) :
    (∀ n, deserializeAddedAt (stored t n) = t) ↔ t.toNat ≤ lastReadable := by
  constructor
  · intro h
    by_contra hlate
    have hlt := deserialize_serialize_lt (not_le.mp hlate)
    have hread : deserializeAddedAt (serializeAddedAt t) = t := h 0
    rw [hread] at hlt
    exact lt_irrefl _ hlt
  · intro h n
    induction n with
    | zero => exact deserialize_serialize h
    | succ n ih =>
      rw [stored, ih]
      exact deserialize_serialize h

/-- A pairing of May 2033 is loaded as one of May 2002. -/
theorem added_at_2033 :
    deserializeAddedAt (serializeAddedAt 2000000000000) = 1021692800000
      ∧ (1021692800000 : UInt64) ≠ 2000000000000 := by
  have hwritten : serializeAddedAt 2000000000000 = .f64 1021692800 := by
    have htoNat : (2000000000000 : UInt64).toNat = 2000000000000 := rfl
    rw [serializeAddedAt, htoNat, swiftReferenceDateOffset]
    norm_num
  refine ⟨?_, by decide⟩
  rw [hwritten, deserializeAddedAt, visitF64, if_neg (by norm_num), if_pos (by norm_num)]
  have hseconds : (1021692800 : ℚ) * 1000 = ((1021692800000 : UInt64).toNat : ℚ) := by
    have htoNat : (1021692800000 : UInt64).toNat = 1021692800000 := rfl
    rw [htoNat]
    norm_num
  rw [hseconds, asU64_toNat]

end MahoRD.AddedAt

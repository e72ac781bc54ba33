/-
MahoRD/Lib/Table.lean

Finite maps.  A table is an association list without duplicate keys; lookup,
insertion and removal are Mathlib's.  Added here is what a program's map has
besides: dropping the entries that fail a test (`retain`), counting, reading
the entries in the order of their keys (`toSorted`) and reading the values at a
list of keys (`collect`).
-/
import Mathlib.Data.List.AList
import Mathlib.Order.Interval.Finset.Nat
import Mathlib.Algebra.GroupWithZero.Nat

/-- Finite maps from `κ` to `ν`. -/
abbrev Table (κ ν : Type*) := AList (fun _ : κ => ν)

namespace Table

variable {κ ν : Type*}

/-- Keep the entries that pass the test. -/
def retain (p : κ → ν → Bool) (t : Table κ ν) : Table κ ν :=
  ⟨t.entries.filter fun e => p e.1 e.2,
    t.nodupKeys.sublist List.filter_sublist⟩

/-- The number of entries. -/
def size (t : Table κ ν) : ℕ := t.keys.length

/-- The values added up. -/
def total (f : ν → ℕ) (t : Table κ ν) : ℕ := (t.entries.map fun e => f e.2).sum

/-- The number of entries that pass the test. -/
def count (p : κ → ν → Bool) (t : Table κ ν) : ℕ := (t.entries.filter fun e => p e.1 e.2).length

/-- The entries in ascending order of their keys. -/
def toSorted [LE κ] [DecidableLE κ] (t : Table κ ν) : List (κ × ν) :=
  (t.entries.map fun e => (e.1, e.2)).insertionSort fun a b => a.1 ≤ b.1

theorem size_eq_count (t : Table κ ν) : t.size = count (fun _ _ => true) t := by
  simp [size, count, AList.keys, List.keys]

theorem size_retain_le (p : κ → ν → Bool) (t : Table κ ν) : (t.retain p).size ≤ t.size := by
  exact (List.filter_sublist.map _).length_le

theorem nodup_toSorted [LE κ] [DecidableLE κ] (t : Table κ ν) :
    (t.toSorted.map (·.1)).Nodup := by
  refine ((List.perm_insertionSort _ _).map _).nodup_iff.mpr ?_
  rw [List.map_map]
  exact t.keys_nodup

variable {t : Table κ ν} {k : κ} {v : ν}

theorem size_le_of_keys {t' : Table κ ν} (h : ∀ k, k ∈ t → k ∈ t') : t.size ≤ t'.size :=
  (List.subperm_of_subset t.keys_nodup h).length_le

theorem eq_empty (h : ∀ k, k ∉ t) : t = ∅ := by
  refine AList.ext (List.eq_nil_iff_forall_not_mem.mpr fun e he => h e.1 ?_)
  exact List.mem_map_of_mem he

variable [DecidableEq κ]

/-- The values at the given keys, if each of them is there. -/
def collect (t : Table κ ν) (keys : List κ) : Option (List ν) := keys.mapM t.lookup

/-- Insert, unless there is an entry already. -/
def orInsert (t : Table κ ν) (k : κ) (v : ν) : Table κ ν :=
  match t.lookup k with
  | some _ => t
  | none => AList.insert k v t

theorem mem_entries :
    ⟨k, v⟩ ∈ t.entries ↔ t.lookup k = some v :=
  AList.mem_lookup_iff.symm

theorem mem_toSorted [LE κ] [DecidableLE κ] :
    (k, v) ∈ t.toSorted ↔ t.lookup k = some v := by
  rw [← mem_entries, toSorted, List.mem_insertionSort, List.mem_map]
  constructor
  · rintro ⟨⟨k', v'⟩, hmem, heq⟩
    cases heq
    exact hmem
  · exact fun hmem => ⟨⟨k, v⟩, hmem, rfl⟩

theorem collect_eq_some {keys : List κ} {vs : List ν} :
    t.collect keys = some vs ↔ List.Forall₂ (fun k v => t.lookup k = some v) keys vs := by
  induction keys generalizing vs with
  | nil => cases vs <;> simp [collect]
  | cons k keys ih =>
    rw [collect, List.mapM_cons]
    rcases hk : t.lookup k with - | v
    · cases vs <;> simp [hk]
    · cases vs with
      | nil => simp [Option.bind_eq_some_iff, pure]
      | cons v' vs =>
        rw [List.forall₂_cons, ← ih, collect, hk]
        rcases keys.mapM (fun k => t.lookup k) with - | ws
        · simp
        · simp [pure]

theorem lookup_retain_eq_some {p : κ → ν → Bool} :
    (t.retain p).lookup k = some v ↔ t.lookup k = some v ∧ p k v = true := by
  rw [← mem_entries, ← mem_entries]
  exact List.mem_filter

theorem lookup_retain (p : κ → ν → Bool) (t : Table κ ν) (k : κ) :
    (t.retain p).lookup k = (t.lookup k).filter (p k) := by
  ext v
  rw [lookup_retain_eq_some, Option.filter_eq_some_iff]

theorem lookup_insert (t : Table κ ν) (k k' : κ) (v : ν) :
    (AList.insert k v t).lookup k' = if k' = k then some v else t.lookup k' := by
  split
  next h => rw [h, AList.lookup_insert]
  next h => exact AList.lookup_insert_ne h

theorem lookup_erase (t : Table κ ν) (k k' : κ) :
    (t.erase k).lookup k' = if k' = k then none else t.lookup k' := by
  split
  next h => rw [h, AList.lookup_erase]
  next h => exact AList.lookup_erase_ne h

theorem lookup_erase_eq_some {k' : κ} :
    (t.erase k).lookup k' = some v ↔ k' ≠ k ∧ t.lookup k' = some v := by
  rw [lookup_erase]
  split <;> simp_all

/-! ### Counting -/

theorem perm_insert_erase (h : t.lookup k = some v) :
    t.entries.Perm (⟨k, v⟩ :: (t.erase k).entries) := by
  refine List.lookup_ext t.nodupKeys (AList.insert k v t).nodupKeys fun k' v' => ?_
  show v' ∈ t.lookup k' ↔ v' ∈ (AList.insert k v t).lookup k'
  rw [lookup_insert]
  split
  next heq => rw [heq, h]
  · rfl

theorem count_insert (p : κ → ν → Bool) (t : Table κ ν) (k : κ) (v : ν) :
    count p (AList.insert k v t) = (if p k v then 1 else 0) + count p (t.erase k) := by
  show (List.filter _ (⟨k, v⟩ :: (t.erase k).entries)).length = _
  rw [List.filter_cons]
  split
  · rw [List.length_cons, Nat.add_comm]
    rfl
  · rw [Nat.zero_add]
    rfl

theorem count_of_lookup (p : κ → ν → Bool)
    (h : t.lookup k = some v) :
    count p t = (if p k v then 1 else 0) + count p (t.erase k) := by
  rw [← count_insert]
  exact ((perm_insert_erase h).filter _).length_eq

theorem count_erase_le (p : κ → ν → Bool) (t : Table κ ν) (k : κ) :
    count p (t.erase k) ≤ count p t :=
  ((List.kerase_sublist k t.entries).filter _).length_le

theorem count_insert_le {p : κ → ν → Bool} {v' : ν}
    (h : t.lookup k = some v) (hp : p k v' = true → p k v = true) :
    count p (AList.insert k v' t) ≤ count p t := by
  rw [count_insert, count_of_lookup p h]
  refine Nat.add_le_add_right ?_ _
  by_cases hv : p k v' = true
  · rw [if_pos hv, if_pos (hp hv)]
  · rw [if_neg hv]
    exact Nat.zero_le _

theorem size_insert_of_lookup (h : t.lookup k = some v) (v' : ν) :
    size (AList.insert k v' t) = t.size := by
  rw [size_eq_count, size_eq_count, count_insert, count_of_lookup _ h]

theorem size_erase_of_lookup (h : t.lookup k = some v) :
    size (t.erase k) + 1 = t.size := by
  rw [size_eq_count, size_eq_count, count_of_lookup _ h, if_pos rfl, Nat.add_comm]

theorem size_erase_le (t : Table κ ν) (k : κ) : size (t.erase k) ≤ t.size := by
  rw [size_eq_count, size_eq_count]
  exact count_erase_le _ t k

theorem size_insert_le (t : Table κ ν) (k : κ) (v : ν) :
    size (AList.insert k v t) ≤ t.size + 1 := by
  have herase := size_erase_le t k
  rw [size_eq_count, count_insert, if_pos rfl, ← size_eq_count]
  omega

theorem size_insert (t : Table κ ν) (k : κ) (v : ν) :
    size (AList.insert k v t) = size (t.erase k) + 1 := by
  rw [size_eq_count, count_insert, if_pos rfl, ← size_eq_count, Nat.add_comm]

theorem size_orInsert_le (t : Table κ ν) (k : κ) (v : ν) : (t.orInsert k v).size ≤ t.size + 1 := by
  unfold orInsert
  split
  · exact Nat.le_succ _
  · exact size_insert_le t k v

theorem lookup_orInsert_eq_some {k' : κ} {v' : ν}
    (h : (t.orInsert k v).lookup k' = some v') : t.lookup k' = some v' ∨ (k' = k ∧ v' = v) := by
  unfold orInsert at h
  split at h
  · exact .inl h
  · rw [lookup_insert] at h
    split at h
    next heq => exact .inr ⟨heq, (Option.some.inj h).symm⟩
    · exact .inl h

theorem total_le (f : ν → ℕ) (t : Table κ ν) (bound : ℕ)
    (h : ∀ k v, t.lookup k = some v → f v ≤ bound) : total f t ≤ t.size * bound := by
  have hsum : ∀ es : List (Sigma fun _ : κ => ν), (∀ e ∈ es, f e.2 ≤ bound) →
      (es.map fun e => f e.2).sum ≤ es.length * bound := by
    intro es hes
    induction es with
    | nil => exact Nat.zero_le _
    | cons e es ih =>
      rw [List.map_cons, List.sum_cons, List.length_cons, Nat.succ_mul, Nat.add_comm]
      exact Nat.add_le_add (ih fun e' he' => hes e' (.tail _ he')) (hes e List.mem_cons_self)
  refine (hsum t.entries fun e he => h e.1 e.2 (mem_entries.mp he)).trans_eq ?_
  rw [size, AList.keys, List.keys, List.length_map]

theorem notMem_of_lookup (h : t.lookup k = none) : k ∉ t :=
  AList.lookup_eq_none.mp h

theorem size_erase_of_none (h : t.lookup k = none) :
    size (t.erase k) = t.size := by
  refine le_antisymm (size_erase_le t k) (size_le_of_keys fun k' hk' => ?_)
  exact AList.mem_erase.mpr ⟨fun heq => notMem_of_lookup h (heq ▸ hk'), hk'⟩

theorem size_erase_retain_le (p : κ → ν → Bool) (t : Table κ ν) (k : κ) :
    size ((t.retain p).erase k) ≤ size (t.erase k) := by
  refine size_le_of_keys fun k' hk' => ?_
  obtain ⟨hne, hmem⟩ := AList.mem_erase.mp hk'
  obtain ⟨v, hv⟩ := Option.isSome_iff_exists.mp (AList.lookup_isSome.mpr hmem)
  refine AList.mem_erase.mpr ⟨hne, AList.lookup_isSome.mp ?_⟩
  rw [(lookup_retain_eq_some.mp hv).1]
  rfl

theorem size_insert_of_none (h : t.lookup k = none) (v : ν) :
    size (AList.insert k v t) = t.size + 1 := by
  have hkeys : (AList.insert k v t).keys = k :: t.keys := by
    rw [AList.keys_insert, List.erase_of_not_mem (notMem_of_lookup h)]
  rw [size, hkeys, List.length_cons, size]

theorem total_insert_of_none (f : ν → ℕ) (h : t.lookup k = none) (v : ν) :
    total f (AList.insert k v t) = f v + total f t := by
  rw [total, AList.entries_insert_of_notMem (notMem_of_lookup h), List.map_cons, List.sum_cons,
    total]

/-- A table whose keys all lie in a window of `n` consecutive numbers has at
most `n` entries. -/
theorem size_le_of_window (f : κ → ℕ) (hf : Function.Injective f)
    (lo n : ℕ) (h : ∀ k v, t.lookup k = some v → lo ≤ f k ∧ f k < lo + n) :
    t.size ≤ n := by
  have hsub : (t.keys.toFinset.image f) ⊆ Finset.Ico lo (lo + n) := by
    intro m hm
    obtain ⟨k, hk, rfl⟩ := Finset.mem_image.mp hm
    have hk' : k ∈ t := List.mem_toFinset.mp hk
    obtain ⟨v, hv⟩ := Option.isSome_iff_exists.mp (AList.lookup_isSome.mpr hk')
    exact Finset.mem_Ico.mpr (h k v hv)
  calc t.size = t.keys.toFinset.card := (List.toFinset_card_of_nodup t.keys_nodup).symm
    _ = (t.keys.toFinset.image f).card := (Finset.card_image_of_injective _ hf).symm
    _ ≤ (Finset.Ico lo (lo + n)).card := Finset.card_le_card hsub
    _ = n := by simp

end Table

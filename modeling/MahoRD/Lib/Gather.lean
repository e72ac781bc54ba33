/-
MahoRD/Lib/Gather.lean

Putting a list together again from its pieces, which come by index in any order
and any number of times.

`Gathered pieces seen chunks` says that the table `chunks` holds, of the list
`pieces`, exactly the pieces whose indices are in `seen`.  It holds all of them
when it has as many entries as there are pieces (`size_eq_iff`), and then read in
order they are the list (`collect`).
-/
import MahoRD.Lib.Table

namespace Gather

variable {α : Type*}

/-- The pieces of the indices in `seen`. -/
structure Gathered (pieces : List α) (seen : ℕ → Prop) (chunks : Table UInt16 α) : Prop where
  piece : ∀ index x, chunks.lookup index = some x → pieces[index.toNat]? = some x
  lt : ∀ j, seen j → j < pieces.length
  seen : ∀ index : UInt16, (chunks.lookup index).isSome ↔ seen index.toNat

variable {pieces : List α} {seen : ℕ → Prop} {chunks : Table UInt16 α}

variable {j : ℕ} {x : α}

theorem lt_length (h : pieces[j]? = some x) : j < pieces.length :=
  (List.getElem?_eq_some_iff.mp h).1

theorem toNat_index (hlen : pieces.length ≤ 2 ^ 16) (hj : j < pieces.length) :
    (UInt16.ofNat j).toNat = j :=
  Nat.mod_eq_of_lt (hj.trans_le hlen)

theorem gathered_empty (h : ∀ j, ¬ seen j) : Gathered pieces seen ∅ where
  piece := by simp
  lt j hj := absurd hj (h j)
  seen index := by simpa using h index.toNat

theorem Gathered.congr {seen' : ℕ → Prop} (h : Gathered pieces seen chunks)
    (heq : ∀ j, seen j ↔ seen' j) : Gathered pieces seen' chunks where
  piece := h.piece
  lt j hj := h.lt j ((heq j).mpr hj)
  seen index := (h.seen index).trans (heq _)

theorem Gathered.insert (h : Gathered pieces seen chunks) (hlen : pieces.length ≤ 2 ^ 16) (hj : pieces[j]? = some x) :
    Gathered pieces (fun i => i = j ∨ seen i) (chunks.insert (UInt16.ofNat j) x) where
  piece index y hl := by
    rw [Table.lookup_insert] at hl
    split at hl
    next heq =>
      obtain rfl := Option.some.inj hl
      rw [heq, toNat_index hlen (lt_length hj), hj]
    · exact h.piece index y hl
  lt i hi := hi.elim (fun heq => heq ▸ lt_length hj) (h.lt i)
  seen index := by
    rw [Table.lookup_insert]
    split
    next heq => simp [heq, toNat_index hlen (lt_length hj)]
    next hne =>
      rw [h.seen index]
      refine ⟨Or.inr, fun hor => hor.resolve_left fun heq => hne ?_⟩
      rw [← heq, UInt16.ofNat_toNat]

theorem Gathered.of_lookup (h : Gathered pieces seen chunks) (hlen : pieces.length ≤ 2 ^ 16) (hj : j < pieces.length) (hl : chunks.lookup (UInt16.ofNat j) = some x) :
    seen j := by
  have hseen := (h.seen (UInt16.ofNat j)).mp (by rw [hl]; rfl)
  rwa [toNat_index hlen hj] at hseen

theorem Gathered.orInsert (h : Gathered pieces seen chunks) (hlen : pieces.length ≤ 2 ^ 16) (hj : pieces[j]? = some x) :
    Gathered pieces (fun i => i = j ∨ seen i) (chunks.orInsert (UInt16.ofNat j) x) := by
  unfold Table.orInsert
  split
  next y hy =>
    refine h.congr fun i => ⟨Or.inr, ?_⟩
    rintro (rfl | hi)
    · exact h.of_lookup hlen (lt_length hj) hy
    · exact hi
  · exact h.insert hlen hj

theorem Gathered.lookup_of_seen (h : Gathered pieces seen chunks) (hlen : pieces.length ≤ 2 ^ 16) (hj : seen j) : ∃ x, chunks.lookup (UInt16.ofNat j) = some x ∧ pieces[j]? = some x := by
  have hto := toNat_index hlen (h.lt j hj)
  obtain ⟨x, hx⟩ := Option.isSome_iff_exists.mp ((h.seen (UInt16.ofNat j)).mpr (hto.symm ▸ hj))
  have hpiece := h.piece _ x hx
  rw [hto] at hpiece
  exact ⟨x, hx, hpiece⟩

/-! ### All of them -/

theorem keys_subset (h : ∀ index x, chunks.lookup index = some x → pieces[index.toNat]? = some x) :
    chunks.keys.toFinset.image UInt16.toNat ⊆ Finset.range pieces.length := by
  intro i hi
  obtain ⟨index, hindex, rfl⟩ := Finset.mem_image.mp hi
  obtain ⟨x, hx⟩ := Option.isSome_iff_exists.mp
    (AList.lookup_isSome.mpr (List.mem_toFinset.mp hindex))
  exact Finset.mem_range.mpr (lt_length (h index x hx))

theorem Gathered.mem_keys (h : Gathered pieces seen chunks) (hlen : pieces.length ≤ 2 ^ 16)
    (hj : j < pieces.length) : j ∈ chunks.keys.toFinset.image UInt16.toNat ↔ seen j := by
  rw [Finset.mem_image]
  constructor
  · rintro ⟨index, hindex, rfl⟩
    exact (h.seen index).mp (AList.lookup_isSome.mpr (List.mem_toFinset.mp hindex))
  · intro hseen
    obtain ⟨x, hx, -⟩ := h.lookup_of_seen hlen hseen
    exact ⟨UInt16.ofNat j, List.mem_toFinset.mpr (AList.lookup_isSome.mp (by rw [hx]; rfl)),
      toNat_index hlen hj⟩

theorem size_eq_card (chunks : Table UInt16 α) :
    chunks.size = (chunks.keys.toFinset.image UInt16.toNat).card := by
  rw [Finset.card_image_of_injective _ fun _ _ heq => UInt16.toNat_inj.mp heq,
    List.toFinset_card_of_nodup chunks.keys_nodup]
  rfl

theorem Gathered.size_eq_iff (h : Gathered pieces seen chunks) (hlen : pieces.length ≤ 2 ^ 16) :
    chunks.size = pieces.length ↔ ∀ j < pieces.length, seen j := by
  rw [size_eq_card]
  constructor
  · intro hcard j hj
    have hall := Finset.eq_of_subset_of_card_le (keys_subset h.piece)
      (by rw [Finset.card_range, hcard])
    exact (h.mem_keys hlen hj).mp (hall ▸ Finset.mem_range.mpr hj)
  · intro hall
    rw [show chunks.keys.toFinset.image UInt16.toNat = Finset.range pieces.length from
      Finset.Subset.antisymm (keys_subset h.piece) fun j hj =>
        (h.mem_keys hlen (Finset.mem_range.mp hj)).mpr (hall j (Finset.mem_range.mp hj)),
      Finset.card_range]

theorem Gathered.collect (h : Gathered pieces seen chunks) (hlen : pieces.length ≤ 2 ^ 16)
    (hall : ∀ j < pieces.length, seen j) :
    chunks.collect ((List.range pieces.length).map UInt16.ofNat) = some pieces := by
  rw [Table.collect_eq_some, List.forall₂_map_left_iff, List.forall₂_iff_get]
  refine ⟨List.length_range, fun i hi hi' => ?_⟩
  obtain ⟨x, hx, hpiece⟩ := h.lookup_of_seen hlen (hall i hi')
  rw [List.getElem?_eq_getElem hi', Option.some.injEq] at hpiece
  have hget : (List.range pieces.length).get ⟨i, hi⟩ = i := by simp
  rw [hget, hx, List.get_eq_getElem, hpiece]

end Gather

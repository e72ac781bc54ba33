/-
MahoRD/Lib/Newest.lean

The newest elements of a list (`List.rtake`), and a ring that keeps them: once it is full, each new
element is written over the oldest one, and the place of the oldest moves on.  Turned round to that
place, the ring is in order (`rotate_set`).
-/
import Mathlib.Data.List.DropRight
import Mathlib.Data.List.Rotate

namespace Newest

variable {α β : Type} {n : ℕ}

variable {l : List α}

theorem rtake_eq_self (h : l.length ≤ n) : l.rtake n = l := by
  rw [List.rtake, Nat.sub_eq_zero_of_le h, List.drop_zero]

theorem rtake_suffix (l : List α) (n : ℕ) : l.rtake n <:+ l := List.drop_suffix _ _

theorem length_rtake (l : List α) (n : ℕ) : (l.rtake n).length = min n l.length := by
  rw [List.rtake, List.length_drop]
  omega

theorem rtake_of_suffix {s : List α} (h : s <:+ l) (hn : n ≤ s.length) :
    s.rtake n = l.rtake n := by
  obtain ⟨t, rfl⟩ := h
  have hlength : (t ++ s).length - n = t.length + (s.length - n) := by
    rw [List.length_append]
    omega
  rw [List.rtake, List.rtake, hlength, List.drop_length_add_append]

theorem rtake_append_rtake (l m : List α) (n : ℕ) : (l ++ m.rtake n).rtake n = (l ++ m).rtake n := by
  rcases Nat.lt_or_ge n m.length with hlong | hshort
  · have hfull : (m.rtake n).length = n := by
      rw [length_rtake]
      omega
    rw [← rtake_of_suffix (List.suffix_append l (m.rtake n)) hfull.ge,
      rtake_eq_self (le_of_eq hfull), rtake_of_suffix (List.suffix_append l m) hlong.le]
  · rw [rtake_eq_self hshort]

theorem rtake_concat_of_le (h : n ≤ l.length) (hn : 0 < n) (a : α) :
    (l ++ [a]).rtake n = (l.rtake n).tail ++ [a] := by
  obtain ⟨n, rfl⟩ := Nat.exists_eq_succ_of_ne_zero hn.ne'
  have htail : (l.rtake (n + 1)).tail = l.rtake n := by
    rw [List.rtake, List.rtake, List.tail_drop]
    congr 1
    omega
  rw [List.rtake_concat_succ, htail]

theorem rtake_flatMap {f : α → List β} {k : ℕ} (hf : ∀ a, (f a).length = k) (l : List α) (n : ℕ) :
    (l.flatMap f).rtake (n * k) = (l.rtake n).flatMap f := by
  have hlength : ∀ l : List α, (l.flatMap f).length = l.length * k := by
    intro l
    induction l with
    | nil => exact (Nat.zero_mul k).symm
    | cons a l ih => rw [List.flatMap_cons, List.length_append, hf, ih, List.length_cons,
        Nat.succ_mul, Nat.add_comm]
  have hdrop : ∀ (l : List α) (i : ℕ), (l.flatMap f).drop (i * k) = (l.drop i).flatMap f := by
    intro l
    induction l with
    | nil => intro i; rw [List.flatMap_nil, List.drop_nil, List.drop_nil]; rfl
    | cons a l ih =>
      rintro (_ | i)
      · rw [Nat.zero_mul, List.drop_zero, List.drop_zero]
      · rw [Nat.succ_mul, Nat.add_comm, ← List.drop_drop, List.flatMap_cons,
          List.drop_left' (hf a), ih, List.drop_succ_cons]
  rw [List.rtake, List.rtake, hlength, ← Nat.sub_mul, hdrop]

/-! ### Rings -/

theorem rotate_set {ring : ℕ} (h : ring < l.length) (a : α) :
    (l.set ring a).rotate ((ring + 1) % l.length) = (l.rotate ring).tail ++ [a] := by
  have hlength : (l.set ring a).length = l.length := List.length_set
  have hdrop : (l.set ring a).drop (ring + 1) = l.drop (ring + 1) := by
    rw [List.drop_set_of_lt (Nat.lt_succ_self ring)]
  have htake : (l.set ring a).take (ring + 1) = l.take ring ++ [a] := by
    rw [List.take_set, List.take_succ_eq_append_getElem h,
      List.set_append_right _ _ (by rw [List.length_take]; omega)]
    congr 1
    rw [List.length_take, Nat.min_eq_left h.le, Nat.sub_self]
    rfl
  rw [← hlength, List.rotate_mod, List.rotate_eq_drop_append_take (by omega), hdrop, htake,
    List.rotate_eq_drop_append_take h.le, List.drop_eq_getElem_cons h, ← List.append_assoc]
  rfl

theorem rotate_set_rtake {input : List α} {ring : ℕ} (hlength : l.length = n) (hring : ring < n)
    (hinput : n ≤ input.length) (h : l.rotate ring = input.rtake n) (a : α) :
    (l.set ring a).rotate ((ring + 1) % n) = (input ++ [a]).rtake n := by
  rw [rtake_concat_of_le hinput (by omega), ← h, ← hlength, rotate_set (by omega)]

end Newest

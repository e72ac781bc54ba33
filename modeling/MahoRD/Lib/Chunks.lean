/-
MahoRD/Lib/Chunks.lean

Cutting a list into chunks of `n` elements, the last one possibly shorter.
-/
import Mathlib.Data.List.Basic

namespace Chunks

variable {α : Type*}

/-- `⌈len / n⌉`. -/
def count (n len : ℕ) : ℕ := (len + n - 1) / n

/-- The chunks of `l`, in order. -/
def chunks (n : ℕ) (l : List α) : List (List α) :=
  (List.range (count n l.length)).map fun i => (l.drop (i * n)).take n

@[simp] theorem length_chunks (n : ℕ) (l : List α) :
    (chunks n l).length = count n l.length := by
  simp [chunks]

variable {l : List α} {n : ℕ}

theorem length_le_of_mem {piece : List α} (h : piece ∈ chunks n l) :
    piece.length ≤ n := by
  obtain ⟨i, -, rfl⟩ := List.mem_map.mp h
  exact List.length_take_le n _

theorem flatten_take (n : ℕ) (l : List α) (m : ℕ) :
    ((List.range m).map fun i => (l.drop (i * n)).take n).flatten = l.take (m * n) := by
  induction m with
  | zero => simp
  | succ m ih =>
    rw [List.range_succ, List.map_append, List.flatten_append, ih, Nat.succ_mul, List.take_add]
    simp

theorem le_count_mul (hn : 0 < n) (len : ℕ) : len ≤ count n len * n := by
  have h := Nat.div_add_mod (len + n - 1) n
  have hlt := Nat.mod_lt (len + n - 1) hn
  rw [count, Nat.mul_comm]
  omega

theorem mul_lt_of_lt_count {len i : ℕ} (hi : i < count n len) : i * n < len := by
  have hle : (len + n - 1) / n * n ≤ len + n - 1 := Nat.div_mul_le_self _ _
  have hmul : (i + 1) * n ≤ (len + n - 1) / n * n := Nat.mul_le_mul_right n hi
  rw [Nat.succ_mul] at hmul
  have hn : n ≠ 0 := by
    rintro rfl
    simp [count] at hi
  omega

theorem flatten_chunks (hn : 0 < n) (l : List α) : (chunks n l).flatten = l := by
  rw [chunks, flatten_take]
  exact List.take_of_length_le (le_count_mul hn l.length)

/-! ### Chunks of one length -/

theorem length_flatten {pieces : List (List α)} (h : ∀ piece ∈ pieces, piece.length = n) :
    pieces.flatten.length = pieces.length * n := by
  induction pieces with
  | nil => simp
  | cons piece pieces ih =>
    rw [List.flatten_cons, List.length_append, h piece List.mem_cons_self,
      ih fun p hp => h p (List.mem_cons_of_mem _ hp), List.length_cons, Nat.succ_mul, Nat.add_comm]

theorem getElem?_flatten {j : ℕ} {pieces : List (List α)}
    (h : ∀ piece ∈ pieces, piece.length = n) (hj : j < n) (i : ℕ) :
    pieces.flatten[i * n + j]? = pieces[i]?.bind (·[j]?) := by
  induction pieces generalizing i with
  | nil => simp
  | cons piece pieces ih =>
    have hpiece : piece.length = n := h piece List.mem_cons_self
    rw [List.flatten_cons]
    cases i with
    | zero => simp [List.getElem?_append_left, hpiece, hj]
    | succ i =>
      have hsplit : (i + 1) * n + j = piece.length + (i * n + j) := by
        rw [hpiece, Nat.succ_mul]
        omega
      rw [hsplit, List.getElem?_append_right (Nat.le_add_right ..), Nat.add_sub_cancel_left,
        ih (fun p hp => h p (List.mem_cons_of_mem _ hp)), List.getElem?_cons_succ]

/-! ### Whole chunks -/

/-- The first `count` chunks of `n` elements. -/
def cut (n : ℕ) : ℕ → List α → List (List α)
  | 0, _ => []
  | count + 1, l => l.take n :: cut n count (l.drop n)

/-- The chunks of `l` that are whole (`chunks_exact`). -/
def exact (n : ℕ) (l : List α) : List (List α) := cut n (l.length / n) l

theorem cut_append (count : ℕ) (h : count * n ≤ l.length) (rest : List α) :
    cut n count (l ++ rest) = cut n count l := by
  induction count generalizing l with
  | zero => rfl
  | succ count ih =>
    rw [Nat.succ_mul] at h
    have hn : n ≤ l.length := by omega
    have hdrop : count * n ≤ (l.drop n).length := by
      rw [List.length_drop]
      omega
    show (l ++ rest).take n :: cut n count ((l ++ rest).drop n) = l.take n :: cut n count (l.drop n)
    rw [List.take_append_of_le_length hn, List.drop_append_of_le_length hn, ih hdrop]

theorem cut_add (n i j : ℕ) (l : List α) :
    cut n (i + j) l = cut n i l ++ cut n j (l.drop (i * n)) := by
  induction i generalizing l with
  | zero => simp [cut]
  | succ i ih =>
    have hdrop : l.drop ((i + 1) * n) = (l.drop n).drop (i * n) := by
      rw [List.drop_drop, Nat.succ_mul, Nat.add_comm]
    rw [Nat.add_right_comm, hdrop]
    show l.take n :: cut n (i + j) (l.drop n) = _
    rw [ih]
    rfl

theorem exact_append (hn : 0 < n) (h : n ∣ l.length) (rest : List α) :
    exact n (l ++ rest) = exact n l ++ exact n rest := by
  obtain ⟨k, hk⟩ := h
  have hcount : l.length / n = k := by
    rw [hk, Nat.mul_div_cancel_left k hn]
  have hall : (l ++ rest).length / n = k + rest.length / n := by
    rw [List.length_append, hk, Nat.mul_add_div hn]
  have hkn : k * n = l.length := by rw [hk, Nat.mul_comm]
  rw [exact, exact, exact, hall, hcount, cut_add, cut_append k (Nat.le_of_eq hkn), hkn,
    List.drop_left]

theorem exact_self (hn : 0 < n) (h : l.length = n) : exact n l = [l] := by
  rw [exact, h, Nat.div_self hn]
  show [l.take n] = [l]
  rw [List.take_of_length_le (Nat.le_of_eq h)]

theorem exact_of_lt (h : l.length < n) : exact n l = [] := by
  rw [exact, Nat.div_eq_of_lt h]
  rfl

theorem flatten_exact (hn : 0 < n) (h : n ∣ l.length) :
    (exact n l).flatten = l := by
  obtain ⟨k, hk⟩ := h
  induction k generalizing l with
  | zero =>
    obtain rfl := List.length_eq_zero_iff.mp hk
    rw [exact_of_lt hn, List.flatten_nil]
  | succ k ih =>
    have hlength : l.length = n + n * k := by rw [hk, Nat.mul_succ, Nat.add_comm]
    have htake : (l.take n).length = n := List.length_take_of_le (by omega)
    have hdrop : (l.drop n).length = n * k := by
      rw [List.length_drop]
      omega
    have hcut : exact n l = l.take n :: exact n (l.drop n) := by
      have hpiece : n ∣ (l.take n).length := ⟨1, by rw [htake, Nat.mul_one]⟩
      rw [← List.singleton_append, ← exact_self hn htake, ← exact_append hn hpiece,
        List.take_append_drop]
    rw [hcut, List.flatten_cons, ih hdrop, List.take_append_drop]

theorem flatMap_exact {m : ℕ} (hm : 0 < m) (hn : 0 < n) (hmn : m ∣ n)
    (h : n ∣ l.length) : (exact n l).flatMap (exact m) = exact m l := by
  obtain ⟨k, hk⟩ := h
  induction k generalizing l with
  | zero =>
    obtain rfl := List.length_eq_zero_iff.mp hk
    rw [exact_of_lt hn, exact_of_lt hm, List.flatMap_nil]
  | succ k ih =>
    have hlength : l.length = n + n * k := by rw [hk, Nat.mul_succ, Nat.add_comm]
    have htake : (l.take n).length = n := List.length_take_of_le (by omega)
    have hdrop : (l.drop n).length = n * k := by
      rw [List.length_drop]
      omega
    calc (exact n l).flatMap (exact m)
        = (exact n (l.take n ++ l.drop n)).flatMap (exact m) := by rw [List.take_append_drop]
      _ = exact m (l.take n) ++ exact m (l.drop n) := by
        rw [exact_append hn ⟨1, by rw [htake, Nat.mul_one]⟩, exact_self hn htake, List.singleton_append,
          List.flatMap_cons, ih hdrop]
      _ = exact m l := by
        rw [← exact_append hm (by rwa [htake]), List.take_append_drop]

end Chunks

/-
MahoRD/Lib/Search.lean

The first occurrence of a pattern in a list.  What is found in the beginning of a list is
found in the list (`find_extend`), and what ends within the beginning is found there
(`find_restrict`).
-/
import Mathlib.Data.List.Infix

namespace Search

variable {α : Type*} [DecidableEq α] {pat xs ys : List α} {i : ℕ}

/-- Where the pattern occurs first. -/
def find (pat : List α) : List α → Option ℕ
  | [] => if pat = [] then some 0 else none
  | x :: xs => if pat <+: x :: xs then some 0 else (find pat xs).map (· + 1)

theorem find_of_isPrefix (h : pat <+: xs) : find pat xs = some 0 := by
  cases xs with
  | nil => rw [find, if_pos (List.prefix_nil.mp h)]
  | cons x xs => rw [find, if_pos h]

theorem find_eq_none_iff : find pat xs = none ↔ ¬ pat <:+: xs := by
  induction xs with
  | nil =>
    rw [find, List.infix_nil]
    split <;> simp [*]
  | cons x xs ih =>
    rw [find, List.infix_cons_iff]
    split
    next h => simp [h]
    next h => simp [h, ih]

theorem find_eq_some (h : find pat xs = some i) :
    i + pat.length ≤ xs.length ∧ xs = xs.take i ++ pat ++ xs.drop (i + pat.length) := by
  induction xs generalizing i with
  | nil =>
    rw [find] at h
    split at h
    next hpat =>
      cases h
      simp [hpat]
    · cases h
  | cons x xs ih =>
    rw [find] at h
    split at h
    next hpre =>
      cases h
      obtain ⟨rest, heq⟩ := hpre
      simp [← heq]
    · obtain ⟨j, hj, rfl⟩ := Option.map_eq_some_iff.mp h
      obtain ⟨hlen, heq⟩ := ih hj
      refine ⟨by rw [List.length_cons]; omega, ?_⟩
      rw [List.take_succ_cons, Nat.add_right_comm, List.drop_succ_cons, List.cons_append,
        List.cons_append, ← heq]

theorem getElem?_of_find (h : find pat xs = some i) {j : ℕ} (hj : j < pat.length) :
    xs[i + j]? = pat[j]? := by
  obtain ⟨hlen, heq⟩ := find_eq_some h
  have htake : (xs.take i).length = i := by
    rw [List.length_take]
    omega
  rw [heq, List.append_assoc, List.getElem?_append_right (by omega), htake,
    Nat.add_sub_cancel_left, List.getElem?_append_left hj]

theorem find_extend (hxs : xs <+: ys) (h : find pat xs = some i) : find pat ys = some i := by
  induction xs generalizing ys i with
  | nil =>
    rw [find] at h
    split at h
    next hpat =>
      cases h
      exact find_of_isPrefix (hpat ▸ List.nil_prefix)
    · cases h
  | cons x xs ih =>
    obtain ⟨ys, rfl, hys⟩ : ∃ ys', ys = x :: ys' ∧ xs <+: ys' := by
      obtain ⟨rest, rfl⟩ := hxs
      exact ⟨xs ++ rest, rfl, List.prefix_append _ _⟩
    rw [find] at h
    split at h
    next hpre =>
      cases h
      exact find_of_isPrefix (hpre.trans hxs)
    next hpre =>
      obtain ⟨j, hj, rfl⟩ := Option.map_eq_some_iff.mp h
      -- an occurrence at the front of the longer list ends within the shorter one
      have hnot : ¬ pat <+: x :: ys := by
        intro hpat
        have hlen := (find_eq_some hj).1
        exact hpre (List.prefix_of_prefix_length_le hpat hxs (by rw [List.length_cons]; omega))
      rw [find, if_neg hnot, ih hys hj]
      rfl

theorem find_restrict (hxs : xs <+: ys) (h : find pat ys = some i)
    (hlen : i + pat.length ≤ xs.length) : find pat xs = some i := by
  cases hfind : find pat xs with
  | some j =>
    rw [find_extend hxs hfind] at h
    exact h
  | none =>
    refine (find_eq_none_iff.mp hfind ?_).elim
    have heq := (find_eq_some h).2
    have hpat : ys.take i ++ pat <+: xs := by
      refine List.prefix_of_prefix_length_le ⟨_, heq.symm⟩ hxs ?_
      rw [List.length_append, List.length_take]
      omega
    exact (List.suffix_append _ _).isInfix.trans hpat.isInfix

theorem find_prefix_eq_none (hxs : xs <+: ys) (h : find pat ys = none) : find pat xs = none := by
  cases hfind : find pat xs with
  | none => rfl
  | some i =>
    rw [find_extend hxs hfind] at h
    cases h

end Search

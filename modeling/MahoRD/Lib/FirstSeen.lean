/-
MahoRD/Lib/FirstSeen.lean

Elements gathered by a key, the keys in the order in which they were seen first.  When an element
comes whose key is there, a rule decides whether it takes the place of the one that is.

What is gathered depends on the elements of each key alone (`items_eq`).  A property that the rule
never gives up and always takes is had by what is gathered exactly if some element of its key has it
(`property_iff`).
-/
import MahoRD.Lib.Table

namespace FirstSeen

variable {α β κ : Type} [DecidableEq κ]

/-- `replaces old new`: the new element takes the place of the old one. -/
structure Rule (α κ : Type) where
  key : α → κ
  replaces : α → α → Bool

structure Gathered (α κ : Type) where
  byKey : Table κ α
  order : List κ

def Gathered.empty : Gathered α κ := ⟨∅, []⟩

variable (rule : Rule α κ)

def add (g : Gathered α κ) (a : α) : Gathered α κ :=
  match g.byKey.lookup (rule.key a) with
  | some old =>
    if rule.replaces old a then { g with byKey := AList.insert (rule.key a) a g.byKey } else g
  | none => ⟨AList.insert (rule.key a) a g.byKey, g.order ++ [rule.key a]⟩

/-- The values at the keys, each taken out of the table. -/
def takeAll (table : Table κ α) : List κ → List α
  | [] => []
  | k :: keys =>
    match table.lookup k with
    | some a => a :: takeAll (table.erase k) keys
    | none => takeAll table keys

def gather (l : List α) : Gathered α κ := l.foldl (add rule) .empty

def items (l : List α) : List α := takeAll (gather rule l).byKey (gather rule l).order

/-! ### One key -/

/-- What stands for a key when one more of its elements has come. -/
def pick : Option α → α → α
  | none, a => a
  | some old, a => if rule.replaces old a then a else old

/-- What a list leaves for a key. -/
def winner (l : List α) (k : κ) : Option α :=
  l.foldl (fun found a => if rule.key a = k then some (pick rule found a) else found) none

variable {rule} {l : List α} {a : α} {k : κ}

theorem winner_concat :
    winner rule (l ++ [a]) k =
      if rule.key a = k then some (pick rule (winner rule l k) a) else winner rule l k := by
  rw [winner, List.foldl_append]
  rfl

theorem winner_mem (h : winner rule l k = some a) : a ∈ l ∧ rule.key a = k := by
  induction l using List.reverseRecOn generalizing a with
  | nil => cases h
  | append_singleton l b ih =>
    have hold : ∀ {c}, winner rule l k = some c → c ∈ l ++ [b] ∧ rule.key c = k := by
      intro c hc
      exact ⟨List.mem_append_left _ (ih hc).1, (ih hc).2⟩
    rw [winner_concat] at h
    split_ifs at h with hb
    · obtain rfl := Option.some.inj h
      cases hw : winner rule l k with
      | none => exact ⟨List.mem_append_right _ (List.mem_singleton_self b), hb⟩
      | some old =>
        rw [pick]
        split_ifs
        · exact ⟨List.mem_append_right _ (List.mem_singleton_self b), hb⟩
        · exact hold hw
    · exact hold h

theorem winner_isSome (h : k ∈ l.map rule.key) : (winner rule l k).isSome = true := by
  induction l using List.reverseRecOn with
  | nil => cases h
  | append_singleton l b ih =>
    rw [winner_concat]
    split_ifs with hb
    · rfl
    · rw [List.map_append, List.mem_append] at h
      apply ih
      apply h.resolve_right
      intro hlast
      exact hb (List.mem_singleton.mp hlast).symm

/-- **A property that is never given up and always taken.** -/
theorem property_iff {P : α → Prop}
    (hkeep : ∀ old ∈ l, ∀ new ∈ l, P old → rule.replaces old new = true → P new)
    (htake : ∀ old ∈ l, ∀ new ∈ l, ¬ P old → P new → rule.replaces old new = true)
    (h : winner rule l k = some a) : P a ↔ ∃ b ∈ l, rule.key b = k ∧ P b := by
  constructor
  · intro ha
    exact ⟨a, (winner_mem h).1, (winner_mem h).2, ha⟩
  · -- by the list from its end: the last element is taken, or what stood there before had it
    rintro ⟨b, hb, hkey, hP⟩
    induction l using List.reverseRecOn generalizing a b with
    | nil => cases hb
    | append_singleton l c ih =>
      have hmem : ∀ {d}, d ∈ l → d ∈ l ++ [c] := fun hd => List.mem_append_left _ hd
      have hlast : c ∈ l ++ [c] := List.mem_append_right _ (List.mem_singleton_self c)
      have hbefore : ∀ {old}, winner rule l k = some old → b ∈ l → P old := by
        intro old hold hbl
        exact ih (fun old hold new hnew => hkeep old (hmem hold) new (hmem hnew))
          (fun old hold new hnew => htake old (hmem hold) new (hmem hnew)) hold b hbl hkey hP
      rw [winner_concat] at h
      split_ifs at h with hc
      · obtain rfl := Option.some.inj h
        cases hw : winner rule l k with
        | none =>
          rcases List.mem_append.mp hb with hbl | hbc
          · have hsome := winner_isSome (List.mem_map.mpr ⟨b, hbl, hkey⟩)
            rw [hw] at hsome
            cases hsome
          · rw [List.mem_singleton.mp hbc] at hP
            exact hP
        | some old =>
          have hold := hmem (winner_mem hw).1
          rw [pick]
          split_ifs with hreplaces
          · by_cases hPold : P old
            · exact hkeep old hold c hlast hPold hreplaces
            · rcases List.mem_append.mp hb with hbl | hbc
              · exact (hPold (hbefore hw hbl)).elim
              · rw [List.mem_singleton.mp hbc] at hP
                exact hP
          · by_contra hPold
            rcases List.mem_append.mp hb with hbl | hbc
            · exact hPold (hbefore hw hbl)
            · rw [List.mem_singleton.mp hbc] at hP
              exact hreplaces (htake old hold c hlast hPold hP)
      · rcases List.mem_append.mp hb with hbl | hbc
        · exact hbefore h hbl
        · rw [List.mem_singleton.mp hbc] at hkey
          exact (hc hkey).elim

/-! ### All keys -/

theorem eraseDups_concat (keys : List κ) (k : κ) :
    (keys ++ [k]).eraseDups = if k ∈ keys then keys.eraseDups else keys.eraseDups ++ [k] := by
  rw [List.eraseDups_append]
  split_ifs with hk
  · simp [List.removeAll, hk]
  · simp [List.removeAll, hk, List.eraseDups_cons]

theorem nodup_eraseDups (keys : List κ) : keys.eraseDups.Nodup := by
  induction keys using List.reverseRecOn with
  | nil => exact List.nodup_nil
  | append_singleton keys k ih =>
    rw [eraseDups_concat]
    split_ifs with hk
    · exact ih
    · apply List.nodup_append.mpr
      refine ⟨ih, List.nodup_singleton k, ?_⟩
      intro b hb c hc hbc
      rw [hbc, List.mem_singleton.mp hc] at hb
      exact hk (List.mem_eraseDups.mp hb)

/-- What has been gathered, against the elements so far. -/
structure Gathered.Shows (rule : Rule α κ) (l : List α) (g : Gathered α κ) : Prop where
  order : g.order = (l.map rule.key).eraseDups
  byKey : ∀ k, g.byKey.lookup k = winner rule l k

theorem Gathered.Shows.add {g : Gathered α κ} (h : g.Shows rule l) (a : α) :
    (add rule g a).Shows rule (l ++ [a]) := by
  have hmem : rule.key a ∈ l.map rule.key ↔ (winner rule l (rule.key a)).isSome = true := by
    constructor
    · exact winner_isSome
    · intro hsome
      obtain ⟨b, hb⟩ := Option.isSome_iff_exists.mp hsome
      exact List.mem_map.mpr ⟨b, winner_mem hb⟩
  have hbyKey : ∀ v k, v = pick rule (winner rule l (rule.key a)) a →
      (AList.insert (rule.key a) v g.byKey).lookup k = winner rule (l ++ [a]) k := by
    rintro v k rfl
    rw [Table.lookup_insert, winner_concat, h.byKey k]
    by_cases hk : rule.key a = k
    · subst hk
      rw [if_pos rfl]
    · rw [if_neg hk, if_neg (Ne.symm hk)]
  rw [FirstSeen.add, h.byKey]
  cases hw : winner rule l (rule.key a) with
  | none =>
    constructor
    · show g.order ++ [rule.key a] = _
      rw [List.map_append, List.map_singleton, eraseDups_concat, h.order, if_neg]
      rw [hmem, hw]
      exact Bool.false_ne_true
    · intro k
      apply hbyKey
      rw [hw]
      rfl
  | some old =>
    have hin : rule.key a ∈ l.map rule.key := hmem.mpr (by rw [hw]; rfl)
    have horder : g.order = ((l ++ [a]).map rule.key).eraseDups := by
      rw [List.map_append, List.map_singleton, eraseDups_concat, h.order, if_pos hin]
    show Shows rule (l ++ [a]) (if rule.replaces old a then _ else g)
    split_ifs with hreplaces
    · refine ⟨horder, fun k => ?_⟩
      apply hbyKey
      rw [hw, pick, if_pos hreplaces]
    · refine ⟨horder, fun k => ?_⟩
      rw [winner_concat, h.byKey k]
      split_ifs with hk
      · rw [← hk, hw, pick, if_neg hreplaces]
      · rfl

theorem shows_gather (l : List α) : (gather rule l).Shows rule l := by
  induction l using List.reverseRecOn with
  | nil => exact ⟨rfl, fun k => rfl⟩
  | append_singleton l a ih =>
    rw [gather, List.foldl_append]
    exact ih.add a

theorem takeAll_eq {table : Table κ α} {keys : List κ} (h : keys.Nodup) :
    takeAll table keys = keys.filterMap table.lookup := by
  induction keys generalizing table with
  | nil => rfl
  | cons k keys ih =>
    obtain ⟨hk, hkeys⟩ := List.nodup_cons.mp h
    rw [takeAll, List.filterMap_cons]
    cases table.lookup k with
    | none => exact ih hkeys
    | some a =>
      -- `k` does not come again
      have hrest : keys.filterMap (table.erase k).lookup = keys.filterMap table.lookup := by
        apply List.filterMap_congr
        intro k' hk'
        rw [Table.lookup_erase, if_neg (ne_of_mem_of_not_mem hk' hk)]
      show a :: takeAll (table.erase k) keys = a :: keys.filterMap table.lookup
      rw [ih hkeys, hrest]

/-- **One element for each key, in the order of first appearance.** -/
theorem items_eq (l : List α) :
    items rule l = (l.map rule.key).eraseDups.filterMap (winner rule l) := by
  have h : (gather rule l).Shows rule l := shows_gather l
  rw [items, h.order, takeAll_eq (nodup_eraseDups _)]
  apply List.filterMap_congr
  intro k _
  exact h.byKey k

variable (rule) in
theorem map_key_items (l : List α) : (items rule l).map rule.key = (l.map rule.key).eraseDups := by
  have hkeys : ∀ keys : List κ, (∀ k ∈ keys, k ∈ l.map rule.key) →
      (keys.filterMap (winner rule l)).map rule.key = keys := by
    intro keys hsub
    induction keys with
    | nil => rfl
    | cons k keys ih =>
      obtain ⟨a, ha⟩ := Option.isSome_iff_exists.mp (winner_isSome (hsub k List.mem_cons_self))
      rw [List.filterMap_cons, ha]
      show rule.key a :: (keys.filterMap (winner rule l)).map rule.key = k :: keys
      rw [(winner_mem ha).2, ih fun k hk => hsub k (List.mem_cons_of_mem _ hk)]
  rw [items_eq]
  exact hkeys _ fun k hk => List.mem_eraseDups.mp hk

theorem winner_of_mem_items (h : a ∈ items rule l) : winner rule l (rule.key a) = some a := by
  rw [items_eq] at h
  obtain ⟨k, -, hk⟩ := List.mem_filterMap.mp h
  rw [(winner_mem hk).2, hk]

/-! ### Two rules -/

section Map

variable {rule' : Rule β κ} {f : α → β}

theorem winner_map (hkey : ∀ a, rule'.key (f a) = rule.key a)
    (hreplaces : ∀ old new, rule'.replaces (f old) (f new) = rule.replaces old new) (l : List α)
    (k : κ) : winner rule' (l.map f) k = (winner rule l k).map f := by
  induction l using List.reverseRecOn with
  | nil => rfl
  | append_singleton l a ih =>
    rw [List.map_append, List.map_singleton, winner_concat, winner_concat, ih, hkey]
    split_ifs with hk
    · cases winner rule l k with
      | none => rfl
      | some old =>
        simp only [Option.map_some, pick, hreplaces]
        split_ifs <;> rfl
    · rfl

/-- Elements that are told apart in the same way are gathered in the same way. -/
theorem items_map (hkey : ∀ a, rule'.key (f a) = rule.key a)
    (hreplaces : ∀ old new, rule'.replaces (f old) (f new) = rule.replaces old new) (l : List α) :
    items rule' (l.map f) = (items rule l).map f := by
  have hkeys : rule'.key ∘ f = rule.key := by
    funext a
    exact hkey a
  rw [items_eq, items_eq, List.map_map, hkeys, List.map_filterMap]
  apply List.filterMap_congr
  intro k _
  exact winner_map hkey hreplaces l k

end Map

end FirstSeen

/-
MahoRD/Lib/Presses.lean

Things that are pressed and released.  An event presses a thing, releases it or leaves it
alone, and the last event of a log that does not leave it alone tells whether it is down.

A record is kept of what is down.  `Covers` says that the record `held'` still has all that
is down after a log, if `held` had it before.
-/
import Mathlib.Data.List.Basic

namespace Presses

variable {ε ι : Type*} (effect : ε → ι → Option Bool)

/-- What the last event that touches the thing made of it. -/
def last (log : List ε) (i : ι) : Option Bool := (log.filterMap (effect · i)).getLast?

def Down (log : List ε) (i : ι) : Prop := last effect log i = some true

instance (log : List ε) (i : ι) : Decidable (Down effect log i) :=
  inferInstanceAs (Decidable (_ = some true))

/-- The log leaves nothing down that it touches. -/
def Balanced (log : List ε) : Prop := ∀ i, ¬ Down effect log i

structure Covers (log : List ε) (held held' : ι → Prop) : Prop where
  pressed : ∀ i, Down effect log i → held' i
  kept : ∀ i, last effect log i = none → held i → held' i

variable {effect}

@[simp] theorem last_nil (i : ι) : last effect [] i = none := rfl

theorem last_append (log log' : List ε) (i : ι) :
    last effect (log ++ log') i = (last effect log' i).or (last effect log i) := by
  rw [last, List.filterMap_append, List.getLast?_append]
  rfl

theorem last_cons (e : ε) (log : List ε) (i : ι) :
    last effect (e :: log) i = (last effect log i).or (effect e i) := by
  rw [← List.singleton_append, last_append]
  cases h : effect e i <;> simp [last, h]

@[simp] theorem last_singleton (e : ε) (i : ι) : last effect [e] i = effect e i := by
  simp [last_cons]

variable {i : ι} {log : List ε}

theorem last_eq_none_iff :
    last effect log i = none ↔ ∀ e ∈ log, effect e i = none := by
  rw [last, List.getLast?_eq_none_iff, List.filterMap_eq_nil_iff]

theorem Down.exists_press (h : Down effect log i) :
    ∃ e ∈ log, effect e i = some true :=
  List.mem_filterMap.mp (List.mem_of_getLast? h)

theorem last_eq_some_false (hpress : ∀ e ∈ log, effect e i ≠ some true)
    (hrelease : ∃ e ∈ log, effect e i = some false) : last effect log i = some false := by
  obtain ⟨e, he, hrelease⟩ := hrelease
  cases h : last effect log i with
  | none => cases hrelease.symm.trans (last_eq_none_iff.mp h e he)
  | some down =>
    cases down with
    | false => rfl
    | true =>
      obtain ⟨e', he', hpress'⟩ := Down.exists_press h
      exact (hpress e' he' hpress').elim

theorem down_append {log' : List ε} :
    Down effect (log ++ log') i ↔
      Down effect log' i ∨ (last effect log' i = none ∧ Down effect log i) := by
  rw [Down, last_append]
  cases h : last effect log' i with
  | none => simp [Down, h]
  | some d => simp [Down, h]

theorem Balanced.nil : Balanced effect ([] : List ε) := fun _ h => nomatch h

theorem Balanced.append {log' : List ε} (h : Balanced effect log)
    (h' : Balanced effect log') : Balanced effect (log ++ log') := by
  intro i hdown
  rcases down_append.mp hdown with hdown | ⟨-, hdown⟩
  · exact h' i hdown
  · exact h i hdown

theorem Balanced.flatten {logs : List (List ε)} (h : ∀ log ∈ logs, Balanced effect log) :
    Balanced effect logs.flatten := by
  induction logs with
  | nil => exact Balanced.nil
  | cons log logs ih =>
    exact (h log (.head _)).append (ih fun log hlog => h log (.tail _ hlog))

theorem Balanced.of_forall (h : ∀ e ∈ log, ∀ i, effect e i ≠ some true) :
    Balanced effect log := by
  intro i hdown
  obtain ⟨e, he, hpress⟩ := hdown.exists_press
  exact h e he i hpress

theorem Balanced.pair {down up : ε} (hup : ∀ i, effect up i ≠ some true)
    (h : ∀ i, effect down i = some true → effect up i = some false) :
    Balanced effect [down, up] := by
  intro i hdown
  rw [Down, last_cons, last_singleton] at hdown
  rcases Option.or_eq_some_iff.mp hdown with hpress | ⟨hnone, hpress⟩
  · exact hup i hpress
  · exact nomatch hnone.symm.trans (h i hpress)

section Covers

variable {log log' : List ε} {held held' held'' : ι → Prop}

theorem Covers.of_balanced (h : Balanced effect log) : Covers effect log held held :=
  ⟨fun i hdown => (h i hdown).elim, fun _ _ hi => hi⟩

theorem Covers.trans (h : Covers effect log held held') (h' : Covers effect log' held' held'') :
    Covers effect (log ++ log') held held'' := by
  constructor
  · intro i hdown
    rcases down_append.mp hdown with hdown | ⟨hnone, hdown⟩
    · exact h'.pressed i hdown
    · exact h'.kept i hnone (h.pressed i hdown)
  · intro i hnone hi
    rw [last_append, Option.or_eq_none_iff] at hnone
    exact h'.kept i hnone.1 (h.kept i hnone.2 hi)

theorem Covers.down (h : Covers effect log' held held') (hlog : ∀ i, Down effect log i → held i) :
    ∀ i, Down effect (log ++ log') i → held' i := by
  intro i hdown
  rcases down_append.mp hdown with hdown | ⟨hnone, hdown⟩
  · exact h.pressed i hdown
  · exact h.kept i hnone (hlog i hdown)

theorem Covers.mono {effect' : ε → ι → Option Bool}
    (hpress : ∀ {e i}, effect' e i = some true → effect e i = some true)
    (htouch : ∀ {e i}, effect' e i = none → effect e i = none)
    (h : Covers effect log held held') : Covers effect' log held held' := by
  have hnone {log : List ε} {i : ι} (hlog : last effect' log i = none) :
      last effect log i = none :=
    last_eq_none_iff.mpr fun e he => htouch (last_eq_none_iff.mp hlog e he)
  have hdown {log : List ε} {i : ι} (hlog : Down effect' log i) : Down effect log i := by
    induction log with
    | nil => cases hlog
    | cons e log ih =>
      rw [Down, last_cons] at hlog ⊢
      rcases Option.or_eq_some_iff.mp hlog with hlater | ⟨hlater, he⟩
      · rw [ih hlater, Option.some_or]
      · rw [hnone hlater, Option.none_or, hpress he]
  exact ⟨fun i hi => h.pressed i (hdown hi), fun i hi => h.kept i (hnone hi)⟩

end Covers

end Presses

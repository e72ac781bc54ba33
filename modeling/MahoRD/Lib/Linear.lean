/-
MahoRD/Lib/Linear.lean

Linearizations.  Calls overlap in the runs of a machine; each takes effect at once, at some
step of its own.  `Simulation` relates the states of the machine to the calls that have
taken effect, in their order: a call that has ended is among them, and one that has not
begun is not.  The order of a whole run then keeps to real time (`InRealTime`): what has
ended before a step comes before what begins after it.
-/
import MahoRD.Lib.Machine
import Mathlib.Data.List.Nodup

namespace Linear

variable {σ α τ : Type*}

/-- How the calls of a machine are told to have begun and ended. -/
structure Calls (σ τ : Type*) where
  begun : σ → τ → Prop
  ended : σ → τ → Prop

/-- The relation may depend on the condition `C` on every step. -/
structure Simulation (step : σ → α → Option σ) (calls : Calls σ τ) (C : σ → α → Prop) where
  Rel : List τ → σ → Prop
  step : ∀ {order s a s'}, Rel order s → C s a → step s a = some s' →
    ∃ now, Rel (order ++ now) s'
  nodup : ∀ {order s}, Rel order s → order.Nodup
  begun : ∀ {order s t}, Rel order s → t ∈ order → calls.begun s t
  ended : ∀ {order s t}, Rel order s → calls.ended s t → t ∈ order

/-- At every point of the run the order has a beginning with all that has ended and nothing that
has not begun. -/
def InRealTime (step : σ → α → Option σ) (calls : Calls σ τ) (s : σ) (as : List α)
    (order : List τ) : Prop :=
  ∀ bs t, bs <+: as → Machine.run step s bs = some t →
    ∃ before, before <+: order ∧ (∀ c, calls.ended t c → c ∈ before) ∧ ∀ c ∈ before, calls.begun t c

variable {step : σ → α → Option σ} {calls : Calls σ τ} {C : σ → α → Prop}

/-- **A run has a linearization**, if its steps meet the condition. -/
theorem Simulation.linearization (sim : Simulation step calls C) {s s' : σ} {as : List α}
    {order : List τ} (hrel : sim.Rel order s) (hC : Machine.Along step C s as)
    (h : Machine.run step s as = some s') :
    ∃ now, sim.Rel (order ++ now) s' ∧ InRealTime step calls s as (order ++ now) := by
  induction as generalizing s order with
  | nil =>
    cases h
    refine ⟨[], by rwa [List.append_nil], fun bs t hbs ht => ?_⟩
    obtain rfl := List.prefix_nil.mp hbs
    cases ht
    rw [List.append_nil]
    exact ⟨order, List.prefix_rfl, fun c => sim.ended hrel, fun c => sim.begun hrel⟩
  | cons a as ih =>
    obtain ⟨t, ht, hrest⟩ := Machine.run_cons_eq_some.mp h
    obtain ⟨now, hnow⟩ := sim.step hrel hC.1 ht
    obtain ⟨later, hlater, htime⟩ := ih hnow (hC.2 t ht) hrest
    rw [List.append_assoc] at hlater htime
    refine ⟨now ++ later, hlater, fun bs u hbs hu => ?_⟩
    cases bs with
    | nil =>
      cases hu
      exact ⟨order, List.prefix_append _ _, fun c => sim.ended hrel, fun c => sim.begun hrel⟩
    | cons b bs =>
      obtain ⟨rfl, hpre⟩ := List.cons_prefix_cons.mp hbs
      obtain ⟨t', ht', hrun⟩ := Machine.run_cons_eq_some.mp hu
      obtain rfl : t = t' := Option.some.inj (ht.symm.trans ht')
      exact htime bs u hpre hrun

end Linear

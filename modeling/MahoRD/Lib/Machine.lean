/-
MahoRD/Lib/Machine.lean

Runs of a labelled machine.  A machine is given by its step function

    step : σ → α → Option σ

where the label carries every choice the machine itself does not make: which
thread moves, what a peer sent, what a call returned.  `none` says that the
label is not enabled.  A run is a list of labels; quantifying over the lists
is quantifying over all interleavings.

`Along step C s as` says that every step of the run meets the condition `C`
on the state before it and its label.  The rules below package the inductions
once: an invariant (`run_inv`), an invariant of the runs that stay within a
condition (`run_inv_along`), and an invariant that speaks of the labels so far
(`run_history`).
-/
import Mathlib.Data.List.Basic
import Mathlib.Data.Option.Basic

namespace Machine

variable {σ α : Type*}

/-- The state after the labels `as`, if every one of them is enabled. -/
def run (step : σ → α → Option σ) : σ → List α → Option σ
  | s, [] => some s
  | s, a :: as => (step s a).bind (run step · as)

/-- Every step of the run of `as` from `s` meets `C` in the state before it. -/
def Along (step : σ → α → Option σ) (C : σ → α → Prop) : σ → List α → Prop
  | _, [] => True
  | s, a :: as => C s a ∧ ∀ s', step s a = some s' → Along step C s' as

variable {step : σ → α → Option σ}

/-- On a concrete run a decidable condition can be checked. -/
instance Along.decidable {C : σ → α → Prop} [∀ s a, Decidable (C s a)] :
    ∀ (s : σ) (as : List α), Decidable (Along step C s as)
  | _, [] => isTrue trivial
  | s, a :: as =>
    match h : step s a with
    | none => decidable_of_iff (C s a) ⟨fun hc => ⟨hc, by simp [h]⟩, And.left⟩
    | some t =>
      have := Along.decidable (C := C) t as
      decidable_of_iff (C s a ∧ Along step C t as)
        ⟨fun hc => ⟨hc.1, fun s' hs' => Option.some.inj (h ▸ hs') ▸ hc.2⟩,
          fun hc => ⟨hc.1, hc.2 t h⟩⟩

variable {C : σ → α → Prop} {as : List α} {s s' : σ} {I : σ → Prop}

theorem Along.imp {D : σ → α → Prop} (hCD : ∀ {s a}, C s a → D s a)
    (h : Along step C s as) : Along step D s as := by
  induction as generalizing s with
  | nil => trivial
  | cons a as ih => exact ⟨hCD h.1, fun s' hs' => ih (h.2 s' hs')⟩

theorem Along.and {D : σ → α → Prop} (hC : Along step C s as)
    (hD : Along step D s as) : Along step (fun s a => C s a ∧ D s a) s as := by
  induction as generalizing s with
  | nil => trivial
  | cons a as ih => exact ⟨⟨hC.1, hD.1⟩, fun s' hs' => ih (hC.2 s' hs') (hD.2 s' hs')⟩

theorem Along.of_mem {P : α → Prop} (h : ∀ a ∈ as, P a) (s : σ) :
    Along step (fun _ a => P a) s as := by
  induction as generalizing s with
  | nil => trivial
  | cons a as ih =>
    rw [List.forall_mem_cons] at h
    exact ⟨h.1, fun s' _ => ih h.2 s'⟩

@[simp] theorem run_nil (s : σ) : run step s [] = some s := rfl

theorem run_cons_eq_some {a : α} :
    run step s (a :: as) = some s' ↔
      ∃ t, step s a = some t ∧ run step t as = some s' := by
  simp [run, Option.bind_eq_some_iff]

theorem run_append (s : σ) (as bs : List α) :
    run step s (as ++ bs) = (run step s as).bind (run step · bs) := by
  induction as generalizing s with
  | nil => rfl
  | cons a as ih =>
    rcases h : step s a with - | t
    · simp [run, h]
    · simp [run, h, ih]

theorem run_append_eq_some {bs : List α} :
    run step s (as ++ bs) = some s' ↔
      ∃ t, run step s as = some t ∧ run step t bs = some s' := by
  rw [run_append, Option.bind_eq_some_iff]

theorem Along.append {t : σ} {bs : List α}
    (h : Along step C s (as ++ bs)) (hs : run step s as = some t) :
    Along step C s as ∧ Along step C t bs := by
  induction as generalizing s with
  | nil =>
    cases hs
    exact ⟨trivial, h⟩
  | cons a as ih =>
    obtain ⟨u, hu, hrest⟩ := run_cons_eq_some.mp hs
    obtain ⟨hc, hnext⟩ := h
    refine ⟨⟨hc, fun u' hu' => ?_⟩, (ih (hnext u hu) hrest).2⟩
    obtain rfl : u = u' := Option.some.inj (hu.symm.trans hu')
    exact (ih (hnext u hu) hrest).1

theorem run_inv
    (hstep : ∀ {s a s'}, I s → step s a = some s' → I s') (h₀ : I s) (h : run step s as = some s') : I s' := by
  induction as generalizing s with
  | nil => cases h; exact h₀
  | cons a as ih =>
    obtain ⟨t, ht, hrest⟩ := run_cons_eq_some.mp h
    exact ih (hstep h₀ ht) hrest

/-- An invariant kept by every step that meets `C` holds after every run whose
steps all meet `C`. -/
theorem run_inv_along
    (hstep : ∀ {s a s'}, I s → C s a → step s a = some s' → I s') (h₀ : I s) (hC : Along step C s as)
    (h : run step s as = some s') : I s' := by
  induction as generalizing s with
  | nil => cases h; exact h₀
  | cons a as ih =>
    obtain ⟨t, ht, hrest⟩ := run_cons_eq_some.mp h
    exact ih (hstep h₀ hC.1 ht) (hC.2 t ht) hrest

/-- Where a step keeps `I` exactly if it meets `C`, the runs within `C` are those that stay in
`I`. -/
theorem along_iff
    (hstep : ∀ {s a s'}, I s → step s a = some s' → (I s' ↔ C s a)) (h₀ : I s) (h : run step s as = some s') :
    Along step C s as ↔ ∀ bs t, bs <+: as → run step s bs = some t → I t := by
  constructor
  · rintro hC bs t ⟨cs, rfl⟩ ht
    exact run_inv_along (fun hI hc hs => (hstep hI hs).mpr hc) h₀ (hC.append ht).1 ht
  · intro hI
    induction as generalizing s with
    | nil => trivial
    | cons a as ih =>
      obtain ⟨t, ht, hrest⟩ := run_cons_eq_some.mp h
      have hIt : I t := hI [a] t (List.prefix_append [a] as) (run_cons_eq_some.mpr ⟨t, ht, rfl⟩)
      refine ⟨(hstep h₀ ht).mp hIt, fun u hu => ?_⟩
      obtain rfl : t = u := Option.some.inj (ht.symm.trans hu)
      exact ih hIt hrest fun bs v hbs hv =>
        hI (a :: bs) v (List.cons_prefix_cons.mpr ⟨rfl, hbs⟩)
          (run_cons_eq_some.mpr ⟨t, ht, hv⟩)

theorem run_history {I : List α → σ → Prop}
    (hstep : ∀ {as s a s'}, I as s → step s a = some s' → I (as ++ [a]) s') (h₀ : I [] s) (h : run step s as = some s') : I as s' := by
  have hrun : ∀ (as bs : List α) (t : σ), I bs t → run step t as = some s' → I (bs ++ as) s' := by
    intro as
    induction as with
    | nil =>
      intro bs t ht h
      cases h
      simpa using ht
    | cons a as ih =>
      intro bs t ht h
      obtain ⟨u, hu, hrest⟩ := run_cons_eq_some.mp h
      simpa using ih (bs ++ [a]) u (hstep ht hu) hrest
  exact hrun as [] s h₀ h

end Machine

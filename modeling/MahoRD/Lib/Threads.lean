/-
MahoRD/Lib/Threads.lean

Threads over a shared state, interleaved at atomic operations.

A program (`Prog`) is a tree: an operation and, for each reply to it, the rest.
It ends with a value or an error.  What an operation does to the shared state is
given by

    perform : τ → (o : Op) → χ → σ → Option (Reply o × σ)

for the thread `t : τ` and a choice `c : χ` of the environment; `none` says that
the thread has to wait.  A step of the pool calls a program or performs one
operation of one thread.

The proof rule is that of rely and guarantee.  A `Discipline` is an invariant of
the shared state and a preorder (the rely) that every allowed operation of any
thread keeps.  `Meets D t Q E p s` says that the program `p` of the thread `t`,
from the state `s` on and whatever the others do within the rely, returns only in
`Q` and raises only in `E`; `run_meets` transfers this to the runs of the pool.
-/
import MahoRD.Lib.Machine

namespace Threads

/-! ### Programs -/

inductive Prog (Op : Type) (Reply : Op → Type) (ε α : Type)
  | ret (a : α)
  | raise (e : ε)
  | op (o : Op) (k : Reply o → Prog Op Reply ε α)

namespace Prog

variable {Op : Type} {Reply : Op → Type} {ε α β : Type}

/-- One operation. -/
def perform (o : Op) : Prog Op Reply ε (Reply o) := op o ret

def seq : Prog Op Reply ε α → (α → Prog Op Reply ε β) → Prog Op Reply ε β
  | ret a, f => f a
  | raise e, _ => raise e
  | op o k, f => op o fun r => (k r).seq f

instance : Monad (Prog Op Reply ε) where
  pure := ret
  bind := seq

/-- The value or the error that the program comes to; it is not raised. -/
def outcome : Prog Op Reply ε α → Prog Op Reply ε (Except ε α)
  | ret a => ret (.ok a)
  | raise e => ret (.error e)
  | op o k => op o fun r => (k r).outcome

/-- Raise an error, or return a value. -/
def ofExcept : Except ε α → Prog Op Reply ε α
  | .ok a => ret a
  | .error e => raise e

/-- Do `x` if the condition holds. -/
def when (c : Prop) [Decidable c] (x : Prog Op Reply ε Unit) : Prog Op Reply ε Unit :=
  if c then x else ret ()

/-- The program has ended. -/
def ended : Prog Op Reply ε α → Bool
  | op _ _ => false
  | _ => true

end Prog

/-! ### The pool -/

section Pool

variable {τ χ σ Op : Type} {Reply : Op → Type} {ε α : Type}

/-- The shared state, and what the threads that were called have yet to do. -/
structure Pool (τ σ Op : Type) (Reply : Op → Type) (ε α : Type) where
  shared : σ
  threads : τ → Option (Prog Op Reply ε α)

inductive Action (τ χ : Type)
  | call (t : τ)
  | go (t : τ) (c : χ)

variable [DecidableEq τ] (perform : τ → (o : Op) → χ → σ → Option (Reply o × σ))
  (program : τ → Prog Op Reply ε α)

def step (x : Pool τ σ Op Reply ε α) : Action τ χ → Option (Pool τ σ Op Reply ε α)
  | .call t =>
    match x.threads t with
    | none => some { x with threads := Function.update x.threads t (some (program t)) }
    | some _ => none
  | .go t c =>
    match x.threads t with
    | some (.op o k) =>
      match perform t o c x.shared with
      | none => none
      | some (r, shared) => some ⟨shared, Function.update x.threads t (some (k r))⟩
    | _ => none

/-- What a thread has yet to do, called or not. -/
def Pool.rest (x : Pool τ σ Op Reply ε α) (t : τ) : Prog Op Reply ε α :=
  (x.threads t).getD (program t)

variable {perform program}

omit [DecidableEq τ] in
theorem Pool.rest_of_threads {x : Pool τ σ Op Reply ε α} {t : τ} {p : Prog Op Reply ε α}
    (h : x.threads t = some p) : x.rest program t = p := by
  rw [Pool.rest, h, Option.getD_some]

/-- A call changes nothing that is left to do; any other step is one operation of
one thread, and goes down one level in its program. -/
theorem step_cases {x x' : Pool τ σ Op Reply ε α} {a : Action τ χ}
    (hs : step perform program x a = some x') :
    (x'.shared = x.shared ∧ ∀ u, x'.rest program u = x.rest program u) ∨
      ∃ t c o k r, a = .go t c ∧ x.threads t = some (.op o k) ∧
        perform t o c x.shared = some (r, x'.shared) ∧ x'.rest program t = k r ∧
        ∀ u, u ≠ t → x'.rest program u = x.rest program u := by
  cases a with
  | call t =>
    simp only [step] at hs
    split at hs
    next hnone =>
      cases hs
      refine Or.inl ⟨rfl, fun u => ?_⟩
      by_cases hu : u = t
      · subst hu
        simp [Pool.rest, hnone]
      · simp [Pool.rest, hu]
    · cases hs
  | go t c =>
    simp only [step] at hs
    split at hs
    next o k hthread =>
      split at hs
      · cases hs
      next r shared hr =>
        cases hs
        refine Or.inr ⟨t, c, o, k, r, rfl, hthread, hr, ?_, fun u hu => ?_⟩
        · simp [Pool.rest]
        · simp [Pool.rest, hu]
    · cases hs

/-- The condition on an operation, as a condition on the steps of the pool. -/
def Within (allowed : σ → τ → Op → χ → Prop) (x : Pool τ σ Op Reply ε α) : Action τ χ → Prop
  | .call _ => True
  | .go t c =>
    match x.threads t with
    | some (.op o _) => allowed x.shared t o c
    | _ => True

instance {allowed : σ → τ → Op → χ → Prop} [∀ s t o c, Decidable (allowed s t o c)]
    (x : Pool τ σ Op Reply ε α) (a : Action τ χ) : Decidable (Within allowed x a) :=
  match a with
  | .call _ => isTrue trivial
  | .go t c =>
    match h : x.threads t with
    | some (.op o _) => decidable_of_iff (allowed x.shared t o c) (by simp only [Within, h])
    | some (.ret _) => isTrue (by simp only [Within, h])
    | some (.raise _) => isTrue (by simp only [Within, h])
    | none => isTrue (by simp only [Within, h])

end Pool

/-! ### Rely and guarantee -/

section Discipline

variable {τ χ σ Op : Type} {Reply : Op → Type} {ε α β : Type}

structure Discipline (perform : τ → (o : Op) → χ → σ → Option (Reply o × σ)) where
  allowed : σ → τ → Op → χ → Prop
  Inv : σ → Prop
  Rely : σ → σ → Prop
  rely_refl : ∀ s, Rely s s
  rely_trans : ∀ {s t u}, Rely s t → Rely t u → Rely s u
  keeps : ∀ {s s' : σ} {t : τ} {o : Op} {c : χ} {r : Reply o}, Inv s → allowed s t o c →
    perform t o c s = some (r, s') → Inv s' ∧ Rely s s'

variable {perform : τ → (o : Op) → χ → σ → Option (Reply o × σ)} (D : Discipline perform)

/-- From `s` on the program returns only in `Q` and raises only in `E`. -/
def Meets (t : τ) (Q : α → σ → Prop) (E : ε → σ → Prop) : Prog Op Reply ε α → σ → Prop
  | .ret a, s => ∀ s', D.Rely s s' → D.Inv s' → Q a s'
  | .raise e, s => ∀ s', D.Rely s s' → D.Inv s' → E e s'
  | .op o k, s => ∀ s₁, D.Rely s s₁ → D.Inv s₁ → ∀ c r s₂, D.allowed s₁ t o c →
      perform t o c s₁ = some (r, s₂) → Meets t Q E (k r) s₂

variable {D} {t : τ} {Q Q' : α → σ → Prop} {E E' : ε → σ → Prop}

variable {p : Prog Op Reply ε α} {s : σ} {x : Pool τ σ Op Reply ε α}

theorem Meets.later {s' : σ} (h : Meets D t Q E p s)
    (hs : D.Rely s s') : Meets D t Q E p s' := by
  cases p with
  | ret a => exact fun s'' hs' => h s'' (D.rely_trans hs hs')
  | raise e => exact fun s'' hs' => h s'' (D.rely_trans hs hs')
  | op o k => exact fun s₁ hs₁ => h s₁ (D.rely_trans hs hs₁)

theorem Meets.weaken (h : Meets D t Q E p s)
    (hQ : ∀ a s, Q a s → Q' a s) (hE : ∀ e s, E e s → E' e s) : Meets D t Q' E' p s := by
  induction p generalizing s with
  | ret a => exact fun s' hs hi => hQ a s' (h s' hs hi)
  | raise e => exact fun s' hs hi => hE e s' (h s' hs hi)
  | op o k ih =>
    intro s₁ hs hi c r s₂ hallowed hr
    exact ih r (h s₁ hs hi c r s₂ hallowed hr)

/-- Sequencing; what the first program returns in is where the second one starts. -/
theorem Meets.seq {f : α → Prog Op Reply ε β} {R : β → σ → Prop}
    (h : Meets D t Q E p s) (hi : D.Inv s)
    (hf : ∀ a s, D.Inv s → Q a s → Meets D t R E (f a) s) : Meets D t R E (p >>= f) s := by
  induction p generalizing s with
  | ret a => exact hf a s hi (h s (D.rely_refl s) hi)
  | raise e => exact h
  | op o k ih =>
    intro s₁ hs hi₁ c r s₂ hallowed hr
    exact ih r (h s₁ hs hi₁ c r s₂ hallowed hr) (D.keeps hi₁ hallowed hr).1

theorem Meets.doing {o : Op} {f : Reply o → Prog Op Reply ε α}
    (h : ∀ s₁, D.Rely s s₁ → D.Inv s₁ → ∀ c r s₂, D.allowed s₁ t o c →
      perform t o c s₁ = some (r, s₂) → D.Inv s₂ → D.Rely s₁ s₂ → Meets D t Q E (f r) s₂) :
    Meets D t Q E (Prog.perform o >>= f) s := by
  intro s₁ hs hi c r s₂ hallowed hr
  obtain ⟨hi₂, hrely⟩ := D.keeps hi hallowed hr
  exact h s₁ hs hi c r s₂ hallowed hr hi₂ hrely

theorem Meets.outcome {R : Except ε α → σ → Prop}
    (h : Meets D t (fun a => R (.ok a)) (fun e => R (.error e)) p s) :
    Meets D t R E p.outcome s := by
  induction p generalizing s with
  | ret a => exact h
  | raise e => exact h
  | op o k ih =>
    intro s₁ hs hi c r s₂ hallowed hr
    exact ih r (h s₁ hs hi c r s₂ hallowed hr)

theorem Meets.stable {P : σ → Prop} (hP : ∀ {s s'}, P s → D.Rely s s' → P s')
    (p : Prog Op Reply ε α) (h : P s) :
    Meets D t (fun _ => P) (fun _ => P) p s := by
  induction p generalizing s with
  | ret a => exact fun _ hs _ => hP h hs
  | raise e => exact fun _ hs _ => hP h hs
  | op o k ih =>
    intro s₁ hs hi c r s₂ hallowed hr
    exact ih r (hP (hP h hs) (D.keeps hi hallowed hr).2)

variable {program : τ → Prog Op Reply ε α}

theorem Meets.returned {a : α}
    (h : Meets D t Q E (x.rest program t) x.shared) (hi : D.Inv x.shared)
    (hr : x.threads t = some (.ret a)) : Q a x.shared := by
  rw [Pool.rest_of_threads hr] at h
  exact h x.shared (D.rely_refl _) hi

theorem Meets.raised {e : ε}
    (h : Meets D t Q E (x.rest program t) x.shared) (hi : D.Inv x.shared)
    (hr : x.threads t = some (.raise e)) : E e x.shared := by
  rw [Pool.rest_of_threads hr] at h
  exact h x.shared (D.rely_refl _) hi

variable [DecidableEq τ]

theorem step_meets {x' : Pool τ σ Op Reply ε α} {a : Action τ χ} (hi : D.Inv x.shared)
    (hc : Within D.allowed x a) (hs : step perform program x a = some x') :
    D.Inv x'.shared ∧ D.Rely x.shared x'.shared ∧
      ∀ {t Q E}, Meets D t Q E (x.rest program t) x.shared →
        Meets D t Q E (x'.rest program t) x'.shared := by
  rcases step_cases hs with ⟨hshared, hrest⟩ | ⟨t, c, o, k, r, rfl, hthread, hr, hnext, hothers⟩
  · rw [hshared]
    exact ⟨hi, D.rely_refl _, fun {u Q E} h => hrest u ▸ h⟩
  · have hallowed : D.allowed x.shared t o c := by simpa only [Within, hthread] using hc
    obtain ⟨hi', hrely⟩ := D.keeps hi hallowed hr
    refine ⟨hi', hrely, fun {u Q E} h => ?_⟩
    by_cases hu : u = t
    · -- the thread itself: one level down in its program
      subst hu
      rw [Pool.rest_of_threads hthread] at h
      rw [hnext]
      exact h x.shared (D.rely_refl _) hi c r x'.shared hallowed hr
    · -- another one: it relies on this step
      rw [hothers u hu]
      exact h.later hrely

theorem run_meets {x' : Pool τ σ Op Reply ε α} {as : List (Action τ χ)}
    (hi : D.Inv x.shared)
    (hc : Machine.Along (step perform program) (Within D.allowed) x as)
    (h : Machine.run (step perform program) x as = some x') :
    D.Inv x'.shared ∧ D.Rely x.shared x'.shared ∧
      ∀ {t Q E}, Meets D t Q E (x.rest program t) x.shared →
        Meets D t Q E (x'.rest program t) x'.shared := by
  induction as generalizing x with
  | nil =>
    cases h
    exact ⟨hi, D.rely_refl _, fun h => h⟩
  | cons a as ih =>
    obtain ⟨y, hy, hrest⟩ := Machine.run_cons_eq_some.mp h
    obtain ⟨hyi, hyr, hym⟩ := step_meets hi hc.1 hy
    obtain ⟨hi', hr', hm'⟩ := ih hyi (hc.2 y hy) hrest
    exact ⟨hi', D.rely_trans hyr hr', fun h => hm' (hym h)⟩

end Discipline

end Threads

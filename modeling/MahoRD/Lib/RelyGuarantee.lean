/-
MahoRD/Lib/RelyGuarantee.lean

Rely and guarantee with a rely for each thread.

A `Discipline` asks every allowed operation of any thread to keep the invariant.
Here the operations need not: what keeps the invariant is the program, which
performs an operation only where its thread knows enough.  A `Contract` is an
invariant of the shared state and, for each thread, a preorder: what the others
leave to that thread.  `Keeps C t Q E p s` says that the program `p` of the
thread `t`, from the state `s` on and whatever the others do within the rely of
`t`, keeps the invariant and the relies of the others at every operation, and
that it returns only in `Q` and raises only in `E`.  If every thread does, the
invariant holds throughout the runs of the pool (`run_keeps`).

`Prog.All` is for the threads that know nothing: all the operations that the
program may come to are of a kind that keeps everything by itself (`All.keeps`).
-/
import MahoRD.Lib.Threads

namespace Threads

variable {τ χ σ Op : Type} {Reply : Op → Type} {ε α β : Type}

structure Contract (perform : τ → (o : Op) → χ → σ → Option (Reply o × σ)) where
  allowed : σ → τ → Op → χ → Prop
  Inv : σ → Prop
  Rely : τ → σ → σ → Prop
  rely_refl : ∀ t s, Rely t s s
  rely_trans : ∀ {t s u v}, Rely t s u → Rely t u v → Rely t s v

variable {perform : τ → (o : Op) → χ → σ → Option (Reply o × σ)} (C : Contract perform)

/-- What a step of the thread `t` has to leave. -/
def Contract.Guarantee (t : τ) (s s' : σ) : Prop := C.Inv s' ∧ ∀ u, u ≠ t → C.Rely u s s'

def Keeps (t : τ) (Q : α → σ → Prop) (E : ε → σ → Prop) : Prog Op Reply ε α → σ → Prop
  | .ret a, s => ∀ s', C.Rely t s s' → Q a s'
  | .raise e, s => ∀ s', C.Rely t s s' → E e s'
  | .op o k, s => ∀ s₁, C.Rely t s s₁ → C.Inv s₁ → ∀ c r s₂, C.allowed s₁ t o c →
      perform t o c s₁ = some (r, s₂) → C.Guarantee t s₁ s₂ ∧ Keeps t Q E (k r) s₂

/-! ### Rules -/

section Rules

variable {C} {t : τ} {Q Q' : α → σ → Prop} {E E' : ε → σ → Prop}

variable {p : Prog Op Reply ε α} {s : σ} {P : σ → Prop}

theorem Keeps.later {s' : σ} (h : Keeps C t Q E p s)
    (hs : C.Rely t s s') : Keeps C t Q E p s' := by
  cases p with
  | ret a => exact fun s'' hs' => h s'' (C.rely_trans hs hs')
  | raise e => exact fun s'' hs' => h s'' (C.rely_trans hs hs')
  | op o k => exact fun s₁ hs₁ => h s₁ (C.rely_trans hs hs₁)

theorem Keeps.weaken (h : Keeps C t Q E p s)
    (hQ : ∀ a s, Q a s → Q' a s) (hE : ∀ e s, E e s → E' e s) : Keeps C t Q' E' p s := by
  induction p generalizing s with
  | ret a => exact fun s' hs => hQ a s' (h s' hs)
  | raise e => exact fun s' hs => hE e s' (h s' hs)
  | op o k ih =>
    intro s₁ hs hi c r s₂ hallowed hr
    obtain ⟨hg, hnext⟩ := h s₁ hs hi c r s₂ hallowed hr
    exact ⟨hg, ih r hnext⟩

theorem Keeps.seq {f : α → Prog Op Reply ε β} {R : β → σ → Prop}
    (h : Keeps C t Q E p s) (hf : ∀ a s, Q a s → Keeps C t R E (f a) s) :
    Keeps C t R E (p >>= f) s := by
  induction p generalizing s with
  | ret a => exact hf a s (h s (C.rely_refl t s))
  | raise e => exact h
  | op o k ih =>
    intro s₁ hs hi c r s₂ hallowed hr
    obtain ⟨hg, hnext⟩ := h s₁ hs hi c r s₂ hallowed hr
    exact ⟨hg, ih r hnext⟩

theorem Keeps.outcome {R : Except ε α → σ → Prop}
    (h : Keeps C t (fun a => R (.ok a)) (fun e => R (.error e)) p s) :
    Keeps C t R E p.outcome s := by
  induction p generalizing s with
  | ret a => exact h
  | raise e => exact h
  | op o k ih =>
    intro s₁ hs hi c r s₂ hallowed hr
    obtain ⟨hg, hnext⟩ := h s₁ hs hi c r s₂ hallowed hr
    exact ⟨hg, ih r hnext⟩

/-- What the thread knows is stable: the others cannot take it away. -/
def Stable (C : Contract perform) (t : τ) (P : σ → Prop) : Prop :=
  ∀ {s s'}, P s → C.Rely t s s' → P s'

/-- What the thread knows before an operation, and after it. -/
def Spec (C : Contract perform) (t : τ) (P : σ → Prop) (o : Op) (P' : Reply o → σ → Prop) : Prop :=
  ∀ {s c r s'}, P s → C.Inv s → C.allowed s t o c → perform t o c s = some (r, s') →
    C.Guarantee t s s' ∧ P' r s'

theorem Keeps.op {o : Op} {k : Reply o → Prog Op Reply ε α}
    {P' : Reply o → σ → Prop} (hstable : Stable C t P) (ho : Spec C t P o P') (h : P s)
    (hk : ∀ r s, P' r s → Keeps C t Q E (k r) s) : Keeps C t Q E (.op o k) s := by
  intro s₁ hs hi c r s₂ hallowed hr
  obtain ⟨hg, hP'⟩ := ho (hstable h hs) hi hallowed hr
  exact ⟨hg, hk r s₂ hP'⟩

theorem Keeps.doing {o : Op} {f : Reply o → Prog Op Reply ε α}
    {P' : Reply o → σ → Prop} (hstable : Stable C t P) (ho : Spec C t P o P') (h : P s)
    (hf : ∀ r s, P' r s → Keeps C t Q E (f r) s) :
    Keeps C t Q E (Prog.perform o >>= f) s := Keeps.op hstable ho h hf

theorem Keeps.ret {a : α} (hstable : Stable C t P) (h : P s) :
    Keeps C t (fun _ => P) E (pure a) s := fun _ hs => hstable h hs

theorem Keeps.raise {e : ε} (hstable : Stable C t P) (h : P s) :
    Keeps C t Q (fun _ => P) (.raise e) s := fun _ hs => hstable h hs

end Rules

/-! ### Programs that may be run anywhere -/

/-- All the operations that the program may come to meet `F`. -/
def Prog.All (F : Op → Prop) : Prog Op Reply ε α → Prop
  | .op o k => F o ∧ ∀ r, (k r).All F
  | _ => True

namespace Prog.All

variable {F : Op → Prop}

theorem one {o : Op} (h : F o) : All F (Prog.perform o : Prog Op Reply ε (Reply o)) :=
  ⟨h, fun _ => trivial⟩

theorem seq {p : Prog Op Reply ε α} {f : α → Prog Op Reply ε β} (hp : p.All F)
    (hf : ∀ a, (f a).All F) : (p >>= f).All F := by
  induction p with
  | ret a => exact hf a
  | raise e => trivial
  | op o k ih => exact ⟨hp.1, fun r => ih r (hp.2 r)⟩

theorem keeps {C : Contract perform} {t : τ} {P : σ → Prop} {p : Prog Op Reply ε α}
    (hp : p.All F) (hstable : Stable C t P)
    (ho : ∀ o, F o → Spec C t P o fun _ => P) {s : σ} (h : P s) :
    Keeps C t (fun _ => P) (fun _ => P) p s := by
  induction p generalizing s with
  | ret a | raise e => exact fun _ hs => hstable h hs
  | op o k ih =>
    intro s₁ hs hi c r s₂ hallowed hr
    obtain ⟨hg, hP⟩ := ho o hp.1 (hstable h hs) hi hallowed hr
    exact ⟨hg, ih r (hp.2 r) hP⟩

end Prog.All

/-- The program does not raise. -/
def Prog.Returns : Prog Op Reply ε α → Prop
  | .ret _ => True
  | .raise _ => False
  | .op _ k => ∀ r, (k r).Returns

theorem Prog.Returns.one (o : Op) : (Prog.perform o : Prog Op Reply ε (Reply o)).Returns :=
  fun _ => trivial

theorem Prog.Returns.seq {p : Prog Op Reply ε α} {f : α → Prog Op Reply ε β} (hp : p.Returns)
    (hf : ∀ a, (f a).Returns) : (p >>= f).Returns := by
  induction p with
  | ret a => exact hf a
  | raise e => exact hp.elim
  | op o k ih => exact fun r => ih r (hp r)

theorem Keeps.returns {C : Contract perform} {t : τ} {Q : α → σ → Prop} {E E' : ε → σ → Prop}
    {p : Prog Op Reply ε α} {s : σ} (h : Keeps C t Q E p s) (hp : p.Returns) :
    Keeps C t Q E' p s := by
  induction p generalizing s with
  | ret a => exact h
  | raise e => exact hp.elim
  | op o k ih =>
    intro s₁ hs hi c r s₂ hallowed hr
    obtain ⟨hg, hnext⟩ := h s₁ hs hi c r s₂ hallowed hr
    exact ⟨hg, ih r hnext (hp r)⟩

/-! ### Runs -/

section Runs

variable [DecidableEq τ] {C} {program : τ → Prog Op Reply ε α} {Q : τ → α → σ → Prop}
  {E : τ → ε → σ → Prop}

/-- Every thread, called or not, keeps to the contract from here on. -/
structure Sound (C : Contract perform) (program : τ → Prog Op Reply ε α) (Q : τ → α → σ → Prop)
    (E : τ → ε → σ → Prop) (x : Pool τ σ Op Reply ε α) : Prop where
  inv : C.Inv x.shared
  keeps : ∀ t, Keeps C t (Q t) (E t) (x.rest program t) x.shared

theorem step_keeps {x x' : Pool τ σ Op Reply ε α} {a : Action τ χ} (h : Sound C program Q E x)
    (hc : Within C.allowed x a) (hs : step perform program x a = some x') :
    Sound C program Q E x' := by
  rcases step_cases hs with ⟨hshared, hrest⟩ | ⟨t, c, o, k, r, rfl, hthread, hr, hnext, hothers⟩
  · refine ⟨hshared ▸ h.inv, fun u => ?_⟩
    rw [hshared, hrest]
    exact h.keeps u
  · have hallowed : C.allowed x.shared t o c := by simpa only [Within, hthread] using hc
    have hown := h.keeps t
    rw [Pool.rest_of_threads hthread] at hown
    obtain ⟨⟨hinv, hrely⟩, hown⟩ :=
      hown x.shared (C.rely_refl t _) h.inv c r x'.shared hallowed hr
    refine ⟨hinv, fun u => ?_⟩
    by_cases hu : u = t
    · -- the thread itself: one level down in its program
      rw [hu, hnext]
      exact hown
    · -- another one: it relies on this step
      rw [hothers u hu]
      exact (h.keeps u).later (hrely u hu)

theorem run_keeps {x x' : Pool τ σ Op Reply ε α} {as : List (Action τ χ)}
    (h : Sound C program Q E x)
    (hc : Machine.Along (step perform program) (Within C.allowed) x as)
    (hrun : Machine.run (step perform program) x as = some x') : Sound C program Q E x' :=
  Machine.run_inv_along (I := Sound C program Q E) step_keeps h hc hrun

end Runs

end Threads

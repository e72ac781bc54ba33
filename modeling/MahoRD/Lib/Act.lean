/-
MahoRD/Lib/Act.lean

Programs with a state that may stop early.  An action runs from a state to a
state and either returns a value or raises: what it did to the state before it
raised stays done.

`Triple P x Q E` is the total meaning of an action as a Hoare triple: from a
state with `P`, if `x` returns `a` then `Q a` holds of the state after it, and
if it raises `e` then `E e` does.  `Keeps R X x` says that, however `x` ends, the
state before it and the state after it are related by `R`, and that it raises
only what is in `X`; with a preorder `R` this is closed under sequencing
(`Keeps.seq`).  To leave what `f` reads off the state alone is such a preorder
(`Same f`).  An action that is `Blind f` does not see that the state was changed
by `f`.
-/
import Mathlib.Data.List.Basic

/-- Programs over a state of type `σ` that return `α` or raise `ε`. -/
abbrev Act (ε σ α : Type) := ExceptT ε (StateM σ) α

namespace Act

variable {ε σ α β : Type}

/-- Run an action from a state. -/
def exec (x : Act ε σ α) (s : σ) : Except ε α × σ := StateT.run (ExceptT.run x) s

@[simp] theorem exec_pure (a : α) (s : σ) : (pure a : Act ε σ α).exec s = (.ok a, s) := rfl

theorem exec_bind (x : Act ε σ α) (f : α → Act ε σ β) (s : σ) :
    (x >>= f).exec s = match x.exec s with
      | (.ok a, s') => (f a).exec s'
      | (.error e, s') => (.error e, s') := by
  show StateT.run (ExceptT.run (x >>= f)) s = _
  show (match (x.exec s).1 with
    | .ok a => ExceptT.run (f a)
    | .error e => pure (.error e)) (x.exec s).2 = _
  rcases x.exec s with ⟨e | a, s'⟩ <;> rfl

@[simp] theorem exec_throw (e : ε) (s : σ) : (throw e : Act ε σ α).exec s = (.error e, s) := rfl

@[simp] theorem exec_get (s : σ) : (get : Act ε σ σ).exec s = (.ok s, s) := rfl

@[simp] theorem exec_set (s s' : σ) : (set s' : Act ε σ PUnit).exec s = (.ok ⟨⟩, s') := rfl

@[simp] theorem exec_modify (f : σ → σ) (s : σ) :
    (modify f : Act ε σ PUnit).exec s = (.ok ⟨⟩, f s) := rfl

@[simp] theorem exec_ite (c : Prop) [Decidable c] (x y : Act ε σ α) (s : σ) :
    (if c then x else y).exec s = if c then x.exec s else y.exec s := by
  split <;> rfl

/-- Do `x` if the condition holds. -/
def when (c : Prop) [Decidable c] (x : Act ε σ Unit) : Act ε σ Unit := if c then x else pure ()

/-- The value of a result, or its error, renamed. -/
def ofExcept {ε' : Type} (f : ε' → ε) : Except ε' α → Act ε σ α
  | .ok a => pure a
  | .error e => throw (f e)

/-- Raise the error, if there is one. -/
def attempt {ε' : Type} (f : ε' → ε) : Option ε' → Act ε σ Unit
  | none => pure ()
  | some e => throw (f e)

/-- The value, if there is one. -/
def required (e : ε) : Option α → Act ε σ α
  | none => throw e
  | some a => pure a

/-- What `x` comes to, be it a value or an error; it is not raised. -/
def outcome (x : Act ε σ α) : Act ε σ (Except ε α) := ExceptT.mk (do
  let r ← ExceptT.run x
  return .ok r)

theorem exec_outcome (x : Act ε σ α) (s : σ) :
    (outcome x).exec s = (.ok (x.exec s).1, (x.exec s).2) := rfl

/-! ### What a return tells -/

variable {s s' : σ} {x : Act ε σ α} {c : Prop} {e : ε} {a : α}

theorem exec_seq_eq_ok {f : α → Act ε σ β} {b : β} :
    (x >>= f).exec s = (.ok b, s') ↔
      ∃ a s₁, x.exec s = (.ok a, s₁) ∧ (f a).exec s₁ = (.ok b, s') := by
  rw [exec_bind]
  rcases x.exec s with ⟨e | a, s₁⟩
  · simp
  · simp

theorem exec_guard_eq_ok [Decidable c] {u : Unit} :
    (when c (throw e) : Act ε σ Unit).exec s = (.ok u, s') ↔ ¬ c ∧ s' = s := by
  rw [when, exec_ite]
  split
  next hc => simp [hc]
  next hc => simp [hc, eq_comm]

theorem exec_refuse_eq_ok [Decidable c] {u : Unit} :
    (when c (x >>= fun _ => throw e) : Act ε σ Unit).exec s = (.ok u, s') ↔ ¬ c ∧ s' = s := by
  rw [when, exec_ite]
  split
  next hc => simp [hc, exec_seq_eq_ok]
  next hc => simp [hc, eq_comm]

theorem exec_required_eq_ok {o : Option α} :
    (required e o : Act ε σ α).exec s = (.ok a, s') ↔ o = some a ∧ s' = s := by
  rcases o with - | b
  · simp [required]
  · simp [required, eq_comm]

theorem exec_ofExcept_eq_ok {ε' : Type} {f : ε' → ε} {r : Except ε' α} :
    (ofExcept f r : Act ε σ α).exec s = (.ok a, s') ↔ r = .ok a ∧ s' = s := by
  rcases r with e | b
  · simp [ofExcept]
  · simp [ofExcept, eq_comm]

/-! ### Triples -/

/-- From `P`, a return of `a` is in `Q a` and a raise of `e` is in `E e`. -/
def Triple (P : σ → Prop) (x : Act ε σ α) (Q : α → σ → Prop) (E : ε → σ → Prop) : Prop :=
  ∀ s, P s → (∀ a s', x.exec s = (.ok a, s') → Q a s') ∧
    ∀ e s', x.exec s = (.error e, s') → E e s'

variable {P P' Q' : σ → Prop} {Q : α → σ → Prop} {E : ε → σ → Prop}

theorem Triple.ret (h : ∀ s, P s → Q a s) : Triple P (pure a : Act ε σ α) Q E := by
  intro s hs
  refine ⟨fun b s' hb => ?_, fun e s' he => ?_⟩
  · cases hb
    exact h s hs
  · cases he

theorem Triple.raise (h : ∀ s, P s → E e s) :
    Triple P (throw e : Act ε σ α) Q E := by
  intro s hs
  refine ⟨fun b s' hb => ?_, fun e' s' he => ?_⟩
  · cases hb
  · cases he
    exact h s hs

theorem Triple.seq {f : α → Act ε σ β} {R : β → σ → Prop}
    (hx : Triple P x Q E) (hf : ∀ a, Triple (Q a) (f a) R E) : Triple P (x >>= f) R E := by
  intro s hs
  rw [exec_bind]
  rcases hxs : x.exec s with ⟨e | a, s'⟩
  · refine ⟨fun b t hb => ?_, fun e' t he => ?_⟩
    · cases hb
    · cases he
      exact (hx s hs).2 e s' hxs
  · exact hf a s' ((hx s hs).1 a s' hxs)

theorem Triple.read {f : σ → Act ε σ α}
    (h : ∀ s, P s → Triple (· = s) (f s) Q E) : Triple P (get >>= f) Q E := by
  intro s hs
  exact h s hs s rfl

theorem Triple.update {f : σ → σ} {Q : PUnit → σ → Prop} (h : ∀ s, P s → Q ⟨⟩ (f s)) :
    Triple P (modify f : Act ε σ PUnit) Q E := by
  intro s hs
  refine ⟨fun b s' hb => ?_, fun e s' he => ?_⟩
  · cases hb
    exact h s hs
  · cases he

theorem Triple.weaken (hP : ∀ s, P' s → P s) (h : Triple P x Q E) :
    Triple P' x Q E := fun s hs => h s (hP s hs)

theorem Triple.imp {Q' : α → σ → Prop} {E' : ε → σ → Prop} (h : Triple P x Q E)
    (hQ : ∀ {a s}, Q a s → Q' a s) (hE : ∀ {e s}, E e s → E' e s) : Triple P x Q' E' := fun s hs =>
  ⟨fun a s' hx => hQ ((h s hs).1 a s' hx), fun e s' hx => hE ((h s hs).2 e s' hx)⟩

theorem Triple.when [Decidable c] {x : Act ε σ Unit}
    (hx : Triple P x (fun _ => P) E) : Triple P (when c x) (fun _ => P) E := by
  rw [Act.when]
  split
  · exact hx
  · exact Triple.ret fun _ hs => hs

theorem Triple.attempt {ε' : Type} {f : ε' → ε} {o : Option ε'} (h : ∀ e s, P s → E (f e) s) :
    Triple P (attempt f o : Act ε σ Unit) (fun _ => P) E := by
  cases o with
  | none => exact Triple.ret fun _ hs => hs
  | some e => exact Triple.raise fun s hs => h e s hs

/-! ### Relations that an action keeps -/

/-- However `x` ends, the states before and after it are related by `R`, and it
raises nothing outside of `X`. -/
def Keeps (R : σ → σ → Prop) (X : ε → Prop) (x : Act ε σ α) : Prop :=
  ∀ s, R s (x.exec s).2 ∧ ∀ e, (x.exec s).1 = .error e → X e

/-- No bound on what is raised. -/
def Any (_ : ε) : Prop := True

variable {R R' : σ → σ → Prop} {X X' : ε → Prop}

theorem Keeps.ret [Std.Refl R] (a : α) : Keeps R X (pure a : Act ε σ α) := by
  refine fun s => ⟨refl s, fun e h => ?_⟩
  cases h

theorem Keeps.raise [Std.Refl R] (h : X e) :
    Keeps R X (throw e : Act ε σ α) := by
  refine fun s => ⟨refl s, fun e' he => ?_⟩
  cases he
  exact h

theorem Keeps.read [Std.Refl R] : Keeps R X (get : Act ε σ σ) := by
  refine fun s => ⟨refl s, fun e h => ?_⟩
  cases h

theorem Keeps.update {f : σ → σ} (h : ∀ s, R s (f s)) :
    Keeps R X (modify f : Act ε σ PUnit) := by
  refine fun s => ⟨h s, fun e he => ?_⟩
  cases he

theorem Keeps.mono (hx : Keeps R X x) (hR : ∀ {s s'}, R s s' → R' s s')
    (hX : ∀ {e}, X e → X' e) : Keeps R' X' x := fun s =>
  ⟨hR (hx s).1, fun e h => hX ((hx s).2 e h)⟩

theorem Keeps.seq [IsTrans σ R] {f : α → Act ε σ β} (hx : Keeps R X x)
    (hf : ∀ a, Keeps R X (f a)) : Keeps R X (x >>= f) := by
  intro s
  obtain ⟨hR, hX⟩ := hx s
  rw [exec_bind]
  rcases hxs : x.exec s with ⟨e | a, s'⟩
  · rw [hxs] at hR hX
    refine ⟨hR, fun e' he => ?_⟩
    cases he
    exact hX e rfl
  · rw [hxs] at hR
    exact ⟨IsTrans.trans _ _ _ hR (hf a s').1, (hf a s').2⟩

theorem Keeps.whenever [Std.Refl R] [Decidable c] {x : Act ε σ Unit}
    (hx : c → Keeps R X x) : Keeps R X (when c x) := by
  rw [Act.when]
  split
  next hc => exact hx hc
  · exact Keeps.ret ()

theorem Keeps.when [Std.Refl R] [Decidable c] {x : Act ε σ Unit}
    (hx : Keeps R X x) : Keeps R X (when c x) := Keeps.whenever fun _ => hx

theorem Keeps.ite [Decidable c] {y : Act ε σ α} (hx : Keeps R X x)
    (hy : Keeps R X y) : Keeps R X (if c then x else y) := by
  split
  · exact hx
  · exact hy

theorem Keeps.ofExcept [Std.Refl R] {ε' : Type} {f : ε' → ε} {r : Except ε' α}
    (h : ∀ e, X (f e)) : Keeps R X (ofExcept f r : Act ε σ α) := by
  cases r with
  | ok a => exact Keeps.ret a
  | error e => exact Keeps.raise (h e)

theorem Keeps.attempt [Std.Refl R] {ε' : Type} {f : ε' → ε} {o : Option ε'}
    (h : ∀ e, X (f e)) : Keeps R X (attempt f o : Act ε σ Unit) := by
  cases o with
  | none => exact Keeps.ret ()
  | some e => exact Keeps.raise (h e)

theorem Keeps.required [Std.Refl R] {o : Option α} (h : X e) :
    Keeps R X (required e o : Act ε σ α) := by
  cases o with
  | none => exact Keeps.raise h
  | some a => exact Keeps.ret a

theorem Keeps.outcome (hx : Keeps R X x) : Keeps R X' (outcome x) := by
  refine fun s => ⟨(hx s).1, fun e h => ?_⟩
  cases h

theorem Keeps.forM [Std.Refl R] [IsTrans σ R] {l : List α} {f : α → Act ε σ PUnit}
    (hf : ∀ a, Keeps R X (f a)) : Keeps R X (l.forM f) := by
  induction l with
  | nil => exact Keeps.ret PUnit.unit
  | cons a l ih => exact Keeps.seq (hf a) fun _ => ih

/-- It was stopped by what is in `X`, in a state related to `s₀`. -/
def Stopped (R : σ → σ → Prop) (X : ε → Prop) (s₀ : σ) (o : Except ε α × σ) : Prop :=
  R s₀ o.2 ∧ ∃ e, X e ∧ o.1 = .error e

/-- Running past an action: it stops, or what follows is run from a related state. -/
theorem Keeps.past [IsTrans σ R] {f : α → Act ε σ β} {s₀ : σ}
    (Ψ : Except ε β × σ → Prop) (hx : Keeps R X x) (hs : R s₀ s)
    (h : ∀ a s₁, x.exec s = (.ok a, s₁) → R s₀ s₁ →
      Stopped R X s₀ ((f a).exec s₁) ∨ Ψ ((f a).exec s₁)) :
    Stopped R X s₀ ((x >>= f).exec s) ∨ Ψ ((x >>= f).exec s) := by
  obtain ⟨hR, hX⟩ := hx s
  rw [exec_bind]
  rcases hxs : x.exec s with ⟨e | a, s₁⟩
  · rw [hxs] at hR hX
    exact Or.inl ⟨IsTrans.trans _ _ _ hs hR, e, hX e rfl, rfl⟩
  · rw [hxs] at hR
    exact h a s₁ hxs (IsTrans.trans _ _ _ hs hR)

theorem Keeps.stopped (hx : Keeps R X x)
    (h : ∀ a s', x.exec s ≠ (.ok a, s')) : Stopped R X s (x.exec s) := by
  obtain ⟨hR, hX⟩ := hx s
  rcases hxs : x.exec s with ⟨e | a, s'⟩
  · rw [hxs] at hR hX
    exact ⟨hR, e, hX e rfl, rfl⟩
  · exact absurd hxs (h a s')

theorem Keeps.triple (hx : Keeps R X x) (hQ : ∀ {s s'}, P s → R s s' → Q' s')
    {E : ε → σ → Prop} (hE : ∀ {e s s'}, P s → R s s' → X e → E e s') :
    Triple P x (fun _ => Q') E := by
  intro s hs
  obtain ⟨hR, hX⟩ := hx s
  refine ⟨fun a s' h => ?_, fun e s' h => ?_⟩
  · rw [h] at hR
    exact hQ hs hR
  · rw [h] at hR hX
    exact hE hs hR (hX e rfl)

/-- Two states agree on what `f` reads off them. -/
def Same (f : σ → α) (s s' : σ) : Prop := f s' = f s

instance (f : σ → α) : Std.Refl (Same f) := ⟨fun _ => rfl⟩

instance (f : σ → α) : IsTrans σ (Same f) := ⟨fun _ _ _ h h' => Eq.trans h' h⟩

/-! ### Actions that change all or nothing -/

/-- An action that raises has changed nothing. -/
def Atomic (x : Act ε σ α) : Prop := ∀ s e s', x.exec s = (.error e, s') → s' = s

/-- Nothing is raised. -/
def Never (_ : ε) : Prop := False

/-- Nothing is told of the states. -/
def Loose (_ _ : σ) : Prop := True

instance : @Std.Refl σ Loose := ⟨fun _ => trivial⟩

instance : IsTrans σ Loose := ⟨fun _ _ _ _ _ => trivial⟩

theorem Atomic.of_never (h : Keeps Loose Never x) : Atomic x := by
  intro s e s' hx
  exact ((h s).2 e (congrArg Prod.fst hx)).elim

/-- What fails is looked at first: after it, the rest is as atomic as before. -/
theorem Atomic.seq {f : α → Act ε σ β} (hx : Keeps (Same id) X x)
    (hf : ∀ a, Atomic (f a)) : Atomic (x >>= f) := by
  intro s e s' h
  rw [exec_bind] at h
  have hstill := (hx s).1
  rcases hxs : x.exec s with ⟨e₁ | a, s₁⟩
  · rw [hxs] at h hstill
    cases h
    exact hstill
  · rw [hxs] at h hstill
    exact (hf a s₁ e s' h).trans hstill

theorem Atomic.seq_never {f : α → Act ε σ β} (hx : Atomic x)
    (hf : ∀ a, Keeps Loose Never (f a)) : Atomic (x >>= f) := by
  intro s e s' h
  rw [exec_bind] at h
  rcases hxs : x.exec s with ⟨e₁ | a, s₁⟩
  · rw [hxs] at h
    cases h
    exact hx s _ _ hxs
  · rw [hxs] at h
    exact ((hf a s₁).2 e (congrArg Prod.fst h)).elim

theorem exec_forM {f : α → Act ε σ PUnit} {g : α → σ → σ}
    (h : ∀ a s, (f a).exec s = (.ok ⟨⟩, g a s)) (l : List α) (s : σ) :
    (l.forM f).exec s = (.ok ⟨⟩, l.foldl (fun s a => g a s) s) := by
  induction l generalizing s with
  | nil => rfl
  | cons a l ih =>
    show (f a >>= fun _ => l.forM f).exec s = _
    rw [exec_bind, h, List.foldl_cons]
    exact ih (g a s)

/-! ### Actions that do not see a change -/

/-- Changing the state by `f` before `x` is changing it after. -/
def Blind (f : σ → σ) (x : Act ε σ α) : Prop := ∀ s, x.exec (f s) = ((x.exec s).1, f (x.exec s).2)

variable {f : σ → σ}

theorem Blind.ret (a : α) : Blind f (pure a : Act ε σ α) := fun _ => rfl

theorem Blind.raise (e : ε) : Blind f (throw e : Act ε σ α) := fun _ => rfl

theorem Blind.update {g : σ → σ} (h : ∀ s, g (f s) = f (g s)) :
    Blind f (modify g : Act ε σ PUnit) := by
  intro s
  rw [exec_modify, exec_modify, h]

theorem Blind.read {k : σ → Act ε σ α} (hk : ∀ s, k (f s) = k s) (h : ∀ s, Blind f (k s)) :
    Blind f (get >>= k) := by
  intro s
  show (k (f s)).exec (f s) = (((k s).exec s).1, f ((k s).exec s).2)
  rw [hk]
  exact h s s

theorem Blind.seq {k : α → Act ε σ β} (hx : Blind f x) (hk : ∀ a, Blind f (k a)) :
    Blind f (x >>= k) := by
  intro s
  rw [exec_bind, exec_bind, hx s]
  rcases x.exec s with ⟨e | a, s'⟩
  · rfl
  · exact hk a s'

theorem Blind.when [Decidable c] {x : Act ε σ Unit} (hx : Blind f x) :
    Blind f (when c x) := by
  rw [Act.when]
  split
  · exact hx
  · exact Blind.ret ()

theorem Blind.ofExcept {ε' : Type} {g : ε' → ε} (r : Except ε' α) :
    Blind f (ofExcept g r : Act ε σ α) := by
  cases r with
  | ok a => exact Blind.ret a
  | error e => exact Blind.raise (g e)

theorem Blind.attempt {ε' : Type} {g : ε' → ε} (o : Option ε') :
    Blind f (attempt g o : Act ε σ Unit) := by
  cases o with
  | none => exact Blind.ret ()
  | some e => exact Blind.raise (g e)

theorem Blind.required (o : Option α) : Blind f (required e o : Act ε σ α) := by
  cases o with
  | none => exact Blind.raise e
  | some a => exact Blind.ret a

end Act

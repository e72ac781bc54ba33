/-
MahoRD/Lib/Parse.lean

Parsers that read from the front of what remains, and the formats they read.

`Reads p write good` says that `p` accepts exactly the words `write a` of the
good values `a`, whatever follows them.  It gives the round trip in both
directions: what was written is read back, and what is read had been written.
Such a parser is `Framed`, it leaves alone what follows.  A parser that also
insists on the end of the input is `Closed`: an accepted input has no accepted
continuation.
-/
import Mathlib.Data.List.Basic

namespace Parse

variable {τ ε α β : Type}

/-! ### What a run that succeeds has done -/

@[simp] theorem except_pure_eq_ok {a b : α} : (pure a : Except ε α) = .ok b ↔ a = b := by
  simp [pure, Except.pure]

variable {x : Except ε α} {e : ε} {c : Prop} {q : StateT (List τ) (Except ε) α} {good : α → Prop}

@[simp] theorem except_bind_eq_ok {f : α → Except ε β} {b : β} :
    (x >>= f) = .ok b ↔ ∃ a, x = .ok a ∧ f a = .ok b := by
  rcases x with e | a <;> simp [bind, Except.bind]

@[simp] theorem except_map_eq_ok {f : α → β} {b : β} :
    (f <$> x) = .ok b ↔ ∃ a, x = .ok a ∧ f a = b := by
  rcases x with e | a <;> simp [Functor.map, Except.map]

@[simp] theorem except_throw_eq_ok {a : α} : (throw e : Except ε α) = .ok a ↔ False := by
  simp [throw, throwThe, MonadExceptOf.throw]

@[simp] theorem except_ite_eq_ok [Decidable c] {y : Except ε α} {a : α} :
    (if c then x else y) = .ok a ↔ if c then x = .ok a else y = .ok a := by
  split <;> rfl

variable {p : StateT (List τ) (Except ε) α} {f : α → StateT (List τ) (Except ε) β}
variable {input rest : List τ} {a : α} {b : β}

@[simp] theorem run_throw :
    (throw e : StateT (List τ) (Except ε) α).run input = .error e := rfl

@[simp] theorem run_lift :
    (liftM x : StateT (List τ) (Except ε) α).run input = (·, input) <$> x := by
  rcases x with e | a <;> rfl

@[simp] theorem run_ite_eq_ok [Decidable c]
    {x : α × List τ} : (if c then p else q).run input = .ok x ↔
      if c then p.run input = .ok x else q.run input = .ok x := by
  split <;> rfl

@[simp] theorem run'_eq_ok : p.run' input = .ok a ↔ ∃ rest, p.run input = .ok (a, rest) := by
  show (Prod.fst <$> p.run input) = .ok a ↔ _
  rw [except_map_eq_ok]
  constructor
  · rintro ⟨⟨a, rest⟩, h, rfl⟩
    exact ⟨rest, h⟩
  · rintro ⟨rest, h⟩
    exact ⟨(a, rest), h, rfl⟩

theorem run_bind_eq_ok : (p >>= f).run input = .ok (b, rest) ↔
    ∃ a mid, p.run input = .ok (a, mid) ∧ (f a).run mid = .ok (b, rest) := by
  rw [StateT.run_bind, except_bind_eq_ok, Prod.exists]

theorem run_pure_eq_ok {a' : α} :
    (pure a : StateT (List τ) (Except ε) α).run input = .ok (a', rest) ↔
      a = a' ∧ input = rest := by
  simp

theorem run_throw_eq_ok :
    (throw e : StateT (List τ) (Except ε) α).run input = .ok (a, rest) ↔ False := by
  simp

theorem run_lift_eq_ok :
    (liftM x : StateT (List τ) (Except ε) α).run input = .ok (a, rest) ↔
      x = .ok a ∧ input = rest := by
  simp

/-! ### Formats -/

/-- `p` reads exactly what `write` writes of the values that are `good`. -/
def Reads (p : StateT (List τ) (Except ε) α) (write : α → List τ) (good : α → Prop) : Prop :=
  ∀ ⦃input a rest⦄, p.run input = .ok (a, rest) ↔ good a ∧ input = write a ++ rest

/-- What follows does not matter to `p`, and `p` leaves it as it is. -/
def Framed (p : StateT (List τ) (Except ε) α) : Prop :=
  ∀ ⦃input a rest⦄, p.run input = .ok (a, rest) → ∀ more,
    p.run (input ++ more) = .ok (a, rest ++ more)

/-- No continuation of an input that `p` accepts is accepted. -/
def Closed (p : StateT (List τ) (Except ε) α) : Prop :=
  ∀ ⦃input a rest⦄, p.run input = .ok (a, rest) → ∀ ⦃more b rest'⦄,
    p.run (input ++ more) = .ok (b, rest') → more = []

theorem Reads.run_eq_ok {write : α → List τ} (hp : Reads p write good) :
    p.run input = .ok (a, rest) ↔ good a ∧ input = write a ++ rest :=
  @hp _ _ _

theorem Reads.framed {write : α → List τ} (hp : Reads p write good) :
    Framed p := by
  intro input a rest h more
  obtain ⟨hgood, rfl⟩ := hp.mp h
  exact hp.mpr ⟨hgood, List.append_assoc ..⟩

/-! ### Parsers that are framed -/

@[simp] theorem Framed.pure : Framed (Pure.pure a : StateT (List τ) (Except ε) α) := by
  intro input b rest h more
  obtain ⟨rfl, rfl⟩ := run_pure_eq_ok.mp h
  rfl

@[simp] theorem Framed.lift : Framed (liftM x : StateT (List τ) (Except ε) α) := by
  intro input b rest h more
  obtain ⟨hx, rfl⟩ := run_lift_eq_ok.mp h
  exact run_lift_eq_ok.mpr ⟨hx, rfl⟩

@[simp] theorem Framed.bind (hp : Framed p) (hf : ∀ a, Framed (f a)) : Framed (p >>= f) := by
  intro input b rest h more
  obtain ⟨a, mid, h₁, h₂⟩ := run_bind_eq_ok.mp h
  exact run_bind_eq_ok.mpr ⟨a, mid ++ more, hp h₁ more, hf a h₂ more⟩

/-! ### Parsers that are closed -/

theorem Closed.bind (hp : Framed p) (hf : ∀ a, Closed (f a)) : Closed (p >>= f) := by
  intro input b rest h more b' rest' h'
  obtain ⟨a, mid, h₁, h₂⟩ := run_bind_eq_ok.mp h
  obtain ⟨a', mid', h₁', h₂'⟩ := run_bind_eq_ok.mp h'
  -- both runs have read the same value, and differ in what follows
  rw [hp h₁ more] at h₁'
  obtain ⟨rfl, rfl⟩ : a = a' ∧ mid ++ more = mid' := by simpa using h₁'
  exact hf a h₂ h₂'

theorem Closed.bind_left (hp : Closed p) : Closed (p >>= f) := by
  intro input b rest h more b' rest' h'
  obtain ⟨a, mid, h₁, -⟩ := run_bind_eq_ok.mp h
  obtain ⟨a', mid', h₁', -⟩ := run_bind_eq_ok.mp h'
  exact hp h₁ h₁'

@[simp] theorem Closed.map (hp : Closed p) {g : α → β} : Closed (g <$> p) := by
  rw [map_eq_pure_bind]
  exact hp.bind_left

@[simp] theorem Closed.throw : Closed (throw e : StateT (List τ) (Except ε) α) := by
  intro input b rest h
  exact (run_throw_eq_ok.mp h).elim

@[simp] theorem closed_throw_bind :
    Closed ((throw e : StateT (List τ) (Except ε) α) >>= f) :=
  Closed.bind_left Closed.throw

@[simp] theorem Closed.ite [Decidable c]
    (hp : Closed p) (hq : Closed q) : Closed (if c then p else q) := by
  split
  · exact hp
  · exact hq

theorem Closed.more_eq_nil (hp : Closed p) {more : List τ} {a' : α}
    (h : p.run' input = .ok a) (h' : p.run' (input ++ more) = .ok a') : more = [] := by
  obtain ⟨_, h⟩ := run'_eq_ok.mp h
  obtain ⟨_, h'⟩ := run'_eq_ok.mp h'
  exact hp h h'

/-! ### Repetition -/

theorem run_mapM_eq_ok {write : α → List τ} (hp : Reads p write good)
    {ι : Type} {is : List ι} {as : List α} :
    (is.mapM fun _ => p).run input = .ok (as, rest) ↔
      as.length = is.length ∧ (∀ a ∈ as, good a) ∧ input = as.flatMap write ++ rest := by
  induction is generalizing input rest as with
  | nil =>
    rw [List.mapM_nil, run_pure_eq_ok, List.length_nil, List.length_eq_zero_iff]
    constructor
    · rintro ⟨rfl, rfl⟩
      simp
    · rintro ⟨rfl, -, h⟩
      exact ⟨rfl, by simpa using h⟩
  | cons i is ih =>
    simp only [List.mapM_cons, run_bind_eq_ok, run_pure_eq_ok, ih, hp.run_eq_ok]
    constructor
    · rintro ⟨a, _, ⟨hgood, rfl⟩, as', _, ⟨hlen, hall, rfl⟩, rfl, rfl⟩
      exact ⟨by simp [hlen], by simpa using ⟨hgood, hall⟩, by simp⟩
    · rintro ⟨hlen, hall, rfl⟩
      rcases as with - | ⟨a, as'⟩
      · simp at hlen
      obtain ⟨hgood, hall'⟩ := List.forall_mem_cons.mp hall
      exact ⟨a, as'.flatMap write ++ rest, ⟨hgood, by simp⟩, as', rest,
        ⟨by simpa using hlen, hall', rfl⟩, rfl, rfl⟩

@[simp] theorem Framed.mapM {ι : Type} (hp : Framed p) (is : List ι) : Framed (is.mapM fun _ => p) := by
  induction is with
  | nil => exact Framed.pure
  | cons i is ih =>
    rw [List.mapM_cons]
    exact hp.bind fun _ => ih.bind fun _ => Framed.pure

end Parse

/-
MahoRD/Lib/Panics.lean

Computations that may panic.  An index past the end of a buffer, a division by zero or an
arithmetic overflow ends the program; so does an error of its own, but that one is a result.
`Safe x` says that `x` ends in no panic.

A loop that pushes one result for each element is a `mapM`: when every round returns, so does
the loop, with as many results (`mapM_of_forall`).
-/
import Mathlib.Data.List.Forall2

namespace Panics

variable {ε α β : Type}

inductive Panic
  | outOfBounds
  | divideByZero
  | overflow
  deriving DecidableEq

/-- How a computation ends that returns nothing. -/
inductive Halt (ε : Type)
  | panic (why : Panic)
  | error (e : ε)
  deriving DecidableEq

/-- No panic ends `x`. -/
def Safe (x : Except (Halt ε) α) : Prop := ∀ why, x ≠ .error (.panic why)

theorem Safe.ok (a : α) : Safe (.ok a : Except (Halt ε) α) := nofun

theorem Safe.error (e : ε) : Safe (.error (.error e) : Except (Halt ε) α) := nofun

@[simp] theorem ok_bind (a : α) (f : α → Except ε β) : (Except.ok a >>= f) = f a := rfl

@[simp] theorem error_bind (e : ε) (f : α → Except ε β) : (Except.error e >>= f) = .error e := rfl

/-! ### Buffers -/

/-- `xs[i]` -/
def index (xs : List α) (i : ℕ) : Except (Halt ε) α :=
  match xs[i]? with
  | some a => .ok a
  | none => .error (.panic .outOfBounds)

/-- `xs[start..stop]` -/
def slice (xs : List α) (start stop : ℕ) : Except (Halt ε) (List α) :=
  if start ≤ stop ∧ stop ≤ xs.length then .ok ((xs.drop start).take (stop - start))
  else .error (.panic .outOfBounds)

@[simp] theorem index_zero (a : α) (xs : List α) :
    index (a :: xs) 0 = (.ok a : Except (Halt ε) α) := rfl

@[simp] theorem index_succ (a : α) (xs : List α) (i : ℕ) :
    index (a :: xs) (i + 1) = (index xs i : Except (Halt ε) α) := by
  simp only [index, List.getElem?_cons_succ]

variable {xs : List α} {n : ℕ}

theorem index_of_lt {i : ℕ} (h : i < xs.length) :
    index xs i = (.ok xs[i] : Except (Halt ε) α) := by
  simp [index, h]

theorem slice_of_le {start stop : ℕ} (h : start ≤ stop) (hstop : stop ≤ xs.length) :
    slice xs start stop = (.ok ((xs.drop start).take (stop - start)) :
      Except (Halt ε) (List α)) := by
  simp [slice, h, hstop]

theorem slice_append (before middle after : List α) :
    slice (before ++ (middle ++ after)) before.length (before.length + middle.length)
      = (.ok middle : Except (Halt ε) (List α)) := by
  rw [slice_of_le (by simp) (by simp)]
  simp

theorem index_append (before after : List α) (a : α) (i : ℕ) (hi : after[i]? = some a) :
    index (before ++ after) (before.length + i) = (.ok a : Except (Halt ε) α) := by
  rw [index, List.getElem?_append_right (Nat.le_add_right ..), Nat.add_sub_cancel_left, hi]

/-! ### Arithmetic -/

/-- `a / b` -/
def divide (a b : ℕ) : Except (Halt ε) ℕ :=
  if b = 0 then .error (.panic .divideByZero) else .ok (a / b)

theorem divide_of_pos {a b : ℕ} (h : 0 < b) : divide a b = (.ok (a / b) : Except (Halt ε) ℕ) := by
  rw [divide, if_neg (Nat.pos_iff_ne_zero.mp h)]

/-- What a machine word of at most `limit` holds. -/
def fits (limit n : ℕ) : Except (Halt ε) ℕ :=
  if n ≤ limit then .ok n else .error (.panic .overflow)

theorem fits_of_le {limit : ℕ} (h : n ≤ limit) : fits limit n = (.ok n : Except (Halt ε) ℕ) :=
  if_pos h

/-- `checked_mul` -/
def checkedMul (limit a b : ℕ) : Option ℕ := if a * b ≤ limit then some (a * b) else none

theorem checkedMul_eq_some {limit a b : ℕ} :
    checkedMul limit a b = some n ↔ a * b ≤ limit ∧ a * b = n := by
  rw [checkedMul]
  split <;> simp [*]

/-! ### Memory -/

/-- The allocator has refused a request, which ends the program. -/
inductive Refused
  | refused

/-- `Vec::with_capacity`: which requests are granted is the allocator's affair. -/
def withCapacity (allocates : ℕ → Bool) (bytes : ℕ) : Except (Halt Refused) PUnit :=
  if allocates bytes then .ok ⟨⟩ else .error (.error .refused)

/-! ### Loops -/

/-- **Every round returns**, so the loop does, with one result for each. -/
theorem mapM_of_forall {γ : Type} {f : α → Except γ β} {P : α → β → Prop}
    (h : ∀ a ∈ xs, ∃ b, f a = .ok b ∧ P a b) :
    ∃ bs, xs.mapM f = .ok bs ∧ List.Forall₂ P xs bs := by
  induction xs with
  | nil => exact ⟨[], rfl, .nil⟩
  | cons a xs ih =>
    obtain ⟨b, hb, hP⟩ := h a List.mem_cons_self
    obtain ⟨bs, hbs, hPs⟩ := ih fun x hx => h x (List.mem_cons_of_mem a hx)
    refine ⟨b :: bs, ?_, .cons hP hPs⟩
    rw [List.mapM_cons, hb, hbs]
    rfl

theorem mapM_range {γ : Type} {f : ℕ → Except γ β} {P : ℕ → β → Prop}
    (h : ∀ i < n, ∃ b, f i = .ok b ∧ P i b) :
    ∃ bs, (List.range n).mapM f = .ok bs ∧ bs.length = n ∧ ∀ i b, bs[i]? = some b → P i b := by
  obtain ⟨bs, hbs, hP⟩ := mapM_of_forall fun i (hi : i ∈ List.range n) =>
    h i (List.mem_range.mp hi)
  refine ⟨bs, hbs, by rw [← hP.length_eq, List.length_range], fun i b hi => ?_⟩
  obtain ⟨hlt, rfl⟩ := List.getElem?_eq_some_iff.mp hi
  have hrange : i < (List.range n).length := hP.length_eq ▸ hlt
  have := hP.get hrange hlt
  rwa [List.get_eq_getElem, List.get_eq_getElem, List.getElem_range] at this

end Panics

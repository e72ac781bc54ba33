/-
MahoRD/Net/BootstrapLockout.lean

The lockout of the bootstrap path (`BootstrapLockout` in `maho-net/src/tls_psk.rs`).

Failures are counted in windows of `pairingAttemptWindow`, each anchored at the first failure
after the one before it ran out.  A call of `record_failure` that fills a window closes the path
until the next `begin_pairing`; `lockedUntil` never decides.  Since a window does not move, a
span of the same length can hold more than `maxPairingAttempts` failures while the path is open.
-/
import MahoRD.Lib.AnchoredWindow

namespace MahoRD

open AnchoredWindow

def maxPairingAttempts : ℕ := 5

/-- In seconds, as every instant here. -/
def pairingAttemptWindow : ℕ := 60

def pairingLockout : ℕ := 300

structure BootstrapLockout where
  pairingActive : Bool
  failureCount : ℕ
  failureWindowStart : Option ℕ
  lockedUntil : Option ℕ

namespace BootstrapLockout

/-- `default` -/
def init : BootstrapLockout := ⟨false, 0, none, none⟩

def beginPairing (l : BootstrapLockout) : BootstrapLockout :=
  { l with pairingActive := true, failureCount := 0, failureWindowStart := none, lockedUntil := none }

def cancelPairing (l : BootstrapLockout) : BootstrapLockout := { l with pairingActive := false }

def isAllowed (l : BootstrapLockout) (now : ℕ) : Bool :=
  l.pairingActive && l.lockedUntil.all (· ≤ now)

/-- Records a failure; the answer is whether it locks the path. -/
def recordFailure (l : BootstrapLockout) (now : ℕ) : Bool × BootstrapLockout :=
  let l := if l.failureWindowStart.all (pairingAttemptWindow < now - ·) then
    { l with failureCount := 0, failureWindowStart := some now } else l
  let l := { l with failureCount := l.failureCount + 1 }
  if maxPairingAttempts ≤ l.failureCount then
    (true, { l with lockedUntil := some (now + pairingLockout), pairingActive := false })
  else (false, l)

/-! ### Calls -/

inductive Call
  | beginPairing
  | cancelPairing
  | recordFailure (now : ℕ)
  | isAllowed (now : ℕ)

/-- The instant a call reads off the clock. -/
def Call.instant : Call → Option ℕ
  | .beginPairing | .cancelPairing => none
  | .recordFailure now | .isAllowed now => some now

def call (l : BootstrapLockout) : Call → BootstrapLockout
  | .beginPairing => l.beginPairing
  | .cancelPairing => l.cancelPairing
  | .recordFailure now => (l.recordFailure now).2
  | .isAllowed _ => l

def calls (cs : List Call) : BootstrapLockout := cs.foldl call init

/-- The instants of the calls do not decrease. -/
def Clocked (cs : List Call) : Prop := Ordered (cs.filterMap Call.instant)

/-- Pairing was begun and not cancelled since. -/
def active (cs : List Call) : Bool :=
  cs.foldl (fun active c => match c with
    | .beginPairing => true
    | .cancelPairing => false
    | _ => active) false

/-- The failures since the last `begin_pairing`. -/
def failures (cs : List Call) : List ℕ :=
  cs.foldl (fun failures c => match c with
    | .beginPairing => []
    | .recordFailure now => failures ++ [now]
    | _ => failures) []

/-- A window since the last `begin_pairing` is full. -/
abbrev Full (cs : List Call) : Prop :=
  Reached pairingAttemptWindow maxPairingAttempts (failures cs)

@[simp] theorem calls_concat (cs : List Call) (c : Call) : calls (cs ++ [c]) = (calls cs).call c := by
  simp [calls]

theorem failures_concat (cs : List Call) (c : Call) : failures (cs ++ [c]) = match c with
    | .beginPairing => []
    | .recordFailure now => failures cs ++ [now]
    | _ => failures cs := by
  simp only [failures, List.foldl_append, List.foldl_cons, List.foldl_nil]

theorem active_concat (cs : List Call) (c : Call) : active (cs ++ [c]) = match c with
    | .beginPairing => true
    | .cancelPairing => false
    | _ => active cs := by
  simp only [active, List.foldl_append, List.foldl_cons, List.foldl_nil]

/-! ### The counter of a window -/

/-- What is counted. -/
def counter (l : BootstrapLockout) : Counter := ⟨l.failureWindowStart, l.failureCount⟩

theorem recordFailure_eq (l : BootstrapLockout) (now : ℕ) :
    (l.recordFailure now).2 =
      let c := (counter l).record pairingAttemptWindow now
      if maxPairingAttempts ≤ c.count then ⟨false, c.count, c.start, some (now + pairingLockout)⟩
      else ⟨l.pairingActive, c.count, c.start, l.lockedUntil⟩ := by
  by_cases hout : l.failureWindowStart.all (pairingAttemptWindow < now - ·) = true
  · simp only [recordFailure, Counter.record, counter, hout, if_true]
    split <;> rfl
  · simp only [recordFailure, Counter.record, counter, hout, Bool.false_eq_true, if_false]
    split <;> rfl

/-! ### Over all calls -/

/-- `counts`: the counter has counted the last window.  `opens`: the path is open as long as
pairing is active and no window is full.  `free`: an open path has no lock. -/
structure Inv (cs : List Call) : Prop where
  counts : Tracks pairingAttemptWindow (failures cs) (counter (calls cs))
  opens : (calls cs).pairingActive = true ↔ active cs = true ∧ ¬ Full cs
  free : (calls cs).pairingActive = true → (calls cs).lockedUntil = none

variable {cs : List Call}

theorem Clocked.of_concat {c : Call} (h : Clocked (cs ++ [c])) : Clocked cs := by
  rw [Clocked, List.filterMap_append] at h
  exact (List.pairwise_append.mp h).1

theorem failures_sublist (cs : List Call) : (failures cs).Sublist (cs.filterMap Call.instant) := by
  induction cs using List.reverseRecOn with
  | nil => exact .slnil
  | append_singleton cs c ih =>
    rw [failures_concat, List.filterMap_append]
    cases c with
    | beginPairing => exact List.nil_sublist _
    | cancelPairing => exact ih.trans (List.sublist_append_left ..)
    | recordFailure now => exact ih.append (List.Sublist.refl [now])
    | isAllowed now => exact ih.trans (List.sublist_append_left ..)

theorem Clocked.ordered (h : Clocked cs) : Ordered (failures cs) :=
  h.sublist (failures_sublist cs)

theorem not_full_nil : ¬ Reached pairingAttemptWindow maxPairingAttempts [] := by
  rintro ⟨s, -, h⟩
  rw [within, List.countP_nil] at h
  exact absurd h (by decide)

theorem Inv.recordFailure (h : Inv cs) (now : ℕ)
    (hclock : Clocked (cs ++ [.recordFailure now])) : Inv (cs ++ [.recordFailure now]) := by
  have hfailures := failures_concat cs (.recordFailure now)
  have hactive := active_concat cs (.recordFailure now)
  have hord := hclock.ordered
  simp only [hfailures] at hord
  obtain ⟨hcounts, hfull⟩ := h.counts.record maxPairingAttempts hord
  have heq : calls (cs ++ [.recordFailure now]) = ((calls cs).recordFailure now).2 := calls_concat ..
  rw [recordFailure_eq] at heq
  by_cases hlimit : maxPairingAttempts
      ≤ ((counter (calls cs)).record pairingAttemptWindow now).count
  · -- the window is full
    simp only [hlimit, if_true, or_true, iff_true] at heq hfull
    refine ⟨?_, ?_, ?_⟩
    · rw [heq, hfailures]
      exact hcounts
    · rw [heq, Full, hfailures]
      exact ⟨nofun, fun hopen => absurd hfull hopen.2⟩
    · rw [heq]
      exact nofun
  · simp only [hlimit, if_false, or_false] at heq hfull
    refine ⟨?_, ?_, ?_⟩
    · rw [heq, hfailures]
      exact hcounts
    · rw [heq, Full, hfailures, hactive, hfull]
      exact h.opens
    · rw [heq]
      exact h.free

theorem Inv.beginPairing (cs : List Call) : Inv (cs ++ [.beginPairing]) := by
  have hfailures := failures_concat cs .beginPairing
  have hactive := active_concat cs .beginPairing
  have heq : calls (cs ++ [.beginPairing]) = (calls cs).beginPairing := calls_concat ..
  refine ⟨?_, ?_, ?_⟩
  · rw [heq, hfailures]
    exact .inl ⟨rfl, rfl⟩
  · rw [heq, Full, hfailures, hactive]
    exact ⟨fun _ => ⟨rfl, not_full_nil⟩, fun _ => rfl⟩
  · rw [heq]
    exact fun _ => rfl

theorem Inv.cancelPairing (h : Inv cs) : Inv (cs ++ [.cancelPairing]) := by
  have hfailures := failures_concat cs .cancelPairing
  have hactive := active_concat cs .cancelPairing
  have heq : calls (cs ++ [.cancelPairing]) = (calls cs).cancelPairing := calls_concat ..
  refine ⟨?_, ?_, ?_⟩
  · rw [heq, hfailures]
    exact h.counts
  · rw [heq, hactive]
    exact ⟨nofun, fun hopen => absurd hopen.1 nofun⟩
  · rw [heq]
    exact nofun

theorem Inv.isAllowed (h : Inv cs) (now : ℕ) : Inv (cs ++ [.isAllowed now]) := by
  have heq : calls (cs ++ [.isAllowed now]) = calls cs := calls_concat ..
  refine ⟨?_, ?_, ?_⟩
  · rw [heq, failures_concat]
    exact h.counts
  · rw [heq, Full, failures_concat, active_concat]
    exact h.opens
  · rw [heq]
    exact h.free

theorem inv_calls (hclock : Clocked cs) : Inv cs := by
  induction cs using List.reverseRecOn with
  | nil => exact ⟨tracks_zero, by simp [calls, init, active], nofun⟩
  | append_singleton cs c ih =>
    have h := ih hclock.of_concat
    cases c with
    | beginPairing => exact .beginPairing cs
    | cancelPairing => exact h.cancelPairing
    | recordFailure now => exact h.recordFailure now hclock
    | isAllowed now => exact h.isAllowed now

theorem isAllowed_iff (h : Inv cs) (now : ℕ) :
    (calls cs).isAllowed now = true ↔ active cs = true ∧ ¬ Full cs := by
  rw [BootstrapLockout.isAllowed, Bool.and_eq_true, ← h.opens]
  exact ⟨And.left, fun hopen => ⟨hopen, by rw [h.free hopen]; rfl⟩⟩

theorem failures_append (cs : List Call) {more : List Call} (h : .beginPairing ∉ more) :
    ∃ later, failures (cs ++ more) = failures cs ++ later := by
  induction more using List.reverseRecOn with
  | nil => exact ⟨[], by simp⟩
  | append_singleton more c ih =>
    obtain ⟨later, hlater⟩ := ih fun hmem => h (List.mem_append_left _ hmem)
    rw [← List.append_assoc, failures_concat]
    cases c with
    | beginPairing => exact absurd (by simp) h
    | cancelPairing => exact ⟨later, hlater⟩
    | recordFailure now => exact ⟨later ++ [now], by rw [hlater]; exact List.append_assoc ..⟩
    | isAllowed now => exact ⟨later, hlater⟩

/-- **The bootstrap lockout**, at any point of any calls whose instants do not decrease: attempts
are allowed exactly while pairing is active and no window since the last `begin_pairing` is full;
once one is, they are refused until the next `begin_pairing`; that happens only when the failures
of some span reach the maximum, and until then no span holds more than `2 * 5 - 3` of them. -/
theorem bootstrap_lockout (cs : List Call) (hclock : Clocked cs) (now : ℕ) :
    ((calls cs).isAllowed now = true ↔ active cs = true ∧ ¬ Full cs) ∧
    (Full cs → ∀ more, .beginPairing ∉ more → Clocked (cs ++ more) →
      ∀ later, (calls (cs ++ more)).isAllowed later = false) ∧
    (Full cs → ∃ a, maxPairingAttempts ≤ within pairingAttemptWindow a (failures cs)) ∧
    (¬ Full cs → ∀ a, within pairingAttemptWindow a (failures cs) ≤ 2 * maxPairingAttempts - 3) := by
  refine ⟨isAllowed_iff (inv_calls hclock) now, ?_, ?_, ?_⟩
  · intro hfull more hmore hclock' later
    obtain ⟨added, hadded⟩ := failures_append cs hmore
    have hstill : Full (cs ++ more) := by
      rw [Full, hadded]
      exact hfull.append added
    refine Bool.eq_false_iff.mpr fun hallowed => ?_
    exact ((isAllowed_iff (inv_calls hclock') later).mp hallowed).2 hstill
  · rintro ⟨a, -, ha⟩
    exact ⟨a, ha⟩
  · exact fun hopen a => count_le hclock.ordered (by decide) hopen a

/-- Two failures of one minute. -/
theorem bootstrap_lockout_two :
    (calls [.beginPairing, .recordFailure 3, .recordFailure 63]).isAllowed 63 = true ↔
      active [.beginPairing, .recordFailure 3, .recordFailure 63] = true ∧
        ¬ Full [.beginPairing, .recordFailure 3, .recordFailure 63] :=
  (bootstrap_lockout [.beginPairing, .recordFailure 3, .recordFailure 63]
    (by rw [Clocked]; decide) 63).1

/-- Failures that straddle the end of a window: seven within eight seconds, and the path is
open. -/
theorem lockout_straddled :
    let cs : List Call := [.beginPairing, .recordFailure 0, .recordFailure 57, .recordFailure 58,
      .recordFailure 59, .recordFailure 61, .recordFailure 62, .recordFailure 63, .recordFailure 64]
    Clocked cs ∧ maxPairingAttempts < within pairingAttemptWindow 57 (failures cs) ∧
      (calls cs).isAllowed 64 = true := by
  refine ⟨by rw [Clocked]; decide, by decide, by decide⟩

end BootstrapLockout

end MahoRD

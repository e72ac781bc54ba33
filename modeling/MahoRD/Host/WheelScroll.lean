/-
MahoRD/Host/WheelScroll.lean

The wheel of a Linux host (`maho-host/src/inject_linux.rs`).  Pixels become high-resolution
units, 1.2 a pixel, and 120 units are a notch.  What is left over of a unit and of a notch is
carried to the next event, so nothing that is scrolled is lost.

An `f64` is the rational that it stands for: the arithmetic is exact.
-/
import MahoRD.Proto.Keys
import Mathlib.Algebra.Group.Prod
import Mathlib.Data.Rat.Floor

namespace MahoRD.Host.Wheel

/-- The number that the bits of a finite `f32` stand for. -/
def value (bits : UInt32) : ℚ :=
  let fraction : ℕ := bits.toNat % 2 ^ 23
  let exponent : ℕ := bits.toNat / 2 ^ 23 % 2 ^ 8
  let magnitude : ℚ :=
    if exponent = 0 then fraction / 2 ^ 149
    else (2 ^ 23 + fraction : ℕ) * 2 ^ exponent / 2 ^ 150
  if bits.toNat / 2 ^ 31 = 1 then -magnitude else magnitude

/-- `trunc`. -/
def trunc (q : ℚ) : ℤ := if 0 ≤ q then ⌊q⌋ else ⌈q⌉

/-- The sum of two `i32`s, if it is one. -/
def addI32 (a b : ℤ) : Option ℤ :=
  if -2 ^ 31 ≤ a + b ∧ a + b < 2 ^ 31 then some (a + b) else none

structure WheelAccumulator where
  fractionalUnits : ℚ
  notchUnits : ℤ

namespace WheelAccumulator

def default : WheelAccumulator := ⟨0, 0⟩

/-- The high-resolution units of the pixels and the notches, unless the addition overflows. -/
def convert (w : WheelAccumulator) (pixels : ℚ) : Option (WheelAccumulator × ℤ × ℤ) := do
  let units := max (-32767) (min (pixels * 1.2 + w.fractionalUnits) 32767)
  let highRes := trunc units
  let notchUnits ← addI32 w.notchUnits highRes
  return (⟨units - highRes, notchUnits.tmod 120⟩, highRes, notchUnits.tdiv 120)

end WheelAccumulator

inductive RelativeAxisCode
  | relWheel
  | relWheelHiRes
  | relHwheel
  | relHwheelHiRes
  deriving DecidableEq

/-- An event that says nothing is not emitted. -/
def event (code : RelativeAxisCode) (value : ℤ) : List (RelativeAxisCode × ℤ) :=
  if value ≠ 0 then [(code, value)] else []

/-- The part of the injector that scrolls. -/
structure LinuxInputInjector where
  verticalWheel : WheelAccumulator
  horizontalWheel : WheelAccumulator

namespace LinuxInputInjector

def new : LinuxInputInjector := ⟨.default, .default⟩

/-- The events for the wheel. -/
def inject (s : LinuxInputInjector) (e : InputEvent) :
    Option (LinuxInputInjector × List (RelativeAxisCode × ℤ)) :=
  if !e.isFinite then some (s, [])
  else
    match e.eventType with
    | .reset => some (new, [])
    | .scrollWheel => do
      let (verticalWheel, vertical, verticalNotches) ←
        s.verticalWheel.convert (-value e.scrollDy)
      let (horizontalWheel, horizontal, horizontalNotches) ←
        s.horizontalWheel.convert (value e.scrollDx)
      return (⟨verticalWheel, horizontalWheel⟩,
        event .relWheel verticalNotches ++ event .relWheelHiRes vertical ++
          event .relHwheel horizontalNotches ++ event .relHwheelHiRes horizontal)
    | _ => some (s, [])

/-- One event after others. -/
def step (s : LinuxInputInjector × List (RelativeAxisCode × ℤ)) (e : InputEvent) :
    Option (LinuxInputInjector × List (RelativeAxisCode × ℤ)) :=
  (s.1.inject e).map fun (s', emitted) => (s', s.2 ++ emitted)

/-- The injector after these events, and what it has emitted. -/
def run (es : List InputEvent) : Option (LinuxInputInjector × List (RelativeAxisCode × ℤ)) :=
  es.foldlM step (new, [])

end LinuxInputInjector

open LinuxInputInjector

/-! ### What is scrolled and what is emitted -/

/-- The pixels up or down, as the wheel counts them, and the pixels across. -/
def pixels (e : InputEvent) : ℚ × ℚ :=
  if e.isFinite ∧ e.eventType = .scrollWheel then (-value e.scrollDy, value e.scrollDx) else 0

def received (es : List InputEvent) : ℚ × ℚ := (es.map pixels).sum

/-- What the events of an axis add up to. -/
def total (code : RelativeAxisCode) (log : List (RelativeAxisCode × ℤ)) : ℤ :=
  ((log.filter fun emitted => emitted.1 = code).map Prod.snd).sum

/-- The units that an event makes of its pixels and of what is left over. -/
def rawUnits (s : LinuxInputInjector) (e : InputEvent) : ℚ × ℚ :=
  ((pixels e).1 * 1.2 + s.verticalWheel.fractionalUnits,
    (pixels e).2 * 1.2 + s.horizontalWheel.fractionalUnits)

/-- No event of the run is clamped. -/
def Unclamped (es : List InputEvent) : Prop :=
  ∀ before e, before ++ [e] <+: es → ∀ s ∈ run before,
    |(rawUnits s.1 e).1| ≤ 32767 ∧ |(rawUnits s.1 e).2| ≤ 32767

/-- What is emitted for so many pixels, and what is left over. -/
structure Conserves (w : WheelAccumulator) (pixels : ℚ) (units notches : ℤ) : Prop where
  units_eq : units + w.fractionalUnits = 1.2 * pixels
  notches_eq : 120 * notches + w.notchUnits = units
  abs_fractionalUnits_lt : |w.fractionalUnits| < 1
  abs_notchUnits_lt : |w.notchUnits| < 120

@[simp] theorem total_append (code : RelativeAxisCode)
    (log log' : List (RelativeAxisCode × ℤ)) :
    total code (log ++ log') = total code log + total code log' := by
  simp [total]

@[simp] theorem total_event (code code' : RelativeAxisCode) (value : ℤ) :
    total code (event code' value) = if code' = code then value else 0 := by
  by_cases hvalue : value = 0
  · simp [total, event, hvalue]
  · by_cases hcode : code' = code <;> simp [total, event, hvalue, hcode]

theorem abs_sub_trunc_lt (q : ℚ) : |q - trunc q| < 1 := by
  rw [trunc, abs_lt]
  split
  · constructor <;> linarith [Int.floor_le q, Int.lt_floor_add_one q]
  · constructor <;> linarith [Int.le_ceil q, Int.ceil_lt_add_one q]

theorem abs_trunc_le {q : ℚ} {n : ℤ} (h : |q| ≤ n) : |trunc q| ≤ n := by
  obtain ⟨hlow, hhigh⟩ := abs_le.mp h
  rw [trunc, abs_le]
  split
  next hpos =>
    have hfloor : 0 ≤ ⌊q⌋ := Int.floor_nonneg.mpr hpos
    have hle : ⌊q⌋ ≤ n := by exact_mod_cast (Int.floor_le q).trans hhigh
    omega
  next hneg =>
    have hceil : ⌈q⌉ ≤ 0 := Int.ceil_le.mpr (by exact_mod_cast (not_le.mp hneg).le)
    have hle : -n ≤ ⌈q⌉ := by exact_mod_cast hlow.trans (Int.le_ceil q)
    omega

theorem Conserves.convert {w : WheelAccumulator} {scrolled x : ℚ} {units notches : ℤ}
    (h : Conserves w scrolled units notches) (hx : |x * 1.2 + w.fractionalUnits| ≤ 32767) :
    ∃ w' highRes more, w.convert x = some (w', highRes, more) ∧
      Conserves w' (scrolled + x) (units + highRes) (notches + more) := by
  obtain ⟨hlow, hhigh⟩ := abs_le.mp hx
  have hclamp : max (-32767) (min (x * 1.2 + w.fractionalUnits) 32767) =
      x * 1.2 + w.fractionalUnits := by
    rw [min_eq_left hhigh, max_eq_right hlow]
  have htrunc : |trunc (x * 1.2 + w.fractionalUnits)| ≤ 32767 :=
    abs_trunc_le (by exact_mod_cast hx)
  have hnotch := h.abs_notchUnits_lt
  have hfits : -2 ^ 31 ≤ w.notchUnits + trunc (x * 1.2 + w.fractionalUnits) ∧
      w.notchUnits + trunc (x * 1.2 + w.fractionalUnits) < 2 ^ 31 := by
    rw [abs_le] at htrunc
    rw [abs_lt] at hnotch
    omega
  refine ⟨_, _, _, by
    simp only [WheelAccumulator.convert, hclamp, addI32, if_pos hfits]
    rfl, ?_⟩
  constructor
  · have hunits := h.units_eq
    push_cast
    linarith
  · have hdiv := Int.tdiv_mul_add_tmod
      (w.notchUnits + trunc (x * 1.2 + w.fractionalUnits)) 120
    have hnotches := h.notches_eq
    show 120 * (notches + _) + _ = _
    linarith
  · exact abs_sub_trunc_lt _
  · rw [abs_lt]
    exact ⟨Int.lt_tmod_of_pos _ (by norm_num), Int.tmod_lt_of_pos _ (by norm_num)⟩

/-! ### Runs -/

/-- The injector and its log after these events. -/
structure Ledger (es : List InputEvent)
    (s : LinuxInputInjector × List (RelativeAxisCode × ℤ)) : Prop where
  vertical : Conserves s.1.verticalWheel (received es).1 (total .relWheelHiRes s.2)
    (total .relWheel s.2)
  horizontal : Conserves s.1.horizontalWheel (received es).2 (total .relHwheelHiRes s.2)
    (total .relHwheel s.2)

theorem ledger_nil : Ledger [] (new, []) := by
  have hnone : Conserves .default 0 0 0 :=
    ⟨by simp [WheelAccumulator.default], rfl, by simp [WheelAccumulator.default], by decide⟩
  exact ⟨hnone, hnone⟩

theorem received_concat (es : List InputEvent) (e : InputEvent) :
    received (es ++ [e]) = received es + pixels e := by
  simp [received]

theorem Ledger.step {es : List InputEvent}
    {s : LinuxInputInjector × List (RelativeAxisCode × ℤ)} {e : InputEvent}
    (h : Ledger es s) (hreset : e.eventType ≠ .reset)
    (hfits : |(rawUnits s.1 e).1| ≤ 32767 ∧ |(rawUnits s.1 e).2| ≤ 32767) :
    ∃ s', LinuxInputInjector.step s e = some s' ∧ Ledger (es ++ [e]) s' := by
  by_cases hscroll : e.isFinite ∧ e.eventType = .scrollWheel
  · have hpixels : pixels e = (-value e.scrollDy, value e.scrollDx) := if_pos hscroll
    rw [rawUnits, hpixels] at hfits
    obtain ⟨verticalWheel, vertical, verticalNotches, hv, hvertical⟩ :=
      h.vertical.convert hfits.1
    obtain ⟨horizontalWheel, horizontal, horizontalNotches, hh, hhorizontal⟩ :=
      h.horizontal.convert hfits.2
    refine ⟨_, by
      simp only [LinuxInputInjector.step, inject, hscroll.1, hscroll.2, hv, hh]
      rfl, ?_⟩
    constructor
    · simpa [received_concat, hpixels] using hvertical
    · simpa [received_concat, hpixels] using hhorizontal
  · -- Any other event leaves the wheels alone.
    have hpixels : pixels e = 0 := if_neg hscroll
    have hinject : s.1.inject e = some (s.1, []) := by
      rw [inject]
      split
      · rfl
      next hfinite =>
        have hfinite : e.isFinite = true := by simpa using hfinite
        split
        · contradiction
        next hwheel => exact (hscroll ⟨hfinite, hwheel⟩).elim
        · rfl
    refine ⟨s, by simp [LinuxInputInjector.step, hinject], ?_⟩
    constructor
    · simpa [received_concat, hpixels] using h.vertical
    · simpa [received_concat, hpixels] using h.horizontal

theorem exists_ledger {es : List InputEvent} (hreset : ∀ e ∈ es, e.eventType ≠ .reset)
    (hclamp : Unclamped es) : ∃ s, run es = some s ∧ Ledger es s := by
  induction es using List.reverseRecOn with
  | nil => exact ⟨_, rfl, ledger_nil⟩
  | append_singleton es e ih =>
    obtain ⟨s, hs, hledger⟩ := ih (fun e' he' => hreset e' (List.mem_append_left _ he'))
      fun before e' hprefix => hclamp before e' ( hprefix.trans (List.prefix_append _ _))
    obtain ⟨s', hs', hledger'⟩ := hledger.step (hreset e List.mem_concat_self)
      (hclamp es e (List.prefix_refl _) s hs)
    exact ⟨s', by simp [run, List.foldlM_append, show es.foldlM step (new, []) = some s from hs,
      hs'], hledger'⟩

/-- **Nothing that is scrolled is lost**, in any sequence of events since a reset of which none is
clamped: no addition overflows, on either axis the units fall short of 1.2 a pixel by less than
one unit, and the notches fall short of the units by less than one notch. -/
theorem scroll_conserved (es : List InputEvent) (hreset : ∀ e ∈ es, e.eventType ≠ .reset)
    (hclamp : Unclamped es) :
    ∃ s log, run es = some (s, log) ∧
      |total .relWheelHiRes log - 1.2 * (received es).1| < 1 ∧
      |120 * total .relWheel log - total .relWheelHiRes log| < 120 ∧
      |total .relHwheelHiRes log - 1.2 * (received es).2| < 1 ∧
      |120 * total .relHwheel log - total .relHwheelHiRes log| < 120 := by
  obtain ⟨⟨s, log⟩, hs, hledger⟩ := exists_ledger hreset hclamp
  have hbounds {w : WheelAccumulator} {x : ℚ} {units notches : ℤ}
      (h : Conserves w x units notches) :
      |units - 1.2 * x| < 1 ∧ |120 * notches - units| < 120 := by
    constructor
    · rw [← h.units_eq, sub_add_cancel_left, abs_neg]
      exact h.abs_fractionalUnits_lt
    · rw [← h.notches_eq, sub_add_cancel_left, abs_neg]
      exact h.abs_notchUnits_lt
  obtain ⟨hunits, hnotches⟩ := hbounds hledger.vertical
  obtain ⟨hunits', hnotches'⟩ := hbounds hledger.horizontal
  exact ⟨s, log, hs, hunits, hnotches, hunits', hnotches'⟩

/-- 100 pixels down: a notch. -/
def pageDown : InputEvent := ⟨.scrollWheel, 0, 0, 0, .empty, 0, 0x42C80000⟩

theorem scroll_conserved_pageDown :
    ∃ s log, run [pageDown] = some (s, log) ∧
      |total .relWheelHiRes log - 1.2 * (received [pageDown]).1| < 1 ∧
      |120 * total .relWheel log - total .relWheelHiRes log| < 120 ∧
      |total .relHwheelHiRes log - 1.2 * (received [pageDown]).2| < 1 ∧
      |120 * total .relHwheel log - total .relHwheelHiRes log| < 120 := by
  refine scroll_conserved [pageDown] (by decide) fun before e hprefix s hs => ?_
  have hlength := hprefix.length_le
  obtain rfl : before = [] := by
    rw [List.length_append, List.length_singleton, List.length_singleton] at hlength
    exact List.length_eq_zero_iff.mp (by omega)
  obtain rfl : e = pageDown := by simpa using hprefix
  cases hs
  decide +kernel

end MahoRD.Host.Wheel

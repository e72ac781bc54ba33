/-
MahoRD/Ios/Touch.lean

Touches as mouse events (`TouchGestureHandler` in `maho-mobile/src/touch.rs`).  In direct mode the
first touch is the left button; in trackpad mode the moves of one touch are relative moves.

Coordinates are the bits of floats.  What is computed of them is a parameter (`Coordinates`): the
host position of a point through the viewport, which the iOS shell never changes, the difference
and the product of two coordinates, and which are finite.
-/
import MahoRD.Proto.Input

namespace MahoRD.Ios

inductive TouchPhase
  | began | moved | ended | cancelled
  deriving DecidableEq

structure TouchPoint where
  id : UInt64
  x : UInt32
  y : UInt32
  phase : TouchPhase

inductive TouchError
  | nonFiniteCoordinates (x y : UInt32)
  | invalidViewportDimensions (width height : UInt32)
  | invalidZoom (zoom : UInt32)
  deriving DecidableEq

inductive TouchMode
  | directTouch | trackpadRelative
  deriving DecidableEq

structure Coordinates where
  isFinite : UInt32 → Bool
  sub : UInt32 → UInt32 → UInt32
  mul : UInt32 → UInt32 → UInt32
  /-- `as f32` -/
  ofNat : UInt32 → UInt32
  transformToHost : UInt32 → UInt32 → Except TouchError (UInt32 × UInt32)

structure ActiveDirectTouch where
  id : UInt64
  lastEmittedNormX : UInt32
  lastEmittedNormY : UInt32
  deriving DecidableEq

def makeMouseEvent (eventType : InputEventType) (x y : UInt32) : InputEvent :=
  ⟨eventType, x, y, 0, .empty, 0, 0⟩

def makeRelativeEvent (scrollDx scrollDy : UInt32) : InputEvent :=
  ⟨.relativeMove, 0, 0, 0, .empty, scrollDx, scrollDy⟩

/-- `relativeBaseline`: the touch that moves the pointer, and where it was last. -/
structure TouchGestureHandler where
  mode : TouchMode
  primaryTouch : Option ActiveDirectTouch
  relativeBaseline : Option (UInt64 × UInt32 × UInt32)
  deriving DecidableEq

namespace TouchGestureHandler

def new (mode : TouchMode) : TouchGestureHandler := ⟨mode, none, none⟩

/-- The button is released where the touch was last. -/
def release (primary : ActiveDirectTouch) : InputEvent :=
  makeMouseEvent .leftMouseUp primary.lastEmittedNormX primary.lastEmittedNormY

def setMode (h : TouchGestureHandler) (mode : TouchMode) :
    Option InputEvent × TouchGestureHandler :=
  if h.mode = mode then (none, h)
  else
    (if h.mode = .directTouch then h.primaryTouch.map release else none, ⟨mode, none, none⟩)

/-- Whether a finger that is held is this one. -/
def holds (h : TouchGestureHandler) (id : UInt64) : Bool :=
  match h.mode with
  | .directTouch => h.primaryTouch.any (·.id = id)
  | .trackpadRelative => h.relativeBaseline.any (·.1 = id)

def cancel (h : TouchGestureHandler) (id : UInt64) : Option InputEvent × TouchGestureHandler :=
  if h.holds id then
    match h.mode with
    | .directTouch => (h.primaryTouch.map release, { h with primaryTouch := none })
    | .trackpadRelative => (none, { h with relativeBaseline := none })
  else (none, h)

def begin (c : Coordinates) (h : TouchGestureHandler) (touch : TouchPoint) :
    Except TouchError (Option InputEvent × TouchGestureHandler) :=
  match h.mode with
  | .directTouch =>
    if h.primaryTouch.isNone then do
      let (normX, normY) ← c.transformToHost touch.x touch.y
      return (some (makeMouseEvent .leftMouseDown normX normY),
        { h with primaryTouch := some ⟨touch.id, normX, normY⟩ })
    else .ok (none, h)
  | .trackpadRelative =>
    if h.relativeBaseline.isNone then
      .ok (none, { h with relativeBaseline := some (touch.id, touch.x, touch.y) })
    else .ok (none, h)

def move (c : Coordinates) (h : TouchGestureHandler) (touch : TouchPoint) :
    Except TouchError (Option InputEvent × TouchGestureHandler) :=
  match h.mode with
  | .directTouch =>
    if h.primaryTouch.any (·.id = touch.id) then do
      let (normX, normY) ← c.transformToHost touch.x touch.y
      return (some (makeMouseEvent .leftMouseDragged normX normY),
        { h with primaryTouch := some ⟨touch.id, normX, normY⟩ })
    else .ok (none, h)
  | .trackpadRelative =>
    match h.relativeBaseline with
    | some (id, x, y) =>
      if id = touch.id then
        let dx := c.sub touch.x x
        let dy := c.sub touch.y y
        if ¬ c.isFinite dx ∨ ¬ c.isFinite dy then .error (.nonFiniteCoordinates dx dy)
        else .ok (some (makeRelativeEvent dx dy),
          { h with relativeBaseline := some (touch.id, touch.x, touch.y) })
      else .ok (none, h)
    | none => .ok (none, h)

/-- A touch that ends is released even where its position has no image. -/
def finish (c : Coordinates) (h : TouchGestureHandler) (touch : TouchPoint) :
    Option InputEvent × TouchGestureHandler :=
  match h.mode with
  | .directTouch =>
    match h.primaryTouch with
    | some primary =>
      if primary.id = touch.id then
        (some (match c.transformToHost touch.x touch.y with
          | .ok (x, y) => makeMouseEvent .leftMouseUp x y
          | .error _ => release primary), { h with primaryTouch := none })
      else (none, h)
    | none => (none, h)
  | .trackpadRelative => (h.cancel touch.id)

def processTouch (c : Coordinates) (h : TouchGestureHandler) (touch : TouchPoint) :
    Except TouchError (Option InputEvent × TouchGestureHandler) :=
  match touch.phase with
  | .cancelled => .ok (h.cancel touch.id)
  | .ended => .ok (h.finish c touch)
  | .began =>
    if ¬ c.isFinite touch.x ∨ ¬ c.isFinite touch.y then
      .error (.nonFiniteCoordinates touch.x touch.y)
    else h.begin c touch
  | .moved =>
    if ¬ c.isFinite touch.x ∨ ¬ c.isFinite touch.y then
      .error (.nonFiniteCoordinates touch.x touch.y)
    else h.move c touch

/-! ### The mode and the touch that is held -/

/-- No touch is held. -/
def Free (h : TouchGestureHandler) : Prop := h.primaryTouch = none ∧ h.relativeBaseline = none

/-- Only the touch of the current mode can be held. -/
def Coherent (h : TouchGestureHandler) : Prop :=
  match h.mode with
  | .directTouch => h.relativeBaseline = none
  | .trackpadRelative => h.primaryTouch = none

@[simp] theorem setMode_mode (h : TouchGestureHandler) (mode : TouchMode) :
    (h.setMode mode).2.mode = mode := by
  rw [setMode]
  split
  · assumption
  · rfl

variable {h h' : TouchGestureHandler} {c : Coordinates}

theorem setMode_coherent (hc : h.Coherent) (mode : TouchMode) :
    (h.setMode mode).2.Coherent := by
  rw [setMode]
  split
  · exact hc
  · cases mode <;> rfl

/-- What a touch can do to a handler. -/
structure Kept (h h' : TouchGestureHandler) : Prop where
  mode : h'.mode = h.mode
  coherent : h.Coherent → h'.Coherent

theorem Kept.refl (h : TouchGestureHandler) : Kept h h := ⟨rfl, fun hc => hc⟩

theorem Kept.primary (hmode : h.mode = .directTouch)
    (primary : Option ActiveDirectTouch) : Kept h { h with primaryTouch := primary } := by
  refine ⟨rfl, fun hc => ?_⟩
  unfold Coherent at hc ⊢
  rw [hmode] at hc ⊢
  exact hc

theorem Kept.baseline (hmode : h.mode = .trackpadRelative)
    (baseline : Option (UInt64 × UInt32 × UInt32)) :
    Kept h { h with relativeBaseline := baseline } := by
  refine ⟨rfl, fun hc => ?_⟩
  unfold Coherent at hc ⊢
  rw [hmode] at hc ⊢
  exact hc

theorem cancel_kept (h : TouchGestureHandler) (id : UInt64) : Kept h (h.cancel id).2 := by
  unfold cancel
  split
  · split
    · exact Kept.primary ‹_› none
    · exact Kept.baseline ‹_› none
  · exact Kept.refl h

theorem finish_kept (c : Coordinates) (h : TouchGestureHandler) (touch : TouchPoint) :
    Kept h (h.finish c touch).2 := by
  unfold finish
  split
  next hmode =>
    split
    · split
      · exact Kept.primary hmode none
      · exact Kept.refl h
    · exact Kept.refl h
  · exact cancel_kept h touch.id

theorem begin_kept {touch : TouchPoint}
    {event : Option InputEvent} (hok : h.begin c touch = .ok (event, h')) : Kept h h' := by
  unfold begin at hok
  split at hok
  next hmode =>
    split at hok
    · rcases htransform : c.transformToHost touch.x touch.y with e | ⟨normX, normY⟩
      · rw [htransform] at hok
        cases hok
      · rw [htransform] at hok
        cases hok
        exact Kept.primary hmode _
    · cases hok
      exact Kept.refl h
  next hmode =>
    split at hok
    · cases hok
      exact Kept.baseline hmode _
    · cases hok
      exact Kept.refl h

theorem move_kept {touch : TouchPoint}
    {event : Option InputEvent} (hok : h.move c touch = .ok (event, h')) : Kept h h' := by
  unfold move at hok
  split at hok
  next hmode =>
    split at hok
    · rcases htransform : c.transformToHost touch.x touch.y with e | ⟨normX, normY⟩
      · rw [htransform] at hok
        cases hok
      · rw [htransform] at hok
        cases hok
        exact Kept.primary hmode _
    · cases hok
      exact Kept.refl h
  next hmode =>
    split at hok
    · split at hok
      · simp only at hok
        split at hok
        · cases hok
        · cases hok
          exact Kept.baseline hmode _
      · cases hok
        exact Kept.refl h
    · cases hok
      exact Kept.refl h

theorem processTouch_kept {touch : TouchPoint}
    {event : Option InputEvent} (hok : h.processTouch c touch = .ok (event, h')) : Kept h h' := by
  unfold processTouch at hok
  split at hok
  · have hkept := cancel_kept h touch.id
    rw [Except.ok.inj hok] at hkept
    exact hkept
  · have hkept := finish_kept c h touch
    rw [Except.ok.inj hok] at hkept
    exact hkept
  · split at hok
    · cases hok
    · exact begin_kept hok
  · split at hok
    · cases hok
    · exact move_kept hok

/-- The next touch is accepted, if its position has an image. -/
def Accepts (c : Coordinates) (h : TouchGestureHandler) : Prop :=
  ∀ (touch : TouchPoint) (position : UInt32 × UInt32), touch.phase = .began →
    c.isFinite touch.x = true → c.isFinite touch.y = true →
    c.transformToHost touch.x touch.y = .ok position →
    ∃ event h', h.processTouch c touch = .ok (event, h') ∧ h'.holds touch.id = true

theorem Free.accepts (hfree : h.Free) (c : Coordinates) :
    h.Accepts c := by
  intro touch position hphase hx hy hposition
  rw [processTouch, hphase]
  simp only [hx, hy, not_true_eq_false, or_self, if_false, begin]
  cases hmode : h.mode with
  | directTouch =>
    simp only [hfree.1, Option.isNone_none, if_true, hposition]
    refine ⟨_, _, rfl, ?_⟩
    simp [holds]
  | trackpadRelative =>
    simp only [hfree.2, Option.isNone_none, if_true]
    refine ⟨_, _, rfl, ?_⟩
    simp [holds]

end TouchGestureHandler

end MahoRD.Ios

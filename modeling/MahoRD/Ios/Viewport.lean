/-
MahoRD/Ios/Viewport.lean

The gesture handler with its viewport (`maho-mobile/src/touch.rs`).  The viewport is public, so it
may change between two touches in any way; the arithmetic is that of `f32`.

The events of a run are seen as what they do to the left button (`Bracketed`): it is pressed by a
touch while nobody holds it, dragged by that touch, and released exactly when that touch ends or is
cancelled, or when the mode changes.
-/
import MahoRD.Ios.Touch
import MahoRD.Lib.FloatBounds

namespace MahoRD.Ios

open Floats

structure ViewportState where
  viewWidth : Float32
  viewHeight : Float32
  zoom : Float32
  offsetX : Float32
  offsetY : Float32

/-- `f32::clamp` -/
def clamp (x low high : Float32) : Float32 :=
  let x := if x < low then low else x
  if x > high then high else x

namespace ViewportState

def setZoom (v : ViewportState) (zoom centerX centerY : Float32) :
    Except TouchError Unit × ViewportState :=
  if !zoom.isFinite || !((0.1 : Float32) ≤ zoom ∧ zoom ≤ 10.0) then
    (.error (.invalidZoom zoom.toBits), v)
  else if !centerX.isFinite || !centerY.isFinite then
    (.error (.nonFiniteCoordinates centerX.toBits centerY.toBits), v)
  else if !v.zoom.isFinite || v.zoom ≤ 0.0 then (.error (.invalidZoom v.zoom.toBits), v)
  else
    let factor := zoom / v.zoom
    let newOffsetX := centerX - factor * (centerX - v.offsetX)
    let newOffsetY := centerY - factor * (centerY - v.offsetY)
    if !newOffsetX.isFinite || !newOffsetY.isFinite then
      (.error (.nonFiniteCoordinates newOffsetX.toBits newOffsetY.toBits), v)
    else (.ok (), { v with zoom, offsetX := newOffsetX, offsetY := newOffsetY })

theorem setZoom_error (v : ViewportState) (zoom centerX centerY : Float32) (e : TouchError) :
    (v.setZoom zoom centerX centerY).1 = .error e → (v.setZoom zoom centerX centerY).2 = v := by
  rw [setZoom]
  split
  · exact fun _ => rfl
  · split
    · exact fun _ => rfl
    · split
      · exact fun _ => rfl
      · dsimp only
        split
        · exact fun _ => rfl
        · intro h
          cases h

def pan (v : ViewportState) (dx dy : Float32) : ViewportState :=
  if dx.isFinite && dy.isFinite then
    let nextX := v.offsetX + dx
    let nextY := v.offsetY + dy
    if nextX.isFinite && nextY.isFinite then { v with offsetX := nextX, offsetY := nextY } else v
  else v

def transformToHost (v : ViewportState) (x y : Float32) :
    Except TouchError (Float32 × Float32) :=
  if !x.isFinite || !y.isFinite then .error (.nonFiniteCoordinates x.toBits y.toBits)
  else if !v.viewWidth.isFinite || !v.viewHeight.isFinite || v.viewWidth ≤ 0.0 ||
      v.viewHeight ≤ 0.0 then
    .error (.invalidViewportDimensions v.viewWidth.toBits v.viewHeight.toBits)
  else if !v.zoom.isFinite || v.zoom ≤ 0.0 then .error (.invalidZoom v.zoom.toBits)
  else if !v.offsetX.isFinite || !v.offsetY.isFinite then
    .error (.nonFiniteCoordinates v.offsetX.toBits v.offsetY.toBits)
  else
    let diffX := x - v.offsetX
    let diffY := y - v.offsetY
    if !diffX.isFinite || !diffY.isFinite then
      .error (.nonFiniteCoordinates diffX.toBits diffY.toBits)
    else
      let unzoomedX := diffX / v.zoom
      let unzoomedY := diffY / v.zoom
      if !unzoomedX.isFinite || !unzoomedY.isFinite then
        .error (.nonFiniteCoordinates unzoomedX.toBits unzoomedY.toBits)
      else
        let normXRaw := unzoomedX / v.viewWidth
        let normYRaw := unzoomedY / v.viewHeight
        if !normXRaw.isFinite || !normYRaw.isFinite then
          .error (.nonFiniteCoordinates normXRaw.toBits normYRaw.toBits)
        else .ok (clamp normXRaw 0.0 1.0, clamp (1.0 - normYRaw) 0.0 1.0)

end ViewportState

/-- `set_mode` is the one of the handler alone. -/
structure ViewportHandler extends TouchGestureHandler where
  viewport : ViewportState

namespace ViewportHandler

def new (viewport : ViewportState) (mode : TouchMode) : ViewportHandler :=
  ⟨.new mode, viewport⟩

/-- The position of a touch, or why it has none. -/
def position (h : ViewportHandler) (x y : UInt32) : Except TouchError (UInt32 × UInt32) :=
  (h.viewport.transformToHost (.ofBits x) (.ofBits y)).map fun position =>
    (position.1.toBits, position.2.toBits)

/-- What the handler asks of floats. -/
def coordinates (h : ViewportHandler) : Coordinates where
  isFinite x := (Float32.ofBits x).isFinite
  sub x y := (Float32.ofBits x - Float32.ofBits y).toBits
  mul x y := (Float32.ofBits x * Float32.ofBits y).toBits
  ofNat n := n.toFloat32.toBits
  transformToHost := h.position

/-! ### A touch, with the handler as it is after an error, too -/

def begin (h : ViewportHandler) (touch : TouchPoint) :
    Except TouchError (Option InputEvent) × ViewportHandler :=
  match h.mode with
  | .directTouch =>
    if h.primaryTouch.isNone then
      match h.position touch.x touch.y with
      | .error e => (.error e, h)
      | .ok (normX, normY) =>
        (.ok (some (makeMouseEvent .leftMouseDown normX normY)),
          { h with primaryTouch := some ⟨touch.id, normX, normY⟩ })
    else (.ok none, h)
  | .trackpadRelative =>
    if h.relativeBaseline.isNone then
      (.ok none, { h with relativeBaseline := some (touch.id, touch.x, touch.y) })
    else (.ok none, h)

def move (h : ViewportHandler) (touch : TouchPoint) :
    Except TouchError (Option InputEvent) × ViewportHandler :=
  match h.mode with
  | .directTouch =>
    match h.primaryTouch with
    | some primary =>
      if primary.id = touch.id then
        match h.position touch.x touch.y with
        | .error e => (.error e, h)
        | .ok (normX, normY) =>
          (.ok (some (makeMouseEvent .leftMouseDragged normX normY)),
            { h with primaryTouch := some ⟨primary.id, normX, normY⟩ })
      else (.ok none, h)
    | none => (.ok none, h)
  | .trackpadRelative =>
    match h.relativeBaseline with
    | some (id, x, y) =>
      if id = touch.id then
        let dx := Float32.ofBits touch.x - Float32.ofBits x
        let dy := Float32.ofBits touch.y - Float32.ofBits y
        if !dx.isFinite || !dy.isFinite then
          (.error (.nonFiniteCoordinates dx.toBits dy.toBits), h)
        else
          (.ok (some (makeRelativeEvent dx.toBits dy.toBits)),
            { h with relativeBaseline := some (touch.id, touch.x, touch.y) })
      else (.ok none, h)
    | none => (.ok none, h)

def processTouch (h : ViewportHandler) (touch : TouchPoint) :
    Except TouchError (Option InputEvent) × ViewportHandler :=
  match touch.phase with
  | .cancelled => let (event, handler) := h.cancel touch.id; (.ok event, ⟨handler, h.viewport⟩)
  | .ended =>
    let (event, handler) := h.finish h.coordinates touch
    (.ok event, ⟨handler, h.viewport⟩)
  | .began | .moved =>
    if !(Float32.ofBits touch.x).isFinite || !(Float32.ofBits touch.y).isFinite then
      (.error (.nonFiniteCoordinates touch.x touch.y), h)
    else if touch.phase = .began then h.begin touch
    else h.move touch

theorem not_or_not {a b : Bool} : (!a || !b) = true ↔ ¬ a = true ∨ ¬ b = true := by
  rw [Bool.or_eq_true, Bool.not_eq_true', Bool.not_eq_true', Bool.not_eq_true, Bool.not_eq_true]

/-- With a result, or unchanged. -/
def after (h : ViewportHandler) :
    Except TouchError (Option InputEvent × TouchGestureHandler) →
      Except TouchError (Option InputEvent) × ViewportHandler
  | .ok (event, handler) => (.ok event, ⟨handler, h.viewport⟩)
  | .error e => (.error e, h)

theorem begin_eq (h : ViewportHandler) (touch : TouchPoint) :
    h.begin touch = h.after (h.toTouchGestureHandler.begin h.coordinates touch) := by
  rw [begin, TouchGestureHandler.begin]
  cases h.mode with
  | directTouch =>
    cases h.primaryTouch with
    | some primary => rfl
    | none =>
      have htransform : h.coordinates.transformToHost touch.x touch.y =
          h.position touch.x touch.y := rfl
      rw [htransform]
      cases h.position touch.x touch.y <;> rfl
  | trackpadRelative =>
    cases h.relativeBaseline <;> rfl

theorem move_eq (h : ViewportHandler) (touch : TouchPoint) :
    h.move touch = h.after (h.toTouchGestureHandler.move h.coordinates touch) := by
  rw [move, TouchGestureHandler.move]
  cases h.mode with
  | directTouch =>
    cases hprimary : h.primaryTouch with
    | none => rfl
    | some primary =>
      by_cases hid : primary.id = touch.id
      · simp only [hid, if_true, Option.any_some, decide_true]
        have htransform : h.coordinates.transformToHost touch.x touch.y =
            h.position touch.x touch.y := rfl
        rw [htransform]
        cases h.position touch.x touch.y <;> rfl
      · simp only [hid, if_false, Option.any_some, decide_false]
        rfl
  | trackpadRelative =>
    rcases h.relativeBaseline with - | ⟨id, x, y⟩
    · rfl
    · by_cases hid : id = touch.id
      · simp only [hid, if_true, coordinates, ofBits_toBits32]
        by_cases hfinite : (!(Float32.ofBits touch.x - Float32.ofBits x).isFinite ||
            !(Float32.ofBits touch.y - Float32.ofBits y).isFinite) = true
        · rw [if_pos hfinite, if_pos (not_or_not.mp hfinite)]
          rfl
        · rw [if_neg hfinite, if_neg (mt not_or_not.mpr hfinite)]
          rfl
      · simp only [hid, if_false]
        rfl

/-- **The handler with its viewport does what the handler alone does where a position is that in the
viewport**; an error leaves it as it is. -/
theorem processTouch_eq (h : ViewportHandler) (touch : TouchPoint) :
    h.processTouch touch =
      h.after (h.toTouchGestureHandler.processTouch h.coordinates touch) := by
  have hguard : (!(Float32.ofBits touch.x).isFinite || !(Float32.ofBits touch.y).isFinite) = true ↔
      ¬ h.coordinates.isFinite touch.x = true ∨ ¬ h.coordinates.isFinite touch.y = true :=
    not_or_not
  rw [processTouch, TouchGestureHandler.processTouch]
  cases touch.phase with
  | cancelled => rfl
  | ended => rfl
  | began =>
    by_cases hfinite : (!(Float32.ofBits touch.x).isFinite ||
        !(Float32.ofBits touch.y).isFinite) = true
    · simp only [if_pos hfinite, if_pos (hguard.mp hfinite)]
      rfl
    · simp only [if_neg hfinite, if_neg (mt hguard.mpr hfinite)]
      exact begin_eq h touch
  | moved =>
    by_cases hfinite : (!(Float32.ofBits touch.x).isFinite ||
        !(Float32.ofBits touch.y).isFinite) = true
    · simp only [if_pos hfinite, if_pos (hguard.mp hfinite)]
      rfl
    · simp only [if_neg hfinite, if_neg (mt hguard.mpr hfinite)]
      exact move_eq h touch


/-! ### Positions -/

end ViewportHandler

/-- The bits of a number from 0 to 1. -/
def InUnit (bits : UInt32) : Prop := (0.0 : Float32) ≤ .ofBits bits ∧ .ofBits bits ≤ (1.0 : Float32)

theorem clamp_mem {x low high : Float32} (hx : x.isNaN = false) (hlow : low.isNaN = false)
    (hhigh : high.isNaN = false) (hle : low ≤ high) :
    low ≤ clamp x low high ∧ clamp x low high ≤ high := by
  have hmin : ∀ y : Float32, y.isNaN = false → low ≤ y →
      low ≤ (if y > high then high else y) ∧ (if y > high then high else y) ≤ high := by
    intro y hy hlowy
    by_cases hgt : y > high
    · rw [if_pos hgt]
      exact ⟨hle, le_self32 hhigh⟩
    · rw [if_neg hgt]
      exact ⟨hlowy, le_of_not_lt32 hhigh hy hgt⟩
  rw [clamp]
  by_cases hlt : x < low
  · rw [if_pos hlt]
    exact hmin low hlow (le_self32 hlow)
  · rw [if_neg hlt]
    exact hmin x hx (le_of_not_lt32 hx hlow hlt)

theorem inUnit_clamp {x : Float32} (hx : x.isNaN = false) : InUnit (clamp x 0.0 1.0).toBits := by
  rw [InUnit, ofBits_toBits32]
  exact clamp_mem hx (by decide) (by decide) (by decide)

theorem of_ite_error {α : Type} {p : Prop} [Decidable p] {e : TouchError} {r : Except TouchError α}
    {a : α} (h : (if p then .error e else r) = .ok a) : ¬ p ∧ r = .ok a := by
  by_cases hp : p
  · rw [if_pos hp] at h
    cases h
  · rw [if_neg hp] at h
    exact ⟨hp, h⟩

/-- A raw position is a number; upside down it may be too large for one, but it is clamped. -/
theorem transformToHost_mem {v : ViewportState} {x y : Float32} {position : Float32 × Float32}
    (h : v.transformToHost x y = .ok position) :
    InUnit position.1.toBits ∧ InUnit position.2.toBits := by
  obtain ⟨-, h⟩ := of_ite_error h
  obtain ⟨-, h⟩ := of_ite_error h
  obtain ⟨-, h⟩ := of_ite_error h
  obtain ⟨-, h⟩ := of_ite_error h
  obtain ⟨-, h⟩ := of_ite_error h
  obtain ⟨-, h⟩ := of_ite_error h
  obtain ⟨hfinite, h⟩ := of_ite_error h
  cases h
  simp only [Bool.or_eq_true, Bool.not_eq_true', not_or, Bool.not_eq_false] at hfinite
  obtain ⟨hx, hy⟩ := hfinite
  exact ⟨inUnit_clamp (isNaN_of_isFinite32 hx), inUnit_clamp (isNaN_sub32 (by decide) hy)⟩

theorem ViewportHandler.position_mem {h : ViewportHandler} {x y : UInt32}
    {position : UInt32 × UInt32} (hposition : h.position x y = .ok position) :
    InUnit position.1 ∧ InUnit position.2 := by
  rw [ViewportHandler.position] at hposition
  cases htransform : h.viewport.transformToHost (.ofBits x) (.ofBits y) with
  | error e =>
    rw [htransform] at hposition
    cases hposition
  | ok host =>
    rw [htransform] at hposition
    cases hposition
    exact transformToHost_mem htransform

/-! ### Moves -/

/-- What can be done to a handler; the viewport can also be changed in any way. -/
inductive Move
  | touch (touch : TouchPoint)
  | setMode (mode : TouchMode)
  | setZoom (zoom centerX centerY : Float32)
  | pan (dx dy : Float32)
  | viewport (viewport : ViewportState)

/-- Does the move end what that touch does? -/
def Move.Ends (id : UInt64) : Move → Prop
  | .touch point => point.id = id ∧ (point.phase = .ended ∨ point.phase = .cancelled)
  | .setMode mode => mode ≠ .directTouch
  | .setZoom .. | .pan .. | .viewport _ => False

namespace ViewportHandler

def step (h : ViewportHandler) : Move → Except TouchError (Option InputEvent) × ViewportHandler
  | .touch touch => h.processTouch touch
  | .setMode mode => let (event, handler) := h.setMode mode; (.ok event, ⟨handler, h.viewport⟩)
  | .setZoom zoom centerX centerY =>
    let (result, viewport) := h.viewport.setZoom zoom centerX centerY
    (result.map fun _ => none, { h with viewport })
  | .pan dx dy => (.ok none, { h with viewport := h.viewport.pan dx dy })
  | .viewport viewport => (.ok none, { h with viewport })

/-- An error has no event. -/
def emitted (result : Except TouchError (Option InputEvent)) : Option InputEvent :=
  result.toOption.join

/-- The moves, each with the event that it emits, and the handler after them. -/
def run (h : ViewportHandler) (moves : List Move) :
    List (Move × Option InputEvent) × ViewportHandler :=
  moves.foldl (fun s move => (s.1 ++ [(move, emitted (s.2.step move).1)], (s.2.step move).2))
    ([], h)

end ViewportHandler

/-! ### The left button -/

/-- A move with its event, and the touch that holds the button before and after it. -/
inductive Button : Option UInt64 → Move → Option InputEvent → Option UInt64 → Prop
  | press (touch : TouchPoint) (x y : UInt32) (hbegan : touch.phase = .began) :
      Button none (.touch touch) (some (makeMouseEvent .leftMouseDown x y)) (some touch.id)
  | drag (touch : TouchPoint) (x y : UInt32) (hmoved : touch.phase = .moved) :
      Button (some touch.id) (.touch touch) (some (makeMouseEvent .leftMouseDragged x y))
        (some touch.id)
  | release (id : UInt64) (move : Move) (x y : UInt32) (hends : move.Ends id) :
      Button (some id) move (some (makeMouseEvent .leftMouseUp x y)) none
  | relative (move : Move) (dx dy : UInt32) :
      Button none move (some (makeRelativeEvent dx dy)) none
  | nothing (held : Option UInt64) (move : Move) (hkeeps : ∀ id ∈ held, ¬ move.Ends id) :
      Button held move none held

/-- All moves with their events, and who holds the button in the end. -/
inductive Bracketed : List (Move × Option InputEvent) → Option UInt64 → Prop
  | nil : Bracketed [] none
  | concat {log : List (Move × Option InputEvent)} {held held' : Option UInt64} {move : Move}
      {event : Option InputEvent} (hlog : Bracketed log held)
      (hbutton : Button held move event held') :
      Bracketed (log ++ [(move, event)]) held'

namespace ViewportHandler

/-- The touch that holds the button. -/
def held (h : ViewportHandler) : Option UInt64 := h.primaryTouch.map ActiveDirectTouch.id

/-- A touch is held in its mode, and where it was last is in the unit square. -/
structure Sound (h : ViewportHandler) : Prop where
  coherent : h.Coherent
  last : ∀ primary ∈ h.primaryTouch,
    InUnit primary.lastEmittedNormX ∧ InUnit primary.lastEmittedNormY

/-- The position of an event. -/
def Inside (event : Option InputEvent) : Prop := ∀ e ∈ event, InUnit e.x ∧ InUnit e.y

/-- A move keeps the handler sound. -/
structure Steps (h : ViewportHandler) (move : Move) (event : Option InputEvent)
    (h' : ViewportHandler) : Prop where
  button : Button h.held move event h'.held
  sound : h'.Sound
  inside : Inside event

variable {h : ViewportHandler}

theorem Sound.nothing (hs : h.Sound) {move : Move} (hkeeps : ∀ id ∈ h.held, ¬ move.Ends id) :
    Steps h move none h := ⟨.nothing h.held move hkeeps, hs, fun _ he => nomatch he⟩

theorem sound_none {handler : TouchGestureHandler} {viewport : ViewportState}
    (hcoherent : handler.Coherent) (hnone : handler.primaryTouch = none) :
    Sound ⟨handler, viewport⟩ := by
  refine ⟨hcoherent, fun primary hprimary => ?_⟩
  rw [hnone] at hprimary
  cases hprimary

theorem steps_none {move : Move} {handler : TouchGestureHandler} {viewport : ViewportState}
    (hnone : h.held = none) (hcoherent : handler.Coherent) (hnone' : handler.primaryTouch = none) :
    Steps h move none ⟨handler, viewport⟩ where
  button := by
    rw [hnone, held, hnone']
    exact .nothing none move fun _ hid => nomatch hid
  sound := sound_none hcoherent hnone'
  inside _ he := nomatch he

theorem sound_some {touch : ActiveDirectTouch} {baseline : Option (UInt64 × UInt32 × UInt32)}
    {viewport : ViewportState} (hbaseline : baseline = none)
    (hmem : InUnit touch.lastEmittedNormX ∧ InUnit touch.lastEmittedNormY) :
    Sound ⟨⟨.directTouch, some touch, baseline⟩, viewport⟩ := by
  refine ⟨hbaseline, ?_⟩
  rintro _ ⟨⟩
  exact hmem

theorem inside_mouseEvent {eventType : InputEventType} {x y : UInt32} (hx : InUnit x)
    (hy : InUnit y) : Inside (some (makeMouseEvent eventType x y)) := by
  rintro _ ⟨⟩
  exact ⟨hx, hy⟩

theorem inside_relativeEvent (dx dy : UInt32) : Inside (some (makeRelativeEvent dx dy)) := by
  have hzero : InUnit 0 := by
    constructor <;> decide
  rintro _ ⟨⟩
  exact ⟨hzero, hzero⟩

theorem Sound.setMode (hs : h.Sound) (mode : TouchMode) :
    Steps h (.setMode mode) (h.setMode mode).1 ⟨(h.setMode mode).2, h.viewport⟩ := by
  obtain ⟨⟨mode₀, primaryTouch, relativeBaseline⟩, viewport⟩ := h
  cases mode₀ with
  | directTouch =>
    cases mode with
    | directTouch => exact hs.nothing fun id _ hends => hends rfl
    | trackpadRelative =>
      cases primaryTouch with
      | none => exact steps_none rfl rfl rfl
      | some primary =>
        obtain ⟨hx, hy⟩ := hs.last primary rfl
        have hends : (Move.setMode .trackpadRelative).Ends primary.id := fun h => nomatch h
        exact ⟨.release primary.id _ _ _ hends, sound_none rfl rfl, inside_mouseEvent hx hy⟩
  | trackpadRelative =>
    obtain rfl : primaryTouch = none := hs.coherent
    cases mode with
    | directTouch => exact steps_none rfl rfl rfl
    | trackpadRelative => exact hs.nothing fun _ hid => nomatch hid

theorem Sound.begin (hs : h.Sound) {touch : TouchPoint} (hphase : touch.phase = .began) :
    Steps h (.touch touch) (emitted (h.begin touch).1) (h.begin touch).2 := by
  have hkeeps : ∀ id ∈ h.held, ¬ (Move.touch touch).Ends id := by
    rintro id - ⟨-, hends⟩
    rw [hphase] at hends
    rcases hends with ⟨⟨⟩⟩ | ⟨⟨⟩⟩
  obtain ⟨⟨mode, primaryTouch, relativeBaseline⟩, viewport⟩ := h
  rw [ViewportHandler.begin]
  cases mode with
  | directTouch =>
    cases primaryTouch with
    | some primary => exact hs.nothing hkeeps
    | none =>
      cases hposition : ViewportHandler.position _ touch.x touch.y with
      | error e => exact hs.nothing hkeeps
      | ok position =>
        obtain ⟨hx, hy⟩ := position_mem hposition
        exact ⟨.press touch _ _ hphase, sound_some hs.coherent ⟨hx, hy⟩, inside_mouseEvent hx hy⟩
  | trackpadRelative =>
    obtain rfl : primaryTouch = none := hs.coherent
    cases relativeBaseline with
    | some baseline => exact hs.nothing hkeeps
    | none => exact steps_none rfl rfl rfl

theorem Sound.move (hs : h.Sound) {touch : TouchPoint} (hphase : touch.phase = .moved) :
    Steps h (.touch touch) (emitted (h.move touch).1) (h.move touch).2 := by
  have hkeeps : ∀ id ∈ h.held, ¬ (Move.touch touch).Ends id := by
    rintro id - ⟨-, hends⟩
    rw [hphase] at hends
    rcases hends with ⟨⟨⟩⟩ | ⟨⟨⟩⟩
  obtain ⟨⟨mode, primaryTouch, relativeBaseline⟩, viewport⟩ := h
  rw [ViewportHandler.move]
  cases mode with
  | directTouch =>
    cases primaryTouch with
    | none => exact hs.nothing hkeeps
    | some primary =>
      by_cases hid : primary.id = touch.id
      · dsimp only
        rw [if_pos hid]
        cases hposition : ViewportHandler.position _ touch.x touch.y with
        | error e => exact hs.nothing hkeeps
        | ok position =>
          obtain ⟨hx, hy⟩ := position_mem hposition
          refine ⟨?_, sound_some hs.coherent ⟨hx, hy⟩, inside_mouseEvent hx hy⟩
          rw [held, held, Option.map_some, Option.map_some, hid]
          exact .drag touch _ _ hphase
      · dsimp only
        rw [if_neg hid]
        exact hs.nothing hkeeps
  | trackpadRelative =>
    obtain rfl : primaryTouch = none := hs.coherent
    rcases relativeBaseline with - | ⟨id, x, y⟩
    · exact hs.nothing hkeeps
    · dsimp only
      split
      · split
        · exact hs.nothing hkeeps
        · exact ⟨.relative _ _ _, sound_none rfl rfl, inside_relativeEvent _ _⟩
      · exact hs.nothing hkeeps

theorem Sound.cancel (hs : h.Sound) {touch : TouchPoint} (hphase : touch.phase = .cancelled) :
    Steps h (.touch touch) (h.cancel touch.id).1 ⟨(h.cancel touch.id).2, h.viewport⟩ := by
  obtain ⟨⟨mode, primaryTouch, relativeBaseline⟩, viewport⟩ := h
  rw [TouchGestureHandler.cancel, TouchGestureHandler.holds]
  cases mode with
  | directTouch =>
    cases primaryTouch with
    | none => exact hs.nothing (by rintro _ ⟨⟩)
    | some primary =>
      by_cases hid : primary.id = touch.id
      · simp only [Option.any_some, hid, decide_true, if_true]
        obtain ⟨hx, hy⟩ := hs.last primary rfl
        exact ⟨.release primary.id _ _ _ ⟨hid.symm, .inr hphase⟩, sound_none hs.coherent rfl,
          inside_mouseEvent hx hy⟩
      · simp only [Option.any_some, hid, decide_false, Bool.false_eq_true, if_false]
        refine hs.nothing ?_
        rintro _ ⟨⟩ hends
        exact hid hends.1.symm
  | trackpadRelative =>
    obtain rfl : primaryTouch = none := hs.coherent
    dsimp only
    split
    · exact steps_none rfl rfl rfl
    · exact hs.nothing (by rintro _ ⟨⟩)

theorem Sound.finish (hs : h.Sound) {touch : TouchPoint} (hphase : touch.phase = .ended) :
    Steps h (.touch touch) (h.finish h.coordinates touch).1
      ⟨(h.finish h.coordinates touch).2, h.viewport⟩ := by
  obtain ⟨⟨mode, primaryTouch, relativeBaseline⟩, viewport⟩ := h
  rw [TouchGestureHandler.finish]
  cases mode with
  | directTouch =>
    cases primaryTouch with
    | none => exact hs.nothing fun _ hid => nomatch hid
    | some primary =>
      by_cases hid : primary.id = touch.id
      · dsimp only
        rw [if_pos hid]
        have hends : (Move.touch touch).Ends primary.id := ⟨hid.symm, .inl hphase⟩
        cases hposition : ViewportHandler.position _ touch.x touch.y with
        | error e =>
          obtain ⟨hx, hy⟩ := hs.last primary rfl
          dsimp only [coordinates]
          rw [hposition]
          exact ⟨.release primary.id _ _ _ hends, sound_none hs.coherent rfl,
            inside_mouseEvent hx hy⟩
        | ok position =>
          obtain ⟨hx, hy⟩ := position_mem hposition
          dsimp only [coordinates]
          rw [hposition]
          exact ⟨.release primary.id _ _ _ hends, sound_none hs.coherent rfl,
            inside_mouseEvent hx hy⟩
      · dsimp only
        rw [if_neg hid]
        refine hs.nothing ?_
        rintro _ ⟨⟩ hends
        exact hid hends.1.symm
  | trackpadRelative =>
    obtain rfl : primaryTouch = none := hs.coherent
    dsimp only [TouchGestureHandler.cancel]
    split
    · exact steps_none rfl rfl rfl
    · exact hs.nothing fun _ hid => nomatch hid

theorem Sound.processTouch (hs : h.Sound) (touch : TouchPoint) :
    Steps h (.touch touch) (emitted (h.processTouch touch).1) (h.processTouch touch).2 := by
  have hkeeps : touch.phase = .began ∨ touch.phase = .moved →
      ∀ id ∈ h.held, ¬ (Move.touch touch).Ends id := by
    rintro hphase id - ⟨-, hends⟩
    rcases hphase with hphase | hphase <;> rw [hphase] at hends <;> rcases hends with ⟨⟨⟩⟩ | ⟨⟨⟩⟩
  rw [ViewportHandler.processTouch]
  cases hphase : touch.phase with
  | cancelled => exact hs.cancel hphase
  | ended => exact hs.finish hphase
  | began =>
    dsimp only
    split
    · exact hs.nothing (hkeeps (.inl hphase))
    · exact hs.begin hphase
  | moved =>
    dsimp only
    split
    · exact hs.nothing (hkeeps (.inr hphase))
    · exact hs.move hphase

theorem Sound.step (hs : h.Sound) (move : Move) :
    Steps h move (emitted (h.step move).1) (h.step move).2 := by
  have hviewport : ∀ viewport, (∀ id, ¬ move.Ends id) → Steps h move none { h with viewport } :=
    fun viewport hends =>
      ⟨.nothing h.held move fun id _ => hends id, ⟨hs.coherent, hs.last⟩, fun _ he => nomatch he⟩
  cases move with
  | touch touch => exact hs.processTouch touch
  | setMode mode => exact hs.setMode mode
  | setZoom zoom centerX centerY =>
    have hnone : ∀ result : Except TouchError Unit,
        emitted (result.map fun _ => (none : Option InputEvent)) = none := by
      rintro (- | -) <;> rfl
    rw [ViewportHandler.step, hnone]
    exact hviewport _ fun _ => id
  | pan dx dy => exact hviewport _ fun _ => id
  | viewport viewport => exact hviewport _ fun _ => id

theorem run_concat (h : ViewportHandler) (moves : List Move) (move : Move) :
    h.run (moves ++ [move]) =
      ((h.run moves).1 ++ [(move, emitted ((h.run moves).2.step move).1)],
        ((h.run moves).2.step move).2) := by
  rw [run, List.foldl_append]
  rfl

/-! ### Errors -/

theorem step_error {move : Move} {e : TouchError} (herror : (h.step move).1 = .error e) :
    (h.step move).2 = h := by
  cases move with
  | touch touch =>
    rw [ViewportHandler.step, processTouch_eq] at herror ⊢
    cases hresult : h.toTouchGestureHandler.processTouch h.coordinates touch with
    | error e => rfl
    | ok result =>
      rw [hresult] at herror
      cases herror
  | setMode mode => cases herror
  | setZoom zoom centerX centerY =>
    have hmap : (h.viewport.setZoom zoom centerX centerY).1.map (fun _ => none) = .error e := herror
    cases hresult : (h.viewport.setZoom zoom centerX centerY).1 with
    | error e' =>
      show ({ h with viewport := (h.viewport.setZoom zoom centerX centerY).2 } : ViewportHandler) = h
      rw [h.viewport.setZoom_error zoom centerX centerY e' hresult]
    | ok =>
      rw [hresult] at hmap
      cases hmap
  | pan dx dy => cases herror
  | viewport viewport => cases herror

/-- **Whatever is done to a handler, a touch presses the button only while nobody holds it, only
that touch drags it, and the button is released exactly when that touch ends or is cancelled or the
mode changes; all positions are in the unit square; and an error changes nothing.** -/
theorem touch_gestures (viewport : ViewportState) (mode : TouchMode) (moves : List Move) :
    Bracketed ((new viewport mode).run moves).1 ((new viewport mode).run moves).2.held ∧
      (∀ entry ∈ ((new viewport mode).run moves).1, Inside entry.2) ∧
      ∀ (h : ViewportHandler) (move : Move) (e : TouchError), (h.step move).1 = .error e →
        (h.step move).2 = h := by
  have hrun : Bracketed ((new viewport mode).run moves).1 ((new viewport mode).run moves).2.held ∧
      (∀ entry ∈ ((new viewport mode).run moves).1, Inside entry.2) ∧
      ((new viewport mode).run moves).2.Sound := by
    induction moves using List.reverseRecOn with
    | nil =>
      refine ⟨.nil, (fun _ hentry => nomatch hentry), sound_none ?_ rfl⟩
      cases mode <;> rfl
    | append_singleton moves move ih =>
      obtain ⟨hbracketed, hinside, hsound⟩ := ih
      have hstep := hsound.step move
      rw [run_concat]
      refine ⟨hbracketed.concat hstep.button, fun entry hentry => ?_, hstep.sound⟩
      rcases List.mem_append.mp hentry with hold | hnew
      · exact hinside entry hold
      · rw [List.mem_singleton.mp hnew]
        exact hstep.inside
  exact ⟨hrun.1, hrun.2.1, fun h move e => step_error⟩

end ViewportHandler

end MahoRD.Ios

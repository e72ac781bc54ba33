/-
MahoRD/Ios/Session.lean

What the iOS shell keeps of its session (`SessionInner` in `ios-shell/src/state.rs`), and what its
commands, connects and teardowns do to it.  Each function here is done in one go, under the lock of
the state.

Frames, audio and the counters are left out, and the flag that tells the workers to stop: a worker
may go on, end, or report the end of its session at any time.
-/
import MahoRD.Ios.Touch

namespace MahoRD.Ios

inductive ConnectionState
  | idle | connecting | ready | disconnected | error
  deriving DecidableEq

/-- `session` is the generation of the connect that installed it. -/
structure SessionInner where
  generation : ℕ
  state : ConnectionState
  host : Option String
  session : Option ℕ
  touchHandler : TouchGestureHandler
  touchMode : TouchMode
  tcpRuntime : Bool
  workerHandles : List ℕ
  videoWidth : UInt32
  videoHeight : UInt32
  lastError : Option String
  deriving DecidableEq

namespace SessionInner

def default : SessionInner where
  generation := 0
  state := .idle
  host := none
  session := none
  touchHandler := .new .directTouch
  touchMode := .directTouch
  tcpRuntime := false
  workerHandles := []
  videoWidth := 0
  videoHeight := 0
  lastError := none

/-! ### Connecting -/

/-- A connect has a generation of its own. -/
def register (i : SessionInner) (host : String) : SessionInner :=
  { i with
    generation := i.generation + 1
    state := .connecting
    host := some host
    videoWidth := 0
    videoHeight := 0
    lastError := none }

/-- The session is ready. -/
def install (i : SessionInner) (session : ℕ) : SessionInner :=
  { i with state := .ready, session := some session, tcpRuntime := true }

def pushWorker (i : SessionInner) (worker : ℕ) : SessionInner :=
  { i with workerHandles := i.workerHandles ++ [worker] }

def setError (i : SessionInner) (generation : ℕ) (message : String) : SessionInner :=
  if i.generation = generation then { i with state := .error, lastError := some message } else i

/-! ### Tearing down -/

/-- What a teardown finds: a newer generation, nothing to do, or what it has to clean up. -/
inductive Teardown
  | stale
  | settled
  | taken (session : Option ℕ) (runtime : Bool) (handles : List ℕ)

/-- There is something to tear down. -/
def TearsDown (i : SessionInner) (generation : ℕ) (target : ConnectionState) : Prop :=
  i.generation = generation ∧ ¬ (i.state = .idle ∧ i.session = none ∧ i.workerHandles = []) ∧
    ¬ (i.state = .disconnected ∧ target = .error)

instance (i : SessionInner) (generation : ℕ) (target : ConnectionState) :
    Decidable (i.TearsDown generation target) := inferInstanceAs (Decidable (_ ∧ _ ∧ _))

/-- The first half of `execute_teardown`, with the release that it produces. -/
def beginTeardown (i : SessionInner) (generation : ℕ) (target : ConnectionState)
    (reason : Option String) : Teardown × Option InputEvent × SessionInner :=
  if i.generation ≠ generation then (.stale, none, i)
  -- late errors do not restore a terminal state after idle
  else if i.state = .idle ∧ i.session = none ∧ i.workerHandles = [] then (.settled, none, i)
  -- the reason that came first is kept
  else if i.state = .disconnected ∧ target = .error then (.settled, none, i)
  else
    let (release, handler) := i.touchHandler.setMode .directTouch
    (.taken i.session i.tcpRuntime i.workerHandles, release,
      { i with
        state := if target ≠ .idle then target else i.state
        lastError := if target ≠ .idle then reason.or i.lastError else i.lastError
        touchHandler := handler
        session := none
        tcpRuntime := false
        workerHandles := [] })

def failCleanup (i : SessionInner) (summary : String) : SessionInner :=
  { i with state := .error, lastError := some ("Cleanup failed: " ++ summary) }

def settle (i : SessionInner) : SessionInner :=
  { i with state := .idle, session := none, host := none }

/-- A disconnect of a generation that was torn down before. -/
def reap (i : SessionInner) (generation : ℕ) : SessionInner :=
  if i.generation = generation then i.settle else i

/-! ### Touches -/

inductive TouchFailure
  | invalidMode (mode : String)
  | invalidPhase (phase : String)
  | nonFiniteCoordinates
  | processing (e : TouchError)
  deriving DecidableEq

def parseTouchMode (mode : String) : Except TouchFailure TouchMode :=
  if mode = "direct" then .ok .directTouch
  else if mode = "trackpad" then .ok .trackpadRelative
  else .error (.invalidMode mode)

def parseTouchPhase (phase : String) : Except TouchFailure TouchPhase :=
  if phase = "began" then .ok .began
  else if phase = "moved" then .ok .moved
  else if phase = "ended" then .ok .ended
  else if phase = "cancelled" then .ok .cancelled
  else .error (.invalidPhase phase)

/-- `set_touch_mode`, with the release that it produces. -/
def setTouchMode (i : SessionInner) (mode : String) :
    Except TouchFailure (Option InputEvent × SessionInner) := do
  let newMode ← parseTouchMode mode
  if i.touchMode = newMode then return (none, i)
  else
    let (release, handler) := i.touchHandler.setMode newMode
    return (release, { i with touchHandler := handler, touchMode := newMode })

def scaled (c : Coordinates) (i : SessionInner) (event : InputEvent) : InputEvent :=
  if event.eventType = .relativeMove then
    let (width, height) := if 0 < i.videoWidth ∧ 0 < i.videoHeight
      then (i.videoWidth, i.videoHeight) else (1920, 1080)
    { event with
      scrollDx := c.mul event.scrollDx (c.ofNat width)
      scrollDy := c.mul event.scrollDy (c.ofNat height) }
  else event

/-- `process_touch_for_test`, the first half of `handle_touch`. -/
def processTouch (c : Coordinates) (i : SessionInner) (id : UInt64) (x y : UInt32)
    (phase : String) : Except TouchFailure (Option InputEvent × SessionInner) := do
  let phase ← parseTouchPhase phase
  if (phase = .began ∨ phase = .moved) ∧ (¬ c.isFinite x ∨ ¬ c.isFinite y) then
    throw .nonFiniteCoordinates
  else
    match i.touchHandler.processTouch c ⟨id, x, y, phase⟩ with
    | .error e => throw (.processing e)
    | .ok (event, handler) =>
      return (event.map (i.scaled c), { i with touchHandler := handler })

/-! ### What is left alone -/

/-- The two copies of the mode agree, and only the touch of the mode can be held. -/
structure Coherent (i : SessionInner) : Prop where
  mode : i.touchMode = i.touchHandler.mode
  handler : i.touchHandler.Coherent

variable {i i' : SessionInner}

theorem beginTeardown_of_tearsDown {generation : ℕ} {target : ConnectionState}
    (h : i.TearsDown generation target) (reason : Option String) :
    i.beginTeardown generation target reason =
      (.taken i.session i.tcpRuntime i.workerHandles, (i.touchHandler.setMode .directTouch).1,
        { i with
          state := if target ≠ .idle then target else i.state
          lastError := if target ≠ .idle then reason.or i.lastError else i.lastError
          touchHandler := (i.touchHandler.setMode .directTouch).2
          session := none
          tcpRuntime := false
          workerHandles := [] }) := by
  obtain ⟨hgeneration, hidle, hdisconnected⟩ := h
  rw [beginTeardown, if_neg (not_not.mpr hgeneration), if_neg hidle, if_neg hdisconnected]

theorem beginTeardown_cases (i : SessionInner) (generation : ℕ) (target : ConnectionState)
    (reason : Option String) :
    (i.generation ≠ generation ∧
      i.beginTeardown generation target reason = (.stale, none, i)) ∨
    (i.generation = generation ∧ ¬ i.TearsDown generation target ∧
      i.beginTeardown generation target reason = (.settled, none, i)) ∨
    i.TearsDown generation target := by
  by_cases hgeneration : i.generation = generation
  · by_cases htears : i.TearsDown generation target
    · exact Or.inr (Or.inr htears)
    · refine Or.inr (Or.inl ⟨hgeneration, htears, ?_⟩)
      rw [beginTeardown, if_neg (not_not.mpr hgeneration)]
      split
      · rfl
      split
      · rfl
      next hidle hdisconnected => exact absurd ⟨hgeneration, hidle, hdisconnected⟩ htears
  · exact Or.inl ⟨hgeneration, if_pos hgeneration⟩

theorem beginTeardown_of_not_tearsDown {generation : ℕ}
    {target : ConnectionState} (h : ¬ i.TearsDown generation target) (reason : Option String) :
    (i.beginTeardown generation target reason).2 = (none, i) := by
  rcases i.beginTeardown_cases generation target reason with ⟨-, heq⟩ | ⟨-, -, heq⟩ | htears
  · rw [heq]
  · rw [heq]
  · exact absurd htears h

theorem default_coherent : default.Coherent := ⟨rfl, rfl⟩

theorem Coherent.of_touch (h : i.Coherent) (hmode : i'.touchMode = i.touchMode)
    (hhandler : i'.touchHandler = i.touchHandler) : i'.Coherent := by
  refine ⟨?_, ?_⟩
  · rw [hmode, hhandler]
    exact h.mode
  · rw [hhandler]
    exact h.handler

/-- A command for another mode changes both copies, and lets go of the touch. -/
theorem setTouchMode_eq_ok {mode : String} {release : Option InputEvent}
    (h : i.setTouchMode mode = .ok (release, i')) :
    release = none ∧ i' = i ∨ ∃ newMode, parseTouchMode mode = .ok newMode ∧
      i.touchMode ≠ newMode ∧ release = (i.touchHandler.setMode newMode).1 ∧
      i' = { i with touchHandler := (i.touchHandler.setMode newMode).2, touchMode := newMode } := by
  rw [setTouchMode] at h
  rcases hparse : parseTouchMode mode with e | newMode
  · rw [hparse] at h
    cases h
  rw [hparse] at h
  by_cases hsame : i.touchMode = newMode
  · left
    have h : (if i.touchMode = newMode then Except.ok (none, i) else _) =
      Except.ok (release, i') := h
    rw [if_pos hsame] at h
    cases h
    exact ⟨rfl, rfl⟩
  · right
    have h : (if i.touchMode = newMode then _ else Except.ok
      ((i.touchHandler.setMode newMode).1, _)) = Except.ok (release, i') := h
    rw [if_neg hsame] at h
    cases h
    exact ⟨newMode, rfl, hsame, rfl, rfl⟩

theorem setTouchMode_coherent {mode : String} {release : Option InputEvent}
    (hi : i.Coherent) (h : i.setTouchMode mode = .ok (release, i')) : i'.Coherent := by
  rcases setTouchMode_eq_ok h with ⟨-, rfl⟩ | ⟨newMode, -, -, -, rfl⟩
  · exact hi
  · exact ⟨(TouchGestureHandler.setMode_mode _ _).symm,
      TouchGestureHandler.setMode_coherent hi.handler newMode⟩

theorem processTouch_coherent {c : Coordinates} {id : UInt64} {x y : UInt32}
    {phase : String} {event : Option InputEvent} (hi : i.Coherent)
    (h : i.processTouch c id x y phase = .ok (event, i')) : i'.Coherent := by
  rw [processTouch] at h
  rcases hparse : parseTouchPhase phase with e | phase
  · rw [hparse] at h
    cases h
  rw [hparse] at h
  have h : (if _ then throw _ else _) = Except.ok (event, i') := h
  split at h
  · cases h
  · rcases htouch : i.touchHandler.processTouch c ⟨id, x, y, phase⟩ with e | ⟨event', handler⟩
    · rw [htouch] at h
      cases h
    · rw [htouch] at h
      cases h
      have hkept := TouchGestureHandler.processTouch_kept htouch
      exact ⟨hi.mode.trans hkept.mode.symm, hkept.coherent hi.handler⟩

theorem setMode_direct (hi : i.Coherent) (hmode : i.touchMode = .directTouch) :
    i.touchHandler.setMode .directTouch = (none, i.touchHandler) :=
  if_pos (hi.mode.symm.trans hmode)

theorem reap_eq (i : SessionInner) (generation : ℕ) : i.reap generation = i ∨
    i.generation = generation ∧ i.reap generation = i.settle := by
  rw [reap]
  split
  next h => exact Or.inr ⟨h, rfl⟩
  · exact Or.inl rfl

theorem setError_eq (i : SessionInner) (generation : ℕ) (message : String) :
    i.setError generation message = i ∨ i.generation = generation ∧
      i.setError generation message = { i with state := .error, lastError := some message } := by
  rw [setError]
  split
  next h => exact Or.inr ⟨h, rfl⟩
  · exact Or.inl rfl

end SessionInner

end MahoRD.Ios

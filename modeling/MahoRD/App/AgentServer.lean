/-
MahoRD/App/AgentServer.lean

What the agent's HTTP server does while it holds the tracker: input requests, resets, the
release of a disconnect and the watchdog (`maho-app/src/agent_server.rs`).

The answers of the backend are inputs: `none` when an event is accepted, else the error.  A
request stops at the first event that is refused, so that its sends are numbered by the
events accepted so far.
-/
import MahoRD.App.AgentTracker

namespace MahoRD.Agent

open Presses

/-! ### Releases -/

/-- What the backend answers to a release: to its `i`-th event, and to the Reset. -/
structure ReleaseAnswers where
  ups : ℕ → Option String
  reset : Option String

def ReleaseAnswers.answer (answers : ReleaseAnswers) (i : ℕ) (e : InputEvent) : Option String :=
  if e.eventType = .reset then answers.reset else answers.ups i

/-- What else a release depends on. -/
structure ReleaseEnv where
  drain : Drain
  now : ℕ
  answers : ReleaseAnswers

/-- The first loop of `release_inputs`: the accepted events, and the first error. -/
def sendRelease (answers : ReleaseAnswers) : ℕ → List InputEvent → List InputEvent × Option String
  | _, [] => ([], none)
  | i, e :: rest =>
    let (accepted, error) := sendRelease answers (i + 1) rest
    match answers.answer i e with
    | none => (e :: accepted, error)
    | some err => (accepted, some err)

/-- Put an item back on record, by the Up that was to release it. -/
def InputStateTracker.rerecord (now : ℕ) (t : InputStateTracker) (e : InputEvent) :
    InputStateTracker :=
  match e.eventType with
  | .leftMouseUp => t.recordButtonDown .left now
  | .rightMouseUp => t.recordButtonDown .right now
  | .middleMouseUp => t.recordButtonDown .middle now
  | .keyUp => t.recordKeyDown e.keyCode e.modifiers now
  | _ => t

/-- `release_inputs`: the accepted events, the first error, and the tracker. -/
def releaseInputs (env : ReleaseEnv) (t : InputStateTracker) (pos : UInt32 × UInt32) :
    List InputEvent × Option String × InputStateTracker :=
  let (events, t) := t.releaseAll env.drain pos env.now
  let (accepted, error) := sendRelease env.answers 0 events
  let resetSent := accepted.any fun e => e.eventType == .reset
  (accepted, error, if resetSent then t else events.foldl (InputStateTracker.rerecord env.now) t)

/-! ### Input requests -/

/-- What an input request has come to: the tracker and the position, the Downs that were accepted
without an Up, and all that was accepted. -/
structure Request where
  tracker : InputStateTracker
  pos : UInt32 × UInt32
  heldButtons : Finset MouseButton
  heldKeys : Table UInt16 Modifiers
  accepted : List InputEvent

def Request.start (t : InputStateTracker) (pos : UInt32 × UInt32) : Request := ⟨t, pos, ∅, ∅, []⟩

/-- An event was accepted. -/
def Request.accept (r : Request) (e : InputEvent) : Request :=
  let r := { r with accepted := r.accepted ++ [e] }
  match e.eventType with
  | .leftMouseDown => { r with heldButtons := insert .left r.heldButtons }
  | .rightMouseDown => { r with heldButtons := insert .right r.heldButtons }
  | .middleMouseDown => { r with heldButtons := insert .middle r.heldButtons }
  | .leftMouseUp => { r with heldButtons := r.heldButtons.erase .left }
  | .rightMouseUp => { r with heldButtons := r.heldButtons.erase .right }
  | .middleMouseUp => { r with heldButtons := r.heldButtons.erase .middle }
  | .keyDown => { r with heldKeys := r.heldKeys.insert e.keyCode e.modifiers }
  | .keyUp => { r with heldKeys := r.heldKeys.erase e.keyCode }
  | .reset => { r with heldButtons := ∅, heldKeys := ∅ }
  | _ => r

/-- What an input request depends on: the drains and instants of its conversions, the size of the
screen, what the backend answers to its events, and the cleanup. -/
structure RequestEnv where
  drain : ℕ → Drain
  now : ℕ → ℕ
  width : UInt32
  height : UInt32
  answer : ℕ → Option String
  cleanup : ReleaseEnv

/-- The events of an action, up to the first one that is refused. -/
def sendEvents (answer : ℕ → Option String) (r : Request) :
    List InputEvent → Option String × Request
  | [] => (none, r)
  | e :: rest =>
    match answer r.accepted.length with
    | some err => (some err, r)
    | none => sendEvents answer (r.accept e) rest

/-- How the actions of a request end. -/
inductive Ending
  | done
  | failed (error : AgentInputError)
  | refused (error : String)

/-- The loop over the actions, from the `i`-th one on. -/
def runActions (env : RequestEnv) : ℕ → List AgentAction → Request → Ending × Request
  | _, [], r => (.done, r)
  | i, action :: rest, r =>
    let width := env.width.toFloat32.toBits
    let height := env.height.toFloat32.toBits
    match convertAgentActionToEvents (env.drain i) action r.tracker r.pos width height
        (env.now i) with
    | (.error e, t, pos) => (.failed e, { r with tracker := t, pos })
    | (.ok events, t, pos) =>
      match sendEvents env.answer { r with tracker := t, pos } events with
      | (some err, r) => (.refused err, r)
      | (none, r) => runActions env (i + 1) rest r

/-- Put what the backend holds back on record. -/
def Request.rerecordHeld (env : ReleaseEnv) (r : Request) : InputStateTracker :=
  let t := (env.drain.buttons r.heldButtons).foldl (fun t b => t.recordButtonDown b env.now) r.tracker
  r.heldKeys.entries.foldl (fun t e => t.recordKeyDown e.1 e.2 env.now) t

inductive Response
  | ok (eventsSent : ℕ)
  | badRequest (error : AgentInputError)
  | internalError (error : String)

/-! ### Transactions -/

/-- What the tracker's lock protects, and the events that the backend has accepted. -/
structure ServerInput where
  tracker : InputStateTracker
  pos : UInt32 × UInt32
  accepted : List InputEvent

/-- The job of an input request. -/
def ServerInput.request (s : ServerInput) (env : RequestEnv) (actions : List AgentAction) :
    Response × ServerInput :=
  match runActions env 0 actions (.start s.tracker s.pos) with
  | (.done, r) => (.ok r.accepted.length, ⟨r.tracker, r.pos, s.accepted ++ r.accepted⟩)
  | (.failed e, r) => (.badRequest e, ⟨r.tracker, r.pos, s.accepted ++ r.accepted⟩)
  | (.refused err, r) =>
    let (released, cleanup, t) := releaseInputs env.cleanup (r.rerecordHeld env.cleanup) r.pos
    let error :=
      match cleanup with
      | some cleanup => err ++ "; cleanup: " ++ cleanup
      | none => err
    (.internalError error, ⟨t, r.pos, s.accepted ++ r.accepted ++ released⟩)

/-- The job of a reset request, and of a disconnect. -/
def ServerInput.release (s : ServerInput) (env : ReleaseEnv) : ServerInput :=
  let (released, _, t) := releaseInputs env s.tracker s.pos
  ⟨t, s.pos, s.accepted ++ released⟩

/-- A tick of the watchdog that got the lock.  It has read the position before. -/
def ServerInput.watchdog (s : ServerInput) (pos : UInt32 × UInt32) (env : ReleaseEnv) :
    ServerInput :=
  if s.tracker.isTimedOut env.now then
    let (released, error, t) := releaseInputs env s.tracker pos
    ⟨if error.isSome then t.markReleaseFailed env.now else t, s.pos, s.accepted ++ released⟩
  else s

inductive Transaction
  | request (env : RequestEnv) (actions : List AgentAction)
  | reset (env : ReleaseEnv)
  | watchdog (pos : UInt32 × UInt32) (env : ReleaseEnv)

def ServerInput.perform (s : ServerInput) : Transaction → ServerInput
  | .request env actions => (s.request env actions).2
  | .reset env => s.release env
  | .watchdog pos env => s.watchdog pos env

def ServerInput.new (now : ℕ) : ServerInput := ⟨.new 5000 now, (0x3f000000, 0x3f000000), []⟩

end MahoRD.Agent

/-
MahoRD/App/DesktopCommands.lean

The commands of the Tauri shell that work on the session of its `AppState`
(`tauri-shell/src-tauri/src/lib.rs`): `connect`, `disconnect` and `send_input`, as
programs over the slots that they share, and `cancel_connect` from `parity.rs`.
The calls of a session inside them are the programs of `SessionCalls`; beside the
commands, the threads of a session's runtime run on their own.

`connect` and `disconnect` hold the lifecycle lock; `send_input` does not.  The
lock of `tcp_runtime` is held while a runtime that was in it is stopped.

Clipboard, metrics and the media worker are left out, and an `IpcError` is the
error it was made from.  The locks are not poisoned.
-/
import MahoRD.App.SessionCalls
import MahoRD.Proto.Input

namespace MahoRD

/-- A key or a button goes down. -/
def InputEventType.isDown : InputEventType → Bool
  | keyDown | leftMouseDown | rightMouseDown | middleMouseDown | gamepadButtonDown | penDown => true
  | _ => false

namespace DesktopCommands

open Threads (Prog)
open SessionCalls (Answer)

/-- The sessions in the order in which they are made. -/
abbrev SessionId := ℕ

/-- Who sends an event: a `send_input`, or a teardown that resets the host's input. -/
inductive Sender
  | command | teardown

inductive CommandError
  /-- `Session disconnecting or inactive` -/
  | inactive
  /-- `Session not initialized` -/
  | uninitialized
  /-- the text of `convert_input_payload` -/
  | payload (text : String)
  /-- `Failed to send input: {error}` -/
  | failed (error : Client.SessionError)
  /-- `Failed to send input: {error}; reconnect: {retry}` -/
  | reconnectFailed (error retry : Client.SessionError)
  /-- `Failed to send input after reconnect: {retry}` -/
  | retryFailed (retry : Client.SessionError)
  | connection (error : Client.SessionError)
  | teardown (errors : List Client.SessionError)
  /-- `{error}\nCleanup failed: {errors}` -/
  | cleanup (error : CommandError) (errors : CommandError)

inductive Op
  | lockLifecycle (connects : Bool)
  | unlockLifecycle (disconnects : Bool)
  | setStopMedia (stop : Bool)
  /-- the section of `send_input_guarded` -/
  | guard
  /-- a new session, published -/
  | newSession
  | lockSession
  /-- the session is taken and the lock released -/
  | takeSession
  /-- the section of `cancel_connect` -/
  | cancelConnect
  | lockRuntime
  /-- `input` is the session of the `send_input` that does it, if one does -/
  | takeRuntime (input : Option SessionId)
  | storeRuntime (owner : SessionId) (input : Option SessionId)
  | unlockRuntime
  | readPairing (input : SessionId)
  | setPairing (id : String) (session : SessionId)
  /-- an event is written to the stream of a session -/
  | send (session : SessionId) (sender : Sender) (event : InputEventType)
  /-- an operation on a session -/
  | client (session : SessionId) (o : SessionCalls.Op)
  | await

def Reply : Op → Type
  | .guard => Except CommandError SessionId
  | .newSession => SessionId
  | .lockSession | .takeRuntime _ | .storeRuntime _ _ => Option SessionId
  | .readPairing _ => Option String
  | .send _ _ _ | .await => Answer
  | .client _ o => SessionCalls.Reply o
  | .lockLifecycle _ | .unlockLifecycle _ | .setStopMedia _ | .takeSession | .cancelConnect
  | .lockRuntime | .unlockRuntime | .setPairing _ _ => Unit

abbrev Program (α : Type) := Prog Op Reply CommandError α

/-! ### Operations -/

def invoke (o : Op) : Program (Reply o) := Prog.perform o

def await : Program Answer := invoke .await

/-- What has failed, as a result. -/
def resultOf : Answer → Except Client.SessionError Unit
  | .failed error => .error error
  | _ => .ok ()

def orRaise (f : Client.SessionError → CommandError) : Except Client.SessionError Unit → Program Unit
  | .ok _ => pure ()
  | .error error => .raise (f error)

/-- Something that may fail on the way to a connection. -/
def attempt : Program Unit := do orRaise .connection (resultOf (← await))

/-- A call of a session; what it comes to is its value. -/
def onSession {α : Type} (session : SessionId) :
    SessionCalls.Program α → Program (Except Client.SessionError α)
  | .ret a => .ret (.ok a)
  | .raise e => .ret (.error e)
  | .op o k => .op (.client session o) fun r => onSession session (k r)

/-- `map`, `transpose`. -/
def forSome (session : Option SessionId)
    (f : SessionId → Program (Except Client.SessionError Unit)) :
    Program (Except Client.SessionError Unit) :=
  match session with
  | some session => f session
  | none => pure (.ok ())

/-- `SessionRuntime::stop`; a runtime is known by its session. -/
def stop (runtime : SessionId) : Program (Except Client.SessionError Unit) :=
  onSession runtime SessionCalls.stop

/-- `ClientSession::send_input`. -/
def sessionSendInput (session : SessionId) (sender : Sender) (event : InputEventType) :
    Program (Except Client.SessionError Unit) := do
  -- the permissions
  match ← await with
  | .ok =>
    let state : SessionState ← invoke (.client session .readState)
    if state = .ready then
      let _ ← invoke (.client session .lockRuntime)
      let answer ← invoke (.send session sender event)
      invoke (.client session .unlockRuntime)
      return resultOf answer
    else return .error .notReady
  | _ => return .error .permissionDenied

/-! ### Input -/

/-- What the commands find outside of the state: how many rounds a connection may
take, and the trust that the store has for a pairing id. -/
structure Setting where
  rounds : ℕ
  stored : String → PairingTrust

def sendInputGuarded (payload : Except String InputEventType) :
    Program (SessionId × InputEventType) := do
  let guarded : Except CommandError SessionId ← invoke .guard
  match guarded with
  | .error error => .raise error
  | .ok session =>
    match payload with
    | .error text => .raise (.payload text)
    | .ok event => return (session, event)

/-- The runtime is taken out of its slot and stopped. -/
def stopRuntime (session : SessionId) : Program Unit := do
  invoke .lockRuntime
  let old : Option SessionId ← invoke (.takeRuntime (some session))
  let _ ← forSome old stop
  invoke .unlockRuntime

/-- The slot is set; what was in it is dropped, which stops it. -/
def storeRuntime (owner : SessionId) (input : Option SessionId) : Program Unit := do
  invoke .lockRuntime
  let old : Option SessionId ← invoke (.storeRuntime owner input)
  let _ ← forSome old stop
  invoke .unlockRuntime

def sendInput (setting : Setting) (payload : Except String InputEventType) : Program Unit := do
  let (session, event) ← sendInputGuarded payload
  match ← sessionSendInput session .command event with
  | .ok _ => pure ()
  | .error error =>
    if error.shouldReconnect then
      let pairing : Option String ← invoke (.readPairing session)
      match pairing with
      | none => .raise (.failed error)
      | some id =>
        stopRuntime session
        let trust := setting.stored id
        orRaise (.reconnectFailed error)
          (← onSession session (SessionCalls.reconnect setting.rounds trust))
        match ← onSession session SessionCalls.spawnTcpGeneration with
        | .ok _ => storeRuntime session (some session)
        | .error _ => pure ()
        orRaise .retryFailed (← sessionSendInput session .command event)
    else .raise (.failed error)

/-! ### Teardown -/

def resetSessionInputs (session : SessionId) : Program (Except Client.SessionError Unit) := do
  let state : SessionState ← invoke (.client session .readState)
  if state = .ready then sessionSendInput session .teardown .reset
  else return .ok ()

def errorOf : Except Client.SessionError Unit → Option Client.SessionError
  | .ok _ => none
  | .error error => some error

def disconnectWithStop : Program Unit := do
  invoke (.setStopMedia true)
  invoke .lockRuntime
  let tcp : Option SessionId ← invoke (.takeRuntime none)
  invoke .unlockRuntime
  let audioStopped ← await
  let session : Option SessionId ← invoke .lockSession
  let released ← forSome session resetSessionInputs
  invoke .takeSession
  let disconnected ← forSome session fun session => onSession session SessionCalls.disconnect
  let stopped ← forSome tcp stop
  -- the media worker
  let joined ← await
  match [released, resultOf audioStopped, disconnected, stopped, resultOf joined].filterMap errorOf
    with
  | [] => pure ()
  | errors => .raise (.teardown errors)

def disconnect : Program Unit := do
  invoke (.lockLifecycle false)
  let result ← disconnectWithStop.outcome
  invoke (.unlockLifecycle true)
  .ofExcept result

/-! ### Connecting -/

inductive Way
  | pin (trust : PairingTrust) | stored

/-- One way to connect; the id is that of the pairing it comes to. -/
structure Attempt where
  id : String
  way : Way

def authenticateClientSession (setting : Setting) (session : SessionId) (a : Attempt) :
    Program Unit := do
  -- the store
  attempt
  match a.way with
  | .pin trust =>
    orRaise .connection (← onSession session (SessionCalls.pairWithPinAs setting.rounds trust))
  | .stored =>
    orRaise .connection (← onSession session
      (SessionCalls.connectWithPairing setting.rounds (setting.stored a.id)))

def connectSession (setting : Setting) (a : Attempt) : Program Unit := do
  attempt
  let session : SessionId ← invoke .newSession
  authenticateClientSession setting session a
  -- the endpoint is remembered
  match ← await with
  | .failed error =>
    let _ ← onSession session SessionCalls.disconnect
    .raise (.connection error)
  | _ =>
    orRaise .connection (← onSession session SessionCalls.spawnTcpGeneration)
    storeRuntime session none
    -- the audio, and the request for a key frame
    let _ ← await
    -- `worker_stop_flag`
    invoke (.setStopMedia false)
    -- the media worker
    attempt
    invoke (.setPairing a.id session)

/-- The other pairings of the host, as long as they last. -/
def connectCandidates (setting : Setting) : List Attempt → Program Bool
  | [] => pure false
  | a :: candidates => do
    match ← (connectSession setting a).outcome with
    | .ok _ => return true
    | .error _ =>
      let _ ← disconnectWithStop.outcome
      connectCandidates setting candidates

/-- The last teardown; its errors are added to the first one. -/
def cleanup (error : CommandError) : Program Unit := do
  match ← disconnectWithStop.outcome with
  | .ok _ => .raise error
  | .error errors => .raise (.cleanup error errors)

def connectLocked (setting : Setting) (first : Attempt) (candidates : List Attempt) :
    Program Unit := do
  disconnectWithStop
  -- the PIN and the pairing
  attempt
  match ← (connectSession setting first).outcome with
  | .ok _ => pure ()
  | .error error =>
    let _ ← disconnectWithStop.outcome
    -- is it a pairing that was refused?
    let connected ← match ← await with
      | .ok => connectCandidates setting (candidates.take 2)
      | _ => pure false
    if connected then pure () else cleanup error

def connect (setting : Setting) (first : Attempt) (candidates : List Attempt) : Program Unit := do
  invoke (.lockLifecycle true)
  let result ← (connectLocked setting first candidates).outcome
  invoke (.unlockLifecycle false)
  .ofExcept result

/-! ### Threads -/

inductive Call
  | sendInput (payload : Except String InputEventType)
  | connect (first : Attempt) (candidates : List Attempt)
  | disconnect
  | cancelConnect
  /-- the supervisor of a runtime -/
  | automaticReconnect (session : SessionId) (trust : PairingTrust)
  /-- the worker of a runtime -/
  | generationEnds (session : SessionId)
  | sessionEnded (session : SessionId) (reason : SessionEndReason)

/-- What a thread runs for itself; nobody hears of an error. -/
def background (session : SessionId) (p : SessionCalls.Program Unit) : Program Unit := do
  let _ ← onSession session p

def program (setting : Setting) (calls : ℕ → Call) (t : ℕ) : Program Unit :=
  match calls t with
  | .sendInput payload => DesktopCommands.sendInput setting payload
  | .connect first candidates => DesktopCommands.connect setting first candidates
  | .disconnect => DesktopCommands.disconnect
  | .cancelConnect => invoke .cancelConnect
  | .automaticReconnect session trust =>
    background session (SessionCalls.automaticReconnect setting.rounds trust)
  | .generationEnds session => background session SessionCalls.generationEnds
  | .sessionEnded session reason => background session (SessionCalls.sessionEnded reason)

end DesktopCommands
end MahoRD

/-
MahoRD/Ios/ConnectionManager.lean

The connection of the iOS client (`createConnectionManager` in `ios-shell/ui/connection-state.js`),
with its cleanups and the periodic timer of the discovery.

A function runs up to an `await` before anything else does, but for one thing: where it tells its
listeners in the middle (`emit`), they may call it again.  What is then left of it stands in
`frames`, the innermost first, and `proceed` goes on with it; no promise is continued in between.
`tasks` are the native calls that are scheduled (`Promise.resolve().then(..)`), in their order.

Calls of `connect` are named by `ι`, calls of `pollStats` by `κ`, and a cleanup by the generation it
begins.  `native`, `disconnected` and `Cleanup.since` are not in the source: the last native connect
and how it ended, whether a native disconnect invoked after it has succeeded, and the native connect
before a native disconnect.
-/
import MahoRD.Ios.CleanupRetry

namespace MahoRD.Ios.Manager

/-! ### Calls -/

/-- Where a call of `connect` is: telling its listeners; before the native connect; before its
answer; before it goes on; before its `finally`. -/
inductive ConnectStage
  | starting
  | scheduled
  | native
  | settled (answer : Except String Unit)
  | leaving
  | done
  deriving DecidableEq

/-- The native connect is not settled. -/
def ConnectStage.unsettled : ConnectStage → Bool
  | starting | scheduled | native => true
  | _ => false

structure ConnectCall where
  generation : ℕ
  stage : ConnectStage

inductive CleanupStage
  | scheduled
  | native
  | answered (outcome : Except String Unit)
  | finished
  | done
  deriving DecidableEq

structure Cleanup (ι : Type*) where
  retainError : Bool
  connectToSettle : Option ι
  stage : CleanupStage
  since : Option ι

structure PollCall where
  generation : ℕ
  pending : Bool

/-- What `pollStats` reads of the statistics. -/
structure Stats where
  state : Option String
  connected : Option Bool
  lastError : Option String

def Stats.isTerminal (res : Stats) : Bool :=
  res.state = some "error" ∨ res.state = some "disconnected" ∨ res.connected = some false

def Stats.reason (res : Stats) : String :=
  if truthy res.lastError then res.lastError.getD ""
  else if res.state = some "disconnected" then "remote-closed" else "Remote session ended."

inductive Task (ι : Type*)
  | connect (c : ι)
  | disconnect (generation : ℕ)
  deriving DecidableEq

/-- What is left of a call that tells its listeners: of `connect`, which has told of `connecting`, of
its ownership, of its success and of its failure; of `pollStats`; and of `disconnectInternal`. -/
inductive Frame (ι : Type*)
  | connecting (c : ι)
  | owning (c : ι)
  | connected (c : ι)
  | connectFailed (c : ι)
  | pollFailed
  | disconnecting (generation : ℕ) (retainError : Bool) (connectToSettle : Option ι)

/-- In the middle of what takes or gives up the session. -/
def Frame.critical {ι : Type*} : Frame ι → Bool
  | connecting _ | owning _ | disconnecting .. => true
  | _ => false

inductive NativeConnect
  | pending | succeeded | failed
  deriving DecidableEq

section Machine

variable {ι κ : Type*}

structure State (ι κ : Type*) where
  hasNative : Bool
  state : UiState
  host : Option String
  generation : ℕ
  lastError : Option String
  cleanupError : Option String
  hasOwnedSession : Bool
  pendingConnect : Option ι
  pendingCleanup : Option ℕ
  isPeriodicEnabled : Bool
  isForeground : Bool
  periodicTimer : Bool
  connects : ι → Option ConnectCall
  polls : κ → Option PollCall
  cleanups : ℕ → Option (Cleanup ι)
  tasks : List (Task ι)
  frames : List (Frame ι)
  native : Option (ι × NativeConnect)
  disconnected : Bool

namespace State

def init (hasNative : Bool) : State ι κ where
  hasNative
  state := .idle
  host := none
  generation := 0
  lastError := none
  cleanupError := none
  hasOwnedSession := false
  pendingConnect := none
  pendingCleanup := none
  isPeriodicEnabled := false
  isForeground := true
  periodicTimer := false
  connects := fun _ => none
  polls := fun _ => none
  cleanups := fun _ => none
  tasks := []
  frames := []
  native := none
  disconnected := false

variable (s : State ι κ)

/-! The discovery. -/

def startPeriodicDiscovery : State ι κ :=
  { s with
    isPeriodicEnabled := true
    periodicTimer := s.isForeground ∧ s.state = .idle }

def stopPeriodicDiscovery : State ι κ :=
  { s with isPeriodicEnabled := false, periodicTimer := false }

def pauseDiscovery : State ι κ :=
  { s with isForeground := false, periodicTimer := false }

def resumeDiscovery : State ι κ :=
  { s with
    isForeground := true
    periodicTimer := s.isPeriodicEnabled ∧ s.state = .idle ∨ s.periodicTimer }

/-! The cleanups. -/

/-- Does `disconnectInternal` begin a cleanup? -/
def begins : Bool :=
  s.pendingCleanup.isNone ∧ (s.hasOwnedSession ∨ s.state ≠ .idle ∧ s.state ≠ .error)

/-- `disconnectInternal`, up to its `emit`. -/
def disconnectInternal (retainError : Bool) : State ι κ :=
  if s.pendingCleanup.isSome then s
  else if s.begins then
    { s with
      generation := s.generation + 1
      state := .disconnecting
      cleanupError := none
      lastError := if retainError then s.lastError else none
      frames := .disconnecting (s.generation + 1) retainError s.pendingConnect :: s.frames }
  else if s.state = .error ∧ ¬ retainError then { s with state := .idle, lastError := none }
  else s

def retryCleanup : State ι κ :=
  if s.pendingCleanup.isSome then s
  else if s.state = .cleanupFailed ∨ truthy s.cleanupError ∨ s.hasOwnedSession then
    let lastError :=
      if truthy s.lastError ∧ s.lastError = s.cleanupError then none else s.lastError
    { s with lastError }.disconnectInternal (truthy lastError)
  else s

def dismissError : State ι κ :=
  if s.hasOwnedSession ∨ s.state = .cleanupFailed then s.disconnectInternal false
  else
    { s with
      lastError := none
      cleanupError := none
      state := if s.state = .error then .idle else s.state }

def setCleanup (g : ℕ) (k : Cleanup ι) : State ι κ :=
  { s with cleanups := Function.update s.cleanups g (some k) }

/-- `disconnectInternal` from its `emit` on. -/
def beginCleanup (g : ℕ) (retainError : Bool) (connectToSettle : Option ι) : State ι κ :=
  { s.setCleanup g ⟨retainError, connectToSettle,
      if s.hasNative then .scheduled else .answered (.ok ()), none⟩ with
    tasks := if s.hasNative then s.tasks ++ [.disconnect g] else s.tasks
    pendingCleanup := some g }

/-- The cleanup has the answer of the native disconnect, and no connect to wait for. -/
def endCleanup (k : Cleanup ι) : Except String Unit → State ι κ
  | .error error =>
    { s with
      cleanupError := some error
      lastError := if truthy s.lastError then s.lastError else some error
      state := .cleanupFailed
      hasOwnedSession := true }
  | .ok () =>
    let s := { s with hasOwnedSession := false, cleanupError := none, host := none }
    if k.retainError ∧ truthy s.lastError then { s with state := .error }
    else
      let s := { s with state := .idle }
      if s.isPeriodicEnabled ∧ s.isForeground then s.startPeriodicDiscovery else s

/-! The connects. -/

/-- Does `connect` look at its request? -/
def accepts : Bool :=
  ¬ s.hasOwnedSession ∧ s.pendingCleanup.isNone ∧ s.pendingConnect.isNone ∧
    s.state ≠ .cleanupFailed

variable [DecidableEq ι] [DecidableEq κ]

def setConnect (c : ι) (call : ConnectCall) : State ι κ :=
  { s with connects := Function.update s.connects c (some call) }

def setPoll (k : κ) (call : PollCall) : State ι κ :=
  { s with polls := Function.update s.polls k (some call) }

/-- `connect`, up to its first `emit`.  `request`: the host of a valid one. -/
def connect (c : ι) (request : Except String String) : State ι κ :=
  if s.accepts then
    match request with
    | .error error => { s with lastError := some error }
    | .ok host =>
      { s.setConnect c ⟨s.generation + 1, .starting⟩ with
        periodicTimer := false
        generation := s.generation + 1
        state := .connecting
        host := some host
        lastError := none
        cleanupError := none
        frames := .connecting c :: s.frames }
  else s

/-- The `finally` of `connect`. -/
def leaveConnect (c : ι) (call : ConnectCall) : State ι κ :=
  { s.setConnect c { call with stage := .done } with
    pendingConnect := if s.pendingConnect = some c then none else s.pendingConnect }

/-- `connect` goes on when the native connect is settled. -/
def continueConnect (c : ι) (call : ConnectCall) (answer : Except String Unit) : State ι κ :=
  if call.generation ≠ s.generation then s.leaveConnect c call
  else
    match answer with
    | .ok () =>
      { s.setConnect c { call with stage := .leaving } with
        state := .waitingVideo
        frames := .connected c :: s.frames }
    | .error error =>
      { s.setConnect c { call with stage := .leaving } with
        state := .error
        lastError := some error
        frames := .connectFailed c :: s.frames }

/-- What was left in the middle goes on; `s` is without its frame. -/
def proceed : Frame ι → Option (State ι κ)
  | .connecting c =>
    (s.connects c).map fun call =>
      if s.hasNative then
        { s with hasOwnedSession := true, frames := .owning c :: s.frames }
      else
        { s.setConnect c { call with stage := .done } with
          state := .error
          lastError := some "Mobile connection controls are unavailable in this browser." }
  | .owning c =>
    (s.connects c).map fun call =>
      { s.setConnect c { call with stage := .scheduled } with
        tasks := s.tasks ++ [.connect c]
        pendingConnect := some c }
  | .connected c =>
    (s.connects c).bind fun call =>
      if call.stage = .leaving then some (s.leaveConnect c call) else none
  | .connectFailed _ => some (s.disconnectInternal true)
  | .pollFailed => some (s.disconnectInternal true)
  | .disconnecting g retainError connectToSettle =>
    some (s.beginCleanup g retainError connectToSettle)

/-! The native calls. -/

def runConnect (c : ι) (call : ConnectCall) : State ι κ :=
  { s.setConnect c { call with stage := .native } with
    native := some (c, .pending)
    disconnected := false }

def runDisconnect (g : ℕ) (k : Cleanup ι) : State ι κ :=
  s.setCleanup g { k with stage := .native, since := s.native.map (·.1) }

def connectSettled (c : ι) (call : ConnectCall) (answer : Except String Unit) : State ι κ :=
  { s.setConnect c { call with stage := .settled answer } with
    native := s.native.map fun n =>
      if n.1 = c then
        (c, match answer with
          | .ok () => .succeeded
          | .error _ => .failed)
      else n }

def disconnectSettled (g : ℕ) (k : Cleanup ι) (outcome : Except String Unit) : State ι κ :=
  { s.setCleanup g { k with stage := .answered outcome } with
    disconnected := s.disconnected ∨
      outcome.isOk ∧ k.since = s.native.map (·.1) }

/-- A cleanup goes on. -/
def goCleanup (g : ℕ) (k : Cleanup ι) : Option (State ι κ) :=
  match k.stage with
  | .answered outcome =>
    if k.connectToSettle.all fun c => (s.connects c).any (¬ ·.stage.unsettled) then
      some ((s.setCleanup g { k with stage := .finished }).endCleanup k outcome)
    else none
  | .finished =>
    some { s.setCleanup g { k with stage := .done } with
      pendingCleanup := if s.pendingCleanup = some g then none else s.pendingCleanup }
  | _ => none

/-! The statistics. -/

def pollStats (k : κ) : State ι κ :=
  if ¬ s.hasNative ∨ s.state ≠ .waitingVideo ∧ s.state ≠ .streaming then s
  else s.setPoll k ⟨s.generation, true⟩

/-- `pollStats` goes on; `none` is an answer that is not an object. -/
def pollSettled (k : κ) (call : PollCall) (answer : Except String (Option Stats)) : State ι κ :=
  let fail (error : String) : State ι κ :=
    { s.setPoll k { call with pending := false } with
      lastError := some error
      state := .error
      frames := .pollFailed :: s.frames }
  if call.generation ≠ s.generation then s.setPoll k { call with pending := false }
  else
    match answer with
    | .ok none => s.setPoll k { call with pending := false }
    | .ok (some res) =>
      if res.isTerminal then fail res.reason else s.setPoll k { call with pending := false }
    | .error error => fail error

def markFrameRendered (gen : ℕ) : State ι κ :=
  if gen = s.generation ∧ s.state = .waitingVideo then { s with state := .streaming } else s

end State

/-! ### The machine -/

inductive Label (ι κ : Type*)
  | connect (c : ι) (request : Except String String)
  | disconnect
  | retryCleanup
  | dismissError
  | pollStats (k : κ)
  | markFrameRendered (gen : ℕ)
  | startPeriodicDiscovery
  | stopPeriodicDiscovery
  | pauseDiscovery
  | resumeDiscovery
  | proceed
  | runTask
  | connectSettled (c : ι) (answer : Except String Unit)
  | continueConnect (c : ι)
  | leaveConnect (c : ι)
  | disconnectSettled (g : ℕ) (outcome : Except String Unit)
  | cleanup (g : ℕ)
  | pollSettled (k : κ) (answer : Except String (Option Stats))

variable [DecidableEq ι] [DecidableEq κ]

/-- The first of the scheduled native calls. -/
def runTask (s : State ι κ) : Option (State ι κ) :=
  match s.tasks with
  | [] => none
  | .connect c :: tasks =>
    (s.connects c).bind fun call =>
      if call.stage = .scheduled then some ({ s with tasks }.runConnect c call) else none
  | .disconnect g :: tasks =>
    (s.cleanups g).bind fun k =>
      if k.stage = .scheduled then some ({ s with tasks }.runDisconnect g k) else none

/-- One step.  Calls may come at any time, what is awaited only when no call is in its middle. -/
def step (s : State ι κ) : Label ι κ → Option (State ι κ)
  | .connect c request => if s.connects c = none then some (s.connect c request) else none
  | .disconnect => some (s.disconnectInternal false)
  | .retryCleanup => some s.retryCleanup
  | .dismissError => some s.dismissError
  | .pollStats k => if s.polls k = none then some (s.pollStats k) else none
  | .markFrameRendered gen => some (s.markFrameRendered gen)
  | .startPeriodicDiscovery => some s.startPeriodicDiscovery
  | .stopPeriodicDiscovery => some s.stopPeriodicDiscovery
  | .pauseDiscovery => some s.pauseDiscovery
  | .resumeDiscovery => some s.resumeDiscovery
  | .proceed =>
    match s.frames with
    | [] => none
    | frame :: frames => { s with frames }.proceed frame
  | .runTask => if s.frames = [] then runTask s else none
  | .connectSettled c answer =>
    if s.frames = [] then
      (s.connects c).bind fun call =>
        if call.stage = .native then some (s.connectSettled c call answer) else none
    else none
  | .continueConnect c =>
    if s.frames = [] then
      (s.connects c).bind fun call =>
        match call.stage with
        | .settled answer => some (s.continueConnect c call answer)
        | _ => none
    else none
  | .leaveConnect c =>
    -- After a failure `connect` awaits its cleanup first; here its `finally` may come earlier.
    if s.frames = [] then
      (s.connects c).bind fun call =>
        if call.stage = .leaving then some (s.leaveConnect c call) else none
    else none
  | .disconnectSettled g outcome =>
    if s.frames = [] then
      (s.cleanups g).bind fun k =>
        if k.stage = .native then some (s.disconnectSettled g k outcome) else none
    else none
  | .cleanup g => if s.frames = [] then (s.cleanups g).bind (s.goCleanup g) else none
  | .pollSettled k answer =>
    if s.frames = [] then
      (s.polls k).bind fun call =>
        if call.pending then some (s.pollSettled k call answer) else none
    else none

/-! ### A cleanup at once -/

omit [DecidableEq ι] [DecidableEq κ]

end Machine
end MahoRD.Ios.Manager

/-
MahoRD/Tauri/Connection.lean

The connection of the desktop client (`createConnection` in `tauri-shell/src/lib/connection.ts`).
There is one thread, but every `await` lets others in: a function is a sequence of steps, and
between two of them anything may happen.  A step ends where the source awaits, or where it calls
its listeners in the middle, for a listener may call anything.

Calls of `connect` are named by `ι` and calls of `refreshStats` by `κ`; of cleanups there is at
most one.  A native call is a step of its own, and its answer comes with a later label.  `native`
and `disconnected` are not in the source: the last native connect and how it ended, and whether a
native disconnect was invoked after it had.

`request` is a validated request.  What listeners and `localStorage` get is left out.
-/
import MahoRD.Lib.Machine

namespace MahoRD.Tauri

inductive Phase
  | reconnecting | gaveUp | ended | idle | unavailable | connecting | waitingVideo | streaming
  | disconnecting | error
  deriving DecidableEq

inductive StatsStatus
  | idle | loading | ready | error

structure HostInfo where
  ip : String
  name : String

/-- `secure_attention === true` and `clipboard_image === true` of an answer. -/
structure Capabilities where
  secureAttention : Bool
  clipboardImage : Bool
  deriving DecidableEq

def Capabilities.none : Capabilities := ⟨false, false⟩

structure Failure where
  text : String
  code : Option String
  deriving DecidableEq

/-- How a native connect ends; `none` is an answer that is not an object. -/
abbrev Answer := Except Failure (Option Capabilities)

/-- The fields of the statistics that decide something. -/
structure Stats where
  connected : Option Bool
  ended : Option String
  reconnect : Option String

/-- A message that counts as one. -/
def truthy (message : Option String) : Bool := message.any (· ≠ "")

/-! ### Calls -/

/-- Where a call of `connect` is: before the native connect; before its answer; before the answer is
noted; before the call goes on; before `get_stream_state`; before the answers of the native calls for
the saved choices. -/
inductive ConnectStage
  | scheduled
  | native
  | answered (answer : Answer)
  | resolved (answer : Answer)
  | waitingVideo
  | askingStream
  | settingBitrate
  | settingOptions
  | done
  deriving DecidableEq

/-- `operation` is settled. -/
def ConnectStage.settled : ConnectStage → Bool
  | scheduled | native | answered _ => false
  | _ => true

structure ConnectCall where
  generation : ℕ
  stage : ConnectStage

inductive CleanupStage
  | starting | releasing | cancelling | awaiting | disconnecting

/-- `generation`: the one the cleanup has begun. -/
structure Cleanup (ι : Type*) where
  generation : ℕ
  retry : Bool
  connectToSettle : Option ι
  interruptReconnect : Bool
  errors : List String
  stage : CleanupStage

/-- What a failure adds to the errors. -/
def Cleanup.note {ι : Type*} (k : Cleanup ι) : Except String Unit → Cleanup ι
  | .ok () => k
  | .error error => { k with errors := k.errors ++ [error] }

inductive StatsStage
  | scheduled | native | releasing | done
  deriving DecidableEq

structure StatsCall where
  generation : ℕ
  stage : StatsStage

inductive NativeConnect
  | pending | succeeded | failed
  deriving DecidableEq

section Machine

variable {ι κ : Type*}

structure State (ι κ : Type*) where
  nativeAvailable : Bool
  phase : Phase
  host : Option HostInfo
  fieldErrors : List (String × String)
  error : Option String
  errorCode : Option String
  cleanupError : Option String
  stats : Option Stats
  statsStatus : StatsStatus
  statsError : Option String
  generation : ℕ
  busy : Bool
  capabilities : Capabilities
  pendingConnect : Option ι
  pendingCleanup : Option (Cleanup ι)
  pendingStats : Option κ
  connectCapabilities : Capabilities
  connects : ι → Option ConnectCall
  refreshes : κ → Option StatsCall
  native : Option (ι × NativeConnect)
  disconnected : Bool

namespace State

def init (nativeAvailable : Bool) : State ι κ where
  nativeAvailable
  phase := if nativeAvailable then .idle else .unavailable
  host := none
  fieldErrors := []
  error := none
  errorCode := none
  cleanupError := none
  stats := none
  statsStatus := .idle
  statsError := none
  generation := 0
  busy := false
  capabilities := Capabilities.none
  pendingConnect := none
  pendingCleanup := none
  pendingStats := none
  connectCapabilities := Capabilities.none
  connects := fun _ => none
  refreshes := fun _ => none
  native := none
  disconnected := false

variable (s : State ι κ)

def clearStats : State ι κ :=
  { s with stats := none, statsStatus := .idle, statsError := none, pendingStats := none }

def isCurrent (token : ℕ) : Bool :=
  token = s.generation ∧ (s.phase = .waitingVideo ∨ s.phase = .streaming ∨
    s.phase = .reconnecting ∨ s.phase = .gaveUp ∨ s.phase = .ended)

/-- Does `cleanup` begin one? -/
def begins (retry : Bool) : Bool :=
  s.pendingCleanup.isNone ∧ (s.busy ∨ retry ∧ truthy s.cleanupError)

/-- `cleanup`, up to its first `await`. -/
def cleanup (retry : Bool) : State ι κ :=
  if s.begins retry then
    { s.clearStats with
      generation := s.generation + 1
      phase := .disconnecting
      cleanupError := none
      pendingCleanup := some ⟨s.generation + 1, retry, s.pendingConnect, s.phase = .reconnecting,
        [], .starting⟩ }
  else s

variable [DecidableEq ι] [DecidableEq κ]

def setConnect (c : ι) (call : ConnectCall) : State ι κ :=
  { s with connects := Function.update s.connects c (some call) }

def setStats (k : κ) (call : StatsCall) : State ι κ :=
  { s with refreshes := Function.update s.refreshes k (some call) }

def connect (c : ι) (request : Except (List (String × String)) HostInfo) : State ι κ :=
  if ¬ s.nativeAvailable ∨ s.busy then s
  else
    match request with
    | .error fieldErrors => { s with fieldErrors }
    | .ok host =>
      { s.clearStats.setConnect c ⟨s.generation + 1, .scheduled⟩ with
        generation := s.generation + 1
        phase := .connecting
        host := some host
        fieldErrors := []
        error := none
        errorCode := none
        cleanupError := none
        busy := true
        pendingConnect := some c }

/-- The native connect is settled. -/
def settle (c : ι) (call : ConnectCall) (answer : Answer) : State ι κ :=
  { s.setConnect c { call with stage := .answered answer } with
    native := s.native.map fun n =>
      if n.1 = c then
        (c, match answer with
          | .ok _ => .succeeded
          | .error _ => .failed)
      else n }

/-- `connectCapabilities` is written, and `operation` is settled. -/
def deliver (c : ι) (call : ConnectCall) (answer : Answer) : State ι κ :=
  { s.setConnect c { call with stage := .resolved answer } with
    connectCapabilities :=
      match answer with
      | .ok (some capabilities) => capabilities
      | _ => s.connectCapabilities }

/-- `connect` goes on after `await operation`. -/
def resume (c : ι) (call : ConnectCall) (answer : Answer) : State ι κ :=
  let s := { s with pendingConnect := if s.pendingConnect = some c then none else s.pendingConnect }
  if call.generation ≠ s.generation then s.setConnect c { call with stage := .done }
  else
    match answer with
    | .ok _ =>
      { s.setConnect c { call with stage := .waitingVideo } with
        capabilities := s.connectCapabilities
        phase := .waitingVideo }
    | .error failure =>
      { s.setConnect c { call with stage := .done } with
        error := some failure.text
        errorCode := failure.code }.cleanup false

/-- A saved choice fails. -/
def failChoices (c : ι) (call : ConnectCall) (error : String) : State ι κ :=
  { s.setConnect c { call with stage := .done } with
    statsError := some ("Saved stream choices: " ++ error) }

/-- The saved stream choices are sent, if there are any.  `saved`: what `JSON.parse` makes of them. -/
def sendOptions (c : ι) (call : ConnectCall) (saved : Option (Except String Unit)) : State ι κ :=
  match saved with
  | none => s.setConnect c { call with stage := .done }
  | some (.error error) => s.failChoices c call error
  | some (.ok ()) => s.setConnect c { call with stage := .settingOptions }

/-- `connect` goes on with the answer to `get_stream_state`: whether stream state is supported. -/
def streamState (c : ι) (call : ConnectCall) (answer : Except String Bool) (bitrate : Bool)
    (saved : Option (Except String Unit)) : State ι κ :=
  match answer with
  | .error error => s.failChoices c call error
  | .ok supported =>
    if call.generation ≠ s.generation then s.setConnect c { call with stage := .done }
    else if ¬ supported then s.setConnect c { call with stage := .done }
    else if bitrate then s.setConnect c { call with stage := .settingBitrate }
    else s.sendOptions c call saved

/-! The cleanup goes on. -/

def setCleanup (k : Cleanup ι) (stage : CleanupStage) : State ι κ :=
  { s with pendingCleanup := some { k with stage } }

def invokeDisconnect (k : Cleanup ι) : State ι κ :=
  { s.setCleanup k .disconnecting with
    disconnected := s.disconnected || s.native.all (·.2 ≠ .pending) }

def afterCancel (k : Cleanup ι) : State ι κ :=
  if k.connectToSettle.isSome then s.setCleanup k .awaiting else s.invokeDisconnect k

def afterRelease (k : Cleanup ι) : State ι κ :=
  if k.connectToSettle.isSome ∨ k.interruptReconnect then s.setCleanup k .cancelling
  else s.afterCancel k

def finishCleanup (k : Cleanup ι) : State ι κ :=
  let s := { s with busy := false, host := none, pendingCleanup := none }
  if k.errors ≠ [] then
    { s with cleanupError := some ("\n".intercalate k.errors), phase := .error }
  else { s with phase := if truthy s.error then .error else .idle }

/-- One more step of the cleanup; `outcome` is that of what it awaits. -/
def goCleanup (k : Cleanup ι) (outcome : Except String Unit) : Option (State ι κ) :=
  match k.stage with
  | .starting => some (if k.retry then s.afterRelease k else s.setCleanup k .releasing)
  | .releasing => some (s.afterRelease (k.note outcome))
  | .cancelling => some (s.afterCancel (k.note outcome))
  | .awaiting =>
    match k.connectToSettle.bind s.connects with
    | some call => if call.stage.settled then some (s.invokeDisconnect k) else none
    | none => none
  | .disconnecting => some (s.finishCleanup (k.note outcome))

/-! The statistics. -/

def refreshStats (k : κ) : State ι κ :=
  if ¬ s.isCurrent s.generation ∨ s.pendingStats.isSome then s
  else { s.setStats k ⟨s.generation, .scheduled⟩ with
    statsStatus := .loading
    statsError := none
    pendingStats := some k }

/-- The `finally` of a refresh. -/
def finishStats (k : κ) (call : StatsCall) : State ι κ :=
  { s.setStats k { call with stage := .done } with
    pendingStats := if s.pendingStats = some k then none else s.pendingStats }

/-- The `catch` of a refresh. -/
def failStats (k : κ) (call : StatsCall) (error : String) : State ι κ :=
  if s.isCurrent call.generation then
    { s with stats := none, statsStatus := .error, statsError := some error }.finishStats k call
  else s.finishStats k call

/-- A refresh goes on with the statistics. -/
def statsSettled (k : κ) (call : StatsCall) (answer : Except String (Option Stats)) : State ι κ :=
  match answer with
  | .error error => s.failStats k call error
  | .ok stats =>
    if ¬ s.isCurrent call.generation then s.finishStats k call
    else
      let ended := stats.bind Stats.ended
      let reconnect := stats.bind Stats.reconnect
      if truthy ended then
        { s.setStats k { call with stage := .releasing } with
          stats
          error := some ("Session ended: " ++ ended.getD "")
          phase := .ended }
      else if reconnect = some "reconnecting" ∨ reconnect = some "gave-up" then
        { s with
          stats
          phase := if reconnect = some "gave-up" then .gaveUp else .reconnecting
          statsStatus := .ready }.finishStats k call
      else
        let connected := stats.bind Stats.connected
        let s := if s.phase = .reconnecting ∧ connected = some true then
          { s with phase := .waitingVideo } else s
        if connected = some false then
          ({ s with error := some "Remote session ended." }.cleanup false).finishStats k call
        else { s with stats, statsStatus := .ready }.finishStats k call

def markFrameRendered (token : ℕ) : State ι κ :=
  if s.isCurrent token ∧ s.phase = .waitingVideo then { s with phase := .streaming } else s

def reportFrameError (token : ℕ) (error : String) : State ι κ :=
  if ¬ s.isCurrent token ∨ s.phase = .reconnecting ∨ s.phase = .gaveUp ∨ s.phase = .ended then s
  else { s with error := some error }.cleanup false

end State

/-! ### The machine -/

/-- `answered`: the native connect is settled.  `streamState`: whether `localStorage` has a bitrate
in range is read with the answer, and so are the saved choices, then or after `set_bitrate`. -/
inductive Label (ι κ : Type*)
  | connect (c : ι) (request : Except (List (String × String)) HostInfo)
  | runConnect (c : ι)
  | answered (c : ι) (answer : Answer)
  | deliver (c : ι)
  | resume (c : ι)
  | askStream (c : ι) (storage : Bool)
  | streamState (c : ι) (answer : Except String Bool) (bitrate : Bool)
      (saved : Option (Except String Unit))
  | bitrateSet (c : ι) (answer : Except String Unit) (saved : Option (Except String Unit))
  | optionsSet (c : ι) (answer : Except String Unit)
  | cancel
  | disconnect
  | retryCleanup
  | cleanup (outcome : Except String Unit)
  | refreshStats (k : κ)
  | runStats (k : κ)
  | statsSettled (k : κ) (answer : Except String (Option Stats))
  | inputsReleased (k : κ) (outcome : Except String Unit)
  | markFrameRendered (token : ℕ)
  | reportFrameError (token : ℕ) (error : String)

variable [DecidableEq ι] [DecidableEq κ]

/-- One step of a call of `connect`. -/
def stepConnect (s : State ι κ) (call : ConnectCall) : Label ι κ → Option (State ι κ)
  | .runConnect c =>
    match call.stage with
    | .scheduled => some { s.setConnect c { call with stage := .native } with
        native := some (c, .pending)
        disconnected := false }
    | _ => none
  | .answered c answer =>
    match call.stage with
    | .native => some (s.settle c call answer)
    | _ => none
  | .deliver c =>
    match call.stage with
    | .answered answer => some (s.deliver c call answer)
    | _ => none
  | .resume c =>
    match call.stage with
    | .resolved answer => some (s.resume c call answer)
    | _ => none
  | .askStream c storage =>
    match call.stage with
    | .waitingVideo =>
      some (s.setConnect c { call with stage := if storage then .askingStream else .done })
    | _ => none
  | .streamState c answer bitrate saved =>
    match call.stage with
    | .askingStream => some (s.streamState c call answer bitrate saved)
    | _ => none
  | .bitrateSet c answer saved =>
    match call.stage, answer with
    | .settingBitrate, .ok () => some (s.sendOptions c call saved)
    | .settingBitrate, .error error => some (s.failChoices c call error)
    | _, _ => none
  | .optionsSet c answer =>
    match call.stage, answer with
    | .settingOptions, .ok () => some (s.setConnect c { call with stage := .done })
    | .settingOptions, .error error => some (s.failChoices c call error)
    | _, _ => none
  | _ => none

/-- One step of a refresh. -/
def stepStats (s : State ι κ) (call : StatsCall) : Label ι κ → Option (State ι κ)
  | .runStats k =>
    match call.stage with
    | .scheduled => some (s.setStats k { call with stage := .native })
    | _ => none
  | .statsSettled k answer =>
    match call.stage with
    | .native => some (s.statsSettled k call answer)
    | _ => none
  | .inputsReleased k outcome =>
    match call.stage, outcome with
    | .releasing, .ok () => some (s.finishStats k call)
    | .releasing, .error error => some (s.failStats k call error)
    | _, _ => none
  | _ => none

/-- The call of `connect` a label is about. -/
def Label.connect? : Label ι κ → Option ι
  | runConnect c | answered c _ | deliver c | resume c | askStream c _ | streamState c _ _ _
  | bitrateSet c _ _ | optionsSet c _ => some c
  | _ => none

/-- The refresh a label is about. -/
def Label.stats? : Label ι κ → Option κ
  | runStats k | statsSettled k _ | inputsReleased k _ => some k
  | _ => none

def step (s : State ι κ) : Label ι κ → Option (State ι κ)
  | .connect c request => if s.connects c = none then some (s.connect c request) else none
  | .cancel => some (s.cleanup (truthy s.cleanupError))
  | .disconnect => some (s.cleanup (truthy s.cleanupError))
  | .retryCleanup => some (if truthy s.cleanupError then s.cleanup true else s)
  | .cleanup outcome => s.pendingCleanup.bind fun k => s.goCleanup k outcome
  | .refreshStats k => if s.refreshes k = none then some (s.refreshStats k) else none
  | .markFrameRendered token => some (s.markFrameRendered token)
  | .reportFrameError token error => some (s.reportFrameError token error)
  | label =>
    match label.connect?, label.stats? with
    | some c, _ => (s.connects c).bind fun call => stepConnect s call label
    | none, some k => (s.refreshes k).bind fun call => stepStats s call label
    | none, none => none

end Machine
end MahoRD.Tauri

/-
MahoRD/App/Supervisor.lean

The supervisor of a client session (the thread of `spawn_tcp_runtime` in
`maho-app/src/session.rs`) with the worker of the current TCP generation, under
interrupts, stops and changes of the pairing by other threads.

The supervisor forwards what the generation delivers.  When the generation fails
it decides whether to connect again, and does so until it succeeds, is refused,
is told to end, or has run out of time.  It decides by the error, by the flag
`cancelled`, by the recorded end of the session and by the trust of the pairing;
it reads each of them at a moment of its own.

A step is one lock section, one access to a flag, or one wait.  Beside the state
of the program it is recorded what was reported, delivered and forwarded, and for
every attempt to connect again what the supervisor knew of it.
-/
import MahoRD.App.RuntimeEvents
import MahoRD.Lib.Machine

namespace MahoRD.Supervision

/-- The worker of a generation.  A `SessionEnded` is handled in three steps after
its first section, and reported in a fourth. -/
inductive Worker
  | running
  | interrupting (reason : SessionEndReason)
  | dropping (reason : SessionEndReason)
  | reporting (reason : SessionEndReason)
  | cleaning
  | closing
  | done
  deriving DecidableEq

/-- A reconnect under way: the error that is reported if it comes to nothing, the
one that has led to the next attempt, and the trust of the pairing in use. -/
structure Retry where
  error : Client.SessionError
  cause : Client.SessionError
  trust : PairingTrust

/-- Where the supervisor is. -/
inductive Supervisor
  -- the top of the loop; then with the flag to read, and, if it is set, the end
  | top
  | topFlag
  | topEnded
  | receiving
  | forwarding (event : SessionEvent)
  -- the generation has failed, is stopped and joined
  | stopping (error : Client.SessionError)
  | joining (error : Client.SessionError)
  | reading (error : Client.SessionError)
  | looking (error : Client.SessionError) (pairing : Option PairingTrust)
  | lookingEnded (error : Client.SessionError) (pairing : Option PairingTrust)
  | deciding (error : Client.SessionError) (pairing : Option PairingTrust)
  -- the loop of the attempts
  | retrying (r : Retry)
  | waiting (r : Retry)
  | checking (r : Retry) (found : Bool)
  | attempting (r : Retry)
  | refused (r : Retry)
  | attempted (r : Retry) (result : Except Client.SessionError Unit)
  | spawning (r : Retry)
  -- the error is reported
  | failing (error : Client.SessionError)
  -- the end
  | finishing
  | joiningLast
  | closing
  | done

/-- Has the loop been left? -/
def Supervisor.over : Supervisor → Bool
  | finishing | joiningLast | closing | done => true
  | _ => false

/-- An attempt to connect again: its cause, the trust of the pairing, whether a
`SessionEnded` had come on the connection that failed, and what the last check
has found: a stop or a cancellation while it waited, or the flag. -/
structure Attempt where
  cause : Client.SessionError
  trust : PairingTrust
  ended : Bool
  found : Bool
  cancelled : Bool

structure State where
  client : ClientState
  cancelled : Bool
  stopRequested : Bool
  worker : Worker
  generationStop : Bool
  events : RuntimeEvents
  output : RuntimeEvents
  supervisor : Supervisor
  /-- somebody has interrupted the session -/
  interrupted : Bool
  /-- a `SessionEnded` has come on the current connection -/
  received : Bool
  /-- by the workers of all generations -/
  reported : List SessionEvent
  /-- to the supervisor -/
  delivered : List SessionEvent
  forwarded : List Item
  drained : List Item
  attempts : List Attempt

/-- A runtime is spawned on a session that is connected; connecting has taken back
the end of an earlier one. -/
def start (client : ClientState) : State where
  client := { client with ended := none }
  cancelled := false
  stopRequested := false
  worker := .running
  generationStop := false
  events := .new
  output := .new
  supervisor := .top
  interrupted := false
  received := false
  reported := []
  delivered := []
  forwarded := []
  drained := []
  attempts := []

/-! ### The worker -/

inductive WorkerStep
  | event (event : SessionEvent)
  | fail (error : Client.SessionError)
  | sessionEnded (reason : SessionEndReason)
  | stop
  | next
  | close (error : Option Client.SessionError)

/-- An event is pushed for the supervisor. -/
def State.report (x : State) (event : SessionEvent) : State :=
  { x with events := x.events.push (.ok event), reported := x.reported ++ [event] }

def workerStep (x : State) : WorkerStep → Option State
  -- a packet is handled; what is to be ignored is not pushed
  | .event event =>
    if x.worker = .running ∧ x.client.state = .ready ∧ Item.verdict (.ok event) = false then
      some (x.report event)
    else none
  | .fail error =>
    if x.worker = .running then
      some { x with events := x.events.push (.error error), worker := .cleaning }
    else none
  | .sessionEnded reason =>
    if x.worker = .running ∧ x.client.state = .ready then
      some { x with
        client := x.client.sessionEnded reason, received := true
        worker := .interrupting reason }
    else none
  -- the stop is seen before the next read, or before a push
  | .stop =>
    if x.generationStop then
      match x.worker with
      | .running | .reporting _ => some { x with worker := .cleaning }
      | _ => none
    else none
  | .next =>
    match x.worker with
    | .interrupting reason => some { x with cancelled := true, worker := .dropping reason }
    | .dropping reason => some { x with client := x.client.dropped, worker := .reporting reason }
    | .reporting reason =>
      some { x.report (.streamConfig (.sessionEnded ⟨reason⟩)) with worker := .running }
    | .cleaning => some { x with client := x.client.dropped, worker := .closing }
    | .running | .closing | .done => none
  | .close error =>
    if x.worker = .closing then
      some { x with
        events := (match error with
          | some error => x.events.push (.error error)
          | none => x.events).close
        worker := .done }
    else none

/-! ### The supervisor -/

/-- What ends the wait before an attempt. -/
inductive Wake
  | stopped | cancelled | slept

/-- The sections of `connect_with_pairing`. -/
inductive Section
  | clearEnded
  | connecting
  | entered (next : SessionState)
  | handshaking (trust : PairingTrust)
  | granted (trust : PairingTrust)
  | ready (guest : Bool)

def Section.run (s : ClientState) : Section → ClientState
  | .clearEnded => { s with ended := none }
  | .connecting => s.connecting
  | .entered next => s.entered next
  | .handshaking trust => s.handshaking trust
  | .granted trust => s.granted trust
  | .ready guest => s.ready guest

inductive SupervisorStep
  | next
  /-- the time for another attempt is up, or there is no runtime to wait on -/
  | expire
  | wake (wake : Wake)
  | connecting (s : Section)
  /-- `SessionEnded` instead of a trust -/
  | refuse (reason : SessionEndReason)
  | connect (result : Except Client.SessionError Unit)
  | spawn (result : Except Client.SessionError Unit)

namespace State

def goto (x : State) (supervisor : Supervisor) : State := { x with supervisor }

/-- An item is pushed to the output. -/
def forward (x : State) (item : Item) : State :=
  { x with output := x.output.push item, forwarded := x.forwarded ++ [item] }

/-- The events of the generation are waited for. -/
def receive (x : State) : State :=
  match x.events.recvTimeout with
  | (.ok (.ok event), events) =>
    { x with events, delivered := x.delivered ++ [event], supervisor := .forwarding event }
  | (.error .timeout, _) => x.goto .top
  | (.ok (.error error), events) => { x with events, supervisor := .stopping error }
  | (.error .disconnected, _) => x.goto (.stopping .tcpRuntimeStopped)

/-- An attempt begins. -/
def attempt (x : State) (r : Retry) (found : Bool) : State :=
  { x with
    attempts := x.attempts ++ [⟨r.cause, r.trust, x.received, found, x.cancelled⟩]
    received := false, supervisor := .attempting r }

end State

def supervisorNext (x : State) : Option State :=
  match x.supervisor with
  | .top => some (x.goto (if x.stopRequested then .finishing else .topFlag))
  | .topFlag => some (x.goto (if x.cancelled then .topEnded else .receiving))
  | .topEnded => some (x.goto (if x.client.ended.isNone then .finishing else .receiving))
  | .receiving => some x.receive
  | .forwarding event =>
    some ((x.forward (.ok event)).goto
      (if Item.verdict (.ok event) then .finishing else .top))
  | .stopping error => some ({ x with generationStop := true }.goto (.joining error))
  | .joining error => if x.worker = .done then some (x.goto (.reading error)) else none
  | .reading error =>
    some (x.goto (.looking error (if x.client.ended.isSome then none else x.client.trust)))
  | .looking error pairing =>
    some (x.goto (if x.cancelled then .lookingEnded error pairing else .deciding error pairing))
  | .lookingEnded error pairing =>
    some (x.goto (if x.client.ended.isNone then .finishing else .deciding error pairing))
  | .deciding error pairing =>
    if x.cancelled || !error.shouldReconnect then some (x.goto (.failing error))
    else
      match pairing with
      | none | some .guestOnce => some (x.goto (.failing error))
      | some trust => some (x.goto (.retrying ⟨error, error, trust⟩))
  | .retrying r => some (x.goto (.waiting r))
  | .checking r found =>
    some (if found || x.cancelled then x.goto (.failing r.error) else x.attempt r found)
  | .refused r => some ({ x with cancelled := true }.goto (.attempted r (.error .permissionDenied)))
  | .attempted r (.ok _) => some (x.goto (.spawning r))
  | .attempted r (.error error) =>
    some (x.goto (if error.shouldReconnect then .retrying { r with cause := error }
      else .failing r.error))
  | .failing error => some ((x.forward (.error error)).goto .finishing)
  | .finishing => some ({ x with generationStop := true }.goto .joiningLast)
  | .joiningLast => if x.worker = .done then some (x.goto .closing) else none
  | .closing => some ({ x with output := x.output.close }.goto .done)
  | .waiting _ | .attempting _ | .spawning _ | .done => none

def supervisorStep (x : State) : SupervisorStep → Option State
  | .next => supervisorNext x
  | .expire =>
    match x.supervisor with
    | .retrying r => some (x.goto (.failing r.error))
    | _ => none
  | .wake wake =>
    match x.supervisor, wake with
    | .waiting r, .stopped => if x.stopRequested then some (x.goto (.checking r true)) else none
    | .waiting r, .cancelled => if x.cancelled then some (x.goto (.checking r true)) else none
    | .waiting r, .slept => some (x.goto (.checking r false))
    | _, _ => none
  | .connecting s =>
    match x.supervisor with
    | .attempting _ => some { x with client := s.run x.client }
    | _ => none
  | .refuse reason =>
    match x.supervisor with
    | .attempting r =>
      some ({ x with client := { x.client with ended := some reason }, received := true }.goto
        (.refused r))
    | _ => none
  | .connect result =>
    match x.supervisor with
    | .attempting r => some (x.goto (.attempted r result))
    | _ => none
  | .spawn result =>
    match x.supervisor, result with
    | .spawning _, .ok _ =>
      if x.client.state = .ready then
        some ({ x with worker := .running, events := .new, generationStop := false }.goto .top)
      else none
    | .spawning r, .error _ => some (x.goto (.failing r.error))
    | _, _ => none

/-! ### All threads -/

inductive Action
  | supervisor (a : SupervisorStep)
  | worker (a : WorkerStep)
  | interrupt
  | stop
  | disconnect
  | setTrust (trust : Option PairingTrust)
  /-- the listener takes an item -/
  | drain

def step (x : State) : Action → Option State
  | .supervisor a => supervisorStep x a
  | .worker a => workerStep x a
  | .interrupt => some { x with cancelled := true, interrupted := true }
  | .stop => some { x with stopRequested := true }
  | .disconnect => some { x with client := x.client.disconnect }
  | .setTrust trust => some { x with client := { x.client with trust } }
  | .drain =>
    match x.output.take with
    | none => none
    | some (item, output) => some { x with output, drained := x.drained ++ [item] }

/-! ### What a step can do -/

/-- The moves of the supervisor that change nothing but where it is. -/
inductive Move (x : State) : Supervisor → Supervisor → Prop
  | stopped (hstop : x.stopRequested = true) : Move x .top .finishing
  | goOn : Move x .top .topFlag
  | flagged (hcancelled : x.cancelled = true) : Move x .topFlag .topEnded
  | unflagged : Move x .topFlag .receiving
  | leave (hended : x.client.ended.isNone = true) : Move x .topEnded .finishing
  | stay : Move x .topEnded .receiving
  | joined {error} (hdone : x.worker = .done) : Move x (.joining error) (.reading error)
  | read {error} : Move x (.reading error)
      (.looking error (if x.client.ended.isSome then none else x.client.trust))
  | lookFlagged {error pairing} (hcancelled : x.cancelled = true) :
      Move x (.looking error pairing) (.lookingEnded error pairing)
  | lookUnflagged {error pairing} : Move x (.looking error pairing) (.deciding error pairing)
  | lookLeave {error pairing} (hended : x.client.ended.isNone = true) :
      Move x (.lookingEnded error pairing) .finishing
  | lookStay {error pairing} : Move x (.lookingEnded error pairing) (.deciding error pairing)
  | give {error pairing} : Move x (.deciding error pairing) (.failing error)
  | retry {error trust} (hworth : error.shouldReconnect = true) (htrust : trust ≠ .guestOnce) :
      Move x (.deciding error (some trust)) (.retrying ⟨error, error, trust⟩)
  | wait {r} : Move x (.retrying r) (.waiting r)
  | expire {r} : Move x (.retrying r) (.failing r.error)
  | wake {r found} : Move x (.waiting r) (.checking r found)
  | caught {r found} : Move x (.checking r found) (.failing r.error)
  | connect {r result} : Move x (.attempting r) (.attempted r result)
  | success {r} : Move x (.attempted r (.ok ())) (.spawning r)
  | again {r error} (hworth : error.shouldReconnect = true) :
      Move x (.attempted r (.error error)) (.retrying { r with cause := error })
  | giveUp {r error} : Move x (.attempted r (.error error)) (.failing r.error)
  | unspawned {r} : Move x (.spawning r) (.failing r.error)
  | joinedLast (hdone : x.worker = .done) : Move x .joiningLast .closing

/-- A step of the supervisor: a move, or what it does at the places where it does
something. -/
inductive Turn (x : State) : State → Prop
  | goto {q p} (hpc : x.supervisor = q) (hmove : Move x q p) : Turn x (x.goto p)
  | receive (hpc : x.supervisor = .receiving) : Turn x x.receive
  | forward {event} (hpc : x.supervisor = .forwarding event) :
      Turn x ((x.forward (.ok event)).goto
        (if Item.verdict (.ok event) then .finishing else .top))
  | fail {error} (hpc : x.supervisor = .failing error) :
      Turn x ((x.forward (.error error)).goto .finishing)
  | stop {error} (hpc : x.supervisor = .stopping error) :
      Turn x ({ x with generationStop := true }.goto (.joining error))
  | stopLast (hpc : x.supervisor = .finishing) :
      Turn x ({ x with generationStop := true }.goto .joiningLast)
  | close (hpc : x.supervisor = .closing) :
      Turn x ({ x with output := x.output.close }.goto .done)
  | attempt {r} (hpc : x.supervisor = .checking r false) (hcancelled : x.cancelled = false) :
      Turn x (x.attempt r false)
  | connecting {r} (hpc : x.supervisor = .attempting r) (client : ClientState) :
      Turn x { x with client }
  | refuse {r} (hpc : x.supervisor = .attempting r) (reason : SessionEndReason) :
      Turn x ({ x with client := { x.client with ended := some reason }, received := true }.goto
        (.refused r))
  | refused {r} (hpc : x.supervisor = .refused r) :
      Turn x ({ x with cancelled := true }.goto (.attempted r (.error .permissionDenied)))
  | spawn {r} (hpc : x.supervisor = .spawning r) :
      Turn x ({ x with worker := .running, events := .new, generationStop := false }.goto .top)

variable {x x' : State}

theorem supervisorNext_cases (hs : supervisorNext x = some x') : Turn x x' := by
  unfold supervisorNext at hs
  cases hpc : x.supervisor with
  | waiting | attempting | spawning | done =>
    rw [hpc] at hs
    cases hs
  | receiving =>
    rw [hpc] at hs
    cases hs
    exact .receive hpc
  | forwarding event =>
    rw [hpc] at hs
    cases hs
    exact .forward hpc
  | failing error =>
    rw [hpc] at hs
    cases hs
    exact .fail hpc
  | stopping error =>
    rw [hpc] at hs
    cases hs
    exact .stop hpc
  | finishing =>
    rw [hpc] at hs
    cases hs
    exact .stopLast hpc
  | closing =>
    rw [hpc] at hs
    cases hs
    exact .close hpc
  | refused r =>
    rw [hpc] at hs
    cases hs
    exact .refused hpc
  | top =>
    rw [hpc] at hs
    cases hs
    split
    next hstop => exact .goto hpc (.stopped hstop)
    · exact .goto hpc .goOn
  | topFlag =>
    rw [hpc] at hs
    cases hs
    split
    next hcancelled => exact .goto hpc (.flagged hcancelled)
    · exact .goto hpc .unflagged
  | topEnded =>
    rw [hpc] at hs
    cases hs
    split
    next hended => exact .goto hpc (.leave hended)
    · exact .goto hpc .stay
  | joining error =>
    simp only [hpc] at hs
    split at hs
    next hdone =>
      cases hs
      exact .goto hpc (.joined hdone)
    · cases hs
  | joiningLast =>
    simp only [hpc] at hs
    split at hs
    next hdone =>
      cases hs
      exact .goto hpc (.joinedLast hdone)
    · cases hs
  | reading error =>
    rw [hpc] at hs
    cases hs
    exact .goto hpc .read
  | looking error pairing =>
    rw [hpc] at hs
    cases hs
    split
    next hcancelled => exact .goto hpc (.lookFlagged hcancelled)
    · exact .goto hpc .lookUnflagged
  | lookingEnded error pairing =>
    rw [hpc] at hs
    cases hs
    split
    next hended => exact .goto hpc (.lookLeave hended)
    · exact .goto hpc .lookStay
  | deciding error pairing =>
    simp only [hpc] at hs
    split at hs
    · cases hs
      exact .goto hpc .give
    next hc =>
      split at hs
      · cases hs
        exact .goto hpc .give
      · cases hs
        exact .goto hpc .give
      next trust htrust =>
        cases hs
        have hworth : x.cancelled = false ∧ error.shouldReconnect = true := by simpa using hc
        exact .goto hpc (.retry hworth.2 htrust)
  | retrying r =>
    rw [hpc] at hs
    cases hs
    exact .goto hpc .wait
  | checking r found =>
    rw [hpc] at hs
    cases hs
    split
    · exact .goto hpc .caught
    next hc =>
      obtain ⟨rfl, hcancelled⟩ := Bool.or_eq_false_iff.mp (by simpa using hc)
      exact .attempt hpc hcancelled
  | attempted r result =>
    cases result with
    | ok _ =>
      rw [hpc] at hs
      cases hs
      exact .goto hpc .success
    | error error =>
      rw [hpc] at hs
      cases hs
      split
      next hworth => exact .goto hpc (.again hworth)
      · exact .goto hpc .giveUp

theorem supervisorStep_cases {a : SupervisorStep}
    (hs : supervisorStep x a = some x') : Turn x x' := by
  cases a with
  | next => exact supervisorNext_cases hs
  | expire =>
    simp only [supervisorStep] at hs
    split at hs
    next hpc =>
      cases hs
      exact .goto hpc .expire
    · cases hs
  | wake wake =>
    simp only [supervisorStep] at hs
    split at hs
    next hpc =>
      split at hs
      · cases hs
        exact .goto hpc .wake
      · cases hs
    next hpc =>
      split at hs
      · cases hs
        exact .goto hpc .wake
      · cases hs
    next hpc =>
      cases hs
      exact .goto hpc .wake
    · cases hs
  | connecting s =>
    simp only [supervisorStep] at hs
    split at hs
    next hpc =>
      cases hs
      exact .connecting hpc _
    · cases hs
  | refuse reason =>
    simp only [supervisorStep] at hs
    split at hs
    next hpc =>
      cases hs
      exact .refuse hpc reason
    · cases hs
  | connect result =>
    simp only [supervisorStep] at hs
    split at hs
    next hpc =>
      cases hs
      exact .goto hpc .connect
    · cases hs
  | spawn result =>
    simp only [supervisorStep] at hs
    split at hs
    next hpc =>
      split at hs
      · cases hs
        exact .spawn hpc
      · cases hs
    next hpc =>
      cases hs
      exact .goto hpc .unspawned
    · cases hs

/-- A step of the worker, and the place it is taken from. -/
inductive WorkerTurn (x : State) : State → Prop
  | event (hw : x.worker = .running) (event : SessionEvent) : WorkerTurn x (x.report event)
  | fail (hw : x.worker = .running) (error : Client.SessionError) :
      WorkerTurn x { x with events := x.events.push (.error error), worker := .cleaning }
  | sessionEnded (hw : x.worker = .running) (reason : SessionEndReason) :
      WorkerTurn x { x with
        client := x.client.sessionEnded reason, received := true
        worker := .interrupting reason }
  | interrupt {reason} (hw : x.worker = .interrupting reason) :
      WorkerTurn x { x with cancelled := true, worker := .dropping reason }
  | drop {reason} (hw : x.worker = .dropping reason) :
      WorkerTurn x { x with client := x.client.dropped, worker := .reporting reason }
  | report {reason} (hw : x.worker = .reporting reason) :
      WorkerTurn x { x.report (.streamConfig (.sessionEnded ⟨reason⟩)) with worker := .running }
  | stop (hw : x.worker ≠ .done) : WorkerTurn x { x with worker := .cleaning }
  | clean (hw : x.worker = .cleaning) :
      WorkerTurn x { x with client := x.client.dropped, worker := .closing }
  | close (hw : x.worker = .closing) (error : Option Client.SessionError) :
      WorkerTurn x { x with
        events := (match error with
          | some error => x.events.push (.error error)
          | none => x.events).close
        worker := .done }

theorem workerStep_cases {a : WorkerStep} (hs : workerStep x a = some x') :
    WorkerTurn x x' := by
  cases a with
  | event event =>
    simp only [workerStep] at hs
    split at hs
    next hc =>
      cases hs
      exact .event hc.1 event
    · cases hs
  | fail error =>
    simp only [workerStep] at hs
    split at hs
    next hw =>
      cases hs
      exact .fail hw error
    · cases hs
  | sessionEnded reason =>
    simp only [workerStep] at hs
    split at hs
    next hc =>
      cases hs
      exact .sessionEnded hc.1 reason
    · cases hs
  | stop =>
    simp only [workerStep] at hs
    split at hs
    · split at hs
      next hw =>
        cases hs
        exact .stop (by simp [hw])
      next hw =>
        cases hs
        exact .stop (by simp [hw])
      · cases hs
    · cases hs
  | next =>
    simp only [workerStep] at hs
    split at hs
    next hw =>
      cases hs
      exact .interrupt hw
    next hw =>
      cases hs
      exact .drop hw
    next hw =>
      cases hs
      exact .report hw
    next hw =>
      cases hs
      exact .clean hw
    · cases hs
    · cases hs
    · cases hs
  | close error =>
    simp only [workerStep] at hs
    split at hs
    next hw =>
      cases hs
      exact .close hw error
    · cases hs

end MahoRD.Supervision

/-
MahoRD/Ios/Lifecycle.lean

Connects, disconnects and terminal events of one `AppState` (`ios-shell/src/state.rs`), interleaved
at their locked sections and at their accesses to flags.  A thread runs `connect_async`,
`disconnect_async`, or is a worker of a session, which may end or call `handle_terminal_shutdown`
at any time.

The commands take the lifecycle lock in the order in which they ask for it.  What a connect does
with the network and the store may fail, and so may the cleanup of a session; what is to be said is
then part of the label.  A join waits for the worker.
-/
import MahoRD.Ios.Session
import MahoRD.Lib.Machine

namespace MahoRD.Ios.Lifecycle

/-! ### Threads -/

inductive Worker
  | supervisor | audio | media
  deriving DecidableEq

/-- The state that a worker reports. -/
def Worker.target : Worker → ConnectionState
  | supervisor => .disconnected
  | audio | media => .error

/-- What `handle_terminal_shutdown` is called with. -/
structure Event where
  generation : ℕ
  target : ConnectionState
  reason : Option String
  deriving DecidableEq

/-- What a command returns.  A cancel is that of a disconnect. -/
inductive Outcome
  | ok
  | cancelled (canceller : ℕ)
  | superseded
  | cleanupFailed (e : String)
  | failed (e : String)
  deriving DecidableEq

inductive Call
  | connect (host : String)
  | disconnect
  deriving DecidableEq

/-- Who waits for a teardown: the two commands, a connect that fails with `e`, or a worker. -/
inductive Caller
  | disconnect
  | connect (host : String)
  | failing (generation : ℕ) (e : String)
  | worker
  deriving DecidableEq

/-- What a connect does between its looks at the flags. -/
inductive Attempt
  | prepare | create | pair | remember
  deriving DecidableEq

def Attempt.next : Attempt → Option Attempt
  | prepare => some create
  | create => some pair
  | pair => some remember
  | remember => none

/-- Where a connect goes on if it is not cancelled: to the next attempt, to the look before it
installs its session, or to the failure `e`. -/
inductive Next
  | attempt (attempt : Attempt)
  | confirm
  | refuse (e : String)
  deriving DecidableEq

/-- Where a thread stands. -/
inductive Pc
  | unborn
  -- `cancel_active_connect`
  | cancelling
  | taking
  | signalling (connect : ℕ)
  -- the lifecycle lock
  | queueing (call : Call)
  | waiting (call : Call)
  | unlocking (outcome : Outcome)
  | returned (outcome : Outcome)
  -- `disconnect_blocking`
  | clearing (caller : Caller)
  | reading (caller : Caller)
  -- `handle_terminal_shutdown`
  | claiming (caller : Caller) (event : Event)
  | tearing (caller : Caller) (event : Event)
  | cleaning (caller : Caller) (event : Event) (found : ConnectionState) (session : Option ℕ)
      (runtime : Bool) (handles : List ℕ)
  | failing (caller : Caller) (event : Event) (found : ConnectionState) (summary : String)
  | settling (caller : Caller) (event : Event)
  | recording (caller : Caller) (event : Event) (result : Except String Unit) (applied : Bool)
  -- `connect_async` and `connect_blocking`
  | arriving (host : String)
  | entering (host : String)
  | proceeding (host : String)
  | registering (host : String)
  | activating (generation : ℕ)
  | checking (generation : ℕ) (next : Next)
  | checkingPending (generation : ℕ) (next : Next)
  | attempting (generation : ℕ) (attempt : Attempt)
  | refusing (generation : ℕ) (e : String) (cleans : Bool)
  | confirming (generation : ℕ)
  | installing (generation : ℕ)
  | spawning (generation : ℕ) (worker : Worker)
  | pushing (generation : ℕ) (worker : Worker) (handle : ℕ)
  | starting (generation : ℕ)
  | finishing (generation : ℕ)
  | leaving (generation : ℕ) (outcome : Outcome)
  -- a worker
  | running (generation : ℕ) (worker : Worker)
  | ended
  deriving DecidableEq

/-! ### The state -/

/-- `active_connect`: the connect is the owner of the cancel flag. -/
structure ActiveConnectState where
  generation : ℕ
  connect : ℕ

structure TeardownCoord where
  inFlightGeneration : Option ℕ
  doneGeneration : Option ℕ
  lastResult : Option (Except String Unit)

/-- A flag that is set holds the disconnect that set it.  The holder of the lifecycle lock is the
head of its queue. -/
structure State where
  inner : SessionInner
  cancelPending : Option ℕ
  activeConnect : Option ActiveConnectState
  coord : TeardownCoord
  queue : List ℕ
  calls : ℕ
  pc : ℕ → Pc
  cancelFlag : ℕ → Option ℕ

def State.init : State where
  inner := .default
  cancelPending := none
  activeConnect := none
  coord := ⟨none, none, none⟩
  queue := []
  calls := 0
  pc _ := .unborn
  cancelFlag _ := none

def State.moveTo (s : State) (t : ℕ) (pc : Pc) : State :=
  { s with pc := Function.update s.pc t pc }

@[simp] theorem State.moveTo_pc_self (s : State) (t : ℕ) (pc : Pc) : (s.moveTo t pc).pc t = pc :=
  Function.update_self ..

@[simp] theorem State.moveTo_pc_of_ne {s : State} {t u : ℕ} (h : u ≠ t) (pc : Pc) :
    (s.moveTo t pc).pc u = s.pc u :=
  Function.update_of_ne h ..

theorem State.moveTo_cases (s : State) (t u : ℕ) (pc : Pc) :
    ((s.moveTo t pc).pc u = pc ∧ u = t) ∨ ((s.moveTo t pc).pc u = s.pc u ∧ u ≠ t) := by
  by_cases h : u = t
  · exact Or.inl ⟨h ▸ s.moveTo_pc_self t pc, h⟩
  · exact Or.inr ⟨State.moveTo_pc_of_ne h pc, h⟩

/-- A thread is born. -/
def State.spawn (s : State) (pc : Pc) : State :=
  { s.moveTo s.calls pc with calls := s.calls + 1 }

/-! ### What a thread does next -/

/-- Where a teardown returns to. -/
def Caller.back : Caller → Except String Unit → Pc
  | disconnect, .ok () => .unlocking .ok
  | disconnect, .error e => .unlocking (.failed e)
  | connect host, .ok () => .proceeding host
  | connect _, .error e => .unlocking (.cleanupFailed e)
  | failing generation e, _ => .leaving generation (.failed e)
  | worker, _ => .ended

def Call.enter : Call → Pc
  | connect host => .entering host
  | disconnect => .clearing .disconnect

def Next.go (generation : ℕ) : Next → Pc
  | attempt a => .attempting generation a
  | confirm => .confirming generation
  | refuse e => .refusing generation e false

def Attempt.passed (generation : ℕ) (attempt : Attempt) : Pc :=
  .checking generation (match attempt.next with
    | some next => .attempt next
    | none => .confirm)

/-- The first sections of `handle_terminal_shutdown`; the record of a generation that was torn
down is read, and the state is reaped, with the lock held. -/
def State.claim (s : State) (t : ℕ) (caller : Caller) (event : Event) : State :=
  if s.coord.inFlightGeneration = some event.generation then s.moveTo t (caller.back (.ok ()))
  else if s.coord.doneGeneration = some event.generation then
    match s.coord.lastResult.getD (.ok ()) with
    | .error e => s.moveTo t (caller.back (.error e))
    | .ok () =>
      let inner := if event.target = .idle then s.inner.reap event.generation else s.inner
      { s with inner }.moveTo t (caller.back (.ok ()))
  else
    { s with
      coord := { s.coord with inFlightGeneration := some event.generation } }.moveTo t
        (.tearing caller event)

/-- The first half of `execute_teardown`. -/
def State.tear (s : State) (t : ℕ) (caller : Caller) (event : Event) : State :=
  match s.inner.beginTeardown event.generation event.target event.reason with
  | (.stale, _, inner) => { s with inner }.moveTo t (.recording caller event (.ok ()) false)
  | (.settled, _, inner) => { s with inner }.moveTo t (.recording caller event (.ok ()) true)
  | (.taken session runtime handles, _, inner) =>
    { s with inner }.moveTo t
      (.cleaning caller event s.inner.state session runtime handles)

/-- What went wrong in a cleanup; a worker does not join itself. -/
def cleanupErrors (t : ℕ) (session : Option ℕ) (runtime : Bool) (handles : List ℕ)
    (disconnect stop : Option String) (panics : List (ℕ × String)) : List String :=
  (if session.isSome then disconnect.toList.map ("Session disconnect error: " ++ ·) else []) ++
  (if runtime then stop.toList.map ("TCP runtime stop error: " ++ ·) else []) ++
  handles.filterMap fun handle =>
    if handle = t then none
    else (panics.lookup handle).map ("Worker thread panicked during join: " ++ ·)

/-- Where `execute_teardown` goes on when everything is cleaned up. -/
def cleaned (caller : Caller) (event : Event) (found : ConnectionState) (errors : List String) :
    Pc :=
  if errors ≠ [] then .failing caller event found ("; ".intercalate errors)
  else if event.target = .idle then .settling caller event
  else .recording caller event (.ok ()) true

/-- The record of a teardown. -/
def TeardownCoord.record (c : TeardownCoord) (event : Event) (result : Except String Unit)
    (applied : Bool) : TeardownCoord where
  inFlightGeneration := none
  doneGeneration := if applied then some event.generation else c.doneGeneration
  lastResult := if applied then some result else c.lastResult

/-- The session is installed, unless the connect is cancelled or is not the newest. -/
def State.install (s : State) (t : ℕ) (generation : ℕ) : State :=
  if s.inner.generation ≠ generation then s.moveTo t (.leaving generation .superseded)
  else
    match s.cancelPending with
    | some canceller => s.moveTo t (.leaving generation (.cancelled canceller))
    | none =>
      { s with inner := s.inner.install generation }.moveTo t (.spawning generation .supervisor)

def pushed (generation : ℕ) : Worker → Pc
  | .supervisor => .spawning generation .audio
  | .audio => .starting generation
  | .media => .finishing generation

/-- What a connect returns once its workers run. -/
def finished (i : SessionInner) : Outcome :=
  if i.state = .ready then .ok
  else .failed (i.lastError.getD "Connection terminated during startup")

/-- The next step of a thread, where everything works. -/
def go (s : State) (t : ℕ) : Pc → Option State
  | .cancelling => some ({ s with cancelPending := some t }.moveTo t .taking)
  | .taking =>
    match s.activeConnect with
    | some active =>
      some ({ s with activeConnect := none }.moveTo t (.signalling active.connect))
    | none => some (s.moveTo t (.queueing .disconnect))
  | .signalling connect =>
    some ({ s with cancelFlag := Function.update s.cancelFlag connect (some t) }.moveTo t
      (.queueing .disconnect))
  | .queueing call => some ({ s with queue := s.queue ++ [t] }.moveTo t (.waiting call))
  | .waiting call => if s.queue.head? = some t then some (s.moveTo t call.enter) else none
  | .unlocking outcome => some ({ s with queue := s.queue.tail }.moveTo t (.returned outcome))
  | .clearing caller => some ({ s with cancelPending := none }.moveTo t (.reading caller))
  | .reading caller => some (s.moveTo t (.claiming caller ⟨s.inner.generation, .idle, none⟩))
  | .claiming caller event => some (s.claim t caller event)
  | .tearing caller event => some (s.tear t caller event)
  | .failing caller event _ summary =>
    some ({ s with inner := s.inner.failCleanup summary }.moveTo t
      (.recording caller event (.error summary) true))
  | .settling caller event =>
    some ({ s with inner := s.inner.settle }.moveTo t (.recording caller event (.ok ()) true))
  | .recording caller event result applied =>
    some ({ s with coord := s.coord.record event result applied }.moveTo t (caller.back result))
  | .arriving host =>
    match s.cancelPending with
    | some canceller => some ({ s with cancelPending := none }.moveTo t
        (.returned (.cancelled canceller)))
    | none => some (s.moveTo t (.queueing (.connect host)))
  | .entering host =>
    match s.cancelPending with
    | some canceller => some ({ s with cancelPending := none }.moveTo t
        (.unlocking (.cancelled canceller)))
    | none => some (s.moveTo t (.clearing (.connect host)))
  | .proceeding host =>
    match s.cancelPending with
    | some canceller => some ({ s with cancelPending := none }.moveTo t
        (.unlocking (.cancelled canceller)))
    | none => some (s.moveTo t (.registering host))
  | .registering host =>
    some ({ s with inner := s.inner.register host }.moveTo t (.activating (s.inner.generation + 1)))
  | .activating generation =>
    some ({ s with activeConnect := some ⟨generation, t⟩ }.moveTo t
      (.checking generation (.attempt .prepare)))
  | .checking generation next =>
    match s.cancelFlag t with
    | some canceller => some (s.moveTo t (.leaving generation (.cancelled canceller)))
    | none => some (s.moveTo t (.checkingPending generation next))
  | .checkingPending generation next =>
    match s.cancelPending with
    | some canceller => some (s.moveTo t (.leaving generation (.cancelled canceller)))
    | none => some (s.moveTo t (next.go generation))
  | .attempting generation attempt => some (s.moveTo t (attempt.passed generation))
  | .refusing generation e cleans =>
    some ({ s with inner := s.inner.setError generation e }.moveTo t
      (if cleans then .clearing (.failing generation e) else .leaving generation (.failed e)))
  | .confirming generation =>
    -- the state is locked before this look already
    match s.cancelFlag t with
    | some canceller => some (s.moveTo t (.leaving generation (.cancelled canceller)))
    | none => some (s.moveTo t (.installing generation))
  | .installing generation => some (s.install t generation)
  | .spawning generation worker =>
    some ((s.spawn (.running generation worker)).moveTo t (.pushing generation worker s.calls))
  | .pushing generation worker handle =>
    some ({ s with inner := s.inner.pushWorker handle }.moveTo t (pushed generation worker))
  | .starting generation => some (s.moveTo t (.spawning generation .media))
  | .finishing generation => some (s.moveTo t (.leaving generation (finished s.inner)))
  | .leaving generation outcome =>
    let activeConnect :=
      if s.activeConnect.any (·.generation = generation) then none else s.activeConnect
    some ({ s with activeConnect }.moveTo t (.unlocking outcome))
  | .unborn | .returned _ | .cleaning .. | .running .. | .ended => none

/-- What fails in a connect: the attempt, or what starts a worker. -/
def fail (s : State) (t : ℕ) (e : String) (cleans : Bool) : Pc → Option State
  | .attempting generation .pair => some (s.moveTo t (.checking generation (.refuse e)))
  | .attempting generation .remember => some (s.moveTo t (.refusing generation e cleans))
  | .attempting generation _ => some (s.moveTo t (.refusing generation e false))
  | .spawning generation _ | .starting generation =>
    some (s.moveTo t (.claiming (.failing generation e) ⟨generation, .error, some e⟩))
  | _ => none

inductive Label
  | connect (host : String)
  | disconnect
  | go (t : ℕ)
  | fail (t : ℕ) (e : String) (cleans : Bool)
  | cleanup (t : ℕ) (disconnect stop : Option String) (panics : List (ℕ × String))
  | terminate (t : ℕ) (reason : String)
  | exit (t : ℕ)

def step (s : State) : Label → Option State
  | .connect host => some (s.spawn (.arriving host))
  | .disconnect => some (s.spawn .cancelling)
  | .go t => Lifecycle.go s t (s.pc t)
  | .fail t e cleans => Lifecycle.fail s t e cleans (s.pc t)
  | .cleanup t disconnect stop panics =>
    match s.pc t with
    | .cleaning caller event found session runtime handles =>
      if handles.all fun handle => decide (handle = t ∨ s.pc handle = .ended) then
        some (s.moveTo t (cleaned caller event found
          (cleanupErrors t session runtime handles disconnect stop panics)))
      else none
    | _ => none
  | .terminate t reason =>
    match s.pc t with
    | .running generation worker =>
      some (s.moveTo t (.claiming .worker ⟨generation, worker.target, some reason⟩))
    | _ => none
  | .exit t =>
    match s.pc t with
    | .running _ _ => some (s.moveTo t .ended)
    | _ => none

end MahoRD.Ios.Lifecycle

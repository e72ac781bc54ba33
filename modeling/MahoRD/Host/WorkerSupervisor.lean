/-
MahoRD/Host/WorkerSupervisor.lean

The Windows service and its session workers (`maho-host/src/service_windows.rs`,
`windows_session.rs`): the tick (`supervise`), the start of a worker and its marker file, its stop,
and what a restarted service does about the workers of its predecessor (`reap_previous_workers`).

A step is one call into the system, so that the service may crash and processes may start and end
between any two of them; what a call returns comes with its label.  A process id is given to one
process at a time, and not while a handle to its process is open; otherwise it may come again.  A
process that is terminated counts as ended.

`uid` and `worker` of a process are not in the source: which process it is, and the instance of the
service that has started it as a session worker; nor are `terminated`, the processes the service has
terminated, and `clean`: the service has reaped, and no call has failed.
-/
import MahoRD.Lib.Machine

namespace MahoRD.WorkerSupervisor

def eqIgnoreAsciiCase (a b : List Char) : Bool := a.map Char.toLower = b.map Char.toLower

/-! ### Decisions -/

inductive DesktopKind
  | winlogon | default | screensaver | other
  deriving DecidableEq

def desktopKind (name : String) : DesktopKind :=
  if eqIgnoreAsciiCase name.toList "winlogon".toList then .winlogon
  else if eqIgnoreAsciiCase name.toList "default".toList then .default
  else if eqIgnoreAsciiCase name.toList "screen-saver".toList ∨
      eqIgnoreAsciiCase name.toList "screensaver".toList then .screensaver
  else .other

def consoleDesktopFromHint : Option String → DesktopKind
  | some name => if name.toList.all Char.isWhitespace then .winlogon else desktopKind name
  | none => .winlogon

structure ConsoleState where
  sessionId : Option ℕ
  desktop : DesktopKind

/-- `hint`: what the worker has published, trimmed; `none` if there is nothing. -/
def consoleState (session : Option ℕ) (hint : Option String) : ConsoleState :=
  ⟨session, consoleDesktopFromHint (session.bind fun _ => hint)⟩

structure WorkerState where
  sessionId : ℕ
  desktop : DesktopKind

inductive SupervisorAction
  | idle
  | spawn (sessionId : ℕ) (desktop : DesktopKind)
  | respawn (sessionId : ℕ) (desktop : DesktopKind)
  | stopWorker

def decideAction (console : ConsoleState) (worker : Option WorkerState) : SupervisorAction :=
  match console.sessionId with
  | none => .stopWorker
  | some sessionId =>
    match worker with
    | none => .spawn sessionId console.desktop
    | some worker =>
      if worker.sessionId = sessionId ∧ worker.desktop = console.desktop then .idle
      else .respawn sessionId console.desktop

def imageName : String := "maho-host.exe"

def workerFlag : String := "--session-worker"

def isHostImage (image : String) : Bool := eqIgnoreAsciiCase image.toList imageName.toList

def isReapableWorker (image command : String) : Bool :=
  isHostImage image ∧
    (command.toList.splitOnP Char.isWhitespace).any (eqIgnoreAsciiCase · workerFlag.toList)

/-! ### Processes -/

structure Process where
  uid : ℕ
  pid : ℕ
  parent : ℕ
  image : String
  worker : Option ℕ
  deriving DecidableEq

/-- An entry of the snapshot. -/
structure Entry where
  pid : ℕ
  parent : ℕ
  image : String
  deriving DecidableEq

def Process.entry (q : Process) : Entry := ⟨q.pid, q.parent, q.image⟩

structure WorkerHandle where
  processId : ℕ
  sessionId : ℕ
  desktop : DesktopKind
  uid : ℕ
  deriving DecidableEq

/-- What comes after `stop_worker`. -/
inductive Next
  | tick
  | spawn (sessionId : ℕ) (desktop : DesktopKind)
  | exit
  deriving DecidableEq

/-- Where the service is.  `failed`: a call of the reaping has failed; `handle`: the process that has
been opened, `none` for one that has ended. -/
inductive Pc
  | down
  | starting
  | reaping (entries : List Entry) (failed : Bool)
  | reapOpening (pid : ℕ) (entries : List Entry) (failed : Bool)
  | reapTerminating (handle : Option ℕ) (pid : ℕ) (entries : List Entry) (failed : Bool)
  | reapForgetting (pid : ℕ) (entries : List Entry) (failed : Bool)
  | ready
  | checking
  | forgetting (next : Next)
  | opening (next : Next)
  | terminating (handle : Option ℕ) (next : Next)
  | stopFailed (next : Next)
  | spawning (sessionId : ℕ) (desktop : DesktopKind)
  | recording (handle : WorkerHandle)
  deriving DecidableEq

/-- The rest of the snapshot, while the service reaps. -/
def Pc.entries : Pc → Option (List Entry)
  | reaping entries _ | reapOpening _ entries _ | reapTerminating _ _ entries _
  | reapForgetting _ entries _ => some entries
  | _ => none

/-- The process to which `spawn_session_worker` has a handle open. -/
def Pc.held : Pc → Option ℕ
  | recording handle => some handle.processId
  | _ => none

structure State where
  procs : List Process
  nextUid : ℕ
  markers : ℕ → Option String
  self : ℕ
  service : ℕ
  worker : Option WorkerHandle
  pc : Pc
  clean : Bool
  terminated : List Process

namespace State

def init : State where
  procs := []
  nextUid := 0
  markers := fun _ => none
  self := 0
  service := 0
  worker := none
  pc := .down
  clean := false
  terminated := []

variable (s : State)

/-- The process a call of `OpenProcess` finds. -/
def find (pid : ℕ) : Option Process := s.procs.find? (·.pid = pid)

def alive (uid : ℕ) : Bool := s.procs.any (·.uid = uid)

/-- May a process have this id? -/
def free (pid : ℕ) : Bool :=
  s.procs.all (·.pid ≠ pid) ∧ (s.pc = .down ∨ pid ≠ s.self) ∧ s.pc.held ≠ some pid

def addProcess (pid parent : ℕ) (image : String) (worker : Option ℕ) : State :=
  { s with
    procs := ⟨s.nextUid, pid, parent, image, worker⟩ :: s.procs
    nextUid := s.nextUid + 1 }

/-- `TerminateProcess` succeeds. -/
def terminate (handle : Option ℕ) : State :=
  { s with
    procs := s.procs.filter (handle ≠ some ·.uid)
    terminated := s.procs.filter (handle = some ·.uid) ++ s.terminated }

def recordWorker (pid : ℕ) : State :=
  { s with markers := Function.update s.markers pid (some workerFlag) }

def forgetWorker (pid : ℕ) : State :=
  { s with markers := Function.update s.markers pid none }

/-- `stop_worker` has returned. -/
def goOn : Next → State
  | .tick => { s with pc := .ready }
  | .spawn sessionId desktop => { s with pc := .spawning sessionId desktop }
  | .exit => { s with pc := .down }

/-- `stop_worker` has failed. -/
def giveUp : Next → State
  | .exit => { s with worker := none, pc := .down }
  | _ => { s with pc := .ready }

def stopWorker (next : Next) : State :=
  if s.worker.isSome then { s with pc := .forgetting next } else s.goOn next

def act : SupervisorAction → State
  | .idle => if s.worker.isSome then { s with pc := .checking } else s
  | .spawn sessionId desktop => { s with pc := .spawning sessionId desktop }
  | .respawn sessionId desktop => s.stopWorker (.spawn sessionId desktop)
  | .stopWorker => s.stopWorker .tick

/-- `reap_previous_workers` looks at an entry.  `read`: does reading a marker succeed? -/
def reapEntry (entry : Entry) (entries : List Entry) (failed read : Bool) : State :=
  let command := if read then (s.markers entry.pid).getD "" else ""
  let failed := failed || !read && (s.markers entry.pid).isSome
  if entry.pid ≠ s.self ∧ entry.parent ≠ s.self ∧ isReapableWorker entry.image command then
    { s with pc := .reapOpening entry.pid entries failed }
  else { s with pc := .reaping entries failed }

end State

/-! ### The machine -/

def stillActive : ℕ := 259

/-- `start` gives the service its id; `exits` and `create` are about other processes.  `query` is
`worker_is_alive`: the exit code, or `none` if a call fails. -/
inductive Label
  | start (self : ℕ)
  | crash
  | exits (uid : ℕ)
  | create (pid parent : ℕ) (image : String)
  | snapshot (ok : Bool)
  | reapEntry (read : Bool)
  | endReap
  | openProcess (ok : Bool)
  | terminate (ok : Bool)
  | forget (ok : Bool)
  | tick (session : Option ℕ) (hint : Option String)
  | query (answer : Option ℕ)
  | createWorker (outcome : Option ℕ)
  | record (ok : Bool)
  | stop

def step (s : State) : Label → Option State
  | .start self =>
    if s.pc = .down ∧ s.free self then
      some { s with
        self, service := s.service + 1, worker := none, clean := false, pc := .starting }
    else none
  | .crash => if s.pc ≠ .down then some { s with worker := none, pc := .down } else none
  | .exits uid => some { s with procs := s.procs.filter (·.uid ≠ uid) }
  | .create pid parent image =>
    if s.free pid then some (s.addProcess pid parent image none) else none
  | .snapshot ok =>
    match s.pc with
    | .starting =>
      if ok then
        some { s with pc := .reaping (⟨s.self, 0, imageName⟩ :: s.procs.map Process.entry) false }
      else some { s with pc := .ready }
    | _ => none
  | .reapEntry read =>
    match s.pc with
    | .reaping (entry :: entries) failed => some (s.reapEntry entry entries failed read)
    | _ => none
  | .endReap =>
    match s.pc with
    | .reaping entries failed => some { s with clean := entries = [] ∧ !failed, pc := .ready }
    | _ => none
  | .openProcess ok =>
    match s.pc with
    | .reapOpening pid entries failed =>
      if ok then
        some { s with pc := .reapTerminating ((s.find pid).map Process.uid) pid entries failed }
      else some { s with pc := .reaping entries true }
    | .opening next =>
      s.worker.map fun handle =>
        if ok then
          { s with pc := .terminating ((s.find handle.processId).map Process.uid) next }
        else { s with pc := .stopFailed next }
    | _ => none
  | .terminate ok =>
    match s.pc with
    | .reapTerminating handle pid entries failed =>
      if ok then some { s.terminate handle with pc := .reapForgetting pid entries failed }
      else some { s with pc := .reapForgetting pid entries true }
    | .terminating handle next =>
      if ok then some ({ s.terminate handle with worker := none }.goOn next)
      else some { s with pc := .stopFailed next }
    | _ => none
  | .forget ok =>
    match s.pc with
    | .reapForgetting pid entries failed =>
      some { (if ok then s.forgetWorker pid else s) with pc := .reaping entries (failed || !ok) }
    | .forgetting next =>
      s.worker.map fun handle =>
        { (if ok then s.forgetWorker handle.processId else s) with pc := .opening next }
    | _ => none
  | .tick session hint =>
    match s.pc with
    | .ready =>
      some (s.act (decideAction (consoleState session hint)
        (s.worker.map fun handle => ⟨handle.sessionId, handle.desktop⟩)))
    | _ => none
  | .query answer =>
    s.worker.bind fun handle =>
      if (s.find handle.processId).isSome ∧ answer.any (· ≠ stillActive) then none
      else
        match s.pc with
        | .checking =>
          if answer = some stillActive then some { s with pc := .ready }
          else some { s with worker := none, pc := .ready }
        | .stopFailed next =>
          if answer = some stillActive then some (s.giveUp next)
          else some ({ s with worker := none }.goOn next)
        | _ => none
  | .createWorker outcome =>
    match s.pc, outcome with
    | .spawning _ _, none => some { s with pc := .ready }
    | .spawning sessionId desktop, some pid =>
      if s.free pid then
        some { s.addProcess pid s.self imageName (some s.service) with
          pc := .recording ⟨pid, sessionId, desktop, s.nextUid⟩ }
      else none
    | _, _ => none
  | .record ok =>
    match s.pc with
    | .recording handle =>
      some { (if ok then s.recordWorker handle.processId else s) with
        worker := some handle, pc := .ready }
    | _ => none
  | .stop =>
    match s.pc with
    | .ready => some (s.stopWorker .exit)
    | _ => none

end MahoRD.WorkerSupervisor

/-
MahoRD/Relay/State.lean

The state of the relay (`maho-relay/src/lib.rs`): the maps its tasks share, and
the tasks themselves, one for each WebSocket.  A task is its program counter
with its local variables; between two counters a task performs one operation on
the shared maps, so any interleaving of these operations is a run.

A channel is named after the task that reads it, `h` for the queue of host task
`h` and `c` for the queue of client task `c`; two senders are of the same
channel iff they name the same task.

Instants are nanoseconds.
-/
import MahoRD.Lib.Table
import MahoRD.Proto.Relay

namespace MahoRD.Relay

structure RelayConfig where
  authSecret : List UInt8
  maxSessionsPerHost : ℕ
  maxPayloadLen : ℕ
  idleTimeout : ℕ
  heartbeat : ℕ
  maxSessionDuration : ℕ
  connectsPerMinute : UInt32
  acceptTimeout : ℕ

/-- `RelayConfig::from_secret`. -/
def RelayConfig.fromSecret (secret : List UInt8) : RelayConfig where
  authSecret := secret
  maxSessionsPerHost := relayMaxSessionsPerHost
  maxPayloadLen := relayMaxPayloadLen
  idleTimeout := 60 * 10 ^ 9
  heartbeat := 30 * 10 ^ 9
  maxSessionDuration := 24 * 60 * 60 * 10 ^ 9
  connectsPerMinute := 100
  acceptTimeout := 10 * 10 ^ 9

/-- The configuration, HMAC-SHA256 and the JSON parser. -/
structure Env where
  config : RelayConfig
  hmac : Hmac
  parse : String → Option RelayControl

/-- What the relay writes to a WebSocket. -/
inductive Message
  | text (control : RelayControl)
  | binary (bytes : List UInt8)
  | pong (payload : List UInt8)
  deriving DecidableEq

def errorMessage (code message : String) : Message := .text (.error code message)

/-- What a WebSocket yields; `closed` stands for a close message, an error and
the end of the stream. -/
inductive Incoming
  | text (text : String)
  | binary (bytes : List UInt8)
  | ping (payload : List UInt8)
  | pong
  | closed

abbrev HostId := ℕ

abbrev ClientId := ℕ

/-- `accept` tells whether the accept sender is still there. -/
structure Session where
  hostId : String
  clientTx : ClientId
  accept : Bool
  created : ℕ
  deriving DecidableEq

/-- Where a host task is.  `dropX exit` are the steps of `drop_host`, which runs
before the sender is inserted and again (`exit`) after the loop has ended. -/
inductive HostPc
  | register
  | greet
  | dropRemove (exit : Bool)
  | dropCollect (exit : Bool)
  | dropSessions (exit : Bool) (doomed : List String)
  | insert
  | loop
  | accept (client : ClientId)
  | forward (client : ClientId) (bytes : List UInt8)
  | expire (key : String)
  | done
  deriving DecidableEq

/-- `writing`: the writer task still drains `queue`. -/
structure HostTask where
  pc : HostPc
  hostId : String
  queue : List Message
  writing : Bool
  last : ℕ
  nextPing : ℕ

/-- Where a client task is. -/
inductive ClientPc
  | start
  | lookup
  | connect
  | count
  | openSession
  | introduce
  | incoming (host : HostId)
  | await (host : HostId)
  | connected (host : HostId)
  | loop (host : HostId)
  | checkSession (host : HostId) (bytes : List UInt8)
  | checkHost (host : HostId) (bytes : List UInt8)
  | send (host : HostId) (bytes : List UInt8)
  | close (farewell : Option Message)
  | done
  deriving DecidableEq

structure ClientTask where
  pc : ClientPc
  hostId : String
  ip : ℕ
  session : Option Uuid
  accepted : Bool
  queue : List Message
  last : ℕ

/-- What can be seen from outside, and when the maps were entered. -/
inductive Event
  | hostSends (h : HostId) (bytes : List UInt8)
  | hostReceives (h : HostId) (message : Message)
  | clientSends (c : ClientId) (bytes : List UInt8)
  | clientReceives (c : ClientId) (message : Message)
  | registered (h : HostId) (hostId : String)
  | opened (c : ClientId) (session : Uuid) (hostId : String)
  deriving DecidableEq

structure State where
  now : ℕ
  hosts : Table String HostId
  sessions : Table String Session
  rates : Table ℕ (List ℕ)
  hostTasks : Table HostId HostTask
  clientTasks : Table ClientId ClientTask
  trace : List Event

namespace State

def init : State := ⟨0, ∅, ∅, ∅, ∅, ∅, []⟩

def setHost (s : State) (h : HostId) (t : HostTask) : State :=
  { s with hostTasks := s.hostTasks.insert h t }

def setClient (s : State) (c : ClientId) (t : ClientTask) : State :=
  { s with clientTasks := s.clientTasks.insert c t }

def log (s : State) (e : Event) : State := { s with trace := s.trace ++ [e] }

def removeSession (s : State) (key : String) : State :=
  { s with sessions := s.sessions.erase key }

/-- `host_tx.send`: fails once the writer has gone. -/
def sendHost (s : State) (h : HostId) (m : Message) : Option State :=
  match s.hostTasks.lookup h with
  | some t => if t.writing then some (s.setHost h { t with queue := t.queue ++ [m] }) else none
  | none => none

/-- `client_tx.send`, whose failure is ignored. -/
def sendClient (s : State) (c : ClientId) (m : Message) : State :=
  match s.clientTasks.lookup c with
  | some t => if t.pc = .done then s else s.setClient c { t with queue := t.queue ++ [m] }
  | none => s

/-- `AppState::session_count`. -/
def sessionCount (s : State) (hostId : String) : ℕ :=
  (s.sessions.entries.filter fun e => e.2.hostId = hostId).length

/-- `AppState::allow_connect`. -/
def allowConnect (s : State) (connectsPerMinute : UInt32) (ip : ℕ) : Bool × State :=
  let hits := ((s.rates.lookup ip).getD []).filter fun stamp => s.now - stamp < 60 * 10 ^ 9
  if UInt32.ofNat hits.length ≥ connectsPerMinute then
    (false, { s with rates := s.rates.insert ip hits })
  else (true, { s with rates := s.rates.insert ip (hits ++ [s.now]) })

end State
end MahoRD.Relay

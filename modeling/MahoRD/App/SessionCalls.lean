/-
MahoRD/App/SessionCalls.lean

The calls of `ClientSession` and `SessionRuntime` that connect a client session
and end it (`maho-app/src/session.rs`), as programs: one operation is one lock
section, one access to the cancelled flag, or one wait.

What a wait comes to is the environment's choice.  `interrupt` sets the flag and
shuts the sockets down, which ends waits; here they may end at any time, and so
only the flag is left of it.  Of the stream, the transport and the ciphers it is
kept whether they are installed.  The locks are not poisoned.
-/
import MahoRD.App.ClientState
import MahoRD.Lib.Threads

namespace MahoRD.SessionCalls

open Threads (Prog)

inductive Slot
  | tcp | udp | udpSend | udpReceive
  deriving DecidableEq

/-- The TCP packets that are awaited.  A capability counts as negotiated when
the client and the host have it. -/
inductive TcpPacket
  | handshakeAck (pairingTrust authenticatedUdpRegistration guestPermissions : Bool)
  | pairingGrant
  | pairingReject (reason : PairingRejectReason)
  | pairingTrustGrant (trust : PairingTrust)
  | sessionEnded (reason : SessionEndReason) (negotiated : Bool)
  | unlisted (packetType : PacketType)
  deriving DecidableEq

def TcpPacket.packetType : TcpPacket → PacketType
  | handshakeAck .. => .handshakeAck
  | pairingGrant => .pairingGrant
  | pairingReject _ => .pairingReject
  | pairingTrustGrant _ | sessionEnded .. => .control
  | unlisted t => t

/-- What a wait comes to. -/
inductive Answer
  | ok | pending | failed (error : Client.SessionError) | packet (packet : TcpPacket)
  deriving DecidableEq

inductive Op
  | isCancelled
  | cancel
  | restore
  | readState
  /-- a section of the state's lock -/
  | state (f : ClientState → ClientState)
  | put (slot : Slot)
  | take (slot : Slot)
  /-- `tcp_runtime`, held until it is unlocked -/
  | lockRuntime
  | setRuntime (running : Bool)
  | unlockRuntime
  /-- the flag of a supervisor that is reconnecting -/
  | reconnecting
  | await
  /-- a read from the TCP stream or a write to it, with its lock held -/
  | transfer
  /-- the shutdown of the TCP stream in `disconnect` -/
  | shutdown

def Reply : Op → Type
  | .isCancelled | .take _ | .lockRuntime | .reconnecting => Bool
  | .readState => SessionState
  | .await | .transfer | .shutdown => Answer
  | .cancel | .restore | .state _ | .put _ | .setRuntime _ | .unlockRuntime => Unit

abbrev Program (α : Type) := Prog Op Reply Client.SessionError α

/-! ### Operations -/

def invoke (o : Op) : Program (Reply o) := Prog.perform o

def isCancelled : Program Bool := invoke .isCancelled

def interrupt : Program Unit := invoke .cancel

def readState : Program SessionState := invoke .readState

def state (f : ClientState → ClientState) : Program Unit := invoke (.state f)

def put (slot : Slot) : Program Unit := invoke (.put slot)

def take (slot : Slot) : Program Bool := invoke (.take slot)

def await : Program Answer := invoke .await

def transfer : Program Answer := invoke .transfer

def unlessFailed : Answer → Program Unit
  | .failed error => .raise error
  | _ => pure ()

/-- Something that may fail. -/
def attempt : Program Unit := do unlessFailed (← await)

def checkCancelled : Program Unit := do
  Prog.when (← isCancelled) (.raise .cancelled)

/-- `tcp_runtime` is held while `body` runs; it gets to know if there is a
generation. -/
def withRuntime {α : Type} (body : Bool → Program α) : Program α := do
  let running : Bool ← invoke .lockRuntime
  let result ← (body running).outcome
  invoke .unlockRuntime
  .ofExcept result

def sendPacket : Program Unit :=
  withRuntime fun _ => do unlessFailed (← transfer)

def readTcpPacket : Program TcpPacket := do
  checkCancelled
  let answer ← transfer
  checkCancelled
  match answer with
  | .packet packet => return packet
  | .failed error => .raise error
  -- a frame without a whole header
  | .ok | .pending => .raise (.io .invalidData)

/-! ### Connecting -/

/-- The socket connects on a thread of its own; the deadline allows for as many
rounds. -/
def awaitConnection : ℕ → Program Unit
  | 0 => do
    checkCancelled
    .raise (.io .timedOut)
  | rounds + 1 => do
    checkCancelled
    match ← await with
    | .failed error => .raise error
    | .pending => awaitConnection rounds
    | _ => pure ()

def connectWithPsk (rounds : ℕ) (next : SessionState) : Program Unit :=
  withRuntime fun running => do
    Prog.when running (.raise .tcpRuntimeAlreadyRunning)
    checkCancelled
    state .connecting
    -- the address
    attempt
    checkCancelled
    awaitConnection rounds
    -- the options of the socket
    attempt
    checkCancelled
    -- the keys, then the handshake of TLS
    attempt
    match ← attempt.outcome with
    | .error error =>
      checkCancelled
      .raise error
    | .ok _ =>
      checkCancelled
      put .tcp
      state (·.entered next)

/-- No acknowledgement in time. -/
def ackTimeout : Client.SessionError → Client.SessionError
  | .tls (.io .timedOut) | .tls (.io .wouldBlock) => .handshakeAckTimeout
  | error => error

/-- The trust that the host grants, or the one that the pairing has. -/
def negotiateTrust (trust : PairingTrust) (preference : Option PairingTrust)
    (negotiated : Bool) : Program PairingTrust := do
  if negotiated then
    Prog.when preference.isSome sendPacket
    match ← readTcpPacket with
    | .pairingTrustGrant granted => return granted
    | .sessionEnded reason true =>
      state fun s => { s with ended := some reason }
      interrupt
      .raise .permissionDenied
    | packet =>
      .raise (if packet.packetType = .control then .permissionDenied
        else .unexpectedPacket .control packet.packetType)
  else
    Prog.when (preference.any (· ≠ .owner)) (do
      interrupt
      .raise .unsupported)
    return trust

def beginHandshakeWithTrust (trust : PairingTrust) (preference : Option PairingTrust) :
    Program Unit := do
  state (·.handshaking trust)
  attempt
  sendPacket
  match ← readTcpPacket.outcome with
  | .error error => .raise (ackTimeout error)
  | .ok (.handshakeAck pairingTrust authenticated guest) =>
    let trust ← negotiateTrust trust preference pairingTrust
    -- the store
    Prog.when (trust ≠ .guestOnce) attempt
    state (·.granted trust)
    Prog.when (!authenticated) (.raise .missingAuthenticatedRegistration)
    -- keys, address and socket
    attempt
    -- the timeout of the stream
    attempt
    -- the transport
    attempt
    put .udp
    put .udpSend
    put .udpReceive
    state (·.ready guest)
  | .ok packet => .raise (.unexpectedPacket .handshakeAck packet.packetType)

def connectWithPairing (rounds : ℕ) (trust : PairingTrust) : Program Unit := do
  checkCancelled
  state fun s => { s with ended := none }
  attempt
  match ← (connectWithPsk rounds .awaitingHandshakeAck).outcome with
  | .ok _ => beginHandshakeWithTrust trust none
  | .error error =>
    checkCancelled
    -- the relay
    match ← await with
    | .ok =>
      connectWithPsk rounds .awaitingHandshakeAck
      beginHandshakeWithTrust trust none
    | _ => .raise error

def pairWithPinAs (rounds : ℕ) (preference : PairingTrust) : Program Unit := do
  state fun s => { s with ended := none }
  attempt
  connectWithPsk rounds .awaitingPairing
  sendPacket
  match ← readTcpPacket with
  | .pairingGrant => beginHandshakeWithTrust .owner (some preference)
  | .pairingReject reason => .raise (.pairingRejected reason)
  | packet => .raise (.unexpectedPacket .pairingGrant packet.packetType)

def reconnect (rounds : ℕ) (trust : PairingTrust) : Program Unit := do
  attempt
  connectWithPairing rounds trust

def spawnTcpGeneration : Program Unit := do
  Prog.when ((← readState) ≠ .ready) (.raise .notReady)
  attempt
  withRuntime fun running => do
    Prog.when running (.raise .tcpRuntimeAlreadyRunning)
    unlessFailed (← transfer)
    invoke (.setRuntime true)

/-- One attempt of the supervisor, after its delay. -/
def automaticReconnect (rounds : ℕ) (trust : PairingTrust) : Program Unit := do
  checkCancelled
  connectWithPairing rounds trust
  spawnTcpGeneration

/-! ### Ending -/

/-- The error that is none when the peer has closed the connection. -/
def shutdownError : Answer → Option Client.SessionError
  | .failed (.io .notConnected) => none
  | .failed error => some error
  | _ => none

def disconnect : Program Unit := do
  -- the relay bridge
  let _ ← await
  interrupt
  -- the trace
  let _ ← readState
  let trace ← await
  state .disconnect
  let _ ← take .udp
  if ← take .tcp then
    match shutdownError (← invoke .shutdown) with
    | some error => .raise error
    | none => pure ()
  let _ ← take .udpSend
  let _ ← take .udpReceive
  unlessFailed trace

/-- `SessionRuntime::stop`. -/
def stop : Program Unit := do
  let reconnecting : Bool ← invoke .reconnecting
  if reconnecting then
    if ← isCancelled then attempt
    else
      interrupt
      -- the worker is joined
      let joined ← attempt.outcome
      invoke .restore
      .ofExcept joined
  else attempt

/-- The end of a generation's worker. -/
def generationEnds : Program Unit :=
  withRuntime fun _ => do
    let _ ← take .tcp
    invoke (.setRuntime false)
    state .dropped

/-- `SessionEnded` in `handle_packet`. -/
def sessionEnded (reason : SessionEndReason) : Program Unit := do
  state (·.sessionEnded reason)
  interrupt
  state .dropped

/-! ### Threads -/

inductive Call
  | connectWithPairing (trust : PairingTrust)
  | pairWithPinAs (preference : PairingTrust)
  | reconnect (trust : PairingTrust)
  | automaticReconnect (trust : PairingTrust)
  | disconnect
  | stop
  | generationEnds
  | sessionEnded (reason : SessionEndReason)
  deriving DecidableEq

/-- A thread is known by its call, of which there may be any number. -/
abbrev Thread := Call × ℕ

def program (rounds : ℕ) (t : Thread) : Program Unit :=
  match t.1 with
  | .connectWithPairing trust => SessionCalls.connectWithPairing rounds trust
  | .pairWithPinAs preference => SessionCalls.pairWithPinAs rounds preference
  | .reconnect trust => SessionCalls.reconnect rounds trust
  | .automaticReconnect trust => SessionCalls.automaticReconnect rounds trust
  | .disconnect => SessionCalls.disconnect
  | .stop => SessionCalls.stop
  | .generationEnds => SessionCalls.generationEnds
  | .sessionEnded reason => SessionCalls.sessionEnded reason

/-- Does the call connect the session? -/
def Call.connects : Call → Bool
  | connectWithPairing _ | pairWithPinAs _ | reconnect _ | automaticReconnect _ => true
  | disconnect | stop | generationEnds | sessionEnded _ => false

end MahoRD.SessionCalls

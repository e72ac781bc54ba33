/-
MahoRD/App/ClientState.lean

The state of a client session behind its lock (`SessionStateInner` in
`maho-app/src/session.rs`), and what is done to it under the lock: each
definition below is one critical section of `ClientSession`.

Of the fields, those are kept that a session leaves to the next one or that say
whether a packet is taken.
-/
import MahoRD.App.Audio
import MahoRD.App.FrameReception
import MahoRD.Net.Datagram
import MahoRD.Proto.Pairing
import MahoRD.Proto.Parity

namespace MahoRD

inductive SessionState
  | disconnected | connecting | awaitingPairing | awaitingHandshakeAck | ready
  deriving DecidableEq

/-! ### Errors -/

namespace Client

/-- `io::ErrorKind`; `unlisted` stands for the kinds that nothing asks for. -/
inductive ErrorKind
  | timedOut | wouldBlock | unexpectedEof | connectionReset | connectionAborted | brokenPipe
  | connectionRefused | notConnected | invalidData | other | unlisted
  deriving DecidableEq

inductive TlsPskError
  | invalidIdentity | invalidKeyLength | openSsl | handshake (text : String)
  | io (kind : ErrorKind) | frame (error : CodecError) | invalidFrameLength (length : UInt32)
  deriving DecidableEq

inductive SessionError
  | notReady | pairingRejected (reason : PairingRejectReason) | pairingNotFound (id : String)
  | unexpectedPacket (expected actual : PacketType) | handshakeAckTimeout | poisoned | noAddress
  | tcpRuntimePanicked (text : String) | tcpRuntimeStopped | tcpRuntimeAlreadyRunning
  | protocol (error : CodecError) | tls (error : TlsPskError) | datagram (error : DatagramError)
  | pairingStore | io (kind : ErrorKind) | missingAuthenticatedRegistration | cancelled
  | unsupported | permissionDenied | invalidClipboardImage
  deriving DecidableEq

namespace SessionError

/-- The kinds of a connection that broke. -/
def broken : ErrorKind → Bool
  | .unexpectedEof | .connectionReset | .connectionAborted | .brokenPipe | .connectionRefused
  | .timedOut => true
  | _ => false

/-- Whether a session failure is worth re-handshaking for. -/
def shouldReconnect : SessionError → Bool
  | notReady | tcpRuntimeStopped | tcpRuntimePanicked _ | handshakeAckTimeout => true
  | io kind => broken kind
  | tls (.io kind) => broken kind || kind == .other
  | _ => false

end SessionError

end Client

/-! ### The state -/

structure ClientState where
  state : SessionState
  /-- The trust of `pairing`. -/
  trust : Option PairingTrust
  /-- `GUEST_PERMISSIONS` was negotiated. -/
  guest : Bool
  permissions : Option GuestPermissions
  frames : FrameAssembler
  audio : AudioFragmentReassembler
  ended : Option SessionEndReason

/-- What comes of a media packet. -/
inductive MediaEvent
  | frame (frame : AssembledFrame) | audio (data : List UInt8) | ignored

namespace ClientState

def new : ClientState := ⟨.disconnected, none, false, none, .new, .new, none⟩

/-- `connect_with_psk` begins. -/
def connecting (s : ClientState) : ClientState :=
  { s with state := .connecting, frames := s.frames.clear, permissions := none }

/-- `connect_with_psk` ends. -/
def entered (s : ClientState) (next : SessionState) : ClientState := { s with state := next }

/-- `begin_handshake_with_trust` begins. -/
def handshaking (s : ClientState) (trust : PairingTrust) : ClientState :=
  { s with trust := some trust, state := .awaitingHandshakeAck }

/-- The host has granted a trust. -/
def granted (s : ClientState) (trust : PairingTrust) : ClientState := { s with trust := some trust }

/-- `begin_handshake_with_trust` ends. -/
def ready (s : ClientState) (guest : Bool) : ClientState := { s with guest, state := .ready }

/-- The TCP worker of a session ends. -/
def dropped (s : ClientState) : ClientState := { s with state := .disconnected }

def disconnect (s : ClientState) : ClientState :=
  { s with
    state := .disconnected, frames := s.frames.clear, audio := s.audio.clear
    trust := if s.trust = some .guestOnce then none else s.trust }

/-- `SessionEnded` has come; the state itself changes in another section. -/
def sessionEnded (s : ClientState) (reason : SessionEndReason) : ClientState :=
  { s with ended := some reason, frames := s.frames.clear, audio := s.audio.clear }

def setPermissions (s : ClientState) (permissions : GuestPermissions) : ClientState :=
  { s with permissions := some permissions }

/-- `permissions_locked` with `audio` off: a guest is denied what it has not
been granted. -/
def audioDenied (s : ClientState) : Bool := s.guest && !s.permissions.any (·.audio)

/-- The audio packets of `handle_packet`. -/
def handleAudio (s : ClientState) (fragment : AudioFragment) :
    Except Client.SessionError MediaEvent × ClientState :=
  if s.state ≠ .ready then (.error .notReady, s)
  else if s.audioDenied then (.ok .ignored, s)
  else
    match s.audio.push fragment with
    | (none, audio) => (.ok .ignored, { s with audio })
    | (some data, audio) => (.ok (.audio data), { s with audio })

/-- The video packets of `handle_packet`. -/
def handleVideo (s : ClientState) (now : ℕ) (m : MediaPacket) :
    Except Client.SessionError MediaEvent × ClientState :=
  if s.state ≠ .ready then (.error .notReady, s)
  else
    match s.frames.receive now m with
    | (.error _, frames) => (.error (.io .invalidData), { s with frames })
    | (.ok none, frames) => (.ok .ignored, { s with frames })
    | (.ok (some frame), frames) => (.ok (.frame frame), { s with frames })

end ClientState
end MahoRD

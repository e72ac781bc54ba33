/-
MahoRD/Host/Session.lean

The session of a host with one peer (`handle_connection` in
`maho-host/src/session.rs`): its variables, what an iteration of its loop is
given from outside, and the actions from which the iteration is built.

An iteration is an action on the session.  What the network, the clock, the
platform, the media pipeline and the local user decide in it is a `Turn`.  Of the
media pipeline the session keeps whether one is in its slot, and what the last
one was started with (`stream`); every packet is logged with the stream at that
moment.  Times are milliseconds.

Left out: the assembly of clipboard images, the registry of guests and consent
prompts, tracing, and the geometry of the input injector; the outcome of a
registration datagram comes with the turn.
-/
import MahoRD.Host.Authorization
import MahoRD.Proto.Control

namespace MahoRD.Host

open Act

/-! ### The server and the connection -/

inductive Platform
  | linux | windows | macos
  deriving DecidableEq

/-- `scaleFactor` is the bit pattern of the float. -/
structure DisplayInfo where
  logicalWidth : UInt32
  logicalHeight : UInt32
  pixelWidth : UInt32
  pixelHeight : UInt32
  scaleFactor : UInt32

/-- `consentSender`: there is one. -/
structure HostConfig where
  hostName : String
  display : DisplayInfo
  framesPerSecond : UInt32
  bitrate : UInt32
  captureAudio : Bool
  outputName : Option String
  consentSender : Bool

/-- The server, and what is fixed for one connection.  `restartFactory`: there is
one. -/
structure Connection where
  config : HostConfig
  platform : Platform
  hostCaps : Capabilities
  restartFactory : Bool
  pairingDeadline : Option ℕ
  negotiatedIdentity : String
  admissionDeadline : ℕ

def bootstrapIdentity : String := "maho-b1"

def pairingIdentityPrefix : String := "maho-p1."

/-- `str::strip_prefix`. -/
def stripPrefix (start text : String) : Option String :=
  if start.toList <+: text.toList then some (String.ofList (text.toList.drop start.length))
  else none

def heartbeatInterval : ℕ := 2000

def heartbeatTimeout : ℕ := 30000

def topologyInterval : ℕ := 2000

def clipboardInterval : ℕ := 500

inductive SessionState
  | preAuth | pairingGranted | authenticated | closed
  deriving DecidableEq

def SessionState.allows : SessionState → PacketType → Bool
  | .preAuth, .pairingRequest | .preAuth, .handshake => true
  | .pairingGranted, .handshake => true
  | .authenticated, .inputEvent | .authenticated, .control => true
  | _, _ => false

/-! ### The variables of a session -/

/-- What admits the peer. -/
structure Admission where
  state : SessionState
  grantedPairingId : Option String
  provisional : Option PairingRecord

/-- What a media pipeline was started with, and the bitrate it has accepted since. -/
structure Stream where
  width : UInt32
  height : UInt32
  fps : UInt32
  bitrate : UInt32

/-- The stream and the display.  `pipeline`: the slot holds a pipeline; `stream`:
the one started last. -/
structure Media where
  pipeline : Bool
  stream : Stream
  activeBitrate : UInt32
  activeScale : UInt16
  activeFps : UInt32
  activeCodec : StreamCodecPreference
  topology : List HostDisplay
  topologyCheck : ℕ
  selectedOutput : Option String

structure GuestSession where
  id : String
  pairingId : String
  name : String
  trust : PairingTrust

/-- What is written to the peer. -/
inductive Sent
  | handshakeAck (ack : Handshake)
  | pairingGrant (grant : PairingGrant)
  | pairingReject (reject : PairingReject)
  | control (message : ControlMessage)

def Sent.encode : Sent → Except CodecError (List UInt8)
  | handshakeAck ack => ack.encode
  | pairingGrant grant => grant.encode
  | pairingReject reject => reject.encode
  | control message => message.encode

/-- What is done to the host's input and clipboard. -/
inductive Effect
  | inject (event : InputEvent)
  | releaseInput
  | clipboardText (text : String)
  | clipboardImageChunk (chunk : ClipboardImageChunk)
  deriving DecidableEq

/-- What becomes of the frames of the peer.  A frame is refused when its type has
no handler in the state of the session. -/
inductive PacketEvent
  | read (packet : List UInt8)
  | dispatched (packet : List UInt8)
  | refused (state : SessionState) (packet : List UInt8)

structure Session where
  admission : Admission
  media : Media
  disk : Disk
  sessionTrust : PairingTrust
  grantPermissions : GuestPermissions
  peerCaps : Capabilities
  peerHasStreamOptions : Bool
  activeGuest : Option GuestSession
  effectivePermissions : GuestPermissions
  audioAllowed : Bool
  c2hCipher : Bool
  h2cCipher : Bool
  udpPeer : Bool
  mediaReceiver : Bool
  streamDims : UInt32 × UInt32
  senderThread : Bool
  lastPong : ℕ
  nextPing : ℕ
  injectedInput : Bool
  clipboardSync : Bool
  imageId : UInt32
  nextImagePoll : ℕ
  nextClipboardPoll : ℕ
  lastSentPolicy : HostPolicy
  inputDisabledWarned : Bool
  /-- the number of packets written or tried -/
  writes : ℕ
  sent : List (Stream × Sent)
  effects : List Effect
  packets : List PacketEvent

/-! ### What an iteration is given -/

inductive GuestCommand
  | fin (reason : SessionEndReason)
  | status (status : HostStatus)
  | permissions (permissions : GuestPermissions)

/-- The check of the displays.  `now` and `reset` are the two readings of the
clock; the rest is asked for by a recovery. -/
structure TopologyTurn where
  now : ℕ
  reset : ℕ
  displays : List HostDisplay
  start : Option SessionError
  handOver : Bool
  geometry : Option SessionError

/-- What a PairingRequest meets.  `approval`: what the consent responder
answered, if it did in time. -/
structure PairingTurn where
  now : ℕ
  lockoutAllows : Bool
  consentSent : Bool
  approval : Option (Option PairingTrust)
  approvedAt : ℕ
  activeAt : ℕ
  lockoutAllowsThen : Bool
  unixMs : UInt64
  id : String
  key : PairingKey

/-- What a Handshake meets.  `nested` is the frame read while the trust request
is awaited. -/
structure HandshakeTurn where
  load : Files
  authorization : Files
  unixMs : UInt64
  derive : Option SessionError
  writeTimeout : Option IoError
  start : Option SessionError
  nested : Except TlsPskError (Option (List UInt8))
  unixMsThen : UInt64
  setAuthorization : Files
  save : Files
  policy : HostPolicy
  guestId : String
  displays : List HostDisplay
  now : ℕ

/-- What an input event or a control message meets.  The errors of `start` are
given by their texts. -/
structure ControlTurn where
  injected : Bool
  secureAttention : SecureAttentionResult
  forceKeyFrame : Option SessionError
  updateBitrate : Option SessionError
  displays : List HostDisplay
  cpuScaling : Bool
  start : Option String
  geometry : Option SessionError
  now : ℕ

structure Turn where
  disk : Disk
  pipelineTaken : Bool
  aborted : Bool
  stop : Bool
  mediaFailed : Bool
  read : Except TlsPskError (Option (List UInt8))
  topology : TopologyTurn
  admissionNow : ℕ
  writeTimeout : Option IoError
  commands : List GuestCommand
  unixMs : UInt64
  policy : HostPolicy
  discover : Except SessionError Bool
  clone : Option IoError
  now : ℕ
  image : Option (List UInt8)
  text : Option String
  pairing : PairingTurn
  handshake : HandshakeTurn
  control : ControlTurn
  /-- how each write turns out -/
  write : ℕ → Option SessionError

/-- How an iteration is left early. -/
inductive Exit
  | next
  | leave
  | fail (error : SessionError)
  deriving DecidableEq

/-- The session ends. -/
def Exit.Ends : Exit → Prop
  | next => False
  | leave | fail _ => True

abbrev HostAct (α : Type) := Act Exit Session α

/-- A codec error ends the session. -/
def codecExit (e : CodecError) : Exit := .fail (.codec e)

/-! ### Small functions -/

def isPairingActive (c : Connection) (now : ℕ) (lockoutAllows : Bool) : Bool :=
  c.pairingDeadline.any (now < ·) && lockoutAllows

/-- A platform whose clipboard is shared. -/
def Connection.hasClipboard (c : Connection) : Bool :=
  c.platform = .linux || c.platform = .windows

def permissionCeiling (c : Connection) (policy : HostPolicy) (clipboard : Bool) :
    GuestPermissions where
  keyboard := policy.allowInput
  mouse := policy.allowInput
  gamepad := policy.allowInput && c.hostCaps.contains .gamepad
  clipboard := policy.allowClipboard && clipboard
    && c.hasClipboard
  audio := c.config.captureAudio

/-- The display that is streamed when none is named. -/
def preferred (displays : List HostDisplay) : Option HostDisplay :=
  (displays.find? HostDisplay.primary).or displays.head?

def splitPacket (packet : List UInt8) : Except SessionError (PacketHeader × List UInt8) :=
  if packet.length < PacketHeader.size then
    .error (.codec (.truncated "packet header" PacketHeader.size packet.length))
  else
    match PacketHeader.decode (packet.take PacketHeader.size) with
    | .error e => .error (.codec e)
    | .ok header => .ok (header, packet.drop PacketHeader.size)

/-- What the first pipeline of a session is started with (`HostServer::bind`). -/
def initialStream (config : HostConfig) : Stream where
  width := config.display.pixelWidth
  height := config.display.pixelHeight
  fps := if config.framesPerSecond = 0 then 60 else config.framesPerSecond
  bitrate := config.bitrate

/-- The variables before the loop. -/
def Session.start (c : Connection) (policy : HostPolicy) (displays : List HostDisplay)
    (now : ℕ) (disk : Disk) : Session where
  admission :=
    { state := .preAuth
      grantedPairingId := none
      provisional := none }
  media :=
    { pipeline := false
      stream := initialStream c.config
      activeBitrate := c.config.bitrate
      activeScale := 1000
      activeFps := max c.config.framesPerSecond 1
      activeCodec := .auto
      topology := displays
      topologyCheck := now + topologyInterval
      selectedOutput := c.config.outputName.or ((preferred displays).map HostDisplay.name) }
  disk
  sessionTrust := .guestOnce
  grantPermissions := permissionCeiling c policy true
  peerCaps := .empty
  peerHasStreamOptions := false
  activeGuest := none
  effectivePermissions := permissionCeiling c policy false
  audioAllowed := false
  c2hCipher := false
  h2cCipher := false
  udpPeer := false
  mediaReceiver := false
  streamDims := (c.config.display.pixelWidth, c.config.display.pixelHeight)
  senderThread := false
  lastPong := now
  nextPing := now + heartbeatInterval
  injectedInput := false
  clipboardSync := false
  imageId := 0
  nextImagePoll := now
  nextClipboardPoll := now
  lastSentPolicy := policy
  inputDisabledWarned := false
  writes := 0
  sent := []
  effects := []
  packets := []

/-- What a peer without guest permissions is told of them. -/
def policyOf (p : GuestPermissions) : HostPolicy := ⟨p.keyboard && p.mouse, p.clipboard⟩

/-! ### Writing -/

def setAdmission (f : Admission → Admission) : HostAct Unit :=
  modify fun s => { s with admission := f s.admission }

def setMedia (f : Media → Media) : HostAct Unit :=
  modify fun s => { s with media := f s.media }

/-- One write: it counts, and is logged if it succeeds. -/
def writePacket (t : Turn) (p : Sent) : HostAct Unit := do
  let s ← get
  modify fun s => { s with writes := s.writes + 1 }
  attempt .fail (t.write s.writes)
  modify fun s => { s with sent := s.sent ++ [(s.media.stream, p)] }

def send (t : Turn) (p : Sent) : HostAct Unit := do
  let _ ← ofExcept codecExit p.encode
  writePacket t p

def sendTcpControl (t : Turn) (m : ControlMessage) : HostAct Unit := send t (.control m)

def sendPairingReject (t : Turn) (reason : PairingRejectReason) : HostAct Unit :=
  send t (.pairingReject ⟨reason⟩)

def sendSessionEnd (t : Turn) (reason : SessionEndReason) : HostAct Unit := do
  let s ← get
  if s.peerCaps.contains .sessionEnded then sendTcpControl t (.sessionEnded ⟨reason⟩)
  else sendTcpControl t .disconnect

def sendPermissions (t : Turn) (p : GuestPermissions) : HostAct Unit := do
  let s ← get
  if s.peerCaps.contains .guestPermissions then sendTcpControl t (.guestPermissions p)
  else if s.peerCaps.contains .streamOptions then
    sendTcpControl t (.hostPolicy (policyOf p))
  else pure ()

/-- An operation on the pairing store. -/
def onStore {α : Type} (x : StoreAct α) : HostAct α := do
  let s ← get
  modify fun s => { s with disk := (x.exec s.disk).2 }
  ofExcept .fail (x.exec s.disk).1

def log (e : Effect) : HostAct Unit := modify fun s => { s with effects := s.effects ++ [e] }

def logPacket (e : PacketEvent) : HostAct Unit :=
  modify fun s => { s with packets := s.packets ++ [e] }

/-! ### What writing leaves alone -/

def Sent.isGrant : Sent → Bool
  | pairingGrant _ => true
  | _ => false

/-- The answer to a stream configuration request. -/
def Sent.isResponse : Sent → Bool
  | control (.streamConfigResponse _) => true
  | _ => false

def Session.grants (s : Session) : List (Stream × Sent) := s.sent.filter (·.2.isGrant)

def Session.responses (s : Session) : List (Stream × Sent) := s.sent.filter (·.2.isResponse)

/-- What the peer is told of the displays, and of the stream. -/
inductive News
  | displays (displays : List HostDisplay)
  | active (active : StreamOptionsActive)

def Sent.news : Sent → Option News
  | control (.hostDisplayList v) => some (.displays v.displays)
  | control (.streamOptionsActive v) => some (.active v)
  | _ => none

def Session.news (s : Session) : List News := s.sent.filterMap (·.2.news)

/-- What a request of an authenticated peer leaves alone. -/
def Session.entry (s : Session) : Admission × List PacketEvent × List (Stream × Sent) :=
  (s.admission, s.packets, s.grants)

variable {s s' : Session} {p : Sent} {m : ControlMessage}

theorem Session.entry_eq_iff : s'.entry = s.entry ↔
    s'.admission = s.admission ∧ s'.packets = s.packets ∧ s'.grants = s.grants := by
  simp [Session.entry]

/-- What the operations on the pairing store leave alone. -/
def Session.view (s : Session) :
    (Admission × List PacketEvent × List (Stream × Sent)) × Media × List (Stream × Sent) :=
  (s.entry, s.media, s.responses)

theorem Session.view_eq_iff : s'.view = s.view ↔
    s'.entry = s.entry ∧ s'.media = s.media ∧ s'.responses = s.responses := by
  simp [Session.view]

/-- What only the dispatch of a frame changes, but for a recovery of the pipeline. -/
def Session.core (s : Session) :=
  (s.view, s.disk)

/-- An action that leaves the core alone, and the iteration only with the session. -/
abbrev Quiet {α : Type} (x : HostAct α) : Prop := Keeps (Same Session.core) Exit.Ends x

/-- The core, and what the peer was told of the displays. -/
def Session.shown (s : Session) := (s.core, s.news, s.peerHasStreamOptions)

theorem Session.shown_eq_iff : s'.shown = s.shown ↔
    s'.core = s.core ∧ s'.news = s.news ∧ s'.peerHasStreamOptions = s.peerHasStreamOptions := by
  simp [Session.shown]

/-- An action that tells the peer nothing of the displays and leaves the core alone, and the
iteration only with the session. -/
abbrev Calm {α : Type} (x : HostAct α) : Prop := Keeps (Same Session.shown) Exit.Ends x

theorem Calm.quiet {α : Type} {x : HostAct α} (hx : Calm x) : Quiet x :=
  Keeps.mono hx (fun h => congrArg Prod.fst h) fun h => h

theorem exec_send (t : Turn) (p : Sent) (s : Session) :
    (∃ e writes, (send t p).exec s = (.error (.fail e), { s with writes })) ∨
      (send t p).exec s = (.ok (), { s with
        writes := s.writes + 1
        sent := s.sent ++ [(s.media.stream, p)] }) := by
  rw [send, exec_bind]
  rcases p.encode with e | bytes
  · exact Or.inl ⟨.codec e, s.writes, rfl⟩
  · show (∃ e writes, (writePacket t p).exec s = _) ∨ (writePacket t p).exec s = _
    simp only [writePacket, exec_bind, exec_get, exec_modify]
    rcases t.write s.writes with - | e
    · exact Or.inr rfl
    · exact Or.inl ⟨e, s.writes + 1, rfl⟩

theorem writePacket_same {β : Type} {f : Session → β} (t : Turn)
    (hwrites : ∀ s : Session, f { s with writes := s.writes + 1 } = f s)
    (hsent : ∀ s : Session, f { s with sent := s.sent ++ [(s.media.stream, p)] } = f s) :
    Keeps (Same f) Exit.Ends (writePacket t p) := by
  refine Keeps.seq Keeps.read fun s => ?_
  refine Keeps.seq (Keeps.update hwrites) fun _ => ?_
  exact Keeps.seq (Keeps.attempt fun _ => trivial) fun _ => Keeps.update hsent

theorem send_same {β : Type} {f : Session → β} (t : Turn)
    (hwrites : ∀ s : Session, f { s with writes := s.writes + 1 } = f s)
    (hsent : ∀ s : Session, f { s with sent := s.sent ++ [(s.media.stream, p)] } = f s) :
    Keeps (Same f) Exit.Ends (send t p) :=
  Keeps.seq (Keeps.ofExcept fun _ => trivial) fun _ => writePacket_same t hwrites hsent

theorem send_entry (t : Turn) (h : p.isGrant = false) :
    Keeps (Same Session.entry) Exit.Ends (send t p) := by
  refine send_same t (fun _ => rfl) fun s => ?_
  show (s.admission, s.packets, List.filter _ _) = s.entry
  simp [Session.entry, Session.grants, h]

theorem send_media (t : Turn) (h : p.isResponse = false) :
    Keeps (Same fun s : Session => (s.media, s.responses)) Exit.Ends (send t p) := by
  refine send_same t (fun _ => rfl) fun s => ?_
  show (s.media, List.filter _ _) = (s.media, s.responses)
  simp [Session.responses, h]

/-! ### The gate -/

def Effect.isInput : Effect → Bool
  | inject _ | releaseInput => true
  | _ => false

/-- What the injector was given. -/
def Session.inputs (s : Session) : List Effect := s.effects.filter Effect.isInput

/-- What the injector was given, and what decides about the next input event. -/
def Session.gate (s : Session) :=
  (s.inputs, s.effectivePermissions, s.grantPermissions, s.admission.state)

theorem Session.gate_eq_iff : s'.gate = s.gate ↔
    s'.inputs = s.inputs ∧ s'.effectivePermissions = s.effectivePermissions ∧
      s'.grantPermissions = s.grantPermissions ∧ s'.admission.state = s.admission.state := by
  simp [Session.gate]

/-- An action that leaves the gate alone, and the iteration only with the session. -/
abbrev Ungated {α : Type} (x : HostAct α) : Prop := Keeps (Same Session.gate) Exit.Ends x

theorem Ungated.any {α : Type} {x : HostAct α} (hx : Ungated x) :
    Keeps (Same Session.gate) Any x := Keeps.mono hx (fun h => h) fun _ => trivial

/-! ### What leaves the core and the gate alone -/

/-- The core and the gate. -/
def Session.kept (s : Session) := (s.core, s.gate)

/-- An action that leaves both alone, and the iteration only with the session. -/
abbrev Idle {α : Type} (x : HostAct α) : Prop := Keeps (Same Session.kept) Exit.Ends x

theorem Idle.quiet {α : Type} {x : HostAct α} (hx : Idle x) : Quiet x :=
  Keeps.mono hx (fun h => congrArg Prod.fst h) fun h => h

theorem kept_sent (hgrant : p.isGrant = false) (hresponse : p.isResponse = false)
    (s : Session) : Session.kept { s with sent := s.sent ++ [(s.media.stream, p)] } = s.kept := by
  show ((((s.admission, s.packets, List.filter _ _), s.media, List.filter _ _), s.disk), s.gate)
    = s.kept
  simp [Session.kept, Session.core, Session.view, Session.entry, Session.grants,
    Session.responses, hgrant, hresponse]

theorem send_idle (t : Turn) (hgrant : p.isGrant = false)
    (hresponse : p.isResponse = false) : Idle (send t p) :=
  send_same t (fun _ => rfl) (kept_sent hgrant hresponse)

theorem sendTcpControl_idle (t : Turn)
    (h : (Sent.control m).isResponse = false) : Idle (sendTcpControl t m) :=
  send_idle t rfl h

theorem sendTcpControl_quiet (t : Turn)
    (h : (Sent.control m).isResponse = false) : Quiet (sendTcpControl t m) :=
  (sendTcpControl_idle t h).quiet

theorem sendTcpControl_entry (t : Turn) (m : ControlMessage) :
    Keeps (Same Session.entry) Exit.Ends (sendTcpControl t m) := send_entry t rfl

theorem sendTcpControl_gate (t : Turn) (m : ControlMessage) : Ungated (sendTcpControl t m) :=
  send_same t (fun _ => rfl) fun _ => rfl

/-- What leaves the gate alone, and tells the peer nothing of the displays. -/
def Session.still (s : Session) := (s.shown, s.gate)

abbrev Still {α : Type} (x : HostAct α) : Prop := Keeps (Same Session.still) Exit.Ends x

theorem Still.calm {α : Type} {x : HostAct α} (hx : Still x) : Calm x :=
  Keeps.mono hx (fun h => congrArg Prod.fst h) fun h => h

theorem Still.quiet {α : Type} {x : HostAct α} (hx : Still x) : Quiet x := hx.calm.quiet

theorem Still.ungated {α : Type} {x : HostAct α} (hx : Still x) : Ungated x :=
  Keeps.mono hx (fun h => congrArg Prod.snd h) fun h => h

/-- A message that answers no configuration request and is not about the displays. -/
theorem sendTcpControl_still (t : Turn)
    (h : (Sent.control m).isResponse = false) (hnews : (Sent.control m).news = none) :
    Still (sendTcpControl t m) := by
  refine send_same t (fun _ => rfl) fun s => ?_
  obtain ⟨hcore, hgate⟩ := Prod.mk.inj (kept_sent (p := .control m) rfl h s)
  refine Prod.ext (Session.shown_eq_iff.mpr ⟨hcore, ?_, rfl⟩) hgate
  show List.filterMap _ _ = s.news
  simp [Session.news, hnews]

theorem sendSessionEnd_still (t : Turn) (reason : SessionEndReason) :
    Still (sendSessionEnd t reason) := by
  refine Keeps.seq Keeps.read fun s => ?_
  exact Keeps.ite (sendTcpControl_still t rfl rfl) (sendTcpControl_still t rfl rfl)

theorem sendPermissions_still (t : Turn) (p : GuestPermissions) :
    Still (sendPermissions t p) := by
  refine Keeps.seq Keeps.read fun s => ?_
  refine Keeps.ite (sendTcpControl_still t rfl rfl) ?_
  exact Keeps.ite (sendTcpControl_still t rfl rfl) (Keeps.ret ())

theorem view_of_quiet {α : Type} {x : HostAct α} (hx : Quiet x) :
    Keeps (Same Session.view) Exit.Ends x :=
  Keeps.mono hx (fun h => congrArg Prod.fst h) fun h => h

theorem entry_of_view {α : Type} {X : Exit → Prop} {x : HostAct α}
    (hx : Keeps (Same Session.view) X x) : Keeps (Same Session.entry) X x :=
  Keeps.mono hx (fun h => congrArg Prod.fst h) fun h => h

theorem entry_of_core {α : Type} {X : Exit → Prop} {x : HostAct α}
    (hx : Keeps (Same Session.core) X x) : Keeps (Same Session.entry) X x :=
  entry_of_view (Keeps.mono hx (fun h => congrArg Prod.fst h) fun h => h)

theorem entry_of_quiet {α : Type} {x : HostAct α} (hx : Quiet x) :
    Keeps (Same Session.entry) Exit.Ends x := entry_of_view (view_of_quiet hx)

theorem onStore_view {α : Type} (x : StoreAct α) :
    Keeps (Same Session.view) Exit.Ends (onStore x) :=
  Keeps.seq Keeps.read fun _ => Keeps.seq (Keeps.update fun _ => rfl) fun _ => Keeps.ofExcept fun _ => trivial

theorem log_calm (e : Effect) : Calm (log e) := Keeps.update fun _ => rfl

theorem log_still {e : Effect} (h : e.isInput = false) : Still (log e) := by
  refine Keeps.update fun s => ?_
  show (s.shown, (List.filter _ _, _)) = s.still
  simp [Session.still, Session.gate, Session.inputs, h]

end MahoRD.Host

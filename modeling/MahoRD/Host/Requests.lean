/-
MahoRD/Host/Requests.lean

What an authenticated peer may send: input events and control messages, among
them the requests for another stream.

A configuration request changes the bitrate only, and is answered with the size
and the rate the host was configured with; an options request starts another
pipeline.
-/
import MahoRD.Host.Housekeeping

namespace MahoRD.Host

open Act

/-! ### Input -/

def isGamepad : InputEventType → Bool
  | .gamepadAxis | .gamepadButtonDown | .gamepadButtonUp => true
  | _ => false

/-- A failure to acknowledge is not fatal. -/
def sendInputAck (t : Turn) (sequence : UInt32) (success : Bool) (errorCode : UInt8) :
    HostAct Unit := do
  let _ ← outcome (sendTcpControl t (.inputAck ⟨sequence, success, errorCode⟩))

def inputEvent (t : Turn) (header : PacketHeader) (payload : List UInt8) : HostAct Unit := do
  let s ← get
  when (s.admission.state ≠ .authenticated) (throw .next)
  let event ← ofExcept codecExit (InputEvent.decode payload)
  let event := if s.effectivePermissions.keyboard then event
    else { event with modifiers := .empty }
  if ¬ Guests.allows s.effectivePermissions event.eventType
      ∨ isGamepad event.eventType ∧ ¬ s.peerCaps.contains .gamepad then do
    modify fun s => { s with inputDisabledWarned := true }
    sendInputAck t header.sequence false 2
  else do
    log (.inject event)
    modify fun s => { s with injectedInput := s.injectedInput || t.control.injected }
    sendInputAck t header.sequence t.control.injected (if t.control.injected then 0 else 1)

/-! ### Stream configuration -/

def rejectStream (t : Turn) (requestId : UInt32) (reason : StreamConfigurationErrorCode)
    (message : String) : HostAct Unit :=
  sendTcpControl t (.streamConfigReject ⟨requestId, reason, message⟩)

/-- Why a configuration is rejected without trying it. -/
def rejectReason (desired : StreamConfiguration) :
    Option (StreamConfigurationErrorCode × String) :=
  if desired.width = 0 ∨ desired.height = 0 ∨ 7680 < desired.width ∨ 4320 < desired.height then
    some (.unsupportedDimensions, "unsupported dimensions")
  else if desired.framesPerSecond = 0 ∨ 240 < desired.framesPerSecond then
    some (.unsupportedFps, "unsupported fps")
  else if desired.bitrate < 100000 ∨ 300000000 < desired.bitrate then
    some (.unsupportedBitrate, "unsupported bitrate")
  else none

/-- The pipeline has taken over another bitrate. -/
def setBitrate (bitrate : UInt32) : HostAct Unit :=
  setMedia fun m => { m with
    activeBitrate := bitrate
    stream := { m.stream with bitrate } }

/-- The configuration that is answered. -/
def activeConfiguration (c : Connection) (bitrate : UInt32) : StreamConfiguration where
  width := c.config.display.pixelWidth
  height := c.config.display.pixelHeight
  bitrate
  framesPerSecond := c.config.framesPerSecond.toUInt16

def respondStreamConfig (c : Connection) (t : Turn) (requestId : UInt32) : HostAct Unit := do
  let s ← get
  sendTcpControl t (.streamConfigResponse
    ⟨requestId, activeConfiguration c s.media.activeBitrate⟩)

def streamConfigRequest (c : Connection) (t : Turn) (req : StreamConfigurationRequest) :
    HostAct Unit := do
  let s ← get
  match rejectReason req.desired with
  | some (reason, message) => rejectStream t req.requestId reason message
  | none =>
    -- without a pipeline there is nothing to ask, and the bitrate stays
    if s.media.pipeline ∧ t.control.updateBitrate.isSome then
      rejectStream t req.requestId .unsupportedBitrate "bitrate update was not applied"
    else do
      when s.media.pipeline (setBitrate req.desired.bitrate)
      respondStreamConfig c t req.requestId

/-! ### Stream options -/

def validateStreamOptions (request : StreamOptionsRequest) (displays : List HostDisplay) :
    Except (StreamConfigurationErrorCode × String) Unit :=
  if request.scalePermille < 100 ∨ 1000 < request.scalePermille then
    .error (.unsupportedDimensions,
      "unsupported scale " ++ toString request.scalePermille ++ " permille; must be 100..=1000")
  else if request.fps < 1 ∨ 240 < request.fps then
    .error (.unsupportedFps, "unsupported fps " ++ toString request.fps ++ "; must be 1..=240")
  else if displays.length ≤ request.displayIndex.toNat then
    .error (.invalidRequest,
      "display index " ++ toString request.displayIndex ++ " out of range; "
        ++ toString displays.length ++ " displays available")
  else .ok ()

/-- One side of a display at the requested scale. -/
def requestedSide (side : UInt32) (scale : UInt16) : UInt32 :=
  (max (side.toUInt64 * scale.toUInt64 / 1000 &&& ~~~1) 2).toUInt32

def resolvedCodec : StreamCodecPreference → StreamCodecPreference
  | .auto | .hevc => .hevc
  | .h264 => .h264

/-- The requested pipeline has been started and replaces the one before. -/
def applyOptions (c : Connection) (t : Turn) (request : StreamOptionsRequest)
    (selected : HostDisplay) : HostAct Unit := do
  let s ← get
  let width := requestedSide selected.width request.scalePermille
  let height := requestedSide selected.height request.scalePermille
  let bitrate := if request.bitrate ≠ 0 then request.bitrate else s.media.activeBitrate
  handOver width height
  setMedia fun m => { m with
    pipeline := true
    stream := ⟨width, height, request.fps.toUInt32, bitrate⟩ }
  when (c.platform = .linux) (attempt .fail t.control.geometry)
  setMedia fun m => { m with
    activeBitrate := bitrate
    selectedOutput := some selected.name
    activeScale := request.scalePermille
    activeFps := request.fps.toUInt32
    activeCodec := resolvedCodec request.codec }
  when (c.platform = .windows) (attempt .fail t.control.geometry)
  sendTcpControl t (.streamOptionsActive ⟨request.requestId, width, height, request.fps,
    resolvedCodec request.codec, request.displayIndex, bitrate⟩)

/-- What is rejected of a valid request. -/
def restartStream (c : Connection) (t : Turn) (request : StreamOptionsRequest)
    (selected : HostDisplay) : HostAct Unit :=
  if ¬ c.restartFactory then
    rejectStream t request.requestId .rejectedByPeer
      "stream options are not supported on this host platform yet"
  else if c.platform = .macos ∧ request.codec = .h264 then
    rejectStream t request.requestId .rejectedByPeer
      "macOS VideoToolbox source supports HEVC only"
  else if c.platform = .windows ∧ request.scalePermille ≠ 1000 ∧ ¬ t.control.cpuScaling then
    rejectStream t request.requestId .unsupportedDimensions
      "Windows CPU capture does not support scaling"
  else
    match t.control.start with
    | some error =>
      rejectStream t request.requestId .rejectedByPeer ("pipeline start error: " ++ error)
    | none => applyOptions c t request selected

def streamOptionsRequest (c : Connection) (t : Turn) (request : StreamOptionsRequest) :
    HostAct Unit :=
  match validateStreamOptions request t.control.displays with
  | .error (reason, message) => rejectStream t request.requestId reason message
  | .ok () =>
    match t.control.displays[request.displayIndex.toNat]? with
    -- a validated request names a display
    | none => pure ()
    | some selected => restartStream c t request selected

/-! ### Control messages -/

/-- The clipboard is shared with the peer. -/
def sharesClipboard (c : Connection) (s : Session) : Bool :=
  c.hasClipboard && s.clipboardSync && s.effectivePermissions.clipboard

def serveControl (c : Connection) (t : Turn) (s : Session) : ControlMessage → HostAct Unit
  | .rttPing probe => sendTcpControl t (.rttPong probe)
  | .secureAttentionRequest request => do
    when s.activeGuest.isNone (throw (.fail .preAuth))
    sendTcpControl t
      (.secureAttentionResponse ⟨request.requestId, t.control.secureAttention⟩)
  | .pairingTrustRequest _ | .pairingTrustGrant _ | .guestPermissions _ | .hostStatus _
  | .sessionEnded _ | .rttPong _ | .secureAttentionResponse _ => throw (.fail .preAuth)
  | .clipboardImageChunk chunk =>
    when (sharesClipboard c s ∧ s.peerCaps.contains .clipboardImage
      ∧ c.hostCaps.contains .clipboardImage) (log (.clipboardImageChunk chunk))
  | .requestKeyFrame => when s.media.pipeline (attempt .fail t.control.forceKeyFrame)
  | .bitrateAdjust adjust =>
    when (0 < adjust.targetBitrate ∧ s.media.pipeline ∧ t.control.updateBitrate.isNone)
      (setBitrate adjust.targetBitrate.toUInt32)
  | .streamConfigRequest req => streamConfigRequest c t req
  | .streamOptionsRequest request => streamOptionsRequest c t request
  | .ping => sendTcpControl t .pong
  | .pong => modify fun s => { s with lastPong := t.control.now }
  | .clipboardSyncUpdate update =>
    when (sharesClipboard c s ∧ update.direction ≠ .hostToClient)
      (log (.clipboardText update.text))
  | .disconnect | .stopStream => throw .leave
  | _ => pure ()

def control (c : Connection) (t : Turn) (payload : List UInt8) : HostAct Unit := do
  let s ← get
  when (s.admission.state ≠ .authenticated) (throw .next)
  let control ← ofExcept codecExit (ControlMessage.decode payload)
  when (¬ control.messageType.supportedBy
      (c.hostCaps ||| .streamOptions ||| .streamConfiguration) s.peerCaps)
    (throw (.fail .preAuth))
  serveControl c t s control

/-! ### What requests leave alone -/

theorem sendInputAck_still (t : Turn) (sequence : UInt32) (success : Bool) (errorCode : UInt8) :
    Still (sendInputAck t sequence success errorCode) :=
  Keeps.seq (Keeps.outcome (sendTcpControl_still t rfl rfl)) fun _ => Keeps.ret ()

theorem inputEvent_calm (t : Turn) (header : PacketHeader) (payload : List UInt8) :
    Keeps (Same Session.shown) Any (inputEvent t header payload) := by
  have hack : ∀ sequence success errorCode,
      Keeps (Same Session.shown) Any (sendInputAck t sequence success errorCode) :=
    fun sequence success errorCode =>
      Keeps.mono (sendInputAck_still t sequence success errorCode).calm (fun h => h) fun _ => trivial
  refine Keeps.seq Keeps.read fun s => ?_
  refine Keeps.seq (Keeps.when (Keeps.raise trivial)) fun _ => ?_
  refine Keeps.seq (Keeps.ofExcept fun _ => trivial) fun event => ?_
  apply Keeps.ite
  · exact Keeps.seq (Keeps.update fun _ => rfl) fun _ => hack _ _ _
  · refine Keeps.seq (Keeps.update fun _ => rfl) fun _ => ?_
    exact Keeps.seq (Keeps.update fun _ => rfl) fun _ => hack _ _ _

theorem inputEvent_quiet (t : Turn) (header : PacketHeader) (payload : List UInt8) :
    Keeps (Same Session.core) Any (inputEvent t header payload) :=
  Keeps.mono (inputEvent_calm t header payload) (fun h => congrArg Prod.fst h) fun _ => trivial

theorem rejectStream_still (t : Turn) (requestId : UInt32)
    (reason : StreamConfigurationErrorCode) (message : String) :
    Still (rejectStream t requestId reason message) := sendTcpControl_still t rfl rfl

theorem streamConfigRequest_entry (c : Connection) (t : Turn) (req : StreamConfigurationRequest) :
    Keeps (Same Session.entry) Exit.Ends (streamConfigRequest c t req) := by
  refine Keeps.seq Keeps.read fun s => ?_
  split
  · exact entry_of_quiet (rejectStream_still t _ _ _).quiet
  apply Keeps.ite
  · exact entry_of_quiet (rejectStream_still t _ _ _).quiet
  · refine Keeps.seq (Keeps.when (Keeps.update fun _ => rfl)) fun _ => ?_
    exact Keeps.seq Keeps.read fun s => sendTcpControl_entry t _

theorem applyOptions_entry (c : Connection) (t : Turn) (request : StreamOptionsRequest)
    (selected : HostDisplay) :
    Keeps (Same Session.entry) Exit.Ends (applyOptions c t request selected) := by
  refine Keeps.seq Keeps.read fun s => ?_
  refine Keeps.seq (entry_of_quiet (handOver_still _ _).quiet) fun _ => ?_
  refine Keeps.seq (Keeps.update fun _ => rfl) fun _ => ?_
  refine Keeps.seq (Keeps.when (Keeps.attempt fun _ => trivial)) fun _ => ?_
  refine Keeps.seq (Keeps.update fun _ => rfl) fun _ => ?_
  exact Keeps.seq (Keeps.when (Keeps.attempt fun _ => trivial)) fun _ => sendTcpControl_entry t _

theorem streamOptionsRequest_cases (c : Connection) (t : Turn) (request : StreamOptionsRequest)
    {motive : HostAct Unit → Prop} (hreject : ∀ reason message,
      motive (rejectStream t request.requestId reason message)) (hnone : motive (pure ()))
    (happly : ∀ selected, motive (applyOptions c t request selected)) :
    motive (streamOptionsRequest c t request) := by
  rw [streamOptionsRequest]
  rcases validateStreamOptions request t.control.displays with ⟨reason, message⟩ | -
  · exact hreject reason message
  show motive (match t.control.displays[request.displayIndex.toNat]? with
    | none => pure ()
    | some selected => restartStream c t request selected)
  rcases t.control.displays[request.displayIndex.toNat]? with - | selected
  · exact hnone
  show motive (restartStream c t request selected)
  rw [restartStream]
  split
  · exact hreject _ _
  split
  · exact hreject _ _
  split
  · exact hreject _ _
  rcases t.control.start with - | error
  · exact happly selected
  · exact hreject _ _

theorem streamOptionsRequest_entry (c : Connection) (t : Turn) (request : StreamOptionsRequest) :
    Keeps (Same Session.entry) Exit.Ends (streamOptionsRequest c t request) :=
  streamOptionsRequest_cases c t request
    (fun _ _ => entry_of_quiet (rejectStream_still t _ _ _).quiet) (Keeps.ret ())
    (applyOptions_entry c t request)

/-- A control message other than the two requests for the stream and a change of
the bitrate. -/
def isPlain : ControlMessage → Bool
  | .bitrateAdjust _ | .streamConfigRequest _ | .streamOptionsRequest _ => false
  | _ => true

theorem serveControl_still (c : Connection) (t : Turn) (s : Session) {m : ControlMessage}
    (h : isPlain m = true) : Still (serveControl c t s m) := by
  cases m with
  | bitrateAdjust v => cases h
  | streamConfigRequest v => cases h
  | streamOptionsRequest v => cases h
  | secureAttentionRequest request =>
    exact Keeps.seq (Keeps.when (Keeps.raise trivial)) fun _ => sendTcpControl_still t rfl rfl
  | clipboardImageChunk chunk => exact Keeps.when (log_still rfl)
  | clipboardSyncUpdate update => exact Keeps.when (log_still rfl)
  | requestKeyFrame => exact Keeps.when (Keeps.attempt fun _ => trivial)
  | pong => exact Keeps.update fun _ => rfl
  | rttPing probe => exact sendTcpControl_still t rfl rfl
  | ping => exact sendTcpControl_still t rfl rfl
  | disconnect | stopStream | pairingTrustRequest v | pairingTrustGrant v | guestPermissions v
  | hostStatus v | sessionEnded v | rttPong v | secureAttentionResponse v => exact Keeps.raise trivial
  | startStream | streamConfigResponse v | streamConfigReject v | streamConfigError v
  | clipboardSyncRequest v | clipboardSyncError v | inputAck v | streamOptionsActive v
  | hostDisplayList v | hostPolicy v => exact Keeps.ret ()

theorem serveControl_entry (c : Connection) (t : Turn) (s : Session) (m : ControlMessage) :
    Keeps (Same Session.entry) Exit.Ends (serveControl c t s m) := by
  by_cases hplain : isPlain m = true
  · exact entry_of_quiet (serveControl_still c t s hplain).quiet
  cases m with
  | bitrateAdjust v => exact Keeps.when (Keeps.update fun _ => rfl)
  | streamConfigRequest req => exact streamConfigRequest_entry c t req
  | streamOptionsRequest request => exact streamOptionsRequest_entry c t request
  | _ => exact absurd rfl hplain

theorem control_entry (c : Connection) (t : Turn) (payload : List UInt8) :
    Keeps (Same Session.entry) Any (control c t payload) := by
  refine Keeps.seq Keeps.read fun s => ?_
  refine Keeps.seq (Keeps.when (Keeps.raise trivial)) fun _ => ?_
  refine Keeps.seq (Keeps.ofExcept fun _ => trivial) fun m => ?_
  refine Keeps.seq (Keeps.when (Keeps.raise trivial)) fun _ => ?_
  exact Keeps.mono (serveControl_entry c t s m) (fun h => h) fun _ => trivial

end MahoRD.Host

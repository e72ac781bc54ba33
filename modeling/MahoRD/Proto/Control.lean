/-
MahoRD/Proto/Control.lean

The control messages (`maho-proto/src/control.rs`).  A message is one byte for
its type and a body; the body of a type without a value is empty.
-/
import MahoRD.Proto.Handshake
import MahoRD.Proto.Parity

namespace MahoRD

def maxClipboardTextBytes : ℕ := 4096

def maxHostDisplays : ℕ := 16

def maxHostDisplayNameBytes : ℕ := 64

/-! ### Types of messages -/

inductive ControlMessageType
  | requestKeyFrame | startStream | stopStream | disconnect | ping | pong | bitrateAdjust
  | streamConfigRequest | streamConfigResponse | streamConfigReject | streamConfigError
  | clipboardSyncRequest | clipboardSyncUpdate | clipboardSyncError | inputAck
  | streamOptionsRequest | streamOptionsActive | hostDisplayList | hostPolicy
  | secureAttentionRequest | secureAttentionResponse | hostStatus | sessionEnded
  | guestPermissions | pairingTrustRequest | pairingTrustGrant | clipboardImageChunk
  | rttPing | rttPong
  deriving DecidableEq

namespace ControlMessageType

def toByte : ControlMessageType → UInt8
  | requestKeyFrame => 0
  | startStream => 1
  | stopStream => 2
  | disconnect => 3
  | ping => 4
  | pong => 5
  | bitrateAdjust => 6
  | streamConfigRequest => 7
  | streamConfigResponse => 8
  | streamConfigReject => 9
  | streamConfigError => 10
  | clipboardSyncRequest => 11
  | clipboardSyncUpdate => 12
  | clipboardSyncError => 13
  | inputAck => 14
  | streamOptionsRequest => 15
  | streamOptionsActive => 16
  | hostDisplayList => 17
  | hostPolicy => 18
  | secureAttentionRequest => 19
  | secureAttentionResponse => 20
  | hostStatus => 21
  | sessionEnded => 22
  | guestPermissions => 23
  | pairingTrustRequest => 24
  | pairingTrustGrant => 25
  | clipboardImageChunk => 26
  | rttPing => 27
  | rttPong => 28

def tryFrom : UInt8 → Except CodecError ControlMessageType
  | 0 => .ok requestKeyFrame
  | 1 => .ok startStream
  | 2 => .ok stopStream
  | 3 => .ok disconnect
  | 4 => .ok ping
  | 5 => .ok pong
  | 6 => .ok bitrateAdjust
  | 7 => .ok streamConfigRequest
  | 8 => .ok streamConfigResponse
  | 9 => .ok streamConfigReject
  | 10 => .ok streamConfigError
  | 11 => .ok clipboardSyncRequest
  | 12 => .ok clipboardSyncUpdate
  | 13 => .ok clipboardSyncError
  | 14 => .ok inputAck
  | 15 => .ok streamOptionsRequest
  | 16 => .ok streamOptionsActive
  | 17 => .ok hostDisplayList
  | 18 => .ok hostPolicy
  | 19 => .ok secureAttentionRequest
  | 20 => .ok secureAttentionResponse
  | 21 => .ok hostStatus
  | 22 => .ok sessionEnded
  | 23 => .ok guestPermissions
  | 24 => .ok pairingTrustRequest
  | 25 => .ok pairingTrustGrant
  | 26 => .ok clipboardImageChunk
  | 27 => .ok rttPing
  | 28 => .ok rttPong
  | unknown => .error (.unknownControlMessageType unknown)

theorem tryFrom_toByte (t : ControlMessageType) : tryFrom t.toByte = .ok t := by
  cases t <;> rfl

/-- The capability that both peers need for a parity extension. -/
def requiredCapability : ControlMessageType → Option Capabilities
  | secureAttentionRequest | secureAttentionResponse => some Capabilities.secureAttention
  | hostStatus => some Capabilities.hostStatus
  | sessionEnded => some Capabilities.sessionEnded
  | guestPermissions => some Capabilities.guestPermissions
  | pairingTrustRequest | pairingTrustGrant => some Capabilities.pairingTrust
  | clipboardImageChunk => some Capabilities.clipboardImage
  | rttPing | rttPong => some Capabilities.rttProbe
  | _ => none

def supportedBy (t : ControlMessageType) (here peer : Capabilities) : Bool :=
  match t.requiredCapability with
  | some required => here.contains required && peer.contains required
  | none => true

end ControlMessageType

/-! ### Bitrate and input acknowledgements -/

structure BitrateAdjust where
  targetBitrate : Int32
  deriving DecidableEq

namespace BitrateAdjust

def encode (v : BitrateAdjust) : Except CodecError (List UInt8) := .ok (pushI32 [] v.targetBitrate)

def decoder : Decoder BitrateAdjust := do
  let targetBitrate ← Decoder.i32 "target bitrate"
  Decoder.finish "bitrate adjustment"
  return ⟨targetBitrate⟩

def decode (input : List UInt8) : Except CodecError BitrateAdjust := decoder.run' input

end BitrateAdjust

structure InputAckMessage where
  sequence : UInt32
  success : Bool
  errorCode : UInt8
  deriving DecidableEq

namespace InputAckMessage

def encode (v : InputAckMessage) : Except CodecError (List UInt8) :=
  .ok (pushU32 [] v.sequence ++ [boolByte v.success, v.errorCode])

def decoder : Decoder InputAckMessage := do
  let sequence ← Decoder.u32 "input ack sequence"
  let success ← Decoder.u8 "input ack success"
  let errorCode ← Decoder.u8 "input ack error code"
  Decoder.finish "input ack message"
  return ⟨sequence, success != 0, errorCode⟩

def decode (input : List UInt8) : Except CodecError InputAckMessage := decoder.run' input

end InputAckMessage

/-! ### Stream configuration -/

structure StreamConfiguration where
  width : UInt32
  height : UInt32
  bitrate : UInt32
  framesPerSecond : UInt16
  deriving DecidableEq

namespace StreamConfiguration

def encodeInto (v : StreamConfiguration) (output : List UInt8) : List UInt8 :=
  pushU16 (pushU32 (pushU32 (pushU32 output v.width) v.height) v.bitrate) v.framesPerSecond

def decodeFrom : Decoder StreamConfiguration := do
  let width ← Decoder.u32 "stream width"
  let height ← Decoder.u32 "stream height"
  let bitrate ← Decoder.u32 "stream bitrate"
  let framesPerSecond ← Decoder.u16 "stream frames per second"
  return ⟨width, height, bitrate, framesPerSecond⟩

end StreamConfiguration

structure StreamConfigurationRequest where
  requestId : UInt32
  desired : StreamConfiguration
  deriving DecidableEq

namespace StreamConfigurationRequest

def encode (v : StreamConfigurationRequest) : Except CodecError (List UInt8) :=
  .ok (v.desired.encodeInto (pushU32 [] v.requestId))

def decoder : Decoder StreamConfigurationRequest := do
  let requestId ← Decoder.u32 "stream request ID"
  let desired ← StreamConfiguration.decodeFrom
  Decoder.finish "stream configuration request"
  return ⟨requestId, desired⟩

def decode (input : List UInt8) : Except CodecError StreamConfigurationRequest :=
  decoder.run' input

end StreamConfigurationRequest

structure StreamConfigurationResponse where
  requestId : UInt32
  active : StreamConfiguration
  deriving DecidableEq

namespace StreamConfigurationResponse

def encode (v : StreamConfigurationResponse) : Except CodecError (List UInt8) :=
  .ok (v.active.encodeInto (pushU32 [] v.requestId))

def decoder : Decoder StreamConfigurationResponse := do
  let requestId ← Decoder.u32 "stream response ID"
  let active ← StreamConfiguration.decodeFrom
  Decoder.finish "stream configuration response"
  return ⟨requestId, active⟩

def decode (input : List UInt8) : Except CodecError StreamConfigurationResponse :=
  decoder.run' input

end StreamConfigurationResponse

inductive StreamConfigurationErrorCode
  | invalidRequest | unsupportedDimensions | unsupportedBitrate | unsupportedFps | rejectedByPeer
  deriving DecidableEq

namespace StreamConfigurationErrorCode

def toByte : StreamConfigurationErrorCode → UInt8
  | invalidRequest => 0
  | unsupportedDimensions => 1
  | unsupportedBitrate => 2
  | unsupportedFps => 3
  | rejectedByPeer => 4

def tryFrom : UInt8 → Except CodecError StreamConfigurationErrorCode
  | 0 => .ok invalidRequest
  | 1 => .ok unsupportedDimensions
  | 2 => .ok unsupportedBitrate
  | 3 => .ok unsupportedFps
  | 4 => .ok rejectedByPeer
  | unknown => .error (.unknownStreamConfigurationErrorCode unknown)

end StreamConfigurationErrorCode

def encodeStreamProblem (requestId : UInt32) (code : StreamConfigurationErrorCode)
    (message : String) : Except CodecError (List UInt8) := do
  let message ← checkedBytes message "stream configuration message" 65535
  let length ← usizeToU16 message.length "stream configuration message"
  return pushU16 (pushU32 [] requestId ++ [code.toByte]) length ++ message

def decodeStreamProblem (field : String) :
    Decoder (UInt32 × StreamConfigurationErrorCode × String) := do
  let requestId ← Decoder.u32 "stream problem request ID"
  let byte ← Decoder.u8 "stream problem code"
  let code ← (StreamConfigurationErrorCode.tryFrom byte : Except CodecError _)
  let length ← Decoder.u16 "stream problem message length"
  let message ← Decoder.utf8 length.toNat "stream configuration message"
  Decoder.finish field
  return (requestId, code, message)

structure StreamConfigurationReject where
  requestId : UInt32
  reason : StreamConfigurationErrorCode
  message : String
  deriving DecidableEq

namespace StreamConfigurationReject

def encode (v : StreamConfigurationReject) : Except CodecError (List UInt8) :=
  encodeStreamProblem v.requestId v.reason v.message

def decoder : Decoder StreamConfigurationReject := do
  let (requestId, reason, message) ← decodeStreamProblem "stream configuration reject"
  return ⟨requestId, reason, message⟩

def decode (input : List UInt8) : Except CodecError StreamConfigurationReject :=
  decoder.run' input

end StreamConfigurationReject

structure StreamConfigurationError where
  requestId : UInt32
  errorCode : StreamConfigurationErrorCode
  message : String
  deriving DecidableEq

namespace StreamConfigurationError

def encode (v : StreamConfigurationError) : Except CodecError (List UInt8) :=
  encodeStreamProblem v.requestId v.errorCode v.message

def decoder : Decoder StreamConfigurationError := do
  let (requestId, errorCode, message) ← decodeStreamProblem "stream configuration error"
  return ⟨requestId, errorCode, message⟩

def decode (input : List UInt8) : Except CodecError StreamConfigurationError := decoder.run' input

end StreamConfigurationError

/-! ### Clipboard text -/

inductive ClipboardSyncDirection
  | hostToClient | clientToHost | bidirectional
  deriving DecidableEq

namespace ClipboardSyncDirection

def toByte : ClipboardSyncDirection → UInt8
  | hostToClient => 0
  | clientToHost => 1
  | bidirectional => 2

def tryFrom : UInt8 → Except CodecError ClipboardSyncDirection
  | 0 => .ok hostToClient
  | 1 => .ok clientToHost
  | 2 => .ok bidirectional
  | unknown => .error (.unknownClipboardDirection unknown)

end ClipboardSyncDirection

inductive ClipboardSyncOrigin
  | localPasteboard | remotePasteboard | syncedFromPeer
  deriving DecidableEq

namespace ClipboardSyncOrigin

def toByte : ClipboardSyncOrigin → UInt8
  | localPasteboard => 0
  | remotePasteboard => 1
  | syncedFromPeer => 2

def tryFrom : UInt8 → Except CodecError ClipboardSyncOrigin
  | 0 => .ok localPasteboard
  | 1 => .ok remotePasteboard
  | 2 => .ok syncedFromPeer
  | unknown => .error (.unknownClipboardOrigin unknown)

end ClipboardSyncOrigin

def Decoder.clipboardDirection : Decoder ClipboardSyncDirection := do
  let byte ← Decoder.u8 "clipboard direction"
  (ClipboardSyncDirection.tryFrom byte : Except CodecError _)

def Decoder.clipboardOrigin : Decoder ClipboardSyncOrigin := do
  let byte ← Decoder.u8 "clipboard origin"
  (ClipboardSyncOrigin.tryFrom byte : Except CodecError _)

structure ClipboardSyncRequest where
  requestId : UInt32
  direction : ClipboardSyncDirection
  origin : ClipboardSyncOrigin
  deriving DecidableEq

namespace ClipboardSyncRequest

def encode (v : ClipboardSyncRequest) : Except CodecError (List UInt8) :=
  .ok (pushU32 [] v.requestId ++ [v.direction.toByte, v.origin.toByte])

def decoder : Decoder ClipboardSyncRequest := do
  let requestId ← Decoder.u32 "clipboard request ID"
  let direction ← Decoder.clipboardDirection
  let origin ← Decoder.clipboardOrigin
  Decoder.finish "clipboard sync request"
  return ⟨requestId, direction, origin⟩

def decode (input : List UInt8) : Except CodecError ClipboardSyncRequest := decoder.run' input

end ClipboardSyncRequest

structure ClipboardSyncUpdate where
  requestId : UInt32
  direction : ClipboardSyncDirection
  origin : ClipboardSyncOrigin
  text : String
  deriving DecidableEq

namespace ClipboardSyncUpdate

def encode (v : ClipboardSyncUpdate) : Except CodecError (List UInt8) := do
  let text ← checkedBytes v.text "clipboard text" maxClipboardTextBytes
  let length ← usizeToU16 text.length "clipboard text"
  return pushU16 (pushU32 [] v.requestId ++ [v.direction.toByte, v.origin.toByte]) length ++ text

def decoder : Decoder ClipboardSyncUpdate := do
  let requestId ← Decoder.u32 "clipboard update ID"
  let direction ← Decoder.clipboardDirection
  let origin ← Decoder.clipboardOrigin
  let length ← Decoder.u16 "clipboard text length"
  if length.toNat > maxClipboardTextBytes then
    throw (.lengthLimit "clipboard text" length.toNat maxClipboardTextBytes)
  let text ← Decoder.utf8 length.toNat "clipboard text"
  Decoder.finish "clipboard sync update"
  return ⟨requestId, direction, origin, text⟩

def decode (input : List UInt8) : Except CodecError ClipboardSyncUpdate := decoder.run' input

end ClipboardSyncUpdate

structure ClipboardSyncError where
  requestId : UInt32
  direction : ClipboardSyncDirection
  origin : ClipboardSyncOrigin
  errorCode : UInt8
  message : String
  deriving DecidableEq

namespace ClipboardSyncError

def encode (v : ClipboardSyncError) : Except CodecError (List UInt8) := do
  let message ← checkedBytes v.message "clipboard error message" 65535
  let length ← usizeToU16 message.length "clipboard error message"
  return pushU16 (pushU32 [] v.requestId ++ [v.direction.toByte, v.origin.toByte, v.errorCode])
    length ++ message

def decoder : Decoder ClipboardSyncError := do
  let requestId ← Decoder.u32 "clipboard error ID"
  let direction ← Decoder.clipboardDirection
  let origin ← Decoder.clipboardOrigin
  let errorCode ← Decoder.u8 "clipboard error code"
  let length ← Decoder.u16 "clipboard error message length"
  let message ← Decoder.utf8 length.toNat "clipboard error message"
  Decoder.finish "clipboard sync error"
  return ⟨requestId, direction, origin, errorCode, message⟩

def decode (input : List UInt8) : Except CodecError ClipboardSyncError := decoder.run' input

end ClipboardSyncError

/-! ### Stream options -/

inductive StreamCodecPreference
  | auto | h264 | hevc
  deriving DecidableEq

namespace StreamCodecPreference

def toByte : StreamCodecPreference → UInt8
  | auto => 0
  | h264 => 1
  | hevc => 2

def tryFrom : UInt8 → Except CodecError StreamCodecPreference
  | 0 => .ok auto
  | 1 => .ok h264
  | 2 => .ok hevc
  | unknown => .error (.invalidValue "stream codec" unknown.toNat)

end StreamCodecPreference

structure StreamOptionsRequest where
  requestId : UInt32
  scalePermille : UInt16
  fps : UInt16
  codec : StreamCodecPreference
  displayIndex : UInt8
  bitrate : UInt32
  deriving DecidableEq

namespace StreamOptionsRequest

def encode (v : StreamOptionsRequest) : Except CodecError (List UInt8) :=
  .ok (pushU32 (pushU16 (pushU16 (pushU32 [] v.requestId) v.scalePermille) v.fps
    ++ [v.codec.toByte, v.displayIndex]) v.bitrate)

def decoder : Decoder StreamOptionsRequest := do
  let requestId ← Decoder.u32 "stream options request id"
  let scalePermille ← Decoder.u16 "stream options scale permille"
  let fps ← Decoder.u16 "stream options fps"
  let byte ← Decoder.u8 "stream codec"
  let codec ← (StreamCodecPreference.tryFrom byte : Except CodecError _)
  let displayIndex ← Decoder.u8 "stream options display index"
  let bitrate ← Decoder.u32 "stream options bitrate"
  Decoder.finish "stream options request"
  return ⟨requestId, scalePermille, fps, codec, displayIndex, bitrate⟩

def decode (input : List UInt8) : Except CodecError StreamOptionsRequest := decoder.run' input

end StreamOptionsRequest

structure StreamOptionsActive where
  requestId : UInt32
  width : UInt32
  height : UInt32
  fps : UInt16
  codec : StreamCodecPreference
  displayIndex : UInt8
  bitrate : UInt32
  deriving DecidableEq

namespace StreamOptionsActive

def encode (v : StreamOptionsActive) : Except CodecError (List UInt8) :=
  .ok (pushU32 (pushU16 (pushU32 (pushU32 (pushU32 [] v.requestId) v.width) v.height) v.fps
    ++ [v.codec.toByte, v.displayIndex]) v.bitrate)

def decoder : Decoder StreamOptionsActive := do
  let requestId ← Decoder.u32 "stream options active request id"
  let width ← Decoder.u32 "stream options active width"
  let height ← Decoder.u32 "stream options active height"
  let fps ← Decoder.u16 "stream options active fps"
  let byte ← Decoder.u8 "stream codec"
  let codec ← (StreamCodecPreference.tryFrom byte : Except CodecError _)
  let displayIndex ← Decoder.u8 "stream options active display index"
  let bitrate ← Decoder.u32 "stream options active bitrate"
  Decoder.finish "stream options active"
  return ⟨requestId, width, height, fps, codec, displayIndex, bitrate⟩

def decode (input : List UInt8) : Except CodecError StreamOptionsActive := decoder.run' input

end StreamOptionsActive

structure HostDisplay where
  index : UInt8
  width : UInt32
  height : UInt32
  primary : Bool
  name : String
  deriving DecidableEq

structure HostDisplayList where
  displays : List HostDisplay
  deriving DecidableEq

namespace HostDisplayList

def encodeDisplay (d : HostDisplay) : List UInt8 :=
  pushU32 (pushU32 [d.index] d.width) d.height
    ++ [boolByte d.primary, UInt8.ofNat (utf8 d.name).length] ++ utf8 d.name

def encode (v : HostDisplayList) : Except CodecError (List UInt8) :=
  if v.displays.length > maxHostDisplays then
    .error (.lengthLimit "host display count" v.displays.length maxHostDisplays)
  else
    match v.displays.find? fun d => (utf8 d.name).length > maxHostDisplayNameBytes with
    | some d => .error (.lengthLimit "host display name" (utf8 d.name).length
        maxHostDisplayNameBytes)
    | none => .ok (UInt8.ofNat v.displays.length :: v.displays.flatMap encodeDisplay)

def display : Decoder HostDisplay := do
  let index ← Decoder.u8 "host display index"
  let width ← Decoder.u32 "host display width"
  let height ← Decoder.u32 "host display height"
  let primary ← Decoder.bool "host display primary"
  let length ← Decoder.u8 "host display name length"
  if length.toNat > maxHostDisplayNameBytes then
    throw (.lengthLimit "host display name" length.toNat maxHostDisplayNameBytes)
  let name ← Decoder.utf8 length.toNat "host display name"
  return ⟨index, width, height, primary, name⟩

def decoder : Decoder HostDisplayList := do
  let count ← Decoder.u8 "host display count"
  if count.toNat > maxHostDisplays then
    throw (.lengthLimit "host display count" count.toNat maxHostDisplays)
  let displays ← (List.replicate count.toNat ()).mapM fun _ => display
  Decoder.finish "host display list"
  return ⟨displays⟩

def decode (input : List UInt8) : Except CodecError HostDisplayList := decoder.run' input

end HostDisplayList

structure HostPolicy where
  allowInput : Bool
  allowClipboard : Bool
  deriving DecidableEq

namespace HostPolicy

def encode (v : HostPolicy) : Except CodecError (List UInt8) :=
  .ok [boolByte v.allowInput, boolByte v.allowClipboard]

def decoder : Decoder HostPolicy := do
  let allowInput ← Decoder.bool "host policy allow_input"
  let allowClipboard ← Decoder.bool "host policy allow_clipboard"
  Decoder.finish "host policy"
  return ⟨allowInput, allowClipboard⟩

def decode (input : List UInt8) : Except CodecError HostPolicy := decoder.run' input

end HostPolicy

/-! ### Messages -/

inductive ControlMessage
  | requestKeyFrame
  | startStream
  | stopStream
  | disconnect
  | ping
  | pong
  | bitrateAdjust (v : BitrateAdjust)
  | streamConfigRequest (v : StreamConfigurationRequest)
  | streamConfigResponse (v : StreamConfigurationResponse)
  | streamConfigReject (v : StreamConfigurationReject)
  | streamConfigError (v : StreamConfigurationError)
  | clipboardSyncRequest (v : ClipboardSyncRequest)
  | clipboardSyncUpdate (v : ClipboardSyncUpdate)
  | clipboardSyncError (v : ClipboardSyncError)
  | inputAck (v : InputAckMessage)
  | streamOptionsRequest (v : StreamOptionsRequest)
  | streamOptionsActive (v : StreamOptionsActive)
  | hostDisplayList (v : HostDisplayList)
  | hostPolicy (v : HostPolicy)
  | secureAttentionRequest (v : SecureAttentionRequest)
  | secureAttentionResponse (v : SecureAttentionResponse)
  | hostStatus (v : HostStatus)
  | sessionEnded (v : SessionEnded)
  | guestPermissions (v : GuestPermissions)
  | pairingTrustRequest (v : PairingTrustRequest)
  | pairingTrustGrant (v : PairingTrustGrant)
  | clipboardImageChunk (v : ClipboardImageChunk)
  | rttPing (v : RttProbe)
  | rttPong (v : RttProbe)
  deriving DecidableEq

namespace ControlMessage

def messageType : ControlMessage → ControlMessageType
  | requestKeyFrame => .requestKeyFrame
  | startStream => .startStream
  | stopStream => .stopStream
  | disconnect => .disconnect
  | ping => .ping
  | pong => .pong
  | bitrateAdjust _ => .bitrateAdjust
  | streamConfigRequest _ => .streamConfigRequest
  | streamConfigResponse _ => .streamConfigResponse
  | streamConfigReject _ => .streamConfigReject
  | streamConfigError _ => .streamConfigError
  | clipboardSyncRequest _ => .clipboardSyncRequest
  | clipboardSyncUpdate _ => .clipboardSyncUpdate
  | clipboardSyncError _ => .clipboardSyncError
  | inputAck _ => .inputAck
  | streamOptionsRequest _ => .streamOptionsRequest
  | streamOptionsActive _ => .streamOptionsActive
  | hostDisplayList _ => .hostDisplayList
  | hostPolicy _ => .hostPolicy
  | secureAttentionRequest _ => .secureAttentionRequest
  | secureAttentionResponse _ => .secureAttentionResponse
  | hostStatus _ => .hostStatus
  | sessionEnded _ => .sessionEnded
  | guestPermissions _ => .guestPermissions
  | pairingTrustRequest _ => .pairingTrustRequest
  | pairingTrustGrant _ => .pairingTrustGrant
  | clipboardImageChunk _ => .clipboardImageChunk
  | rttPing _ => .rttPing
  | rttPong _ => .rttPong

/-- The body of a message. -/
def encodeBody : ControlMessage → Except CodecError (List UInt8)
  | requestKeyFrame | startStream | stopStream | disconnect | ping | pong => .ok []
  | bitrateAdjust v => v.encode
  | streamConfigRequest v => v.encode
  | streamConfigResponse v => v.encode
  | streamConfigReject v => v.encode
  | streamConfigError v => v.encode
  | clipboardSyncRequest v => v.encode
  | clipboardSyncUpdate v => v.encode
  | clipboardSyncError v => v.encode
  | inputAck v => v.encode
  | streamOptionsRequest v => v.encode
  | streamOptionsActive v => v.encode
  | hostDisplayList v => v.encode
  | hostPolicy v => v.encode
  | secureAttentionRequest v => v.encode
  | secureAttentionResponse v => v.encode
  | hostStatus v => v.encode
  | sessionEnded v => v.encode
  | guestPermissions v => v.encode
  | pairingTrustRequest v => v.encode
  | pairingTrustGrant v => v.encode
  | clipboardImageChunk v => v.encode
  | rttPing v | rttPong v => v.encode

def encode (m : ControlMessage) : Except CodecError (List UInt8) := do
  let body ← m.encodeBody
  return m.messageType.toByte :: body

def decodeBody (body : List UInt8) : ControlMessageType → Except CodecError ControlMessage
  | .requestKeyFrame => do
    let _ ← (Decoder.finish "control message").run' body
    return requestKeyFrame
  | .startStream => do
    let _ ← (Decoder.finish "control message").run' body
    return startStream
  | .stopStream => do
    let _ ← (Decoder.finish "control message").run' body
    return stopStream
  | .disconnect => do
    let _ ← (Decoder.finish "control message").run' body
    return disconnect
  | .ping => do
    let _ ← (Decoder.finish "control message").run' body
    return ping
  | .pong => do
    let _ ← (Decoder.finish "control message").run' body
    return pong
  | .bitrateAdjust => return bitrateAdjust (← BitrateAdjust.decode body)
  | .streamConfigRequest => return streamConfigRequest (← StreamConfigurationRequest.decode body)
  | .streamConfigResponse =>
    return streamConfigResponse (← StreamConfigurationResponse.decode body)
  | .streamConfigReject => return streamConfigReject (← StreamConfigurationReject.decode body)
  | .streamConfigError => return streamConfigError (← StreamConfigurationError.decode body)
  | .clipboardSyncRequest => return clipboardSyncRequest (← ClipboardSyncRequest.decode body)
  | .clipboardSyncUpdate => return clipboardSyncUpdate (← ClipboardSyncUpdate.decode body)
  | .clipboardSyncError => return clipboardSyncError (← ClipboardSyncError.decode body)
  | .inputAck => return inputAck (← InputAckMessage.decode body)
  | .streamOptionsRequest => return streamOptionsRequest (← StreamOptionsRequest.decode body)
  | .streamOptionsActive => return streamOptionsActive (← StreamOptionsActive.decode body)
  | .hostDisplayList => return hostDisplayList (← HostDisplayList.decode body)
  | .hostPolicy => return hostPolicy (← HostPolicy.decode body)
  | .secureAttentionRequest =>
    return secureAttentionRequest (← SecureAttentionRequest.decode body)
  | .secureAttentionResponse =>
    return secureAttentionResponse (← SecureAttentionResponse.decode body)
  | .hostStatus => return hostStatus (← HostStatus.decode body)
  | .sessionEnded => return sessionEnded (← SessionEnded.decode body)
  | .guestPermissions => return guestPermissions (← GuestPermissions.decode body)
  | .pairingTrustRequest => return pairingTrustRequest (← PairingTrustRequest.decode body)
  | .pairingTrustGrant => return pairingTrustGrant (← PairingTrustGrant.decode body)
  | .clipboardImageChunk => return clipboardImageChunk (← ClipboardImageChunk.decode body)
  | .rttPing => return rttPing (← RttProbe.decode body)
  | .rttPong => return rttPong (← RttProbe.decode body)

def decode (input : List UInt8) : Except CodecError ControlMessage := do
  let (byte, body) ← (Decoder.u8 "control message type").run input
  let messageType ← ControlMessageType.tryFrom byte
  decodeBody body messageType

end ControlMessage
end MahoRD

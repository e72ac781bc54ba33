/-
MahoRD/Proto/Parity.lean

The values of the parity extensions (`maho-proto/src/parity.rs`): secure
attention, the status of the host, permissions and trust of a guest, images on
the clipboard, round trip probes.

A host keeps the trust of a pairing in its encoded form; what it reads back is
what was put there (`PairingTrust.decode_encode`).
-/
import MahoRD.Proto.Codec

namespace MahoRD

def maxActiveGuests : ℕ := 64

def maxGuestNameBytes : ℕ := 1024

def maxClipboardImageBytes : UInt32 := 8 * 1024 * 1024

def maxClipboardImageChunkBytes : ℕ := 64 * 1024

def pngSignature : List UInt8 := [0x89, 80, 78, 71, 13, 10, 26, 10]

/-- `value as u8`. -/
def boolByte (value : Bool) : UInt8 := if value then 1 else 0

/-- The boolean of a byte that is 0 or 1. -/
def Decoder.bool (field : String) : Decoder Bool := do
  let byte ← Decoder.u8 field
  if byte = 0 then return false
  else if byte = 1 then return true
  else throw (.invalidValue field byte.toNat)

/-! ### Secure attention -/

structure SecureAttentionRequest where
  requestId : UInt32
  deriving DecidableEq

namespace SecureAttentionRequest

def encode (v : SecureAttentionRequest) : Except CodecError (List UInt8) :=
  .ok (pushU32 [] v.requestId)

def decoder : Decoder SecureAttentionRequest := do
  let requestId ← Decoder.u32 "secure attention request ID"
  Decoder.finish "secure attention request"
  return ⟨requestId⟩

def decode (input : List UInt8) : Except CodecError SecureAttentionRequest := decoder.run' input

end SecureAttentionRequest

inductive SecureAttentionResult
  | accepted | permissionDenied | unsupported | failed
  deriving DecidableEq

namespace SecureAttentionResult

def toByte : SecureAttentionResult → UInt8
  | accepted => 0
  | permissionDenied => 1
  | unsupported => 2
  | failed => 3

def tryFrom : UInt8 → Except CodecError SecureAttentionResult
  | 0 => .ok accepted
  | 1 => .ok permissionDenied
  | 2 => .ok unsupported
  | 3 => .ok failed
  | value => .error (.invalidValue "secure attention result" value.toNat)

end SecureAttentionResult

structure SecureAttentionResponse where
  requestId : UInt32
  result : SecureAttentionResult
  deriving DecidableEq

namespace SecureAttentionResponse

def encode (v : SecureAttentionResponse) : Except CodecError (List UInt8) :=
  .ok (pushU32 [] v.requestId ++ [v.result.toByte])

def decoder : Decoder SecureAttentionResponse := do
  let requestId ← Decoder.u32 "secure attention request ID"
  let byte ← Decoder.u8 "secure attention result"
  let result ← (SecureAttentionResult.tryFrom byte : Except CodecError _)
  Decoder.finish "secure attention response"
  return ⟨requestId, result⟩

def decode (input : List UInt8) : Except CodecError SecureAttentionResponse := decoder.run' input

end SecureAttentionResponse

/-! ### The status and the end of a session -/

structure HostStatus where
  guestNames : List String
  deriving DecidableEq

namespace HostStatus

def encode (v : HostStatus) : Except CodecError (List UInt8) := do
  if v.guestNames.length > maxActiveGuests then
    throw (.lengthLimit "active guests" v.guestNames.length maxActiveGuests)
  let count ← usizeToU16 v.guestNames.length "active guests"
  v.guestNames.foldlM (fun output name => do
    let bytes ← checkedBytes name "guest name" maxGuestNameBytes
    let length ← usizeToU16 bytes.length "guest name"
    return pushU16 output length ++ bytes) (pushU16 [] count)

def guestName : Decoder String := do
  let length ← Decoder.u16 "guest name length"
  if length.toNat > maxGuestNameBytes then
    throw (.lengthLimit "guest name" length.toNat maxGuestNameBytes)
  Decoder.utf8 length.toNat "guest name"

def decoder : Decoder HostStatus := do
  let count ← Decoder.u16 "active guest count"
  if count.toNat > maxActiveGuests then
    throw (.lengthLimit "active guests" count.toNat maxActiveGuests)
  let guestNames ← (List.replicate count.toNat ()).mapM fun _ => guestName
  Decoder.finish "host status"
  return ⟨guestNames⟩

def decode (input : List UInt8) : Except CodecError HostStatus := decoder.run' input

end HostStatus

inductive SessionEndReason
  | kicked | hostStopped | permissionRevoked | guestExpired | hostShutdown
  deriving DecidableEq

namespace SessionEndReason

def toByte : SessionEndReason → UInt8
  | kicked => 0
  | hostStopped => 1
  | permissionRevoked => 2
  | guestExpired => 3
  | hostShutdown => 4

def tryFrom : UInt8 → Except CodecError SessionEndReason
  | 0 => .ok kicked
  | 1 => .ok hostStopped
  | 2 => .ok permissionRevoked
  | 3 => .ok guestExpired
  | 4 => .ok hostShutdown
  | value => .error (.invalidValue "session end reason" value.toNat)

end SessionEndReason

structure SessionEnded where
  reason : SessionEndReason
  deriving DecidableEq

namespace SessionEnded

def encode (v : SessionEnded) : Except CodecError (List UInt8) := .ok [v.reason.toByte]

def decoder : Decoder SessionEnded := do
  let byte ← Decoder.u8 "session end reason"
  let reason ← (SessionEndReason.tryFrom byte : Except CodecError _)
  Decoder.finish "session ended"
  return ⟨reason⟩

def decode (input : List UInt8) : Except CodecError SessionEnded := decoder.run' input

end SessionEnded

/-! ### What a guest may do -/

structure GuestPermissions where
  keyboard : Bool
  mouse : Bool
  gamepad : Bool
  clipboard : Bool
  audio : Bool
  deriving DecidableEq

namespace GuestPermissions

def encode (p : GuestPermissions) : Except CodecError (List UInt8) :=
  .ok [boolByte p.keyboard, boolByte p.mouse, boolByte p.gamepad, boolByte p.clipboard,
    boolByte p.audio]

def decoder : Decoder GuestPermissions := do
  let keyboard ← Decoder.bool "guest keyboard"
  let mouse ← Decoder.bool "guest mouse"
  let gamepad ← Decoder.bool "guest gamepad"
  let clipboard ← Decoder.bool "guest clipboard"
  let audio ← Decoder.bool "guest audio"
  Decoder.finish "guest permissions"
  return ⟨keyboard, mouse, gamepad, clipboard, audio⟩

def decode (input : List UInt8) : Except CodecError GuestPermissions := decoder.run' input

end GuestPermissions

inductive PairingTrust
  | owner
  | guestOnce
  | guestExpiring (expiresAtUnixMs : UInt64)
  deriving DecidableEq

namespace PairingTrust

def encode : PairingTrust → Except CodecError (List UInt8)
  | owner => .ok (pushU64 [0] 0)
  | guestOnce => .ok (pushU64 [1] 0)
  | guestExpiring expiresAtUnixMs =>
    if expiresAtUnixMs = 0 then .error (.invalidValue "guest expiry" 0)
    else .ok (pushU64 [2] expiresAtUnixMs)

def decoder : Decoder PairingTrust := do
  let tag ← Decoder.u8 "pairing trust"
  let expiry ← Decoder.u64 "guest expiry"
  Decoder.finish "pairing trust"
  if tag = 0 ∧ expiry = 0 then return owner
  else if tag = 1 ∧ expiry = 0 then return guestOnce
  else if tag = 2 ∧ expiry ≠ 0 then return guestExpiring expiry
  else if tag ≤ 2 then throw (.invalidValue "guest expiry" expiry.toNat)
  else throw (.invalidValue "pairing trust" tag.toNat)

def decode (input : List UInt8) : Except CodecError PairingTrust := decoder.run' input

theorem decode_pushU64 (tag : UInt8) (expiry : UInt64) : decode (pushU64 [tag] expiry) =
    if tag = 0 ∧ expiry = 0 then .ok owner
    else if tag = 1 ∧ expiry = 0 then .ok guestOnce
    else if tag = 2 ∧ expiry ≠ 0 then .ok (guestExpiring expiry)
    else if tag ≤ 2 then .error (.invalidValue "guest expiry" expiry.toNat)
    else .error (.invalidValue "pairing trust" tag.toNat) := by
  have hb : pushU64 [tag] expiry = tag :: Bytes.toLE 8 expiry.toNat := rfl
  simp only [decode, decoder, hb, StateT.run', bind, StateT.bind, Except.bind, Decoder.u8_cons,
    Decoder.u64_toLE_last, Decoder.finish, List.length_nil, if_true]
  split
  · rfl
  split
  · rfl
  split
  · rfl
  split <;> rfl

/-- **Stored trust is read back as it was stored.** -/
theorem decode_encode {trust : PairingTrust} {bytes : List UInt8}
    (h : trust.encode = .ok bytes) : decode bytes = .ok trust := by
  cases trust with
  | owner =>
    cases h
    rw [decode_pushU64]
    rfl
  | guestOnce =>
    cases h
    rw [decode_pushU64]
    rfl
  | guestExpiring expiresAtUnixMs =>
    simp only [encode] at h
    split at h
    · cases h
    next hne =>
      cases h
      rw [decode_pushU64]
      simp [hne]

end PairingTrust

structure PairingTrustRequest where
  trust : PairingTrust
  deriving DecidableEq

namespace PairingTrustRequest

def encode (v : PairingTrustRequest) : Except CodecError (List UInt8) := v.trust.encode

def decode (input : List UInt8) : Except CodecError PairingTrustRequest := do
  let trust ← PairingTrust.decode input
  return ⟨trust⟩

end PairingTrustRequest

structure PairingTrustGrant where
  trust : PairingTrust
  deriving DecidableEq

namespace PairingTrustGrant

def encode (v : PairingTrustGrant) : Except CodecError (List UInt8) := v.trust.encode

def decode (input : List UInt8) : Except CodecError PairingTrustGrant := do
  let trust ← PairingTrust.decode input
  return ⟨trust⟩

end PairingTrustGrant

/-! ### Images and probes -/

structure ClipboardImageChunk where
  transferId : UInt32
  totalBytes : UInt32
  offset : UInt32
  pngBytes : List UInt8
  deriving DecidableEq

namespace ClipboardImageChunk

def validate (v : ClipboardImageChunk) : Except CodecError Unit :=
  if v.totalBytes.toNat < pngSignature.length ∨ v.totalBytes > maxClipboardImageBytes then
    .error (.invalidValue "clipboard image total bytes" v.totalBytes.toNat)
  else if v.pngBytes.isEmpty ∨ v.pngBytes.length > maxClipboardImageChunkBytes then
    .error (.lengthLimit "clipboard image chunk" v.pngBytes.length maxClipboardImageChunkBytes)
  else if v.offset.toNat + v.pngBytes.length > v.totalBytes.toNat then
    .error (.invalidValue "clipboard image offset" v.offset.toNat)
  else if v.offset = 0 ∧ ¬ pngSignature <+: v.pngBytes then
    .error (.invalidValue "PNG signature" 0)
  else .ok ()

def encode (v : ClipboardImageChunk) : Except CodecError (List UInt8) := do
  v.validate
  return pushU32 (pushU32 (pushU32 [] v.transferId) v.totalBytes) v.offset ++ v.pngBytes

def decoder : Decoder ClipboardImageChunk := do
  let transferId ← Decoder.u32 "clipboard image transfer ID"
  let totalBytes ← Decoder.u32 "clipboard image total bytes"
  let offset ← Decoder.u32 "clipboard image offset"
  let pngBytes ← Decoder.takeRemaining
  if pngBytes.length > maxClipboardImageChunkBytes then
    throw (.lengthLimit "clipboard image chunk" pngBytes.length maxClipboardImageChunkBytes)
  let value : ClipboardImageChunk := ⟨transferId, totalBytes, offset, pngBytes⟩
  (value.validate : Except CodecError _)
  return value

def decode (input : List UInt8) : Except CodecError ClipboardImageChunk := decoder.run' input

end ClipboardImageChunk

structure RttProbe where
  timestampUs : UInt64
  deriving DecidableEq

namespace RttProbe

def encode (v : RttProbe) : Except CodecError (List UInt8) := .ok (pushU64 [] v.timestampUs)

def decoder : Decoder RttProbe := do
  let timestampUs ← Decoder.u64 "RTT timestamp"
  Decoder.finish "RTT probe"
  return ⟨timestampUs⟩

def decode (input : List UInt8) : Except CodecError RttProbe := decoder.run' input

end RttProbe
end MahoRD

/-
MahoRD/Proto/Handshake.lean

The handshake and the capabilities it negotiates (`maho-proto/src/handshake.rs`).
A capability set is a 64-bit mask; bits that no constant names are kept.
-/
import MahoRD.Proto.Packet

namespace MahoRD

def maxHandshakeNameBytes : ℕ := 1024

def maxPairingIdBytes : ℕ := 256

def sessionSaltSize : ℕ := 16

structure Capabilities where
  bits : UInt64

namespace Capabilities

def streamConfiguration : Capabilities := ⟨(1 : UInt64) <<< 0⟩
def clipboardSync : Capabilities := ⟨(1 : UInt64) <<< 1⟩
def textClipboardSync : Capabilities := ⟨(1 : UInt64) <<< 2⟩
def color444 : Capabilities := ⟨(1 : UInt64) <<< 3⟩
def colorHdr : Capabilities := ⟨(1 : UInt64) <<< 4⟩
def gamepad : Capabilities := ⟨(1 : UInt64) <<< 5⟩
def penInput : Capabilities := ⟨(1 : UInt64) <<< 6⟩
def authenticatedUdpRegistration : Capabilities := ⟨(1 : UInt64) <<< 7⟩
def streamOptions : Capabilities := ⟨(1 : UInt64) <<< 8⟩
def secureAttention : Capabilities := ⟨(1 : UInt64) <<< 9⟩
def hostStatus : Capabilities := ⟨(1 : UInt64) <<< 10⟩
def sessionEnded : Capabilities := ⟨(1 : UInt64) <<< 11⟩
def guestPermissions : Capabilities := ⟨(1 : UInt64) <<< 12⟩
def pairingTrust : Capabilities := ⟨(1 : UInt64) <<< 13⟩
def clipboardImage : Capabilities := ⟨(1 : UInt64) <<< 14⟩
def rttProbe : Capabilities := ⟨(1 : UInt64) <<< 15⟩

def empty : Capabilities := ⟨0⟩

def contains (c other : Capabilities) : Bool := c.bits &&& other.bits == other.bits

instance : OrOp Capabilities := ⟨fun a b => ⟨a.bits ||| b.bits⟩⟩

end Capabilities

/-- `scale` is the bit pattern of the float. -/
structure Handshake where
  name : String
  width : UInt16
  height : UInt16
  scale : UInt32
  version : UInt8
  capabilities : Capabilities
  pairingId : String
  sessionSalt : List UInt8

namespace Handshake

def encode (h : Handshake) : Except CodecError (List UInt8) := do
  if h.version ≠ protocolVersion then
    throw (.unsupportedVersion h.version)
  let name ← checkedBytes h.name "handshake name" maxHandshakeNameBytes
  let pairingId ← checkedBytes h.pairingId "handshake pairing ID" maxPairingIdBytes
  let nameLength ← usizeToU16 name.length "handshake name"
  let idLength ← usizeToU16 pairingId.length "handshake pairing ID"
  let output := pushU16 (pushU16 (pushU16 [] nameLength ++ name) h.width) h.height
  let output := pushU64 (pushU32 output h.scale ++ [h.version]) h.capabilities.bits
  return pushU16 output idLength ++ pairingId ++ h.sessionSalt

def decoder : Decoder Handshake := do
  let nameLength ← Decoder.u16 "handshake name length"
  if nameLength.toNat > maxHandshakeNameBytes then
    throw (.lengthLimit "handshake name" nameLength.toNat maxHandshakeNameBytes)
  let name ← Decoder.utf8 nameLength.toNat "handshake name"
  let width ← Decoder.u16 "handshake width"
  let height ← Decoder.u16 "handshake height"
  let scale ← Decoder.f32 "handshake scale"
  let version ← Decoder.u8 "handshake version"
  if version ≠ protocolVersion then
    throw (.unsupportedVersion version)
  let capabilities ← Decoder.u64 "handshake capabilities"
  let idLength ← Decoder.u16 "handshake pairing ID length"
  if idLength.toNat > maxPairingIdBytes then
    throw (.lengthLimit "handshake pairing ID" idLength.toNat maxPairingIdBytes)
  let pairingId ← Decoder.utf8 idLength.toNat "handshake pairing ID"
  let sessionSalt ← Decoder.take sessionSaltSize "handshake session salt"
  Decoder.finish "handshake"
  return ⟨name, width, height, scale, version, ⟨capabilities⟩, pairingId, sessionSalt⟩

def decode (input : List UInt8) : Except CodecError Handshake := decoder.run' input

end Handshake
end MahoRD

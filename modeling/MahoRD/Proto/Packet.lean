/-
MahoRD/Proto/Packet.lean

The 12-byte packet header (`maho-proto/src/packet.rs`) that precedes every
payload, on TCP and on UDP.
-/
import MahoRD.Proto.Codec

namespace MahoRD

def magic : UInt16 := 0xec1d

def protocolVersion : UInt8 := 3

inductive PacketType
  | handshake | handshakeAck | frameHeader | frameChunk | cursorUpdate | inputEvent
  | control | ping | audioFrame | pairingRequest | pairingGrant | pairingReject
  deriving DecidableEq

namespace PacketType

/-- `packet_type as u8`. -/
def toByte : PacketType → UInt8
  | handshake => 0
  | handshakeAck => 1
  | frameHeader => 2
  | frameChunk => 3
  | cursorUpdate => 4
  | inputEvent => 5
  | control => 6
  | ping => 7
  | audioFrame => 8
  | pairingRequest => 9
  | pairingGrant => 10
  | pairingReject => 11

/-- `PacketType::try_from`. -/
def tryFrom : UInt8 → Except CodecError PacketType
  | 0 => .ok handshake
  | 1 => .ok handshakeAck
  | 2 => .ok frameHeader
  | 3 => .ok frameChunk
  | 4 => .ok cursorUpdate
  | 5 => .ok inputEvent
  | 6 => .ok control
  | 7 => .ok ping
  | 8 => .ok audioFrame
  | 9 => .ok pairingRequest
  | 10 => .ok pairingGrant
  | 11 => .ok pairingReject
  | unknown => .error (.unknownPacketType unknown)

theorem tryFrom_toByte (t : PacketType) : tryFrom t.toByte = .ok t := by
  cases t <;> rfl

end PacketType

structure PacketHeader where
  packetType : PacketType
  sequence : UInt32
  timestampMs : UInt32
  flags : UInt8
  deriving DecidableEq

namespace PacketHeader

def size : ℕ := 12

def toBytes (h : PacketHeader) : List UInt8 :=
  Bytes.toLE 2 magic.toNat ++ [h.packetType.toByte] ++ Bytes.toLE 4 h.sequence.toNat
    ++ Bytes.toLE 4 h.timestampMs.toNat ++ [h.flags]

def encode (h : PacketHeader) : Except CodecError (List UInt8) := .ok h.toBytes

def decoder : Decoder PacketHeader := do
  let found ← Decoder.u16 "packet magic"
  if found ≠ magic then
    throw (.invalidMagic found)
  let byte ← Decoder.u8 "packet type"
  let packetType ← (PacketType.tryFrom byte : Except CodecError PacketType)
  let sequence ← Decoder.u32 "packet sequence"
  let timestampMs ← Decoder.u32 "packet timestamp"
  let flags ← Decoder.u8 "packet flags"
  Decoder.finish "packet header"
  return ⟨packetType, sequence, timestampMs, flags⟩

def decode (input : List UInt8) : Except CodecError PacketHeader := decoder.run' input

@[simp] theorem length_toBytes (h : PacketHeader) : h.toBytes.length = size := by
  simp [toBytes, size]

theorem decode_toBytes (h : PacketHeader) : decode h.toBytes = .ok h := by
  have hb : h.toBytes = Bytes.toLE 2 magic.toNat ++ (h.packetType.toByte ::
      (Bytes.toLE 4 h.sequence.toNat ++ (Bytes.toLE 4 h.timestampMs.toNat ++ [h.flags]))) := by
    simp [toBytes]
  simp [decode, decoder, hb, StateT.run', bind, StateT.bind, Except.bind, Decoder.pure_apply,
    Decoder.lift_apply, PacketType.tryFrom_toByte, Decoder.finish, Functor.map, Except.map]

end PacketHeader
end MahoRD

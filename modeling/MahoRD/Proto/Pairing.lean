/-
MahoRD/Proto/Pairing.lean

The packets of a pairing (`maho-proto/src/pairing.rs`): the request of a peer,
and the grant or the rejection that answers it.
-/
import MahoRD.Proto.Codec

namespace MahoRD

def maxPairingNameBytes : ℕ := 1024

def pairingKeySize : ℕ := 32

structure PairingRequest where
  name : String

namespace PairingRequest

def encode (v : PairingRequest) : Except CodecError (List UInt8) := do
  let name ← checkedBytes v.name "pairing request name" maxPairingNameBytes
  let length ← usizeToU16 name.length "pairing request name"
  return pushU16 [] length ++ name

def decoder : Decoder PairingRequest := do
  let length ← Decoder.u16 "pairing request name length"
  if length.toNat > maxPairingNameBytes then
    throw (.lengthLimit "pairing request name" length.toNat maxPairingNameBytes)
  let name ← Decoder.utf8 length.toNat "pairing request name"
  Decoder.finish "pairing request"
  return ⟨name⟩

def decode (input : List UInt8) : Except CodecError PairingRequest := decoder.run' input

end PairingRequest

structure PairingGrant where
  pairingId : String
  hostName : String
  key : List UInt8

namespace PairingGrant

def encode (v : PairingGrant) : Except CodecError (List UInt8) := do
  let pairingId ← checkedBytes v.pairingId "pairing grant ID" 255
  let hostName ← checkedBytes v.hostName "pairing grant host name" 65535
  let idLength ← usizeToU8 pairingId.length "pairing grant ID"
  let nameLength ← usizeToU16 hostName.length "pairing grant host name"
  return pushU16 (idLength :: pairingId) nameLength ++ hostName
    ++ UInt8.ofNat pairingKeySize :: v.key

def decoder : Decoder PairingGrant := do
  let idLength ← Decoder.u8 "pairing grant ID length"
  let pairingId ← Decoder.utf8 idLength.toNat "pairing grant ID"
  let nameLength ← Decoder.u16 "pairing grant host name length"
  let hostName ← Decoder.utf8 nameLength.toNat "pairing grant host name"
  let keyLength ← Decoder.u8 "pairing key length"
  if keyLength.toNat ≠ pairingKeySize then
    throw (.invalidLength "pairing key" keyLength.toNat pairingKeySize)
  let key ← Decoder.take keyLength.toNat "pairing key"
  Decoder.finish "pairing grant"
  return ⟨pairingId, hostName, key⟩

def decode (input : List UInt8) : Except CodecError PairingGrant := decoder.run' input

end PairingGrant

inductive PairingRejectReason
  | deniedByHost | lockedOut | pairingDisabled
  deriving DecidableEq

namespace PairingRejectReason

def toByte : PairingRejectReason → UInt8
  | deniedByHost => 0
  | lockedOut => 1
  | pairingDisabled => 2

def tryFrom : UInt8 → Except CodecError PairingRejectReason
  | 0 => .ok deniedByHost
  | 1 => .ok lockedOut
  | 2 => .ok pairingDisabled
  | unknown => .error (.unknownPairingRejectReason unknown)

end PairingRejectReason

structure PairingReject where
  reason : PairingRejectReason

namespace PairingReject

def encode (v : PairingReject) : Except CodecError (List UInt8) := .ok [v.reason.toByte]

def decoder : Decoder PairingReject := do
  let byte ← Decoder.u8 "pairing reject reason"
  let reason ← (PairingRejectReason.tryFrom byte : Except CodecError _)
  Decoder.finish "pairing reject"
  return ⟨reason⟩

def decode (input : List UInt8) : Except CodecError PairingReject := decoder.run' input

end PairingReject
end MahoRD

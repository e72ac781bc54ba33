/-
MahoRD/Proto/Relay.lean

The relay protocol (`maho-proto/src/relay.rs`): binary frames, which carry a
session id and a channel in front of the payload, the JSON control messages,
and the token that admits a host or a client.

HMAC-SHA256 is a parameter, and so is the JSON parser (it is given where a
text arrives).
-/
import MahoRD.Lib.Hex
import MahoRD.Proto.Codec

namespace MahoRD

def relayFrameHeaderLen : ℕ := 17

def relayChannelTcp : UInt8 := 0x01

def relayChannelUdp : UInt8 := 0x02

def relayMaxPayloadLen : ℕ := 2 * 1024 * 1024

def relayMaxSessionsPerHost : ℕ := 4

def relayHostIdMaxLen : ℕ := 128

/-! ### Host ids and tokens -/

def relayHostIdOk (hostId : String) : Bool :=
  if hostId.isEmpty || hostId.utf8ByteSize > relayHostIdMaxLen then false
  else (utf8 hostId).all fun b =>
    (b ≥ 48 && b ≤ 57) || (b ≥ 65 && b ≤ 90) || (b ≥ 97 && b ≤ 122) || b == 46 || b == 95 || b == 45

/-- HMAC-SHA256 under a key. -/
abbrev Hmac := (key message : List UInt8) → List UInt8

def relayToken (hmac : Hmac) (secret : List UInt8) (hostId : String) : String :=
  String.ofList (Hex.encode (hmac secret (utf8 hostId)))

def isAsciiHexdigit (b : UInt8) : Bool :=
  (b ≥ 48 && b ≤ 57) || (b ≥ 65 && b ≤ 70) || (b ≥ 97 && b ≤ 102)

def toAsciiLowercase (b : UInt8) : UInt8 := if b ≥ 65 && b ≤ 90 then b + 32 else b

def relayTokenMatches (hmac : Hmac) (secret : List UInt8) (hostId presented : String) : Bool :=
  if presented.utf8ByteSize ≠ 64 then false
  else
    let expected := relayToken hmac secret hostId
    if expected.utf8ByteSize ≠ 64 then false
    else
      let (diff, nonHex) := ((utf8 expected).zip (utf8 presented)).foldl
        (fun acc ab =>
          (acc.1 ||| (ab.1 ^^^ toAsciiLowercase ab.2),
            if isAsciiHexdigit ab.2 then acc.2 else acc.2 ||| 1)) ((0 : UInt8), (0 : UInt8))
      diff == 0 && nonHex == 0

/-! ### Session ids -/

/-- Sixteen bytes. -/
@[ext] structure Uuid where
  bytes : List UInt8
  length_eq : bytes.length = 16
  deriving DecidableEq

namespace Uuid

/-- `Uuid::nil`. -/
def nil : Uuid := ⟨List.replicate 16 0, rfl⟩

/-- `Uuid::from_slice`. -/
def fromSlice (b : List UInt8) : Option Uuid :=
  if h : b.length = 16 then some ⟨b, h⟩ else none

/-- The hyphenated text, `8-4-4-4-12` digits. -/
def toText (u : Uuid) : String :=
  let part (start n : ℕ) := Hex.encode ((u.bytes.drop start).take n)
  String.ofList (part 0 4 ++ '-' :: part 4 2 ++ '-' :: part 6 2 ++ '-' :: part 8 2
    ++ '-' :: part 10 6)

theorem filter_encode (bytes : List UInt8) :
    (Hex.encode bytes).filter (· != '-') = Hex.encode bytes := by
  rw [List.filter_eq_self]
  intro c hc
  simpa using Hex.ne_hyphen_of_mem_encode hc

theorem toText_injective : Function.Injective toText := by
  have hread : ∀ u : Uuid, Hex.decode (u.toText.toList.filter (· != '-')) = u.bytes := by
    intro u
    have hsplit : u.bytes.take 4 ++ ((u.bytes.drop 4).take 2 ++ ((u.bytes.drop 6).take 2 ++
        ((u.bytes.drop 8).take 2 ++ (u.bytes.drop 10).take 6))) = u.bytes := by
      have hlast : (u.bytes.drop 10).take 6 = u.bytes.drop 10 :=
        List.take_of_length_le (by simp [u.length_eq])
      have h8 : (u.bytes.drop 8).take 2 ++ u.bytes.drop 10 = u.bytes.drop 8 := by
        simpa using List.take_append_drop 2 (u.bytes.drop 8)
      have h6 : (u.bytes.drop 6).take 2 ++ u.bytes.drop 8 = u.bytes.drop 6 := by
        simpa using List.take_append_drop 2 (u.bytes.drop 6)
      have h4 : (u.bytes.drop 4).take 2 ++ u.bytes.drop 6 = u.bytes.drop 4 := by
        simpa using List.take_append_drop 2 (u.bytes.drop 4)
      rw [hlast, h8, h6, h4, List.take_append_drop]
    have hencode : ∀ a b, Hex.encode (a ++ b) = Hex.encode a ++ Hex.encode b := fun a b =>
      List.flatMap_append
    calc Hex.decode (u.toText.toList.filter (· != '-'))
        = Hex.decode (Hex.encode u.bytes) := by
          conv_rhs => rw [← hsplit]
          simp [toText, filter_encode, hencode]
      _ = u.bytes := Hex.decode_encode u.bytes
  intro u v huv
  exact Uuid.ext (by rw [← hread u, ← hread v, huv])

end Uuid

/-! ### Frames -/

structure RelayFrame where
  sessionId : List UInt8
  channel : UInt8
  payload : List UInt8

def encodeRelayFrame (sessionId : Uuid) (channel : UInt8) (payload : List UInt8) :
    Except CodecError (List UInt8) :=
  if channel ≠ relayChannelTcp ∧ channel ≠ relayChannelUdp then
    .error (.unknownRelayChannel channel)
  else if payload.length > relayMaxPayloadLen then
    .error (.lengthLimit "relay payload" payload.length relayMaxPayloadLen)
  else .ok (sessionId.bytes ++ channel :: payload)

def decodeRelayFrame (input : List UInt8) : Except CodecError RelayFrame :=
  if input.length < relayFrameHeaderLen then
    .error (.truncated "relay frame header" relayFrameHeaderLen input.length)
  else
    let channel := input.getD 16 0
    let payloadLen := input.length - relayFrameHeaderLen
    if channel ≠ relayChannelTcp ∧ channel ≠ relayChannelUdp then
      .error (.unknownRelayChannel channel)
    else if payloadLen > relayMaxPayloadLen then
      .error (.lengthLimit "relay payload" payloadLen relayMaxPayloadLen)
    else .ok ⟨input.take 16, channel, input.drop relayFrameHeaderLen⟩

theorem decodeRelayFrame_stamp {input : List UInt8} {frame : RelayFrame} (u : Uuid)
    (h : decodeRelayFrame input = .ok frame) :
    decodeRelayFrame (u.bytes ++ input.drop 16) = .ok { frame with sessionId := u.bytes } := by
  simp only [decodeRelayFrame] at h
  split at h
  · cases h
  next hlen =>
    have hlen' : 17 ≤ input.length := by simpa [relayFrameHeaderLen] using hlen
    have hsame : (u.bytes ++ input.drop 16).length = input.length := by
      simp [u.length_eq]
      omega
    have hchannel : (u.bytes ++ input.drop 16).getD 16 0 = input.getD 16 0 := by
      simp [List.getD, List.getElem?_append_right, u.length_eq]
    have htake : (u.bytes ++ input.drop 16).take 16 = u.bytes := by
      rw [← u.length_eq, List.take_left']
      rfl
    have hdrop : (u.bytes ++ input.drop 16).drop relayFrameHeaderLen
        = input.drop relayFrameHeaderLen := by
      rw [List.drop_append, List.drop_eq_nil_of_le (by simp [u.length_eq, relayFrameHeaderLen])]
      simp [u.length_eq, relayFrameHeaderLen]
    simp only [decodeRelayFrame, hsame, hchannel, htake, hdrop, if_neg hlen]
    split at h
    · cases h
    next hchan =>
      split at h
      · cases h
      next hpay =>
        cases h
        rw [if_neg hchan, if_neg hpay]

/-- The control messages, as JSON texts. -/
inductive RelayControl
  | register (hostId token : String)
  | registered (hostId : String)
  | connect (hostId token : String)
  | incoming (sessionId : String)
  | accept (sessionId : String)
  | connected
  | ping
  | pong
  | error (code message : String)
  deriving DecidableEq

end MahoRD

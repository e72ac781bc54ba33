/-
MahoRD/Net/Stun.lean

The STUN binding client (`maho-net/src/stun.rs`): the request, the parser of the response and
the loop that receives it.

The parser reads its input by index; a read past the end is a panic here as it is there.  One
round of its loop is `attributeStep`, which finds an address or moves on by the attribute and its
padding, so the loop ends.
-/
import MahoRD.Lib.Panics
import MahoRD.Lib.Parse
import MahoRD.Net.Address

namespace MahoRD.Stun

open Bytes Panics Parse

def magicCookie : UInt32 := 0x2112a442
def headerSize : ℕ := 20
def bindingRequestType : UInt16 := 0x0001
def bindingSuccessResponse : UInt16 := 0x0101
def xorMappedAddress : UInt16 := 0x0020
def mappedAddress : UInt16 := 0x0001

/-- The errors of `StunError`; an error of the system is its text. -/
inductive StunError
  | resolve (source : String)
  | noAddress
  | io (source : String)
  | random (source : String)
  | timeout
  | invalid (what : String)
  | missingMappedAddress
  deriving DecidableEq

abbrev Result (α : Type) := Except (Halt StunError) α

def fail {α : Type} (e : StunError) : Result α := .error (.error e)

def require (c : Prop) [Decidable c] (e : StunError) : Result Unit := if c then .ok () else fail e

/-- `checked_add` of `usize` -/
def checkedAdd (a b : ℕ) (what : String) : Result ℕ :=
  if a + b < 2 ^ 64 then .ok (a + b) else fail (.invalid what)

/-! ### The response -/

/-- `try_into` of four bytes -/
def fourBytes (bs : List UInt8) : Option UInt32 :=
  if bs.length = 4 then some (u32FromBE bs) else none

def parseXorMappedAddress (value : List UInt8) : Result (Option SocketAddr) := do
  if value.length < 8 then return none
  if (← index value 1) ≠ 0x01 then return none
  let port := u16FromBE [← index value 2, ← index value 3] ^^^ (magicCookie >>> 16).toUInt16
  match fourBytes (← slice value 4 8) with
  | none => return none
  | some encodedIp => return some (.v4 ⟨encodedIp ^^^ magicCookie⟩ port)

def parseMappedAddress (value : List UInt8) : Result (Option SocketAddr) := do
  if value.length < 8 then return none
  if (← index value 1) ≠ 0x01 then return none
  let port := u16FromBE [← index value 2, ← index value 3]
  return some (.v4 (.new (← index value 4) (← index value 5) (← index value 6) (← index value 7)) port)

def parseAttribute (attributeType : UInt16) (value : List UInt8) : Result (Option SocketAddr) :=
  if attributeType = xorMappedAddress then parseXorMappedAddress value
  else if attributeType = mappedAddress then parseMappedAddress value
  else return none

/-- What one round of the loop over the attributes comes to. -/
inductive Walk
  | found (address : SocketAddr)
  | next (offset : ℕ)

/-- `(length + 3) & !3` -/
def clearLow (n : ℕ) : ℕ := n / 4 * 4

def attributeStep (data : List UInt8) (attributesEnd offset : ℕ) : Result Walk := do
  let attributeType := u16FromBE [← index data offset, ← index data (offset + 1)]
  let attributeLength := (u16FromBE [← index data (offset + 2), ← index data (offset + 3)]).toNat
  let valueOffset := offset + 4
  let valueEnd ← checkedAdd valueOffset attributeLength "attribute length overflow"
  require (valueEnd ≤ attributesEnd) (.invalid "truncated attribute")
  let value ← slice data valueOffset valueEnd
  match ← parseAttribute attributeType value with
  | some address => return .found address
  | none =>
    let padded ← checkedAdd attributeLength 3 "attribute padding overflow"
    return .next (← checkedAdd valueOffset (clearLow padded) "attribute offset overflow")

theorem checkedAdd_eq_ok {a b c : ℕ} {what : String} (h : checkedAdd a b what = .ok c) :
    c = a + b := by
  unfold checkedAdd at h
  split at h
  · exact (Except.ok.inj h).symm
  · cases h

theorem attributeStep_next {data : List UInt8} {attributesEnd offset next : ℕ}
    (h : attributeStep data attributesEnd offset = .ok (.next next)) : offset + 4 ≤ next := by
  simp only [attributeStep, except_bind_eq_ok] at h
  obtain ⟨_, -, _, -, _, -, _, -, _, -, _, -, _, -, parsed, -, h⟩ := h
  rcases parsed with - | address
  · simp only [except_bind_eq_ok, except_pure_eq_ok] at h
    obtain ⟨_, -, _, hsum, hnext⟩ := h
    have := checkedAdd_eq_ok hsum
    cases hnext
    omega
  · cases h

def attributeLoop (data : List UInt8) (attributesEnd offset : ℕ) : Result SocketAddr :=
  if offset + 4 ≤ attributesEnd then
    match _hstep : attributeStep data attributesEnd offset with
    | .error e => .error e
    | .ok (.found address) => .ok address
    | .ok (.next next) => attributeLoop data attributesEnd next
  else fail .missingMappedAddress
  termination_by attributesEnd - offset
  decreasing_by
    have := attributeStep_next _hstep
    omega

def parseBindingResponse (data : List UInt8) (transactionId : Vector UInt8 12) :
    Result SocketAddr := do
  require (headerSize ≤ data.length) (.invalid "truncated header")
  let messageType := u16FromBE [← index data 0, ← index data 1]
  require (messageType = bindingSuccessResponse) (.invalid "not a binding success response")
  let messageLength := (u16FromBE [← index data 2, ← index data 3]).toNat
  require (headerSize + messageLength ≤ data.length) (.invalid "truncated attributes")
  require ((← slice data 4 8) = u32ToBE magicCookie) (.invalid "wrong magic cookie")
  require ((← slice data 8 20) = transactionId.toList) (.invalid "transaction ID mismatch")
  attributeLoop data (headerSize + messageLength) headerSize

/-! ### The exchange -/

def bindingRequest (transactionId : Vector UInt8 12) : List UInt8 :=
  u16ToBE bindingRequestType ++ [0, 0] ++ u32ToBE magicCookie ++ transactionId.toList

def resolveIpv4 (addresses : Except String (List SocketAddr)) : Result SocketAddr :=
  match addresses with
  | .error e => fail (.resolve e)
  | .ok found =>
    match found.find? (·.isIpv4) with
    | some server => .ok server
    | none => fail .noAddress

/-- A datagram on its way to the socket. -/
structure Datagram where
  bytes : List UInt8
  source : SocketAddr

/-- The buffer of a `recv_from`. -/
def bufferSize : ℕ := 2048

/-- `recv_from`: a datagram that does not fit the buffer is cut; on Windows it is an error. -/
def recvFrom (windows : Bool) (d : Datagram) : Except String (List UInt8 × SocketAddr) :=
  if windows ∧ bufferSize < d.bytes.length then .error "WSAEMSGSIZE"
  else .ok (d.bytes.take bufferSize, d.source)

/-- The loop over what the socket gives before the deadline; after that is the timeout. -/
def receiveLoop (server : SocketAddr) (transactionId : Vector UInt8 12) :
    List (Except String (List UInt8 × SocketAddr)) → Result SocketAddr
  | [] => fail .timeout
  | .error e :: _ => fail (.io e)
  | .ok (response, source) :: received =>
    if source ≠ server then receiveLoop server transactionId received
    else parseBindingResponse response transactionId

/-- `fetch_public_address`: `addresses` is what the resolver answers, `randBytes` the
transaction ID, `sendTo` the send, `received` what the socket gives before the deadline. -/
def fetchPublicAddress (addresses : Except String (List SocketAddr))
    (randBytes : Except String (Vector UInt8 12))
    (sendTo : List UInt8 → SocketAddr → Except String Unit)
    (received : List (Except String (List UInt8 × SocketAddr))) : Result SocketAddr := do
  let server ← resolveIpv4 addresses
  match randBytes with
  | .error e => fail (.random e)
  | .ok transactionId =>
    match sendTo (bindingRequest transactionId) server with
    | .error e => fail (.io e)
    | .ok () => receiveLoop server transactionId received

end MahoRD.Stun

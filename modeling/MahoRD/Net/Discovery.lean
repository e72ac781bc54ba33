/-
MahoRD/Net/Discovery.lean

The hosts that are discovered on the local network: which address of a service is used, when its
metadata is published (`maho-net/src/discovery.rs`, `discovery/endpoint.rs`), the table of the
hosts (`discovery/tracker.rs`), and what the two back ends do to it at an event
(`discovery/mdns.rs`, and `decide_service_state_action` for the one of Apple).

The table is `Recency.Table` by the id of a host, which is the full name of its service.  Times are
milliseconds.
-/
import Mathlib.Data.String.Basic
import MahoRD.Lib.Parse
import MahoRD.Lib.Recency
import MahoRD.Net.Address
import Mathlib.Data.List.Infix

namespace MahoRD.Discovery

structure DiscoveredHost where
  id : String
  name : String
  ip : String
  os : String
  tcpPort : UInt16
  udpPort : UInt16

inductive DiscoveryError
  | policyDenied
  | backend (message : String)
  | unavailable
  | invalidPayload (message : String)

/-! ### Addresses -/

def isUsableIpv4 : IpAddr → Bool
  | .v4 ip => !ip.isUnspecified && !ip.isLoopback && !ip.isMulticast && !ip.isBroadcast
  | .v6 _ => false

def isUnscopedIpv6LinkLocal (ip : Ipv6Addr) : Bool := ip.first &&& 0xffc0 = 0xfe80

def isUsableIpv6 : IpAddr → Bool
  | .v4 _ => false
  | .v6 ip =>
    !ip.isUnspecified && !ip.isLoopback && !ip.isMulticast && !isUnscopedIpv6LinkLocal ip

structure DiscoveredEndpoint where
  ip : IpAddr
  scopeId : Option UInt32
  formatted : String

/-- Only a link-local address has a scope. -/
def DiscoveredEndpoint.new (ip : IpAddr) (scopeId : Option UInt32) : DiscoveredEndpoint :=
  match ip, scopeId with
  | .v6 v6, some scope =>
    if isUnscopedIpv6LinkLocal v6 ∧ scope > 0 then
      ⟨ip, some scope, v6.display ++ "%" ++ toString scope.toNat⟩
    else ⟨ip, none, ip.display⟩
  | _, _ => ⟨ip, none, ip.display⟩

def isUsableIpv6WithScope (ip : Ipv6Addr) (scopeId : Option UInt32) : Bool :=
  if ip.isUnspecified || ip.isLoopback || ip.isMulticast then false
  else if isUnscopedIpv6LinkLocal ip then scopeId.any (· > 0)
  else true

def isUsableEndpoint (endpoint : DiscoveredEndpoint) : Bool :=
  match endpoint.ip with
  | .v4 _ => isUsableIpv4 endpoint.ip
  | .v6 ip => isUsableIpv6WithScope ip endpoint.scopeId

/-- The first that is usable: of version 4, else of version 6 and not link-local, else link-local
with a scope. -/
def choosePreferredEndpoint (addresses : List (IpAddr × Option UInt32)) :
    Option DiscoveredEndpoint :=
  ((addresses.find? fun address => isUsableIpv4 address.1).map fun address =>
      DiscoveredEndpoint.new address.1 none).or <|
    ((addresses.find? fun address => isUsableIpv6 address.1).map fun address =>
      DiscoveredEndpoint.new address.1 none).or <|
    addresses.findSome? fun address =>
      match address.1 with
      | .v4 _ => none
      | .v6 ip =>
        if isUnscopedIpv6LinkLocal ip then
          (address.2.filter (· > 0)).map fun scope => DiscoveredEndpoint.new address.1 (some scope)
        else none

def attachLinkLocalScopes (addresses : List IpAddr) (linkLocalInterfaces : List UInt32) :
    List (IpAddr × Option UInt32) :=
  addresses.flatMap fun ip =>
    match ip with
    | .v6 v6 =>
      if isUnscopedIpv6LinkLocal v6 ∧ linkLocalInterfaces ≠ [] then
        linkLocalInterfaces.map fun index => (ip, some index)
      else [(ip, none)]
    | .v4 _ => [(ip, none)]

/-! ### Metadata -/

abbrev Checked (α : Type) := Except DiscoveryError α

def require (ok : Bool) (message : String) : Checked Unit :=
  if ok then .ok () else .error (.invalidPayload message)

/-- The items of a TXT record. -/
abbrev Txt := List (String × List UInt8)

/-- `str::eq_ignore_ascii_case`. -/
def eqIgnoreAsciiCase (a b : String) : Bool := a.toList.map Char.toLower = b.toList.map Char.toLower

def Txt.entry (txt : Txt) (key : String) : Checked (List UInt8) :=
  match txt.find? fun item => eqIgnoreAsciiCase item.1 key with
  | some item => .ok item.2
  | none => .error (.invalidPayload ("missing " ++ key ++ " in TXT"))

/-- `std::str::from_utf8` -/
def fromUtf8 (bytes : List UInt8) (message : String) : Checked String :=
  match String.fromUTF8? ⟨bytes.toArray⟩ with
  | some text => .ok text
  | none => .error (.invalidPayload message)

/-- `str::parse::<u16>` -/
def parseU16 (text : String) : Option UInt16 :=
  let digits := match text.toList with
    | '+' :: digits => digits
    | digits => digits
  if digits.isEmpty || !digits.all Char.isDigit then none
  else
    let n := digits.foldl (fun n digit => 10 * n + (digit.toNat - 48)) 0
    if n < UInt16.size then some n.toUInt16 else none

def parsePort (text message : String) : Checked UInt16 :=
  match parseU16 text with
  | some port => .ok port
  | none => .error (.invalidPayload message)

def checkItem (item : String × List UInt8) : Checked Unit := do
  require (!item.1.isEmpty && item.1.utf8ByteSize ≤ 255 && item.2.length ≤ 255)
    "TXT key or value length invalid"
  require (item.1.toList.all fun ch => ch.toNat < 128 && ch ≠ '=')
    "TXT key must be ASCII without '='"

/-- The host target is not looked at. -/
def validateResolvedService (fullname _hostTarget : String) (srvPort : UInt16) (txt : Txt)
    (endpoint : DiscoveredEndpoint) : Checked DiscoveredHost := do
  require (!fullname.isEmpty && fullname.utf8ByteSize ≤ 255)
    "fullname must be between 1 and 255 bytes"
  require ("._maho-rd._tcp.".toList <:+: fullname.toList)
    "fullname must contain service type ._maho-rd._tcp."
  require (srvPort ≠ 0) "SRV port must be nonzero"
  require (isUsableEndpoint endpoint) "no usable unicast address found"
  txt.forM checkItem
  require ((txt.map fun item => item.1.utf8ByteSize + item.2.length).sum ≤ 1300)
    "total TXT length exceeds bounded limit"
  let protocol ← txt.entry "protocol"
  require (protocol = [51]) "unsupported protocol version"
  let name ← fromUtf8 (← txt.entry "name") "name must be valid UTF-8"
  require (!name.isEmpty && name.utf8ByteSize ≤ 255) "name must be between 1 and 255 bytes"
  let os ← fromUtf8 (← txt.entry "os") "os must be valid UTF-8"
  require (!os.isEmpty && os.utf8ByteSize ≤ 64) "os must be between 1 and 64 bytes"
  let udp ← fromUtf8 (← txt.entry "udp_port") "udp_port must be valid ASCII"
  let udpPort ← parsePort udp "udp_port is not a valid integer"
  require (udpPort ≠ 0) "udp_port must be nonzero"
  return ⟨fullname, name, endpoint.formatted, os, srvPort, udpPort⟩

inductive ServiceStateAction
  | publish (host : DiscoveredHost)
  | retract

def decideServiceStateAction (fullname : String) (hosttarget : Option String) (srvPort : UInt16)
    (txt : Txt) (addresses : List (IpAddr × Option UInt32)) : ServiceStateAction :=
  match hosttarget with
  | none => .retract
  | some target =>
    match choosePreferredEndpoint addresses with
    | none => .retract
    | some endpoint =>
      match validateResolvedService fullname target srvPort txt endpoint with
      | .ok host => .publish host
      | .error _ => .retract

def parseServiceMetadataScoped (fullname hostTarget : String) (srvPort : UInt16) (txt : Txt)
    (addresses : List (IpAddr × Option UInt32)) : Checked DiscoveredHost :=
  if addresses.isEmpty then .error (.invalidPayload "no addresses found")
  else
    match choosePreferredEndpoint addresses with
    | none => .error (.invalidPayload "no usable unicast address found")
    | some endpoint => validateResolvedService fullname hostTarget srvPort txt endpoint

theorem id_of_validate {fullname target : String} {srvPort : UInt16} {txt : Txt}
    {endpoint : DiscoveredEndpoint} {host : DiscoveredHost}
    (h : validateResolvedService fullname target srvPort txt endpoint = .ok host) :
    host.id = fullname := by
  simp only [validateResolvedService, Parse.except_bind_eq_ok, Parse.except_pure_eq_ok] at h
  obtain ⟨_, -, _, -, _, -, _, -, _, -, _, -, _, -, _, -, _, -, _, -, _, -, _, -, _, -, _, -, _, -,
    _, -, _, -, _, -, rfl⟩ := h
  rfl

end MahoRD.Discovery

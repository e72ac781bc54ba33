/-
MahoRD/Net/Address.lean

Network addresses (`std::net`) and how they are written.
-/
import MahoRD.Lib.Bytes

namespace MahoRD

structure Ipv4Addr where
  bits : UInt32
  deriving DecidableEq

def Ipv4Addr.new (a b c d : UInt8) : Ipv4Addr := ⟨Bytes.u32FromBE [a, b, c, d]⟩

def Ipv4Addr.octets (ip : Ipv4Addr) : List UInt8 := Bytes.u32ToBE ip.bits

namespace Ipv4Addr

def isUnspecified (ip : Ipv4Addr) : Bool := ip.bits = 0

def isBroadcast (ip : Ipv4Addr) : Bool := ip.bits = 0xffffffff

def isLoopback (ip : Ipv4Addr) : Bool := ip.octets.head? = some 127

def isMulticast (ip : Ipv4Addr) : Bool := ip.octets.head?.any fun a => 224 ≤ a && a ≤ 239

/-- `Display` -/
def display (ip : Ipv4Addr) : String := ".".intercalate (ip.octets.map fun a => toString a.toNat)

end Ipv4Addr

structure Ipv6Addr where
  segments : Vector UInt16 8
  deriving DecidableEq

namespace Ipv6Addr

def isUnspecified (ip : Ipv6Addr) : Bool := ip.segments.toList.all (· = 0)

def isLoopback (ip : Ipv6Addr) : Bool := ip.segments.toList = [0, 0, 0, 0, 0, 0, 0, 1]

/-- `segments()[0]` -/
def first (ip : Ipv6Addr) : UInt16 := ip.segments[0]

def isMulticast (ip : Ipv6Addr) : Bool := ip.first &&& 0xff00 = 0xff00

/-- `::ffff:a.b.c.d` -/
def toIpv4Mapped (ip : Ipv6Addr) : Option Ipv4Addr :=
  match ip.segments.toList with
  | [0, 0, 0, 0, 0, 0xffff, ab, cd] => some ⟨ab.toUInt32 <<< 16 ||| cd.toUInt32⟩
  | _ => none

structure Span where
  start : ℕ
  length : ℕ

/-- The first of the longest runs of zeroes. -/
def longestZeroes (segments : List UInt16) : Span :=
  (segments.zipIdx.foldl (fun (longest, current) (segment, i) =>
    if segment = 0 then
      let current : Span := ⟨if current.length = 0 then i else current.start, current.length + 1⟩
      (if current.length > longest.length then current else longest, current)
    else (longest, ⟨0, 0⟩)) ((⟨0, 0⟩, ⟨0, 0⟩) : Span × Span)).1

def displaySegments (segments : List UInt16) : String :=
  ":".intercalate (segments.map fun segment => String.ofList (Nat.toDigits 16 segment.toNat))

/-- `Display`: a run of two zeroes or more is left out. -/
def display (ip : Ipv6Addr) : String :=
  match ip.toIpv4Mapped with
  | some v4 => "::ffff:" ++ v4.display
  | none =>
    let segments := ip.segments.toList
    let zeroes := longestZeroes segments
    if zeroes.length > 1 then
      displaySegments (segments.take zeroes.start) ++ "::" ++
        displaySegments (segments.drop (zeroes.start + zeroes.length))
    else displaySegments segments

end Ipv6Addr

inductive IpAddr
  | v4 (ip : Ipv4Addr)
  | v6 (ip : Ipv6Addr)
  deriving DecidableEq

def IpAddr.display : IpAddr → String
  | .v4 ip => ip.display
  | .v6 ip => ip.display

inductive SocketAddr
  | v4 (ip : Ipv4Addr) (port : UInt16)
  | v6 (ip : Ipv6Addr) (port : UInt16) (flowInfo scopeId : UInt32)
  deriving DecidableEq

def SocketAddr.isIpv4 : SocketAddr → Bool
  | .v4 .. => true
  | .v6 .. => false

end MahoRD

/-
MahoRD/Host/GuestRegistry.lean

The registry of guests (`maho-host/src/guests.rs`), the sessions of a host and the calls of its
operators.  A call of `set_guest_permissions` writes the store first and tells the sessions in
the registry afterwards; the handshake of a known pairing reads the store first and joins the
registry afterwards.  Each of these is a step of its own, and so is all that a session does
between two looks at its commands.

The channel of a session is its `queue`; `taken` are the commands that have come out of it, and
`adopted` is the grant with which it has left the handshake.
-/
import MahoRD.Host.Housekeeping

namespace MahoRD.GuestRegistry

open Host

/-! ### Sessions -/

/-- Where a session is.  In `admission` it has its grant, and is not in the registry. -/
inductive Pc
  | load
  | authorization (record : PairingRecord)
  | admission
  | reading
  | commands (packet : Option (List UInt8))
  | dispatch (packet : List UInt8)
  | leaving
  | gone
  deriving DecidableEq

/-- The session is in the registry. -/
def Pc.joined : Pc → Bool
  | reading | commands _ | dispatch _ | leaving => true
  | load | authorization _ | admission | gone => false

/-- `ceiling`: the permissions of the host, before the handshake. -/
structure Peer where
  pairingId : String
  ceiling : GuestPermissions
  pc : Pc
  sessionTrust : PairingTrust
  grantPermissions : GuestPermissions
  effectivePermissions : GuestPermissions
  guest : Option GuestSession
  adopted : GuestPermissions
  queue : List GuestCommand
  taken : List GuestCommand

/-- The peer hangs up, or sends what is no packet. -/
def hangsUp (packet : List UInt8) : Bool :=
  match splitPacket packet with
  | .error _ => true
  | .ok (header, payload) =>
    header.packetType = .control &&
      match ControlMessage.decode payload with
      | .error _ => true
      | .ok message => message = .disconnect || message = .stopStream

/-! ### Operators -/

inductive Phase
  | load
  | authorization
  | setAuthorization (trust : PairingTrust)
  | broadcast
  | returned (result : Except SessionError Unit)
  deriving DecidableEq

/-- A call of `set_guest_permissions`. -/
structure SetCall where
  pairingId : String
  permissions : GuestPermissions
  phase : Phase

def Phase.isReturned : Phase → Bool
  | returned _ => true
  | _ => false

/-! ### The machine -/

/-- `sessions`: the registry, where the sender of a channel is given by its session. -/
structure State (τ ω : Type*) where
  disk : Disk
  sessions : Table String (GuestSession × τ)
  peers : τ → Option Peer
  calls : ω → Option SetCall

/-- `sent`: what is written to the peer is written.  An outcome `none` of a read ends the
session. -/
inductive Label (τ ω : Type*)
  | handshake (t : τ) (pairingId : String) (ceiling : GuestPermissions)
  | load (t : τ) (files : Files)
  | authorization (t : τ) (files : Files) (now : UInt64)
  | join (t : τ) (guestId name : String) (ceiling : GuestPermissions)
  | read (t : τ) (outcome : Option (Option (List UInt8)))
  | skip (t : τ)
  | command (t : τ) (sent : Bool)
  | serve (t : τ) (ceiling : GuestPermissions) (now : UInt64) (sent : Bool)
  | dispatched (t : τ)
  | fail (t : τ)
  | drop (t : τ)
  | set (o : ω) (pairingId : String) (permissions : GuestPermissions)
  | go (o : ω) (files : Files)
  | kick (id : String)

section Machine

variable {τ ω : Type*} [DecidableEq τ] [DecidableEq ω]

namespace State

def init (disk : Disk) : State τ ω := ⟨disk, ∅, fun _ => none, fun _ => none⟩

variable (s : State τ ω)

def setPeer (t : τ) (p : Peer) : State τ ω :=
  { s with peers := Function.update s.peers t (some p) }

omit [DecidableEq ω] in
@[simp] theorem setPeer_self (t : τ) (p : Peer) : (s.setPeer t p).peers t = some p :=
  Function.update_self _ _ _

def setCall (o : ω) (call : SetCall) : State τ ω :=
  { s with calls := Function.update s.calls o (some call) }

/-- The command goes into the channels of these guests. -/
def tell (whom : String → GuestSession → Bool) (command : GuestCommand) : State τ ω :=
  { s with peers := fun t => (s.peers t).map fun p => { p with
      queue := p.queue ++ ((s.sessions.entries.filter fun e => e.2.2 = t ∧ whom e.1 e.2.1).map
        fun _ => command) } }

def publishStatus : State τ ω :=
  s.tell (fun _ _ => true) (.status ⟨s.sessions.toSorted.map fun e => e.2.1.name⟩)

def join (t : τ) (p : Peer) (guest : GuestSession) (ceiling : GuestPermissions) : State τ ω :=
  publishStatus { s.setPeer t { p with
      pc := .reading
      guest := some guest
      effectivePermissions := Guests.intersect p.grantPermissions ceiling
      adopted := p.grantPermissions
      queue := []
      taken := [] }
    with sessions := s.sessions.insert guest.id (guest, t) }

/-- The guard of a guest is dropped. -/
def dropGuard (t : τ) (p : Peer) (guest : GuestSession) : State τ ω :=
  publishStatus { s.setPeer t { p with pc := .gone } with sessions := s.sessions.erase guest.id }

end State

/-- A session takes a command. -/
def takeCommand (p : Peer) (sent : Bool) (command : GuestCommand) (queue : List GuestCommand) :
    Peer :=
  let p := { p with queue, taken := p.taken ++ [command] }
  match command with
  | .fin _ => { p with pc := .leaving }
  | .status _ => if sent then p else { p with pc := .leaving }
  | .permissions permissions => { p with grantPermissions := permissions }

/-- What a session does when there is no command left. -/
def servePeer (p : Peer) (packet : Option (List UInt8)) (ceiling : GuestPermissions)
    (now : UInt64) (sent : Bool) : Peer :=
  if expired p.sessionTrust now then { p with pc := .leaving }
  else
    let current := Guests.intersect p.grantPermissions ceiling
    if current ≠ p.effectivePermissions ∧ ¬ sent then { p with pc := .leaving }
    else { p with
      effectivePermissions := current
      pc := match packet with
        | none => .reading
        | some packet => .dispatch packet }

/-- One step of a session. -/
def stepPeer (s : State τ ω) (p : Peer) : Label τ ω → Option (State τ ω)
  | .load t files =>
    if p.pc = .load then
      match ((PairingStore.load files p.pairingId).exec s.disk).1 with
      | .ok (some record) => some (s.setPeer t { p with pc := .authorization record })
      | _ => some (s.setPeer t { p with pc := .gone })
    else none
  | .authorization t files now =>
    match p.pc with
    | .authorization record =>
      match ((PairingStore.authorization files record.id).exec s.disk).1 with
      | .error _ => some (s.setPeer t { p with pc := .gone })
      | .ok authorization =>
        match Authorization.adopt p.grantPermissions now authorization with
        | .error _ => some (s.setPeer t { p with pc := .gone })
        | .ok (sessionTrust, grantPermissions) =>
          some (s.setPeer t { p with pc := .admission, sessionTrust, grantPermissions })
    | _ => none
  | .join t guestId name ceiling =>
    if p.pc = .admission ∧ s.sessions.lookup guestId = none then
      some (s.join t p ⟨guestId, p.pairingId, name, p.sessionTrust⟩ ceiling)
    else none
  | .read t outcome =>
    if p.pc = .reading then
      match outcome with
      | none => some (s.setPeer t { p with pc := .leaving })
      | some none => some (s.setPeer t { p with pc := .commands none })
      | some (some packet) =>
        some (s.setPeer t { p with
          pc := if hangsUp packet then .leaving else .commands (some packet) })
    else none
  | .skip t =>
    match p.pc with
    | .commands _ => some (s.setPeer t { p with pc := .reading })
    | _ => none
  | .command t sent =>
    match p.pc, p.queue with
    | .commands _, command :: queue => some (s.setPeer t (takeCommand p sent command queue))
    | _, _ => none
  | .serve t ceiling now sent =>
    match p.pc, p.queue with
    | .commands packet, [] => some (s.setPeer t (servePeer p packet ceiling now sent))
    | _, _ => none
  | .dispatched t =>
    match p.pc with
    | .dispatch _ => some (s.setPeer t { p with pc := .reading })
    | _ => none
  | .fail t =>
    if p.pc.joined then some (s.setPeer t { p with pc := .leaving })
    else some (s.setPeer t { p with pc := .gone })
  | .drop t =>
    match p.pc, p.guest with
    | .leaving, some guest => some (s.dropGuard t p guest)
    | _, _ => none
  | _ => none

/-- One step of a call. -/
def stepCall (s : State τ ω) (o : ω) (call : SetCall) (files : Files) : Option (State τ ω) :=
  match call.phase with
  | .load =>
    match ((PairingStore.load files call.pairingId).exec s.disk).1 with
    | .error e => some (s.setCall o { call with phase := .returned (.error e) })
    | .ok none => some (s.setCall o { call with phase := .broadcast })
    | .ok (some _) => some (s.setCall o { call with phase := .authorization })
  | .authorization =>
    match ((PairingStore.authorization files call.pairingId).exec s.disk).1 with
    | .error e => some (s.setCall o { call with phase := .returned (.error e) })
    | .ok (trust, _) => some (s.setCall o { call with phase := .setAuthorization trust })
  | .setAuthorization trust =>
    let written := (PairingStore.setAuthorization files call.pairingId trust
      (some call.permissions)).exec s.disk
    let phase := match written.1 with
      | .error e => .returned (.error e)
      | .ok () => .broadcast
    some { s.setCall o { call with phase } with disk := written.2 }
  | .broadcast =>
    some ((s.setCall o { call with phase := .returned (.ok ()) }).tell
      (fun _ guest => guest.pairingId = call.pairingId) (.permissions call.permissions))
  | .returned _ => none

/-- The session a label is about. -/
def Label.peer : Label τ ω → Option τ
  | handshake .. | set .. | go .. | kick _ => none
  | load t _ | authorization t _ _ | join t _ _ _ | read t _ | skip t | command t _ | serve t _ _ _
  | dispatched t | fail t | drop t => some t

def step (s : State τ ω) (label : Label τ ω) : Option (State τ ω) :=
  match label with
  | .handshake t pairingId ceiling =>
    match s.peers t with
    | some _ => none
    | none => some (s.setPeer t ⟨pairingId, ceiling, .load, .guestOnce, ceiling, ceiling, none,
        ceiling, [], []⟩)
  | .set o pairingId permissions =>
    match s.calls o with
    | some _ => none
    | none => some (s.setCall o ⟨pairingId, permissions, .load⟩)
  | .go o files => (s.calls o).bind fun call => stepCall s o call files
  | .kick id => some (s.tell (fun key _ => key = id) (.fin .kicked))
  | label => label.peer.bind fun t => (s.peers t).bind fun p => stepPeer s p label

end Machine

end MahoRD.GuestRegistry

/-
MahoRD/Host/GuestCalls.lean

The calls of the registry of guests (`maho-host/src/guests.rs`), each of them one step under its
mutex, and the channels they send into.

A sender in the registry is given by its channel: `τ` are the channels of the guests, `χ` those of
the consent requests, `ε` those of the subscribers.  A request may also be answered through the
`ConsentPrompt` of the host's own window, which holds a second sender of its channel and does not
ask the registry (`prompt`).

The store that `set_guest_permissions` writes first is in `GuestRegistry`.
-/
import MahoRD.Host.Session

namespace MahoRD.GuestCalls

open Host

/-- Instants are nanoseconds. -/
structure PendingRequest where
  id : String
  name : String
  expiresAt : ℕ

inductive HostEvent
  | guestConnected (guest : GuestSession)
  | guestDisconnected (guest : GuestSession)
  | consentRequested (request : PendingRequest)

/-! ### Channels -/

/-- A channel without bound: what has been sent into it, and whether its receiver is there. -/
structure Channel (α : Type*) where
  alive : Bool
  sent : List α

def Channel.new {α : Type*} : Channel α := ⟨true, []⟩

def Channel.send {α : Type*} (c : Channel α) (messages : List α) : Channel α :=
  if c.alive then { c with sent := c.sent ++ messages } else c

/-- `guard`: the id in the `GuestGuard` of the guest, until it is dropped. -/
structure Guest where
  guard : Option String
  channel : Channel GuestCommand

/-- A consent request and its channel, which has room for one answer.  `answers` are those that
`respond` has put into it; `finished`: `finish_request` has been called for it. -/
structure Consent where
  request : PendingRequest
  alive : Bool
  buffer : Option (Option PairingTrust)
  answers : List (Option PairingTrust)
  finished : Bool

/-- `SyncSender::try_send`, by `respond`. -/
def Consent.trySend (q : Consent) (trust : Option PairingTrust) : Bool × Consent :=
  if q.alive ∧ q.buffer = none then
    (true, { q with buffer := some trust, answers := q.answers ++ [trust] })
  else (false, q)

/-! ### The registry -/

section Registry

variable {τ χ ε : Type*}

structure RegistryState (τ χ ε : Type*) where
  sessions : Table String (GuestSession × τ)
  events : List ε
  pending : Table String (PendingRequest × χ)

structure State (τ χ ε : Type*) where
  registry : RegistryState τ χ ε
  clock : ℕ
  guests : τ → Option Guest
  requests : χ → Option Consent
  subscribers : ε → Option (Channel HostEvent)

namespace State

def init : State τ χ ε := ⟨⟨∅, [], ∅⟩, 0, fun _ => none, fun _ => none, fun _ => none⟩

variable (s : State τ χ ε)

/-- The status that `publish_status` sends: the names in the order of the ids. -/
def occupancy : HostStatus := ⟨s.registry.sessions.toSorted.map fun e => e.2.1.name⟩

/-- `state.events.retain(|tx| tx.send(event).is_ok())`. -/
def announce [DecidableEq ε] (event : HostEvent) : State τ χ ε :=
  let hears := fun e => (s.subscribers e).any Channel.alive
  { s with
    registry := { s.registry with events := s.registry.events.filter hears }
    subscribers := fun e => (s.subscribers e).map
      (·.send ((s.registry.events.filter (· = e)).map fun _ => event)) }

/-- The command goes to the sessions that pass the test. -/
def tell [DecidableEq τ] (whom : String → GuestSession → Bool) (command : GuestCommand) :
    State τ χ ε :=
  { s with guests := fun t => (s.guests t).map fun g => { g with
      channel := g.channel.send ((s.registry.sessions.entries.filter fun e =>
        e.2.2 = t ∧ whom e.1 e.2.1).map fun _ => command) } }

def publishStatus [DecidableEq τ] : State τ χ ε := s.tell (fun _ _ => true) (.status s.occupancy)

variable [DecidableEq τ] [DecidableEq χ] [DecidableEq ε]

def subscribe (e : ε) : State τ χ ε :=
  { s with
    registry := { s.registry with events := s.registry.events ++ [e] }
    subscribers := Function.update s.subscribers e (some Channel.new) }

/-- Does a send to a guest succeed? -/
def reaches (t : τ) : Bool := (s.guests t).any (·.channel.alive)

def kick (id : String) : Bool × State τ χ ε :=
  ((s.registry.sessions.lookup id).any fun entry => s.reaches entry.2,
    s.tell (fun key _ => key = id) (.fin .kicked))

def kickAll : ℕ × State τ χ ε :=
  ((s.registry.sessions.entries.filter fun e => s.reaches e.2.2).length,
    s.tell (fun _ _ => true) (.fin .kicked))

def permissions (pairingId : String) (permissions : GuestPermissions) : State τ χ ε :=
  s.tell (fun _ guest => guest.pairingId = pairingId) (.permissions permissions)

def join (t : τ) (guest : GuestSession) : State τ χ ε :=
  let s := { s with
    registry := { s.registry with sessions := s.registry.sessions.insert guest.id (guest, t) }
    guests := Function.update s.guests t (some ⟨some guest.id, Channel.new⟩) }
  (s.announce (.guestConnected guest)).publishStatus

/-- `Drop` of the `GuestGuard` of a guest. -/
def dropGuard (t : τ) (g : Guest) (id : String) : State τ χ ε :=
  let s := { s with guests := Function.update s.guests t (some { g with guard := none }) }
  match s.registry.sessions.lookup id with
  | none => s
  | some (guest, _) =>
    let s := { s with registry := { s.registry with sessions := s.registry.sessions.erase id } }
    (s.announce (.guestDisconnected guest)).publishStatus

def request (c : χ) (request : PendingRequest) : State τ χ ε :=
  let s := { s with
    registry := { s.registry with pending := s.registry.pending.insert request.id (request, c) }
    requests := Function.update s.requests c (some ⟨request, true, none, [], false⟩) }
  s.announce (.consentRequested request)

def finishRequest (id : String) : State τ χ ε :=
  { s with
    registry := { s.registry with pending := s.registry.pending.erase id }
    requests := fun c => (s.requests c).map fun q =>
      if q.request.id = id then { q with finished := true } else q }

def pendingRequests (now : ℕ) : List PendingRequest :=
  (s.registry.pending.toSorted.filter fun e => now < e.2.1.expiresAt).map fun e => e.2.1

/-- `now` is what the call reads off the clock. -/
def respond (id : String) (trust : Option PairingTrust) (now : ℕ) : Bool × State τ χ ε :=
  match s.registry.pending.lookup id with
  | none => (false, s)
  | some (request, c) =>
    let s := { s with
      registry := { s.registry with pending := s.registry.pending.erase id }
      clock := now }
    if now < request.expiresAt then
      match s.requests c with
      | none => (false, s)
      | some q =>
        ((q.trySend trust).1,
          { s with requests := Function.update s.requests c (some (q.trySend trust).2) })
    else (false, s)

end State

/-! ### The machine -/

/-- The calls of the registry, and what else happens to its channels.  `prompt`: the window of the
host answers; `receive`: the session takes the answer; `hangUp`, `abandon` and `unsubscribe`: a
receiver is dropped. -/
inductive Label (τ χ ε : Type*)
  | tick (now : ℕ)
  | subscribe (e : ε)
  | unsubscribe (e : ε)
  | join (t : τ) (guest : GuestSession)
  | leave (t : τ)
  | hangUp (t : τ)
  | kick (id : String)
  | kickAll
  | permissions (pairingId : String) (permissions : GuestPermissions)
  | request (c : χ) (request : PendingRequest)
  | respond (id : String) (trust : Option PairingTrust) (now : ℕ)
  | finishRequest (id : String)
  | prompt (c : χ) (trust : Option PairingTrust)
  | receive (c : χ)
  | abandon (c : χ)

variable [DecidableEq τ] [DecidableEq χ] [DecidableEq ε]

def step (s : State τ χ ε) : Label τ χ ε → Option (State τ χ ε)
  | .tick now => if s.clock ≤ now then some { s with clock := now } else none
  | .subscribe e => if s.subscribers e = none then some (s.subscribe e) else none
  | .unsubscribe e => (s.subscribers e).map fun c =>
      { s with subscribers := Function.update s.subscribers e (some { c with alive := false }) }
  | .join t guest => if s.guests t = none then some (s.join t guest) else none
  | .leave t =>
    match s.guests t with
    | some g => g.guard.map (s.dropGuard t g)
    | none => none
  | .hangUp t => (s.guests t).map fun g => { s with
      guests := Function.update s.guests t
        (some { g with channel := { g.channel with alive := false } }) }
  | .kick id => some (s.kick id).2
  | .kickAll => some s.kickAll.2
  | .permissions pairingId permissions => some (s.permissions pairingId permissions)
  | .request c request => if s.requests c = none then some (s.request c request) else none
  | .respond id trust now => if s.clock ≤ now then some (s.respond id trust now).2 else none
  | .finishRequest id => some (s.finishRequest id)
  | .prompt c trust =>
    match s.requests c with
    | some q =>
      if q.alive ∧ q.buffer = none then
        some { s with requests := Function.update s.requests c (some { q with buffer := some trust }) }
      else none
    | none => none
  | .receive c => (s.requests c).map fun q =>
      { s with requests := Function.update s.requests c (some { q with buffer := none }) }
  | .abandon c => (s.requests c).map fun q =>
      { s with requests := Function.update s.requests c (some { q with alive := false }) }

end Registry

end MahoRD.GuestCalls

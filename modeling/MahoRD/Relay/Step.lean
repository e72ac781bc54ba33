/-
MahoRD/Relay/Step.lean

The steps of the relay's tasks: `host_socket` and `client_socket` of
`maho-relay/src/lib.rs`, with the frame forwarding between them.

An action says which task moves and supplies what the task does not decide
itself: the messages of the peer, whether a write to the socket succeeded, the
fresh session id, the passing of time.
-/
import MahoRD.Lib.Machine
import MahoRD.Relay.State

namespace MahoRD.Relay

inductive Action
  | tick (duration : ℕ)
  | hostConnect (h : HostId)
  | hostIncoming (h : HostId) (m : Incoming)
  | hostStep (h : HostId) (sent : Bool)
  | hostPing (h : HostId)
  | hostIdle (h : HostId)
  | hostWrite (h : HostId) (sent : Bool)
  | clientConnect (c : ClientId) (hostId : String) (ip : ℕ)
  | clientIncoming (c : ClientId) (m : Incoming)
  | clientStep (c : ClientId) (sent : Bool) (fresh : Uuid)
  | clientAcceptTimeout (c : ClientId)
  | clientWrite (c : ClientId) (sent : Bool)
  | clientClosed (c : ClientId)
  | clientIdle (c : ClientId)

variable (env : Env)

/-! ### Host tasks -/

/-- A message to the host's own queue (`tx.send`). -/
def HostTask.push (t : HostTask) (m : Message) : HostTask :=
  if t.writing then { t with queue := t.queue ++ [m] } else t

/-- `handle_host_text`. -/
def handleHostText (s : State) (h : HostId) (t : HostTask) (text : String) : State :=
  match env.parse text with
  | none | some .pong | some .ping => s.setHost h t
  | some (.accept sessionId) =>
    match s.sessions.lookup sessionId with
    | none => s.setHost h t
    | some session =>
      if session.hostId ≠ t.hostId || !session.accept then s.setHost h t
      else
        { s with sessions := s.sessions.insert sessionId { session with accept := false } }.setHost
          h { t with pc := .accept session.clientTx }
  | some _ => s.setHost h (t.push (errorMessage "bad_frame" "unexpected host control"))

/-- `forward_from_host`, up to the clone of the client's sender. -/
def forwardFromHost (s : State) (h : HostId) (t : HostTask) (bytes : List UInt8) : State :=
  match decodeRelayFrame bytes with
  | .error _ =>
    s.setHost h { t.push (errorMessage "bad_frame" "invalid frame") with pc := .dropRemove true }
  | .ok frame =>
    if frame.payload.length > env.config.maxPayloadLen then
      s.setHost h
        { t.push (errorMessage "bad_frame" "payload too large") with pc := .dropRemove true }
    else
      match Uuid.fromSlice frame.sessionId with
      | none => s.setHost h t
      | some id =>
        let key := id.toText
        match s.sessions.lookup key with
        | none => s.setHost h t
        | some session =>
          if session.hostId ≠ t.hostId then s.setHost h t
          else if s.now - session.created > env.config.maxSessionDuration then
            s.setHost h { t with pc := .expire key }
          else s.setHost h { t with pc := .forward session.clientTx bytes }

/-- The socket of a host yields a message. -/
def hostIncoming (s : State) (h : HostId) (t : HostTask) (m : Incoming) : Option State :=
  let refuse (message : String) :=
    (s.log (.hostReceives h (errorMessage "unauthorized" message))).setHost h { t with pc := .done }
  match t.pc with
  | .register =>
    match m with
    | .text text =>
      match env.parse text with
      | some (.register hostId token) =>
        if !relayHostIdOk hostId
            || !relayTokenMatches env.hmac env.config.authSecret hostId token then
          some (refuse "invalid token")
        else some (s.setHost h { t with pc := .greet, hostId })
      | _ => some (refuse "expected register")
    | _ => some (refuse "expected register")
  | .loop =>
    let heard := { t with last := s.now }
    match m with
    | .text text => some (handleHostText env s h heard text)
    | .binary bytes => some (forwardFromHost env (s.log (.hostSends h bytes)) h heard bytes)
    | .ping payload => some (s.setHost h (heard.push (.pong payload)))
    | .pong => some (s.setHost h heard)
    | .closed => some (s.setHost h { t with pc := .dropRemove true })
  | _ => none

/-- A host task goes on by itself. -/
def hostStep (s : State) (h : HostId) (t : HostTask) (sent : Bool) : Option State :=
  match t.pc with
  | .greet =>
    if sent then
      some ((s.log (.hostReceives h (.text (.registered t.hostId)))).setHost h
        { t with pc := .dropRemove false })
    else some (s.setHost h { t with pc := .done })
  | .dropRemove exit =>
    some ({ s with hosts := s.hosts.erase t.hostId }.setHost h { t with pc := .dropCollect exit })
  | .dropCollect exit =>
    let doomed := (s.sessions.entries.filter fun e => e.2.hostId = t.hostId).map (·.1)
    some (s.setHost h { t with pc := .dropSessions exit doomed })
  | .dropSessions exit (id :: doomed) =>
    some ((s.removeSession id).setHost h { t with pc := .dropSessions exit doomed })
  | .dropSessions exit [] => some (s.setHost h { t with pc := if exit then .done else .insert })
  | .insert =>
    some (({ s with hosts := s.hosts.insert t.hostId h }.log (.registered h t.hostId)).setHost h
      { t with
        pc := .loop, writing := true, last := s.now, nextPing := s.now + env.config.heartbeat })
  | .accept client =>
    let s := s.setHost h { t with pc := .loop }
    match s.clientTasks.lookup client with
    | some c => some (s.setClient client { c with accepted := true })
    | none => some s
  | .forward client bytes =>
    some ((s.setHost h { t with pc := .loop }).sendClient client (.binary bytes))
  | .expire key =>
    some ((s.removeSession key).setHost h
      { t.push (errorMessage "session_expired" "session expired") with pc := .loop })
  | .register | .loop | .done => none

/-! ### Client tasks -/

/-- The end of a client task that leaves no session behind. -/
def refuseClient (s : State) (c : ClientId) (t : ClientTask) (code message : String) : State :=
  (s.log (.clientReceives c (errorMessage code message))).setClient c { t with pc := .done }

/-- `forward_from_client` has refused a frame. -/
def badFrame (s : State) (c : ClientId) (t : ClientTask) : State :=
  (s.log (.clientReceives c (errorMessage "bad_frame" "invalid frame"))).setClient c
    { t with pc := .close none }

/-- `forward_from_client` on the frame alone: the bytes to send on, with the
session's own id in place of the nil id. -/
def stampFrame (session : Uuid) (maxPayload : ℕ) (bytes : List UInt8) : Option (List UInt8) :=
  match decodeRelayFrame bytes with
  | .error _ => none
  | .ok frame =>
    if frame.payload.length > maxPayload then none
    else if frame.sessionId = Uuid.nil.bytes then some (session.bytes ++ bytes.drop 16)
    else if frame.sessionId ≠ session.bytes then none
    else some bytes

/-- The socket of a client yields a message. -/
def clientIncoming (s : State) (c : ClientId) (t : ClientTask) (m : Incoming) : Option State :=
  match t.pc with
  | .connect =>
    match m with
    | .text text =>
      match env.parse text with
      | some (.connect claimed token) =>
        if claimed ≠ t.hostId
            || !relayTokenMatches env.hmac env.config.authSecret t.hostId token then
          some (refuseClient s c t "unauthorized" "invalid token")
        else some (s.setClient c { t with pc := .count })
      | _ => some (refuseClient s c t "unauthorized" "expected connect")
    | _ => some (refuseClient s c t "unauthorized" "expected connect")
  | .loop host =>
    match m with
    | .binary bytes =>
      let s := s.log (.clientSends c bytes)
      let t := { t with last := s.now }
      match t.session.bind (stampFrame · env.config.maxPayloadLen bytes) with
      | none => some (badFrame s c t)
      | some stamped => some (s.setClient c { t with pc := .checkSession host stamped })
    | .ping payload => some (s.log (.clientReceives c (.pong payload)))
    | .pong | .text _ => some s
    | .closed => some (s.setClient c { t with pc := .close none })
  | _ => none

/-- A client task goes on by itself. -/
def clientStep (s : State) (c : ClientId) (t : ClientTask) (sent : Bool) (fresh : Uuid) :
    Option State :=
  let noHost := errorMessage "not_found" "host is not registered"
  match t.pc with
  | .start =>
    match s.allowConnect env.config.connectsPerMinute t.ip with
    | (false, s) => some (refuseClient s c t "rate_limited" "too many connects")
    | (true, s) => some (s.setClient c { t with pc := .lookup })
  | .lookup =>
    if t.hostId ∈ s.hosts then some (s.setClient c { t with pc := .connect })
    else some (refuseClient s c t "not_found" "host is not registered")
  | .count =>
    if s.sessionCount t.hostId ≥ env.config.maxSessionsPerHost then
      some (refuseClient s c t "session_limit" "too many sessions")
    else some (s.setClient c { t with pc := .openSession })
  | .openSession =>
    let session : Session := ⟨t.hostId, c, true, s.now⟩
    some (({ s with sessions := s.sessions.insert fresh.toText session }.log
      (.opened c fresh t.hostId)).setClient c { t with pc := .introduce, session := some fresh })
  | .introduce =>
    match s.hosts.lookup t.hostId with
    | none => some (s.setClient c { t with pc := .close (some noHost) })
    | some host => some (s.setClient c { t with pc := .incoming host })
  | .incoming host =>
    let id := (t.session.map Uuid.toText).getD ""
    match s.sendHost host (.text (.incoming id)) with
    | none => some (s.setClient c { t with pc := .close (some noHost) })
    | some s => some (s.setClient c { t with pc := .await host, last := s.now })
  | .await host =>
    if t.accepted then some (s.setClient c { t with pc := .connected host })
    -- the accept sender is dropped with its session
    else if ((t.session.bind (s.sessions.lookup ·.toText)).all (·.clientTx ≠ c))
        && s.hostTasks.entries.all (·.2.pc ≠ .accept c) then
      some (s.setClient c
        { t with pc := .close (some (errorMessage "not_found" "host did not accept")) })
    else none
  | .connected host =>
    if sent then
      some ((s.log (.clientReceives c (.text .connected))).setClient c
        { t with pc := .loop host, last := s.now })
    else some (s.setClient c { t with pc := .close none })
  | .checkSession host bytes =>
    if (t.session.bind (s.sessions.lookup ·.toText)).isSome then
      some (s.setClient c { t with pc := .checkHost host bytes })
    else some (badFrame s c t)
  | .checkHost host bytes =>
    if s.hosts.lookup t.hostId = some host then
      some (s.setClient c { t with pc := .send host bytes })
    else some (badFrame s c t)
  | .send host bytes =>
    match s.sendHost host (.binary bytes) with
    | none => some (badFrame s c t)
    | some s => some (s.setClient c { t with pc := .loop host })
  | .close farewell =>
    let s := s.removeSession ((t.session.map Uuid.toText).getD "")
    let s := match farewell with
      | none => s
      | some m => s.log (.clientReceives c m)
    some (s.setClient c { t with pc := .done })
  | .connect | .loop _ | .done => none

/-! ### The relay -/

/-- Act on a live task. -/
def withHost (s : State) (h : HostId) (f : HostTask → Option State) : Option State :=
  (s.hostTasks.lookup h).bind f

def withClient (s : State) (c : ClientId) (f : ClientTask → Option State) : Option State :=
  (s.clientTasks.lookup c).bind f

def step (s : State) : Action → Option State
  | .tick duration => some { s with now := s.now + duration }
  | .hostConnect h =>
    if h ∈ s.hostTasks then none else some (s.setHost h ⟨.register, "", [], false, 0, 0⟩)
  | .hostIncoming h m => withHost s h fun t => hostIncoming env s h t m
  | .hostStep h sent => withHost s h fun t => hostStep env s h t sent
  | .hostPing h => withHost s h fun t =>
    if t.pc = .loop ∧ t.nextPing ≤ s.now then
      some (s.setHost h
        { t.push (.text .ping) with nextPing := t.nextPing + env.config.heartbeat })
    else none
  | .hostIdle h => withHost s h fun t =>
    if t.pc = .loop ∧ t.last + env.config.idleTimeout ≤ s.now then
      some (s.setHost h { t with pc := .dropRemove true })
    else none
  -- the writer task; a failed write ends it and closes the queue
  | .hostWrite h sent => withHost s h fun t =>
    match t.queue with
    | [] => none
    | m :: rest =>
      if sent then some ((s.log (.hostReceives h m)).setHost h { t with queue := rest })
      else some (s.setHost h { t with queue := [], writing := false })
  | .clientConnect c hostId ip =>
    if c ∈ s.clientTasks then none
    else some (s.setClient c ⟨.start, hostId, ip, none, false, [], 0⟩)
  | .clientIncoming c m => withClient s c fun t => clientIncoming env s c t m
  | .clientStep c sent fresh => withClient s c fun t => clientStep env s c t sent fresh
  | .clientAcceptTimeout c => withClient s c fun t =>
    match t.pc with
    | .await _ =>
      if t.last + env.config.acceptTimeout ≤ s.now then
        some (s.setClient c
          { t with pc := .close (some (errorMessage "not_found" "host did not accept")) })
      else none
    | _ => none
  | .clientWrite c sent => withClient s c fun t =>
    match t.pc, t.queue with
    | .loop _, m :: rest =>
      if sent then some ((s.log (.clientReceives c m)).setClient c { t with queue := rest })
      else some (s.setClient c { t with pc := .close none, queue := rest })
    | _, _ => none
  -- every sender of the client's queue is gone
  | .clientClosed c => withClient s c fun t =>
    match t.pc, t.queue with
    | .loop _, [] =>
      if ((t.session.bind (s.sessions.lookup ·.toText)).all (·.clientTx ≠ c))
          && s.hostTasks.entries.all (fun e => match e.2.pc with
            | .forward client _ => client ≠ c
            | _ => true) then
        some (s.setClient c { t with pc := .close none })
      else none
    | _, _ => none
  | .clientIdle c => withClient s c fun t =>
    match t.pc with
    | .loop _ =>
      if t.last + env.config.idleTimeout ≤ s.now then
        some (s.setClient c { t with pc := .close none })
      else none
    | _ => none

end MahoRD.Relay

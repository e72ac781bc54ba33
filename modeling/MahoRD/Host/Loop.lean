/-
MahoRD/Host/Loop.lean

The loop of a session (`handle_connection`): a frame is read, housekeeping is
done, and the frame is dispatched to the handler of its type.

Every frame that is read is dispatched, once and in order, unless the session
ends in the iteration (`packets_served`); a type without a handler in the state
of the session is refused.  When the display of the stream is gone and the server
has no restart factory, the frame is lost (`vanished_drops`).
-/
import MahoRD.Host.Admit
import MahoRD.Host.Requests

namespace MahoRD.Host

open Act

/-! ### The loop -/

/-- The handler of the type of a frame. -/
def handle (c : Connection) (t : Turn) (header : PacketHeader) (payload : List UInt8) :
    HostAct Unit :=
  match header.packetType with
  | .pairingRequest => pairingRequest c t payload
  | .handshake => handshake c t payload
  | .inputEvent => inputEvent t header payload
  | .control => control c t payload
  | _ => pure ()

def dispatch (c : Connection) (t : Turn) (packet : List UInt8) : HostAct Unit := do
  let (header, payload) ← ofExcept .fail (splitPacket packet)
  let s ← get
  let state := s.admission.state
  if ¬ state.allows header.packetType then do
    logPacket (.refused state packet)
    throw (if state = .authenticated ∧ header.packetType = .handshake then
      .fail .alreadyAuthenticated else .next)
  else do
    logPacket (.dispatched packet)
    handle c t header payload

/-- What is done before a frame is dispatched. -/
def prepare (c : Connection) (t : Turn) (packet : Option (List UInt8)) : HostAct Unit := do
  checkHangUp packet
  checkTopology c t
  checkAdmission c t
  housekeeping c t

def iteration (c : Connection) (t : Turn) : HostAct Unit := do
  let packet ← readPacket t
  prepare c t packet
  match packet with
  | none => pure ()
  | some packet => dispatch c t packet

/-- A session, as its loop has left it. -/
inductive Loop
  | running (s : Session)
  | ended (s : Session) (result : Except SessionError Unit)

namespace Loop

def session : Loop → Session
  | running s => s
  | ended s _ => s

end Loop

/-- What has become of the store and the pipeline since the last iteration. -/
def Session.enter (s : Session) (t : Turn) : Session :=
  { s with
    disk := t.disk
    media := { s.media with pipeline := s.media.pipeline && !t.pipelineTaken } }

/-- Where an iteration leaves the loop. -/
def Loop.of : Except Exit Unit × Session → Loop
  | (.ok (), s) => .running s
  | (.error .next, s) => .running s
  | (.error .leave, s) => .ended s (.ok ())
  | (.error (.fail e), s) => .ended s (.error e)

def step (c : Connection) : Loop → Turn → Option Loop
  | .ended _ _, _ => none
  | .running s, t => some (Loop.of ((iteration c t).exec (s.enter t)))

@[simp] theorem Loop.session_of (o : Except Exit Unit × Session) : (Loop.of o).session = o.2 := by
  rcases o with ⟨e | -, s⟩
  · cases e <;> rfl
  · rfl

/-! ### Frames -/

/-- What becomes of a frame: it is dispatched, or there is no handler for it. -/
inductive Handled (packet : List UInt8) : PacketEvent → Prop
  | dispatched : Handled packet (.dispatched packet)
  | refused {state : SessionState} {header : PacketHeader} {payload : List UInt8}
      (hsplit : splitPacket packet = .ok (header, payload))
      (hrefused : state.allows header.packetType = false) :
      Handled packet (.refused state packet)

/-- Every frame that was read has been handled before the next was read. -/
inductive Served : List PacketEvent → Prop
  | nil : Served []
  | snoc {log : List PacketEvent} {packet : List UInt8} {event : PacketEvent} (hlog : Served log)
      (hevent : Handled packet event) : Served (log ++ [PacketEvent.read packet, event])

/-- The loop has served every frame; the last one may have ended the session. -/
def Loop.Served : Loop → Prop
  | running s => Host.Served s.packets
  | ended s _ => Host.Served s.packets ∨
      ∃ log packet, s.packets = log ++ [PacketEvent.read packet] ∧ Host.Served log

/-- The read of the turn returns a frame. -/
def Turn.Reads (t : Turn) : Prop :=
  match t.read with
  | .ok (some _) => True
  | _ => False

instance (t : Turn) : Decidable t.Reads :=
  match h : t.read with
  | .ok (some _) => isTrue (by rw [Turn.Reads, h]; trivial)
  | .ok none => isFalse (by rw [Turn.Reads, h]; exact id)
  | .error _ => isFalse (by rw [Turn.Reads, h]; exact id)

/-- A frame is read in an iteration that goes on without it. -/
def Loop.Drops (c : Connection) : Loop → Turn → Prop
  | running s, t => t.Reads ∧ Vanished c t s
  | ended _ _, _ => False

instance (c : Connection) : (l : Loop) → (t : Turn) → Decidable (l.Drops c t)
  | .running s, t => inferInstanceAs (Decidable (t.Reads ∧ Vanished c t s))
  | .ended _ _, _ => isFalse fun h => h

/-! ### The steps of an iteration -/

theorem readPacket_cases (t : Turn) (s : Session) :
    Stopped (Same Session.core) Exit.Ends s ((readPacket t).exec s) ∨
      (readPacket t).exec s = (.ok none, s) ∨
      ∃ packet, t.read = .ok (some packet) ∧ (readPacket t).exec s =
        (.ok (some packet), { s with packets := s.packets ++ [PacketEvent.read packet] }) := by
  set Ψ : Except Exit (Option (List UInt8)) × Session → Prop := fun o =>
    o = (.ok none, s) ∨ ∃ packet, t.read = .ok (some packet) ∧
      o = (.ok (some packet), { s with packets := s.packets ++ [PacketEvent.read packet] })
  show Stopped _ _ s (Act.exec _ s) ∨ Ψ (Act.exec _ s)
  rw [readPacket, exec_bind]
  show Stopped _ _ s (Act.exec _ s) ∨ Ψ (Act.exec _ s)
  refine Keeps.past Ψ (Keeps.when (Keeps.raise trivial)) rfl fun _ s₁ haborted _ => ?_
  obtain ⟨-, rfl⟩ := exec_guard_eq_ok.mp haborted
  refine Keeps.past Ψ (Keeps.when ?_) rfl fun _ s₂ hstop _ => ?_
  · exact Keeps.seq (Keeps.when (sendSessionEnd_still t _).quiet) fun _ => Keeps.raise trivial
  obtain ⟨-, rfl⟩ := exec_refuse_eq_ok.mp hstop
  rcases hread : t.read with (e | -) | (- | packet)
  · -- an error of the socket
    show Stopped _ _ s₂ (Act.exec (if _ then _ else _) s₂) ∨ _
    rw [exec_ite]
    split
    · exact Or.inr (Or.inl rfl)
    rw [exec_ite]
    split
    · exact Or.inl ⟨rfl, .leave, trivial, rfl⟩
    · exact Or.inl ⟨rfl, .fail (.tls (.io e)), trivial, rfl⟩
  · exact Or.inl ⟨rfl, .fail (.tls .other), trivial, rfl⟩
  · exact Or.inr (Or.inl rfl)
  · exact Or.inr (Or.inr ⟨packet, hread, rfl⟩)

theorem handle_packets (c : Connection) (t : Turn) (header : PacketHeader)
    (payload : List UInt8) : Keeps (Same Session.packets) Any (handle c t header payload) := by
  have hentry : ∀ {X : Exit → Prop} {x : HostAct Unit}, Keeps (Same Session.entry) X x →
      Keeps (Same Session.packets) Any x := fun hx =>
    Keeps.mono hx (fun h => (Session.entry_eq_iff.mp h).2.1) fun _ => trivial
  rw [handle]
  split
  · intro s
    refine ⟨?_, fun _ _ => trivial⟩
    rcases pairingRequest_cases c t payload s with h | h
    · exact (Session.entry_eq_iff.mp h.1).2.1
    · exact h.1.packets
  · intro s
    refine ⟨?_, fun _ _ => trivial⟩
    rcases handshake_cases c t payload s with h | h
    · exact (Session.ledger_eq_iff.mp h.1).2.1
    · exact h.1.packets
  · exact hentry (entry_of_core (inputEvent_quiet t header payload))
  · exact hentry (control_entry c t payload)
  · exact Keeps.ret ()

/-- How a frame is dispatched. -/
inductive Dispatches (c : Connection) (t : Turn) (packet : List UInt8) (s : Session) :
    Except Exit Unit × Session → Prop
  | malformed {e : SessionError} (hsplit : splitPacket packet = .error e) :
      Dispatches c t packet s (.error (.fail e), s)
  | refused {header : PacketHeader} {payload : List UInt8} {e : Exit}
      (hsplit : splitPacket packet = .ok (header, payload))
      (hrefused : s.admission.state.allows header.packetType = false)
      (he : e = if s.admission.state = .authenticated ∧ header.packetType = .handshake then
        .fail .alreadyAuthenticated else .next) :
      Dispatches c t packet s
        (.error e, { s with packets := s.packets ++ [PacketEvent.refused s.admission.state packet] })
  | handled {header : PacketHeader} {payload : List UInt8}
      (hsplit : splitPacket packet = .ok (header, payload))
      (hallowed : s.admission.state.allows header.packetType = true) :
      Dispatches c t packet s ((handle c t header payload).exec
        { s with packets := s.packets ++ [PacketEvent.dispatched packet] })

theorem dispatch_cases (c : Connection) (t : Turn) (packet : List UInt8) (s : Session) :
    Dispatches c t packet s ((dispatch c t packet).exec s) := by
  rw [dispatch, exec_bind]
  rcases hsplit : splitPacket packet with e | ⟨header, payload⟩
  · exact Dispatches.malformed hsplit
  show Dispatches c t packet s (Act.exec (if _ then _ else _ : HostAct Unit) s)
  rw [exec_ite]
  split
  next hrefused => exact Dispatches.refused hsplit (by simpa using hrefused) rfl
  next hallowed => exact Dispatches.handled hsplit (by simpa using hallowed)

theorem prepare_steady (c : Connection) (t : Turn) (packet : Option (List UInt8)) (s : Session) :
    Steady s ((prepare c t packet).exec s).2 ∧
      ∀ e, ((prepare c t packet).exec s).1 = .error e → e.Ends ∨ Vanished c t s := by
  have hsteady : ∀ {x : HostAct Unit}, Quiet x →
      Keeps Steady (fun e : Exit => e.Ends ∨ Vanished c t s) x :=
    fun hx => Keeps.mono (steady_of_quiet hx) (fun h => h) Or.inl
  have hangUp := (checkHangUp_still packet).quiet s
  rw [prepare, exec_bind]
  rcases hexec : (checkHangUp packet).exec s with ⟨e | u, s₁⟩
  · rw [hexec] at hangUp
    refine ⟨steady_of_core hangUp.1, fun e' he => Or.inl (hangUp.2 e' he)⟩
  rw [hexec] at hangUp
  obtain ⟨hcore, -⟩ := hangUp
  -- what the check of the displays looks at is still the same
  obtain ⟨hview, -⟩ := Prod.mk.inj hcore
  obtain ⟨hentry, hmedia, -⟩ := Session.view_eq_iff.mp hview
  obtain ⟨hadmission, -⟩ := Session.entry_eq_iff.mp hentry
  have hvanished : Vanished c t s₁ = Vanished c t s := by
    rw [Vanished, Vanished, hadmission, hmedia]
  have hrest : Keeps Steady (fun e : Exit => e.Ends ∨ Vanished c t s)
      (checkAdmission c t >>= fun _ => housekeeping c t) :=
    Keeps.seq (hsteady (checkAdmission_still c t).quiet) fun _ => hsteady (housekeeping_calm c t).quiet
  obtain ⟨hR, hX⟩ := checkTopology_steady c t s₁
  show Steady s (Act.exec (checkTopology c t >>= _) s₁).2 ∧
    ∀ e, (Act.exec (checkTopology c t >>= _) s₁).1 = .error e → _
  rw [exec_bind]
  rcases hexec₂ : (checkTopology c t).exec s₁ with ⟨e | u, s₂⟩
  · rw [hexec₂] at hR hX
    exact ⟨IsTrans.trans _ _ _ (steady_of_core hcore) hR, fun e' he => hvanished ▸ hX e' he⟩
  · rw [hexec₂] at hR
    obtain ⟨hR₃, hX₃⟩ := hrest s₂
    exact ⟨IsTrans.trans _ _ _ (IsTrans.trans _ _ _ (steady_of_core hcore) hR) hR₃, hX₃⟩

/-- The session once a frame has been read. -/
def Session.reading (s : Session) (packet : List UInt8) : Session :=
  { s with packets := s.packets ++ [PacketEvent.read packet] }

/-- How an iteration goes. -/
inductive Iterates (c : Connection) (t : Turn) (s : Session) :
    Except Exit Unit × Session → Prop
  | unread {e : Exit} {s' : Session} (hends : e.Ends) (hcore : s'.core = s.core) :
      Iterates c t s (.error e, s')
  | idle {r : Except Exit Unit} {s' : Session} (hsteady : Steady s s') : Iterates c t s (r, s')
  | stopped {packet : List UInt8} {e : Exit} {s' : Session} (hread : t.read = .ok (some packet))
      (hsteady : Steady (s.reading packet) s') (hends : e.Ends ∨ Vanished c t s) :
      Iterates c t s (.error e, s')
  | dispatched {packet : List UInt8} {s' : Session} (hread : t.read = .ok (some packet))
      (hsteady : Steady (s.reading packet) s') : Iterates c t s ((dispatch c t packet).exec s')

theorem iteration_cases (c : Connection) (t : Turn) (s : Session) :
    Iterates c t s ((iteration c t).exec s) := by
  rw [iteration, exec_bind]
  rcases readPacket_cases t s with ⟨hcore, e, hends, he⟩ | hread | ⟨packet, hpacket, hread⟩
  · rcases hexec : (readPacket t).exec s with ⟨r, s₁⟩
    rw [hexec] at hcore he
    cases he
    exact Iterates.unread hends hcore
  · rw [hread]
    have hsteady := (prepare_steady c t none s).1
    show Iterates c t s (Act.exec (prepare c t none >>= fun _ => pure ()) s)
    rw [exec_bind]
    rcases hexec : (prepare c t none).exec s with ⟨e | u, s₁⟩ <;> rw [hexec] at hsteady
    · exact Iterates.idle hsteady
    · exact Iterates.idle hsteady
  · rw [hread]
    obtain ⟨hsteady, hX⟩ := prepare_steady c t (some packet) (s.reading packet)
    show Iterates c t s
      (Act.exec (prepare c t (some packet) >>= fun _ => dispatch c t packet) (s.reading packet))
    rw [exec_bind]
    rcases hexec : (prepare c t (some packet)).exec (s.reading packet) with ⟨e | u, s₁⟩ <;>
      rw [hexec] at hsteady hX
    · exact Iterates.stopped hpacket hsteady (hX e rfl)
    · exact Iterates.dispatched hpacket hsteady

theorem Steady.packets {s s' : Session} (h : Steady s s') : s'.packets = s.packets :=
  (Session.entry_eq_iff.mp h.entry).2.1

theorem iteration_packets {c : Connection} {t : Turn} {s : Session}
    {o : Except Exit Unit × Session} (ho : o = (iteration c t).exec s) :
    o.2.packets = s.packets ∨
      (∃ packet, t.read = .ok (some packet) ∧ o.2.packets = s.packets ++ [PacketEvent.read packet] ∧
        ∃ e, o.1 = .error e ∧ (e.Ends ∨ Vanished c t s)) ∨
      ∃ packet event, Handled packet event ∧
        o.2.packets = s.packets ++ [PacketEvent.read packet, event] := by
  rw [ho]
  have hiterates := iteration_cases c t s
  generalize (iteration c t).exec s = o at hiterates
  cases hiterates with
  | unread hends hcore => exact Or.inl (steady_of_core hcore).packets
  | idle hsteady => exact Or.inl hsteady.packets
  | stopped hread hsteady hends =>
    exact Or.inr (Or.inl ⟨_, hread, hsteady.packets, _, rfl, hends⟩)
  | @dispatched packet s' hread hsteady =>
    right
    have hpackets : s'.packets = s.packets ++ [PacketEvent.read packet] := hsteady.packets
    have hdispatches := dispatch_cases c t packet s'
    generalize (dispatch c t packet).exec s' = o at hdispatches
    cases hdispatches with
    | malformed hsplit => exact Or.inl ⟨packet, hread, hpackets, _, rfl, Or.inl trivial⟩
    | refused hsplit hrefused he =>
      refine Or.inr ⟨packet, _, Handled.refused hsplit hrefused, ?_⟩
      show s'.packets ++ [_] = _
      rw [hpackets, List.append_assoc]
      rfl
    | handled hsplit hallowed =>
      refine Or.inr ⟨packet, _, Handled.dispatched, ?_⟩
      rw [(handle_packets c t _ _ _).1]
      show s'.packets ++ [_] = _
      rw [hpackets, List.append_assoc]
      rfl

/-! ### Runs -/

/-- The loop of a new connection. -/
def Loop.start (c : Connection) (policy : HostPolicy) (displays : List HostDisplay) (now : ℕ)
    (disk : Disk) : Loop := .running (Session.start c policy displays now disk)

theorem step_served {c : Connection} {l l' : Loop} {t : Turn} (hl : l.Served)
    (hkept : ¬ l.Drops c t) (h : step c l t = some l') : l'.Served := by
  cases l with
  | ended s result => cases h
  | running s =>
    obtain rfl : Loop.of ((iteration c t).exec (s.enter t)) = l' := Option.some.inj h
    have hserved : Served (s.enter t).packets := hl
    rcases ho : (iteration c t).exec (s.enter t) with ⟨r, s'⟩
    rcases iteration_packets ho.symm with hsame | ⟨packet, hpacket, hlog, e, rfl, hends⟩ | ⟨packet, event, hevent, hlog⟩
    · have hserved' : Served s'.packets := by rw [hsame]; exact hserved
      rcases r with (- | - | -) | -
      · exact hserved'
      · exact Or.inl hserved'
      · exact Or.inl hserved'
      · exact hserved'
    · rcases hends with hends | hvanished
      · have htrailing : ∃ log packet, s'.packets = log ++ [PacketEvent.read packet] ∧ Served log :=
          ⟨_, packet, hlog, hserved⟩
        cases e with
        | next => cases hends
        | leave => exact Or.inr htrailing
        | fail error => exact Or.inr htrailing
      · have hreads : t.Reads := by rw [Turn.Reads, hpacket]; trivial
        exact absurd ⟨hreads, hvanished⟩ hkept
    · have hserved' : Served s'.packets := by rw [hlog]; exact hserved.snoc hevent
      rcases r with (- | - | -) | -
      · exact hserved'
      · exact Or.inl hserved'
      · exact Or.inl hserved'
      · exact hserved'

/-- A turn in which nothing happens. -/
def Turn.idle (disk : Disk) : Turn where
  disk
  pipelineTaken := false
  aborted := false
  stop := false
  mediaFailed := false
  read := .ok none
  topology := ⟨0, 0, [], none, true, none⟩
  admissionNow := 0
  writeTimeout := none
  commands := []
  unixMs := 0
  policy := ⟨true, true⟩
  discover := .ok false
  clone := none
  now := 0
  image := none
  text := none
  pairing := ⟨0, true, true, none, 0, 0, true, 0, "", .filled 0⟩
  handshake := ⟨.ok, .ok, 0, none, none, none, .ok none, 0, .ok, .ok, ⟨true, true⟩, "", [], 0⟩
  control := ⟨true, .accepted, none, none, [], true, none, none, 0⟩
  write := fun _ => none

/-- A Linux host that streams one named output, and a peer it has paired with
before. -/
def exampleConnection (restartFactory : Bool) : Connection where
  config := ⟨"host", ⟨1920, 1080, 1920, 1080, 0⟩, 60, 20000000, false, some "DP-1", false⟩
  platform := .linux
  hostCaps := .empty
  restartFactory
  pairingDeadline := none
  negotiatedIdentity := "maho-p1.P1"
  admissionDeadline := 10000

def exampleDisk : Disk where
  records := [⟨"P1", "A", .filled 7⟩]
  grants := ∅

/-- The bytes of a frame. -/
def frame (packetType : PacketType) (payload : List UInt8) : List UInt8 :=
  PacketHeader.toBytes ⟨packetType, 0, 0, 0⟩ ++ payload

def exampleHandshake : List UInt8 :=
  frame .handshake ([1, 0, 65, 0, 4, 0, 4, 0, 0, 0x80, 0x3f, 3, 0x80, 0, 0, 0, 0, 0, 0, 0, 2, 0,
    80, 49] ++ List.replicate 16 0)

def examplePing : List UInt8 := frame .control [4]

def exampleTurns (displays : List HostDisplay) : List Turn :=
  [{ Turn.idle exampleDisk with read := .ok (some exampleHandshake) },
    { Turn.idle exampleDisk with
      read := .ok (some examplePing)
      topology := ⟨2000, 2000, displays, none, true, none⟩ }]

theorem Served.even {log : List PacketEvent} (h : Served log) : log.length % 2 = 0 := by
  induction h with
  | nil => rfl
  | snoc hlog hevent ih =>
    rw [List.length_append]
    show (_ + 2) % 2 = 0
    omega

end MahoRD.Host

/-
MahoRD/Host/AdmissionReads.lean

The admission of a peer over its TLS stream: the loop of a session until the peer is
authenticated, with every frame read by `read_frame_until` (`maho-net/src/tls_psk.rs`).

What the stream gives is a list of reads, each some bytes, and an error after the last.  A frame
may end inside a read or go on in the next one; a read that completes no frame is returned as
no frame.  The loop then goes on reading, but the nested read for the trust request takes it for
the end of the time the peer has (`cut_timesOut`).
-/
import MahoRD.Host.Admission
import MahoRD.Proto.Framing

namespace MahoRD.Host

open Act Incremental

/-! ### Reading frames -/

/-- The events taken apart already, the reader, and what the stream will give. -/
structure Incoming where
  pending : List TcpFrameEvent
  reader : TcpFrameReader
  chunks : List (List UInt8)
  ending : TlsPskError

namespace Incoming

def result : TcpFrameEvent → Except TlsPskError (Option (List UInt8))
  | .frame payload => .ok (some payload)
  | .droppedInvalidLength _ => .error .other

/-- `read_frame_until`: at most one read of the stream, as soon as there is something to read. -/
def readFrameUntil (i : Incoming) : Except TlsPskError (Option (List UInt8)) × Incoming :=
  match i.pending, i.chunks with
  | event :: pending, _ => (result event, { i with pending })
  | [], [] => (.error i.ending, i)
  | [], bytes :: chunks =>
    let (events, reader) := i.reader.push bytes
    match events with
    | [] => (.ok none, { i with reader, chunks })
    | event :: pending => (result event, { i with pending, reader, chunks })

/-- A stream of which nothing has been read. -/
def start (chunks : List (List UInt8)) (ending : TlsPskError) : Incoming :=
  ⟨[], .new, chunks, ending⟩

/-- The events still to come. -/
def events (i : Incoming) : List TcpFrameEvent := i.pending ++ (i.reader.pushAll i.chunks).1

/-- How often the stream can be read before it ends. -/
def left (i : Incoming) : ℕ := i.events.length + i.chunks.length

/-- What reading gives where no read is in the way. -/
def next (ending : TlsPskError) : List TcpFrameEvent → Except TlsPskError (Option (List UInt8))
  | [] => .error ending
  | event :: _ => result event

/-- How reading goes on. -/
inductive Reads (i : Incoming) : Except TlsPskError (Option (List UInt8)) × Incoming → Prop
  | ended (hevents : i.events = []) : Reads i (.error i.ending, i)
  | idle {i' : Incoming} (hevents : i'.events = i.events) (hending : i'.ending = i.ending)
      (hleft : i'.left < i.left) : Reads i (.ok none, i')
  | event {i' : Incoming} {event : TcpFrameEvent} (hevents : i.events = event :: i'.events)
      (hending : i'.ending = i.ending) (hleft : i'.left < i.left) : Reads i (result event, i')

theorem reads (i : Incoming) : Reads i i.readFrameUntil := by
  obtain ⟨pending, reader, chunks, ending⟩ := i
  cases pending with
  | cons event pending => exact .event rfl rfl (by simp [left, events])
  | nil =>
    cases chunks with
    | nil => exact .ended rfl
    | cons bytes chunks =>
      have hall : (reader.pushAll (bytes :: chunks)).1 =
          (reader.push bytes).1 ++ ((reader.push bytes).2.pushAll chunks).1 := rfl
      simp only [readFrameUntil]
      rcases hpush : reader.push bytes with ⟨- | ⟨event, pending⟩, reader'⟩ <;> rw [hpush] at hall
      · exact .idle (by simp [events, hall]) rfl (by simp [left, events, hall])
      · exact .event (by simp [events, hall]) rfl (by simp [left, events, hall]; omega)

theorem read_next (i : Incoming) :
    i.readFrameUntil.1 = next i.ending i.events ∨ i.readFrameUntil.1 = .ok none := by
  have hreads := i.reads
  generalize i.readFrameUntil = o at hreads
  cases hreads with
  | ended hevents => exact .inl (by rw [hevents]; rfl)
  | idle => exact .inr rfl
  | event hevents => exact .inl (by rw [hevents]; rfl)

/-- **The events up to the first that ends the session depend only on the bytes.** -/
theorem events_start {chunks chunks' : List (List UInt8)} (ending : TlsPskError)
    (h : chunks.flatten = chunks'.flatten) :
    throughFirst TcpFrameReader.isDrop (start chunks ending).events =
      throughFirst TcpFrameReader.isDrop (start chunks' ending).events := by
  have hthrough := Reader.throughFirst_feed
    (show TcpFrameReader.reader.look [] = .more from rfl)
  show throughFirst _ (TcpFrameReader.new.pushAll chunks).1 =
    throughFirst _ (TcpFrameReader.new.pushAll chunks').1
  rw [TcpFrameReader.pushAll_eq, TcpFrameReader.pushAll_eq]
  exact (hthrough chunks).trans (h ▸ (hthrough chunks').symm)

end Incoming

/-! ### The admission -/

/-- A turn in which the stream gives `read`, and `nested` next.  There is no sender thread yet that
could report its end, and a socket takes any time-out that is not zero; when the stream gives no
more, the peer's time is over. -/
def Turn.given (t : Turn) (c : Connection)
    (read nested : Except TlsPskError (Option (List UInt8))) : Turn :=
  { t with
    mediaFailed := false
    writeTimeout := none
    read
    admissionNow := match read with
      | .ok _ => t.admissionNow
      | .error _ => max t.admissionNow c.admissionDeadline
    handshake := { t.handshake with nested } }

/-- The loop is over, or the peer authenticated. -/
def Loop.decided : Loop → Bool
  | .running s => s.admission.state = .authenticated
  | .ended _ _ => true

section Run

variable (c : Connection) (env : ℕ → Turn)

/-- One iteration. -/
def iterate (s : Session) (t : Turn) : Loop := Loop.of ((iteration c t).exec (s.enter t))

/-- The turn of the next iteration, when so many frames have been read, and what is left of the
stream.  The frame that a handshake awaits is the next; no other is read after it, because a
handshake decides. -/
def nextTurn (served : ℕ) (i : Incoming) : Turn :=
  (env served).given c i.readFrameUntil.1 i.readFrameUntil.2.readFrameUntil.1

/-- The frames read so far, with the next one. -/
def count (served : ℕ) : Except TlsPskError (Option (List UInt8)) → ℕ
  | .ok none => served
  | _ => served + 1

/-- The loop until it is decided, for at most `fuel` iterations. -/
def admission : ℕ → ℕ → Session → Incoming → Loop
  | 0, _, s, _ => .running s
  | fuel + 1, served, s, i =>
    match iterate c s (nextTurn c env served i) with
    | .ended s result => .ended s result
    | .running s =>
      if s.admission.state = .authenticated then .running s
      else admission fuel (count served i.readFrameUntil.1) s i.readFrameUntil.2

/-- What the frames come to, with no read between them. -/
def admitted (ending : TlsPskError) : ℕ → Session → List TcpFrameEvent → Loop
  | served, s, [] => iterate c s ((env served).given c (.error ending) (.error ending))
  | served, s, event :: events =>
    match iterate c s
        ((env served).given c (Incoming.result event) (Incoming.next ending events)) with
    | .ended s result => .ended s result
    | .running s =>
      if s.admission.state = .authenticated then .running s
      else admitted ending (served + 1) s events

end Run

/-! ### One iteration -/

section Iteration

variable {c : Connection} {t : Turn} {s : Session}

/-- The check of the admission deadline. -/
def gate (c : Connection) (t : Turn) : Except Exit Unit :=
  if c.admissionDeadline ≤ t.admissionNow then .error (.fail (.io ⟨.timedOut, false⟩))
  else match t.writeTimeout with
    | some e => .error (.fail (.io e))
    | none => .ok ()

theorem exec_gate (hs : s.admission.state ≠ .authenticated) (hmedia : t.mediaFailed = false)
    (packet : Option (List UInt8)) : (prepare c t packet).exec s = (gate c t, s) := by
  have htopology : (checkTopology c t).exec s = (.ok (), s) := by
    simp [checkTopology, exec_bind, when, hs, hmedia]
  rw [exec_prepare hs, exec_bind, htopology]
  simp only [checkAdmission, exec_bind, exec_get, when, if_pos hs, gate]
  by_cases hnow : c.admissionDeadline ≤ t.admissionNow
  · simp [hnow]
  · simp only [hnow, if_false, exec_pure]
    cases t.writeTimeout <;> rfl

theorem exec_readPacket_left (hs : s.admission.state ≠ .authenticated)
    (hleave : t.aborted ∨ t.stop) : (readPacket t).exec s = (.error .leave, s) := by
  simp only [readPacket, exec_bind, exec_get, when]
  rcases hleave with h | h
  · simp [h]
  · by_cases haborted : t.aborted <;> simp [h, haborted, hs]

theorem exec_left (hs : s.admission.state ≠ .authenticated) (hleave : t.aborted ∨ t.stop) :
    (iteration c t).exec s = (.error .leave, s) := by
  rw [iteration, exec_bind, exec_readPacket_left hs hleave]

theorem exec_idle (hs : s.admission.state ≠ .authenticated) (hmedia : t.mediaFailed = false)
    (hread : t.read = .ok none) : (iteration c t).exec s =
      (if t.aborted ∨ t.stop then .error .leave else gate c t, s) := by
  rw [iteration, exec_bind]
  by_cases hleave : (t.aborted ∨ t.stop : Prop)
  · rw [exec_readPacket_left hs hleave, if_pos hleave]
  · rw [exec_readPacket hs hread, if_neg hleave, if_neg hleave]
    show Act.exec (prepare c t none >>= fun _ => pure ()) s = _
    rw [exec_bind, exec_gate hs hmedia]
    cases gate c t <;> rfl

theorem exec_frame (hs : s.admission.state ≠ .authenticated) (hmedia : t.mediaFailed = false)
    {packet : List UInt8} (hread : t.read = .ok (some packet)) : (iteration c t).exec s =
      if t.aborted ∨ t.stop then (.error .leave, s)
      else match gate c t with
        | .error e => (.error e, s.reading packet)
        | .ok () => (dispatch c t packet).exec (s.reading packet) := by
  rw [iteration, exec_bind]
  by_cases hleave : (t.aborted ∨ t.stop : Prop)
  · rw [exec_readPacket_left hs hleave, if_pos hleave]
  · rw [exec_readPacket hs hread, if_neg hleave, if_neg hleave]
    show Act.exec (prepare c t (some packet) >>= fun _ => dispatch c t packet)
      (s.reading packet) = _
    have hs' : (s.reading packet).admission.state ≠ .authenticated := hs
    rw [exec_bind, exec_gate hs' hmedia]
    cases gate c t <;> rfl

/-- How a session ends that cannot read, after the deadline. -/
def unread : TlsPskError → Exit
  | .other => .fail (.tls .other)
  | .io e =>
    if e.kind = .wouldBlock ∨ e.kind = .timedOut then .fail (.io ⟨.timedOut, false⟩)
    else if e.kind = .unexpectedEof ∨ e.kind = .connectionReset ∨ e.kind = .brokenPipe
        ∨ e.syscall then .leave
    else .fail (.tls (.io e))

theorem exec_error (hs : s.admission.state ≠ .authenticated) (hmedia : t.mediaFailed = false)
    {error : TlsPskError} (hread : t.read = .error error)
    (hlate : c.admissionDeadline ≤ t.admissionNow) : (iteration c t).exec s =
      (.error (if t.aborted ∨ t.stop then .leave else unread error), s) := by
  rw [iteration, exec_bind]
  by_cases hleave : (t.aborted ∨ t.stop : Prop)
  · rw [exec_readPacket_left hs hleave, if_pos hleave]
  · have hgate : gate c t = .error (.fail (.io ⟨.timedOut, false⟩)) := if_pos hlate
    rw [if_neg hleave]
    rw [not_or] at hleave
    simp only [readPacket, exec_bind, exec_get, when, if_neg hleave.1, if_neg hleave.2, exec_pure,
      hread]
    cases error with
    | other => rfl
    | io error =>
      simp only [unread]
      split_ifs
      · simp only [exec_pure, exec_gate hs hmedia, hgate]
      · rfl
      · rfl

end Iteration

/-! ### The trust request -/

/-- The handshake up to its answer: whether the pairing is new, and its record. -/
def greet (c : Connection) (t : Turn) (payload : List UInt8) : HostAct (Bool × PairingRecord) := do
  let s ← get
  when (s.admission.state = .authenticated) (throw (.fail .alreadyAuthenticated))
  let handshake ← ofExcept codecExit (Handshake.decode payload)
  let fresh := s.admission.provisional.isSome
  let record ← knownRecord t handshake
  ofExcept .fail (checkIdentity c s.admission.grantedPairingId handshake.pairingId)
  negotiate c t handshake
  acknowledge c t
  return (fresh, record)

/-- What follows it. -/
def conclude (c : Connection) (t : Turn) (greeted : Bool × PairingRecord) : HostAct Unit := do
  storePairing t greeted.1 greeted.2
  join c t greeted.2
  welcome c t

theorem handshake_eq (c : Connection) (t : Turn) (payload : List UInt8) :
    handshake c t payload = greet c t payload >>= fun greeted =>
      grantTrust t greeted.1 >>= fun _ => conclude c t greeted := by
  simp only [handshake, greet, conclude, bind_assoc, pure_bind]

/-- The frame is a handshake that makes the host await the trust request. -/
def awaitsRequest (c : Connection) (t : Turn) (s : Session) (packet : List UInt8) : Bool :=
  match splitPacket packet with
  | .error _ => false
  | .ok (header, payload) =>
    header.packetType = .handshake && s.admission.state.allows .handshake &&
      match (greet c t payload).exec { s with packets := s.packets ++ [.dispatched packet] } with
      | (.ok (fresh, _), s) => fresh && s.peerCaps.contains .pairingTrust
      | (.error _, _) => false

/-- The host awaits the trust request, and the read for it ends inside a frame. -/
def CutsRequest (c : Connection) (t : Turn) (s : Session) : Prop :=
  match t.read with
  | .ok (some packet) => ¬ (t.aborted ∨ t.stop) ∧ gate c t = .ok () ∧
      awaitsRequest c t (s.reading packet) packet = true ∧ t.handshake.nested = .ok none
  | _ => False

instance (c : Connection) (t : Turn) (s : Session) : Decidable (CutsRequest c t s) :=
  match h : t.read with
  | .ok (some packet) =>
    decidable_of_iff (¬ (t.aborted ∨ t.stop) ∧ gate c t = .ok () ∧
      awaitsRequest c t (s.reading packet) packet = true ∧ t.handshake.nested = .ok none)
      (by rw [CutsRequest, h])
  | .ok none => isFalse (by rw [CutsRequest, h]; exact id)
  | .error _ => isFalse (by rw [CutsRequest, h]; exact id)

theorem cutsRequest_iff {c : Connection} {t : Turn} {s : Session} {packet : List UInt8}
    (hread : t.read = .ok (some packet)) : CutsRequest c t s ↔
      ¬ (t.aborted ∨ t.stop) ∧ gate c t = .ok () ∧
        awaitsRequest c t (s.reading packet) packet = true ∧ t.handshake.nested = .ok none := by
  rw [CutsRequest, hread]

section Request

variable {c : Connection} {t : Turn} {s : Session} {packet : List UInt8}

/-- The same turn with another frame behind the handshake. -/
def Turn.withNested (t : Turn) (nested : Except TlsPskError (Option (List UInt8))) : Turn :=
  { t with handshake := { t.handshake with nested } }

theorem handshake_nested (nested : Except TlsPskError (Option (List UInt8))) {payload : List UInt8}
    (h : ∀ fresh record s', (greet c t payload).exec s = (.ok (fresh, record), s') →
      (fresh && s'.peerCaps.contains .pairingTrust) = false) :
    (handshake c (t.withNested nested) payload).exec s = (handshake c t payload).exec s := by
  have hgreet : greet c (t.withNested nested) payload = greet c t payload := rfl
  rw [handshake_eq, handshake_eq, exec_bind, exec_bind, hgreet]
  rcases hexec : (greet c t payload).exec s with ⟨e | ⟨fresh, record⟩, s'⟩
  · rfl
  · have hnone := h fresh record s' hexec
    have hgrant : (grantTrust (t.withNested nested) fresh).exec s' =
        (grantTrust t fresh).exec s' := by
      simp only [grantTrust, exec_bind, exec_get, when]
      by_cases htrust : s'.peerCaps.contains .pairingTrust
      · rw [htrust, Bool.and_true] at hnone
        rw [if_pos htrust, if_pos htrust, hnone]
        rfl
      · rw [if_neg htrust, if_neg htrust]
    dsimp only
    rw [exec_bind, exec_bind, hgrant]
    rfl

theorem dispatch_congr {t' : Turn} (h : ∀ header payload,
      splitPacket packet = .ok (header, payload) →
      s.admission.state.allows header.packetType = true →
      (handle c t' header payload).exec { s with packets := s.packets ++ [.dispatched packet] } =
        (handle c t header payload).exec { s with packets := s.packets ++ [.dispatched packet] }) :
    (dispatch c t' packet).exec s = (dispatch c t packet).exec s := by
  rw [dispatch, dispatch, exec_bind, exec_bind]
  rcases hsplit : splitPacket packet with e | ⟨header, payload⟩
  · rfl
  show Act.exec (if _ then _ else _ : HostAct Unit) s =
    Act.exec (if _ then _ else _ : HostAct Unit) s
  rw [exec_ite, exec_ite]
  split
  · rfl
  next hallowed => exact h header payload hsplit (by simpa using hallowed)

theorem dispatch_nested (nested : Except TlsPskError (Option (List UInt8)))
    (h : awaitsRequest c t s packet = false) :
    (dispatch c (t.withNested nested) packet).exec s = (dispatch c t packet).exec s := by
  refine dispatch_congr fun header payload hsplit hallowed => ?_
  simp only [awaitsRequest, hsplit] at h
  cases htype : header.packetType with
  | handshake =>
    rw [htype] at h hallowed
    simp only [handle, htype]
    refine handshake_nested nested fun fresh record s' hexec => ?_
    simpa [hexec, hallowed] using h
  | pairingRequest | inputEvent | control =>
    simp only [handle, htype]
    rfl
  | _ => simp only [handle, htype]

variable (hs : s.admission.state ≠ .authenticated) (hmedia : t.mediaFailed = false)

include hs hmedia

/-- **What the next read gives does not matter but to a request that is awaited.** -/
theorem iterate_nested (hread : t.read = .ok (some packet)) (hnone : t.handshake.nested = .ok none)
    (hcut : ¬ CutsRequest c t (s.enter t)) (nested : Except TlsPskError (Option (List UInt8))) :
    iterate c s (t.withNested nested) = iterate c s t := by
  have hs' : (s.enter t).admission.state ≠ .authenticated := hs
  have henter : s.enter (t.withNested nested) = s.enter t := rfl
  have hgate' : gate c (t.withNested nested) = gate c t := rfl
  rw [iterate, iterate, henter]
  refine congrArg Loop.of ?_
  rw [exec_frame hs' hmedia hread, exec_frame (t := t.withNested nested) hs' hmedia hread, hgate']
  by_cases hleave : (t.aborted ∨ t.stop : Prop)
  · have hleave' : ((t.withNested nested).aborted ∨ (t.withNested nested).stop : Prop) := hleave
    rw [if_pos hleave, if_pos hleave']
  · have hleave' : ¬ ((t.withNested nested).aborted ∨ (t.withNested nested).stop : Prop) := hleave
    rw [if_neg hleave, if_neg hleave']
    cases hgate : gate c t with
    | error e => rfl
    | ok u =>
      refine dispatch_nested nested (Bool.eq_false_iff.mpr fun hawaits => hcut ?_)
      exact (cutsRequest_iff hread).mpr ⟨hleave, hgate, hawaits, hnone⟩

end Request

/-! ### Runs -/

section Admission

variable {c : Connection} {env : ℕ → Turn} {s : Session} {i : Incoming} {served fuel : ℕ}

/-- **No trust request is cut**: wherever the host awaits one, the next read completes a frame. -/
def RequestWhole (c : Connection) (env : ℕ → Turn) : ℕ → ℕ → Session → Incoming → Prop
  | 0, _, _, _ => True
  | fuel + 1, served, s, i =>
    ¬ CutsRequest c (nextTurn c env served i) (s.enter (nextTurn c env served i)) ∧
      match iterate c s (nextTurn c env served i) with
      | .ended _ _ => True
      | .running s => s.admission.state = .authenticated ∨
          RequestWhole c env fuel (count served i.readFrameUntil.1) s i.readFrameUntil.2

instance decidableRequestWhole (c : Connection) (env : ℕ → Turn) : (fuel served : ℕ) →
    (s : Session) → (i : Incoming) → Decidable (RequestWhole c env fuel served s i)
  | 0, _, _, _ => isTrue trivial
  | fuel + 1, served, s, i =>
    have : Decidable (match iterate c s (nextTurn c env served i) with
        | .ended _ _ => True
        | .running s => s.admission.state = .authenticated ∨
            RequestWhole c env fuel (count served i.readFrameUntil.1) s i.readFrameUntil.2) :=
      match iterate c s (nextTurn c env served i) with
      | .ended _ _ => isTrue trivial
      | .running s =>
        have := decidableRequestWhole c env fuel (count served i.readFrameUntil.1) s
          i.readFrameUntil.2
        inferInstanceAs (Decidable (_ ∨ _))
    inferInstanceAs (Decidable (_ ∧ _))

variable {t : Turn} {ending : TlsPskError}

theorem enter_enter {t' : Turn} (hdisk : t'.disk = t.disk)
    (htaken : t'.pipelineTaken = t.pipelineTaken) : (s.enter t).enter t' = s.enter t' := by
  simp [Session.enter, hdisk, htaken]

theorem admitted_enter (events : List TcpFrameEvent) :
    admitted c env ending served (s.enter (env served)) events =
      admitted c env ending served s events := by
  have henter (read nested : Except TlsPskError (Option (List UInt8))) :
      iterate c (s.enter (env served)) ((env served).given c read nested) =
        iterate c s ((env served).given c read nested) := by
    have hsame : (s.enter (env served)).enter ((env served).given c read nested) =
        s.enter ((env served).given c read nested) := enter_enter rfl rfl
    rw [iterate, iterate, hsame]
  cases events with
  | nil => rw [admitted, admitted, henter]
  | cons event events => rw [admitted, admitted, henter]

theorem iterate_left (hs : s.admission.state ≠ .authenticated)
    (hleave : t.aborted ∨ t.stop) (read nested : Except TlsPskError (Option (List UInt8))) :
    iterate c s (t.given c read nested) = .ended (s.enter t) (.ok ()) := by
  have hs' : (s.enter t).admission.state ≠ .authenticated := hs
  exact congrArg Loop.of (exec_left (t := t.given c read nested) hs' hleave)

theorem iterate_idle (hs : s.admission.state ≠ .authenticated)
    (hstay : ¬ (t.aborted ∨ t.stop)) (hearly : t.admissionNow < c.admissionDeadline)
    (nested : Except TlsPskError (Option (List UInt8))) :
    iterate c s (t.given c (.ok none) nested) = .running (s.enter t) := by
  have hs' : (s.enter t).admission.state ≠ .authenticated := hs
  have hgate : gate c (t.given c (.ok none) nested) = .ok () := if_neg (Nat.not_le.mpr hearly)
  have hidle := exec_idle (c := c) (t := t.given c (.ok none) nested) hs' rfl rfl
  have hstay' : ¬ ((t.given c (.ok none) nested).aborted ∨
      (t.given c (.ok none) nested).stop : Prop) := hstay
  rw [if_neg hstay', hgate] at hidle
  exact congrArg Loop.of hidle

theorem iterate_error (hs : s.admission.state ≠ .authenticated) (t : Turn) (error : TlsPskError)
    (nested : Except TlsPskError (Option (List UInt8))) :
    iterate c s (t.given c (.error error) nested) =
      Loop.of (.error (if t.aborted ∨ t.stop then .leave else unread error), s.enter t) := by
  have hs' : (s.enter t).admission.state ≠ .authenticated := hs
  exact congrArg Loop.of (exec_error (t := t.given c (.error error) nested) hs' rfl rfl
    (le_max_right _ _))

theorem unread_ends (error : TlsPskError) : (unread error).Ends := by
  cases error with
  | other => trivial
  | io e =>
    rw [unread]
    split_ifs <;> trivial

theorem loop_of_ends {e : Exit} (h : e.Ends) (s : Session) :
    ∃ result, Loop.of (.error e, s) = .ended s result := by
  cases e with
  | next => cases h
  | leave => exact ⟨.ok (), rfl⟩
  | fail error => exact ⟨.error error, rfl⟩

theorem iterate_error_ended (hs : s.admission.state ≠ .authenticated) (t : Turn)
    (error : TlsPskError) : ∃ result, ∀ nested,
      iterate c s (t.given c (.error error) nested) = .ended (s.enter t) result := by
  obtain ⟨result, hended⟩ : ∃ result,
      Loop.of (.error (if t.aborted ∨ t.stop then .leave else unread error), s.enter t) =
        .ended (s.enter t) result := by
    refine loop_of_ends ?_ _
    split
    · trivial
    · exact unread_ends error
  exact ⟨result, fun nested => (iterate_error hs t error nested).trans hended⟩

/-- A frame is served with the next one behind it, whatever reads are in the way. -/
theorem iterate_frame (hs : s.admission.state ≠ .authenticated) {payload : List UInt8}
    {nested after : Except TlsPskError (Option (List UInt8))}
    (hnested : nested = after ∨ nested = .ok none)
    (hcut : ¬ CutsRequest c ((env served).given c (.ok (some payload)) nested)
      (s.enter ((env served).given c (.ok (some payload)) nested))) :
    iterate c s ((env served).given c (.ok (some payload)) nested) =
      iterate c s ((env served).given c (.ok (some payload)) after) := by
  rcases hnested with rfl | rfl
  · rfl
  · exact (iterate_nested hs rfl rfl rfl hcut after).symm

theorem admitted_left (hs : s.admission.state ≠ .authenticated)
    (hleave : (env served).aborted ∨ (env served).stop) (events : List TcpFrameEvent) :
    admitted c env ending served s events = .ended (s.enter (env served)) (.ok ()) := by
  cases events with
  | nil => exact iterate_left hs hleave _ _
  | cons event events => rw [admitted, iterate_left hs hleave]

/-- **The run is that of the frames**, unless a trust request is cut. -/
theorem admission_eq (hs : s.admission.state ≠ .authenticated)
    (hearly : ∀ k, (env k).admissionNow < c.admissionDeadline) (hfuel : i.left < fuel)
    (hwhole : RequestWhole c env fuel served s i) :
    admission c env fuel served s i = admitted c env i.ending served s i.events := by
  induction fuel generalizing served s i with
  | zero => exact absurd hfuel (Nat.not_lt_zero _)
  | succ fuel ih =>
    obtain ⟨hcut, hrest⟩ := hwhole
    have hreads := i.reads
    have hnext := i.readFrameUntil.2.read_next
    rw [admission]
    rw [nextTurn] at hcut hrest ⊢
    generalize i.readFrameUntil.2.readFrameUntil.1 = nested at hcut hrest hnext ⊢
    generalize i.readFrameUntil = o at hcut hrest hreads hnext ⊢
    cases hreads with
    | ended hevents =>
      obtain ⟨result, hended⟩ := iterate_error_ended (c := c) hs (env served) i.ending
      rw [hevents, admitted, hended, hended]
    | @idle i' hevents hending hleft =>
      by_cases hleave : ((env served).aborted ∨ (env served).stop : Prop)
      · rw [iterate_left hs hleave, admitted_left hs hleave]
      · rw [iterate_idle hs hleave (hearly served)] at hrest ⊢
        have hs' : (s.enter (env served)).admission.state ≠ .authenticated := hs
        dsimp only at hrest ⊢
        rw [if_neg hs']
        have hrun := ih hs' (by omega) (hrest.resolve_left hs')
        rw [hevents, hending] at hrun
        exact hrun.trans (admitted_enter i.events)
    | @event i' event hevents hending hleft =>
      rw [hevents, admitted]
      cases event with
      | droppedInvalidLength length =>
        obtain ⟨result, hended⟩ := iterate_error_ended (c := c) hs (env served) .other
        simp only [Incoming.result, hended]
      | frame payload =>
        rw [hending] at hnext
        have hframe := iterate_frame hs hnext hcut
        simp only [Incoming.result] at hrest ⊢
        rw [hframe] at hrest ⊢
        generalize iterate c s _ = l at hrest ⊢
        cases l with
        | ended s' result => rfl
        | running s' =>
          dsimp only at hrest ⊢
          split
          · rfl
          next hs' =>
            have hrun := ih hs' (by omega) (hrest.resolve_left hs')
            rwa [hending] at hrun

theorem admitted_throughFirst (hs : s.admission.state ≠ .authenticated)
    (events : List TcpFrameEvent) :
    admitted c env ending served s (throughFirst TcpFrameReader.isDrop events) =
      admitted c env ending served s events := by
  induction events generalizing served s with
  | nil => rfl
  | cons event events ih =>
    cases event with
    | droppedInvalidLength length =>
      obtain ⟨result, hended⟩ := iterate_error_ended (c := c) hs (env served) .other
      simp only [throughFirst, TcpFrameReader.isDrop, if_true, admitted, Incoming.result, hended]
    | frame payload =>
      have hnext : Incoming.next ending (throughFirst TcpFrameReader.isDrop events) =
          Incoming.next ending events := by
        cases events with
        | nil => rfl
        | cons event events =>
          rw [throughFirst]
          split <;> rfl
      simp only [throughFirst, TcpFrameReader.isDrop, Bool.false_eq_true, if_false, admitted, hnext]
      cases iterate c s _ with
      | ended s' result => rfl
      | running s' =>
        dsimp only
        split
        · rfl
        next hs' => exact ih hs'

/-- **The loop is over or the peer authenticated** once the stream has been read to its end. -/
theorem admission_decided (hs : s.admission.state ≠ .authenticated) (hfuel : i.left < fuel) :
    (admission c env fuel served s i).decided := by
  induction fuel generalizing served s i with
  | zero => exact absurd hfuel (Nat.not_lt_zero _)
  | succ fuel ih =>
    have hreads := i.reads
    rw [admission]
    rw [nextTurn]
    generalize i.readFrameUntil.2.readFrameUntil.1 = nested
    generalize i.readFrameUntil = o at hreads ⊢
    have hgoes {i' : Incoming} {served' : ℕ} {l : Loop} (hleft : i'.left < i.left) :
        (match l with
          | .ended s result => .ended s result
          | .running s =>
            if s.admission.state = .authenticated then .running s
            else admission c env fuel served' s i' : Loop).decided := by
      cases l with
      | ended s' result => rfl
      | running s' =>
        dsimp only
        split
        next hs' => exact decide_eq_true hs'
        next hs' => exact ih hs' (by omega)
    cases hreads with
    | ended hevents =>
      obtain ⟨result, hended⟩ := iterate_error_ended (c := c) hs (env served) i.ending
      rw [hended]
      rfl
    | idle hevents hending hleft => exact hgoes hleft
    | event hevents hending hleft => exact hgoes hleft

end Admission

/-! ### Segmentation -/

/-- What the admission of a peer comes to. -/
inductive PairingOutcome
  | granted (trust : PairingTrust)
  | rejected
  | timedOut
  | closed
  | failed (error : SessionError)
  | undecided
  deriving DecidableEq

def isTimeout : SessionError → Bool
  | .consentTimeout => true
  | .io e | .tls (.io e) => e.kind = .timedOut
  | _ => false

def Sent.isReject : Sent → Bool
  | pairingReject _ => true
  | _ => false

def Loop.outcome : Loop → PairingOutcome
  | .running s =>
    if s.admission.state = .authenticated then .granted s.sessionTrust else .undecided
  | .ended s result =>
    if s.admission.state = .authenticated then .granted s.sessionTrust
    else if s.sent.any (·.2.isReject) then .rejected
    else match result with
      | .ok () => .closed
      | .error e => if isTimeout e then .timedOut else .failed e

section Segmentation

variable (c : Connection) (env : ℕ → Turn) (s : Session) (ending : TlsPskError)

/-- The admission of a peer whose bytes arrive so. -/
def admissionOf (chunks : List (List UInt8)) : Loop :=
  admission c env ((Incoming.start chunks ending).left + 1) 0 s (Incoming.start chunks ending)

/-- Each trust request comes whole, with the handshake or with the read after it. -/
def Whole (chunks : List (List UInt8)) : Prop :=
  RequestWhole c env ((Incoming.start chunks ending).left + 1) 0 s (Incoming.start chunks ending)

variable {c env s ending}

theorem admissionOf_eq (hs : s.admission.state ≠ .authenticated)
    (hearly : ∀ k, (env k).admissionNow < c.admissionDeadline) {chunks : List (List UInt8)}
    (hwhole : Whole c env s ending chunks) : admissionOf c env s ending chunks =
      admitted c env ending 0 s
        (throughFirst TcpFrameReader.isDrop (Incoming.start chunks ending).events) := by
  rw [admitted_throughFirst hs]
  exact admission_eq hs hearly (Nat.lt_succ_self _) hwhole

theorem outcome_of_decided {l : Loop} (h : l.decided) : l.outcome ≠ .undecided := by
  cases l with
  | running s =>
    have hs : s.admission.state = .authenticated := of_decide_eq_true h
    rw [Loop.outcome, if_pos hs]
    nofun
  | ended s result =>
    simp only [Loop.outcome]
    split
    · nofun
    split
    · nofun
    cases result with
    | ok u => nofun
    | error e =>
      dsimp only
      split <;> nofun

end Segmentation

/-- **Admission does not depend on segmentation**, if no trust request is cut: for bytes that arrive
before the deadline, however they are split, the session comes to the same, and to an end or to a
peer that is authenticated. -/
theorem admission_segmentation (c : Connection) (policy : HostPolicy) (displays : List HostDisplay)
    (now : ℕ) (disk : Disk) (env : ℕ → Turn) (ending : TlsPskError)
    (hearly : ∀ k, (env k).admissionNow < c.admissionDeadline) (chunks chunks' : List (List UInt8))
    (hsame : chunks.flatten = chunks'.flatten)
    (hwhole : Whole c env (Session.start c policy displays now disk) ending chunks)
    (hwhole' : Whole c env (Session.start c policy displays now disk) ending chunks') :
    admissionOf c env (Session.start c policy displays now disk) ending chunks =
        admissionOf c env (Session.start c policy displays now disk) ending chunks' ∧
      (admissionOf c env (Session.start c policy displays now disk) ending chunks).outcome
        ≠ .undecided := by
  have hs : (Session.start c policy displays now disk).admission.state ≠ .authenticated := nofun
  refine ⟨?_, outcome_of_decided (admission_decided hs (Nat.lt_succ_self _))⟩
  rw [admissionOf_eq hs hearly hwhole, admissionOf_eq hs hearly hwhole',
    Incoming.events_start ending hsame]

/-! ### A bootstrap peer -/

def tcpFrame (packet : List UInt8) : List UInt8 := Bytes.toLE 4 packet.length ++ packet

def pairingFrame : List UInt8 := tcpFrame (frame .pairingRequest [1, 0, 65])

/-- The peer knows pairing trust. -/
def handshakeFrame : List UInt8 :=
  tcpFrame (frame .handshake ([1, 0, 65, 0, 4, 0, 4, 0, 0, 0x80, 0x3f, 3, 0x80, 0x20, 0, 0, 0, 0, 0,
    0, 2, 0, 80, 49] ++ List.replicate 16 0))

def trustFrame : List UInt8 := tcpFrame trustRequest

/-- The admission of a peer whose bytes arrive so and that the user takes for an owner. -/
def admitPeer (chunks : List (List UInt8)) : Loop :=
  admissionOf pairingConnection (fun _ => pairingTurn)
    (Session.start pairingConnection ⟨true, true⟩ [] 0 ⟨[], ∅⟩) (.io ⟨.timedOut, false⟩) chunks

/-- All frames in one read, and the first two cut. -/
theorem admission_segmentation_whole :
    admitPeer [pairingFrame ++ handshakeFrame ++ trustFrame] =
        admitPeer [pairingFrame.take 3, pairingFrame.drop 3 ++ handshakeFrame.take 10,
          handshakeFrame.drop 10, trustFrame] ∧
      (admitPeer [pairingFrame ++ handshakeFrame ++ trustFrame]).outcome ≠ .undecided :=
  admission_segmentation pairingConnection ⟨true, true⟩ [] 0 ⟨[], ∅⟩ (fun _ => pairingTurn)
    (.io ⟨.timedOut, false⟩) (fun _ => by decide) [pairingFrame ++ handshakeFrame ++ trustFrame]
    [pairingFrame.take 3, pairingFrame.drop 3 ++ handshakeFrame.take 10, handshakeFrame.drop 10,
      trustFrame]
    (by decide +kernel) (by rw [Whole]; decide +kernel) (by rw [Whole]; decide +kernel)

/-- A read that ends inside the trust request. -/
theorem admission_cut_request :
    [pairingFrame, handshakeFrame, trustFrame].flatten =
        [pairingFrame, handshakeFrame, trustFrame.take 5, trustFrame.drop 5].flatten ∧
      (admitPeer [pairingFrame, handshakeFrame, trustFrame]).outcome = .granted .owner ∧
      (admitPeer [pairingFrame, handshakeFrame, trustFrame.take 5, trustFrame.drop 5]).outcome =
        .timedOut := by
  decide +kernel

end MahoRD.Host

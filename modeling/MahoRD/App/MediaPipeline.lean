/-
MahoRD/App/MediaPipeline.lean

The media pipeline of the desktop client (`run_media_pipeline` of the Tauri
shell) while the session under it is replaced.  Three threads move:

* the media thread asks for one datagram after the other (`receive_udp_event`)
  and pushes what they complete to a frame queue;
* the decoder takes frames from the queue;
* the threads of the session end its TCP generation, connect again and install
  a new socket and a new cipher, all on the same `ClientSession`.

A step is one lock section or one access to a shared flag.  The sections of the
session may come in any order; only a cipher is not replaced between the
opening of a datagram and the end of its handling.

The queue lives as long as the pipeline; a session does not.  `NotReady` ends
the pipeline, any other error does not.
-/
import MahoRD.App.ClientState
import MahoRD.App.QueueHistory

namespace MahoRD.MediaPipeline

/-- What the host sends over UDP. -/
inductive Payload
  | video (packet : MediaPacket)
  | audio (fragment : AudioFragment)
  /-- cursor updates, pings, what does not decode -/
  | other
  deriving DecidableEq

/-- A datagram, with the handshake whose cipher has sealed it. -/
structure Datagram where
  handshake : Option ℕ
  payload : Payload
  deriving DecidableEq

/-- How `UdpTransport::receive` ends. -/
inductive Received
  | failed (kind : Client.ErrorKind) | cancelled | datagram (datagram : Datagram)

/-- Where the media thread is. -/
inductive Media
  /-- before the test of the stop flag -/
  | top
  /-- before the lock of `udp` -/
  | calling
  /-- in `UdpTransport::receive`, with a clone of the transport -/
  | receiving (transport : ℕ)
  /-- before the lock of `udp_receive` -/
  | opening (datagram : Datagram)
  /-- before the lock of the state, with `udp_receive` held -/
  | handling (payload : Payload)
  /-- before the push; the frame may be the first key frame of its session -/
  | pushing (frame : AssembledFrame) (first : Bool)
  | ended
  deriving DecidableEq

/-- The first key frame of a session, when it is about to be pushed. -/
def Media.firstKey : Media → Option AssembledFrame
  | .pushing frame true => some frame
  | _ => none

inductive DecodeWorker
  | idle | decoding | ended
  deriving DecidableEq

/-- The shared state.  Transports and ciphers go by the number of their
handshake.  `keyed` says that the session has brought a key frame, `refused`
that the queue has not admitted the first key frame of some session. -/
structure State where
  client : ClientState
  handshakes : ℕ
  udp : Option ℕ
  cancelled : List ℕ
  udpReceive : Option ℕ
  queue : FrameQueue
  stop : Bool
  media : Media
  decoder : DecodeWorker
  keyed : Bool
  refused : Bool

/-- The pipeline is started on a session that has come to Ready. -/
def start (client : ClientState) : State where
  client
  handshakes := 0
  udp := some 0
  cancelled := []
  udpReceive := some 0
  queue := .new
  stop := false
  media := .top
  decoder := .idle
  keyed := false
  refused := false

/-- The frame is in the queue, and was not before it was pushed. -/
def Admitted (q : FrameQueue) (frame : QueuedFrame) : Prop :=
  frame ∈ (q.push frame).2.frames ∧ (q.push frame).2 ≠ q

instance (q : FrameQueue) (frame : QueuedFrame) : Decidable (Admitted q frame) :=
  inferInstanceAs (Decidable (_ ∧ _))

/-! ### The media thread -/

/-- `handle_packet` on what the host sends over UDP. -/
def handle (s : ClientState) (now : ℕ) :
    Payload → Except Client.SessionError MediaEvent × ClientState
  | .video packet => s.handleVideo now packet
  | .audio fragment => s.handleAudio fragment
  | .other => if s.state ≠ .ready then (.error .notReady, s) else (.ok .ignored, s)

namespace State

/-- The loop ends and closes the queue. -/
def leave (x : State) : State := { x with media := .ended, queue := x.queue.stop }

/-- The loop goes by what `receive` has returned; after an error other than a
timeout it pauses. -/
def answer (x : State) : Except Client.SessionError MediaEvent → State
  | .ok (.frame frame) =>
    { x with
      media := .pushing frame (frame.header.isKeyFrame && !x.keyed)
      keyed := x.keyed || frame.header.isKeyFrame }
  | .error .notReady => x.leave
  | .ok _ | .error _ => { x with media := .top }

end State

inductive MediaStep
  | check
  | lookUp
  | receive (received : Received)
  /-- `fresh` is the verdict of the replay window -/
  | openDatagram (fresh : Bool)
  | handlePacket (now : ℕ)
  | push (now : ℕ)

def mediaStep (x : State) : MediaStep → Option State
  | .check =>
    if x.media = .top then some (if x.stop then x.leave else { x with media := .calling })
    else none
  | .lookUp =>
    if x.media = .calling then
      match x.udp with
      | none => some (x.answer (.error .notReady))
      | some transport => some { x with media := .receiving transport }
    else none
  | .receive received =>
    match x.media, received with
    | .receiving _, .failed kind => some (x.answer (.error (.io kind)))
    | .receiving transport, .cancelled =>
      if transport ∈ x.cancelled then some (x.answer (.error .notReady)) else none
    | .receiving _, .datagram datagram => some { x with media := .opening datagram }
    | _, _ => none
  | .openDatagram fresh =>
    match x.media with
    | .opening datagram =>
      match x.udpReceive with
      | none => some (x.answer (.error .notReady))
      | some handshake =>
        -- a datagram of another handshake is not authentic
        if datagram.handshake ≠ some handshake then
          some (x.answer (.error (.datagram .authentication)))
        else if fresh then some { x with media := .handling datagram.payload }
        else some (x.answer (.error (.datagram .replay)))
    | _ => none
  | .handlePacket now =>
    match x.media with
    | .handling payload =>
      match handle x.client now payload with
      | (event, client) => some ({ x with client }.answer event)
    | _ => none
  | .push now =>
    match x.media with
    | .pushing frame first =>
      let refused := x.refused || first && !decide (Admitted x.queue (frame, now))
      match x.queue.push (frame, now) with
      | (.ok _, queue) => some { x with queue, media := .top, refused }
      | (.error _, queue) => some { x with queue, refused }.leave
    | _ => none

/-! ### The other threads -/

inductive DecodeStep
  | take
  | decode (ok : Bool)

def decodeStep (x : State) : DecodeStep → Option State
  | .take =>
    if x.decoder = .idle then
      match x.queue.recv with
      | none => none
      | some (.ok _, queue) =>
        some { x with queue, decoder := if x.stop then .ended else .decoding }
      | some (.error _, queue) => some { x with queue, decoder := .ended }
    else none
  | .decode ok =>
    if x.decoder = .decoding then
      some { x with
        decoder := .idle, queue := if ok then x.queue else x.queue.decodeFailed.2 }
    else none

/-- The sections of the session's other threads. -/
inductive SessionStep
  | dropped
  | connecting
  | entered (next : SessionState)
  | handshaking (trust : PairingTrust)
  | granted (trust : PairingTrust)
  | installUdp
  | installCipher
  | ready (guest : Bool)
  | setPermissions (permissions : GuestPermissions)
  | sessionEnded (reason : SessionEndReason)
  | interrupt
  | disconnect
  | takeUdp
  | clearCipher

namespace State

/-- The media thread holds `udp_receive` from the opening of a datagram to the
end of its handling. -/
def pinned (x : State) : Bool := x.media matches .handling _

/-- `cancel` of the installed transport is set. -/
def cancelUdp (x : State) : State := { x with cancelled := x.udp.toList ++ x.cancelled }

end State

def sessionStep (x : State) : SessionStep → Option State
  | .dropped => some { x with client := x.client.dropped }
  | .connecting => some { x with client := x.client.connecting }
  | .entered next => some { x with client := x.client.entered next }
  | .handshaking trust =>
    some { x with client := x.client.handshaking trust, handshakes := x.handshakes + 1 }
  | .granted trust => some { x with client := x.client.granted trust }
  | .installUdp => some { x with udp := some x.handshakes }
  | .installCipher => if x.pinned then none else some { x with udpReceive := some x.handshakes }
  -- the host's frames are numbered from one again
  | .ready guest => some { x with client := x.client.ready guest, keyed := false }
  | .setPermissions permissions =>
    some { x with client := x.client.setPermissions permissions }
  | .sessionEnded reason => some { x with client := x.client.sessionEnded reason }
  | .interrupt => some x.cancelUdp
  | .disconnect => some { x with client := x.client.disconnect }
  | .takeUdp => some { x.cancelUdp with udp := none }
  | .clearCipher => if x.pinned then none else some { x with udpReceive := none }

inductive Action
  | media (a : MediaStep) | decode (a : DecodeStep) | session (a : SessionStep)
  /-- the stop flag of the pipeline is set -/
  | stop

def step (x : State) : Action → Option State
  | .media a => mediaStep x a
  | .decode a => decodeStep x a
  | .session a => sessionStep x a
  | .stop => some { x with stop := true }

/-! ### Admission -/

theorem push_key {q : FrameQueue} {frame : QueuedFrame} (hstopped : q.stopped = false)
    (hlate : q.lastFrameId.any (FrameQueue.late · frame.1.header.frameId) = false)
    (hkey : frame.1.header.isKeyFrame = true) :
    ∃ kept, q.push frame = (.ok false,
      { q with
        frames := kept ++ [frame], lastFrameId := some frame.1.header.frameId
        recovering := false }) := by
  simp only [FrameQueue.push, hstopped, hlate, hkey, Bool.false_eq_true, if_false, Bool.not_true,
    Bool.and_false]
  exact ⟨_, rfl⟩

theorem admitted_iff {q : FrameQueue} (hstopped : q.stopped = false) {frame : QueuedFrame}
    (hkey : frame.1.header.isKeyFrame = true) :
    Admitted q frame ↔
      ∀ last ∈ q.lastFrameId, FrameQueue.Ahead last frame.1.header.frameId := by
  have hahead : (∀ last ∈ q.lastFrameId, FrameQueue.Ahead last frame.1.header.frameId) ↔
      q.lastFrameId.any (FrameQueue.late · frame.1.header.frameId) = false := by
    rcases q.lastFrameId with - | last
    · simp
    · simp [FrameQueue.late_iff]
  rw [hahead]
  rcases hlate : q.lastFrameId.any (FrameQueue.late · frame.1.header.frameId) with - | -
  · obtain ⟨kept, hpush⟩ := push_key hstopped hlate hkey
    refine iff_of_true ⟨?_, fun heq => ?_⟩ rfl
    · rw [hpush]
      exact List.mem_append_right _ (List.mem_singleton_self _)
    · -- the last id was another one: no id is ahead of itself
      have hlast : q.lastFrameId = some frame.1.header.frameId := by
        rw [← heq, hpush]
      rw [hlast] at hlate
      simp [FrameQueue.late] at hlate
  · have hpush : q.push frame = (.ok false, q) := by
      simp only [FrameQueue.push, hstopped, hlate, Bool.false_eq_true, if_false, if_true]
    refine iff_of_false (fun hadmitted => hadmitted.2 ?_) (by simp)
    rw [hpush]

/-! ### The condition -/

/-- A packet is handled while the session is Ready; the first key frame of a
session is ahead of the last frame that the queue has seen; and as long as the
pipeline is to run, nobody interrupts or tears down the session. -/
def Undisturbed (x : State) : Action → Prop
  | .media (.handlePacket _) => x.client.state = .ready ∨ x.stop = true
  | .media (.push _) =>
    ∀ frame ∈ x.media.firstKey, ∀ last ∈ x.queue.lastFrameId,
      FrameQueue.Ahead last frame.header.frameId
  | .session .interrupt | .session .takeUdp | .session .clearCipher => x.stop = true
  | _ => True

instance (x : State) (a : Action) : Decidable (Undisturbed x a) :=
  match a with
  | .media (.handlePacket _) =>
    inferInstanceAs (Decidable (x.client.state = .ready ∨ x.stop = true))
  | .media (.push _) =>
    @Option.decidableForallMem _ _ (fun _ => Option.decidableForallMem x.queue.lastFrameId)
      x.media.firstKey
  | .session .interrupt | .session .takeUdp | .session .clearCipher =>
    inferInstanceAs (Decidable (x.stop = true))
  | .media .check | .media .lookUp | .media (.receive _) | .media (.openDatagram _) | .decode _
  | .stop | .session .dropped | .session .connecting | .session (.entered _)
  | .session (.handshaking _) | .session (.granted _) | .session .installUdp
  | .session .installCipher | .session (.ready _) | .session (.setPermissions _)
  | .session (.sessionEnded _) | .session .disconnect => isTrue trivial

/-- The pipeline runs unless it was stopped, and the first key frame of every
session was admitted to its queue. -/
structure Survives (x : State) : Prop where
  running : x.media = .ended → x.stop = true
  admitted : x.refused = false

structure Inv (x : State) : Prop where
  installed : x.stop = true ∨ x.udp.isSome ∧ x.cancelled = [] ∧ x.udpReceive.isSome
  running : x.media = .ended → x.stop = true
  queue : x.queue.stopped = true → x.media = .ended
  first : ∀ frame ∈ x.media.firstKey, frame.header.isKeyFrame = true
  admitted : x.refused = false

theorem inv_start (client : ClientState) : Inv (start client) where
  installed := Or.inr ⟨rfl, rfl, rfl⟩
  running h := by cases h
  queue h := by cases h
  first _ h := by cases h
  admitted := rfl

/-! ### The media thread keeps the invariant -/

variable {x x' : State}

theorem Inv.goto (h : Inv x) {media : Media} (hmedia : x.media ≠ .ended)
    (hrunning : media ≠ .ended)
    (hfirst : ∀ frame ∈ media.firstKey, frame.header.isKeyFrame = true) :
    Inv { x with media } :=
  ⟨h.installed, fun he => absurd he hrunning, fun hs => absurd (h.queue hs) hmedia, hfirst,
    h.admitted⟩

theorem Inv.leave (h : Inv x) (hstop : x.stop = true) : Inv x.leave :=
  ⟨h.installed, fun _ => hstop, fun _ => rfl, (fun _ hf => nomatch hf), h.admitted⟩

theorem Inv.answer (h : Inv x) (hmedia : x.media ≠ .ended)
    {event : Except Client.SessionError MediaEvent}
    (hevent : event = .error .notReady → x.stop = true) :
    Inv (x.answer event) := by
  unfold State.answer
  split
  next frame =>
    refine ⟨h.installed, (fun he => nomatch he), fun hs => absurd (h.queue hs) hmedia, ?_,
      h.admitted⟩
    intro first hfirst
    rcases hkey : frame.header.isKeyFrame && !x.keyed with - | -
    · simp [Media.firstKey, hkey] at hfirst
    · obtain rfl : frame = first := by simpa [Media.firstKey, hkey] using hfirst
      exact (Bool.and_eq_true_iff.mp hkey).1
  · exact h.leave (hevent rfl)
  · exact h.goto hmedia (fun he => nomatch he) (fun _ hf => nomatch hf)
  · exact h.goto hmedia (fun he => nomatch he) (fun _ hf => nomatch hf)

theorem handle_ready {s : ClientState} (h : s.state = .ready) (now : ℕ) (payload : Payload) :
    (handle s now payload).1 ≠ .error .notReady := by
  cases payload with
  | video packet =>
    rw [handle, ClientState.handleVideo, if_neg (not_not.mpr h)]
    split <;> simp
  | audio fragment =>
    rw [handle, ClientState.handleAudio, if_neg (not_not.mpr h)]
    split
    · simp
    · split <;> simp
  | other =>
    rw [handle, if_neg (not_not.mpr h)]
    simp

theorem inv_push (h : Inv x) {frame : AssembledFrame} {first : Bool}
    (hmedia : x.media = .pushing frame first) (now : ℕ)
    (hc : Undisturbed x (.media (.push now)))
    (hs : mediaStep x (.push now) = some x') : Inv x' := by
  have hopen : x.queue.stopped = false := by
    rcases hstopped : x.queue.stopped with - | -
    · rfl
    · rw [h.queue hstopped] at hmedia
      cases hmedia
  have hrefused : (x.refused || first && !decide (Admitted x.queue (frame, now))) = false := by
    rw [h.admitted, Bool.false_or]
    rcases first with - | -
    · rfl
    · have hfirst : frame ∈ x.media.firstKey := by rw [hmedia]; rfl
      have hadmitted : Admitted x.queue (frame, now) :=
        (admitted_iff hopen (h.first frame hfirst)).mpr (hc frame hfirst)
      simpa using hadmitted
  simp only [mediaStep, hmedia, hrefused] at hs
  have hkeep := FrameQueue.stopped_push x.queue (frame, now)
  split at hs
  next queue hpush =>
    cases hs
    rw [hpush] at hkeep
    refine ⟨h.installed, (fun he => nomatch he), fun hstopped => ?_, (fun _ hf => nomatch hf), rfl⟩
    rw [show queue.stopped = x.queue.stopped from hkeep, hopen] at hstopped
    cases hstopped
  next e queue hpush =>
    -- the queue is not stopped before the thread ends
    rcases hlate : x.queue.lastFrameId.any (FrameQueue.late · frame.header.frameId)
    all_goals
      simp only [FrameQueue.push, hopen, hlate, Bool.false_eq_true, if_false, if_true] at hpush
    · split at hpush <;> cases hpush
    · cases hpush

theorem inv_mediaStep {a : MediaStep} (h : Inv x)
    (hc : Undisturbed x (.media a)) (hs : mediaStep x a = some x') : Inv x' := by
  cases a with
  | check =>
    simp only [mediaStep] at hs
    split at hs
    next htop =>
      cases hs
      split
      next hstop => exact h.leave hstop
      · exact h.goto (by simp [htop]) (by simp) (fun _ hf => nomatch hf)
    · cases hs
  | lookUp =>
    simp only [mediaStep] at hs
    split at hs
    next hcalling =>
      split at hs
      next hnone =>
        cases hs
        refine h.answer (by simp [hcalling]) fun _ => ?_
        exact h.installed.resolve_right fun hi => by simp [hnone] at hi
      · cases hs
        exact h.goto (by simp [hcalling]) (by simp) (fun _ hf => nomatch hf)
    · cases hs
  | receive received =>
    simp only [mediaStep] at hs
    split at hs
    next hreceiving =>
      cases hs
      exact h.answer (by simp [hreceiving]) (fun he => nomatch he)
    next transport hreceiving =>
      split at hs
      next hcancelled =>
        cases hs
        refine h.answer (by simp [hreceiving]) fun _ => ?_
        exact h.installed.resolve_right fun hi => by simp [hi.2.1] at hcancelled
      · cases hs
    next hreceiving =>
      cases hs
      exact h.goto (by simp [hreceiving]) (by simp) (fun _ hf => nomatch hf)
    · cases hs
  | openDatagram fresh =>
    simp only [mediaStep] at hs
    split at hs
    next hopening =>
      split at hs
      next hnone =>
        cases hs
        refine h.answer (by simp [hopening]) fun _ => ?_
        exact h.installed.resolve_right fun hi => by simp [hnone] at hi
      · split at hs
        · cases hs
          exact h.answer (by simp [hopening]) (fun he => nomatch he)
        · split at hs
          · cases hs
            exact h.goto (by simp [hopening]) (by simp) (fun _ hf => nomatch hf)
          · cases hs
            exact h.answer (by simp [hopening]) (fun he => nomatch he)
    · cases hs
  | handlePacket now =>
    simp only [mediaStep] at hs
    split at hs
    next payload hhandling =>
      cases hs
      have hclient : Inv { x with client := (handle x.client now payload).2 } :=
        ⟨h.installed, h.running, h.queue, h.first, h.admitted⟩
      refine hclient.answer (by simp [hhandling]) fun hnotReady => ?_
      exact hc.resolve_left fun hready => handle_ready hready now payload hnotReady
    · cases hs
  | push now =>
    have hstep := hs
    simp only [mediaStep] at hs
    split at hs
    next hpushing => exact inv_push h hpushing now hc hstep
    · cases hs

/-! ### So do the others -/

theorem inv_decodeStep {a : DecodeStep} (h : Inv x)
    (hs : decodeStep x a = some x') : Inv x' := by
  cases a with
  | take =>
    simp only [decodeStep] at hs
    split at hs
    · split at hs
      · cases hs
      next hrecv =>
        cases hs
        exact ⟨h.installed, h.running, fun hq => h.queue (FrameQueue.stopped_recv hrecv ▸ hq), h.first,
          h.admitted⟩
      next hrecv =>
        cases hs
        exact ⟨h.installed, h.running, fun hq => h.queue (FrameQueue.stopped_recv hrecv ▸ hq), h.first,
          h.admitted⟩
    · cases hs
  | decode ok =>
    simp only [decodeStep] at hs
    split at hs
    · cases hs
      refine ⟨h.installed, h.running, fun hq => h.queue ?_, h.first, h.admitted⟩
      rcases ok with - | -
      · exact FrameQueue.stopped_decodeFailed x.queue ▸ hq
      · exact hq
    · cases hs

theorem inv_sessionStep {a : SessionStep} (h : Inv x)
    (hc : Undisturbed x (.session a)) (hs : sessionStep x a = some x') : Inv x' := by
  cases a with
  | interrupt =>
    cases hs
    exact ⟨Or.inl hc, h.running, h.queue, h.first, h.admitted⟩
  | takeUdp =>
    cases hs
    exact ⟨Or.inl hc, h.running, h.queue, h.first, h.admitted⟩
  | clearCipher =>
    simp only [sessionStep] at hs
    split at hs
    · cases hs
    · cases hs
      exact ⟨Or.inl hc, h.running, h.queue, h.first, h.admitted⟩
  | installUdp =>
    cases hs
    exact ⟨h.installed.imp_right fun hi => ⟨rfl, hi.2⟩, h.running, h.queue, h.first, h.admitted⟩
  | installCipher =>
    simp only [sessionStep] at hs
    split at hs
    · cases hs
    · cases hs
      exact ⟨h.installed.imp_right fun hi => ⟨hi.1, hi.2.1, rfl⟩, h.running, h.queue, h.first,
        h.admitted⟩
  | dropped | connecting | entered | handshaking | granted | ready | setPermissions
  | sessionEnded | disconnect =>
    cases hs
    exact ⟨h.installed, h.running, h.queue, h.first, h.admitted⟩

theorem inv_step {a : Action} (h : Inv x) (hc : Undisturbed x a)
    (hs : step x a = some x') : Inv x' := by
  cases a with
  | media a => exact inv_mediaStep h hc hs
  | decode a => exact inv_decodeStep h hs
  | session a => exact inv_sessionStep h hc hs
  | stop =>
    cases hs
    exact ⟨Or.inl rfl, fun _ => rfl, h.queue, h.first, h.admitted⟩

/-! ### Runs -/

/-- **Video survives a new session** under the same pipeline, however the
sections of the session fall among the steps of the media thread, provided that
no packet is handled before the session is Ready again and that the first key
frame of the session is ahead of what the queue has seen of the one before. -/
theorem survives (client : ClientState) (actions : List Action) {x : State}
    (hc : Machine.Along step Undisturbed (start client) actions)
    (h : Machine.run step (start client) actions = some x) : Survives x := by
  have hx := Machine.run_inv_along inv_step (inv_start client) hc h
  exact ⟨hx.running, hx.admitted⟩

/-- A client in a session. -/
def inSession : ClientState :=
  ((ClientState.new.connecting.entered .awaitingHandshakeAck).handshaking .owner).ready false

/-- One datagram of a session, up to its handling. -/
def takes (handshake : ℕ) (packet : MediaPacket) : List Action :=
  [.media .check, .media .lookUp,
    .media (.receive (.datagram ⟨some handshake, .video packet⟩)),
    .media (.openDatagram true), .media (.handlePacket 0)]

/-- A key frame of one chunk, from its datagrams to its push. -/
def takesKeyFrame (handshake : ℕ) (id : UInt32) : List Action :=
  takes handshake (.header ⟨id, 1, 1, true, 1, 1⟩ 0) ++ takes handshake (.chunk ⟨id, 0, [7]⟩) ++
    [Action.media (.push 0)]

/-- The TCP generation ends, and the supervisor connects again. -/
def reconnects : List Action :=
  [.session .dropped, .session .connecting, .session (.entered .awaitingHandshakeAck),
    .session (.handshaking .owner), .session (.granted .owner), .session .installUdp,
    .session .installCipher, .session (.ready false)]

/-- The key frame of the new session that comes first is its second frame: it is
ahead of the only frame of the old one. -/
theorem survives_ahead :
    ∃ x, Machine.run step (start inSession)
        (takesKeyFrame 0 1 ++ reconnects ++ takesKeyFrame 1 2) = some x ∧
      x.queue.frames.length = 2 ∧ x.keyed = true ∧ Survives x :=
  ⟨_, rfl, rfl, rfl, survives inSession
    (takesKeyFrame 0 1 ++ reconnects ++ takesKeyFrame 1 2) (by decide) rfl⟩

/-- The pipeline ends when the generation does between the opening and the
handling of a datagram; and if it goes on, the new session's first key frame is
late when the old session has got as far. -/
theorem lost_on_reconnect :
    (∃ x, Machine.run step (start inSession)
        [.media .check, .media .lookUp, .media (.receive (.datagram ⟨some 0, .other⟩)),
          .media (.openDatagram true), .session .dropped, .media (.handlePacket 0)] = some x ∧
      x.media = .ended ∧ x.stop = false ∧ ¬ Survives x) ∧
    ∃ x, Machine.run step (start inSession)
        (takesKeyFrame 0 1 ++ reconnects ++ takesKeyFrame 1 1) = some x ∧
      x.media = .top ∧ x.queue.frames.length = 1 ∧ x.refused = true ∧ ¬ Survives x := by
  refine ⟨⟨_, rfl, rfl, rfl, fun h => ?_⟩, ⟨_, rfl, rfl, rfl, rfl, fun h => ?_⟩⟩
  · have hstop := h.running rfl
    cases hstop
  · have hadmitted := h.admitted
    cases hadmitted

end MahoRD.MediaPipeline

/-
MahoRD/Host/Housekeeping.lean

What an iteration of the session does between reading a frame and dispatching
it: the check of the displays with the recovery of a pipeline whose display is
gone, the admission deadline, and what an authenticated peer is served (the
commands of the registry, permissions, UDP registration, the sender thread,
clipboard, heartbeat).

None of it looks at the frame.  It leaves the admission of the peer and the log
of the frames alone and gives no answer to a request (`housekeeping_calm`,
`checkTopology_steady`), and a recovery keeps the bitrate of the stream.
-/
import MahoRD.Host.Session
import MahoRD.Lib.Chunks

namespace MahoRD.Host

open Act

/-! ### Reading -/

/-- The read at the top of the loop. -/
def readPacket (t : Turn) : HostAct (Option (List UInt8)) := do
  let s ← get
  when t.aborted (throw .leave)
  when t.stop do
    when (s.admission.state = .authenticated) (sendSessionEnd t .hostStopped)
    throw .leave
  match t.read with
  | .ok none => return none
  | .ok (some packet) =>
    logPacket (.read packet)
    return some packet
  | .error .other => throw (.fail (.tls .other))
  | .error (.io e) =>
    if e.kind = .wouldBlock ∨ e.kind = .timedOut then return none
    else if e.kind = .unexpectedEof ∨ e.kind = .connectionReset ∨ e.kind = .brokenPipe
        ∨ e.syscall then throw .leave
    else throw (.fail (.tls (.io e)))

/-- An authenticated peer that hangs up is obeyed before anything else. -/
def checkHangUp (packet : Option (List UInt8)) : HostAct Unit := do
  let s ← get
  match packet with
  | none => pure ()
  | some packet =>
    when (s.admission.state = .authenticated) do
      let (header, payload) ← ofExcept .fail (splitPacket packet)
      when (header.packetType = .control) do
        let control ← ofExcept codecExit (ControlMessage.decode payload)
        when (control = .disconnect ∨ control = .stopStream) (throw .leave)

/-! ### The displays -/

/-- One side of a display at the scale of the session, as a recovery computes it. -/
def recoveredSide (side : UInt32) (scale : UInt16) : UInt32 :=
  max ((side.toUInt64 * scale.toUInt64 / 1000).toUInt32 &&& ~~~1) 2

/-- The selected output is not among the displays. -/
def Media.disappeared (m : Media) (displays : List HostDisplay) : Bool :=
  m.selectedOutput.any fun name => !displays.any (·.name = name)

/-- The sender thread gets the receiver of a new pipeline, or will when it starts. -/
def handOver (width height : UInt32) : HostAct Unit := do
  let s ← get
  when (¬ s.senderThread)
    (modify fun s => { s with mediaReceiver := true, streamDims := (width, height) })

/-- A new pipeline, for the preferred display. -/
def recover (c : Connection) (t : Turn) : HostAct Unit := do
  let s ← get
  when (¬ c.restartFactory) (throw (if t.mediaFailed then .fail .mediaStopped else .next))
  let display ← required (.fail .mediaStopped) (preferred t.topology.displays)
  let m := s.media
  let width := recoveredSide display.width m.activeScale
  let height := recoveredSide display.height m.activeScale
  attempt .fail t.topology.start
  when (s.senderThread ∧ ¬ t.topology.handOver) (throw (.fail .mediaStopped))
  handOver width height
  setMedia fun m => { m with
    pipeline := true
    stream := ⟨width, height, m.activeFps, m.activeBitrate⟩
    selectedOutput := some display.name }
  when (c.platform ≠ .macos) (attempt .fail t.topology.geometry)
  when s.peerHasStreamOptions
    (sendTcpControl t (.streamOptionsActive
      ⟨0, width, height, m.activeFps.toUInt16, m.activeCodec, display.index, m.activeBitrate⟩))

def checkTopology (c : Connection) (t : Turn) : HostAct Unit := do
  let s ← get
  when (t.mediaFailed ∨
      s.admission.state = .authenticated ∧ s.media.topologyCheck ≤ t.topology.now) do
    setMedia fun m => { m with topologyCheck := t.topology.reset + topologyInterval }
    let displays := t.topology.displays
    let disappeared := s.media.disappeared displays
    when (t.mediaFailed ∧ ¬ disappeared) (throw (.fail .mediaStopped))
    when (s.peerHasStreamOptions ∧ displays ≠ s.media.topology)
      (sendTcpControl t (.hostDisplayList ⟨displays⟩))
    setMedia fun m => { m with topology := displays }
    when (t.mediaFailed ∨ disappeared) (recover c t)

/-- A peer that is not authenticated has until the admission deadline. -/
def checkAdmission (c : Connection) (t : Turn) : HostAct Unit := do
  let s ← get
  when (s.admission.state ≠ .authenticated) do
    when (c.admissionDeadline ≤ t.admissionNow) (throw (.fail (.io ⟨.timedOut, false⟩)))
    attempt (fun e => .fail (.io e)) t.writeTimeout

/-! ### Guests -/

/-- The commands of the registry, until one ends the session. -/
def runCommands (t : Turn) : List GuestCommand → HostAct (Option SessionEndReason)
  | [] => return none
  | .fin reason :: _ => return some reason
  | .status status :: commands => do
    let s ← get
    when (s.peerCaps.contains .hostStatus) (sendTcpControl t (.hostStatus status))
    runCommands t commands
  | .permissions permissions :: commands => do
    modify fun s => { s with grantPermissions := permissions }
    runCommands t commands

def expired (trust : PairingTrust) (now : UInt64) : Bool :=
  match trust with
  | .guestExpiring expiresAtUnixMs => expiresAtUnixMs ≤ now
  | _ => false

def serveGuest (t : Turn) : HostAct Unit := do
  let fin ← runCommands t t.commands
  let s ← get
  match if expired s.sessionTrust t.unixMs then some .guestExpired else fin with
  | none => pure ()
  | some reason =>
    sendSessionEnd t reason
    throw .leave

/-- A permission for input is taken back. -/
def releases (old current : GuestPermissions) : Bool :=
  (old.keyboard && !current.keyboard) || (old.mouse && !current.mouse)
    || (old.gamepad && !current.gamepad)

def updatePermissions (c : Connection) (t : Turn) : HostAct Unit := do
  let s ← get
  let current := Guests.intersect s.grantPermissions (permissionCeiling c t.policy s.clipboardSync)
  when (current ≠ s.effectivePermissions) do
    when (releases s.effectivePermissions current) (log .releaseInput)
    modify fun s => { s with effectivePermissions := current, audioAllowed := current.audio }
    sendPermissions t current

/-! ### Media -/

def discoverUdpPeer (t : Turn) : HostAct Unit := do
  let s ← get
  when (¬ s.udpPeer ∧ s.c2hCipher) do
    let found ← ofExcept .fail t.discover
    modify fun s => { s with udpPeer := found }

def startSender (t : Turn) : HostAct Unit := do
  let s ← get
  when (¬ s.senderThread ∧ s.mediaReceiver ∧ s.udpPeer) do
    modify fun s => { s with mediaReceiver := false }
    attempt (fun e => .fail (.io e)) t.clone
    when (¬ s.h2cCipher) (throw (.fail .preAuth))
    modify fun s => { s with h2cCipher := false, senderThread := true }

/-! ### Clipboard, policy and heartbeat -/

def sendImage (c : Connection) (t : Turn) : HostAct Unit := do
  let s ← get
  when (c.hasClipboard ∧ s.clipboardSync ∧ s.effectivePermissions.clipboard
      ∧ s.peerCaps.contains .clipboardImage ∧ c.hostCaps.contains .clipboardImage
      ∧ s.nextImagePoll ≤ t.now) do
    modify fun s => { s with nextImagePoll := t.now + clipboardInterval }
    match t.image with
    | none => pure ()
    | some bytes =>
      when (s.imageId.toNat + 1 = UInt32.size) (throw (.fail .mediaStopped))
      modify fun s => { s with imageId := s.imageId + 1 }
      (Chunks.chunks 65536 bytes).zipIdx.forM fun chunk =>
        sendTcpControl t (.clipboardImageChunk ⟨s.imageId + 1, UInt32.ofNat bytes.length,
          UInt32.ofNat (chunk.2 * 65536), chunk.1⟩)

/-- Peers that know no guest permissions are told the policy; a failure is not
fatal. -/
def sendPolicy (t : Turn) : HostAct Unit := do
  let s ← get
  let current := policyOf s.effectivePermissions
  when (s.peerHasStreamOptions ∧ ¬ s.peerCaps.contains .guestPermissions
      ∧ current ≠ s.lastSentPolicy) do
    match ← outcome (sendTcpControl t (.hostPolicy current)) with
    | .error _ => pure ()
    | .ok () => modify fun s => { s with lastSentPolicy := current }

def heartbeat (t : Turn) : HostAct Unit := do
  let s ← get
  when (s.nextPing ≤ t.now) do
    sendTcpControl t .ping
    modify fun s => { s with nextPing := t.now + heartbeatInterval }
  when (heartbeatTimeout ≤ t.now - s.lastPong) (throw .leave)

def sendText (c : Connection) (t : Turn) : HostAct Unit := do
  let s ← get
  when (c.hasClipboard ∧ s.clipboardSync ∧ s.effectivePermissions.clipboard
      ∧ (c.platform = .linux → s.nextClipboardPoll ≤ t.now)) do
    modify fun s => { s with nextClipboardPoll := t.now + clipboardInterval }
    match t.text with
    | none => pure ()
    | some text =>
      sendTcpControl t (.clipboardSyncUpdate ⟨0, .hostToClient, .localPasteboard, text⟩)

def housekeeping (c : Connection) (t : Turn) : HostAct Unit := do
  let s ← get
  when (s.admission.state = .authenticated) do
    serveGuest t
    updatePermissions c t
    discoverUdpPeer t
    startSender t
    sendImage c t
    sendPolicy t
    heartbeat t
    sendText c t

/-! ### What it leaves alone -/

theorem checkHangUp_still (packet : Option (List UInt8)) : Still (checkHangUp packet) := by
  refine Keeps.seq Keeps.read fun s => ?_
  cases packet with
  | none => exact Keeps.ret ()
  | some packet =>
    apply Keeps.when
    refine Keeps.seq (Keeps.ofExcept fun _ => trivial) fun header => ?_
    apply Keeps.when
    exact Keeps.seq (Keeps.ofExcept fun _ => trivial) fun _ => Keeps.when (Keeps.raise trivial)

theorem checkAdmission_still (c : Connection) (t : Turn) : Still (checkAdmission c t) := by
  refine Keeps.seq Keeps.read fun s => ?_
  apply Keeps.when
  exact Keeps.seq (Keeps.when (Keeps.raise trivial)) fun _ => Keeps.attempt fun _ => trivial

theorem runCommands_calm (t : Turn) (commands : List GuestCommand) :
    Calm (runCommands t commands) := by
  induction commands with
  | nil => exact Keeps.ret none
  | cons command commands ih =>
    cases command with
    | fin reason => exact Keeps.ret (some reason)
    | status status =>
      refine Keeps.seq Keeps.read fun s => ?_
      exact Keeps.seq (Keeps.when (sendTcpControl_still t rfl rfl).calm) fun _ => ih
    | permissions permissions => exact Keeps.seq (Keeps.update fun _ => rfl) fun _ => ih

theorem serveGuest_calm (t : Turn) : Calm (serveGuest t) := by
  refine Keeps.seq (runCommands_calm t t.commands) fun fin => ?_
  refine Keeps.seq Keeps.read fun s => ?_
  split
  · exact Keeps.ret ()
  · exact Keeps.seq (sendSessionEnd_still t _).calm fun _ => Keeps.raise trivial

theorem updatePermissions_calm (c : Connection) (t : Turn) : Calm (updatePermissions c t) := by
  refine Keeps.seq Keeps.read fun s => ?_
  apply Keeps.when
  refine Keeps.seq (Keeps.when (log_calm _)) fun _ => ?_
  exact Keeps.seq (Keeps.update fun _ => rfl) fun _ => (sendPermissions_still t _).calm

theorem discoverUdpPeer_still (t : Turn) : Still (discoverUdpPeer t) := by
  refine Keeps.seq Keeps.read fun s => ?_
  apply Keeps.when
  exact Keeps.seq (Keeps.ofExcept fun _ => trivial) fun found => Keeps.update fun _ => rfl

theorem startSender_still (t : Turn) : Still (startSender t) := by
  refine Keeps.seq Keeps.read fun s => ?_
  apply Keeps.when
  refine Keeps.seq (Keeps.update fun _ => rfl) fun _ => ?_
  refine Keeps.seq (Keeps.attempt fun _ => trivial) fun _ => ?_
  exact Keeps.seq (Keeps.when (Keeps.raise trivial)) fun _ => Keeps.update fun _ => rfl

theorem sendImage_still (c : Connection) (t : Turn) : Still (sendImage c t) := by
  refine Keeps.seq Keeps.read fun s => ?_
  apply Keeps.when
  refine Keeps.seq (Keeps.update fun _ => rfl) fun _ => ?_
  split
  · exact Keeps.ret ()
  · refine Keeps.seq (Keeps.when (Keeps.raise trivial)) fun _ => ?_
    refine Keeps.seq (Keeps.update fun _ => rfl) fun _ => ?_
    exact Keeps.forM fun chunk => sendTcpControl_still t rfl rfl

theorem sendPolicy_still (t : Turn) : Still (sendPolicy t) := by
  refine Keeps.seq Keeps.read fun s => ?_
  apply Keeps.when
  refine Keeps.seq (Keeps.outcome (sendTcpControl_still t rfl rfl)) fun outcome => ?_
  cases outcome with
  | error e => exact Keeps.ret ()
  | ok => exact Keeps.update fun _ => rfl

theorem heartbeat_still (t : Turn) : Still (heartbeat t) := by
  refine Keeps.seq Keeps.read fun s => ?_
  refine Keeps.seq (Keeps.when ?_) fun _ => Keeps.when (Keeps.raise trivial)
  exact Keeps.seq (sendTcpControl_still t rfl rfl) fun _ => Keeps.update fun _ => rfl

theorem sendText_still (c : Connection) (t : Turn) : Still (sendText c t) := by
  refine Keeps.seq Keeps.read fun s => ?_
  apply Keeps.when
  refine Keeps.seq (Keeps.update fun _ => rfl) fun _ => ?_
  split
  · exact Keeps.ret ()
  · exact sendTcpControl_still t rfl rfl

/-- **Nothing between the check of the displays and the dispatch touches the core.** -/
theorem housekeeping_calm (c : Connection) (t : Turn) : Calm (housekeeping c t) := by
  refine Keeps.seq Keeps.read fun s => ?_
  apply Keeps.when
  refine Keeps.seq (serveGuest_calm t) fun _ => ?_
  refine Keeps.seq (updatePermissions_calm c t) fun _ => ?_
  refine Keeps.seq (discoverUdpPeer_still t).calm fun _ => ?_
  refine Keeps.seq (startSender_still t).calm fun _ => ?_
  refine Keeps.seq (sendImage_still c t).calm fun _ => ?_
  refine Keeps.seq (sendPolicy_still t).calm fun _ => ?_
  exact Keeps.seq (heartbeat_still t).calm fun _ => (sendText_still c t).calm

/-! ### Recoveries -/

/-- What a recovery leaves alone.  The bitrate of the pipeline stays the one that
is kept as active. -/
structure Steady (s s' : Session) : Prop where
  entry : s'.entry = s.entry
  responses : s'.responses = s.responses
  disk : s'.disk = s.disk
  activeBitrate : s'.media.activeBitrate = s.media.activeBitrate
  bitrate : s.media.stream.bitrate = s.media.activeBitrate →
    s'.media.stream.bitrate = s'.media.activeBitrate

instance : Std.Refl Steady := ⟨fun _ => ⟨rfl, rfl, rfl, rfl, fun h => h⟩⟩

instance : IsTrans Session Steady := ⟨fun _ _ _ h h' =>
  ⟨h'.entry.trans h.entry, h'.responses.trans h.responses, h'.disk.trans h.disk,
    h'.activeBitrate.trans h.activeBitrate, fun hb => h'.bitrate (h.bitrate hb)⟩⟩

theorem steady_of_core {s s' : Session} (h : s'.core = s.core) : Steady s s' := by
  obtain ⟨hview, hdisk⟩ := Prod.mk.inj h
  obtain ⟨hentry, hmedia, hresponses⟩ := Session.view_eq_iff.mp hview
  exact ⟨hentry, hresponses, hdisk, by rw [hmedia], fun hb => by rw [hmedia]; exact hb⟩

theorem steady_of_quiet {α : Type} {x : HostAct α} (hx : Quiet x) : Keeps Steady Exit.Ends x :=
  Keeps.mono hx steady_of_core fun h => h

theorem handOver_still (width height : UInt32) : Still (handOver width height) :=
  Keeps.seq Keeps.read fun _ => Keeps.when (Keeps.update fun _ => rfl)

theorem recover_steady (c : Connection) (t : Turn) :
    Keeps Steady (fun e => e.Ends ∨ c.restartFactory = false ∧ t.mediaFailed = false)
      (recover c t) := by
  have hquiet : ∀ {α : Type} {x : HostAct α}, Quiet x → Keeps Steady
      (fun e => e.Ends ∨ c.restartFactory = false ∧ t.mediaFailed = false) x :=
    fun hx => Keeps.mono (steady_of_quiet hx) (fun h => h) Or.inl
  refine Keeps.seq Keeps.read fun s => ?_
  refine Keeps.seq (Keeps.whenever fun hfactory => Keeps.raise ?_) fun _ => ?_
  · split
    · exact Or.inl trivial
    next hfailed => exact Or.inr ⟨by simpa using hfactory, by simpa using hfailed⟩
  refine Keeps.seq (Keeps.required (Or.inl trivial)) fun display => ?_
  refine Keeps.seq (Keeps.attempt fun _ => Or.inl trivial) fun _ => ?_
  refine Keeps.seq (Keeps.when (Keeps.raise (Or.inl trivial))) fun _ => ?_
  refine Keeps.seq (hquiet (handOver_still _ _).quiet) fun _ => ?_
  refine Keeps.seq (Keeps.update fun s => ?_) fun _ => ?_
  · -- the new pipeline is started with the bitrate that is active
    exact ⟨rfl, rfl, rfl, rfl, fun _ => rfl⟩
  · refine Keeps.seq (Keeps.when (Keeps.attempt fun _ => Or.inl trivial)) fun _ => ?_
    exact Keeps.when (hquiet (sendTcpControl_quiet t rfl))

/-- The display of the stream is found gone, and there is no restart factory. -/
def Vanished (c : Connection) (t : Turn) (s : Session) : Prop :=
  c.restartFactory = false ∧ t.mediaFailed = false ∧ s.admission.state = .authenticated ∧
    s.media.topologyCheck ≤ t.topology.now ∧ s.media.disappeared t.topology.displays = true

instance (c : Connection) (t : Turn) (s : Session) : Decidable (Vanished c t s) :=
  inferInstanceAs (Decidable (_ ∧ _ ∧ _ ∧ _ ∧ _))

/-- The check of the displays goes on with the next iteration only for want of a
restart factory. -/
theorem checkTopology_steady (c : Connection) (t : Turn) (s : Session) :
    Steady s ((checkTopology c t).exec s).2 ∧
      ∀ e, ((checkTopology c t).exec s).1 = .error e → e.Ends ∨ Vanished c t s := by
  rw [checkTopology, exec_bind]
  show Steady s (Act.exec _ s).2 ∧ ∀ e, (Act.exec _ s).1 = .error e → _
  refine Keeps.whenever (R := Steady) (X := fun e : Exit => e.Ends ∨ Vanished c t s) (fun hdue => ?_) s
  refine Keeps.seq (Keeps.update fun s => ⟨rfl, rfl, rfl, rfl, fun h => h⟩) fun _ => ?_
  refine Keeps.seq (Keeps.when (Keeps.raise (Or.inl trivial))) fun _ => ?_
  refine Keeps.seq (Keeps.when (Keeps.mono (steady_of_quiet (sendTcpControl_quiet t rfl))
    (fun h => h) Or.inl)) fun _ => ?_
  refine Keeps.seq (Keeps.update fun s => ⟨rfl, rfl, rfl, rfl, fun h => h⟩) fun _ => ?_
  refine Keeps.whenever fun hgone => Keeps.mono (recover_steady c t) (fun h => h) ?_
  rintro e (hends | ⟨hfactory, hfailed⟩)
  · exact Or.inl hends
  · simp only [hfailed, Bool.false_eq_true, false_or] at hdue hgone
    exact Or.inr ⟨hfactory, hfailed, hdue.1, hdue.2, hgone⟩

end MahoRD.Host

/-
MahoRD/Host/InputGate.lean

The gate to the input injector, in a session: what the injector was given, and
what decides about the next input event.  Only the dispatch of an input event
injects anything, and one event at most (`serving_injects`); only the commands
of the registry change the grant, and only the reading of the permissions
changes what the dispatch looks at (`updatePermissions_exec`).  All the rest of
an iteration leaves the gate alone.

The iteration falls into four pieces at these places (`iteration_exec`).
-/
import MahoRD.Host.Loop

namespace MahoRD.Host

open Act

/-! ### Before the commands are taken -/

theorem readPacket_gate (t : Turn) : Ungated (readPacket t) := by
  refine Keeps.seq Keeps.read fun s => ?_
  refine Keeps.seq (Keeps.when (Keeps.raise trivial)) fun _ => ?_
  refine Keeps.seq (Keeps.when ?_) fun _ => ?_
  · exact Keeps.seq (Keeps.when (sendSessionEnd_still t _).ungated) fun _ => Keeps.raise trivial
  split
  · exact Keeps.ret none
  · exact Keeps.seq (Keeps.update fun _ => rfl) fun _ => Keeps.ret _
  · exact Keeps.raise trivial
  · exact Keeps.ite (Keeps.ret none) (Keeps.ite (Keeps.raise trivial) (Keeps.raise trivial))

theorem recover_gate (c : Connection) (t : Turn) :
    Keeps (Same Session.gate) Any (recover c t) := by
  refine Keeps.seq Keeps.read fun s => ?_
  refine Keeps.seq (Keeps.when (Keeps.raise trivial)) fun _ => ?_
  refine Keeps.seq (Keeps.required trivial) fun display => ?_
  refine Keeps.seq (Keeps.attempt fun _ => trivial) fun _ => ?_
  refine Keeps.seq (Keeps.when (Keeps.raise trivial)) fun _ => ?_
  refine Keeps.seq (handOver_still _ _).ungated.any fun _ => ?_
  refine Keeps.seq (Keeps.update fun _ => rfl) fun _ => ?_
  refine Keeps.seq (Keeps.when (Keeps.attempt fun _ => trivial)) fun _ => ?_
  exact Keeps.when (sendTcpControl_gate t _).any

theorem checkTopology_gate (c : Connection) (t : Turn) :
    Keeps (Same Session.gate) Any (checkTopology c t) := by
  refine Keeps.seq Keeps.read fun s => ?_
  apply Keeps.when
  refine Keeps.seq (Keeps.update fun _ => rfl) fun _ => ?_
  refine Keeps.seq (Keeps.when (Keeps.raise trivial)) fun _ => ?_
  refine Keeps.seq (Keeps.when (sendTcpControl_gate t _).any) fun _ => ?_
  exact Keeps.seq (Keeps.update fun _ => rfl) fun _ => Keeps.when (recover_gate c t)

/-! ### Control messages -/

theorem streamConfigRequest_gate (c : Connection) (t : Turn) (req : StreamConfigurationRequest) :
    Ungated (streamConfigRequest c t req) := by
  refine Keeps.seq Keeps.read fun s => ?_
  split
  · exact sendTcpControl_gate t _
  apply Keeps.ite
  · exact sendTcpControl_gate t _
  · refine Keeps.seq (Keeps.when (Keeps.update fun _ => rfl)) fun _ => ?_
    exact Keeps.seq Keeps.read fun s => sendTcpControl_gate t _

theorem applyOptions_gate (c : Connection) (t : Turn) (request : StreamOptionsRequest)
    (selected : HostDisplay) : Ungated (applyOptions c t request selected) := by
  refine Keeps.seq Keeps.read fun s => ?_
  refine Keeps.seq (handOver_still _ _).ungated fun _ => ?_
  refine Keeps.seq (Keeps.update fun _ => rfl) fun _ => ?_
  refine Keeps.seq (Keeps.when (Keeps.attempt fun _ => trivial)) fun _ => ?_
  refine Keeps.seq (Keeps.update fun _ => rfl) fun _ => ?_
  exact Keeps.seq (Keeps.when (Keeps.attempt fun _ => trivial)) fun _ => sendTcpControl_gate t _

theorem serveControl_gate (c : Connection) (t : Turn) (s : Session) (m : ControlMessage) :
    Ungated (serveControl c t s m) := by
  by_cases hplain : isPlain m = true
  · exact (serveControl_still c t s hplain).ungated
  cases m with
  | bitrateAdjust v => exact Keeps.when (Keeps.update fun _ => rfl)
  | streamConfigRequest req => exact streamConfigRequest_gate c t req
  | streamOptionsRequest request =>
    exact streamOptionsRequest_cases c t request (fun _ _ => sendTcpControl_gate t _)
      (Keeps.ret ()) (applyOptions_gate c t request)
  | _ => exact absurd rfl hplain

theorem control_gate (c : Connection) (t : Turn) (payload : List UInt8) :
    Keeps (Same Session.gate) Any (control c t payload) := by
  refine Keeps.seq Keeps.read fun s => ?_
  refine Keeps.seq (Keeps.when (Keeps.raise trivial)) fun _ => ?_
  refine Keeps.seq (Keeps.ofExcept fun _ => trivial) fun m => ?_
  exact Keeps.seq (Keeps.when (Keeps.raise trivial)) fun _ => (serveControl_gate c t s m).any

/-! ### The three readings -/

/-- The grant, once the commands have been taken. -/
def granted (commands : List GuestCommand) (grant : GuestPermissions) : GuestPermissions :=
  commands.foldl (fun grant command =>
    match command with
    | .permissions permissions => permissions
    | _ => grant) grant

/-- The gate without the grant. -/
def Session.latch (s : Session) := (s.inputs, s.effectivePermissions, s.admission.state)

variable {s s' : Session} {t : Turn}

theorem Session.latch_eq_iff : s'.latch = s.latch ↔
    s'.inputs = s.inputs ∧ s'.effectivePermissions = s.effectivePermissions ∧
      s'.admission.state = s.admission.state := by
  simp [Session.latch]

theorem Ungated.latch {α : Type} {x : HostAct α} (hx : Ungated x) :
    Keeps (Same Session.latch) Exit.Ends x := by
  refine Keeps.mono hx (fun h => ?_) fun h => h
  obtain ⟨hinputs, heffective, -, hstate⟩ := Session.gate_eq_iff.mp h
  exact Session.latch_eq_iff.mpr ⟨hinputs, heffective, hstate⟩

theorem runCommands_latch (t : Turn) (commands : List GuestCommand) :
    Keeps (Same Session.latch) Exit.Ends (runCommands t commands) := by
  induction commands with
  | nil => exact Keeps.ret none
  | cons command commands ih =>
    cases command with
    | fin reason => exact Keeps.ret (some reason)
    | status status =>
      refine Keeps.seq Keeps.read fun s => ?_
      exact Keeps.seq (Keeps.when (sendTcpControl_gate t _).latch) fun _ => ih
    | permissions permissions => exact Keeps.seq (Keeps.update fun _ => rfl) fun _ => ih

theorem serveGuest_latch (t : Turn) : Keeps (Same Session.latch) Exit.Ends (serveGuest t) := by
  refine Keeps.seq (runCommands_latch t t.commands) fun fin => ?_
  refine Keeps.seq Keeps.read fun s => ?_
  split
  · exact Keeps.ret ()
  · exact Keeps.seq (sendSessionEnd_still t _).ungated.latch fun _ => Keeps.raise trivial

theorem runCommands_grant {commands : List GuestCommand}
    (h : (runCommands t commands).exec s = (.ok none, s')) :
    s'.grantPermissions = granted commands s.grantPermissions := by
  induction commands generalizing s with
  | nil =>
    cases h
    rfl
  | cons command commands ih =>
    cases command with
    | fin reason => cases h
    | permissions permissions => exact ih h
    | status status =>
      obtain ⟨_, _, hread, h⟩ := exec_seq_eq_ok.mp h
      cases hread
      obtain ⟨_, s₁, hsent, h⟩ := exec_seq_eq_ok.mp h
      have hgate := (Keeps.when (c := s.peerCaps.contains .hostStatus = true)
        (sendTcpControl_gate t (.hostStatus status)) s).1
      rw [hsent] at hgate
      rw [ih h, (Session.gate_eq_iff.mp hgate).2.2.1]
      rfl

theorem serveGuest_grant
    (h : (serveGuest t).exec s = (.ok (), s')) :
    s'.grantPermissions = granted t.commands s.grantPermissions := by
  obtain ⟨fin, s₁, hcommands, h⟩ := exec_seq_eq_ok.mp h
  obtain ⟨_, _, hread, h⟩ := exec_seq_eq_ok.mp h
  cases hread
  split at h
  next hgoes =>
    cases h
    -- neither a command nor the clock ends the session
    obtain rfl : fin = none := by
      split at hgoes
      · cases hgoes
      · exact hgoes
    exact runCommands_grant hcommands
  · obtain ⟨_, _, _, h⟩ := exec_seq_eq_ok.mp h
    cases h

/-- What the grant and the ceiling allow at the reading. -/
def allowedNow (c : Connection) (policy : HostPolicy) (s : Session) : GuestPermissions :=
  Guests.intersect s.grantPermissions (permissionCeiling c policy s.clipboardSync)

/-- The reading replaces the permissions, and releases what is held when one for input is taken
back. -/
theorem updatePermissions_exec (c : Connection) (t : Turn) (s : Session) :
    ((updatePermissions c t).exec s).2.gate =
      (s.inputs ++ (if releases s.effectivePermissions (allowedNow c t.policy s) then
          [.releaseInput] else []),
        allowedNow c t.policy s, s.grantPermissions, s.admission.state) := by
  rw [updatePermissions, exec_bind, allowedNow]
  simp only [exec_get]
  generalize Guests.intersect s.grantPermissions (permissionCeiling c t.policy s.clipboardSync)
    = current
  rw [when, exec_ite]
  split
  · -- sending the permissions may fail, but they hold already
    have hsend (s' : Session) := ((sendPermissions_still t current).ungated s').1
    by_cases hreleases : releases s.effectivePermissions current = true
    · rw [when, if_pos hreleases, if_pos hreleases]
      refine (hsend _).trans ?_
      simp [Session.gate, Session.inputs, Effect.isInput]
    · rw [when, if_neg hreleases, if_neg hreleases]
      refine (hsend _).trans ?_
      simp [Session.gate, Session.inputs]
  next hsame =>
    rw [not_not] at hsame
    have hkept : releases s.effectivePermissions s.effectivePermissions = false := by
      simp [releases]
    rw [hsame, hkept]
    simp [Session.gate]

/-! ### The dispatch -/

/-- An event of an allowed class, that carries no modifiers without the keyboard. -/
def Permitted (p : GuestPermissions) (e : InputEvent) : Prop :=
  Guests.allows p e.eventType = true ∧ (p.keyboard = false → e.modifiers = .empty)

instance (p : GuestPermissions) (e : InputEvent) : Decidable (Permitted p e) :=
  inferInstanceAs (Decidable (_ ∧ _))

/-- What is permitted stays so, unless a permission for input is taken back. -/
theorem Permitted.mono {old current : GuestPermissions} {event : InputEvent}
    (h : Permitted old event) (hkept : releases old current = false) : Permitted current event := by
  obtain ⟨hallows, hmodifiers⟩ := h
  simp only [releases, Bool.or_eq_false_iff, Bool.and_eq_false_iff, Bool.not_eq_false'] at hkept
  obtain ⟨⟨hkeyboard, hmouse⟩, hgamepad⟩ := hkept
  refine ⟨?_, fun hnone => hmodifiers ?_⟩
  · revert hallows
    cases event.eventType <;> simp only [Guests.allows] <;> grind
  · grind

/-- From `s` nothing is injected, or one permitted event is. -/
def Injects (s s' : Session) : Prop :=
  s'.gate = s.gate ∨ ∃ e, Permitted s.effectivePermissions e ∧
    s'.gate = (s.inputs ++ [Effect.inject e], s.effectivePermissions, s.grantPermissions,
      s.admission.state)

theorem Injects.of_gate {s₁ : Session} (h : Injects s₁ s') (hgate : s₁.gate = s.gate) :
    Injects s s' := by
  obtain ⟨hinputs, heffective, hgrant, hstate⟩ := Session.gate_eq_iff.mp hgate
  rcases h with h | ⟨e, he, h⟩
  · exact .inl (h.trans hgate)
  · rw [heffective] at he
    rw [hinputs, heffective, hgrant, hstate] at h
    exact .inr ⟨e, he, h⟩

theorem Injects.seq {α : Type} {X : Exit → Prop} {x : HostAct α} {f : α → HostAct Unit} (hx : Keeps (Same Session.gate) X x)
    (h : ∀ a s₁, s₁.gate = s.gate → Injects s₁ ((f a).exec s₁).2) :
    Injects s ((x >>= f).exec s).2 := by
  have hgate := (hx s).1
  rw [exec_bind]
  rcases hxs : x.exec s with ⟨e | a, s₁⟩ <;> rw [hxs] at hgate
  · exact .inl hgate
  · exact (h a s₁ hgate).of_gate hgate

theorem inputEvent_injects (t : Turn) (header : PacketHeader) (payload : List UInt8)
    (s : Session) : Injects s ((inputEvent t header payload).exec s).2 := by
  have hack (sequence : UInt32) (success : Bool) (errorCode : UInt8) (s' : Session) :=
    ((sendInputAck_still t sequence success errorCode).ungated s').1
  show Injects s (Act.exec (when _ _ >>= _) s).2
  refine Injects.seq (Keeps.when (Keeps.raise (X := Any) trivial)) fun _ s₁ hgate => ?_
  refine Injects.seq (Keeps.ofExcept (X := Any) fun _ => trivial) fun event s₂ hgate' => ?_
  obtain ⟨-, heffective, -, -⟩ := Session.gate_eq_iff.mp (hgate'.trans hgate)
  -- the event, without its modifiers where the keyboard is not allowed
  extract_lets current
  have hmodifiers : s.effectivePermissions.keyboard = false → current.modifiers = .empty := by
    intro hkeyboard
    simp [current, hkeyboard]
  rw [← heffective] at hmodifiers ⊢
  clear_value current
  rw [exec_ite]
  split
  · exact .inl (hack _ _ _ _)
  next hallowed =>
    rw [not_or, not_not] at hallowed
    refine .inr ⟨current, ⟨hallowed.1, hmodifiers⟩, (hack _ _ _ _).trans ?_⟩
    simp [Session.gate, Session.inputs, Effect.isInput]

theorem dispatch_injects {c : Connection} {packet : List UInt8}
    (hauth : s.admission.state = .authenticated) :
    Injects s ((dispatch c t packet).exec s).2 := by
  have hdispatches := dispatch_cases c t packet s
  generalize (dispatch c t packet).exec s = o at hdispatches
  cases hdispatches with
  | malformed hsplit => exact .inl rfl
  | refused hsplit hrefused he => exact .inl rfl
  | @handled header payload hsplit hallowed =>
    rw [hauth] at hallowed
    rw [handle]
    split
    next htype => simp [htype, SessionState.allows] at hallowed
    next htype => simp [htype, SessionState.allows] at hallowed
    · exact inputEvent_injects t header payload _
    · exact .inl (control_gate c t payload _).1
    · exact .inl rfl

/-! ### The iteration in four pieces -/

/-- Up to the commands. -/
def reading (c : Connection) (t : Turn) : HostAct (Option (List UInt8)) := do
  let packet ← readPacket t
  checkHangUp packet
  checkTopology c t
  checkAdmission c t
  return packet

/-- Behind the reading of the permissions. -/
def serving (c : Connection) (t : Turn) (packet : Option (List UInt8)) : HostAct Unit := do
  discoverUdpPeer t
  startSender t
  sendImage c t
  sendPolicy t
  heartbeat t
  sendText c t
  match packet with
  | none => pure ()
  | some packet => dispatch c t packet

theorem reading_gate (c : Connection) (t : Turn) :
    Keeps (Same Session.gate) Any (reading c t) := by
  refine Keeps.seq (readPacket_gate t).any fun packet => ?_
  refine Keeps.seq (checkHangUp_still packet).ungated.any fun _ => ?_
  refine Keeps.seq (checkTopology_gate c t) fun _ => ?_
  exact Keeps.seq (checkAdmission_still c t).ungated.any fun _ => Keeps.ret packet

theorem serving_injects {c : Connection} {packet : Option (List UInt8)}
    (hauth : s.admission.state = .authenticated) :
    Injects s ((serving c t packet).exec s).2 := by
  refine Injects.seq (discoverUdpPeer_still t).ungated fun _ s₁ h₁ => ?_
  refine Injects.seq (startSender_still t).ungated fun _ s₂ h₂ => ?_
  refine Injects.seq (sendImage_still c t).ungated fun _ s₃ h₃ => ?_
  refine Injects.seq (sendPolicy_still t).ungated fun _ s₄ h₄ => ?_
  refine Injects.seq (heartbeat_still t).ungated fun _ s₅ h₅ => ?_
  refine Injects.seq (sendText_still c t).ungated fun _ s₆ h₆ => ?_
  cases packet with
  | none => exact .inl rfl
  | some packet =>
    have hgate := h₆.trans (h₅.trans (h₄.trans (h₃.trans (h₂.trans h₁))))
    exact dispatch_injects ((Session.gate_eq_iff.mp hgate).2.2.2.trans hauth)

end MahoRD.Host

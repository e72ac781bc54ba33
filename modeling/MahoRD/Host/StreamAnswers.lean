/-
MahoRD/Host/StreamAnswers.lean

What the host answers to a stream configuration request, against the pipeline
that runs at that moment.  Options requests, configuration requests, bitrate
changes and recoveries each update their own part of the session's variables.

The bitrate that is answered is always the one of the pipeline, the size and
the rate are the ones the host was configured with.
-/
import MahoRD.Host.Loop

namespace MahoRD.Host

open Act

/-! ### What is answered -/

/-- The answer tells the running stream. -/
def Truthful (stream : Stream) (active : StreamConfiguration) : Prop :=
  active.width = stream.width ∧ active.height = stream.height ∧
    active.framesPerSecond.toNat = stream.fps.toNat ∧ active.bitrate = stream.bitrate

/-- The stream has the size and the rate of the configuration of the host. -/
def AsConfigured (c : Connection) (stream : Stream) : Prop :=
  c.config.display.pixelWidth = stream.width ∧ c.config.display.pixelHeight = stream.height ∧
    c.config.framesPerSecond.toUInt16.toNat = stream.fps.toNat

/-- Every response gives the configured size and rate, and the bitrate of the
stream. -/
def Answered (c : Connection) (s : Session) : Prop :=
  ∀ x ∈ s.responses, ∀ response, x.2 = .control (.streamConfigResponse response) →
    response.active = activeConfiguration c x.1.bitrate

/-- The active bitrate is the one of the pipeline, and as configured before the
peer is authenticated. -/
def Settled (c : Connection) (s : Session) : Prop :=
  s.media.stream.bitrate = s.media.activeBitrate ∧
    (s.admission.state ≠ .authenticated → s.media.activeBitrate = c.config.bitrate)

def Answers (c : Connection) (s : Session) : Prop := Answered c s ∧ Settled c s

variable {c : Connection} {s : Session} {t : Turn}

theorem answers_of_steady {s' : Session} (hs : Answers c s)
    (h : Steady s s') : Answers c s' := by
  obtain ⟨hadmission, -⟩ := Session.entry_eq_iff.mp h.entry
  refine ⟨?_, h.bitrate hs.2.1, ?_⟩
  · rw [Answered, h.responses]
    exact hs.1
  · rw [hadmission, h.activeBitrate]
    exact hs.2.2

/-! ### Requests for the stream -/

/-- The state while a request of an authenticated peer is served. -/
def Serving (c : Connection) (s : Session) : Prop :=
  Answers c s ∧ s.admission.state = .authenticated

/-- What is left when serving it is left with `e`. -/
def AnswersOn (c : Connection) (e : Exit) (s : Session) : Prop :=
  Answered c s ∧ (¬ e.Ends → Answers c s)

/-- A request that keeps the answers and the bitrate in order. -/
abbrev Orderly {α : Type} (c : Connection) (x : HostAct α) : Prop :=
  Triple (Serving c) x (fun _ => Serving c) (AnswersOn c)

theorem orderly_of_quiet {α : Type} {x : HostAct α} (hx : Quiet x) :
    Orderly c x := by
  refine Keeps.triple (steady_of_quiet hx) (fun hs h => ?_) fun hs h hends => ?_
  · obtain ⟨hadmission, -⟩ := Session.entry_eq_iff.mp h.entry
    exact ⟨answers_of_steady hs.1 h, hadmission ▸ hs.2⟩
  · exact ⟨(answers_of_steady hs.1 h).1, fun hgoes => absurd hends hgoes⟩

theorem setBitrate_orderly (c : Connection) (bitrate : UInt32) :
    Orderly c (setBitrate bitrate) :=
  Triple.update fun _ hs => ⟨⟨hs.1.1, rfl, fun h => absurd hs.2 h⟩, hs.2⟩

theorem respondStreamConfig_orderly (c : Connection) (t : Turn) (requestId : UInt32) :
    Orderly c (respondStreamConfig c t requestId) := by
  refine Triple.read fun s hs s' h => ?_
  rw [h]
  obtain ⟨⟨hanswered, hbitrate, hstate⟩, hauthenticated⟩ := hs
  rcases exec_send t (.control (.streamConfigResponse
    ⟨requestId, activeConfiguration c s.media.activeBitrate⟩)) s with ⟨e, writes, h⟩ | h
  · rw [sendTcpControl, h]
    refine ⟨fun a s' ha => ?_, fun e' s' he => ?_⟩
    · cases ha
    · cases he
      exact ⟨hanswered, fun hgoes => absurd trivial hgoes⟩
  · rw [sendTcpControl, h]
    refine ⟨fun a s' ha => ?_, fun e' s' he => ?_⟩
    · cases ha
      refine ⟨⟨fun x hx response hresponse => ?_, hbitrate, hstate⟩, hauthenticated⟩
      obtain ⟨hmem, hkind⟩ := List.mem_filter.mp hx
      rcases List.mem_append.mp hmem with hold | hnew
      · exact hanswered x (List.mem_filter.mpr ⟨hold, hkind⟩) response hresponse
      · obtain rfl := List.mem_singleton.mp hnew
        cases hresponse
        show activeConfiguration c s.media.activeBitrate = activeConfiguration c _
        rw [hbitrate]
    · cases he

theorem streamConfigRequest_orderly (c : Connection) (t : Turn)
    (req : StreamConfigurationRequest) : Orderly c (streamConfigRequest c t req) := by
  refine Triple.read fun s hs => ?_
  refine Triple.weaken (fun s' h => h ▸ hs) ?_
  split
  · exact orderly_of_quiet (rejectStream_still t _ _ _).quiet
  split
  · exact orderly_of_quiet (rejectStream_still t _ _ _).quiet
  · exact Triple.seq (Triple.when (setBitrate_orderly c _)) fun _ =>
      respondStreamConfig_orderly c t _

theorem applyOptions_orderly (c : Connection) (t : Turn) (request : StreamOptionsRequest)
    (selected : HostDisplay) : Orderly c (applyOptions c t request selected) := by
  refine Triple.read fun s hs => ?_
  refine Triple.weaken (fun s' h => h ▸ hs) ?_
  refine Triple.seq (orderly_of_quiet (handOver_still _ _).quiet) fun _ => ?_
  -- between the two updates the bitrate kept as active is that of the old pipeline
  generalize (if request.bitrate ≠ 0 then request.bitrate else s.media.activeBitrate) = bitrate
  refine Triple.seq (Q := fun _ s => Answered c s ∧ s.media.stream.bitrate = bitrate ∧
    s.admission.state = .authenticated) (Triple.update fun s hs => ⟨hs.1.1, rfl, hs.2⟩) fun _ => ?_
  refine Triple.seq (Triple.when (Triple.attempt fun e s hs => ?_)) fun _ => ?_
  · exact ⟨hs.1, fun hgoes => absurd trivial hgoes⟩
  refine Triple.seq (Q := fun _ => Serving c) (Triple.update fun s hs => ?_) fun _ => ?_
  · exact ⟨⟨hs.1, hs.2.1, fun h => absurd hs.2.2 h⟩, hs.2.2⟩
  refine Triple.seq (Triple.when (Triple.attempt fun e s hs => ?_)) fun _ => ?_
  · exact ⟨hs.1.1, fun hgoes => absurd trivial hgoes⟩
  exact orderly_of_quiet (sendTcpControl_quiet t rfl)

theorem serveControl_orderly (c : Connection) (t : Turn) (s : Session) (m : ControlMessage) :
    Orderly c (serveControl c t s m) := by
  by_cases hplain : isPlain m = true
  · exact orderly_of_quiet (serveControl_still c t s hplain).quiet
  cases m with
  | bitrateAdjust v => exact Triple.when (setBitrate_orderly c _)
  | streamConfigRequest req => exact streamConfigRequest_orderly c t req
  | streamOptionsRequest request =>
    exact streamOptionsRequest_cases c t request
      (fun _ _ => orderly_of_quiet (rejectStream_still t _ _ _).quiet) (Triple.ret fun _ hs => hs)
      (applyOptions_orderly c t request)
  | _ => exact absurd rfl hplain

theorem raise_orderly {α : Type} (c : Connection) (e : Exit) :
    Orderly c (throw e : HostAct α) := Triple.raise fun _ hs => ⟨hs.1.1, fun _ => hs.1⟩

theorem control_orderly (c : Connection) (t : Turn) (payload : List UInt8) :
    Orderly c (control c t payload) := by
  refine Triple.read fun s hs => ?_
  refine Triple.weaken (fun s' h => h ▸ hs) ?_
  refine Triple.seq (Triple.when (raise_orderly c _)) fun _ => ?_
  refine Triple.seq (Q := fun _ => Serving c) ?_ fun m => ?_
  · rcases ControlMessage.decode payload with e | m
    · exact raise_orderly c _
    · exact Triple.ret fun _ hs => hs
  refine Triple.seq (Triple.when (raise_orderly c _)) fun _ => ?_
  exact serveControl_orderly c t s m

/-! ### Admitting the peer -/

/-- Before the peer is authenticated the bitrate is the configured one, and a
pipeline is started as configured. -/
structure Begins (c : Connection) (s s' : Session) : Prop where
  responses : s'.responses = s.responses
  activeBitrate : s'.media.activeBitrate = s.media.activeBitrate
  stream : s'.media.stream = s.media.stream ∨ s'.media.stream = initialStream c.config

instance (c : Connection) : Std.Refl (Begins c) := ⟨fun _ => ⟨rfl, rfl, Or.inl rfl⟩⟩

instance (c : Connection) : IsTrans Session (Begins c) := ⟨fun _ _ _ h h' =>
  ⟨h'.responses.trans h.responses, h'.activeBitrate.trans h.activeBitrate, by
    rcases h'.stream with hsame | hstarted
    · rw [hsame]
      exact h.stream
    · exact Or.inr hstarted⟩⟩

theorem begins_of_view {α : Type} {X : Exit → Prop} {x : HostAct α}
    (hx : Keeps (Same Session.view) X x) : Keeps (Begins c) Any x := by
  refine Keeps.mono hx (fun {s s'} h => ?_) fun _ => trivial
  obtain ⟨-, hmedia, hresponses⟩ := Session.view_eq_iff.mp h
  exact ⟨hresponses, by rw [hmedia], Or.inl (by rw [hmedia])⟩

theorem begins_of_quiet {α : Type} {x : HostAct α} (hx : Quiet x) :
    Keeps (Begins c) Any x := begins_of_view (view_of_quiet hx)

theorem setAdmission_begins (c : Connection) (f : Admission → Admission) :
    Keeps (Begins c) Any (setAdmission f) := Keeps.update fun _ => ⟨rfl, rfl, Or.inl rfl⟩

theorem pairingRequest_begins (c : Connection) (t : Turn) (payload : List UInt8) :
    Keeps (Begins c) Any (pairingRequest c t payload) := by
  refine Keeps.seq (Keeps.when ?_) fun _ => ?_
  · exact Keeps.seq (begins_of_quiet (send_idle t rfl rfl).quiet) fun _ => Keeps.raise trivial
  refine Keeps.seq (Keeps.ofExcept fun _ => trivial) fun request => ?_
  refine Keeps.seq (begins_of_quiet (askConsent_calm c t).quiet) fun approved => ?_
  cases approved with
  | none => exact Keeps.seq (begins_of_quiet (send_idle t rfl rfl).quiet) fun _ => Keeps.raise trivial
  | some trust =>
    refine Keeps.seq (Keeps.ofExcept fun _ => trivial) fun _ => ?_
    refine Keeps.seq (Keeps.when (Keeps.raise trivial)) fun _ => ?_
    refine Keeps.seq (Keeps.update fun _ => ⟨rfl, rfl, Or.inl rfl⟩) fun _ => ?_
    refine Keeps.seq (Keeps.mono (send_media t rfl) (fun {s s'} h => ?_) fun _ => trivial)
      fun _ => setAdmission_begins c _
    obtain ⟨hmedia, hresponses⟩ := Prod.mk.inj h
    exact ⟨hresponses, by rw [hmedia], Or.inl (by rw [hmedia])⟩

theorem startMedia_begins (c : Connection) (t : Turn) :
    Keeps (Begins c) Any (startMedia c t) := by
  refine Keeps.seq (Keeps.attempt fun _ => trivial) fun _ => ?_
  refine Keeps.seq (Keeps.update fun _ => ⟨rfl, rfl, Or.inr rfl⟩) fun _ => ?_
  exact Keeps.update fun _ => ⟨rfl, rfl, Or.inl rfl⟩

theorem join_begins (c : Connection) (t : Turn) (record : PairingRecord) :
    Keeps (Begins c) Any (join c t record) := by
  refine Keeps.seq (setAdmission_begins c _) fun _ => ?_
  refine Keeps.seq Keeps.read fun s => ?_
  refine Keeps.seq (Keeps.update fun _ => ⟨rfl, rfl, Or.inl rfl⟩) fun _ => ?_
  refine Keeps.seq (begins_of_quiet (sendPermissions_still t _).quiet) fun _ => ?_
  refine Keeps.seq (Keeps.update fun _ => ⟨rfl, rfl, Or.inl rfl⟩) fun _ => ?_
  exact setAdmission_begins c _

theorem handshake_begins (c : Connection) (t : Turn) (payload : List UInt8) :
    Keeps (Begins c) Any (handshake c t payload) := by
  refine Keeps.seq Keeps.read fun s => ?_
  refine Keeps.seq (Keeps.when (Keeps.raise trivial)) fun _ => ?_
  refine Keeps.seq (Keeps.ofExcept fun _ => trivial) fun handshake => ?_
  refine Keeps.seq (begins_of_view (knownRecord_view t handshake)) fun record => ?_
  refine Keeps.seq (Keeps.ofExcept fun _ => trivial) fun _ => ?_
  refine Keeps.seq (begins_of_quiet (negotiate_quiet c t handshake)) fun _ => ?_
  refine Keeps.seq ?_ fun _ => ?_
  · refine Keeps.seq Keeps.read fun s => ?_
    refine Keeps.seq (Keeps.when (startMedia_begins c t)) fun _ => ?_
    exact begins_of_quiet (send_idle t rfl rfl).quiet
  refine Keeps.seq (begins_of_quiet (grantTrust_calm t _).quiet) fun _ => ?_
  refine Keeps.seq (begins_of_view (storePairing_view t _ record)) fun _ => ?_
  refine Keeps.seq (join_begins c t record) fun _ => ?_
  refine Keeps.seq Keeps.read fun s => ?_
  refine Keeps.seq (Keeps.when (startMedia_begins c t)) fun _ => ?_
  refine Keeps.seq (Keeps.when ?_) fun _ => Keeps.update fun _ => ⟨rfl, rfl, Or.inl rfl⟩
  refine Keeps.seq (Keeps.update fun _ => ⟨rfl, rfl, Or.inl rfl⟩) fun _ => ?_
  exact begins_of_quiet (sendTcpControl_quiet t rfl)

theorem answers_of_begins {s' : Session} (hs : Answers c s)
    (hstate : s.admission.state ≠ .authenticated) (h : Begins c s s') : Answers c s' := by
  obtain ⟨hanswered, hbitrate, hconfigured⟩ := hs
  have hactive : s'.media.activeBitrate = c.config.bitrate :=
    h.activeBitrate.trans (hconfigured hstate)
  refine ⟨?_, ?_, fun _ => hactive⟩
  · rw [Answered, h.responses]
    exact hanswered
  · rw [hactive]
    rcases h.stream with hsame | hstarted
    · rw [hsame, hbitrate, hconfigured hstate]
    · rw [hstarted]
      rfl

/-! ### Runs -/

/-- What holds of the answers however an iteration ends, and if it is not the last. -/
def AnswersAfter (c : Connection) (o : Except Exit Unit × Session) : Prop :=
  Answered c o.2 ∧ ((∀ e, o.1 = .error e → ¬ e.Ends) → Answers c o.2)

theorem answersAfter_of_answers {o : Except Exit Unit × Session}
    (h : Answers c o.2) : AnswersAfter c o := ⟨h.1, fun _ => h⟩

theorem handle_answers {header : PacketHeader}
    {payload : List UInt8} (hs : Answers c s)
    (hallowed : s.admission.state.allows header.packetType = true) :
    AnswersAfter c ((handle c t header payload).exec s) := by
  rw [handle]
  split
  next htype =>
    rw [htype] at hallowed
    have hstate : s.admission.state ≠ .authenticated := fun h => by rw [h] at hallowed; cases hallowed
    exact answersAfter_of_answers
      (answers_of_begins hs hstate (pairingRequest_begins c t payload s).1)
  next htype =>
    rw [htype] at hallowed
    have hstate : s.admission.state ≠ .authenticated := fun h => by rw [h] at hallowed; cases hallowed
    exact answersAfter_of_answers
      (answers_of_begins hs hstate (handshake_begins c t payload s).1)
  · exact answersAfter_of_answers
      (answers_of_steady hs (steady_of_core (inputEvent_quiet t header payload s).1))
  next htype =>
    rw [htype] at hallowed
    have hstate : s.admission.state = .authenticated := by
      rcases h : s.admission.state <;> rw [h] at hallowed <;> first | rfl | cases hallowed
    obtain ⟨hok, herror⟩ := control_orderly c t payload s ⟨hs, hstate⟩
    rcases hexec : (control c t payload).exec s with ⟨e | u, s'⟩
    · obtain ⟨hanswered, hgoes⟩ := herror e s' hexec
      exact ⟨hanswered, fun h => hgoes (h e rfl)⟩
    · exact answersAfter_of_answers (hok u s' hexec).1
  · exact answersAfter_of_answers hs

theorem dispatch_answers {packet : List UInt8}
    (hs : Answers c s) : AnswersAfter c ((dispatch c t packet).exec s) := by
  have hdispatches := dispatch_cases c t packet s
  generalize (dispatch c t packet).exec s = o at hdispatches
  cases hdispatches with
  | malformed hsplit => exact answersAfter_of_answers hs
  | refused hsplit hrefused he => exact answersAfter_of_answers hs
  | handled hsplit hallowed =>
    apply handle_answers
    · exact hs
    · exact hallowed

theorem iteration_answers (hs : Answers c s) :
    AnswersAfter c ((iteration c t).exec s) := by
  have hiterates := iteration_cases c t s
  generalize (iteration c t).exec s = o at hiterates
  cases hiterates with
  | unread hends hcore => exact answersAfter_of_answers (answers_of_steady hs (steady_of_core hcore))
  | idle hsteady => exact answersAfter_of_answers (answers_of_steady hs hsteady)
  | @stopped packet _ _ hread hsteady hends =>
    have hs₁ : Answers c (s.reading packet) := hs
    exact answersAfter_of_answers (answers_of_steady hs₁ hsteady)
  | @dispatched packet _ hread hsteady =>
    have hs₁ : Answers c (s.reading packet) := hs
    exact dispatch_answers (answers_of_steady hs₁ hsteady)

/-- The answers given so far, and if the session goes on also the bitrate, are in
order. -/
def Loop.Answers (c : Connection) : Loop → Prop
  | running s => Host.Answers c s
  | ended s _ => Answered c s

theorem step_answers {l l' : Loop} (hl : l.Answers c)
    (h : step c l t = some l') : l'.Answers c := by
  cases l with
  | ended s result => cases h
  | running s =>
    obtain rfl : Loop.of ((iteration c t).exec (s.enter t)) = l' := Option.some.inj h
    have hs : Host.Answers c (s.enter t) := hl
    have hafter := iteration_answers (t := t) hs
    generalize (iteration c t).exec (s.enter t) = o at hafter
    obtain ⟨hanswered, hgoes⟩ := hafter
    rcases o with ⟨(- | - | error) | u, s'⟩
    · exact hgoes fun e he => by cases he; exact id
    · exact hanswered
    · exact hanswered
    · exact hgoes fun e he => by cases he

/-- **A configuration response tells the running stream exactly when that stream
has the configured size and rate.** -/
theorem response_truthful {c : Connection} {policy : HostPolicy} {displays : List HostDisplay}
    {now : ℕ} {disk : Disk} {ts : List Turn} {l : Loop} {stream : Stream}
    {response : StreamConfigurationResponse}
    (h : Machine.run (step c) (Loop.start c policy displays now disk) ts = some l)
    (hsent : (stream, .control (.streamConfigResponse response)) ∈ l.session.sent) :
    Truthful stream response.active ↔ AsConfigured c stream := by
  have hstart : (Loop.start c policy displays now disk).Answers c :=
    ⟨fun x hx => (List.not_mem_nil hx).elim, rfl, fun _ => rfl⟩
  have hl : l.Answers c := Machine.run_inv step_answers hstart h
  have hanswered : Answered c l.session := by
    cases l with
    | running s => exact hl.1
    | ended s result => exact hl
  have hactive := hanswered _ (List.mem_filter.mpr ⟨hsent, rfl⟩) response rfl
  rw [hactive, Truthful, AsConfigured, activeConfiguration]
  simp

/-! ### Answers -/

/-- A peer asks for the configuration, after what `frames` asks for. -/
def configurationTurns (frames : List (List UInt8)) : List Turn :=
  ([exampleHandshake] ++ frames ++ [frame .control
    [7, 2, 0, 0, 0, 128, 7, 0, 0, 56, 4, 0, 0, 0, 45, 49, 1, 60, 0]]).map fun packet =>
    { Turn.idle exampleDisk with
      read := .ok (some packet)
      control := ⟨true, .accepted, none, none, [⟨0, 1920, 1080, true, "DP-1"⟩], true, none, none,
        0⟩ }

/-- Half the size at 30 frames a second. -/
def exampleOptions : List UInt8 :=
  frame .control [15, 1, 0, 0, 0, 244, 1, 30, 0, 0, 0, 0, 0, 0, 0]

theorem response_truthful_initial : ∃ l,
    Machine.run (step (exampleConnection true))
      (Loop.start (exampleConnection true) ⟨true, true⟩ [] 0 exampleDisk)
      (configurationTurns []) = some l ∧
    (⟨1920, 1080, 60, 20000000⟩, .control (.streamConfigResponse
      ⟨2, ⟨1920, 1080, 20000000, 60⟩⟩)) ∈ l.session.sent ∧
    Truthful ⟨1920, 1080, 60, 20000000⟩ ⟨1920, 1080, 20000000, 60⟩ := by
  obtain ⟨l, hrun, hsent⟩ : ∃ l, Machine.run (step (exampleConnection true))
      (Loop.start (exampleConnection true) ⟨true, true⟩ [] 0 exampleDisk)
      (configurationTurns []) = some l ∧
      (⟨1920, 1080, 60, 20000000⟩, .control (.streamConfigResponse
        ⟨2, ⟨1920, 1080, 20000000, 60⟩⟩)) ∈ l.session.sent :=
    ⟨_, rfl, List.mem_of_getElem? (i := 1) rfl⟩
  exact ⟨l, hrun, hsent, (response_truthful hrun hsent).mpr ⟨rfl, rfl, rfl⟩⟩

/-- After the options were applied the answer is still about the configuration. -/
theorem response_after_options : ∃ l,
    Machine.run (step (exampleConnection true))
      (Loop.start (exampleConnection true) ⟨true, true⟩ [] 0 exampleDisk)
      (configurationTurns [exampleOptions]) = some l ∧
    (⟨960, 540, 30, 20000000⟩, .control (.streamConfigResponse
      ⟨2, ⟨1920, 1080, 20000000, 60⟩⟩)) ∈ l.session.sent ∧
    ¬ Truthful ⟨960, 540, 30, 20000000⟩ ⟨1920, 1080, 20000000, 60⟩ := by
  refine ⟨_, rfl, List.mem_of_getElem? (i := 2) rfl, ?_⟩
  rintro ⟨hwidth, -⟩
  exact absurd hwidth (by decide)

end MahoRD.Host

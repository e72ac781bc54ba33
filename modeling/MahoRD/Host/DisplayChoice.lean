/-
MahoRD/Host/DisplayChoice.lean

Which display is streamed (`handle_connection`).  The client asks for a position in the list of
displays that it was told last; the host looks the position up in the list that it enumerates when
the request arrives.  Lists are told at the handshake, and by the check of the displays when the
list is another than at the check before.
-/
import MahoRD.Host.Loop

namespace MahoRD.Host

open Act

/-! ### What the client knows -/

def News.list : News → Option (List HostDisplay)
  | displays list => some list
  | active _ => none

def News.stream : News → Option StreamOptionsActive
  | displays _ => none
  | active stream => some stream

/-- The list of displays that was told last. -/
def told (news : List News) : Option (List HostDisplay) := (news.filterMap News.list).getLast?

@[simp] theorem told_active (news : List News) (active : StreamOptionsActive) :
    told (news ++ [.active active]) = told news := by
  simp [told, News.list]

/-- What was said of the streams. -/
def Session.streams (s : Session) : List StreamOptionsActive := s.news.filterMap News.stream

/-- The output that a list names at a position. -/
def named (displays : Option (List HostDisplay)) (index : UInt8) : Option String :=
  displays.bind fun displays => displays[index.toNat]?.map HostDisplay.name

/-- The displays are checked in this iteration. -/
def Due (t : Turn) (s : Session) : Prop :=
  t.mediaFailed = true ∨
    s.admission.state = .authenticated ∧ s.media.topologyCheck ≤ t.topology.now

instance (t : Turn) (s : Session) : Decidable (Due t s) := inferInstanceAs (Decidable (_ ∨ _))

/-- The list that the check tells. -/
def tells (t : Turn) (s : Session) : List News :=
  if Due t s ∧ s.peerHasStreamOptions = true ∧ t.topology.displays ≠ s.media.topology then
    [.displays t.topology.displays]
  else []

/-- The list that is enumerated for the request names, at its position, the output that the list
told last names there. -/
def UpToDate (t : Turn) (s : Session) (request : StreamOptionsRequest) : Prop :=
  named (some t.control.displays) request.displayIndex =
    named (told (s.news ++ tells t s)) request.displayIndex

/-- In this iteration the request is dispatched, and the last packet written is the answer. -/
structure Accepts (c : Connection) (t : Turn) (s s' : Session) (request : StreamOptionsRequest)
    (active : StreamOptionsActive) : Prop where
  step : step c (.running s) t = some (.running s')
  frame : ∃ packet header payload,
    s'.packets = s.packets ++ [PacketEvent.read packet, PacketEvent.dispatched packet] ∧
    splitPacket packet = .ok (header, payload) ∧ header.packetType = .control ∧
    ControlMessage.decode payload = .ok (.streamOptionsRequest request)
  answer : ∃ stream, s'.sent.getLast? = some (stream, .control (.streamOptionsActive active))

/-! ### What an action does to the choice -/

/-- The output of the last pipeline, and what the client was told. -/
structure Choice where
  output : Option String
  state : SessionState
  news : List News
  options : Bool

def Session.choice (s : Session) : Choice :=
  ⟨s.media.selectedOutput, s.admission.state, s.news, s.peerHasStreamOptions⟩

variable {s s' : Session} {k k' : Choice} {c : Connection} {r : Except Exit Unit} {t : Turn}

theorem choice_of_shown (h : s'.shown = s.shown) : s'.choice = s.choice := by
  obtain ⟨hcore, hnews, hoptions⟩ := Session.shown_eq_iff.mp h
  obtain ⟨hview, -⟩ := Prod.mk.inj hcore
  obtain ⟨hentry, hmedia, -⟩ := Session.view_eq_iff.mp hview
  obtain ⟨hadmission, -⟩ := Session.entry_eq_iff.mp hentry
  rw [Session.choice, Session.choice, hmedia, hadmission, hnews, hoptions]

theorem Calm.choice {α : Type} {x : HostAct α} (hx : Calm x) :
    Keeps (Same Session.choice) Exit.Ends x := Keeps.mono hx choice_of_shown fun h => h

theorem news_sent (s : Session) (writes : ℕ) (stream : Stream) (p : Sent) :
    Session.news { s with writes, sent := s.sent ++ [(stream, p)] } = s.news ++ p.news.toList := by
  show List.filterMap _ (s.sent ++ [(stream, p)]) = _
  rw [List.filterMap_append, Session.news]
  cases hnews : p.news <;> simp [hnews]

theorem sendTcpControl_choice (t : Turn) (m : ControlMessage) (k : Choice) :
    Triple (fun s => s.choice = k) (sendTcpControl t m)
      (fun _ s => s.choice = { k with news := k.news ++ (Sent.control m).news.toList })
      (fun e _ => e.Ends) := by
  rintro s rfl
  have hsend := exec_send t (.control m) s
  rcases hexec : (send t (.control m)).exec s with ⟨r, s₁⟩
  rw [hexec] at hsend
  refine ⟨fun u s' h => ?_, fun e s' h => ?_⟩
  all_goals
    obtain ⟨rfl, rfl⟩ := Prod.mk.inj (hexec.symm.trans h)
  · obtain ⟨e, writes, herror⟩ | hok := hsend
    · cases (Prod.mk.inj herror).1
    · rw [(Prod.mk.inj hok).2, Session.choice, news_sent]
      rfl
  · obtain ⟨e, writes, herror⟩ | hok := hsend
    · cases (Prod.mk.inj herror).1
      trivial
    · cases (Prod.mk.inj hok).1

theorem choice_seq {α β : Type} {x : HostAct α} {f : α → HostAct β}
    {Q : β → Session → Prop} {E : Exit → Session → Prop} (hE : ∀ {e s}, e.Ends → E e s)
    (hx : Keeps (Same Session.choice) Exit.Ends x)
    (hf : ∀ a, Triple (fun s => s.choice = k) (f a) Q E) :
    Triple (fun s => s.choice = k) (x >>= f) Q E :=
  Triple.seq (Keeps.triple hx (fun hs h => Eq.trans h hs) fun _ _ hends => hE hends) hf

/-! ### The check of the displays -/

/-- A new pipeline has been started, and a client that knows of stream options is told. -/
structure Restarted (k k' : Choice) : Prop where
  state : k'.state = k.state
  options : k'.options = k.options
  news : if k.options = true then ∃ active, k'.news = k.news ++ [.active active]
    else k'.news = k.news

theorem recover_choice (c : Connection) (t : Turn) (k : Choice) :
    Triple (fun s => s.choice = k) (recover c t) (fun _ s => Restarted k s.choice)
      (fun e s => e.Ends ∨ s.choice = k) := by
  refine Triple.read fun s hs => Triple.weaken (fun s' h => h ▸ hs) ?_
  refine Triple.seq (Triple.when (Triple.raise fun _ hk => Or.inr hk)) fun _ => ?_
  refine choice_seq Or.inl (Keeps.required trivial) fun display => ?_
  refine choice_seq Or.inl (Keeps.attempt fun _ => trivial) fun _ => ?_
  refine choice_seq Or.inl (Keeps.when (Keeps.raise trivial)) fun _ => ?_
  refine choice_seq Or.inl (handOver_still _ _).calm.choice fun _ => ?_
  set k' : Choice := { k with output := some display.name }
  refine Triple.seq (Q := fun _ s => s.choice = k') (Triple.update fun s hk => ?_) fun _ => ?_
  · subst hk
    rfl
  refine choice_seq Or.inl (Keeps.when (Keeps.attempt fun _ => trivial)) fun _ => ?_
  have hoptions : s.peerHasStreamOptions = k.options := by rw [← hs]; rfl
  rw [hoptions, Act.when]
  split
  next htrue =>
    refine Triple.imp (sendTcpControl_choice t _ k') (fun {_ s'} h => ?_) Or.inl
    rw [h]
    refine ⟨rfl, rfl, ?_⟩
    rw [if_pos htrue]
    exact ⟨_, rfl⟩
  next hfalse =>
    refine Triple.ret fun s₁ hs₁ => ?_
    rw [hs₁]
    exact ⟨rfl, rfl, by rw [if_neg hfalse]⟩

/-- The choice once the list was told, if it was. -/
def Session.told (s : Session) (t : Turn) : Choice := { s.choice with news := s.news ++ tells t s }

theorem checkTopology_choice (c : Connection) (t : Turn) (s : Session) :
    Triple (· = s) (checkTopology c t)
      (fun _ s' => s'.choice = s.told t ∨ Restarted (s.told t) s'.choice)
      (fun e s' => e.Ends ∨ s'.choice = s.told t) := by
  refine Triple.read fun s₀ hs₀ => ?_
  subst hs₀
  by_cases hdue : Due t s₀
  · have hwhen : ∀ x : HostAct Unit, when (t.mediaFailed ∨ s₀.admission.state = .authenticated ∧
        s₀.media.topologyCheck ≤ t.topology.now) x = x := fun x => if_pos hdue
    rw [hwhen]
    refine Triple.weaken (P := fun s => s.choice = s₀.choice) (fun s h => by rw [h]) ?_
    refine choice_seq Or.inl (Keeps.update fun _ => rfl) fun _ => ?_
    refine choice_seq Or.inl (Keeps.when (Keeps.raise trivial)) fun _ => ?_
    refine Triple.seq (Q := fun _ s => s.choice = s₀.told t) ?_ fun _ => ?_
    · rw [Act.when, Session.told, tells]
      split
      next htell =>
        rw [if_pos ⟨hdue, by simpa using htell⟩]
        exact Triple.imp (sendTcpControl_choice t _ _) (fun h => h) Or.inl
      next hsilent =>
        rw [if_neg fun h => hsilent (by simpa using h.2)]
        refine Triple.ret fun s hs => ?_
        rw [hs, List.append_nil]
        rfl
    refine choice_seq Or.inl (Keeps.update fun _ => rfl) fun _ => ?_
    rw [Act.when]
    split
    · exact Triple.imp (recover_choice c t _) Or.inr fun h => h
    · exact Triple.ret fun s hs => Or.inl hs
  · have hwhen : ∀ x : HostAct Unit, when (t.mediaFailed ∨ s₀.admission.state = .authenticated ∧
        s₀.media.topologyCheck ≤ t.topology.now) x = pure () := fun x => if_neg hdue
    rw [hwhen]
    refine Triple.ret fun s hs => Or.inl ?_
    rw [hs, Session.told, tells, if_neg fun h => hdue h.1, List.append_nil]
    rfl

theorem told_of_shown (t : Turn) (h : s'.shown = s.shown) :
    s'.told t = s.told t := by
  obtain ⟨hcore, hnews, hoptions⟩ := Session.shown_eq_iff.mp h
  obtain ⟨hview, -⟩ := Prod.mk.inj hcore
  obtain ⟨hentry, hmedia, -⟩ := Session.view_eq_iff.mp hview
  obtain ⟨hadmission, -⟩ := Session.entry_eq_iff.mp hentry
  have hdue : Due t s' ↔ Due t s := by rw [Due, Due, hmedia, hadmission]
  have htells : tells t s' = tells t s := by simp only [tells, hdue, hoptions, hmedia]
  rw [Session.told, Session.told, choice_of_shown h, hnews, htells]

theorem prepare_choice (c : Connection) (t : Turn) (packet : Option (List UInt8)) (s : Session) :
    Triple (· = s) (prepare c t packet)
      (fun _ s' => s'.choice = s.told t ∨ Restarted (s.told t) s'.choice)
      (fun e s' => e.Ends ∨ s'.choice = s.told t) := by
  set P : Session → Prop := fun s' => s'.choice = s.told t ∨ Restarted (s.told t) s'.choice
  have hrest : ∀ {x : HostAct Unit}, Keeps (Same Session.choice) Exit.Ends x →
      Triple P x (fun _ => P) (fun e s' => e.Ends ∨ s'.choice = s.told t) := fun hx =>
    Keeps.triple hx (fun hs h => by
      show _ ∨ _
      rw [h]
      exact hs) fun _ _ hends => Or.inl hends
  refine Triple.seq (Q := fun _ s' => s'.shown = s.shown) ?_ fun _ => ?_
  · refine Keeps.triple (checkHangUp_still packet).calm (fun hs h => ?_) fun _ _ => Or.inl
    rw [← hs]
    exact h
  refine Triple.seq (Q := fun _ => P) (fun s₁ hs₁ => ?_) fun _ => ?_
  · have hcheck := checkTopology_choice c t s₁ s₁ rfl
    rw [told_of_shown t hs₁] at hcheck
    exact hcheck
  refine Triple.seq (hrest (checkAdmission_still c t).calm.choice) fun _ => ?_
  exact hrest (housekeeping_calm c t).choice

/-! ### The answer -/

theorem iteration_prepared
    {event event' : PacketEvent} (hexec : (iteration c t).exec s = (r, s'))
    (hpackets : s'.packets = s.packets ++ [event, event']) :
    ∃ packet s₁, (prepare c t (some packet)).exec (s.reading packet) = (.ok (), s₁) ∧
      (dispatch c t packet).exec s₁ = (r, s') := by
  rw [iteration, exec_bind] at hexec
  rcases readPacket_cases t s with ⟨hcore, e, -, he⟩ | hread | ⟨packet, -, hread⟩
  · rcases hread : (readPacket t).exec s with ⟨r₁, s₁⟩
    rw [hread] at hcore he hexec
    cases he
    obtain ⟨-, rfl⟩ := Prod.mk.inj hexec
    rw [(steady_of_core hcore).packets] at hpackets
    simp at hpackets
  · rw [hread] at hexec
    have hsteady := (prepare_steady c t none s).1.packets
    have hexec : (prepare c t none >>= fun _ => pure ()).exec s = (r, s') := hexec
    rw [exec_bind] at hexec
    rcases hprepare : (prepare c t none).exec s with ⟨e | u, s₁⟩ <;>
      rw [hprepare] at hexec hsteady <;> obtain ⟨-, rfl⟩ := Prod.mk.inj hexec <;>
      rw [hsteady] at hpackets <;> simp at hpackets
  · rw [hread] at hexec
    have hsteady := (prepare_steady c t (some packet) (s.reading packet)).1.packets
    have hexec : (prepare c t (some packet) >>= fun _ => dispatch c t packet).exec
        (s.reading packet) = (r, s') := hexec
    rw [exec_bind] at hexec
    rcases hprepare : (prepare c t (some packet)).exec (s.reading packet) with ⟨e | u, s₁⟩
    · rw [hprepare] at hexec hsteady
      obtain ⟨-, rfl⟩ := Prod.mk.inj hexec
      have hlog : s₁.packets = s.packets ++ [PacketEvent.read packet] := hsteady
      rw [hlog] at hpackets
      simp at hpackets
    · rw [hprepare] at hexec
      exact ⟨packet, s₁, hprepare, hexec⟩

theorem iteration_dispatched
    {packet : List UInt8} (hexec : (iteration c t).exec s = (r, s'))
    (hpackets : s'.packets = s.packets ++ [PacketEvent.read packet, PacketEvent.dispatched packet]) :
    ∃ s₁ header payload, (prepare c t (some packet)).exec (s.reading packet) = (.ok (), s₁) ∧
      splitPacket packet = .ok (header, payload) ∧
      s₁.admission.state.allows header.packetType = true ∧
      (handle c t header payload).exec
        { s₁ with packets := s₁.packets ++ [PacketEvent.dispatched packet] } = (r, s') := by
  obtain ⟨packet', s₁, hprepare, hdispatch⟩ := iteration_prepared hexec hpackets
  have hlog : s₁.packets = s.packets ++ [PacketEvent.read packet'] := by
    have hsteady := (prepare_steady c t (some packet') (s.reading packet')).1.packets
    rw [hprepare] at hsteady
    exact hsteady
  have hdispatches := dispatch_cases c t packet' s₁
  generalize (dispatch c t packet').exec s₁ = o at hdispatches hdispatch
  cases hdispatches with
  | malformed hsplit =>
    obtain ⟨-, rfl⟩ := Prod.mk.inj hdispatch
    rw [hlog] at hpackets
    simp at hpackets
  | refused hsplit hrefused he =>
    obtain ⟨-, rfl⟩ := Prod.mk.inj hdispatch
    simp [hlog] at hpackets
  | @handled header payload hsplit hallowed =>
    have hpacket : packet' = packet := by
      have hs' := (handle_packets c t header payload
        { s₁ with packets := s₁.packets ++ [PacketEvent.dispatched packet'] }).1
      rw [hdispatch] at hs'
      have hs' : s'.packets = s₁.packets ++ [PacketEvent.dispatched packet'] := hs'
      rw [hlog, hpackets] at hs'
      simpa using hs'.symm
    subst hpacket
    exact ⟨s₁, header, payload, hprepare, hsplit, hallowed, hdispatch⟩

theorem index_lt_of_validate {request : StreamOptionsRequest} {displays : List HostDisplay}
    (h : validateStreamOptions request displays = .ok ()) :
    request.displayIndex.toNat < displays.length := by
  rw [validateStreamOptions] at h
  split at h
  · cases h
  split at h
  · cases h
  split at h
  · cases h
  next hlt => exact not_le.mp hlt

theorem streamOptionsRequest_eq (c : Connection) (t : Turn) (request : StreamOptionsRequest) :
    (∃ reason message,
      streamOptionsRequest c t request = rejectStream t request.requestId reason message) ∨
    ∃ selected, t.control.displays[request.displayIndex.toNat]? = some selected ∧
      streamOptionsRequest c t request = applyOptions c t request selected := by
  rw [streamOptionsRequest]
  rcases hvalid : validateStreamOptions request t.control.displays with ⟨reason, message⟩ | ⟨⟨⟩⟩
  · exact Or.inl ⟨reason, message, rfl⟩
  have hlt := index_lt_of_validate hvalid
  rw [List.getElem?_eq_getElem hlt]
  show (∃ reason message, restartStream c t request _ = _) ∨ ∃ selected, _ ∧
    restartStream c t request _ = _
  rw [restartStream]
  split
  · exact Or.inl ⟨_, _, rfl⟩
  split
  · exact Or.inl ⟨_, _, rfl⟩
  split
  · exact Or.inl ⟨_, _, rfl⟩
  rcases t.control.start with - | error
  · exact Or.inr ⟨_, rfl, rfl⟩
  · exact Or.inl ⟨_, _, rfl⟩

theorem applyOptions_choice (c : Connection) (t : Turn) (request : StreamOptionsRequest)
    (selected : HostDisplay) (k : Choice) :
    Triple (fun s => s.choice = k) (applyOptions c t request selected)
      (fun _ s => ∃ active, s.choice = { k with
        output := some selected.name
        news := k.news ++ [.active active] }) (fun e _ => e.Ends) := by
  refine Triple.read fun s hs => Triple.weaken (fun s' h => h ▸ hs) ?_
  refine choice_seq id (handOver_still _ _).calm.choice fun _ => ?_
  refine choice_seq id (Keeps.update fun _ => rfl) fun _ => ?_
  refine choice_seq id (Keeps.when (Keeps.attempt fun _ => trivial)) fun _ => ?_
  set k' : Choice := { k with output := some selected.name }
  refine Triple.seq (Q := fun _ s => s.choice = k') (Triple.update fun s hk => ?_) fun _ => ?_
  · subst hk
    rfl
  refine choice_seq id (Keeps.when (Keeps.attempt fun _ => trivial)) fun _ => ?_
  exact Triple.imp (sendTcpControl_choice t _ k') (fun h => ⟨_, h⟩) fun h => h

theorem sendTcpControl_last {m : ControlMessage}
    (hexec : (sendTcpControl t m).exec s = (r, s')) :
    (∃ e, r = .error (.fail e)) ∨ ∃ stream, s'.sent.getLast? = some (stream, .control m) := by
  obtain ⟨e, writes, hsend⟩ | hsend := exec_send t (.control m) s
  · exact Or.inl ⟨e, (Prod.mk.inj (hexec.symm.trans hsend)).1⟩
  · refine Or.inr ⟨s.media.stream, ?_⟩
    rw [(Prod.mk.inj (hexec.symm.trans hsend)).2]
    exact List.getLast?_concat

theorem Restarted.told (h : Restarted k k') : Host.told k'.news = Host.told k.news := by
  have hnews := h.news
  split at hnews
  · obtain ⟨active, hnews⟩ := hnews
    rw [hnews, told_active]
  · rw [hnews]

theorem control_options {payload : List UInt8}
    {request : StreamOptionsRequest} (hstate : s.admission.state = .authenticated)
    (hdecode : ControlMessage.decode payload = .ok (.streamOptionsRequest request)) :
    (control c t payload).exec s = (streamOptionsRequest c t request).exec s := by
  have hserves : ¬ s.admission.state ≠ .authenticated := fun h => h hstate
  rw [control, exec_bind]
  show Act.exec (_ >>= fun _ => _) s = _
  rw [exec_bind, Act.when, if_neg hserves]
  show Act.exec (_ >>= fun _ => _) s = _
  rw [hdecode]
  rfl

theorem allows_control {state : SessionState} (h : state.allows .control = true) :
    state = .authenticated := by
  cases state <;> first | rfl | cases h

theorem of_eq_running {o : Except Exit Unit × Session}
    (h : Loop.of o = .running s) : (o.1 = .ok () ∨ o.1 = .error .next) ∧ o.2 = s := by
  obtain ⟨(- | - | e) | ⟨⟨⟩⟩, s'⟩ := o
  · exact ⟨Or.inr rfl, Loop.running.inj h⟩
  · cases h
  · cases h
  · exact ⟨Or.inl rfl, Loop.running.inj h⟩

/-- The output of an accepted request is the one that the enumerated list names. -/
theorem Accepts.applied
    {request : StreamOptionsRequest} {active : StreamOptionsActive}
    (h : Accepts c t s s' request active) : ∃ selected,
      t.control.displays[request.displayIndex.toNat]? = some selected ∧
      s'.media.selectedOutput = some selected.name ∧
      told s'.news = told (s.news ++ tells t s) ∧
      s'.peerHasStreamOptions = s.peerHasStreamOptions ∧
      s'.admission.state = .authenticated := by
  obtain ⟨packet, header, payload, hpackets, hsplit, htype, hdecode⟩ := h.frame
  obtain ⟨stream, hanswer⟩ := h.answer
  have hrunning := of_eq_running (Option.some.inj h.step)
  rcases hexec : (iteration c t).exec (s.enter t) with ⟨r, s''⟩
  rw [hexec] at hrunning
  obtain ⟨hr, rfl⟩ := hrunning
  obtain ⟨s₁, header', payload', hprepare, hsplit', hallowed, hhandle⟩ :=
    iteration_dispatched hexec hpackets
  obtain ⟨rfl, rfl⟩ := Prod.mk.inj (Except.ok.inj (hsplit.symm.trans hsplit'))
  rw [htype] at hallowed
  generalize hs₂ : ({ s₁ with packets := _ } : Session) = s₂ at hhandle
  have hchoice₂ : s₂.choice = s₁.choice := by rw [← hs₂]; rfl
  have hstate : s₂.admission.state = .authenticated := by
    rw [← hs₂]
    exact allows_control hallowed
  rw [handle, htype] at hhandle
  have hserved := (control_options (c := c) (t := t) hstate hdecode).symm.trans hhandle
  rcases streamOptionsRequest_eq c t request with ⟨reason, message, heq⟩ | ⟨selected, hselected, heq⟩
  · rw [heq] at hserved
    rcases sendTcpControl_last hserved with ⟨e, rfl⟩ | ⟨stream', hlast⟩
    · rcases hr with hr | hr <;> cases hr
    · cases hanswer.symm.trans hlast
  · rw [heq] at hserved
    have happly := applyOptions_choice c t request selected s₁.choice s₂ hchoice₂
    rcases hr with rfl | rfl
    · obtain ⟨active', hchoice⟩ := happly.1 () s'' hserved
      obtain ⟨houtput, hstate', hnews, hoptions⟩ := Choice.mk.inj hchoice
      have hbefore := (prepare_choice c t (some packet) ((s.enter t).reading packet)
        ((s.enter t).reading packet) rfl).1 () s₁ hprepare
      refine ⟨selected, hselected, houtput, ?_, ?_, hstate'.trans (allows_control hallowed)⟩
      · rw [hnews, told_active]
        rcases hbefore with hsame | hrestarted
        · exact congrArg (fun k => told k.news) hsame
        · exact hrestarted.told
      · rw [hoptions]
        rcases hbefore with hsame | hrestarted
        · exact congrArg Choice.options hsame
        · exact hrestarted.options
    · cases happly.2 .next s'' hserved

/-! ### An iteration -/

theorem dispatch_triple {packet : List UInt8} {P : Session → Prop}
    {Q : Unit → Session → Prop} {E : Exit → Session → Prop}
    (hP : ∀ {s : Session} {packets}, P s → P { s with packets }) (hends : ∀ {e s}, e.Ends → E e s)
    (hnext : ∀ {s}, P s → E .next s)
    (hhandle : ∀ header payload,
      Triple (fun s => P s ∧ s.admission.state.allows header.packetType = true)
        (handle c t header payload) Q E) : Triple P (dispatch c t packet) Q E := by
  intro s hs
  have hdispatches := dispatch_cases c t packet s
  generalize (dispatch c t packet).exec s = o at hdispatches
  cases hdispatches with
  | malformed hsplit =>
    refine ⟨fun u s' h => ?_, fun e s' h => ?_⟩ <;> obtain ⟨hr, rfl⟩ := Prod.mk.inj h
    · cases hr
    · cases hr
      exact hends trivial
  | refused hsplit hrefused he =>
    refine ⟨fun u s' h => ?_, fun e s' h => ?_⟩ <;> obtain ⟨hr, rfl⟩ := Prod.mk.inj h
    · cases hr
    · rw [Except.error.injEq, he] at hr
      split at hr <;> cases hr
      · exact hends trivial
      · exact hnext (hP hs)
  | handled hsplit hallowed => exact hhandle _ _ _ ⟨hP hs, hallowed⟩

/-- A request of an authenticated peer leaves the choice alone, or another stream is started and
told. -/
def Chosen (k k' : Choice) : Prop :=
  k' = k ∨ ∃ output active, k' = { k with output, news := k.news ++ [.active active] }

theorem streamConfigRequest_choice (c : Connection) (t : Turn) (req : StreamConfigurationRequest) :
    Keeps (Same Session.choice) Exit.Ends (streamConfigRequest c t req) := by
  refine Keeps.seq Keeps.read fun s => ?_
  split
  · exact (rejectStream_still t _ _ _).calm.choice
  apply Keeps.ite
  · exact (rejectStream_still t _ _ _).calm.choice
  · refine Keeps.seq (Keeps.when (Keeps.update fun _ => rfl)) fun _ => ?_
    refine Keeps.seq Keeps.read fun s => send_same t (fun _ => rfl) fun s => ?_
    rw [Session.choice]
    show Choice.mk _ _ (Session.news { s with writes := s.writes, sent := _ }) _ = s.choice
    rw [news_sent]
    exact congrArg (Choice.mk _ _ · _) (List.append_nil _)

theorem serveControl_choice (c : Connection) (t : Turn) (s : Session) (m : ControlMessage)
    (k : Choice) : Triple (fun s => s.choice = k) (serveControl c t s m)
      (fun _ s => Chosen k s.choice) (fun e _ => e.Ends) := by
  have hkept : ∀ {x : HostAct Unit}, Keeps (Same Session.choice) Exit.Ends x →
      Triple (fun s => s.choice = k) x (fun _ s => Chosen k s.choice) (fun e _ => e.Ends) :=
    fun hx => Keeps.triple hx (fun hs h => Or.inl (Eq.trans h hs)) fun _ _ hends => hends
  by_cases hplain : isPlain m = true
  · exact hkept (serveControl_still c t s hplain).calm.choice
  cases m with
  | bitrateAdjust v => exact hkept (Keeps.when (Keeps.update fun _ => rfl))
  | streamConfigRequest req => exact hkept (streamConfigRequest_choice c t req)
  | streamOptionsRequest request =>
    show Triple _ (streamOptionsRequest c t request) _ _
    rcases streamOptionsRequest_eq c t request with ⟨reason, message, heq⟩ | ⟨selected, -, heq⟩
    · rw [heq]
      exact hkept (rejectStream_still t _ _ _).calm.choice
    · rw [heq]
      exact Triple.imp (applyOptions_choice c t request selected k)
        (fun ⟨active, h⟩ => Or.inr ⟨_, active, h⟩) fun h => h
  | _ => exact absurd rfl hplain

theorem control_choice (c : Connection) (t : Turn) (payload : List UInt8) (k : Choice) :
    Triple (fun s => s.choice = k) (control c t payload) (fun _ s => Chosen k s.choice)
      (fun e s => e.Ends ∨ s.choice = k) := by
  refine Triple.read fun s hs => Triple.weaken (fun s' h => h ▸ hs) ?_
  refine Triple.seq (Triple.when (Triple.raise fun _ hk => Or.inr hk)) fun _ => ?_
  refine choice_seq Or.inl (Keeps.ofExcept fun _ => trivial) fun m => ?_
  refine choice_seq Or.inl (Keeps.when (Keeps.raise trivial)) fun _ => ?_
  exact Triple.imp (serveControl_choice c t s m k) (fun h => h) Or.inl

/-- What the check of the displays and the dispatch keep is kept by the iteration. -/
theorem iteration_triple {R : Choice → Prop}
    (htold : R (s.told t)) (hrestarted : ∀ {k}, Restarted (s.told t) k → R k)
    (hdispatch : ∀ packet, Triple (fun s => R s.choice) (dispatch c t packet)
      (fun _ s => R s.choice) (fun e s => e.Ends ∨ R s.choice)) :
    Triple (· = s) (iteration c t) (fun _ s => R s.choice) (fun e s => e.Ends ∨ R s.choice) := by
  have hprepare : ∀ packet s₁, s₁.told t = s.told t → Triple (· = s₁) (prepare c t packet)
      (fun _ s => R s.choice) (fun e s => e.Ends ∨ R s.choice) := by
    intro packet s₁ hs₁
    refine Triple.imp (prepare_choice c t packet s₁) (fun h => ?_) (fun h => ?_)
    · rw [hs₁] at h
      rcases h with hsame | h
      · rw [hsame]
        exact htold
      · exact hrestarted h
    · rw [hs₁] at h
      rcases h with hends | hsame
      · exact Or.inl hends
      · rw [hsame]
        exact Or.inr htold
  rintro s₀ rfl
  rw [iteration, exec_bind]
  rcases readPacket_cases t s₀ with ⟨-, e, hends, he⟩ | hread | ⟨packet, -, hread⟩
  · rcases hread : (readPacket t).exec s₀ with ⟨r, s₁⟩
    rw [hread] at he
    cases he
    refine ⟨fun u s' h => ?_, fun e' s' h => ?_⟩ <;> obtain ⟨hr, rfl⟩ := Prod.mk.inj h <;> cases hr
    exact Or.inl hends
  · rw [hread]
    exact Triple.seq (hprepare none s₀ rfl) (fun _ => Triple.ret fun _ h => h) s₀ rfl
  · rw [hread]
    exact Triple.seq (hprepare (some packet) (s₀.reading packet) rfl) (fun _ => hdispatch packet)
      (s₀.reading packet) rfl

theorem step_running {R : Choice → Prop}
    (h : Triple (· = s.enter t) (iteration c t) (fun _ s => R s.choice)
      (fun e s => e.Ends ∨ R s.choice))
    (hstep : step c (.running s) t = some (.running s')) : R s'.choice := by
  obtain ⟨hr, hs'⟩ := of_eq_running (Option.some.inj hstep)
  rcases hexec : (iteration c t).exec (s.enter t) with ⟨r, s''⟩
  rw [hexec] at hr hs'
  obtain rfl : s'' = s' := hs'
  rcases hr with rfl | rfl
  · exact (h _ rfl).1 () s'' hexec
  · rcases (h _ rfl).2 .next s'' hexec with hends | hR
    · cases hends
    · exact hR

/-! ### Until another stream is told -/

/-- Only with a new stream that is told is there another output. -/
structure Follows (k k' : Choice) : Prop where
  state : k'.state = k.state
  options : k'.options = k.options
  news : ∃ new, k'.news = k.news ++ new ∧ (k'.output = k.output ∨ ∃ active, .active active ∈ new)

theorem Follows.refl (k : Choice) : Follows k k := ⟨rfl, rfl, [], (List.append_nil _).symm, Or.inl rfl⟩

theorem Follows.trans {k₁ k₂ k₃ : Choice} (h : Follows k₁ k₂) (h' : Follows k₂ k₃) :
    Follows k₁ k₃ := by
  obtain ⟨new, hnew, hcase⟩ := h.news
  obtain ⟨new', hnew', hcase'⟩ := h'.news
  refine ⟨h'.state.trans h.state, h'.options.trans h.options, new ++ new', ?_, ?_⟩
  · rw [hnew', hnew, List.append_assoc]
  · rcases hcase with hsame | ⟨active, hactive⟩
    · rcases hcase' with hsame' | ⟨active, hactive⟩
      · exact Or.inl (hsame'.trans hsame)
      · exact Or.inr ⟨active, List.mem_append_right new hactive⟩
    · exact Or.inr ⟨active, List.mem_append_left new' hactive⟩

theorem follows_told (t : Turn) (s : Session) : Follows s.choice (s.told t) :=
  ⟨rfl, rfl, tells t s, rfl, Or.inl rfl⟩

theorem Restarted.follows (h : Restarted k k') (hoptions : k.options = true) :
    Follows k k' := by
  obtain ⟨hstate, hkept, hnews⟩ := h
  rw [if_pos hoptions] at hnews
  obtain ⟨active, hnews⟩ := hnews
  exact ⟨hstate, hkept, [.active active], hnews, Or.inr ⟨active, List.mem_singleton_self _⟩⟩

theorem Chosen.follows (h : Chosen k k') : Follows k k' := by
  rcases h with rfl | ⟨output, active, rfl⟩
  · exact Follows.refl k'
  · exact ⟨rfl, rfl, [.active active], rfl, Or.inr ⟨active, List.mem_singleton_self _⟩⟩

theorem inputEvent_choice (t : Turn) (header : PacketHeader) (payload : List UInt8) (k : Choice) :
    Triple (fun s => s.choice = k) (inputEvent t header payload) (fun _ s => s.choice = k)
      (fun _ s => s.choice = k) :=
  Keeps.triple (inputEvent_calm t header payload) (fun hs h => (choice_of_shown h).trans hs)
    fun hs h _ => (choice_of_shown h).trans hs

/-- **An authenticated client is told of every stream.** -/
theorem step_follows
    (hstate : s.admission.state = .authenticated) (hoptions : s.peerHasStreamOptions = true)
    (hstep : step c (.running s) t = some (.running s')) : Follows s.choice s'.choice := by
  refine step_running (iteration_triple (follows_told t s) (fun h => ?_) fun packet => ?_) hstep
  · exact (follows_told t s).trans (h.follows hoptions)
  refine dispatch_triple (fun h => h) Or.inl Or.inr fun header payload => ?_
  rintro s₁ ⟨hs₁, hallowed⟩
  have hauth : s₁.admission.state = .authenticated := hs₁.state.trans hstate
  rw [hauth] at hallowed
  rw [handle]
  split
  next htype => rw [htype] at hallowed; cases hallowed
  next htype => rw [htype] at hallowed; cases hallowed
  · refine Triple.imp (inputEvent_choice t header payload s₁.choice) (fun h => ?_)
      (fun h => Or.inr ?_) s₁ rfl
    · rw [h]
      exact hs₁
    · rw [h]
      exact hs₁
  · refine Triple.imp (control_choice c t payload s₁.choice) (fun h => hs₁.trans h.follows)
      (fun h => ?_) s₁ rfl
    rcases h with hends | h
    · exact Or.inl hends
    · rw [h]
      exact Or.inr hs₁
  · exact Triple.ret (P := fun s => s = s₁) (fun _ h => h ▸ hs₁) s₁ rfl

/-! ### Lists are told to clients that know of stream options -/

structure Knows (k : Choice) : Prop where
  before : k.state ≠ .authenticated → k.options = false
  none : k.options = false → told k.news = none

theorem Knows.told (h : Knows s.choice) : Knows (s.told t) := by
  refine ⟨h.before, fun hoptions => ?_⟩
  have hfalse : s.peerHasStreamOptions = false := hoptions
  have htells : tells t s = [] := if_neg (by simp [hfalse])
  rw [Session.told, htells, List.append_nil]
  exact h.none hoptions

theorem Restarted.knows (h : Restarted k k') (hk : Knows k) : Knows k' := by
  refine ⟨?_, ?_⟩
  · rw [h.state, h.options]
    exact hk.before
  · rw [h.options, h.told]
    exact hk.none

theorem Chosen.knows (h : Chosen k k') (hk : Knows k) : Knows k' := by
  rcases h with rfl | ⟨output, active, rfl⟩
  · exact hk
  · refine ⟨hk.before, fun hoptions => ?_⟩
    rw [told_active]
    exact hk.none hoptions

theorem send_news {p : Sent} (h : p.news = none) :
    Keeps (Same Session.news) Exit.Ends (send t p) := by
  refine send_same t (fun _ => rfl) fun s => ?_
  have hsent := news_sent s s.writes s.media.stream p
  rw [h, Option.toList_none, List.append_nil] at hsent
  exact hsent

theorem Calm.news {α : Type} {x : HostAct α} (hx : Calm x) :
    Keeps (Same Session.news) Exit.Ends x :=
  Keeps.mono hx (fun h => (Session.shown_eq_iff.mp h).2.1) fun h => h

theorem onStore_news {α : Type} (x : StoreAct α) : Keeps (Same Session.news) Exit.Ends (onStore x) :=
  Keeps.seq Keeps.read fun _ => Keeps.seq (Keeps.update fun _ => rfl) fun _ =>
    Keeps.ofExcept fun _ => trivial

theorem knownRecord_news (t : Turn) (handshake : Handshake) :
    Keeps (Same Session.news) Exit.Ends (knownRecord t handshake) := by
  refine Keeps.seq Keeps.read fun s => ?_
  split
  · exact Keeps.ret _
  · refine Keeps.seq (onStore_news _) fun found => ?_
    refine Keeps.seq (Keeps.required trivial) fun record => ?_
    refine Keeps.seq (onStore_news _) fun authorization => ?_
    refine Keeps.seq (Keeps.ofExcept fun _ => trivial) fun adopted => ?_
    exact Keeps.seq (Keeps.update fun _ => rfl) fun _ => Keeps.ret record

theorem negotiate_news (c : Connection) (t : Turn) (handshake : Handshake) :
    Keeps (Same Session.news) Exit.Ends (negotiate c t handshake) := by
  refine Keeps.seq (Keeps.when (Keeps.raise trivial)) fun _ => ?_
  refine Keeps.seq (Keeps.update fun _ => rfl) fun _ => ?_
  refine Keeps.seq (Keeps.when (Keeps.raise trivial)) fun _ => ?_
  refine Keeps.seq (Keeps.attempt fun _ => trivial) fun _ => ?_
  refine Keeps.seq (Keeps.update fun _ => rfl) fun _ => ?_
  exact Keeps.seq (Keeps.attempt fun _ => trivial) fun _ => Keeps.update fun _ => rfl

theorem startMedia_news (c : Connection) (t : Turn) :
    Keeps (Same Session.news) Exit.Ends (startMedia c t) := by
  refine Keeps.seq (Keeps.attempt fun _ => trivial) fun _ => ?_
  exact Keeps.seq (Keeps.update fun _ => rfl) fun _ => Keeps.update fun _ => rfl

theorem acknowledge_news (c : Connection) (t : Turn) :
    Keeps (Same Session.news) Exit.Ends (acknowledge c t) := by
  refine Keeps.seq Keeps.read fun s => ?_
  exact Keeps.seq (Keeps.when (startMedia_news c t)) fun _ => send_news rfl

theorem storePairing_news (t : Turn) (fresh : Bool) (record : PairingRecord) :
    Keeps (Same Session.news) Exit.Ends (storePairing t fresh record) := by
  refine Keeps.seq Keeps.read fun s => ?_
  apply Keeps.when
  refine Keeps.seq (Keeps.when ?_) fun _ => ?_
  · exact Keeps.seq (sendSessionEnd_still t _).calm.news fun _ => Keeps.raise trivial
  · exact Keeps.seq (onStore_news _) fun _ => onStore_news _

theorem join_news (c : Connection) (t : Turn) (record : PairingRecord) :
    Keeps (Same Session.news) Exit.Ends (join c t record) := by
  refine Keeps.seq (Keeps.update fun _ => rfl) fun _ => ?_
  refine Keeps.seq Keeps.read fun s => ?_
  refine Keeps.seq (Keeps.update fun _ => rfl) fun _ => ?_
  refine Keeps.seq (sendPermissions_still t _).calm.news fun _ => ?_
  exact Keeps.seq (Keeps.update fun _ => rfl) fun _ => Keeps.update fun _ => rfl

theorem welcome_options (c : Connection) (t : Turn) :
    Keeps (Same Session.peerHasStreamOptions) Exit.Ends (welcome c t) := by
  refine Keeps.seq Keeps.read fun s => ?_
  refine Keeps.seq (Keeps.when ?_) fun _ => ?_
  · refine Keeps.seq (Keeps.attempt fun _ => trivial) fun _ => ?_
    exact Keeps.seq (Keeps.update fun _ => rfl) fun _ => Keeps.update fun _ => rfl
  refine Keeps.seq (Keeps.when ?_) fun _ => Keeps.update fun _ => rfl
  exact Keeps.seq (Keeps.update fun _ => rfl) fun _ => send_same t (fun _ => rfl) fun _ => rfl

theorem welcome_told (c : Connection) (t : Turn) :
    Triple (fun s => told s.news = none) (welcome c t)
      (fun _ s => s.peerHasStreamOptions = false → told s.news = none) (fun _ _ => True) := by
  intro s hs
  refine ⟨fun u s' h hfalse => ?_, fun _ _ _ => trivial⟩
  have hoptions := (welcome_options c t s).1
  rw [h] at hoptions
  have hsilent : ¬ s.peerHasStreamOptions = true := by
    rw [← hoptions, hfalse]
    exact Bool.false_ne_true
  have hnews : ∀ s₁ : Session, ¬ s₁.peerHasStreamOptions = true →
      Keeps (Same Session.news) Exit.Ends (do
        when (s₁.peerCaps.contains .pairingTrust) (startMedia c t)
        when s₁.peerHasStreamOptions do
          modify fun s => { s with lastSentPolicy := policyOf s.effectivePermissions }
          sendTcpControl t (.hostDisplayList ⟨t.handshake.displays⟩)
        modify fun s => { s with
          lastPong := t.handshake.now, nextPing := t.handshake.now + heartbeatInterval }) := by
    intro s₁ hs₁
    refine Keeps.seq (Keeps.when (startMedia_news c t)) fun _ => ?_
    exact Keeps.seq (Keeps.whenever fun h => absurd h hs₁) fun _ => Keeps.update fun _ => rfl
  have hkept := (hnews s hsilent s).1
  rw [welcome, exec_bind] at h
  have hs' : s'.news = s.news := by
    rw [← (Prod.mk.inj h).2]
    exact hkept
  rw [hs']
  exact hs

theorem handshake_told (c : Connection) (t : Turn) (payload : List UInt8) :
    Triple (fun s => told s.news = none) (handshake c t payload)
      (fun _ s => s.peerHasStreamOptions = false → told s.news = none) (fun _ _ => True) := by
  have hseq : ∀ {α β : Type} {x : HostAct α} {f : α → HostAct β} {Q : β → Session → Prop},
      Keeps (Same Session.news) Exit.Ends x →
      (∀ a, Triple (fun s => told s.news = none) (f a) Q (fun _ _ => True)) →
      Triple (fun s => told s.news = none) (x >>= f) Q (fun _ _ => True) :=
    fun hx hf => Triple.seq (Keeps.triple hx
      (fun hs h => (congrArg told h).trans hs) fun _ _ _ => trivial) hf
  refine Triple.read fun s hs => Triple.weaken (fun s' h => h ▸ hs) ?_
  refine hseq (Keeps.when (Keeps.raise trivial)) fun _ => ?_
  refine hseq (Keeps.ofExcept fun _ => trivial) fun handshake => ?_
  refine hseq (knownRecord_news t handshake) fun record => ?_
  refine hseq (Keeps.ofExcept fun _ => trivial) fun _ => ?_
  refine hseq (negotiate_news c t handshake) fun _ => ?_
  refine hseq (acknowledge_news c t) fun _ => ?_
  refine hseq (grantTrust_calm t _).news fun _ => ?_
  refine hseq (storePairing_news t _ record) fun _ => ?_
  exact hseq (join_news c t record) fun _ => welcome_told c t

theorem pairingRequest_options (c : Connection) (t : Turn) (payload : List UInt8) :
    Keeps (Same fun s : Session => (s.news, s.peerHasStreamOptions)) Any
      (pairingRequest c t payload) := by
  have hsend : ∀ {p : Sent}, p.news = none →
      Keeps (Same fun s : Session => (s.news, s.peerHasStreamOptions)) Any (send t p) := by
    intro p hp s
    have hnews := (send_news (t := t) hp s).1
    have hoptions := (send_same (f := Session.peerHasStreamOptions) t (p := p)
      (fun _ => rfl) (fun _ => rfl) s).1
    exact ⟨Prod.ext hnews hoptions, fun _ _ => trivial⟩
  refine Keeps.seq (Keeps.when ?_) fun _ => ?_
  · exact Keeps.seq (hsend rfl) fun _ => Keeps.raise trivial
  refine Keeps.seq (Keeps.ofExcept fun _ => trivial) fun request => ?_
  refine Keeps.seq (Keeps.mono (askConsent_calm c t) (fun h => ?_) fun _ => trivial) fun approved => ?_
  · obtain ⟨-, hnews, hoptions⟩ := Session.shown_eq_iff.mp h
    exact Prod.ext hnews hoptions
  cases approved with
  | none => exact Keeps.seq (hsend rfl) fun _ => Keeps.raise trivial
  | some trust =>
    refine Keeps.seq (Keeps.ofExcept fun _ => trivial) fun _ => ?_
    refine Keeps.seq (Keeps.when (Keeps.raise trivial)) fun _ => ?_
    refine Keeps.seq (Keeps.update fun _ => rfl) fun _ => ?_
    exact Keeps.seq (hsend rfl) fun _ => Keeps.update fun _ => rfl

theorem handle_knows (c : Connection) (t : Turn) (header : PacketHeader) (payload : List UInt8) :
    Triple (fun s => Knows s.choice ∧ s.admission.state.allows header.packetType = true)
      (handle c t header payload) (fun _ s => Knows s.choice)
      (fun e s => e.Ends ∨ Knows s.choice) := by
  rintro s ⟨hs, hallowed⟩
  rw [handle]
  split
  next htype =>
    rw [htype] at hallowed
    have hfalse : s.peerHasStreamOptions = false :=
      hs.before fun h => by rw [show s.admission.state = .authenticated from h] at hallowed; cases hallowed
    have hkept := (pairingRequest_options c t payload s).1
    obtain ⟨hnews, hoptions⟩ := Prod.mk.inj hkept
    have hknows : Knows ((pairingRequest c t payload).exec s).2.choice := by
      refine ⟨fun _ => hoptions.trans hfalse, fun _ => ?_⟩
      exact (congrArg told hnews).trans (hs.none hfalse)
    refine ⟨fun u s' h => ?_, fun e s' h => Or.inr ?_⟩ <;> rw [h] at hknows <;> exact hknows
  next htype =>
    rw [htype] at hallowed
    have hfalse : s.peerHasStreamOptions = false :=
      hs.before fun h => by rw [show s.admission.state = .authenticated from h] at hallowed; cases hallowed
    have htold := handshake_told c t payload s (hs.none hfalse)
    have hcases := handshake_cases c t payload s
    refine ⟨fun u s' h => ?_, fun e s' h => Or.inl ?_⟩ <;> rw [h] at hcases
    · rcases hcases with ⟨-, e, -, he⟩ | ⟨hjoined, -⟩
      · cases he
      · exact ⟨fun hne => absurd (congrArg Admission.state hjoined.admission) hne,
          htold.1 u s' h⟩
    · rcases hcases with ⟨-, e', hends, he⟩ | ⟨-, hends, -⟩
      · cases he
        exact hends
      · exact hends e rfl
  · refine Triple.imp (inputEvent_choice t header payload s.choice) (fun h => ?_)
      (fun h => Or.inr ?_) s rfl
    · rw [h]
      exact hs
    · rw [h]
      exact hs
  · refine Triple.imp (control_choice c t payload s.choice) (fun h => h.knows hs) (fun h => ?_) s rfl
    rcases h with hends | h
    · exact Or.inl hends
    · rw [h]
      exact Or.inr hs
  · exact Triple.ret (P := fun s' => s' = s) (fun _ h => h ▸ hs) s rfl

theorem step_knows (hs : Knows s.choice)
    (hstep : step c (.running s) t = some (.running s')) : Knows s'.choice := by
  have htold : Knows ((s.enter t).told t) := Knows.told (t := t) (s := s.enter t) hs
  refine step_running (iteration_triple htold (fun h => h.knows htold) fun packet => ?_) hstep
  exact dispatch_triple (fun h => h) Or.inl Or.inr (handle_knows c t)

/-! ### The display that is streamed -/

theorem run_running {I : Session → Prop}
    (hstep : ∀ {s t s'}, I s → step c (.running s) t = some (.running s') → I s')
    {ts : List Turn} (hs : I s)
    (h : Machine.run (step c) (.running s) ts = some (.running s')) : I s' := by
  induction ts generalizing s with
  | nil =>
    cases h
    exact hs
  | cons t ts ih =>
    obtain ⟨l, hl, hrest⟩ := Machine.run_cons_eq_some.mp h
    cases l with
    | running s₁ => exact ih (hstep hs hl) hrest
    | ended s₁ result =>
      cases ts with
      | nil => cases hrest
      | cons t' ts =>
        obtain ⟨l, hl, -⟩ := Machine.run_cons_eq_some.mp hrest
        cases hl

/-- **The display streamed is the one the client picked**, from the answer until the client is told
of another stream, exactly when the list that is enumerated for the request is up to date with the
one that the client was told last. -/
theorem picked_display_streamed {c : Connection} {policy : HostPolicy}
    {displays : List HostDisplay} {now : ℕ} {disk : Disk} {ts : List Turn} {t : Turn}
    {s s' : Session} {request : StreamOptionsRequest} {active : StreamOptionsActive}
    (hrun : Machine.run (step c) (Loop.start c policy displays now disk) ts = some (.running s))
    (haccepts : Accepts c t s s' request active) :
    (∀ ts' s'', Machine.run (step c) (.running s') ts' = some (.running s'') →
      s''.streams = s'.streams →
      s''.media.selectedOutput = named (told s'.news) request.displayIndex) ↔
    UpToDate t s request := by
  obtain ⟨selected, hselected, houtput, htold, hoptions, hstate⟩ := haccepts.applied
  have hnamed : named (some t.control.displays) request.displayIndex = some selected.name := by
    show t.control.displays[request.displayIndex.toNat]?.map HostDisplay.name = _
    rw [hselected]
    rfl
  rw [UpToDate, hnamed, ← htold]
  constructor
  · intro h
    rw [← h [] s' rfl rfl, houtput]
  · intro huptodate ts' s'' hrun' hstreams
    rw [← huptodate]
    -- a list was told, so the client knows of stream options
    have hknows : Knows s.choice := run_running (I := fun s => Knows s.choice)
      (fun hs hstep => step_knows hs hstep) ⟨fun _ => rfl, fun _ => rfl⟩ hrun
    have hknows' := step_knows hknows haccepts.step
    have htrue : s'.peerHasStreamOptions = true := by
      by_contra hfalse
      have hnone := hknows'.none (Bool.eq_false_iff.mpr hfalse)
      have hnone : told s'.news = none := hnone
      rw [hnone] at huptodate
      cases huptodate
    have hfollows : Follows s'.choice s''.choice := run_running
      (I := fun s => Follows s'.choice s.choice) (fun {s₁ t s₂} hs hstep => hs.trans
        (step_follows (hs.state.trans hstate) (hs.options.trans htrue) hstep))
      (Follows.refl _) hrun'
    obtain ⟨new, hnew, hsame | ⟨active', hactive⟩⟩ := hfollows.news
    · exact hsame.trans houtput
    · have hnew : s''.news = s'.news ++ new := hnew
      rw [Session.streams, Session.streams, hnew, List.filterMap_append] at hstreams
      have hnone := List.append_right_eq_self.mp hstreams
      have hmem : active' ∈ new.filterMap News.stream :=
        List.mem_filterMap.mpr ⟨_, hactive, rfl⟩
      rw [hnone] at hmem
      exact absurd hmem List.not_mem_nil

/-! ### Three displays -/

def threeDisplays : List HostDisplay :=
  [⟨0, 1920, 1080, true, "DP-1"⟩, ⟨1, 1920, 1080, false, "DP-2"⟩, ⟨2, 1920, 1080, false, "DP-3"⟩]

/-- The first display was unplugged. -/
def twoDisplays : List HostDisplay :=
  [⟨0, 1920, 1080, true, "DP-2"⟩, ⟨1, 1920, 1080, false, "DP-3"⟩]

/-- A client that knows of stream options, and is told three displays. -/
def welcomeTurn : Turn :=
  { Turn.idle exampleDisk with
    read := .ok (some (frame .handshake ([1, 0, 65, 0, 4, 0, 4, 0, 0, 0x80, 0x3f, 3, 0x80, 1, 0, 0,
      0, 0, 0, 0, 2, 0, 80, 49] ++ List.replicate 16 0)))
    handshake := { (Turn.idle exampleDisk).handshake with displays := threeDisplays } }

/-- The client asks for position 1. -/
def secondDisplay : StreamOptionsRequest := ⟨1, 1000, 60, .auto, 1, 0⟩

def requestTurn (displays : List HostDisplay) : Turn :=
  { Turn.idle exampleDisk with
    read := .ok (some (frame .control [15, 1, 0, 0, 0, 232, 3, 60, 0, 0, 1, 0, 0, 0, 0]))
    control := ⟨true, .accepted, none, none, displays, true, none, none, 0⟩ }

/-- The displays are still the same, and the second is streamed. -/
theorem picked_display_streamed_second : ∃ s s' active,
    Machine.run (step (exampleConnection true))
      (Loop.start (exampleConnection true) ⟨true, true⟩ [] 0 exampleDisk) [welcomeTurn] =
        some (.running s) ∧
    Accepts (exampleConnection true) (requestTurn threeDisplays) s s' secondDisplay active ∧
    ∀ ts' s'', Machine.run (step (exampleConnection true)) (.running s') ts' = some (.running s'') →
      s''.streams = s'.streams → s''.media.selectedOutput = some "DP-2" := by
  obtain ⟨s, s', active, hrun, haccepts, hcurrent, hnamed⟩ : ∃ s s' active,
      Machine.run (step (exampleConnection true))
        (Loop.start (exampleConnection true) ⟨true, true⟩ [] 0 exampleDisk) [welcomeTurn] =
          some (.running s) ∧
      Accepts (exampleConnection true) (requestTurn threeDisplays) s s' secondDisplay active ∧
      UpToDate (requestTurn threeDisplays) s secondDisplay ∧
      named (told s'.news) secondDisplay.displayIndex = some "DP-2" :=
    ⟨_, _, _, rfl, ⟨rfl, ⟨_, _, _, rfl, rfl, rfl, rfl⟩, ⟨_, rfl⟩⟩, rfl, rfl⟩
  refine ⟨s, s', active, hrun, haccepts, fun ts' s'' hrun' hstreams => ?_⟩
  rw [(picked_display_streamed hrun haccepts).mpr hcurrent ts' s'' hrun' hstreams, hnamed]

/-- **Another display is streamed** than the one that the client was told at position 1. -/
theorem another_display_streamed : ∃ s s' active,
    Machine.run (step (exampleConnection true))
      (Loop.start (exampleConnection true) ⟨true, true⟩ [] 0 exampleDisk) [welcomeTurn] =
        some (.running s) ∧
    Accepts (exampleConnection true) (requestTurn twoDisplays) s s' secondDisplay active ∧
    named (told s'.news) secondDisplay.displayIndex = some "DP-2" ∧
    s'.media.selectedOutput = some "DP-3" :=
  ⟨_, _, _, rfl, ⟨rfl, ⟨_, _, _, rfl, rfl, rfl, rfl⟩, ⟨_, rfl⟩⟩, rfl, rfl⟩

end MahoRD.Host

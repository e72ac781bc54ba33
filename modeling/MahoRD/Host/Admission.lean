/-
MahoRD/Host/Admission.lean

How a peer becomes authenticated, whatever it sends and whatever the consent
responder does: with the identity of a stored pairing whose trust is valid, or
with the pairing that this connection was granted after an approval in time
(`authenticated_admitted`).

One control message is read by the handshake itself: a peer that was just granted
its pairing and knows pairing trust has to send a trust request
(`nested_request_decides`).
-/
import MahoRD.Host.Loop

namespace MahoRD.Host

open Act

/-! ### What admits a peer -/

/-- The frame of the turn is of that type, with that payload. -/
def Turn.Delivers (t : Turn) (packetType : PacketType) (payload : List UInt8) : Prop :=
  ∃ packet header, t.read = .ok (some packet) ∧ splitPacket packet = .ok (header, payload) ∧
    header.packetType = packetType

/-- In one of the turns a pairing was requested, and granted under that id after
it was approved. -/
def Approved (c : Connection) (ts : List Turn) (grant : PairingGrant) : Prop :=
  ∃ t ∈ ts, (∃ payload request, t.Delivers .pairingRequest payload ∧
    PairingRequest.decode payload = .ok request) ∧ t.Approves c ∧ grantOf c t = grant

/-- The handshake of the turn admits the peer, after the turns `ts`. -/
def Admitted (c : Connection) (ts : List Turn) (t : Turn) (s : Session) : Prop :=
  ∃ payload handshake, t.Delivers .handshake payload ∧ Handshake.decode payload = .ok handshake ∧
    (c.negotiatedIdentity = pairingIdentityPrefix ++ handshake.pairingId ∧
        Admits t.disk handshake.pairingId t.handshake.unixMs ∨
      c.negotiatedIdentity = bootstrapIdentity ∧ ∃ stream grant,
        s.grants = [(stream, .pairingGrant grant)] ∧ grant.pairingId = handshake.pairingId ∧
          Approved c ts grant)

variable {c : Connection} {ts : List Turn} {s : Session} {t : Turn}

theorem Approved.mono {grant : PairingGrant}
    (h : Approved c ts grant) (t : Turn) : Approved c (ts ++ [t]) grant := by
  obtain ⟨t', ht', hrest⟩ := h
  exact ⟨t', List.mem_append_left _ ht', hrest⟩

/-! ### The invariant -/

/-- What is granted, and to whom, after the turns `ts`. -/
inductive Grants (c : Connection) (ts : List Turn) (s : Session) : Prop
  | none (hgrants : s.grants = []) (hgranted : s.admission.grantedPairingId = none)
      (hfresh : s.admission.provisional = none)
  | one {stream : Stream} {grant : PairingGrant}
      (hgrants : s.grants = [(stream, .pairingGrant grant)])
      (hgranted : s.admission.grantedPairingId = some grant.pairingId)
      (hstate : s.admission.state ≠ .preAuth)
      (hbootstrap : c.negotiatedIdentity = bootstrapIdentity) (happroved : Approved c ts grant)

theorem Grants.mono (h : Grants c ts s)
    (t : Turn) : Grants c (ts ++ [t]) s := by
  cases h with
  | none hgrants hgranted hfresh => exact .none hgrants hgranted hfresh
  | one hgrants hgranted hstate hbootstrap happroved =>
    exact .one hgrants hgranted hstate hbootstrap (happroved.mono t)

theorem Grants.of_entry {s' : Session} (h : Grants c ts s)
    (hadmission : s'.admission = s.admission) (hgrants' : s'.grants = s.grants) :
    Grants c ts s' := by
  cases h with
  | none hgrants hgranted hfresh =>
    exact .none (hgrants'.trans hgrants) (hadmission ▸ hgranted) (hadmission ▸ hfresh)
  | one hgrants hgranted hstate hbootstrap happroved =>
    exact .one (hgrants'.trans hgrants) (hadmission ▸ hgranted) (hadmission ▸ hstate) hbootstrap
      happroved

theorem Grants.length_le (h : Grants c ts s) :
    s.grants.length ≤ 1 := by
  cases h with
  | none hgrants => simp [hgrants]
  | one hgrants => simp [hgrants]

/-- What is known after an iteration: the grants, if the session goes on also the
invariant, and what a handshake that authenticates the peer has shown. -/
structure Progress (c : Connection) (ts : List Turn) (t : Turn) (s : Session)
    (o : Except Exit Unit × Session) : Prop where
  length_le : o.2.grants.length ≤ 1
  grants : (∀ e, o.1 = .error e → ¬ e.Ends) → Grants c (ts ++ [t]) o.2
  admitted : s.admission.state ≠ .authenticated → o.2.admission.state = .authenticated →
    Admitted c ts t s

theorem Progress.of_entry
    {o : Except Exit Unit × Session} (hs : Grants c ts s) (hadmission : o.2.admission = s.admission)
    (hgrants : o.2.grants = s.grants) : Progress c ts t s o where
  length_le := hgrants ▸ hs.length_le
  grants := fun _ => (hs.of_entry hadmission hgrants).mono t
  admitted := fun hbefore hafter => absurd (hadmission ▸ hafter) hbefore

/-- An iteration that the session does not survive, before it is authenticated. -/
theorem Progress.of_ledger
    {o : Except Exit Unit × Session} (hs : Grants c ts s)
    (h : Stopped (Same Session.ledger) Exit.Ends s o) : Progress c ts t s o := by
  obtain ⟨hledger, e, hends, he⟩ := h
  obtain ⟨hstate, -, hgrants⟩ := Session.ledger_eq_iff.mp hledger
  exact ⟨hgrants ▸ hs.length_le, fun hgoes => absurd hends (hgoes e he),
    fun hbefore hafter => absurd (hstate ▸ hafter) hbefore⟩

/-! ### One iteration -/

theorem bootstrap_ne_pairing (id : String) : bootstrapIdentity ≠ pairingIdentityPrefix ++ id := by
  intro h
  have hchars := congrArg String.toList h
  rw [String.toList_append] at hchars
  -- the sixth characters differ
  have hpairing : (pairingIdentityPrefix.toList ++ id.toList)[5]? = some 'p' := rfl
  rw [← hchars] at hpairing
  exact absurd hpairing (by decide)

theorem pairingRequest_progress
    {payload : List UInt8} (hs : Grants c ts s)
    (hstate : s.admission.state = .preAuth) (hdelivers : t.Delivers .pairingRequest payload) :
    Progress c ts t s ((pairingRequest c t payload).exec s) := by
  rcases pairingRequest_cases c t payload s with
    ⟨hR, e, -, he⟩ | ⟨hgranted, hbootstrap, happroves, request, hdecode⟩
  · obtain ⟨hadmission, -, hgrants⟩ := Session.entry_eq_iff.mp hR
    exact Progress.of_entry hs hadmission hgrants
  -- before it nothing was granted
  cases hs with
  | one hgrants hgranted hstate' hbootstrap' happroved => exact absurd hstate hstate'
  | none hgrants hgrantedId hfresh =>
    obtain ⟨record, hadmission⟩ := hgranted.admission
    obtain ⟨stream, hgrants'⟩ := hgranted.grants
    rw [hgrants, List.nil_append] at hgrants'
    refine ⟨by rw [hgrants']; rfl, fun _ => ?_, fun _ hafter => ?_⟩
    · refine Grants.one hgrants' (by rw [hadmission]; rfl) (by rw [hadmission]; exact nofun)
        hbootstrap ⟨t, by simp, ⟨payload, request, hdelivers, hdecode⟩, happroves, rfl⟩
    · rw [hadmission] at hafter
      cases hafter

theorem handshake_progress
    {payload : List UInt8} (hs : Grants c ts s) (hdisk : s.disk = t.disk)
    (hdelivers : t.Delivers .handshake payload) :
    Progress c ts t s ((handshake c t payload).exec s) := by
  rcases handshake_cases c t payload s with h | ⟨hjoined, -, handshake, hdecode, hshows⟩
  · exact Progress.of_ledger hs h
  have hadmitted : Admitted c ts t s := by
    refine ⟨payload, handshake, hdelivers, hdecode, ?_⟩
    cases hs with
    | none hgrants hgranted hfresh =>
      rcases hshows with ⟨hpairing, hadmits⟩ | ⟨-, hid⟩
      · exact Or.inl ⟨hpairing, hdisk ▸ hadmits hfresh⟩
      · rw [hgranted] at hid
        cases hid
    | one hgrants hgranted hstate hbootstrap happroved =>
      rcases hshows with ⟨hpairing, -⟩ | ⟨-, hid⟩
      · exact absurd (hbootstrap.symm.trans hpairing) (bootstrap_ne_pairing _)
      · rw [hgranted] at hid
        exact Or.inr ⟨hbootstrap, _, _, hgrants, Option.some.inj hid, happroved⟩
  refine ⟨by rw [hjoined.grants]; exact hs.length_le, fun _ => ?_, fun _ _ => hadmitted⟩
  have hadmission := hjoined.admission
  cases hs with
  | none hgrants hgranted hfresh =>
    exact .none (hjoined.grants.trans hgrants) (by rw [hadmission]; exact hgranted)
      (by rw [hadmission])
  | one hgrants hgranted hstate hbootstrap happroved =>
    exact .one (hjoined.grants.trans hgrants) (by rw [hadmission]; exact hgranted)
      (by rw [hadmission]; exact nofun) hbootstrap (happroved.mono t)

theorem handle_progress {header : PacketHeader}
    {payload : List UInt8} (hs : Grants c ts s) (hdisk : s.disk = t.disk)
    (hdelivers : t.Delivers header.packetType payload)
    (hallowed : s.admission.state.allows header.packetType = true) :
    Progress c ts t s ((handle c t header payload).exec s) := by
  have hentry : ∀ {X : Exit → Prop} {x : HostAct Unit}, Keeps (Same Session.entry) X x →
      Progress c ts t s (x.exec s) := fun hx => by
    obtain ⟨hadmission, -, hgrants⟩ := Session.entry_eq_iff.mp (hx s).1
    exact Progress.of_entry hs hadmission hgrants
  rw [handle]
  split
  next htype =>
    rw [htype] at hallowed hdelivers
    have hstate : s.admission.state = .preAuth := by
      rcases h : s.admission.state <;> rw [h] at hallowed <;> first | rfl | cases hallowed
    exact pairingRequest_progress hs hstate hdelivers
  next htype =>
    rw [htype] at hdelivers
    exact handshake_progress hs hdisk hdelivers
  · exact hentry (entry_of_core (inputEvent_quiet t header payload))
  · exact hentry (control_entry c t payload)
  · exact Progress.of_entry hs rfl rfl

theorem Progress.of_steady
    {r : Except Exit Unit} {s' : Session} (hs : Grants c ts s) (h : Steady s s') :
    Progress c ts t s (r, s') := by
  obtain ⟨hadmission, -, hgrants⟩ := Session.entry_eq_iff.mp h.entry
  exact Progress.of_entry hs hadmission hgrants

theorem iteration_progress
    (hs : Grants c ts s) (hdisk : s.disk = t.disk) :
    Progress c ts t s ((iteration c t).exec s) := by
  have hiterates := iteration_cases c t s
  generalize (iteration c t).exec s = o at hiterates
  cases hiterates with
  | unread hends hcore => exact Progress.of_steady hs (steady_of_core hcore)
  | idle hsteady => exact Progress.of_steady hs hsteady
  | @stopped packet _ _ hread hsteady hends =>
    obtain ⟨hadmission, -, hgrants⟩ := Session.entry_eq_iff.mp hsteady.entry
    exact Progress.of_entry hs hadmission hgrants
  | @dispatched packet s' hread hsteady =>
    obtain ⟨hadmission, -, hgrants⟩ := Session.entry_eq_iff.mp hsteady.entry
    have hs' : Grants c ts s' := hs.of_entry hadmission hgrants
    have hdisk' : s'.disk = t.disk := hsteady.disk.trans hdisk
    have hdispatches := dispatch_cases c t packet s'
    generalize (dispatch c t packet).exec s' = o at hdispatches
    cases hdispatches with
    | malformed hsplit => exact Progress.of_entry hs hadmission hgrants
    | refused hsplit hrefused he => exact Progress.of_entry hs hadmission hgrants
    | @handled header payload hsplit hallowed =>
      have hdelivers : t.Delivers header.packetType payload :=
        ⟨packet, header, hread, hsplit, rfl⟩
      have hprogress := handle_progress
        (s := { s' with packets := s'.packets ++ [.dispatched packet] })
        (hs'.of_entry rfl rfl) hdisk' hdelivers hallowed
      refine ⟨hprogress.length_le, hprogress.grants, fun hbefore hafter => ?_⟩
      obtain ⟨payload, handshake, hdelivers, hdecode, hcases⟩ :=
        hprogress.admitted (by rw [hadmission]; exact hbefore) hafter
      refine ⟨payload, handshake, hdelivers, hdecode, ?_⟩
      rw [show s.grants = s'.grants from hgrants.symm]
      exact hcases

/-! ### Frames that have no effect -/

/-- The log of the frames is longer. -/
def Session.noting (e : PacketEvent) (s : Session) : Session :=
  { s with packets := s.packets ++ [e] }

theorem sendTcpControl_blind (e : PacketEvent) (t : Turn) (m : ControlMessage) :
    Blind (Session.noting e) (sendTcpControl t m) := by
  refine Blind.seq (Blind.ofExcept _) fun _ => Blind.read (fun _ => rfl) fun s => ?_
  refine Blind.seq (Blind.update fun _ => rfl) fun _ => ?_
  exact Blind.seq (Blind.attempt _) fun _ => Blind.update fun _ => rfl

theorem recover_blind (e : PacketEvent) (c : Connection) (t : Turn) :
    Blind (Session.noting e) (recover c t) := by
  refine Blind.read (fun _ => rfl) fun s => ?_
  refine Blind.seq (Blind.when (Blind.raise _)) fun _ => ?_
  refine Blind.seq (Blind.required _) fun display => ?_
  refine Blind.seq (Blind.attempt _) fun _ => ?_
  refine Blind.seq (Blind.when (Blind.raise _)) fun _ => ?_
  refine Blind.seq ?_ fun _ => ?_
  · exact Blind.read (fun _ => rfl) fun s => Blind.when (Blind.update fun _ => rfl)
  refine Blind.seq (Blind.update fun _ => rfl) fun _ => ?_
  refine Blind.seq (Blind.when (Blind.attempt _)) fun _ => ?_
  exact Blind.when (sendTcpControl_blind e t _)

theorem checkTopology_blind (e : PacketEvent) (c : Connection) (t : Turn) :
    Blind (Session.noting e) (checkTopology c t) := by
  refine Blind.read (fun _ => rfl) fun s => Blind.when ?_
  refine Blind.seq (Blind.update fun _ => rfl) fun _ => ?_
  refine Blind.seq (Blind.when (Blind.raise _)) fun _ => ?_
  refine Blind.seq (Blind.when (sendTcpControl_blind e t _)) fun _ => ?_
  exact Blind.seq (Blind.update fun _ => rfl) fun _ => Blind.when (recover_blind e c t)

theorem checkAdmission_blind (e : PacketEvent) (c : Connection) (t : Turn) :
    Blind (Session.noting e) (checkAdmission c t) := by
  refine Blind.read (fun _ => rfl) fun s => Blind.when ?_
  exact Blind.seq (Blind.when (Blind.raise _)) fun _ => Blind.attempt _

/-- Before the peer is authenticated only the displays and the deadline are
looked at. -/
theorem exec_prepare {packet : Option (List UInt8)}
    (hstate : s.admission.state ≠ .authenticated) :
    (prepare c t packet).exec s =
      (checkTopology c t >>= fun _ => checkAdmission c t : HostAct Unit).exec s := by
  have hangUp : (checkHangUp packet).exec s = (.ok (), s) := by
    rw [checkHangUp, exec_bind]
    cases packet with
    | none => rfl
    | some packet =>
      show Act.exec (when _ _) s = _
      rw [when, if_neg hstate]
      rfl
  have htopology := (checkTopology_steady c t s).1
  rw [prepare, exec_bind, hangUp]
  show Act.exec (checkTopology c t >>= fun _ => checkAdmission c t >>= fun _ =>
    housekeeping c t) s = _
  rw [exec_bind, exec_bind]
  rcases hexec : (checkTopology c t).exec s with ⟨e | u, s₁⟩
  · rfl
  rw [hexec] at htopology
  have hadmission := ((checkAdmission_still c t).quiet s₁).1
  show Act.exec (checkAdmission c t >>= fun _ => housekeeping c t) s₁ = (checkAdmission c t).exec s₁
  rw [exec_bind]
  rcases hexec₂ : (checkAdmission c t).exec s₁ with ⟨e | u, s₂⟩
  · rfl
  rw [hexec₂] at hadmission
  -- the state is still the one before the iteration
  have hsteady : Steady s s₂ := IsTrans.trans _ _ _ htopology (steady_of_core hadmission)
  have hstate₂ : s₂.admission.state ≠ .authenticated := by
    rw [(Session.entry_eq_iff.mp hsteady.entry).1]
    exact hstate
  show Act.exec (get >>= fun s => when _ _) s₂ = _
  rw [exec_bind]
  show Act.exec (when _ _) s₂ = _
  rw [when, if_neg hstate₂]
  rfl

theorem exec_readPacket {packet : Option (List UInt8)}
    (hstate : s.admission.state ≠ .authenticated) (hread : t.read = .ok packet) :
    (readPacket t).exec s = if t.aborted = true ∨ t.stop = true then (.error .leave, s)
      else (.ok packet, packet.elim s s.reading) := by
  rcases haborted : t.aborted with - | -
  swap
  · simp only [readPacket, exec_bind, exec_get, when, haborted, if_true, exec_throw, true_or]
  rcases hstop : t.stop with - | -
  · simp only [readPacket, exec_bind, exec_get, when, haborted, hstop, hread, Bool.false_eq_true,
      if_false, exec_pure, or_self]
    cases packet with
    | none => rfl
    | some packet => rfl
  · simp only [readPacket, exec_bind, exec_get, when, haborted, hstop, hstate, Bool.false_eq_true,
      if_false, if_true, exec_pure, exec_throw, or_true]

/-- The turn, had it read no frame. -/
def Turn.silent (t : Turn) : Turn := { t with read := .ok none }

/-- All but the log of the frames. -/
def Loop.forget : Loop → Loop
  | running s => .running { s with packets := [] }
  | ended s result => .ended { s with packets := [] } result

/-- **A frame of an input event or a control message that the loop reads before
the peer is authenticated has no effect.** -/
theorem refused_silent {packet payload : List UInt8}
    {header : PacketHeader} (hstate : s.admission.state ≠ .authenticated)
    (hread : t.read = .ok (some packet)) (hsplit : splitPacket packet = .ok (header, payload))
    (htype : header.packetType = .inputEvent ∨ header.packetType = .control) :
    (step c (.running s) t).map Loop.forget = (step c (.running s) t.silent).map Loop.forget := by
  have hstate₀ : (s.enter t).admission.state ≠ .authenticated := hstate
  have hsilent : s.enter t.silent = s.enter t := rfl
  show some (Loop.of ((iteration c t).exec (s.enter t))).forget
    = some (Loop.of ((iteration c t.silent).exec (s.enter t.silent))).forget
  rw [hsilent]
  generalize s.enter t = s₀ at hstate₀
  rw [iteration, iteration, exec_bind, exec_bind, exec_readPacket hstate₀ hread,
    exec_readPacket (t := t.silent) hstate₀ rfl]
  by_cases hstopped : t.aborted = true ∨ t.stop = true
  · have hstopped' : t.silent.aborted = true ∨ t.silent.stop = true := hstopped
    rw [if_pos hstopped, if_pos hstopped']
  have hstopped' : ¬ (t.silent.aborted = true ∨ t.silent.stop = true) := hstopped
  rw [if_neg hstopped, if_neg hstopped']
  show some (Loop.of (Act.exec (prepare c t (some packet) >>= fun _ => dispatch c t packet)
      (s₀.reading packet))).forget =
    some (Loop.of (Act.exec (prepare c t.silent none >>= fun _ => pure ()) s₀)).forget
  have hstate₁ : (s₀.reading packet).admission.state ≠ .authenticated := hstate₀
  have hblind : Blind (Session.noting (.read packet))
      (checkTopology c t >>= fun _ => checkAdmission c t) :=
    Blind.seq (checkTopology_blind _ c t) fun _ => checkAdmission_blind _ c t
  have hsteady := (prepare_steady c t none s₀).1
  have hsame : (checkTopology c t.silent >>= fun _ => checkAdmission c t.silent : HostAct Unit)
      = (checkTopology c t >>= fun _ => checkAdmission c t) := rfl
  rw [exec_bind, exec_bind, exec_prepare hstate₁, exec_prepare hstate₀, hsame,
    show s₀.reading packet = s₀.noting (.read packet) from rfl, hblind s₀]
  rw [exec_prepare hstate₀] at hsteady
  rcases hexec : (checkTopology c t >>= fun _ => checkAdmission c t : HostAct Unit).exec s₀ with
    ⟨e | u, s₁⟩
  · cases e <;> rfl
  rw [hexec] at hsteady
  have hstate₂ : s₁.admission.state ≠ .authenticated := by
    rw [(Session.entry_eq_iff.mp hsteady.entry).1]
    exact hstate₀
  -- the frame is refused
  have hrefused : (s₁.noting (.read packet)).admission.state.allows header.packetType = false := by
    show s₁.admission.state.allows header.packetType = false
    rcases htype with htype | htype <;> rw [htype] <;>
      rcases h : s₁.admission.state <;> first | rfl | exact absurd h hstate₂
  show some (Loop.of ((dispatch c t packet).exec (s₁.noting (.read packet)))).forget
    = some (Loop.running s₁).forget
  have hdispatches := dispatch_cases c t packet (s₁.noting (.read packet))
  generalize (dispatch c t packet).exec (s₁.noting (.read packet)) = o at hdispatches
  cases hdispatches with
  | malformed hsplit' =>
    rw [hsplit] at hsplit'
    cases hsplit'
  | refused hsplit' hrefused' he =>
    rw [hsplit] at hsplit'
    cases hsplit'
    rw [if_neg fun h => absurd h.1 hstate₂] at he
    rw [he]
    rfl
  | handled hsplit' hallowed =>
    rw [hsplit] at hsplit'
    cases hsplit'
    rw [hrefused] at hallowed
    cases hallowed

/-! ### Runs -/

/-- The invariant of a loop that goes on. -/
def Loop.Grants (c : Connection) (ts : List Turn) : Loop → Prop
  | running s => Host.Grants c ts s
  | ended _ _ => True

theorem step_grants {l l' : Loop}
    (hl : l.Grants c ts) (h : step c l t = some l') : l'.Grants c (ts ++ [t]) := by
  cases l with
  | ended s result => cases h
  | running s =>
    obtain rfl : Loop.of ((iteration c t).exec (s.enter t)) = l' := Option.some.inj h
    have hs : Host.Grants c ts (s.enter t) := Host.Grants.of_entry hl rfl rfl
    have hprogress := iteration_progress (t := t) hs rfl
    generalize (iteration c t).exec (s.enter t) = o at hprogress
    rcases o with ⟨(- | - | error) | u, s'⟩
    · exact hprogress.grants fun e he => by cases he; exact id
    · trivial
    · trivial
    · exact hprogress.grants fun e he => by cases he

/-- **Admission.**  A peer becomes authenticated only by a handshake that admits
it; before that, frames of input events and control messages have no effect; and
there is at most one grant. -/
theorem authenticated_admitted {c : Connection} {policy : HostPolicy}
    {displays : List HostDisplay} {now : ℕ} {disk : Disk} {ts : List Turn} {s : Session}
    {t : Turn} {l : Loop}
    (hrun : Machine.run (step c) (Loop.start c policy displays now disk) ts = some (.running s))
    (hstep : step c (.running s) t = some l) :
    (s.admission.state ≠ .authenticated →
      (l.session.admission.state = .authenticated → Admitted c ts t s) ∧
      ∀ payload, t.Delivers .inputEvent payload ∨ t.Delivers .control payload →
        (step c (.running s) t).map Loop.forget
          = (step c (.running s) t.silent).map Loop.forget) ∧
    l.session.grants.length ≤ 1 := by
  have hstart : (Loop.start c policy displays now disk).Grants c [] := .none rfl rfl rfl
  have hs : Host.Grants c ts s := Machine.run_history (I := Loop.Grants c) step_grants hstart hrun
  have hprogress : Progress c ts t (s.enter t) ((iteration c t).exec (s.enter t)) :=
    iteration_progress (hs.of_entry rfl rfl) rfl
  obtain rfl : Loop.of ((iteration c t).exec (s.enter t)) = l := Option.some.inj hstep
  rw [Loop.session_of]
  refine ⟨fun hstate => ⟨hprogress.admitted hstate, fun payload hdelivers => ?_⟩,
    hprogress.length_le⟩
  rcases hdelivers with ⟨packet, header, hread, hsplit, htype⟩ | ⟨packet, header, hread, hsplit, htype⟩
  · exact refused_silent hstate hread hsplit (Or.inl htype)
  · exact refused_silent hstate hread hsplit (Or.inr htype)

/-- The turn of a handshake of a stored pairing. -/
def knownTurn : Turn := { Turn.idle exampleDisk with read := .ok (some exampleHandshake) }

theorem authenticated_admitted_known : ∃ s l,
    Machine.run (step (exampleConnection true))
      (Loop.start (exampleConnection true) ⟨true, true⟩ [] 0 exampleDisk) [] = some (.running s) ∧
    step (exampleConnection true) (.running s) knownTurn = some l ∧
    l.session.admission.state = .authenticated ∧
    Admitted (exampleConnection true) [] knownTurn s := by
  obtain ⟨s, l, hrun, hstep, hstate, hafter⟩ : ∃ s l,
      Machine.run (step (exampleConnection true))
        (Loop.start (exampleConnection true) ⟨true, true⟩ [] 0 exampleDisk) []
          = some (.running s) ∧
      step (exampleConnection true) (.running s) knownTurn = some l ∧
      s.admission.state = .preAuth ∧ l.session.admission.state = .authenticated :=
    ⟨_, _, rfl, rfl, rfl, rfl⟩
  exact ⟨s, l, hrun, hstep, hafter,
    ((authenticated_admitted hrun hstep).1 (by rw [hstate]; exact nofun)).1 hafter⟩

/-! ### The trust request -/

/-- A host that is pairing, and a peer with the bootstrap identity. -/
def pairingConnection : Connection where
  config := ⟨"host", ⟨1920, 1080, 1920, 1080, 0⟩, 60, 20000000, false, none, false⟩
  platform := .linux
  hostCaps := .empty
  restartFactory := true
  pairingDeadline := some 5000
  negotiatedIdentity := bootstrapIdentity
  admissionDeadline := 10000

/-- The peer asks for a pairing and is taken for an owner. -/
def pairingTurn : Turn :=
  { Turn.idle ⟨[], ∅⟩ with
    read := .ok (some (frame .pairingRequest [1, 0, 65]))
    pairing := ⟨0, true, true, some (some .owner), 10, 10, true, 0, "P1", .filled 7⟩ }

/-- The handshake of a peer that knows pairing trust, and what it sends then. -/
def freshTurn (nested : List UInt8) : Turn :=
  { Turn.idle ⟨[], ∅⟩ with
    read := .ok (some (frame .handshake ([1, 0, 65, 0, 4, 0, 4, 0, 0, 0x80, 0x3f, 3, 0x80, 0x20,
      0, 0, 0, 0, 0, 0, 2, 0, 80, 49] ++ List.replicate 16 0)))
    handshake := ⟨.ok, .ok, 0, none, none, none, .ok (some nested), 0, .ok, .ok, ⟨true, true⟩,
      "", [], 0⟩ }

def trustRequest : List UInt8 := frame .control (24 :: List.replicate 9 0)

/-- The control message that comes before the peer is authenticated decides
whether it will be. -/
theorem nested_request_decides : ∃ s,
    Machine.run (step pairingConnection)
      (Loop.start pairingConnection ⟨true, true⟩ [] 0 ⟨[], ∅⟩) [pairingTurn]
        = some (.running s) ∧
    s.admission.state = .pairingGranted ∧
    (∃ s', step pairingConnection (.running s) (freshTurn trustRequest) = some (.running s') ∧
      s'.admission.state = .authenticated) ∧
    ∃ s', step pairingConnection (.running s) (freshTurn examplePing)
      = some (.ended s' (.error .preAuth)) :=
  ⟨_, rfl, rfl, ⟨_, rfl, rfl⟩, _, rfl⟩

end MahoRD.Host

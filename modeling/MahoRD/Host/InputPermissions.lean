/-
MahoRD/Host/InputPermissions.lean

What may be injected, in a session whose permissions change while it runs.  The
grant changes by commands of the registry and the ceiling by the policy of the
host, at any time; an iteration takes the commands, then reads the policy, and
dispatches its frame under the intersection of the two.  The machine makes the
four pieces of an iteration its steps, so that commands and policy may also come
between them.

An event is injected under the permissions that were read in its own iteration,
not under those of the moment.
-/
import MahoRD.Host.InputGate
import MahoRD.Lib.History

namespace MahoRD.Host
namespace InputPermissions

open Act History

/-! ### The machine -/

/-- Where the session is in its iteration. -/
inductive Phase
  | top
  | read (packet : Option (List UInt8))
  | taken (packet : Option (List UInt8))
  | refreshed (packet : Option (List UInt8))
  | ended

inductive Event
  /-- the host sets its policy -/
  | policy (policy : HostPolicy)
  /-- the registry sends a grant -/
  | grant (permissions : GuestPermissions)
  /-- the session takes the commands -/
  | taken
  /-- the session reads the policy, and these are the permissions -/
  | effective (permissions : GuestPermissions)
  | effect (effect : Effect)
  deriving DecidableEq

structure State where
  session : Session
  phase : Phase
  policy : HostPolicy
  queue : List GuestCommand
  log : List Event

def start (session : Session) (policy : HostPolicy) : State := ⟨session, .top, policy, [], []⟩

inductive Action
  | setPolicy (policy : HostPolicy)
  | command (command : GuestCommand)
  | read (t : Turn)
  | take (t : Turn)
  | refresh (t : Turn)
  | serve (t : Turn)

/-- Where a piece of the iteration leads. -/
def Phase.of {α : Type} (phase : α → Phase) : Except Exit α → Phase
  | .ok a => phase a
  | .error .next => .top
  | .error _ => .ended

/-- A piece of the iteration has been run, with what it injected. -/
def State.after {α : Type} (s : State) (o : Except Exit α × Session) (phase : α → Phase) : State :=
  { s with
    session := o.2
    phase := .of phase o.1
    log := s.log ++ (o.2.inputs.drop s.session.inputs.length).map .effect }

def State.mark (s : State) (e : Event) : State := { s with log := s.log ++ [e] }

section

variable {α : Type} (s : State) (o : Except Exit α × Session) (phase : α → Phase) (e : Event)

@[simp] theorem State.after_session : (s.after o phase).session = o.2 := rfl

@[simp] theorem State.after_policy : (s.after o phase).policy = s.policy := rfl

@[simp] theorem State.after_queue : (s.after o phase).queue = s.queue := rfl

@[simp] theorem State.mark_session : (s.mark e).session = s.session := rfl

@[simp] theorem State.mark_policy : (s.mark e).policy = s.policy := rfl

@[simp] theorem State.mark_queue : (s.mark e).queue = s.queue := rfl

end

def step (c : Connection) (s : State) : Action → Option State
  | .setPolicy policy => some ({ s with policy }.mark (.policy policy))
  | .command command =>
    let s := { s with queue := s.queue ++ [command] }
    match command with
    | .permissions permissions => some (s.mark (.grant permissions))
    | _ => some s
  | .read t =>
    match s.phase with
    | .top => some (s.after ((reading c t).exec (s.session.enter t)) .read)
    | _ => none
  | .take t =>
    match s.phase with
    | .read packet =>
      let o := (serveGuest { t with commands := s.queue }).exec s.session
      some (({ s with queue := [] }.mark .taken).after o fun _ => .taken packet)
    | _ => none
  | .refresh t =>
    match s.phase with
    | .taken packet =>
      let o := (updatePermissions c { t with policy := s.policy }).exec s.session
      some ((s.after o fun _ => .refreshed packet).mark (.effective o.2.effectivePermissions))
    | _ => none
  | .serve t =>
    match s.phase with
    | .refreshed packet => some (s.after ((serving c t packet).exec s.session) fun _ => .top)
    | _ => none

abbrev run (c : Connection) : State → List Action → Option State := Machine.run (step c)

theorem Phase.of_ends {α : Type} (phase : α → Phase) {e : Exit} (h : e.Ends) :
    Phase.of phase (.error e) = .ended := by
  cases e with
  | next => cases h
  | leave | fail _ => rfl

/-! ### The laws -/

/-- Between the steps of the session that count. -/
def Event.passes : Event → Bool
  | .policy _ | .grant _ | .effect .releaseInput => true
  | _ => false

/-- The policy after the events, with the one before them. -/
def policyNow (policy : HostPolicy) (log : List Event) : HostPolicy :=
  log.foldl (fun policy e =>
    match e with
    | .policy policy => policy
    | _ => policy) policy

def grantNow (grant : GuestPermissions) (log : List Event) : GuestPermissions :=
  log.foldl (fun grant e =>
    match e with
    | .grant permissions => permissions
    | _ => grant) grant

/-- What has happened since the commands were taken. -/
def sinceTaken (log : List Event) : List Event := (log.reverse.takeWhile (· ≠ .taken)).reverse

/-- Neither the policy nor the grant has changed since the commands were taken. -/
def Undisturbed (log : List Event) : Prop :=
  ∀ e ∈ sinceTaken log, (∀ policy, e ≠ .policy policy) ∧ ∀ permissions, e ≠ .grant permissions

def Event.given : Event → Option Effect
  | .effect given => some given
  | _ => none

/-- What the injector was given. -/
def given (log : List Event) : List Effect := log.filterMap Event.given

section

variable (c : Connection) (policy : HostPolicy) (grant : GuestPermissions)

/-- What grant and policy allow now, of input. -/
def allowedAt (log : List Event) : GuestPermissions :=
  Guests.intersect (grantNow grant log) (permissionCeiling c (policyNow policy log) false)

/-- The commands were taken last when the grant was `current`. -/
def Taken (log : List Event) (current : GuestPermissions) : Prop :=
  ∃ before since, log = before ++ Event.taken :: since ∧ (∀ e ∈ since, e.passes = true) ∧
    current = grantNow grant before

/-- The permissions `p` were read last: in one iteration the grant, then the policy. -/
def Reading (log : List Event) (p : GuestPermissions) : Prop :=
  ∃ before since, log = before ++ Event.effective p :: since ∧ (∀ e ∈ since, e.passes = true) ∧
    ∃ current clipboard, Taken grant before current ∧
      p = Guests.intersect current (permissionCeiling c (policyNow policy before) clipboard)

/-- What holds of an event, given the events before it. -/
def Lawful (before : List Event) : Event → Prop
  | .effect (.inject event) => (∃ p, Reading c policy grant before p ∧ Permitted p event) ∧
    (Undisturbed before → Permitted (allowedAt c policy grant before) event)
  | .effective p => ∀ earlier event since, before = earlier ++ Event.effect (.inject event) :: since →
      Permitted p event ∨ .effect .releaseInput ∈ since
  | _ => True

/-! ### The invariant -/

variable {c policy grant}

@[simp] theorem policyNow_concat (log : List Event) (e : Event) :
    policyNow policy (log ++ [e]) = match e with
      | .policy policy => policy
      | _ => policyNow policy log := by
  rw [policyNow, List.foldl_append]
  rfl

@[simp] theorem grantNow_concat (log : List Event) (e : Event) :
    grantNow grant (log ++ [e]) = match e with
      | .grant permissions => permissions
      | _ => grantNow grant log := by
  rw [grantNow, List.foldl_append]
  rfl

@[simp] theorem given_concat (log : List Event) (e : Event) :
    given (log ++ [e]) = given log ++ e.given.toList := by
  rw [given, List.filterMap_append]
  cases e <;> rfl

theorem Taken.concat {log : List Event} {current : GuestPermissions} {e : Event}
    (h : Taken grant log current) (he : e.passes = true) : Taken grant (log ++ [e]) current := by
  obtain ⟨before, since, rfl, hsince, hcurrent⟩ := h
  refine ⟨before, since ++ [e], by simp, fun x hx => ?_, hcurrent⟩
  rcases List.mem_append.mp hx with hx | hx
  · exact hsince x hx
  · rwa [List.mem_singleton.mp hx]

theorem Reading.concat {log : List Event} {p : GuestPermissions} {e : Event}
    (h : Reading c policy grant log p) (he : e.passes = true) :
    Reading c policy grant (log ++ [e]) p := by
  obtain ⟨before, since, rfl, hsince, hread⟩ := h
  refine ⟨before, since ++ [e], by simp, fun x hx => ?_, hread⟩
  rcases List.mem_append.mp hx with hx | hx
  · exact hsince x hx
  · rwa [List.mem_singleton.mp hx]

theorem sinceTaken_eq {before since : List Event} (h : .taken ∉ since) :
    sinceTaken (before ++ Event.taken :: since) = since := by
  have hsince : ∀ e ∈ since.reverse, decide (e ≠ Event.taken) = true := by
    intro e he
    rw [decide_eq_true_eq]
    rintro rfl
    exact h (List.mem_reverse.mp he)
  rw [sinceTaken, List.reverse_append, List.reverse_cons, List.append_assoc,
    List.takeWhile_append_of_pos hsince]
  simp

theorem now_append (policy : HostPolicy) (grant : GuestPermissions) (log : List Event)
    {since : List Event} (h : ∀ e ∈ since, (∀ policy, e ≠ .policy policy) ∧
    ∀ permissions, e ≠ .grant permissions) : policyNow policy (log ++ since) = policyNow policy log ∧
      grantNow grant (log ++ since) = grantNow grant log := by
  induction since using List.reverseRecOn with
  | nil => simp
  | append_singleton since e ih =>
    obtain ⟨hpolicy, hgrant⟩ := ih fun x hx => h x (List.mem_append_left _ hx)
    obtain ⟨hnopolicy, hnogrant⟩ := h e (by simp)
    rw [← List.append_assoc, policyNow_concat, grantNow_concat]
    cases e with
    | policy current => exact absurd rfl (hnopolicy current)
    | grant permissions => exact absurd rfl (hnogrant permissions)
    | _ => exact ⟨hpolicy, hgrant⟩

/-- Without a change since the commands were taken, what was read is what is allowed now. -/
theorem Reading.permitted_now {log : List Event} {p : GuestPermissions} {event : InputEvent}
    (h : Reading c policy grant log p) (hp : Permitted p event) (hundisturbed : Undisturbed log) :
    Permitted (allowedAt c policy grant log) event := by
  obtain ⟨before, since, rfl, hsince, current, clipboard, ⟨earlier, between, rfl, hbetween, rfl⟩,
    rfl⟩ := h
  set p := Guests.intersect (grantNow grant earlier)
    (permissionCeiling c (policyNow policy (earlier ++ Event.taken :: between)) clipboard)
  have htaken : Event.taken ∉ between ++ Event.effective p :: since := by
    intro hmem
    rcases List.mem_append.mp hmem with hmem | hmem
    · exact absurd (hbetween _ hmem) (by simp [Event.passes])
    · rcases List.mem_cons.mp hmem with hmem | hmem
      · cases hmem
      · exact absurd (hsince _ hmem) (by simp [Event.passes])
  have hlog : (earlier ++ Event.taken :: between) ++ Event.effective p :: since =
      earlier ++ Event.taken :: (between ++ Event.effective p :: since) := by simp
  rw [hlog, Undisturbed, sinceTaken_eq htaken] at hundisturbed
  -- neither policy nor grant has changed, before the reading or after it
  have hbefore := now_append policy grant (earlier ++ [Event.taken])
    fun e he => hundisturbed e (List.mem_append_left _ he)
  have hnow := now_append policy grant (earlier ++ [Event.taken])
    hundisturbed
  simp only [List.append_assoc, List.singleton_append, policyNow_concat, grantNow_concat]
    at hbefore hnow
  rw [allowedAt, hlog, hnow.1, hnow.2]
  refine hp.mono ?_
  simp [p, hbefore.1, releases, Guests.intersect, permissionCeiling]

/-- What the session knows in a phase. -/
def Phase.Knows (c : Connection) (policy : HostPolicy) (grant : GuestPermissions)
    (log : List Event) (session : Session) : Phase → Prop
  | .taken _ => Taken grant log session.grantPermissions
  | .refreshed _ => Reading c policy grant log session.effectivePermissions
  | _ => True

/-- What is held is permitted by `p`. -/
def Held (p : GuestPermissions) (log : List Event) : Prop :=
  Each (fun _ e after => ∀ event, e = .effect (.inject event) →
    Permitted p event ∨ .effect .releaseInput ∈ after) log

variable {inputs : List Effect}

variable (c policy grant inputs) in
structure Inv (s : State) : Prop where
  ceiling : policyNow policy s.log = s.policy
  alive : s.phase ≠ .ended → s.session.admission.state = .authenticated ∧
    grantNow grant s.log = granted s.queue s.session.grantPermissions
  held : Held s.session.effectivePermissions s.log
  knows : s.phase.Knows c policy grant s.log s.session
  lawful : Each (fun before e _ => Lawful c policy grant before e) s.log
  recorded : s.session.inputs = inputs ++ given s.log

theorem inv_start {session : Session} (hauth : session.admission.state = .authenticated) :
    Inv c policy session.grantPermissions session.inputs (start session policy) where
  ceiling := rfl
  alive _ := ⟨hauth, rfl⟩
  held := each_nil _
  knows := trivial
  lawful := each_nil _
  recorded := by simp [start, given]

theorem Held.concat {p : GuestPermissions} {log : List Event} {e : Event} (h : Held p log)
    (he : ∀ event, e = .effect (.inject event) → Permitted p event) : Held p (log ++ [e]) := by
  refine each_concat.mpr ⟨h.imp fun _ _ _ hx event hevent => ?_, fun event hevent => ?_⟩
  · exact (hx event hevent).imp_right fun hmem => List.mem_append_left _ hmem
  · exact .inl (he event hevent)

theorem Held.mono {p p' : GuestPermissions} {log : List Event} (h : Held p log)
    (hkept : releases p p' = false) : Held p' log :=
  h.imp fun _ _ _ hx event hevent => (hx event hevent).imp_left fun hp => hp.mono hkept

theorem Held.release {p : GuestPermissions} {log : List Event} :
    Held p (log ++ [Event.effect .releaseInput]) := by
  refine each_concat.mpr ⟨fun _ _ _ _ _ _ => .inr (by simp), fun event hevent => ?_⟩
  cases hevent

/-! ### Steps -/

theorem inv_setPolicy {s : State} (h : Inv c policy grant inputs s) (current : HostPolicy) :
    Inv c policy grant inputs ({ s with policy := current }.mark (.policy current)) where
  ceiling := by simp [State.mark]
  alive hs := by simpa [State.mark] using h.alive hs
  held := h.held.concat nofun
  knows := by
    have hknows := h.knows
    rcases hphase : s.phase with _ | _ | _ | _ | _ <;>
      simp only [hphase, Phase.Knows, State.mark] at hknows ⊢
    · exact hknows.concat rfl
    · exact hknows.concat rfl
  lawful := h.lawful.concat trivial
  recorded := by simpa [State.mark, Event.given] using h.recorded

theorem inv_command {s s' : State} (h : Inv c policy grant inputs s) {command : GuestCommand}
    (hs : step c s (.command command) = some s') : Inv c policy grant inputs s' := by
  have hgranted : granted (s.queue ++ [command]) s.session.grantPermissions =
      granted [command] (granted s.queue s.session.grantPermissions) := List.foldl_append
  cases command with
  | permissions permissions =>
    cases hs
    exact {
      ceiling := by simpa [State.mark] using h.ceiling
      alive := fun hs => ⟨(h.alive hs).1, by simp [State.mark, granted]⟩
      held := h.held.concat nofun
      knows := by
        have hknows := h.knows
        rcases hphase : s.phase with _ | _ | _ | _ | _ <;>
          simp only [hphase, Phase.Knows, State.mark] at hknows ⊢
        · exact hknows.concat rfl
        · exact hknows.concat rfl
      lawful := h.lawful.concat trivial
      recorded := by simpa [State.mark, Event.given] using h.recorded }
  | fin reason =>
    cases hs
    exact { h with alive := fun hs => ⟨(h.alive hs).1, (h.alive hs).2.trans hgranted.symm⟩ }
  | status status =>
    cases hs
    exact { h with alive := fun hs => ⟨(h.alive hs).1, (h.alive hs).2.trans hgranted.symm⟩ }

theorem inv_after {s : State} (h : Inv c policy grant inputs s) {α : Type} {o : Except Exit α × Session}
    {phase : α → Phase} (hgate : o.2.gate = s.session.gate) (halive : s.phase ≠ .ended)
    (hknows : ∀ a, (phase a).Knows c policy grant s.log s.session) :
    Inv c policy grant inputs (s.after o phase) := by
  obtain ⟨hinputs, heffective, hgrant, hstate⟩ := Session.gate_eq_iff.mp hgate
  have hlog : (s.after o phase).log = s.log := by simp [State.after, hinputs]
  refine ⟨?_, fun _ => ?_, ?_, ?_, ?_, ?_⟩
  · rw [hlog]
    exact h.ceiling
  · obtain ⟨hauth, hqueue⟩ := h.alive halive
    rw [hlog]
    exact ⟨hstate.trans hauth, hqueue.trans (congrArg _ hgrant.symm)⟩
  · rw [hlog]
    show Held o.2.effectivePermissions s.log
    rw [heffective]
    exact h.held
  · rw [hlog]
    rcases o with ⟨(_ | _ | _) | a, s'⟩
    · trivial
    · trivial
    · trivial
    · have hknows := hknows a
      show (phase a).Knows c policy grant s.log s'
      rcases hphase : phase a with _ | _ | _ | _ | _ <;>
        simp only [hphase, Phase.Knows] at hknows ⊢
      · rwa [hgrant]
      · rwa [heffective]
  · rw [hlog]
    exact h.lawful
  · rw [hlog, State.after_session, hinputs]
    exact h.recorded

theorem inv_take {s : State} (h : Inv c policy grant inputs s) {t : Turn}
    {packet : Option (List UInt8)} (hphase : s.phase = .read packet) :
    Inv c policy grant inputs (({ s with queue := [] }.mark .taken).after
      ((serveGuest { t with commands := s.queue }).exec s.session) fun _ => .taken packet) := by
  obtain ⟨hauth, hqueue⟩ := h.alive (by simp [hphase])
  obtain ⟨hlatch, hends⟩ := serveGuest_latch { t with commands := s.queue } s.session
  rcases ho : (serveGuest { t with commands := s.queue }).exec s.session with ⟨r, s'⟩
  rw [ho] at hlatch hends
  obtain ⟨hinputs, heffective, hstate⟩ := Session.latch_eq_iff.mp hlatch
  have hlog : ((({ s with queue := [] } : State).mark .taken).after (r, s')
      fun _ => .taken packet).log = s.log ++ [Event.taken] := by
    simp [State.after, State.mark, hinputs]
  have hceiling : policyNow policy (s.log ++ [Event.taken]) = s.policy := by simpa using h.ceiling
  have hheld : Held s'.effectivePermissions (s.log ++ [Event.taken]) := by
    rw [heffective]
    exact h.held.concat nofun
  have hlawful : Each (fun before e _ => Lawful c policy grant before e) (s.log ++ [Event.taken]) :=
    h.lawful.concat trivial
  have hrecorded : s'.inputs = inputs ++ given (s.log ++ [Event.taken]) := by
    rw [hinputs]
    simpa [Event.given] using h.recorded
  rcases r with e | u
  · have hended := Phase.of_ends (fun _ : Unit => Phase.taken packet) (hends e rfl)
    refine ⟨hlog ▸ hceiling, fun halive => absurd hended halive, hlog ▸ hheld, ?_, hlog ▸ hlawful,
      hlog ▸ hrecorded⟩
    show (Phase.of _ _).Knows c policy grant _ _
    rw [hended]
    trivial
  · have htaken : s'.grantPermissions = grantNow grant s.log :=
      (serveGuest_grant ho).trans hqueue.symm
    refine ⟨hlog ▸ hceiling, fun _ => ⟨hstate.trans hauth, ?_⟩, hlog ▸ hheld, ?_, hlog ▸ hlawful,
      hlog ▸ hrecorded⟩
    · rw [hlog, grantNow_concat]
      exact htaken.symm
    · rw [hlog]
      exact ⟨s.log, [], rfl, nofun, htaken⟩

/-- The policy is read, after what is no longer permitted has been released. -/
theorem inv_refresh {s : State} (h : Inv c policy grant inputs s) {t : Turn}
    {packet : Option (List UInt8)} (hphase : s.phase = .taken packet) :
    Inv c policy grant inputs ((s.after ((updatePermissions c { t with policy := s.policy }).exec s.session)
      fun _ => .refreshed packet).mark (.effective
        ((updatePermissions c { t with policy := s.policy }).exec s.session).2.effectivePermissions)) := by
  obtain ⟨hauth, hqueue⟩ := h.alive (by simp [hphase])
  have hknows : Taken grant s.log s.session.grantPermissions := by
    simpa [hphase, Phase.Knows] using h.knows
  have hends := (updatePermissions_calm c { t with policy := s.policy } s.session).2
  have hgate := updatePermissions_exec c { t with policy := s.policy } s.session
  rcases ho : (updatePermissions c { t with policy := s.policy }).exec s.session with ⟨r, s'⟩
  rw [ho] at hends hgate
  simp only [Session.gate, Prod.mk.injEq] at hgate
  obtain ⟨hinputs, heffective, hgrant, hstate⟩ := hgate
  set p := allowedNow c s.policy s.session with hp
  -- the log before the mark
  obtain ⟨log, hlog, hceiling, hqueued, hknown, hheld, hlawful, hrecorded⟩ : ∃ log : List Event,
      s.log ++ (s'.inputs.drop s.session.inputs.length).map .effect = log ∧
      policyNow policy log = s.policy ∧ grantNow grant log = grantNow grant s.log ∧
      Taken grant log s.session.grantPermissions ∧ Held p log ∧
      Each (fun before e _ => Lawful c policy grant before e) log ∧
      s'.inputs = inputs ++ given log := by
    by_cases hreleases : releases s.session.effectivePermissions p = true
    · refine ⟨s.log ++ [Event.effect .releaseInput], ?_, by simpa using h.ceiling, by simp,
        hknows.concat rfl, Held.release, h.lawful.concat ?_, ?_⟩
      · simp [hinputs, hreleases]
      · trivial
      · simp [hinputs, hreleases, h.recorded, Event.given]
    · refine ⟨s.log, ?_, h.ceiling, rfl, hknows, h.held.mono (by simpa using hreleases), h.lawful,
        ?_⟩
      · simp [hinputs, hreleases]
      · simp [hinputs, hreleases, h.recorded]
  have hmarked : ((s.after (r, s') fun _ : Unit => .refreshed packet).mark
      (.effective s'.effectivePermissions)).log = log ++ [Event.effective p] := by
    simp only [State.after, State.mark, hlog, heffective]
  refine ⟨?_, fun halive => ⟨hstate.trans hauth, ?_⟩, ?_, ?_, ?_, ?_⟩
  · rw [hmarked]
    simpa using hceiling
  · rw [hmarked]
    simp only [grantNow_concat]
    exact (hqueued.trans hqueue).trans (congrArg _ hgrant.symm)
  · rw [hmarked]
    show Held s'.effectivePermissions _
    rw [heffective]
    exact hheld.concat (by rintro _ ⟨⟩)
  · rw [hmarked]
    rcases r with e | u
    · show (Phase.of _ _).Knows c policy grant _ _
      rw [Phase.of_ends _ (hends e rfl)]
      trivial
    · refine ⟨log, [], by rw [← heffective]; rfl, by rintro _ ⟨⟩, _, s.session.clipboardSync, hknown, ?_⟩
      rw [hceiling]
      exact heffective
  · rw [hmarked]
    exact hlawful.concat fun earlier event since hbefore =>
      hheld earlier (.effect (.inject event)) since hbefore event rfl
  · rw [hmarked]
    simpa [Event.given] using hrecorded

theorem inv_serve {s : State} (h : Inv c policy grant inputs s) {t : Turn}
    {packet : Option (List UInt8)} (hphase : s.phase = .refreshed packet) :
    Inv c policy grant inputs (s.after ((serving c t packet).exec s.session) fun _ => .top) := by
  obtain ⟨hauth, hqueue⟩ := h.alive (by simp [hphase])
  rcases @serving_injects _ t c packet hauth with hgate | ⟨event, hpermitted, hgate⟩
  · exact inv_after h hgate (by simp [hphase]) fun _ => trivial
  · generalize (serving c t packet).exec s.session = o at hgate
    simp only [Session.gate, Prod.mk.injEq] at hgate
    obtain ⟨hinputs, heffective, hgrant, hstate⟩ := hgate
    have hlog : (s.after o fun _ => .top).log = s.log ++ [Event.effect (.inject event)] := by
      simp [State.after, hinputs]
    have hknows : Reading c policy grant s.log s.session.effectivePermissions := by
      simpa [hphase, Phase.Knows] using h.knows
    refine ⟨?_, fun _ => ⟨hstate.trans hauth, ?_⟩, ?_, ?_, ?_, ?_⟩
    · rw [hlog]
      simpa using h.ceiling
    · rw [hlog]
      simpa [hgrant] using hqueue
    · rw [hlog, State.after_session, heffective]
      refine h.held.concat fun event' hevent => ?_
      cases hevent
      exact hpermitted
    · rcases o with ⟨(_ | _ | _) | u, s'⟩ <;> trivial
    · rw [hlog]
      exact h.lawful.concat ⟨⟨_, hknows, hpermitted⟩, hknows.permitted_now hpermitted⟩
    · rw [hlog, State.after_session, hinputs, h.recorded]
      simp [Event.given]

theorem inv_step {s s' : State} {a : Action} (h : Inv c policy grant inputs s)
    (hs : step c s a = some s') : Inv c policy grant inputs s' := by
  cases a with
  | setPolicy current =>
    cases hs
    exact inv_setPolicy h current
  | command command => exact inv_command h hs
  | read t =>
    simp only [step] at hs
    split at hs
    next hphase =>
      cases hs
      exact inv_after h (reading_gate c t (s.session.enter t)).1 (by simp [hphase]) fun _ => trivial
    · cases hs
  | take t =>
    simp only [step] at hs
    split at hs
    next packet hphase =>
      cases hs
      exact inv_take h hphase
    · cases hs
  | refresh t =>
    simp only [step] at hs
    split at hs
    next packet hphase =>
      cases hs
      exact inv_refresh h hphase
    · cases hs
  | serve t =>
    simp only [step] at hs
    split at hs
    next packet hphase =>
      cases hs
      exact inv_serve h hphase
    · cases hs

end

/-! ### The permissions of what is injected -/

/-- **Every input is permitted**, by what its own iteration has read, and what is withdrawn has been
released. -/
theorem inputs_permitted {c : Connection} {policy : HostPolicy} {session : Session}
    (hauth : session.admission.state = .authenticated) {as : List Action} {s : State}
    (h : run c (start session policy) as = some s) :
    s.session.inputs = session.inputs ++ given s.log ∧
      Each (fun before e _ => Lawful c policy session.grantPermissions before e) s.log := by
  have hinv : Inv c policy session.grantPermissions session.inputs s :=
    Machine.run_inv inv_step (inv_start hauth) h
  exact ⟨hinv.recorded, hinv.lawful⟩

def exampleSession : Session :=
  { Session.start (exampleConnection false) ⟨true, true⟩ [] 0 exampleDisk with
    admission := ⟨.authenticated, none, none⟩ }

def exampleKey : InputEvent := ⟨.keyDown, 0, 0, 65, .empty, 0, 0⟩

/-- A key is pressed. -/
def exampleTurn : Turn :=
  { Turn.idle exampleDisk with
    read := .ok (some (frame .inputEvent
      ([6, 0, 0, 0, 0, 0, 0, 0, 0, 65] ++ List.replicate 11 0))) }

def exampleIteration : List Action :=
  [.read exampleTurn, .take exampleTurn, .refresh exampleTurn, .serve exampleTurn]

/-- Input is forbidden between two keys: the first is released, the second is not injected. -/
theorem inputs_permitted_withdrawn : ∃ s,
    run (exampleConnection false) (start exampleSession ⟨true, true⟩)
      (exampleIteration ++ .setPolicy ⟨false, true⟩ :: exampleIteration) = some s ∧
    s.session.inputs = [.inject exampleKey, .releaseInput] ∧
    s.session.inputs = [] ++ given s.log :=
  ⟨_, rfl, rfl, (@inputs_permitted (exampleConnection false) ⟨true, true⟩ exampleSession rfl
    (exampleIteration ++ .setPolicy ⟨false, true⟩ :: exampleIteration) _ rfl).1⟩

/-- Input is forbidden between the reading of the permissions and the dispatch: the key is injected
all the same. -/
theorem inputs_permitted_stale : ∃ s log,
    run (exampleConnection false) (start exampleSession ⟨true, true⟩)
      [.read exampleTurn, .take exampleTurn, .refresh exampleTurn, .setPolicy ⟨false, true⟩,
        .serve exampleTurn] = some s ∧
    s.log = log ++ [.effect (.inject exampleKey)] ∧
    ¬ Permitted (allowedAt (exampleConnection false) ⟨true, true⟩ exampleSession.grantPermissions log)
      exampleKey :=
  ⟨_, _, rfl, rfl, by decide⟩

end InputPermissions
end MahoRD.Host

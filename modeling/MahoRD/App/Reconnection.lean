/-
MahoRD/App/Reconnection.lean

When the supervisor connects again, and what its listener gets.

Three invariants.  `Gate` is about the four things the decision depends on, which
change while the supervisor is on its way from one to the next: once the worker
is joined, nobody can end the session any more, and nobody but an interrupt can
set the flag.  `Ledger` is about the output: it is what was delivered, followed by
at most one error, and it has a verdict exactly when the loop was not left for a
stop or an interrupt.  `Turnover` is about the events of the generations: an error
is delivered last, so that nothing waits when a generation is replaced.
-/
import MahoRD.App.Supervisor

namespace MahoRD.Supervision

open RuntimeEvents (Carried)

/-! ### The gate -/

/-- What an attempt needs to be allowed. -/
structure Attempt.Entitled (a : Attempt) : Prop where
  cause : a.cause.shouldReconnect = true
  trust : a.trust ≠ .guestOnce
  ended : a.ended = false
  found : a.found = false
  cancelled : a.cancelled = false

structure Retry.Eligible (r : Retry) : Prop where
  cause : r.cause.shouldReconnect = true
  trust : r.trust ≠ .guestOnce

/-- The connection was not ended, and nobody but an interrupt has set the flag. -/
structure State.Broken (x : State) : Prop where
  received : x.received = false
  cancelled : x.cancelled = true → x.interrupted = true

/-- What the supervisor may count on where it is. -/
def Here (x : State) : Supervisor → Prop
  | .topEnded => x.cancelled = true
  | .reading _ => x.worker = .done
  | .looking _ pairing | .deciding _ pairing =>
    x.worker = .done ∧ (pairing.isSome = true → x.Broken)
  | .lookingEnded _ pairing =>
    x.cancelled = true ∧ x.worker = .done ∧ (pairing.isSome = true → x.Broken)
  | .retrying r | .waiting r | .checking r _ | .attempting r =>
    x.worker = .done ∧ x.Broken ∧ r.Eligible
  | .refused r => x.worker = .done ∧ x.received = true ∧ r.Eligible
  | .attempted r result =>
    x.worker = .done ∧ r.Eligible ∧ (x.Broken ∨ result = .error .permissionDenied)
  | _ => True

structure Gate (x : State) : Prop where
  received : x.received = true → x.client.ended.isSome = true
  ending : ∀ reason, x.worker = .interrupting reason → x.received = true
  cancelled : x.cancelled = true → x.interrupted = true ∨ x.client.ended.isSome = true
  entitled : ∀ a ∈ x.attempts, a.Entitled
  here : Here x x.supervisor

theorem gate_start (client : ClientState) : Gate (start client) where
  received h := by cases h
  ending _ h := by cases h
  cancelled h := by cases h
  entitled _ h := by cases h
  here := trivial

variable {p q : Supervisor} {x x' : State} {a : Action}

theorem Here.mono (h : Here x p)
    (hcancelled : x.cancelled = true → x'.cancelled = true)
    (hworker : x.worker = .done → x'.worker = .done ∧ x'.received = x.received ∧
      (x.Broken → x'.Broken)) : Here x' p := by
  cases p with
  | topEnded => exact hcancelled h
  | reading => exact (hworker h).1
  | looking | deciding => exact ⟨(hworker h.1).1, fun hp => (hworker h.1).2.2 (h.2 hp)⟩
  | lookingEnded =>
    exact ⟨hcancelled h.1, (hworker h.2.1).1, fun hp => (hworker h.2.1).2.2 (h.2.2 hp)⟩
  | retrying | waiting | checking | attempting =>
    exact ⟨(hworker h.1).1, (hworker h.1).2.2 h.2.1, h.2.2⟩
  | refused => exact ⟨(hworker h.1).1, (hworker h.1).2.1.trans h.2.1, h.2.2⟩
  | attempted => exact ⟨(hworker h.1).1, h.2.1, h.2.2.imp_left (hworker h.1).2.2⟩
  | top | topFlag | receiving | forwarding | stopping | joining | spawning | failing | finishing
  | joiningLast | closing | done => trivial

/-! ### The worker and the others keep it -/

theorem Gate.worker (h : Gate x) (hrunning : x.worker ≠ .done)
    (hreceived : x'.received = true → x'.client.ended.isSome = true)
    (hending : ∀ reason, x'.worker = .interrupting reason → x'.received = true)
    (hcancelled : x.cancelled = true → x'.cancelled = true)
    (hflag : x'.cancelled = true → x'.interrupted = true ∨ x'.client.ended.isSome = true)
    (hattempts : x'.attempts = x.attempts) (hsupervisor : x'.supervisor = x.supervisor) :
    Gate x' :=
  ⟨hreceived, hending, hflag, hattempts ▸ h.entitled,
    hsupervisor ▸ h.here.mono hcancelled fun hw => absurd hw hrunning⟩

theorem Gate.workerOnly (h : Gate x) (hrunning : x.worker ≠ .done) {worker : Worker}
    (hworker : ∀ reason, worker ≠ .interrupting reason) (events : RuntimeEvents)
    (reported : List SessionEvent) {client : ClientState}
    (hclient : client.ended = x.client.ended) :
    Gate { x with worker, events, reported, client } :=
  h.worker hrunning (fun hr => hclient ▸ h.received hr) (fun reason hr => absurd hr (hworker reason))
    (fun hc => hc) (fun hc => hclient ▸ h.cancelled hc) rfl rfl

theorem gate_worker (h : Gate x) (ht : WorkerTurn x x') : Gate x' := by
  cases ht with
  | event hw event =>
    have hworker : ∀ reason, x.worker ≠ .interrupting reason := by simp [hw]
    exact h.workerOnly (by simp [hw]) hworker _ _ rfl
  | fail hw error => exact h.workerOnly (by simp [hw]) (by simp) _ _ rfl
  | sessionEnded hw reason =>
    exact h.worker (by simp [hw]) (fun _ => rfl) (fun _ _ => rfl) (fun hc => hc)
      (fun _ => Or.inr rfl) rfl rfl
  | interrupt hw =>
    -- the flag is set for an end that has been recorded
    exact h.worker (by simp [hw]) h.received (fun _ hr => nomatch hr) (fun _ => rfl)
      (fun _ => Or.inr (h.received (h.ending _ hw))) rfl rfl
  | drop hw => exact h.workerOnly (by simp [hw]) (by simp) _ _ rfl
  | report hw =>
    have hworker : ∀ reason, Worker.running ≠ .interrupting reason := by simp
    exact h.workerOnly (by simp [hw]) hworker _ _ rfl
  | stop hw => exact h.workerOnly hw (by simp) _ _ rfl
  | clean hw => exact h.workerOnly (by simp [hw]) (by simp) _ _ rfl
  | close hw error => exact h.workerOnly (by simp [hw]) (by simp) _ _ rfl

/-- A step that leaves the recorded end alone and sets no flag but by an
interrupt. -/
theorem Gate.outside (h : Gate x) (hended : x'.client.ended = x.client.ended)
    (hreceived : x'.received = x.received) (hworker : x'.worker = x.worker)
    (hcancelled : x.cancelled = true → x'.cancelled = true)
    (hflag : x'.cancelled = true → x'.interrupted = true ∨ x.cancelled = true)
    (hinterrupted : x.interrupted = true → x'.interrupted = true)
    (hattempts : x'.attempts = x.attempts) (hsupervisor : x'.supervisor = x.supervisor) :
    Gate x' := by
  refine ⟨?_, ?_, fun hc => ?_, hattempts ▸ h.entitled, hsupervisor ▸ h.here.mono hcancelled ?_⟩
  · rw [hreceived, hended]
    exact h.received
  · rw [hreceived, hworker]
    exact h.ending
  · rw [hended]
    exact (hflag hc).elim Or.inl fun hc => (h.cancelled hc).imp_left hinterrupted
  · rw [hworker]
    refine fun hw => ⟨hw, hreceived, fun hb => ⟨hreceived ▸ hb.received, fun hc => ?_⟩⟩
    exact (hflag hc).elim (fun hi => hi) fun hc => hinterrupted (hb.cancelled hc)

/-! ### The supervisor keeps it -/

theorem Gate.goto (h : Gate x) (hp : Here x p) : Gate (x.goto p) :=
  ⟨h.received, h.ending, h.cancelled, h.entitled,
    hp.mono (fun hc => hc) fun hw => ⟨hw, rfl, fun hb => ⟨hb.1, hb.2⟩⟩⟩

theorem Gate.forward (h : Gate x) (item : Item) : Gate (x.forward item) :=
  h.outside rfl rfl rfl (fun hc => hc) Or.inr (fun hi => hi) rfl rfl

theorem Gate.stopGeneration (h : Gate x) : Gate { x with generationStop := true } :=
  h.outside rfl rfl rfl (fun hc => hc) Or.inr (fun hi => hi) rfl rfl

/-- Once the worker is joined and no end is recorded, the connection is broken. -/
theorem Gate.broken (h : Gate x) (hended : x.client.ended.isSome = false) :
    x.Broken where
  received := by
    rcases hreceived : x.received with - | -
    · rfl
    · rw [h.received hreceived] at hended
      cases hended
  cancelled hc := (h.cancelled hc).resolve_right fun he => by rw [he] at hended; cases hended

theorem gate_receive (h : Gate x) : Gate x.receive := by
  unfold State.receive
  split
  next event events _ =>
    exact Gate.goto (x := { x with events, delivered := x.delivered ++ [event] })
      (h.outside rfl rfl rfl (fun hc => hc) Or.inr (fun hi => hi) rfl rfl) trivial
  · exact h.goto trivial
  next error events _ =>
    exact Gate.goto (x := { x with events })
      (h.outside rfl rfl rfl (fun hc => hc) Or.inr (fun hi => hi) rfl rfl) trivial
  · exact h.goto trivial

theorem gate_attempt {r : Retry} (h : Gate x) (hworker : x.worker = .done)
    (hb : x.Broken) (hr : r.Eligible) (hcancelled : x.cancelled = false) :
    Gate (x.attempt r false) where
  received hreceived := nomatch hreceived
  ending reason hw := by
    have hdone : (x.attempt r false).worker = .done := hworker
    rw [hdone] at hw
    cases hw
  cancelled := h.cancelled
  entitled a ha := by
    rcases List.mem_append.mp ha with hold | hnew
    · exact h.entitled a hold
    · rw [List.mem_singleton.mp hnew]
      exact ⟨hr.cause, hr.trust, hb.received, rfl, hcancelled⟩
  here := ⟨hworker, ⟨rfl, hb.cancelled⟩, hr⟩

/-- What the supervisor may count on after a move.  That the connection is broken
comes from reading its end; an attempt comes of an error that is worth it and of a
pairing that is not for one time. -/
theorem Move.here (hmove : Move x q p) (hg : Gate x)
    (h : Here x q) : Here x p := by
  cases hmove with
  | flagged hcancelled => exact hcancelled
  | joined hdone => exact hdone
  | read =>
    refine ⟨h, fun hpairing => ?_⟩
    rcases hended : x.client.ended.isSome with - | -
    · exact hg.broken hended
    · rw [hended] at hpairing
      cases hpairing
  | lookFlagged hcancelled => exact ⟨hcancelled, h⟩
  | lookUnflagged => exact h
  | lookStay => exact h.2
  | retry hworth htrust => exact ⟨h.1, h.2 rfl, ⟨hworth, htrust⟩⟩
  | wait | wake => exact h
  | connect => exact ⟨h.1, h.2.2, Or.inl h.2.1⟩
  | again hworth =>
    -- a refusal is not worth another attempt
    have hbroken : x.Broken := h.2.2.resolve_right fun hrefused => by
      rw [Except.error.inj hrefused] at hworth
      cases hworth
    exact ⟨h.1, hbroken, ⟨hworth, h.2.1.trust⟩⟩
  | stopped | goOn | unflagged | leave | stay | lookLeave | give | expire | caught | success
  | giveUp | unspawned | joinedLast => trivial

theorem gate_connecting (h : Gate x) {r : Retry} (hpc : x.supervisor = .attempting r)
    (client : ClientState) : Gate { x with client } := by
  have hhere := h.here
  rw [hpc] at hhere
  obtain ⟨hworker, hb, hr⟩ := hhere
  refine ⟨fun hreceived => ?_, h.ending, fun hc => Or.inl (hb.cancelled hc), h.entitled, ?_⟩
  · rw [show x.received = false from hb.received] at hreceived
    cases hreceived
  · show Here { x with client } x.supervisor
    rw [hpc]
    exact ⟨hworker, ⟨hb.received, hb.cancelled⟩, hr⟩

theorem gate_supervisor (h : Gate x) (ht : Turn x x') : Gate x' := by
  have hhere := h.here
  cases ht with
  | goto hpc hmove =>
    rw [hpc] at hhere
    exact h.goto (hmove.here h hhere)
  | receive => exact gate_receive h
  | forward =>
    refine (h.forward _).goto ?_
    split <;> trivial
  | fail => exact (h.forward _).goto trivial
  | stop | stopLast => exact h.stopGeneration.goto trivial
  | close =>
    exact Gate.goto (x := { x with output := x.output.close })
      (h.outside rfl rfl rfl (fun hc => hc) Or.inr (fun hi => hi) rfl rfl) trivial
  | attempt hpc hcancelled =>
    rw [hpc] at hhere
    exact gate_attempt h hhere.1 hhere.2.1 hhere.2.2 hcancelled
  | connecting hpc client => exact gate_connecting h hpc client
  | refuse hpc reason =>
    rw [hpc] at hhere
    exact ⟨fun _ => rfl, fun _ _ => rfl, fun _ => Or.inr rfl, h.entitled, hhere.1, rfl, hhere.2.2⟩
  | refused hpc =>
    rw [hpc] at hhere
    exact ⟨h.received, h.ending, fun _ => Or.inr (h.received hhere.2.1), h.entitled,
      hhere.1, hhere.2.2, Or.inr rfl⟩
  | spawn => exact ⟨h.received, (fun _ hw => nomatch hw), h.cancelled, h.entitled, trivial⟩

theorem gate_step (h : Gate x) (hs : step x a = some x') : Gate x' := by
  cases a with
  | supervisor a => exact gate_supervisor h (supervisorStep_cases hs)
  | worker a => exact gate_worker h (workerStep_cases hs)
  | interrupt =>
    cases hs
    exact h.outside rfl rfl rfl (fun _ => rfl) (fun _ => Or.inl rfl) (fun _ => rfl) rfl rfl
  | stop | disconnect | setTrust =>
    cases hs
    exact h.outside rfl rfl rfl (fun hc => hc) Or.inr (fun hi => hi) rfl rfl
  | drain =>
    simp only [step] at hs
    split at hs
    · cases hs
    · cases hs
      exact h.outside rfl rfl rfl (fun hc => hc) Or.inr (fun hi => hi) rfl rfl

/-! ### The ledger -/

/-- What was delivered and is not forwarded yet. -/
def Supervisor.inHand : Supervisor → List Item
  | .forwarding event => [.ok event]
  | _ => []

/-- The last item is a verdict, and no other is. -/
def Concluded (items : List Item) : Prop :=
  ∃ l v, items = l ++ [v] ∧ v.verdict = true ∧ ∀ i ∈ l, i.verdict = false

structure Ledger (x : State) : Prop where
  forwarded : ∃ error : Option Client.SessionError,
    (error.isSome = true → x.supervisor.over = true) ∧
    x.forwarded ++ x.supervisor.inHand = x.delivered.map .ok ++ error.toList.map .error
  carried : Carried x.forwarded x.drained x.output
  going : x.supervisor.over = false → ∀ i ∈ x.forwarded, i.verdict = false
  concluded : x.supervisor.over = true →
    x.stopRequested = true ∨ x.interrupted = true ∨ Concluded x.forwarded
  closed : x.output.closed = true ↔ x.supervisor = .done

theorem ledger_start (client : ClientState) : Ledger (start client) where
  forwarded := ⟨none, (fun h => nomatch h), rfl⟩
  carried := RuntimeEvents.carried_new
  going _ _ hi := nomatch hi
  concluded h := nomatch h
  closed := by simp [start, RuntimeEvents.new]

theorem Ledger.outside (h : Ledger x) (hforwarded : x'.forwarded = x.forwarded)
    (hdelivered : x'.delivered = x.delivered) (hsupervisor : x'.supervisor = x.supervisor)
    (houtput : x'.output = x.output) (hdrained : x'.drained = x.drained)
    (hstop : x.stopRequested = true → x'.stopRequested = true)
    (hinterrupted : x.interrupted = true → x'.interrupted = true) : Ledger x' := by
  refine ⟨?_, ?_, ?_, ?_, ?_⟩
  · rw [hforwarded, hdelivered, hsupervisor]
    exact h.forwarded
  · rw [hforwarded, hdrained, houtput]
    exact h.carried
  · rw [hforwarded, hsupervisor]
    exact h.going
  · rw [hforwarded, hsupervisor]
    exact fun hover => (h.concluded hover).imp hstop (Or.imp_left hinterrupted)
  · rw [houtput, hsupervisor]
    exact h.closed

/-- The supervisor moves on with nothing in hand, and leaves the loop only for a
stop or an interrupt. -/
theorem Ledger.goto (h : Ledger x)
    (hhand : p.inHand = x.supervisor.inHand) (hdone : p = .done ↔ x.supervisor = .done)
    (hover : x.supervisor.over = true → p.over = true)
    (hleft : p.over = true → x.supervisor.over = true ∨ x.stopRequested = true ∨
      x.interrupted = true) : Ledger (x.goto p) where
  forwarded := by
    obtain ⟨error, he, heq⟩ := h.forwarded
    refine ⟨error, fun hs => hover (he hs), ?_⟩
    show x.forwarded ++ p.inHand = _
    rw [hhand]
    exact heq
  carried := h.carried
  going hp := by
    have hstill : p.over = false := hp
    refine h.going ?_
    rcases hx : x.supervisor.over with - | -
    · rfl
    · rw [hover hx] at hstill
      cases hstill
  concluded hp := (hleft hp).elim h.concluded fun hwhy => hwhy.imp_right Or.inl
  closed := h.closed.trans hdone.symm

/-- Within the loop, with nothing in hand. -/
def Supervisor.Free (p : Supervisor) : Prop := p.over = false ∧ p.inHand = []

theorem Supervisor.Free.ne_done (h : p.Free) : p ≠ .done := by
  rintro rfl
  cases h.1

theorem Ledger.within (h : Ledger x) (hpc : x.supervisor = q)
    (hq : q.Free) (hp : p.Free) : Ledger (x.goto p) := by
  rw [← hpc] at hq
  refine h.goto (hp.2.trans hq.2.symm) (iff_of_false hp.ne_done hq.ne_done) (fun ho => ?_)
    fun ho => ?_
  · rw [hq.1] at ho
    cases ho
  · rw [hp.1] at ho
    cases ho

theorem Ledger.leave (h : Ledger x) (hpc : x.supervisor = q)
    (hq : q.Free) (hwhy : x.stopRequested = true ∨ x.interrupted = true) :
    Ledger (x.goto .finishing) := by
  rw [← hpc] at hq
  exact h.goto hq.2.symm (iff_of_false (fun hd => nomatch hd) hq.ne_done) (fun _ => rfl)
    fun _ => Or.inr hwhy

theorem Supervisor.inHand_of_over (h : p.over = true) : p.inHand = [] := by
  cases p with
  | finishing | joiningLast | closing | done => rfl
  | _ => cases h

theorem Ledger.after (h : Ledger x) (hpc : x.supervisor = q)
    (hq : q.over = true) (hq' : q ≠ .done) (hp : p.over = true) (hp' : p ≠ .done) :
    Ledger (x.goto p) := by
  rw [← hpc] at hq hq'
  exact h.goto ((Supervisor.inHand_of_over hp).trans (Supervisor.inHand_of_over hq).symm)
    (iff_of_false hp' hq') (fun _ => hp) fun _ => Or.inl hq

theorem Ledger.noError (h : Ledger x) (hx : x.supervisor.over = false) :
    x.forwarded ++ x.supervisor.inHand = x.delivered.map .ok := by
  obtain ⟨error, he, heq⟩ := h.forwarded
  rcases error with - | e
  · simpa using heq
  · rw [he rfl] at hx
    cases hx

theorem Ledger.notClosed (h : Ledger x) (hx : x.supervisor.over = false) :
    x.output.closed = false := by
  rcases hc : x.output.closed with - | -
  · rfl
  · rw [h.closed.mp hc] at hx
    cases hx

theorem ledger_receive (h : Ledger x) (hpc : x.supervisor = .receiving) :
    Ledger x.receive := by
  have hx : x.supervisor.over = false := by rw [hpc]; rfl
  have hhand : x.supervisor.inHand = [] := by rw [hpc]; rfl
  unfold State.receive
  split
  next event events _ =>
    have hnone := h.noError hx
    rw [hhand, List.append_nil] at hnone
    refine ⟨⟨none, (fun he => nomatch he), ?_⟩, h.carried, fun _ => h.going hx,
      (fun ho => nomatch ho), ?_⟩
    · show x.forwarded ++ [Except.ok event] = (x.delivered ++ [event]).map Except.ok ++ []
      rw [List.map_append, hnone, List.append_nil]
      rfl
    · show x.output.closed = true ↔ _
      simp [h.notClosed hx]
  · exact h.within hpc ⟨rfl, rfl⟩ ⟨rfl, rfl⟩
  next error events _ =>
    exact Ledger.within (x := { x with events })
      (h.outside rfl rfl rfl rfl rfl (fun hs => hs) fun hi => hi) hpc ⟨rfl, rfl⟩ ⟨rfl, rfl⟩
  · exact h.within hpc ⟨rfl, rfl⟩ ⟨rfl, rfl⟩

theorem ledger_forwarding (h : Ledger x) {event : SessionEvent}
    (hpc : x.supervisor = .forwarding event) :
    Ledger ((x.forward (.ok event)).goto
      (if Item.verdict (.ok event) then .finishing else .top)) := by
  have hx : x.supervisor.over = false := by rw [hpc]; rfl
  have hgoing := h.going hx
  have hnone := h.noError hx
  rw [hpc] at hnone
  have hclosed : (x.output.push (.ok event)).closed = false := by
    rw [RuntimeEvents.closed_push, h.notClosed hx]
  have hcarried := h.carried.push hgoing (.ok event)
  have hforwarded : (x.forwarded ++ [Except.ok event]) ++ [] = x.delivered.map Except.ok ++ [] := by
    rw [List.append_nil, List.append_nil]
    exact hnone
  rcases hv : Item.verdict (.ok event) with - | -
  · refine ⟨⟨none, (fun he => nomatch he), hforwarded⟩, hcarried, fun _ i hi => ?_,
      (fun ho => nomatch ho), ?_⟩
    · rcases List.mem_append.mp hi with hold | hnew
      · exact hgoing i hold
      · rw [List.mem_singleton.mp hnew]
        exact hv
    · show (x.output.push (.ok event)).closed = true ↔ Supervisor.top = .done
      simp [hclosed]
  · refine ⟨⟨none, (fun he => nomatch he), hforwarded⟩, hcarried, (fun ho => nomatch ho),
      fun _ => Or.inr (Or.inr ⟨x.forwarded, _, rfl, hv, hgoing⟩), ?_⟩
    show (x.output.push (.ok event)).closed = true ↔ Supervisor.finishing = .done
    simp [hclosed]

theorem ledger_failing (h : Ledger x) {error : Client.SessionError}
    (hpc : x.supervisor = .failing error) :
    Ledger ((x.forward (.error error)).goto .finishing) := by
  have hx : x.supervisor.over = false := by rw [hpc]; rfl
  have hgoing := h.going hx
  have hnone := h.noError hx
  rw [hpc] at hnone
  refine ⟨⟨some error, fun _ => rfl, ?_⟩, h.carried.push hgoing _, (fun ho => nomatch ho),
    fun _ => Or.inr (Or.inr ⟨x.forwarded, _, rfl, rfl, hgoing⟩), ?_⟩
  · show (x.forwarded ++ [Except.error error]) ++ [] =
      x.delivered.map Except.ok ++ [Except.error error]
    rw [List.append_nil, ← hnone]
    show _ = (x.forwarded ++ []) ++ [Except.error error]
    rw [List.append_nil]
  · show (x.output.push (.error error)).closed = true ↔ Supervisor.finishing = .done
    rw [RuntimeEvents.closed_push, h.notClosed hx]
    simp

theorem Gate.interrupted (h : Gate x) (hcancelled : x.cancelled = true)
    (hended : x.client.ended.isNone = true) : x.interrupted = true := by
  refine (h.cancelled hcancelled).resolve_right fun he => ?_
  rw [Option.isNone_iff_eq_none] at hended
  rw [hended] at he
  cases he

theorem ledger_closing (h : Ledger x) (hpc : x.supervisor = .closing) :
    Ledger ({ x with output := x.output.close }.goto .done) := by
  obtain ⟨error, -, heq⟩ := h.forwarded
  rw [hpc] at heq
  exact ⟨⟨error, fun _ => rfl, heq⟩, h.carried.close, (fun ho => nomatch ho),
    fun _ => h.concluded (by rw [hpc]; rfl), iff_of_true rfl rfl⟩

/-- The loop is left only for a stop, or when the flag is set and no end is
recorded, that is, for an interrupt. -/
theorem ledger_move (hg : Gate x) (h : Ledger x)
    (hpc : x.supervisor = q) (hmove : Move x q p) : Ledger (x.goto p) := by
  have hhere := hg.here
  rw [hpc] at hhere
  cases hmove with
  | stopped hstop => exact h.leave hpc ⟨rfl, rfl⟩ (Or.inl hstop)
  | leave hended => exact h.leave hpc ⟨rfl, rfl⟩ (Or.inr (hg.interrupted hhere hended))
  | lookLeave hended => exact h.leave hpc ⟨rfl, rfl⟩ (Or.inr (hg.interrupted hhere.1 hended))
  | joinedLast => exact h.after hpc rfl (fun hd => nomatch hd) rfl (fun hd => nomatch hd)
  | goOn | flagged | unflagged | stay | joined | read | lookFlagged | lookUnflagged | lookStay
  | give | retry | wait | expire | wake | caught | connect | success | again | giveUp
  | unspawned => exact h.within hpc ⟨rfl, rfl⟩ ⟨rfl, rfl⟩

theorem ledger_supervisor (hg : Gate x) (h : Ledger x) (ht : Turn x x') :
    Ledger x' := by
  have hstopped : Ledger { x with generationStop := true } :=
    h.outside rfl rfl rfl rfl rfl (fun hs => hs) fun hi => hi
  cases ht with
  | goto hpc hmove => exact ledger_move hg h hpc hmove
  | receive hpc => exact ledger_receive h hpc
  | forward hpc => exact ledger_forwarding h hpc
  | fail hpc => exact ledger_failing h hpc
  | stop hpc => exact hstopped.within hpc ⟨rfl, rfl⟩ ⟨rfl, rfl⟩
  | stopLast hpc =>
    exact hstopped.after hpc rfl (fun hd => nomatch hd) rfl (fun hd => nomatch hd)
  | close hpc => exact ledger_closing h hpc
  | @attempt r hpc _ =>
    exact Ledger.within
      (x := { x with
        attempts := x.attempts ++ [⟨r.cause, r.trust, x.received, false, x.cancelled⟩]
        received := false })
      (h.outside rfl rfl rfl rfl rfl (fun hs => hs) fun hi => hi) hpc ⟨rfl, rfl⟩ ⟨rfl, rfl⟩
  | connecting => exact h.outside rfl rfl rfl rfl rfl (fun hs => hs) fun hi => hi
  | refuse hpc reason =>
    exact Ledger.within
      (x := { x with client := { x.client with ended := some reason }, received := true })
      (h.outside rfl rfl rfl rfl rfl (fun hs => hs) fun hi => hi) hpc ⟨rfl, rfl⟩ ⟨rfl, rfl⟩
  | refused hpc =>
    exact Ledger.within (x := { x with cancelled := true })
      (h.outside rfl rfl rfl rfl rfl (fun hs => hs) fun hi => hi) hpc ⟨rfl, rfl⟩ ⟨rfl, rfl⟩
  | spawn hpc =>
    exact Ledger.within
      (x := { x with worker := .running, events := .new, generationStop := false })
      (h.outside rfl rfl rfl rfl rfl (fun hs => hs) fun hi => hi) hpc ⟨rfl, rfl⟩ ⟨rfl, rfl⟩

theorem ledger_worker (h : Ledger x) (ht : WorkerTurn x x') : Ledger x' := by
  cases ht <;> exact h.outside rfl rfl rfl rfl rfl (fun hs => hs) fun hi => hi

theorem ledger_step (hg : Gate x) (h : Ledger x)
    (hs : step x a = some x') : Ledger x' := by
  cases a with
  | supervisor a => exact ledger_supervisor hg h (supervisorStep_cases hs)
  | worker a => exact ledger_worker h (workerStep_cases hs)
  | interrupt =>
    cases hs
    exact h.outside rfl rfl rfl rfl rfl (fun hs => hs) fun _ => rfl
  | stop =>
    cases hs
    exact h.outside rfl rfl rfl rfl rfl (fun _ => rfl) fun hi => hi
  | disconnect | setTrust =>
    cases hs
    exact h.outside rfl rfl rfl rfl rfl (fun hs => hs) fun hi => hi
  | drain =>
    simp only [step] at hs
    split at hs
    · cases hs
    next item output htake =>
      cases hs
      exact ⟨h.forwarded, h.carried.take htake, h.going, h.concluded,
        (by rw [RuntimeEvents.closed_take htake]; exact h.closed)⟩

/-! ### The turnover -/

/-- Has the worker left its loop? -/
def Worker.past : Worker → Bool
  | cleaning | closing | done => true
  | _ => false

/-- Is the supervisor between two generations? -/
def Supervisor.between : Supervisor → Bool
  | stopping _ | joining _ | reading _ | looking .. | lookingEnded .. | deciding .. | retrying _
  | waiting _ | checking .. | attempting _ | refused _ | attempted .. | spawning _ => true
  | _ => false

/-- What has been reported was delivered or waits; and before a generation is
replaced nothing waits. -/
structure Turnover (x : State) : Prop where
  kept : x.events.Kept x.reported x.delivered
  past : x.events.error.isSome = true ∨ x.events.closed = true → x.worker.past = true
  spent : x.supervisor.between = true → x.worker.past = true ∧ x.events.Spent

theorem turnover_start (client : ClientState) : Turnover (start client) where
  kept := RuntimeEvents.kept_new
  past h := nomatch h
  spent h := nomatch h

theorem Turnover.outside (h : Turnover x) (hevents : x'.events = x.events)
    (hreported : x'.reported = x.reported) (hdelivered : x'.delivered = x.delivered)
    (hworker : x.worker.past = true → x'.worker.past = true)
    (hbetween : x'.supervisor.between = true → x.supervisor.between = true) : Turnover x' where
  kept := by
    rw [hevents, hreported, hdelivered]
    exact h.kept
  past := by
    rw [hevents]
    exact fun hp => hworker (h.past hp)
  spent hb := by
    rw [hevents]
    exact (h.spent (hbetween hb)).imp_left hworker

theorem Turnover.report (h : Turnover x) (hrunning : x.worker.past = false)
    (event : SessionEvent) : Turnover (x.report event) where
  kept := RuntimeEvents.kept_push h.kept event
  past hp := by
    refine h.past ?_
    rw [← RuntimeEvents.closed_push x.events (.ok event)]
    cases event <;> exact hp
  spent hb := by
    have hpast := (h.spent hb).1
    rw [hrunning] at hpast
    cases hpast

theorem Turnover.fail (h : Turnover x) (error : Client.SessionError) {worker : Worker}
    (hworker : worker.past = true) :
    Turnover { x with events := x.events.push (.error error), worker } where
  kept := ⟨h.kept.texts, h.kept.pings, h.kept.answers⟩
  past _ := hworker
  spent hb := ⟨hworker, (h.spent hb).2.clipboard, (h.spent hb).2.ping, (h.spent hb).2.streamConfig⟩

theorem Turnover.close (h : Turnover x) :
    Turnover { x with events := x.events.close, worker := .done } where
  kept := ⟨h.kept.texts, h.kept.pings, h.kept.answers⟩
  past _ := rfl
  spent hb := ⟨rfl, (h.spent hb).2.clipboard, (h.spent hb).2.ping, (h.spent hb).2.streamConfig⟩

theorem turnover_worker (h : Turnover x) (ht : WorkerTurn x x') :
    Turnover x' := by
  cases ht with
  | event hw event => exact h.report (by rw [hw]; rfl) event
  | fail hw error => exact h.fail error rfl
  | sessionEnded hw | interrupt hw | drop hw =>
    exact h.outside rfl rfl rfl (by rw [hw]; exact fun hp => nomatch hp) fun hb => hb
  | report hw =>
    have hpast : x.worker.past = false := by rw [hw]; rfl
    exact (h.report hpast _).outside rfl rfl rfl
      (fun hp => nomatch hpast.symm.trans hp) fun hb => hb
  | stop | clean => exact h.outside rfl rfl rfl (fun _ => rfl) fun hb => hb
  | close hw error =>
    have hpast : x.worker.past = true := by rw [hw]; rfl
    rcases error with - | error
    · exact h.close
    · exact (h.fail error hpast).close

theorem turnover_receive (h : Turnover x) : Turnover x.receive := by
  unfold State.receive
  split
  next event events heq =>
    have htake := RuntimeEvents.take_of_recvTimeout heq
    refine ⟨RuntimeEvents.kept_take h.kept htake, fun hp => h.past ?_, fun hb => nomatch hb⟩
    rw [← RuntimeEvents.error_take htake, ← RuntimeEvents.closed_take htake]
    exact hp
  · exact h.outside rfl rfl rfl (fun hp => hp) fun hb => nomatch hb
  next error events heq =>
    obtain ⟨⟨hc, hp, hm⟩, he, rfl⟩ :=
      RuntimeEvents.spent_of_take_error (RuntimeEvents.take_of_recvTimeout heq)
    have hpast := h.past (Or.inl (by rw [he]; rfl))
    exact ⟨⟨h.kept.texts, h.kept.pings, h.kept.answers⟩, fun _ => hpast, fun _ => ⟨hpast, hc, hp, hm⟩⟩
  next heq =>
    obtain ⟨hnone, hclosed⟩ := RuntimeEvents.closed_of_recvTimeout heq
    have hpast := h.past (Or.inr hclosed)
    exact ⟨h.kept, fun _ => hpast, fun _ => ⟨hpast, RuntimeEvents.spent_of_take_none hnone⟩⟩

theorem Move.between (hmove : Move x q p)
    (hp : p.between = true) : q.between = true := by
  cases hmove with
  | joined | read | lookFlagged | lookUnflagged | lookStay | retry | wait | wake | connect
  | success | again => rfl
  | stopped | goOn | flagged | unflagged | leave | stay | lookLeave | give | expire | caught
  | giveUp | unspawned | joinedLast => cases hp

theorem turnover_supervisor (h : Turnover x) (ht : Turn x x') : Turnover x' := by
  cases ht with
  | goto hpc hmove =>
    refine h.outside rfl rfl rfl (fun hp => hp) fun hb => ?_
    rw [hpc]
    exact hmove.between hb
  | receive => exact turnover_receive h
  | forward =>
    refine h.outside rfl rfl rfl (fun hp => hp) ?_
    show Supervisor.between (if _ then _ else _) = true → _
    split <;> exact fun hb => nomatch hb
  | fail | stopLast | close =>
    exact h.outside rfl rfl rfl (fun hp => hp) fun hb => nomatch hb
  | stop hpc | attempt hpc | connecting hpc | refuse hpc | refused hpc =>
    exact h.outside rfl rfl rfl (fun hp => hp) fun _ => by rw [hpc]; rfl
  | spawn hpc =>
    -- nothing is left of the old generation
    have hspent := (h.spent (by rw [hpc]; rfl)).2
    exact ⟨h.kept.spent hspent ⟨rfl, rfl, rfl⟩, (fun hp => nomatch hp), fun hb => nomatch hb⟩

theorem turnover_step (h : Turnover x) (hs : step x a = some x') :
    Turnover x' := by
  cases a with
  | supervisor a => exact turnover_supervisor h (supervisorStep_cases hs)
  | worker a => exact turnover_worker h (workerStep_cases hs)
  | interrupt | stop | disconnect | setTrust =>
    cases hs
    exact h.outside rfl rfl rfl (fun hp => hp) fun hb => hb
  | drain =>
    simp only [step] at hs
    split at hs
    · cases hs
    · cases hs
      exact h.outside rfl rfl rfl (fun hp => hp) fun hb => hb

/-! ### Runs -/

/-- **Reconnecting only when entitled.**  In any run every attempt to connect
again was entitled: no `SessionEnded` had come on the connection that failed, the
last check had found neither a stop nor a cancellation, its cause is worth it, and
the pairing in use is not for one time.  What the workers of the generations report
is delivered in order, but for what something newer has displaced in its slot; and
what was forwarded, with what is in hand, is what was delivered, in order, and then
at most one error.  The output is closed when the supervisor is done, and then, unless the run was stopped
or interrupted, a single verdict has been forwarded, last; and a listener that has
emptied the output has got it last, and no other. -/
theorem reconnect_entitled (client : ClientState) (actions : List Action) {x : State}
    (h : Machine.run step (start client) actions = some x) :
    (∀ a ∈ x.attempts, a.Entitled) ∧
    x.events.Kept x.reported x.delivered ∧
    (∃ error : Option Client.SessionError, x.forwarded ++ x.supervisor.inHand
      = x.delivered.map .ok ++ error.toList.map .error) ∧
    (x.output.closed = true ↔ x.supervisor = .done) ∧
    (x.supervisor = .done → x.stopRequested = true ∨ x.interrupted = true ∨
      Concluded x.forwarded ∧ (x.output.take = none → Concluded x.drained)) := by
  have hboth : Gate x ∧ Ledger x :=
    Machine.run_inv (I := fun x => Gate x ∧ Ledger x)
      (fun hx hs => ⟨gate_step hx.1 hs, ledger_step hx.1 hx.2 hs⟩)
      ⟨gate_start client, ledger_start client⟩ h
  obtain ⟨hg, hl⟩ := hboth
  have ht : Turnover x := Machine.run_inv turnover_step (turnover_start client) h
  obtain ⟨error, -, herror⟩ := hl.forwarded
  refine ⟨hg.entitled, ht.kept, ⟨error, herror⟩, hl.closed, fun hdone => ?_⟩
  refine (hl.concluded (by rw [hdone]; rfl)).imp_right (Or.imp_right fun hconcluded => ?_)
  refine ⟨hconcluded, fun hempty => ?_⟩
  obtain ⟨items, v, heq, hv, hitems⟩ := hconcluded
  have hcarried := hl.carried
  rw [heq] at hcarried
  obtain ⟨d, hd, hplain⟩ := hcarried.drained hv hitems hempty
  exact ⟨d, v, hd, hv, hplain⟩

/-- A session that has come to Ready. -/
def connected : ClientState :=
  ((ClientState.new.connecting.entered .awaitingHandshakeAck).handshaking .owner).ready false

def nexts (n : ℕ) : List Action := List.replicate n (.supervisor .next)

/-- The worker ends after an error. -/
def breaks (error : Client.SessionError) : List Action :=
  [.worker (.fail error), .worker .next, .worker (.close none)]

/-- A ping; the connection breaks; the first attempt is turned down, the second
one succeeds; and the host ends the new session. -/
def kickedAfterReconnect : List Action :=
  Action.worker (.event .ping) :: nexts 4 ++
  breaks (.io .connectionReset) ++ nexts 9 ++
  ([.supervisor (.wake .slept), .supervisor .next, .supervisor (.connecting .clearEnded),
    .supervisor (.connect (.error (.io .connectionRefused)))] : List Action) ++ nexts 2 ++
  ([.supervisor (.wake .slept), .supervisor .next, .supervisor (.connecting .clearEnded),
    .supervisor (.connecting .connecting),
    .supervisor (.connecting (.entered .awaitingHandshakeAck)),
    .supervisor (.connecting (.handshaking .owner)), .supervisor (.connecting (.granted .owner)),
    .supervisor (.connecting (.ready false)), .supervisor (.connect (.ok ())),
    .supervisor .next, .supervisor (.spawn (.ok ()))] : List Action) ++
  ([.worker (.sessionEnded .kicked), .worker .next, .worker .next, .worker .next] : List Action) ++
  nexts 5 ++ breaks .notReady ++ nexts 3 ++ ([.drain, .drain] : List Action)

theorem reconnect_entitled_kicked :
    ∃ x, Machine.run step (start connected) kickedAfterReconnect = some x ∧
      x.attempts.length = 2 ∧ x.supervisor = .done ∧
      x.drained = [.ok .ping, .ok (.streamConfig (.sessionEnded ⟨.kicked⟩))] ∧
      (∀ a ∈ x.attempts, a.Entitled) ∧
      x.events.Kept x.reported x.delivered ∧
      (∃ error : Option Client.SessionError, x.forwarded ++ x.supervisor.inHand
        = x.delivered.map .ok ++ error.toList.map .error) ∧
      (x.output.closed = true ↔ x.supervisor = .done) ∧
      (x.supervisor = .done → x.stopRequested = true ∨ x.interrupted = true ∨
        Concluded x.forwarded ∧ (x.output.take = none → Concluded x.drained)) :=
  ⟨_, rfl, rfl, rfl, rfl, reconnect_entitled connected kickedAfterReconnect rfl⟩

end MahoRD.Supervision

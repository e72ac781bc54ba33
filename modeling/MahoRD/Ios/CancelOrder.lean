/-
MahoRD/Ios/CancelOrder.lean

Disconnects while a connect is under way (`cancel_active_connect`, `disconnect_async` and
`connect_async` in `ios-shell/src/state.rs`).  A disconnect sets a flag that a connect takes away
when it looks at it, and clears the flag itself once it has the lifecycle lock.

A connect that began earlier and asks for the lock later finds no flag any more, and connects.  And
a disconnect does not wait for a teardown that is in flight already, although that may still have to
take the session.
-/
import MahoRD.Ios.TeardownOrder

namespace MahoRD.Ios.Lifecycle

/-! ### Connects and cancels -/

def Call.connecting : Call → Bool
  | connect _ => true
  | disconnect => false

def Caller.connecting : Caller → Bool
  | connect _ | failing _ _ => true
  | disconnect | worker => false

/-- A connect that is under way. -/
def Pc.connecting : Pc → Bool
  | arriving _ | entering _ | proceeding _ | registering _ | activating _ | checking _ _
  | checkingPending _ _ | attempting _ _ | refusing _ _ _ | confirming _ | installing _
  | spawning _ _ | pushing _ _ _ | starting _ | finishing _ | leaving _ _ => true
  | queueing call | waiting call => call.connecting
  | clearing caller | reading caller | claiming caller _ | tearing caller _
  | cleaning caller _ _ _ _ _ | failing caller _ _ _ | settling caller _
  | recording caller _ _ _ => caller.connecting
  | _ => false

/-- A disconnect that has set the flag, and has not cleared it. -/
def Pc.signals : Pc → Bool
  | taking | signalling _ | queueing .disconnect | waiting .disconnect | clearing .disconnect => true
  | _ => false

def Outcome.cancelledBy : Outcome → Option ℕ
  | cancelled canceller => some canceller
  | _ => none

/-- The disconnect that a connect says it was cancelled by. -/
def Pc.cancelledBy : Pc → Option ℕ
  | leaving _ outcome | unlocking outcome | returned outcome => outcome.cancelledBy
  | _ => none

/-- The teardown that has yet to take the session of its generation. -/
def Pc.tears : Pc → Option ℕ
  | tearing _ event => some event.generation
  | _ => none

/-- When a disconnect clears the flag, no connect that began before it is still under way; and a
teardown that it finds in flight has taken the session. -/
def Timely (s : State) : Label → Prop
  | .go d =>
    match s.pc d with
    | .clearing .disconnect => ∀ t < d, (s.pc t).connecting = false
    | .claiming .disconnect event =>
      s.coord.inFlightGeneration = some event.generation →
        ∀ t < s.calls, (s.pc t).tears ≠ some event.generation
    | _ => True
  | _ => True

instance (s : State) : ∀ label, Decidable (Timely s label)
  | .go d => atPc d (s.pc d)
  | .connect _ | .disconnect | .fail _ _ _ | .cleanup _ _ _ _ | .terminate _ _ | .exit _ =>
    isTrue trivial
where
  atPc (d : ℕ) (pc : Pc) : Decidable (match pc with
      | .clearing .disconnect => ∀ t < d, (s.pc t).connecting = false
      | .claiming .disconnect event =>
        s.coord.inFlightGeneration = some event.generation →
          ∀ t < s.calls, (s.pc t).tears ≠ some event.generation
      | _ => True) := by
    split <;> infer_instance

/-! ### What a step may do -/

variable {s s' : State}

/-- What a step of the thread `t` does to the others, and to the flags. -/
structure Base (t : ℕ) (s s' : State) : Prop where
  calls : s.calls ≤ s'.calls
  pc : ∀ u, s'.pc u = s.pc u ∨ s.calls ≤ u ∧ ∃ generation worker, s'.pc u = .running generation worker
  inner : (s.pc t).connecting = true ∨ s.inner.Kept s'.inner
  active : ∀ a, s'.activeConnect = some a → s.activeConnect = some a ∨ a.connect = t
  flag : ∀ u, s'.cancelFlag u = s.cancelFlag u ∨ s.pc t = .signalling u ∧ s'.cancelFlag u = some t

theorem Base.refl (t : ℕ) (s : State) : Base t s s :=
  ⟨Nat.le_refl _, fun _ => Or.inl rfl, Or.inr (SessionInner.Kept.refl _), fun _ => Or.inl,
    fun _ => Or.inl rfl⟩

/-- What a step of the thread `t` does. -/
structure Does (t : ℕ) (s s' : State) : Prop where
  calls : s.calls ≤ s'.calls
  other : ∀ u, u ≠ t →
    s'.pc u = s.pc u ∨ s.calls ≤ u ∧ ∃ generation worker, s'.pc u = .running generation worker
  inner : (s.pc t).connecting = true ∨ s.inner.Kept s'.inner
  active : ∀ a, s'.activeConnect = some a → s.activeConnect = some a ∨ a.connect = t
  flag : ∀ u, s'.cancelFlag u = s.cancelFlag u ∨ s.pc t = .signalling u ∧ s'.cancelFlag u = some t
  pending : s'.cancelPending = none ∨ (s'.cancelPending = s.cancelPending ∧
      ((s.pc t).signals = true → (s'.pc t).signals = true)) ∨
    s'.cancelPending = some t ∧ (s'.pc t).signals = true
  connecting : (s'.pc t).connecting = true → (s.pc t).connecting = true
  cancelled : ∀ d, (s'.pc t).cancelledBy = some d → (s.pc t).cancelledBy = some d ∨
    s.cancelPending = some d ∨ s.cancelFlag t = some d
  signalling : ∀ c, s'.pc t = .signalling c → ∃ a, s.activeConnect = some a ∧ a.connect = c

variable {pc pc' : Pc} {t d n : ℕ} {caller : Caller}

theorem Base.moveTo (h : Base t s s') (hpc : s.pc t = pc)
    (hpending : s'.cancelPending = none ∨ (s'.cancelPending = s.cancelPending ∧
        (pc.signals = true → pc'.signals = true)) ∨
      s'.cancelPending = some t ∧ pc'.signals = true)
    (hconnecting : pc'.connecting = true → pc.connecting = true)
    (hcancelled : ∀ d, pc'.cancelledBy = some d → pc.cancelledBy = some d ∨
      s.cancelPending = some d ∨ s.cancelFlag t = some d)
    (hsignalling : ∀ c, pc' = .signalling c → ∃ a, s.activeConnect = some a ∧ a.connect = c) :
    Does t s (s'.moveTo t pc') := by
  subst hpc
  have hself : (s'.moveTo t pc').pc t = pc' := s'.moveTo_pc_self t pc'
  refine ⟨h.calls, fun u hne => ?_, h.inner, h.active, h.flag, ?_, ?_, ?_, ?_⟩
  · rw [State.moveTo_pc_of_ne hne]
    exact h.pc u
  · rw [hself]
    exact hpending
  · rw [hself]
    exact hconnecting
  · rw [hself]
    exact hcancelled
  · rw [hself]
    exact hsignalling

theorem Base.plain (h : Base t s s') (hpc : s.pc t = pc)
    (hpending : s'.cancelPending = s.cancelPending)
    (hsignals : pc.signals = true → pc'.signals = true)
    (hconnecting : pc'.connecting = true → pc.connecting = true)
    (hcancelled : ∀ d, pc'.cancelledBy = some d → pc.cancelledBy = some d ∨
      s.cancelPending = some d ∨ s.cancelFlag t = some d)
    (hsignalling : ∀ c, pc' ≠ .signalling c) : Does t s (s'.moveTo t pc') :=
  h.moveTo hpc (Or.inr (Or.inl ⟨hpending, hsignals⟩)) hconnecting hcancelled
    fun c hc => absurd hc (hsignalling c)

theorem Base.calm (h : Base t s s') (hpc : s.pc t = pc)
    (hpending : s'.cancelPending = s.cancelPending) (hfrom : pc.signals = false)
    (hto : pc'.signals = false) (hconnecting : pc'.connecting = true → pc.connecting = true)
    (hcancelled : pc'.cancelledBy = none) : Does t s (s'.moveTo t pc') := by
  refine h.plain hpc hpending (fun hs => ?_) hconnecting (fun d hd => ?_) fun c hc => ?_
  · cases hfrom.symm.trans hs
  · cases hcancelled.symm.trans hd
  · subst hc
    cases hto

theorem Base.consume (hpc : s.pc t = pc) (hd : s.cancelPending = some d)
    (hcancelled : pc'.cancelledBy = some d) (hconnecting : pc'.connecting = false)
    (hsignalling : ∀ c, pc' ≠ .signalling c) :
    Does t s ({ s with cancelPending := none }.moveTo t pc') := by
  have hbase : Base t s { s with cancelPending := none } :=
    ⟨Nat.le_refl _, fun _ => Or.inl rfl, Or.inr (SessionInner.Kept.refl _), fun _ => Or.inl,
      fun _ => Or.inl rfl⟩
  refine hbase.moveTo hpc (Or.inl rfl) (fun hc => ?_) (fun d' hd' => ?_)
    fun c hc => absurd hc (hsignalling c)
  · rw [hconnecting] at hc
    cases hc
  · rw [hcancelled] at hd'
    cases hd'
    exact Or.inr (Or.inl hd)

theorem Caller.back_connecting {result : Except String Unit}
    (h : (caller.back result).connecting = true) : caller.connecting = true := by
  cases caller with
  | connect _ | failing _ _ => rfl
  | disconnect | worker => cases result <;> cases h

theorem Caller.back_cancelledBy (caller : Caller) (result : Except String Unit) (d : ℕ) :
    (caller.back result).cancelledBy ≠ some d := by
  cases caller <;> cases result <;> nofun

theorem Caller.back_ne_signalling (caller : Caller) (result : Except String Unit) (c : ℕ) :
    caller.back result ≠ .signalling c := by
  cases caller <;> cases result <;> nofun

theorem Base.back (h : Base t s s') (hpc : s.pc t = pc)
    (hpending : s'.cancelPending = s.cancelPending) (hsignals : pc.signals = false)
    (hconnecting : pc.connecting = caller.connecting) (result : Except String Unit) :
    Does t s (s'.moveTo t (caller.back result)) :=
  h.plain hpc hpending (fun hs => by rw [hsignals] at hs; cases hs)
    (fun hc => hconnecting.trans (Caller.back_connecting hc))
    (fun d hd => absurd hd (caller.back_cancelledBy result d)) (caller.back_ne_signalling result)

theorem Base.of_inner {inner : SessionInner}
    (h : (s.pc t).connecting = true ∨ s.inner.Kept inner) : Base t s { s with inner } :=
  ⟨Nat.le_refl _, fun _ => Or.inl rfl, h, fun _ => Or.inl, fun _ => Or.inl rfl⟩

theorem Base.of_coord (t : ℕ) (coord : TeardownCoord) : Base t s { s with coord } :=
  ⟨Nat.le_refl _, fun _ => Or.inl rfl, Or.inr (SessionInner.Kept.refl _), fun _ => Or.inl,
    fun _ => Or.inl rfl⟩

theorem Base.of_queue (t : ℕ) (queue : List ℕ) : Base t s { s with queue } :=
  ⟨Nat.le_refl _, fun _ => Or.inl rfl, Or.inr (SessionInner.Kept.refl _), fun _ => Or.inl,
    fun _ => Or.inl rfl⟩

theorem claim_does {event : Event}
    (hpc : s.pc t = .claiming caller event) : Does t s (s.claim t caller event) := by
  unfold State.claim
  split
  · exact (Base.refl t s).back hpc rfl rfl rfl _
  split
  · split
    · exact (Base.refl t s).back hpc rfl rfl rfl _
    · exact (Base.of_inner (Or.inr (s.inner.reapIdle_kept _ _))).back hpc rfl rfl rfl _
  · exact (Base.of_coord t _).calm hpc rfl rfl rfl id rfl

theorem tear_does {event : Event}
    (hpc : s.pc t = .tearing caller event) (htarget : event.target ≠ .ready) :
    Does t s (s.tear t caller event) := by
  have hkept : s.inner.Kept _ :=
    SessionInner.beginTeardown_kept event.generation event.reason htarget
  unfold State.tear
  rcases hbegin : s.inner.beginTeardown event.generation event.target event.reason with
    ⟨found, release, inner⟩
  rw [hbegin] at hkept
  have hbase : Base t s { s with inner } := Base.of_inner (Or.inr hkept)
  cases found with
  | stale | settled | taken _ _ _ => exact hbase.calm hpc rfl rfl rfl id rfl

theorem Does.move (hpc : s.pc t = pc)
    (hsignals : pc.signals = true → pc'.signals = true)
    (hconnecting : pc'.connecting = true → pc.connecting = true)
    (hcancelled : ∀ d, pc'.cancelledBy = some d → pc.cancelledBy = some d ∨
      s.cancelPending = some d ∨ s.cancelFlag t = some d)
    (hsignalling : ∀ c, pc' ≠ .signalling c) : Does t s (s.moveTo t pc') :=
  (Base.refl t s).plain hpc rfl hsignals hconnecting hcancelled hsignalling

theorem Does.giveUp (hpc : s.pc t = pc) (hfrom : pc.signals = false)
    (hto : pc'.signals = false) (hconnecting : pc'.connecting = true → pc.connecting = true)
    (hcancelled : pc'.cancelledBy = some d)
    (hd : s.cancelPending = some d ∨ s.cancelFlag t = some d) : Does t s (s.moveTo t pc') := by
  refine Does.move hpc (fun hs => ?_) hconnecting (fun d' hd' => ?_) fun c hc => ?_
  · cases hfrom.symm.trans hs
  · cases hcancelled.symm.trans hd'
    exact Or.inr hd
  · subst hc
    cases hto

theorem finished_cancelledBy (i : SessionInner) : (finished i).cancelledBy = none := by
  unfold finished
  split <;> rfl

theorem Base.spawn (t generation : ℕ) (worker : Worker) :
    Base t s (s.spawn (.running generation worker)) := by
  refine ⟨Nat.le_succ _, fun u => ?_, Or.inr (SessionInner.Kept.refl _), fun _ => Or.inl,
    fun _ => Or.inl rfl⟩
  rcases s.moveTo_cases s.calls u (.running generation worker) with ⟨heq, rfl⟩ | ⟨heq, -⟩
  · exact Or.inr ⟨Nat.le_refl _, generation, worker, heq⟩
  · exact Or.inl heq

theorem go_does (h : Inv s) (hstep : Lifecycle.go s t (s.pc t) = some s') :
    Does t s s' := by
  have hfits := h.fits t
  generalize hpc : s.pc t = pc at hstep hfits
  have hconnects : pc.connecting = true → (s.pc t).connecting = true := fun hc => hpc ▸ hc
  cases pc with
  | cancelling =>
    cases hstep
    have hbase : Base t s { s with cancelPending := some t } :=
      ⟨Nat.le_refl _, fun _ => Or.inl rfl, Or.inr (SessionInner.Kept.refl _), fun _ => Or.inl,
        fun _ => Or.inl rfl⟩
    exact hbase.moveTo hpc (Or.inr (Or.inr ⟨rfl, rfl⟩)) id (by rintro _ ⟨⟩) (by rintro _ ⟨⟩)
  | taking =>
    rcases hactive : s.activeConnect with - | active
    · simp only [Lifecycle.go, hactive, Option.some.injEq] at hstep
      subst hstep
      exact Does.move hpc (fun _ => rfl) id (by rintro _ ⟨⟩) (by rintro _ ⟨⟩)
    · simp only [Lifecycle.go, hactive, Option.some.injEq] at hstep
      subst hstep
      have hbase : Base t s { s with activeConnect := none } :=
        ⟨Nat.le_refl _, fun _ => Or.inl rfl, Or.inr (SessionInner.Kept.refl _),
          (by rintro _ ⟨⟩), fun _ => Or.inl rfl⟩
      refine hbase.moveTo hpc (Or.inr (Or.inl ⟨rfl, fun _ => rfl⟩)) id (by rintro _ ⟨⟩)
        fun c hc => ?_
      cases hc
      exact ⟨active, hactive, rfl⟩
  | signalling connect =>
    cases hstep
    have hbase : Base t s { s with
        cancelFlag := Function.update s.cancelFlag connect (some t) } := by
      refine ⟨Nat.le_refl _, fun _ => Or.inl rfl, Or.inr (SessionInner.Kept.refl _),
        fun _ => Or.inl, fun u => ?_⟩
      by_cases hu : u = connect
      · subst hu
        exact Or.inr ⟨hpc, Function.update_self ..⟩
      · exact Or.inl (Function.update_of_ne hu ..)
    exact hbase.plain hpc rfl (fun _ => rfl) id (by rintro _ ⟨⟩) (by rintro _ ⟨⟩)
  | queueing call =>
    cases hstep
    cases call <;>
      exact (Base.of_queue t _).plain hpc rfl id id (by rintro _ ⟨⟩) (by rintro _ ⟨⟩)
  | waiting call =>
    simp only [Lifecycle.go, Option.ite_none_right_eq_some] at hstep
    cases hstep.2
    cases call <;> exact Does.move hpc id id (by rintro _ ⟨⟩) (by rintro _ ⟨⟩)
  | unlocking outcome =>
    cases hstep
    exact (Base.of_queue t _).plain hpc rfl id id (fun d hd => Or.inl hd) (by rintro _ ⟨⟩)
  | clearing caller =>
    cases hstep
    have hbase : Base t s { s with cancelPending := none } :=
      ⟨Nat.le_refl _, fun _ => Or.inl rfl, Or.inr (SessionInner.Kept.refl _), fun _ => Or.inl,
        fun _ => Or.inl rfl⟩
    exact hbase.moveTo hpc (Or.inl rfl) id (by rintro _ ⟨⟩) (by rintro _ ⟨⟩)
  | reading caller =>
    cases hstep
    exact (Base.refl t s).calm hpc rfl rfl rfl id rfl
  | claiming caller event =>
    cases hstep
    exact claim_does hpc
  | tearing caller event =>
    cases hstep
    exact tear_does hpc (Caller.Fits.target hfits)
  | failing caller event found summary =>
    cases hstep
    have hpos := Nat.pos_iff_ne_zero.mp (Nat.lt_of_lt_of_le hfits.2 hfits.1.le)
    exact (Base.of_inner (Or.inr (SessionInner.failCleanup_kept hpos summary))).calm hpc rfl rfl
      rfl id rfl
  | settling caller event =>
    cases hstep
    exact (Base.of_inner (Or.inr s.inner.settle_kept)).calm hpc rfl rfl rfl id rfl
  | recording caller event result applied =>
    cases hstep
    exact (Base.of_coord t (s.coord.record event result applied)).back hpc rfl rfl rfl result
  | arriving host | entering host | proceeding host =>
    simp only [Lifecycle.go] at hstep
    split at hstep
    next hd =>
      cases hstep
      exact Base.consume hpc hd rfl rfl (by rintro _ ⟨⟩)
    · cases hstep
      exact (Base.refl t s).calm hpc rfl rfl rfl id rfl
  | registering host =>
    cases hstep
    exact (Base.of_inner (Or.inl (hconnects rfl))).calm hpc rfl rfl rfl id rfl
  | activating generation =>
    cases hstep
    have hbase : Base t s { s with activeConnect := some ⟨generation, t⟩ } := by
      refine ⟨Nat.le_refl _, fun _ => Or.inl rfl, Or.inr (SessionInner.Kept.refl _), fun a ha => ?_,
        fun _ => Or.inl rfl⟩
      cases ha
      exact Or.inr rfl
    exact hbase.calm hpc rfl rfl rfl id rfl
  | checking generation next | confirming generation =>
    simp only [Lifecycle.go] at hstep
    split at hstep
    next hd =>
      cases hstep
      exact Does.giveUp hpc rfl rfl id rfl (Or.inr hd)
    · cases hstep
      exact (Base.refl t s).calm hpc rfl rfl rfl id rfl
  | checkingPending generation next =>
    simp only [Lifecycle.go] at hstep
    split at hstep
    next hd =>
      cases hstep
      exact Does.giveUp hpc rfl rfl id rfl (Or.inl hd)
    · cases hstep
      cases next <;> exact (Base.refl t s).calm hpc rfl rfl rfl id rfl
  | attempting generation attempt =>
    cases hstep
    exact (Base.refl t s).calm hpc rfl rfl rfl id rfl
  | refusing generation e cleans =>
    cases hstep
    have hbase : Base t s { s with inner := s.inner.setError generation e } :=
      Base.of_inner (Or.inl (hconnects rfl))
    cases cleans <;> exact hbase.calm hpc rfl rfl rfl id rfl
  | installing generation =>
    cases hstep
    unfold State.install
    split
    · exact (Base.refl t s).calm hpc rfl rfl rfl id rfl
    split
    next hd =>
      exact Does.giveUp hpc rfl rfl id rfl (Or.inl hd)
    · exact (Base.of_inner (Or.inl (hconnects rfl))).calm hpc rfl rfl rfl id rfl
  | spawning generation worker =>
    cases hstep
    exact (Base.spawn t generation worker).calm hpc rfl rfl rfl id rfl
  | pushing generation worker handle =>
    cases hstep
    have hbase : Base t s { s with inner := s.inner.pushWorker handle } :=
      Base.of_inner (Or.inl (hconnects rfl))
    cases worker <;> exact hbase.calm hpc rfl rfl rfl id rfl
  | starting generation =>
    cases hstep
    exact (Base.refl t s).calm hpc rfl rfl rfl id rfl
  | finishing generation =>
    cases hstep
    exact (Base.refl t s).calm hpc rfl rfl rfl id (finished_cancelledBy s.inner)
  | leaving generation outcome =>
    cases hstep
    have hbase : Base t s { s with
        activeConnect :=
          if s.activeConnect.any (·.generation = generation) then none else s.activeConnect } := by
      refine ⟨Nat.le_refl _, fun _ => Or.inl rfl, Or.inr (SessionInner.Kept.refl _), fun a ha => ?_,
        fun _ => Or.inl rfl⟩
      exact Or.inl (Option.ite_none_left_eq_some.mp ha).2
    exact hbase.plain hpc rfl id (by rintro ⟨⟩) (fun d hd => Or.inl hd) (by rintro _ ⟨⟩)
  | unborn | returned _ | cleaning _ _ _ _ _ _ | running _ _ | ended => cases hstep

theorem fail_does {e : String} {cleans : Bool}
    (hstep : Lifecycle.fail s t e cleans (s.pc t) = some s') : Does t s s' := by
  generalize hpc : s.pc t = pc at hstep
  cases pc with
  | attempting generation attempt =>
    cases attempt <;> cases hstep <;> exact (Base.refl t s).calm hpc rfl rfl rfl id rfl
  | spawning _ _ | starting _ =>
    cases hstep
    exact (Base.refl t s).calm hpc rfl rfl rfl id rfl
  | _ => cases hstep

theorem step_does (h : Inv s) {label : Label} (hthread : label.thread = some t)
    (hstep : Lifecycle.step s label = some s') : Does t s s' := by
  cases label with
  | go u =>
    cases hthread
    exact go_does h hstep
  | fail u e cleans =>
    cases hthread
    exact fail_does hstep
  | cleanup u disconnect stop panics =>
    cases hthread
    simp only [Lifecycle.step] at hstep
    split at hstep
    next hpc =>
      rw [Option.ite_none_right_eq_some] at hstep
      cases hstep.2
      unfold cleaned
      split
      · exact (Base.refl t s).calm hpc rfl rfl rfl id rfl
      split <;> exact (Base.refl t s).calm hpc rfl rfl rfl id rfl
    · cases hstep
  | terminate u reason | exit u =>
    cases hthread
    simp only [Lifecycle.step] at hstep
    split at hstep
    next hpc =>
      cases hstep
      exact (Base.refl t s).calm hpc rfl rfl rfl id rfl
    · cases hstep
  | connect _ | disconnect => cases hthread

theorem step_born (h : Inv s) {label : Label} (hthread : label.thread = some t)
    (hstep : Lifecycle.step s label = some s') :
    t < s.calls ∧ ∀ outcome, s.pc t ≠ .returned outcome := by
  have hnone : ∀ pc, pc = .unborn ∨ (∃ outcome, pc = .returned outcome) → s.pc t ≠ pc := by
    rintro pc hpc hs
    cases label with
    | go u | fail u _ _ | cleanup u _ _ _ | terminate u _ | exit u =>
      cases hthread
      rcases hpc with rfl | ⟨outcome, rfl⟩ <;>
        simp [Lifecycle.step, hs, Lifecycle.go, Lifecycle.fail] at hstep
    | connect _ | disconnect => cases hthread
  refine ⟨?_, fun outcome => hnone _ (Or.inr ⟨outcome, rfl⟩)⟩
  by_contra hlt
  exact hnone _ (Or.inl rfl) (h.born t (Nat.le_of_not_lt hlt))

/-! ### Whom a disconnect cancels -/

structure Cancels (s : State) : Prop where
  pending : ∀ d, s.cancelPending = some d → (s.pc d).signals = true
  active : ∀ a, s.activeConnect = some a → a.connect < s.calls
  signalling : ∀ d c, s.pc d = .signalling c → c < s.calls
  flag : ∀ c, s.calls ≤ c → s.cancelFlag c = none

theorem Cancels.init : Cancels State.init := ⟨nofun, nofun, nofun, fun _ _ => rfl⟩

theorem Cancels.spawn (h : Cancels s) (hi : Inv s)
    (hsignalling : ∀ c, pc ≠ .signalling c) : Cancels (s.spawn pc) where
  pending d hd := by
    rcases s.moveTo_cases s.calls d pc with ⟨-, rfl⟩ | ⟨heq, -⟩
    · have hsignals := h.pending _ hd
      rw [hi.born _ (Nat.le_refl _)] at hsignals
      cases hsignals
    · exact (congrArg Pc.signals heq).trans (h.pending d hd)
  active a ha := Nat.lt_succ_of_lt (h.active a ha)
  signalling d c hd := by
    rcases s.moveTo_cases s.calls d pc with ⟨heq, -⟩ | ⟨heq, -⟩
    · exact absurd (heq.symm.trans hd) (hsignalling c)
    · exact Nat.lt_succ_of_lt (h.signalling d c (heq.symm.trans hd))
  flag c hc := h.flag c (Nat.le_of_succ_le hc)

theorem Cancels.does (h : Cancels s) (hi : Inv s) (ht : t < s.calls) (hd : Does t s s') :
    Cancels s' where
  pending d hpending := by
    rcases hd.pending with hnone | ⟨hsame, hkeeps⟩ | ⟨hown, hsignals⟩
    · rw [hnone] at hpending
      cases hpending
    · rw [hsame] at hpending
      have hsignals := h.pending d hpending
      by_cases hne : d = t
      · rw [hne] at hsignals ⊢
        exact hkeeps hsignals
      · rcases hd.other d hne with heq | ⟨hborn, -⟩
        · rw [heq]
          exact hsignals
        · rw [hi.born d hborn] at hsignals
          cases hsignals
    · rw [hown] at hpending
      cases hpending
      exact hsignals
  active a ha := by
    rcases hd.active a ha with hsame | heq
    · exact Nat.lt_of_lt_of_le (h.active a hsame) hd.calls
    · rw [heq]
      exact Nat.lt_of_lt_of_le ht hd.calls
  signalling d c hc := by
    by_cases hne : d = t
    · obtain ⟨a, ha, rfl⟩ := hd.signalling c (hne ▸ hc)
      exact Nat.lt_of_lt_of_le (h.active a ha) hd.calls
    · rcases hd.other d hne with heq | ⟨-, generation, worker, heq⟩
      · exact Nat.lt_of_lt_of_le (h.signalling d c (heq.symm.trans hc)) hd.calls
      · rw [heq] at hc
        cases hc
  flag c hc := by
    have hc := Nat.le_trans hd.calls hc
    rcases hd.flag c with heq | ⟨hpc, -⟩
    · rw [heq]
      exact h.flag c hc
    · exact absurd (h.signalling t c hpc) (Nat.not_lt_of_le hc)

theorem Cancels.step (h : Cancels s) (hi : Inv s) {label : Label}
    (hstep : Lifecycle.step s label = some s') : Cancels s' := by
  rcases hthread : label.thread with - | t
  · cases label with
    | connect _ | disconnect =>
      cases hstep
      exact h.spawn hi nofun
    | _ => cases hthread
  · exact h.does hi (step_born hi hthread hstep).1 (step_does hi hthread hstep)

/-- The disconnect `d` has returned, and cancels none of the threads from `n` on. -/
structure Spares (d n : ℕ) (s : State) : Prop where
  returned : ∃ outcome, s.pc d = .returned outcome
  calls : n ≤ s.calls
  pending : s.cancelPending ≠ some d
  flag : ∀ c, n ≤ c → s.cancelFlag c ≠ some d
  outcome : ∀ c, n ≤ c → (s.pc c).cancelledBy ≠ some d

theorem Spares.start (hi : Inv s) (hc : Cancels s) {outcome : Outcome}
    (hpc : s.pc d = .returned outcome) : Spares d s.calls s where
  returned := ⟨outcome, hpc⟩
  calls := Nat.le_refl _
  pending hpending := by
    have hsignals := hc.pending d hpending
    rw [hpc] at hsignals
    cases hsignals
  flag c hcalls := by
    rw [hc.flag c hcalls]
    nofun
  outcome c hcalls := by
    rw [hi.born c hcalls]
    nofun

theorem Spares.does (h : Spares d n s) (hi : Inv s) (ht : t < s.calls)
    (hne : t ≠ d) (hd : Does t s s') : Spares d n s' := by
  obtain ⟨outcome, hreturned⟩ := h.returned
  have hborn : d < s.calls := by
    by_contra hlt
    rw [hi.born d (Nat.le_of_not_lt hlt)] at hreturned
    cases hreturned
  refine ⟨⟨outcome, ?_⟩, Nat.le_trans h.calls hd.calls, ?_, fun c hc => ?_, fun c hc => ?_⟩
  · rcases hd.other d hne.symm with heq | ⟨hle, -⟩
    · exact heq.trans hreturned
    · exact absurd hborn (Nat.not_lt_of_le hle)
  · rcases hd.pending with hnone | ⟨hsame, -⟩ | ⟨hown, -⟩
    · rw [hnone]
      nofun
    · rw [hsame]
      exact h.pending
    · rw [hown]
      exact fun heq => hne (Option.some.inj heq)
  · rcases hd.flag c with hsame | ⟨-, hown⟩
    · rw [hsame]
      exact h.flag c hc
    · rw [hown]
      exact fun heq => hne (Option.some.inj heq)
  · by_cases hct : c = t
    · subst hct
      intro hcancelled
      rcases hd.cancelled d hcancelled with hold | hpending | hflag
      · exact h.outcome c hc hold
      · exact h.pending hpending
      · exact h.flag c hc hflag
    · rcases hd.other c hct with heq | ⟨-, generation, worker, heq⟩
      · rw [heq]
        exact h.outcome c hc
      · rw [heq]
        nofun

theorem Spares.spawn (h : Spares d n s) (hi : Inv s)
    (hpc : pc.cancelledBy = none) : Spares d n (s.spawn pc) := by
  obtain ⟨outcome, hreturned⟩ := h.returned
  refine ⟨⟨outcome, ?_⟩, Nat.le_succ_of_le h.calls, h.pending, h.flag, fun c hc => ?_⟩
  · rcases s.moveTo_cases s.calls d pc with ⟨-, rfl⟩ | ⟨heq, -⟩
    · rw [hi.born _ (Nat.le_refl _)] at hreturned
      cases hreturned
    · exact heq.trans hreturned
  · rcases s.moveTo_cases s.calls c pc with ⟨heq, -⟩ | ⟨heq, -⟩
    · rw [show (s.spawn pc).pc c = pc from heq, hpc]
      nofun
    · rw [show (s.spawn pc).pc c = s.pc c from heq]
      exact h.outcome c hc

theorem Spares.step (h : Spares d n s) (hi : Inv s) {label : Label}
    (hstep : Lifecycle.step s label = some s') : Spares d n s' := by
  rcases hthread : label.thread with - | t
  · cases label with
    | connect _ | disconnect =>
      cases hstep
      exact h.spawn hi rfl
    | _ => cases hthread
  · obtain ⟨hborn, hends⟩ := step_born hi hthread hstep
    refine h.does hi hborn ?_ (step_does hi hthread hstep)
    rintro rfl
    obtain ⟨outcome, hreturned⟩ := h.returned
    exact hends outcome hreturned

/-! ### What is in flight -/

/-- What is in flight is what a thread has claimed. -/
def Claimed (s : State) : Prop :=
  ∀ g, s.coord.inFlightGeneration = some g → ∃ t, (s.pc t).claimed = some g

theorem Claimed.quiet (h : Claimed s) (hq : Quiet s s') : Claimed s' := by
  intro g hg
  rw [hq.coord] at hg
  obtain ⟨t, ht⟩ := h g hg
  refine ⟨t, ?_⟩
  rcases hq.pc t with heq | ⟨hnone, -⟩
  · rw [heq]
    exact ht
  · rw [hnone] at ht
    cases ht

theorem Claimed.own (h : Claimed s) {inner : SessionInner}
    (hclaimed : pc.claimed = (s.pc t).claimed) : Claimed ({ s with inner }.moveTo t pc) := by
  intro g hg
  obtain ⟨u, hu⟩ := h g hg
  refine ⟨u, ?_⟩
  rcases State.moveTo_cases { s with inner } t u pc with ⟨heq, rfl⟩ | ⟨heq, -⟩
  · rw [heq, hclaimed]
    exact hu
  · rw [heq]
    exact hu

theorem Claimed.claim (h : Claimed s) {event : Event}
    (hpc : s.pc t = .claiming caller event) : Claimed (s.claim t caller event) := by
  unfold State.claim
  split
  · exact h.own (by rw [hpc]; exact caller.back_claimed _)
  split
  · split
    · exact h.own (by rw [hpc]; exact caller.back_claimed _)
    · exact h.own (by rw [hpc]; exact caller.back_claimed _)
  · intro g hg
    exact ⟨t, (congrArg Pc.claimed (State.moveTo_pc_self ..)).trans hg⟩

theorem Claimed.tear (h : Claimed s) {event : Event}
    (hpc : s.pc t = .tearing caller event) : Claimed (s.tear t caller event) := by
  unfold State.tear
  split <;> exact h.own (by rw [hpc]; rfl)

theorem Claimed.step (h : Claimed s) (hi : Inv s) {label : Label}
    (hstep : Lifecycle.step s label = some s') : Claimed s' := by
  rcases step_cases hi hstep with hquiet | ⟨t, htears⟩
  · exact h.quiet hquiet
  cases htears with
  | claim hpc => exact h.claim hpc
  | tear hpc => exact h.tear hpc
  | @clean _ event _ _ _ _ _ _ _ hpc errors =>
    refine h.own ?_
    rw [hpc]
    unfold cleaned
    split
    · rfl
    split <;> rfl
  | fail hpc | settle hpc => exact h.own (by rw [hpc]; rfl)
  | record hpc => exact nofun

theorem Caller.not_idle {event : Event} (hholds : caller.holds = false)
    (h : caller.Fits n event) : event.target ≠ .idle := by
  cases caller with
  | disconnect | connect _ | failing _ _ => cases hholds
  | worker => rcases h.1 with htarget | htarget <;> rw [htarget] <;> nofun

/-- A disconnect that finds a teardown of its generation in flight which has taken the session. -/
theorem torn_of_inFlight (hi : Inv s) (hc : Claimed s) {event : Event}
    (hpc : s.pc d = .claiming .disconnect event)
    (hinFlight : s.coord.inFlightGeneration = some event.generation)
    (htears : ∀ t < s.calls, (s.pc t).tears ≠ some event.generation) : s.inner.Torn := by
  have hevent : event.generation = s.inner.generation := by
    have hfits := hi.fits d
    rw [hpc] at hfits
    exact hfits.2
  rw [hevent] at hinFlight htears
  obtain ⟨t, ht⟩ := hc _ hinFlight
  have hborn : t < s.calls := by
    by_contra hlt
    rw [hi.born t (Nat.le_of_not_lt hlt)] at ht
    cases ht
  have hfree : (s.pc t).holds = false := Bool.eq_false_iff.mpr fun hholds => by
    obtain rfl := hi.holder_unique hholds (by rw [hpc]; rfl : (s.pc d).holds = true)
    rw [hpc] at ht
    cases ht
  have hfits := hi.fits t
  have htears := htears t hborn
  have htore := hi.tore t
  generalize s.pc t = pc at ht hfits htears htore hfree
  cases pc with
  | tearing _ _ => exact absurd ht htears
  | cleaning caller event' _ _ _ _ | failing caller event' _ _ =>
    refine htore ?_
    rw [Pc.tore, if_neg (Caller.not_idle hfree hfits.1)]
    exact ht
  | settling caller event' => exact absurd hfits.2 (Caller.not_idle hfree hfits.1)
  | recording caller event' _ applied =>
    cases applied with
    | true => exact htore ht
    | false => exact absurd (Option.some.inj ht) (hfits.2 rfl)
  | _ => cases ht

/-! ### What a disconnect leaves -/

def Caller.disconnects : Caller → Bool
  | disconnect => true
  | _ => false

/-- A disconnect that has cleared the flag. -/
def Pc.cleared : Pc → Bool
  | reading caller | claiming caller _ | tearing caller _ | cleaning caller _ _ _ _ _
  | failing caller _ _ _ | settling caller _ | recording caller _ _ _ => caller.disconnects
  | unlocking _ | returned _ => true
  | _ => false

/-- A disconnect, wherever it stands. -/
def Pc.disconnects : Pc → Bool
  | cancelling => true
  | pc => pc.signals || pc.cleared

/-- A command that is done. -/
def Pc.leaves : Pc → Bool
  | unlocking _ | returned _ => true
  | _ => false

structure Leaves (d : ℕ) (s : State) : Prop where
  own : (s.pc d).disconnects = true
  later : ∀ t, d < t → (s.pc t).connecting = false
  cleared : (s.pc d).cleared = true → ∀ t, (s.pc t).connecting = false
  torn : (s.pc d).leaves = true → s.inner.Torn

theorem Leaves.start (hi : Inv s) : Leaves s.calls (s.spawn .cancelling) := by
  have hself : (s.spawn .cancelling).pc s.calls = .cancelling := s.moveTo_pc_self s.calls _
  refine ⟨by rw [hself]; rfl, fun t ht => ?_, fun hc => ?_, fun hl => ?_⟩
  · have hpc : (s.spawn .cancelling).pc t = s.pc t := State.moveTo_pc_of_ne (Nat.ne_of_gt ht) _
    rw [hpc, hi.born t (Nat.le_of_lt ht)]
    rfl
  · rw [hself] at hc
    cases hc
  · rw [hself] at hl
    cases hl

/-- What a step of the disconnect itself does. -/
structure Disconnects (d : ℕ) (s s' : State) : Prop where
  own : (s'.pc d).disconnects = true
  cleared : (s'.pc d).cleared = true → (s.pc d).cleared = true ∨ s.pc d = .clearing .disconnect
  torn : (s'.pc d).leaves = true → s'.inner.Torn

theorem Disconnects.moveTo (hpc : s.pc d = pc)
    (hown : pc'.disconnects = true)
    (hcleared : pc'.cleared = true → pc.cleared = true ∨ pc = .clearing .disconnect)
    (htorn : pc'.leaves = true → s'.inner.Torn) : Disconnects d s (s'.moveTo d pc') := by
  subst hpc
  have hself : (s'.moveTo d pc').pc d = pc' := s'.moveTo_pc_self d pc'
  refine ⟨?_, ?_, ?_⟩
  · rw [hself]
    exact hown
  · rw [hself]
    exact hcleared
  · rw [hself]
    exact htorn

theorem Disconnects.early (hpc : s.pc d = pc) (hown : pc'.disconnects = true)
    (hcleared : pc'.cleared = false) (htorn : pc'.leaves = false) :
    Disconnects d s (s'.moveTo d pc') := by
  refine .moveTo hpc hown (fun hc => ?_) fun hl => ?_
  · cases hcleared.symm.trans hc
  · cases htorn.symm.trans hl

theorem Disconnects.going (hpc : s.pc d = pc) (hown : pc'.disconnects = true)
    (hcleared : pc.cleared = true) (htorn : pc'.leaves = false) :
    Disconnects d s (s'.moveTo d pc') := by
  refine .moveTo hpc hown (fun _ => Or.inl hcleared) fun hl => ?_
  cases htorn.symm.trans hl

theorem Disconnects.back (hpc : s.pc d = pc) (hcleared : pc.cleared = true)
    (result : Except String Unit) (htorn : s'.inner.Torn) :
    Disconnects d s (s'.moveTo d (Caller.disconnect.back result)) := by
  cases result <;>
    exact Disconnects.moveTo hpc rfl (fun _ => Or.inl hcleared) fun _ => htorn

theorem claim_disconnects (hi : Inv s) (hc : Claimed s) {event : Event}
    (hpc : s.pc d = .claiming .disconnect event) (htimely : Timely s (.go d)) :
    Disconnects d s (s.claim d .disconnect event) := by
  have hevent : event.target = .idle ∧ event.generation = s.inner.generation := by
    have hfits := hi.fits d
    rwa [hpc] at hfits
  simp only [Timely, hpc] at htimely
  unfold State.claim
  split
  next hinFlight =>
    exact Disconnects.back hpc rfl _ (torn_of_inFlight hi hc hpc hinFlight (htimely hinFlight))
  split
  next hdone =>
    rw [hevent.2] at hdone
    have htorn := hi.torn hdone
    split
    · exact Disconnects.back hpc rfl _ htorn
    · exact Disconnects.back hpc rfl _ ((s.inner.reapIdle_kept _ _).torn htorn)
  · exact Disconnects.going hpc rfl rfl rfl

theorem tears_disconnects (hi : Inv s) (hc : Claimed s) {label : Label}
    (htimely : Timely s label) (hown : (s.pc d).disconnects = true)
    (htears : Tears s d label s') : Disconnects d s s' := by
  cases htears with
  | @claim caller event hpc =>
    rw [hpc] at hown
    cases caller with
    | disconnect => exact claim_disconnects hi hc hpc htimely
    | _ => cases hown
  | @tear caller event hpc =>
    rw [hpc] at hown
    unfold State.tear
    split <;> exact Disconnects.going hpc hown hown rfl
  | @clean caller event found session runtime handles disconnect stop panics hpc errors =>
    rw [hpc] at hown
    unfold Lifecycle.cleaned
    split
    · exact Disconnects.going hpc hown hown rfl
    split <;> exact Disconnects.going hpc hown hown rfl
  | fail hpc | settle hpc =>
    rw [hpc] at hown
    exact Disconnects.going hpc hown hown rfl
  | @record caller event result applied hpc =>
    have hfits := hi.fits d
    rw [hpc] at hown hfits
    cases caller with
    | disconnect =>
      -- with the lock held, the event was not stale
      have hgeneration : event.generation = s.inner.generation := hfits.1.2
      cases applied with
      | true =>
        have htorn := hi.tore d (by rw [hpc]; exact congrArg some hgeneration)
        exact Disconnects.back hpc rfl _ htorn
      | false => exact absurd hgeneration (hfits.2 rfl)
    | _ => cases hown

theorem Leaves.own_step (h : Leaves d s) (hi : Inv s) (hc : Claimed s) {label : Label}
    (hthread : label.thread = some d) (htimely : Timely s label)
    (hstep : Lifecycle.step s label = some s') : Disconnects d s s' := by
  rcases hevent : (s.pc d).event with - | event
  swap
  · exact tears_disconnects hi hc htimely h.own (step_tears hthread hevent hstep)
  have hown := h.own
  have htorn := h.torn
  cases label with
  | go u =>
    cases hthread
    have hstep : Lifecycle.go s d (s.pc d) = some s' := hstep
    generalize hpc : s.pc d = pc at hstep hown hevent htorn
    cases pc with
    | cancelling | signalling _ =>
      cases hstep
      exact Disconnects.early hpc rfl rfl rfl
    | taking =>
      simp only [Lifecycle.go] at hstep
      split at hstep <;> cases hstep <;> exact Disconnects.early hpc rfl rfl rfl
    | queueing call =>
      cases hstep
      cases call with
      | connect _ => cases hown
      | disconnect => exact Disconnects.early hpc rfl rfl rfl
    | waiting call =>
      simp only [Lifecycle.go, Option.ite_none_right_eq_some] at hstep
      cases hstep.2
      cases call with
      | connect _ => cases hown
      | disconnect => exact Disconnects.early hpc rfl rfl rfl
    | clearing caller =>
      cases hstep
      cases caller with
      | disconnect => exact Disconnects.moveTo hpc rfl (fun _ => Or.inr rfl) (by rintro ⟨⟩)
      | _ => cases hown
    | reading caller =>
      cases hstep
      exact Disconnects.going hpc hown hown rfl
    | unlocking outcome =>
      cases hstep
      exact Disconnects.moveTo hpc rfl (fun _ => Or.inl rfl) fun _ => htorn rfl
    | unborn | returned _ | running _ _ | ended => cases hstep
    | claiming _ _ | tearing _ _ | cleaning _ _ _ _ _ _ | failing _ _ _ _ | settling _ _
    | recording _ _ _ _ => cases hevent
    | _ => cases hown
  | fail u e cleans =>
    cases hthread
    have hstep : Lifecycle.fail s d e cleans (s.pc d) = some s' := hstep
    generalize s.pc d = pc at hstep hown
    cases pc with
    | attempting _ _ | spawning _ _ | starting _ => cases hown
    | _ => cases hstep
  | cleanup u disconnect stop panics =>
    cases hthread
    simp only [Lifecycle.step] at hstep
    split at hstep
    next hpc =>
      rw [hpc] at hevent
      cases hevent
    · cases hstep
  | terminate u reason | exit u =>
    cases hthread
    simp only [Lifecycle.step] at hstep
    split at hstep
    next hpc =>
      rw [hpc] at hown
      cases hown
    · cases hstep
  | connect _ | disconnect => cases hthread

theorem Pc.cleared_of_leaves (h : pc.leaves = true) : pc.cleared = true := by
  cases pc with
  | unlocking _ | returned _ => rfl
  | _ => cases h

theorem Does.not_connecting (hd : Does t s s') {u : ℕ}
    (hu : (s.pc u).connecting = false) : (s'.pc u).connecting = false := by
  by_cases hne : u = t
  · subst hne
    exact Bool.eq_false_iff.mpr fun hc => by rw [hd.connecting hc] at hu; cases hu
  · rcases hd.other u hne with heq | ⟨-, generation, worker, heq⟩
    · rw [heq]
      exact hu
    · rw [heq]
      rfl

theorem Leaves.spawn (h : Leaves d s) (hborn : d < s.calls) :
    Leaves d (s.spawn .cancelling) := by
  have hsame : (s.spawn .cancelling).pc d = s.pc d := State.moveTo_pc_of_ne (Nat.ne_of_lt hborn) _
  have hconnecting : ∀ {u}, (s.pc u).connecting = false →
      ((s.spawn .cancelling).pc u).connecting = false := by
    intro u hu
    rcases s.moveTo_cases s.calls u .cancelling with ⟨heq, -⟩ | ⟨heq, -⟩
    · rw [show (s.spawn .cancelling).pc u = _ from heq]
      rfl
    · rw [show (s.spawn .cancelling).pc u = _ from heq]
      exact hu
  refine ⟨by rw [hsame]; exact h.own, fun u hu => hconnecting (h.later u hu),
    fun hcleared u => hconnecting (h.cleared (hsame ▸ hcleared) u),
    fun hleaves => h.torn (hsame ▸ hleaves)⟩

theorem Leaves.clearing (h : Leaves d s) {label : Label}
    (hthread : label.thread = some d) (hpc : s.pc d = .clearing .disconnect)
    (htimely : Timely s label) (hstep : Lifecycle.step s label = some s') (u : ℕ) :
    (s.pc u).connecting = false := by
  cases label with
  | go t =>
    cases hthread
    simp only [Timely, hpc] at htimely
    rcases Nat.lt_trichotomy u d with hlt | rfl | hgt
    · exact htimely u hlt
    · rw [hpc]
      rfl
    · exact h.later u hgt
  | fail t _ _ | cleanup t _ _ _ | terminate t _ | exit t =>
    cases hthread
    simp [Lifecycle.step, Lifecycle.fail, hpc] at hstep
  | connect _ | disconnect => cases hthread

theorem Leaves.step (h : Leaves d s) (hi : Inv s) (hc : Claimed s) {label : Label}
    (hconnect : ∀ host, label ≠ .connect host) (htimely : Timely s label)
    (hstep : Lifecycle.step s label = some s') : Leaves d s' := by
  have hborn : d < s.calls := by
    by_contra hlt
    have hown := h.own
    rw [hi.born d (Nat.le_of_not_lt hlt)] at hown
    cases hown
  rcases hthread : label.thread with - | t
  · cases label with
    | connect host => exact absurd rfl (hconnect host)
    | disconnect =>
      cases hstep
      exact h.spawn hborn
    | _ => cases hthread
  have hd := step_does hi hthread hstep
  have hlater : ∀ u, d < u → (s'.pc u).connecting = false := fun u hu =>
    hd.not_connecting (h.later u hu)
  by_cases hne : t = d
  · subst hne
    have hown := h.own_step hi hc hthread htimely hstep
    refine ⟨hown.own, hlater, fun hcleared u => hd.not_connecting ?_, hown.torn⟩
    rcases hown.cleared hcleared with hbefore | hpc
    · exact h.cleared hbefore u
    · exact h.clearing hthread hpc htimely hstep u
  · have hsame : s'.pc d = s.pc d := by
      rcases hd.other d (Ne.symm hne) with heq | ⟨hle, -⟩
      · exact heq
      · exact absurd hborn (Nat.not_lt_of_le hle)
    refine ⟨by rw [hsame]; exact h.own, hlater, fun hcleared u => hd.not_connecting ?_,
      fun hleaves => ?_⟩
    · exact h.cleared (hsame ▸ hcleared) u
    · rw [hsame] at hleaves
      rcases hd.inner with hconnecting | hkept
      · rw [h.cleared (Pc.cleared_of_leaves hleaves) t] at hconnecting
        cases hconnecting
      · exact hkept.torn (h.torn hleaves)

/-! ### Whole runs -/

theorem inv_cancels {as : List Label} (hrun : Machine.run step State.init as = some s) :
    Inv s ∧ Cancels s ∧ Claimed s :=
  Machine.run_inv (I := fun s => Inv s ∧ Cancels s ∧ Claimed s)
    (fun h hs => ⟨h.1.step hs, h.2.1.step h.1 hs, h.2.2.step h.1 hs⟩)
    ⟨Inv.init, Cancels.init, nofun⟩ hrun

/-- **A disconnect cancels the connects before it, and no others.**  Where every disconnect clears
the flag only once no connect that began before it is under way, and finds in flight only teardowns
that have taken the session, a disconnect that has returned, with no connect begun after its call,
leaves no session and a state that is not `Ready`.  And a connect that begins after a disconnect
has returned is not cancelled by it. -/
theorem disconnect_cancels {labels : List Label}
    (hrun : Machine.run step State.init labels = some s)
    (htimely : Machine.Along step Timely State.init labels) :
    (∀ before after s₀ outcome, labels = before ++ .disconnect :: after →
      (∀ host, .connect host ∉ after) → Machine.run step State.init before = some s₀ →
      s.pc s₀.calls = .returned outcome → s.inner.session = none ∧ s.inner.state ≠ .ready) ∧
    ∀ before after s₀ d c outcome, labels = before ++ after →
      Machine.run step State.init before = some s₀ → s₀.pc d = .returned outcome →
      s₀.calls ≤ c → s.pc c ≠ .returned (.cancelled d) := by
  refine ⟨?_, ?_⟩
  · rintro before after s₀ outcome rfl hconnect hbefore hreturned
    obtain ⟨s₀', hs₀', hrest⟩ := Machine.run_append_eq_some.mp hrun
    obtain rfl : s₀ = s₀' := Option.some.inj (hbefore.symm.trans hs₀')
    obtain ⟨s₁, hs₁, hafter⟩ := Machine.run_cons_eq_some.mp hrest
    cases hs₁
    have hstart : Machine.run step State.init (before ++ [.disconnect]) =
        some (s₀.spawn .cancelling) :=
      Machine.run_append_eq_some.mpr ⟨s₀, hbefore, rfl⟩
    obtain ⟨hi, -, hclaimed⟩ := inv_cancels hstart
    have hnone : ∀ label ∈ after, ∀ host, label ≠ .connect host := by
      rintro _ hlabel host rfl
      exact hconnect host hlabel
    have hlater := ((htimely.append hbefore).2.2 _ rfl).and
      (Machine.Along.of_mem hnone (s₀.spawn .cancelling))
    have hleaves : Inv s ∧ Claimed s ∧ Leaves s₀.calls s :=
      Machine.run_inv_along (I := fun s => Inv s ∧ Claimed s ∧ Leaves s₀.calls s)
        (fun h hc hs => ⟨h.1.step hs, h.2.1.step h.1 hs, h.2.2.step h.1 h.2.1 hc.2 hc.1 hs⟩)
        ⟨hi, hclaimed, Leaves.start (inv_cancels hbefore).1⟩ hlater hafter
    have htorn := hleaves.2.2.torn (by rw [hreturned]; rfl)
    exact ⟨htorn.session, htorn.state⟩
  · rintro before after s₀ d c outcome rfl hbefore hreturned hc hcancelled
    obtain ⟨s₀', hs₀', hafter⟩ := Machine.run_append_eq_some.mp hrun
    obtain rfl : s₀ = s₀' := Option.some.inj (hbefore.symm.trans hs₀')
    obtain ⟨hi, hcancels, -⟩ := inv_cancels hbefore
    have hspares : Inv s ∧ Spares d s₀.calls s :=
      Machine.run_inv (I := fun s => Inv s ∧ Spares d s₀.calls s)
        (fun h hs => ⟨h.1.step hs, h.2.step h.1 hs⟩) ⟨hi, Spares.start hi hcancels hreturned⟩ hafter
    exact hspares.2.outcome c hc (by rw [hcancelled]; rfl)

/-- A connect on the thread 0 is cancelled by a disconnect on the thread 1, which then has the lock. -/
def cancels : List Label :=
  .connect "host" :: List.replicate 20 (.go 0) ++ .disconnect :: (List.replicate 4 (.go 1) ++
    List.replicate 4 (.go 0) ++ List.replicate 5 (.go 1) ++ .cleanup 1 none none [] ::
      List.replicate 3 (.go 1))

/-- Another connect, on the thread 2. -/
def connectsAgain : List Label := .connect "host" :: List.replicate 36 (.go 2)

theorem disconnect_cancels_connect :
    (∃ s, Machine.run step State.init cancels = some s ∧
      s.pc 0 = .returned (.cancelled 1) ∧ s.pc 1 = .returned .ok ∧
      s.inner.session = none ∧ s.inner.state ≠ .ready) ∧
    ∃ s, Machine.run step State.init (cancels ++ connectsAgain) = some s ∧
      s.pc 2 = .returned .ok ∧ s.pc 2 ≠ .returned (.cancelled 1) := by
  have hfirst : ((Machine.run step State.init (.connect "host" :: List.replicate 20 (.go 0))).any
      fun s => decide (s.calls = 1)) = true := by
    decide
  have hrun : ((Machine.run step State.init cancels).any fun s =>
      decide (s.pc 0 = .returned (.cancelled 1) ∧ s.pc 1 = .returned .ok ∧ s.calls = 2)) = true := by
    decide
  have hagain : ((Machine.run step State.init (cancels ++ connectsAgain)).any fun s =>
      decide (s.pc 2 = .returned .ok)) = true := by
    decide
  obtain ⟨s₀, hs₀, hcalls⟩ := (Option.any_eq_true _ _).mp hfirst
  obtain ⟨s₁, hs₁, h⟩ := (Option.any_eq_true _ _).mp hrun
  obtain ⟨s₂, hs₂, hok⟩ := (Option.any_eq_true _ _).mp hagain
  obtain ⟨hcancelled, hreturned, hcalls₁⟩ := of_decide_eq_true h
  have hcalls : s₀.calls = 1 := of_decide_eq_true hcalls
  obtain ⟨hleft, -⟩ := disconnect_cancels hs₁ (by decide +kernel)
  obtain ⟨-, hspared⟩ := disconnect_cancels hs₂ (by decide +kernel)
  exact ⟨⟨s₁, hs₁, hcancelled, hreturned,
      hleft _ _ s₀ .ok rfl (by simp) hs₀ (by rw [hcalls]; exact hreturned)⟩,
    s₂, hs₂, of_decide_eq_true hok,
    hspared cancels connectsAgain s₁ 1 2 _ rfl hs₁ hreturned (Nat.le_of_eq hcalls₁)⟩

/-- A connect has looked at the flag, and asks for the lock only after a disconnect has had it. -/
def overtakes : List Label :=
  [.connect "host", .go 0, .disconnect] ++ List.replicate 10 (.go 1) ++ List.replicate 35 (.go 0)

/-- The supervisor is about to tear down a session that a disconnect should end. -/
def ended : List Label :=
  .connect "host" :: List.replicate 36 (.go 0) ++ .disconnect :: List.replicate 4 (.go 4) ++
    [.go 0, .go 0, .terminate 1 "remote-closed", .go 1] ++ List.replicate 5 (.go 4)

/-- **A cancel is lost**: a connect and a disconnect called after it began have both returned, and
the session is `Ready`. -/
theorem cancel_lost :
    (∃ s, Machine.run step State.init overtakes = some s ∧ s.pc 0 = .returned .ok ∧
      s.pc 1 = .returned .ok ∧ s.inner.state = .ready ∧ s.inner.session = some 1) ∧
    ∃ s, Machine.run step State.init ended = some s ∧ s.pc 0 = .returned .ok ∧
      s.pc 4 = .returned .ok ∧ s.inner.state = .ready ∧ s.inner.session = some 1 := by
  have hovertakes : ((Machine.run step State.init overtakes).any fun s =>
      decide (s.pc 0 = .returned .ok ∧ s.pc 1 = .returned .ok ∧ s.inner.state = .ready ∧
        s.inner.session = some 1)) = true := by
    decide
  have hended : ((Machine.run step State.init ended).any fun s =>
      decide (s.pc 0 = .returned .ok ∧ s.pc 4 = .returned .ok ∧ s.inner.state = .ready ∧
        s.inner.session = some 1)) = true := by
    decide
  obtain ⟨s, hs, h⟩ := (Option.any_eq_true _ _).mp hovertakes
  obtain ⟨s', hs', h'⟩ := (Option.any_eq_true _ _).mp hended
  exact ⟨⟨s, hs, of_decide_eq_true h⟩, s', hs', of_decide_eq_true h'⟩

end MahoRD.Ios.Lifecycle

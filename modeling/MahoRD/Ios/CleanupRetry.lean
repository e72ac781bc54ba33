/-
MahoRD/Ios/CleanupRetry.lean

A cleanup that failed, and another try (`disconnect_blocking` in `ios-shell/src/state.rs`,
`retryCleanup` in `ios-shell/ui/connection-state.js`).

The result of a teardown is kept with its generation.  A teardown of the same generation is not done
again: it returns what is on record, and a record of a failure is returned for ever, although
nothing is left to fail.
-/
import MahoRD.Ios.Lifecycle

namespace MahoRD.Ios

/-! ### The user interface -/

inductive UiState
  | idle | connecting | waitingVideo | streaming | disconnecting | error | cleanupFailed
  deriving DecidableEq

structure Ui where
  state : UiState
  host : Option String
  lastError : Option String
  cleanupError : Option String
  hasOwnedSession : Bool
  pendingCleanup : Bool
  generation : ℕ

/-- A message that counts as one. -/
def truthy (message : Option String) : Bool := message.any (· ≠ "")

namespace Ui

/-- `disconnectInternal` up to the native call. -/
def disconnecting (ui : Ui) (retainError : Bool) : Ui :=
  { ui with
    generation := ui.generation + 1
    state := .disconnecting
    cleanupError := none
    lastError := if retainError then ui.lastError else none
    pendingCleanup := true }

/-- `disconnectInternal` from the native result on. -/
def disconnected (ui : Ui) (retainError : Bool) : Except String Unit → Ui
  | .error e =>
    { ui with
      cleanupError := some e
      lastError := if truthy ui.lastError then ui.lastError else some e
      state := .cleanupFailed
      hasOwnedSession := true
      pendingCleanup := false }
  | .ok () =>
    { ui with
      hasOwnedSession := false
      cleanupError := none
      host := none
      state := if retainError ∧ truthy ui.lastError then .error else .idle
      pendingCleanup := false }

def disconnectInternal (ui : Ui) (retainError : Bool) (native : Except String Unit) : Ui :=
  if ui.pendingCleanup then ui
  else if ¬ ui.hasOwnedSession ∧ (ui.state = .idle ∨ ui.state = .error) then
    if ui.state = .error ∧ ¬ retainError then { ui with state := .idle, lastError := none } else ui
  else (ui.disconnecting retainError).disconnected retainError native

def retryCleanup (ui : Ui) (native : Except String Unit) : Ui :=
  if ui.pendingCleanup then ui
  else if ui.state = .cleanupFailed ∨ truthy ui.cleanupError ∨ ui.hasOwnedSession then
    let lastError :=
      if truthy ui.lastError ∧ ui.lastError = ui.cleanupError then none else ui.lastError
    { ui with lastError }.disconnectInternal (truthy lastError) native
  else ui

theorem disconnected_leaves (ui : Ui) (retainError : Bool) (native : Except String Unit) :
    (ui.disconnected retainError native).state ≠ .cleanupFailed ↔ native = .ok () := by
  cases native with
  | error e => simp [disconnected]
  | ok =>
    refine iff_of_true ?_ rfl
    by_cases hretain : retainError ∧ truthy ui.lastError
    · simp [disconnected, hretain]
    · simp [disconnected, hretain]

/-- Another try leaves the failed cleanup if the native disconnect succeeds. -/
theorem retryCleanup_leaves {ui : Ui} (hstate : ui.state = .cleanupFailed)
    (hpending : ui.pendingCleanup = false) (native : Except String Unit) :
    (ui.retryCleanup native).state ≠ .cleanupFailed ↔ native = .ok () := by
  rw [retryCleanup, if_neg (by simp [hpending]), if_pos (Or.inl hstate)]
  simp only [disconnectInternal, hpending, hstate, Bool.false_eq_true, if_false, reduceCtorEq,
    or_self, and_false]
  exact disconnected_leaves ..

end Ui

namespace Lifecycle

/-! ### One thread by itself -/

/-- The second half of `execute_teardown`. -/
def finishTeardown (i : SessionInner) (event : Event) (errors : List String) :
    Except String Unit × SessionInner :=
  if errors ≠ [] then
    (.error ("; ".intercalate errors), i.failCleanup ("; ".intercalate errors))
  else if event.target = .idle then (.ok (), i.settle)
  else (.ok (), i)

/-- `execute_teardown`, when nobody else gets a lock: its result, and whether it applied. -/
def executeTeardown (i : SessionInner) (event : Event) (errors : List String) :
    Except String Unit × Bool × SessionInner :=
  match i.beginTeardown event.generation event.target event.reason with
  | (.stale, _, i) => (.ok (), false, i)
  | (.settled, _, i) => (.ok (), true, i)
  | (.taken _ _ _, _, i) =>
    let (result, i) := finishTeardown i event errors
    (result, true, i)

def handleTerminalShutdown (i : SessionInner) (c : TeardownCoord) (event : Event)
    (errors : List String) : Except String Unit × SessionInner × TeardownCoord :=
  if c.inFlightGeneration = some event.generation then (.ok (), i, c)
  else if c.doneGeneration = some event.generation then
    match c.lastResult.getD (.ok ()) with
    | .error e => (.error e, i, c)
    | .ok () => (.ok (), if event.target = .idle then i.reap event.generation else i, c)
  else
    let (result, applied, i) := executeTeardown i event errors
    (result, i, c.record event result applied)

def disconnectBlocking (i : SessionInner) (c : TeardownCoord) (errors : List String) :
    Except String Unit × SessionInner × TeardownCoord :=
  handleTerminalShutdown i c ⟨i.generation, .idle, none⟩ errors

theorem executeTeardown_idle (i : SessionInner) :
    executeTeardown i ⟨i.generation, .idle, none⟩ [] =
      (.ok (), true, (executeTeardown i ⟨i.generation, .idle, none⟩ []).2.2) ∧
    (executeTeardown i ⟨i.generation, .idle, none⟩ []).2.2.state = .idle := by
  unfold executeTeardown
  rcases i.beginTeardown_cases i.generation .idle none with ⟨hne, -⟩ | ⟨-, hnot, heq⟩ | htears
  · exact absurd rfl hne
  · rw [heq]
    refine ⟨rfl, ?_⟩
    by_contra hne
    exact hnot ⟨rfl, fun h => hne h.1, fun h => nomatch h.2⟩
  · rw [SessionInner.beginTeardown_of_tearsDown htears]
    exact ⟨rfl, rfl⟩

/-! ### Another try -/

/-- `disconnect_blocking` with nothing left to fail returns `Ok` and leaves the state `Idle`, so
that a connect goes on, and the user interface leaves its failed cleanup. -/
structure Retried (i : SessionInner) (c : TeardownCoord) : Prop where
  ok : (disconnectBlocking i c []).1 = .ok ()
  idle : (disconnectBlocking i c []).2.1.state = .idle
  connects : ∀ host, (Caller.connect host).back (disconnectBlocking i c []).1 = .proceeding host
  leaves : ∀ ui : Ui, ui.state = .cleanupFailed → ui.pendingCleanup = false →
    (ui.retryCleanup (disconnectBlocking i c []).1).state ≠ .cleanupFailed

variable {i : SessionInner} {caller : Caller}

theorem retried_iff {c : TeardownCoord} : Retried i c ↔
    (disconnectBlocking i c []).1 = .ok () ∧ (disconnectBlocking i c []).2.1.state = .idle := by
  constructor
  · intro h
    exact ⟨h.ok, h.idle⟩
  · intro ⟨hok, hidle⟩
    refine ⟨hok, hidle, fun host => ?_, fun ui hstate hpending => ?_⟩
    · rw [hok]
      rfl
    · exact (Ui.retryCleanup_leaves hstate hpending _).mpr hok

theorem retried_iff_record (i : SessionInner) (c : TeardownCoord) : Retried i c ↔
    if c.inFlightGeneration = some i.generation then i.state = .idle
    else c.doneGeneration = some i.generation → ∀ e, c.lastResult ≠ some (.error e) := by
  rw [retried_iff]
  unfold disconnectBlocking handleTerminalShutdown
  split
  · exact ⟨And.right, fun h => ⟨rfl, h⟩⟩
  split
  next hdone =>
    rcases hresult : c.lastResult with - | result
    · exact ⟨fun _ _ _ => nofun, fun _ => ⟨rfl, congrArg SessionInner.state (if_pos rfl)⟩⟩
    cases result with
    | error e =>
      constructor
      · intro h
        cases h.1
      · intro h
        exact absurd rfl (h hdone e)
    | ok => exact ⟨fun _ _ _ => nofun, fun _ => ⟨rfl, congrArg SessionInner.state (if_pos rfl)⟩⟩
  next hdone =>
    obtain ⟨heq, hidle⟩ := executeTeardown_idle i
    rw [heq]
    exact ⟨fun _ h => absurd h hdone, fun _ => ⟨rfl, hidle⟩⟩

theorem executeTeardown_error {i' : SessionInner} {event : Event} {errors : List String}
    {e : String} {applied : Bool}
    (h : executeTeardown i event errors = (.error e, applied, i')) :
    applied = true ∧ i'.generation = i.generation := by
  unfold executeTeardown at h
  rcases i.beginTeardown_cases event.generation event.target event.reason with
    ⟨-, heq⟩ | ⟨-, -, heq⟩ | htears
  · rw [heq] at h
    cases h
  · rw [heq] at h
    cases h
  · rw [SessionInner.beginTeardown_of_tearsDown htears] at h
    dsimp only [finishTeardown] at h
    split at h
    · cases h
      exact ⟨rfl, rfl⟩
    split at h <;> cases h

theorem disconnectBlocking_error {i' : SessionInner} {c c' : TeardownCoord}
    {errors : List String} {e : String}
    (h : disconnectBlocking i c errors = (.error e, i', c')) :
    c'.inFlightGeneration ≠ some i'.generation ∧ c'.doneGeneration = some i'.generation ∧
      c'.lastResult = some (.error e) := by
  unfold disconnectBlocking handleTerminalShutdown at h
  split at h
  · cases h
  next hinFlight =>
  split at h
  next hdone =>
    rcases hresult : c.lastResult with - | result
    · rw [hresult] at h
      cases h
    rw [hresult] at h
    cases result with
    | error e' =>
      cases h
      exact ⟨hinFlight, hdone, hresult⟩
    | ok => cases h
  · rcases hexecute : executeTeardown i ⟨i.generation, .idle, none⟩ errors with
      ⟨result, applied, inner⟩
    rw [hexecute] at h
    cases h
    obtain ⟨rfl, hgeneration⟩ := executeTeardown_error hexecute
    exact ⟨nofun, congrArg some hgeneration.symm, rfl⟩

/-! ### The thread among the others -/

/-- The thread `t` comes from `s` to `s'` by itself; `errors` is what its cleanup comes to. -/
def Solo (t : ℕ) (disconnect stop : Option String) (panics : List (ℕ × String)) (s s' : State) :
    Prop :=
  ∃ labels, (∀ label ∈ labels, label = .go t ∨ label = .cleanup t disconnect stop panics) ∧
    Machine.run step s labels = some s'

variable {s s₁ s' : State} {t : ℕ} {disconnect stop : Option String} {panics : List (ℕ × String)}

theorem Solo.refl (s : State) : Solo t disconnect stop panics s s := ⟨[], nofun, rfl⟩

theorem Solo.cons {label : Label}
    (hlabel : label = .go t ∨ label = .cleanup t disconnect stop panics)
    (hstep : step s label = some s₁) (h : Solo t disconnect stop panics s₁ s') :
    Solo t disconnect stop panics s s' := by
  obtain ⟨labels, hlabels, hrun⟩ := h
  exact ⟨label :: labels, List.forall_mem_cons.mpr ⟨hlabel, hlabels⟩,
    Machine.run_cons_eq_some.mpr ⟨s₁, hstep, hrun⟩⟩

theorem Solo.go {pc : Pc} (hpc : s.pc t = pc) (hstep : Lifecycle.go s t pc = some s₁)
    (h : Solo t disconnect stop panics s₁ s') : Solo t disconnect stop panics s s' := by
  subst hpc
  exact h.cons (Or.inl rfl) hstep

/-- What `handle_terminal_shutdown` comes to, and where it returns. -/
structure Returns (t : ℕ) (caller : Caller)
    (result : Except String Unit × SessionInner × TeardownCoord) (s : State) : Prop where
  pc : s.pc t = caller.back result.1
  inner : s.inner = result.2.1
  coord : s.coord = result.2.2

variable (disconnect stop panics) in
theorem record_solo {event : Event} {result : Except String Unit} {applied : Bool}
    (hpc : s.pc t = .recording caller event result applied) :
    ∃ s', Solo t disconnect stop panics s s' ∧
      Returns t caller (result, s.inner, s.coord.record event result applied) s' :=
  ⟨_, Solo.go hpc rfl (Solo.refl _), State.moveTo_pc_self .., rfl, rfl⟩

variable (disconnect stop panics) in
theorem cleaned_solo {event : Event} {found : ConnectionState}
    {errors : List String} (hpc : s.pc t = cleaned caller event found errors) :
    ∃ s', Solo t disconnect stop panics s s' ∧ Returns t caller
      ((finishTeardown s.inner event errors).1, (finishTeardown s.inner event errors).2,
        s.coord.record event (finishTeardown s.inner event errors).1 true) s' := by
  unfold cleaned at hpc
  unfold finishTeardown
  by_cases herrors : errors = []
  · rw [if_neg (not_not.mpr herrors)] at hpc ⊢
    by_cases hidle : event.target = .idle
    · rw [if_pos hidle] at hpc ⊢
      obtain ⟨s', hsolo, hreturns⟩ := record_solo disconnect stop panics (State.moveTo_pc_self
        { s with inner := s.inner.settle } t (.recording caller event (.ok ()) true))
      exact ⟨s', hsolo.go hpc rfl, hreturns⟩
    · rw [if_neg hidle] at hpc ⊢
      exact record_solo disconnect stop panics hpc
  · rw [if_pos herrors] at hpc ⊢
    obtain ⟨s', hsolo, hreturns⟩ := record_solo disconnect stop panics (State.moveTo_pc_self
      { s with inner := s.inner.failCleanup ("; ".intercalate errors) } t
        (.recording caller event (.error ("; ".intercalate errors)) true))
    exact ⟨s', hsolo.go hpc rfl, hreturns⟩

theorem tear_solo {event : Event} (hpc : s.pc t = .tearing caller event)
    (hjoin : ∀ handle ∈ s.inner.workerHandles, handle = t ∨ s.pc handle = .ended)
    {result : Except String Unit} {applied : Bool} {inner : SessionInner}
    (hexecute : executeTeardown s.inner event (cleanupErrors t s.inner.session s.inner.tcpRuntime
      s.inner.workerHandles disconnect stop panics) = (result, applied, inner)) :
    ∃ s', Solo t disconnect stop panics s s' ∧
      Returns t caller (result, inner, s.coord.record event result applied) s' := by
  have hstep : Lifecycle.go s t (.tearing caller event) = some (s.tear t caller event) := rfl
  unfold executeTeardown at hexecute
  unfold State.tear at hstep
  rcases s.inner.beginTeardown_cases event.generation event.target event.reason with
    ⟨-, heq⟩ | ⟨-, -, heq⟩ | htears
  · rw [heq] at hexecute hstep
    cases hexecute
    obtain ⟨s', hsolo, hreturns⟩ := record_solo disconnect stop panics
      (State.moveTo_pc_self s t (.recording caller event (.ok ()) false))
    exact ⟨s', hsolo.go hpc hstep, hreturns⟩
  · rw [heq] at hexecute hstep
    cases hexecute
    obtain ⟨s', hsolo, hreturns⟩ := record_solo disconnect stop panics
      (State.moveTo_pc_self s t (.recording caller event (.ok ()) true))
    exact ⟨s', hsolo.go hpc hstep, hreturns⟩
  · obtain ⟨release, torn, hbegin⟩ : ∃ release torn,
        s.inner.beginTeardown event.generation event.target event.reason =
          (.taken s.inner.session s.inner.tcpRuntime s.inner.workerHandles, release, torn) :=
      ⟨_, _, SessionInner.beginTeardown_of_tearsDown htears _⟩
    rw [hbegin] at hexecute hstep
    cases hexecute
    have hcleaning := State.moveTo_pc_self { s with inner := torn } t
      (.cleaning caller event s.inner.state s.inner.session s.inner.tcpRuntime
        s.inner.workerHandles)
    generalize hs₁ : State.moveTo { s with inner := torn } t
      (.cleaning caller event s.inner.state s.inner.session s.inner.tcpRuntime
        s.inner.workerHandles) = s₁ at hcleaning
    have hjoined : (s.inner.workerHandles.all fun handle =>
        decide (handle = t ∨ s₁.pc handle = .ended)) = true := by
      rw [List.all_eq_true]
      intro handle hhandle
      rw [decide_eq_true_iff]
      by_cases hself : handle = t
      · exact Or.inl hself
      · right
        rw [← hs₁, State.moveTo_pc_of_ne hself]
        exact (hjoin handle hhandle).resolve_left hself
    have hcleanup : step s₁ (.cleanup t disconnect stop panics) =
        some (s₁.moveTo t (cleaned caller event s.inner.state (cleanupErrors t s.inner.session
          s.inner.tcpRuntime s.inner.workerHandles disconnect stop panics))) := by
      simp only [step, hcleaning, hjoined, if_true]
    obtain ⟨s', hsolo, hreturns⟩ := cleaned_solo disconnect stop panics
      (State.moveTo_pc_self s₁ t (cleaned caller event s.inner.state (cleanupErrors t
        s.inner.session s.inner.tcpRuntime s.inner.workerHandles disconnect stop panics)))
    refine ⟨s', ((hsolo.cons (Or.inr rfl) hcleanup).go hpc (hs₁ ▸ hstep)), ?_⟩
    subst hs₁
    exact hreturns

theorem claim_solo {event : Event} (hpc : s.pc t = .claiming caller event)
    (hjoin : ∀ handle ∈ s.inner.workerHandles, handle = t ∨ s.pc handle = .ended) :
    ∃ s', Solo t disconnect stop panics s s' ∧
      Returns t caller (handleTerminalShutdown s.inner s.coord event (cleanupErrors t
        s.inner.session s.inner.tcpRuntime s.inner.workerHandles disconnect stop panics)) s' := by
  have hstep : Lifecycle.go s t (.claiming caller event) = some (s.claim t caller event) := rfl
  unfold State.claim at hstep
  unfold handleTerminalShutdown
  by_cases hinFlight : s.coord.inFlightGeneration = some event.generation
  · rw [if_pos hinFlight] at hstep ⊢
    exact ⟨_, Solo.go hpc hstep (Solo.refl _), State.moveTo_pc_self .., rfl, rfl⟩
  rw [if_neg hinFlight] at hstep ⊢
  by_cases hdone : s.coord.doneGeneration = some event.generation
  · rw [if_pos hdone] at hstep ⊢
    cases hresult : s.coord.lastResult.getD (.ok ()) with
    | error e =>
      rw [hresult] at hstep
      exact ⟨_, Solo.go hpc hstep (Solo.refl _), State.moveTo_pc_self .., rfl, rfl⟩
    | ok =>
      rw [hresult] at hstep
      exact ⟨_, Solo.go hpc hstep (Solo.refl _), State.moveTo_pc_self .., rfl, rfl⟩
  · rw [if_neg hdone] at hstep ⊢
    generalize hs₁ : State.moveTo { s with
      coord := { s.coord with inFlightGeneration := some event.generation } } t
        (.tearing caller event) = s₁ at hstep
    have hinner : s₁.inner = s.inner := hs₁ ▸ rfl
    have htearing : s₁.pc t = .tearing caller event := by
      rw [← hs₁, State.moveTo_pc_self]
    have hjoin₁ : ∀ handle ∈ s₁.inner.workerHandles, handle = t ∨ s₁.pc handle = .ended := by
      intro handle hhandle
      by_cases hself : handle = t
      · exact Or.inl hself
      · right
        rw [← hs₁, State.moveTo_pc_of_ne hself]
        exact (hjoin handle (hinner ▸ hhandle)).resolve_left hself
    obtain ⟨s', hsolo, hreturns⟩ := tear_solo htearing hjoin₁ rfl
    rw [hinner, ← hs₁] at hreturns
    exact ⟨s', hsolo.go hpc hstep, hreturns⟩

/-- **`disconnect_blocking` by itself**: a thread that is not disturbed, and whose joins do not
wait, comes to what the function returns. -/
theorem disconnect_solo (hpc : s.pc t = .clearing caller)
    (hjoin : ∀ handle ∈ s.inner.workerHandles, handle = t ∨ s.pc handle = .ended) :
    ∃ s', Solo t disconnect stop panics s s' ∧
      Returns t caller (disconnectBlocking s.inner s.coord (cleanupErrors t s.inner.session
        s.inner.tcpRuntime s.inner.workerHandles disconnect stop panics)) s' := by
  -- the pending cancel is cleared, the generation read
  let s₁ := State.moveTo { s with cancelPending := none } t (.reading caller)
  let s₂ := s₁.moveTo t (.claiming caller ⟨s.inner.generation, .idle, none⟩)
  have hother : ∀ u ≠ t, s₂.pc u = s.pc u := by
    intro u hu
    rw [State.moveTo_pc_of_ne hu, State.moveTo_pc_of_ne hu]
  have hjoin₂ : ∀ handle ∈ s₂.inner.workerHandles, handle = t ∨ s₂.pc handle = .ended := by
    intro handle hhandle
    by_cases hself : handle = t
    · exact Or.inl hself
    · exact Or.inr ((hother handle hself).trans ((hjoin handle hhandle).resolve_left hself))
  obtain ⟨s', hsolo, hreturns⟩ := claim_solo (State.moveTo_pc_self s₁ t _) hjoin₂
  exact ⟨s', Solo.go hpc rfl (Solo.go (State.moveTo_pc_self ..) rfl hsolo), hreturns⟩

/-! ### The result -/

theorem cleanupErrors_none (t : ℕ) (session : Option ℕ) (runtime : Bool) (handles : List ℕ) :
    cleanupErrors t session runtime handles none none [] = [] := by
  simp [cleanupErrors]

/-- **A cleanup can be tried again** exactly if no failure of its generation is on record, and none
of its teardowns is in flight, unless the state is `Idle` by then.  After a disconnect that has
returned an error, it cannot.  A thread that is not disturbed comes to what is said here. -/
theorem cleanup_retried (s : State) :
    (Retried s.inner s.coord ↔
      if s.coord.inFlightGeneration = some s.inner.generation then s.inner.state = .idle
      else s.coord.doneGeneration = some s.inner.generation →
        ∀ e, s.coord.lastResult ≠ some (.error e)) ∧
    (∀ errors e i c, disconnectBlocking s.inner s.coord errors = (.error e, i, c) →
      ¬ Retried i c) ∧
    ∀ t caller, s.pc t = .clearing caller →
      (∀ handle ∈ s.inner.workerHandles, handle = t ∨ s.pc handle = .ended) →
      ∃ s', Solo t none none [] s s' ∧
        Returns t caller (disconnectBlocking s.inner s.coord []) s' := by
  refine ⟨retried_iff_record s.inner s.coord, ?_, ?_⟩
  · intro errors e i c h
    obtain ⟨hinFlight, hdone, hresult⟩ := disconnectBlocking_error h
    rw [retried_iff_record, if_neg hinFlight]
    exact fun hnone => hnone hdone e hresult
  · intro t caller hpc hjoin
    rw [← cleanupErrors_none t s.inner.session s.inner.tcpRuntime s.inner.workerHandles]
    exact disconnect_solo hpc hjoin

/-- The cleanup of a session that is up can be tried. -/
theorem cleanup_retried_ready : ∃ s,
    Machine.run step State.init (.connect "host" :: List.replicate 38 (.go 0)) = some s ∧
    s.inner.state = .ready ∧ Retried s.inner s.coord := by
  have hrun : ((Machine.run step State.init (.connect "host" :: List.replicate 38 (.go 0))).any
      fun s => decide (s.inner.state = .ready ∧
        s.coord.inFlightGeneration ≠ some s.inner.generation ∧
        s.coord.doneGeneration ≠ some s.inner.generation)) = true := by
    decide
  obtain ⟨s, hs, h⟩ := (Option.any_eq_true _ _).mp hrun
  obtain ⟨hready, hinFlight, hdone⟩ := of_decide_eq_true h
  refine ⟨s, hs, hready, (cleanup_retried s).1.mpr ?_⟩
  rw [if_neg hinFlight]
  exact fun h => absurd h hdone

/-- A session, and a disconnect whose cleanup fails. -/
def cleanupTraced : List Label :=
  .connect "host" :: List.replicate 38 (.go 0) ++ .disconnect :: List.replicate 8 (.go 4) ++
    [.exit 1, .exit 2, .exit 3, .cleanup 4 (some "trace") none []] ++ List.replicate 3 (.go 4)

/-- **A failed cleanup stays**: with nothing left to fail, the next disconnect returns what the
first one did, the connect after it gets no further, and the state is `Error`. -/
theorem cleanup_stuck :
    (∃ s, Machine.run step State.init cleanupTraced = some s ∧
      s.pc 4 = .returned (.failed "Session disconnect error: trace") ∧
      s.coord.doneGeneration = some s.inner.generation ∧ ¬ Retried s.inner s.coord) ∧
    ∃ s, Machine.run step State.init (cleanupTraced ++ .disconnect :: List.replicate 8 (.go 5) ++
        .connect "host" :: List.replicate 8 (.go 6)) = some s ∧
      s.pc 5 = .returned (.failed "Session disconnect error: trace") ∧
      s.pc 6 = .returned (.cleanupFailed "Session disconnect error: trace") ∧
      s.inner.state = .error := by
  have hfailed : ((Machine.run step State.init cleanupTraced).any fun s =>
      decide (s.pc 4 = .returned (.failed "Session disconnect error: trace") ∧
        s.coord.doneGeneration = some s.inner.generation ∧
        (disconnectBlocking s.inner s.coord []).1.isOk = false)) = true := by
    decide
  have hagain : ((Machine.run step State.init (cleanupTraced ++
      .disconnect :: List.replicate 8 (.go 5) ++
      .connect "host" :: List.replicate 8 (.go 6))).any fun s =>
        decide (s.pc 5 = .returned (.failed "Session disconnect error: trace") ∧
          s.pc 6 = .returned (.cleanupFailed "Session disconnect error: trace") ∧
          s.inner.state = .error)) = true := by
    decide
  constructor
  · obtain ⟨s, hs, h⟩ := (Option.any_eq_true _ _).mp hfailed
    obtain ⟨hreturned, hdone, hnotOk⟩ := of_decide_eq_true h
    refine ⟨s, hs, hreturned, hdone, fun hretried => ?_⟩
    rw [hretried.ok] at hnotOk
    cases hnotOk
  · obtain ⟨s, hs, h⟩ := (Option.any_eq_true _ _).mp hagain
    exact ⟨s, hs, of_decide_eq_true h⟩

end Lifecycle

end MahoRD.Ios

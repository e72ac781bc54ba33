/-
MahoRD/Ios/ConnectionOrder.lean

What the connection manager of the iOS client owes to its native session.  At most one native
connect is unsettled, a cleanup that has begun since waits for it (`Inv.settles`), and the native
calls are made in the order in which they were scheduled (`Inv.order`); so the session is given up
only after a native disconnect that came after the last native connect (`Inv.closed`).

This holds as long as no listener takes or gives up the session in the middle of `connect` or
`disconnectInternal`, which install themselves only after they have told their listeners
(`State.calm`).  And the periodic timer, which `connect` stops, is started again by a cleanup that
comes to `idle`, but not by dismissing an error (`State.stale`).
-/
import MahoRD.Ios.ConnectionManager

namespace MahoRD.Ios.Manager

open Machine

section Order

variable {ι κ : Type*}

/-! ### Invariant -/

/-- No native session can be there that no disconnect has followed: one that was invoked after the
connect and has succeeded. -/
def Closed (s : State ι κ) : Prop :=
  ∀ c n, s.native = some (c, n) → n ≠ .failed → s.disconnected = true

/-- `connect` is in its middle. -/
def Entering (s : State ι κ) (c : ι) : Prop :=
  s.frames.head? = some (.connecting c) ∨ s.frames.head? = some (.owning c)

structure Inv (s : State ι κ) : Prop where
  /-- Only the innermost call is in the middle of what takes or gives up the session. -/
  tail : ∀ f ∈ s.frames.tail, f.critical = false
  starting : ∀ c call, s.connects c = some call → call.stage = .starting → Entering s c
  entering : ∀ c, Entering s c → s.pendingConnect = none ∧ s.pendingCleanup = none ∧
    s.state ≠ .cleanupFailed ∧ (∃ call, s.connects c = some call ∧ call.stage = .starting) ∧
      ∀ c' call, s.connects c' = some call → call.stage.unsettled = true → c' = c
  owning : ∀ c, s.frames.head? = some (.owning c) → s.hasOwnedSession = true ∧ s.hasNative = true
  waiting : ∀ c call, s.connects c = some call → call.stage = .scheduled ∨ call.stage = .native →
    s.pendingConnect = some c ∧ s.hasOwnedSession = true ∧ s.hasNative = true ∧
      s.state ≠ .cleanupFailed
  leaving : ∀ g retainError connectToSettle,
    s.frames.head? = some (.disconnecting g retainError connectToSettle) →
      s.pendingCleanup = none ∧ connectToSettle = s.pendingConnect ∧ g = s.generation
  cleanup : ∀ g k, s.cleanups g = some k → k.stage ≠ .done →
    s.pendingCleanup = some g ∧ g = s.generation
  settles : ∀ g k, s.cleanups g = some k → k.stage ≠ .done → ∀ c call,
    s.connects c = some call → call.stage.unsettled = true →
      k.connectToSettle = some c ∧ k.stage ≠ .finished
  /-- The native disconnect is invoked after every native connect. -/
  invoked : ∀ g k, s.cleanups g = some k → k.stage ≠ .scheduled → k.stage ≠ .done →
    ∀ c call, s.connects c = some call → call.stage ≠ .scheduled
  since : ∀ g k, s.cleanups g = some k → k.stage = .native → k.since = s.native.map (·.1)
  answered : ∀ g k, s.cleanups g = some k → k.stage = .answered (.ok ()) → Closed s
  order : ∃ (cs : List ι) (g : Option ℕ), s.tasks = cs.map .connect ++ g.toList.map .disconnect
  queued : ∀ c call, s.connects c = some call → call.stage = .scheduled → .connect c ∈ s.tasks
  queue : ∀ g, .disconnect g ∈ s.tasks → ∃ k, s.cleanups g = some k ∧ k.stage = .scheduled
  running : ∀ c call, s.connects c = some call → call.stage = .native →
    s.native = some (c, .pending)
  closed : s.hasOwnedSession = false → Closed s
  fresh : ∀ c call, s.connects c = some call → call.stage = .starting ∨ call.stage = .scheduled →
    Closed s
  bridge : s.hasNative = false → s.native = none
  failed : truthy s.cleanupError = true → s.hasOwnedSession = true
  timer : s.isPeriodicEnabled = true → s.isForeground = true → s.state = .idle →
    s.periodicTimer = true

theorem Inv.init (hasNative : Bool) : Inv (State.init hasNative : State ι κ) where
  tail := nofun
  starting := nofun
  entering := fun _ h => by cases h <;> contradiction
  owning := nofun
  waiting := nofun
  leaving := nofun
  cleanup := nofun
  settles := nofun
  invoked := nofun
  since := nofun
  answered := nofun
  order := ⟨[], none, rfl⟩
  queued := nofun
  queue := nofun
  running := nofun
  closed := fun _ => nofun
  fresh := nofun
  bridge := fun _ => rfl
  failed := nofun
  timer := nofun

/-- What the invariant speaks of, the state and the timer apart. -/
def State.core (s : State ι κ) :=
  (s.hasNative, s.generation, s.hasOwnedSession, s.pendingConnect, s.pendingCleanup, s.connects,
    s.cleanups, s.tasks, s.frames, s.native, s.disconnected)

variable {s : State ι κ} {f : Frame ι} {g : ℕ} {k : Cleanup ι}

theorem Inv.congr {s' : State ι κ} (h : Inv s) (hc : s'.core = s.core)
    (hs : s'.state = .cleanupFailed → s.state = .cleanupFailed)
    (hf : truthy s'.cleanupError = true → truthy s.cleanupError = true)
    (ht : s'.isPeriodicEnabled = true → s'.isForeground = true → s'.state = .idle →
      s'.periodicTimer = true) : Inv s' := by
  simp only [State.core, Prod.mk.injEq] at hc
  obtain ⟨hb, hg, ho, hpc, hpk, hcs, hks, htasks, hframes, hn, hd⟩ := hc
  have hentering : ∀ c, Entering s' c ↔ Entering s c := fun c => by rw [Entering, Entering, hframes]
  have hclosed : Closed s' ↔ Closed s := by rw [Closed, Closed, hn, hd]
  constructor
  · rw [hframes]; exact h.tail
  · simp only [hcs, hentering]; exact h.starting
  · simp only [hentering, hpc, hpk, hcs]
    exact fun c hc => (h.entering c hc).imp_right fun ⟨h₁, h₂, h₃⟩ => ⟨h₁, mt hs h₂, h₃⟩
  · rw [hframes, ho, hb]; exact h.owning
  · simp only [hcs, hpc, ho, hb]
    exact fun c call hc hst =>
      (h.waiting c call hc hst).imp_right fun ⟨h₁, h₂, h₃⟩ => ⟨h₁, h₂, mt hs h₃⟩
  · rw [hframes, hpk, hpc, hg]; exact h.leaving
  · rw [hks, hpk, hg]; exact h.cleanup
  · rw [hks, hcs]; exact h.settles
  · rw [hks, hcs]; exact h.invoked
  · rw [hks, hn]; exact h.since
  · rw [hks, hclosed]; exact h.answered
  · rw [htasks]; exact h.order
  · rw [hcs, htasks]; exact h.queued
  · rw [htasks, hks]; exact h.queue
  · rw [hcs, hn]; exact h.running
  · rw [ho, hclosed]; exact h.closed
  · rw [hcs, hclosed]; exact h.fresh
  · rw [hb, hn]; exact h.bridge
  · rw [ho]; exact fun he => h.failed (hf he)
  · exact ht

/-! ### Frames -/

theorem head_ne {frames : List (Frame ι)} (h : ∀ f ∈ frames, f.critical = false)
    (hf : f.critical = true) : frames.head? ≠ some f := fun he => by
  rw [h f (List.mem_of_mem_head? he)] at hf
  cases hf

theorem not_entering (h : ∀ f ∈ s.frames, f.critical = false) (c : ι) :
    ¬ Entering s c := by
  rintro (hc | hc)
  · exact head_ne h rfl hc
  · exact head_ne h rfl hc

/-- No call is in the middle of what takes or gives up the session. -/
def State.calm (s : State ι κ) : Bool := s.frames.all (¬ ·.critical)

theorem calm_iff : s.calm = true ↔ ∀ f ∈ s.frames, f.critical = false := by
  simp [State.calm]

/-- Without a pending connect none is unsettled, unless one is in its middle. -/
theorem Inv.all_settled (h : Inv s) (hcalm : s.calm = true)
    (hp : s.pendingConnect = none) {c : ι} {call : ConnectCall} (hc : s.connects c = some call) :
    call.stage.unsettled = false := by
  rcases hst : call.stage with - | - | - | answer | - | -
  · exact absurd (h.starting c call hc hst) (not_entering (calm_iff.1 hcalm) c)
  · exact nomatch hp.symm.trans (h.waiting c call hc (Or.inl hst)).1
  · exact nomatch hp.symm.trans (h.waiting c call hc (Or.inr hst)).1
  · rfl
  · rfl
  · rfl

theorem Inv.waiting_eq (h : Inv s) {c c' : ι} (hp : s.pendingConnect = some c)
    {call : ConnectCall} (hc : s.connects c' = some call)
    (hst : call.stage = .scheduled ∨ call.stage = .native) : c' = c :=
  Option.some.inj ((h.waiting c' call hc hst).1.symm.trans hp)

theorem Inv.pushFrame (h : Inv s) (hcalm : s.calm = true)
    (hf : f.critical = false) : Inv { s with frames := f :: s.frames } :=
  have hframes := calm_iff.1 hcalm
  have hall : ∀ f' ∈ f :: s.frames, f'.critical = false := by
    rw [List.forall_mem_cons]
    exact ⟨hf, hframes⟩
  { h with
    tail := hframes
    starting := fun c call hc hst => absurd (h.starting c call hc hst) (not_entering hframes c)
    entering := fun c hc => absurd hc (not_entering hall c)
    owning := fun c hc => absurd hc (head_ne hall rfl)
    leaving := fun g retainError connectToSettle hc => absurd hc (head_ne hall rfl) }

theorem Inv.rest (h : Inv s) {frames : List (Frame ι)}
    (hs : s.frames = f :: frames) : ∀ f' ∈ frames, f'.critical = false := by
  have htail := h.tail
  rwa [hs] at htail

theorem Inv.popFrame (h : Inv s) {frames : List (Frame ι)}
    (hs : s.frames = f :: frames) (hf : f.critical = false) : Inv { s with frames } :=
  have hrest := h.rest hs
  have hall : ∀ f' ∈ s.frames, f'.critical = false := by
    rw [hs, List.forall_mem_cons]
    exact ⟨hf, hrest⟩
  { h with
    tail := fun f' hf' => hrest f' (List.mem_of_mem_tail hf')
    starting := fun c call hc hst => absurd (h.starting c call hc hst) (not_entering hall c)
    entering := fun c hc => absurd hc (not_entering hrest c)
    owning := fun c hc => absurd hc (head_ne hrest rfl)
    leaving := fun g retainError connectToSettle hc => absurd hc (head_ne hrest rfl) }

/-! ### Cleanups -/

theorem Inv.all_done (h : Inv s) (hp : s.pendingCleanup = none) (hk : s.cleanups g = some k) : k.stage = .done := by
  by_contra hd
  exact nomatch hp.symm.trans (h.cleanup g k hk hd).1

/-- The native disconnect of a cleanup that has come further is not scheduled any more. -/
theorem Inv.not_queued (h : Inv s)
    (hk : s.cleanups g = some k) (hs : k.stage ≠ .scheduled) : .disconnect g ∉ s.tasks := by
  intro hq
  obtain ⟨k', hk', hst⟩ := h.queue g hq
  rw [← Option.some.inj (hk.symm.trans hk')] at hst
  exact hs hst

theorem setCleanup_some {g' : ℕ} {k' : Cleanup ι}
    (h : (s.setCleanup g k).cleanups g' = some k') :
    g' = g ∧ k' = k ∨ g' ≠ g ∧ s.cleanups g' = some k' := by
  simp only [State.setCleanup, Function.update_apply] at h
  split at h
  next hg => exact Or.inl ⟨hg, (Option.some.inj h).symm⟩
  next hg => exact Or.inr ⟨hg, h⟩

theorem Inv.setCleanup (h : Inv s) {k' : Cleanup ι}
    (hk : s.cleanups g = some k) (hd : k.stage ≠ .done)
    (hconnect : k'.connectToSettle = k.connectToSettle)
    (hinvoked : k'.stage ≠ .scheduled → k'.stage ≠ .done → ∀ c call, s.connects c = some call →
      call.stage ≠ .scheduled)
    (hfinished : k'.stage = .finished → ∀ c call, s.connects c = some call →
      call.stage.unsettled = false)
    (hsince : k'.stage = .native → k'.since = s.native.map (·.1))
    (hanswered : k'.stage = .answered (.ok ()) → Closed s)
    (hqueue : .disconnect g ∈ s.tasks → k'.stage = .scheduled) : Inv (s.setCleanup g k') :=
  { h with
    cleanup := fun g' k'' hk'' hd' => by
      obtain ⟨rfl, -⟩ | ⟨-, hk''⟩ := setCleanup_some hk''
      · exact h.cleanup g' k hk hd
      · exact h.cleanup g' k'' hk'' hd'
    settles := fun g' k'' hk'' hd' c call hc hu => by
      obtain ⟨rfl, rfl⟩ | ⟨-, hk''⟩ := setCleanup_some hk''
      · refine ⟨hconnect.trans (h.settles g' k hk hd c call hc hu).1, fun hf => ?_⟩
        rw [hfinished hf c call hc] at hu
        cases hu
      · exact h.settles g' k'' hk'' hd' c call hc hu
    invoked := fun g' k'' hk'' hn hd' => by
      obtain ⟨rfl, rfl⟩ | ⟨-, hk''⟩ := setCleanup_some hk''
      · exact hinvoked hn hd'
      · exact h.invoked g' k'' hk'' hn hd'
    since := fun g' k'' hk'' hn => by
      obtain ⟨rfl, rfl⟩ | ⟨-, hk''⟩ := setCleanup_some hk''
      · exact hsince hn
      · exact h.since g' k'' hk'' hn
    answered := fun g' k'' hk'' ha => by
      obtain ⟨rfl, rfl⟩ | ⟨-, hk''⟩ := setCleanup_some hk''
      · exact hanswered ha
      · exact h.answered g' k'' hk'' ha
    queue := fun g' hg' => by
      by_cases hgg : g' = g
      · subst hgg
        exact ⟨k', Function.update_self .., hqueue hg'⟩
      · obtain ⟨k'', hk'', hst⟩ := h.queue g' hg'
        exact ⟨k'', (Function.update_of_ne hgg ..).trans hk'', hst⟩ }

theorem Inv.begin (h : Inv s) (hcalm : s.calm = true)
    (hp : s.pendingCleanup = none) (lastError : Option String) (retainError : Bool) :
    Inv { s with
      generation := s.generation + 1
      state := .disconnecting
      cleanupError := none
      lastError
      frames := .disconnecting (s.generation + 1) retainError s.pendingConnect :: s.frames } :=
  have hframes := calm_iff.1 hcalm
  { h with
    tail := hframes
    starting := fun c call hc hst => absurd (h.starting c call hc hst) (not_entering hframes c)
    entering := fun c hc => by rcases hc with hc | hc <;> cases hc
    owning := nofun
    waiting := fun c call hc hst => (h.waiting c call hc hst).imp_right
      fun ⟨h₁, h₂, _⟩ => ⟨h₁, h₂, nofun⟩
    leaving := fun g retainError' connectToSettle hc => by
      obtain ⟨rfl, -, rfl⟩ := Frame.disconnecting.inj (Option.some.inj hc)
      exact ⟨hp, rfl, rfl⟩
    cleanup := fun g k hk hd => absurd (h.all_done hp hk) hd
    failed := nofun
    timer := nofun }

/-- Does dismissing leave an error without a periodic timer? -/
def State.stale (s : State ι κ) : Bool :=
  s.state = .error ∧ ¬ s.hasOwnedSession ∧ s.isPeriodicEnabled ∧ s.isForeground

theorem Inv.disconnectInternal (h : Inv s) (retainError : Bool)
    (hcalm : s.begins = true → s.calm = true)
    (hstale : s.pendingCleanup = none → retainError = false → s.stale = false) :
    Inv (s.disconnectInternal retainError) := by
  rw [State.disconnectInternal]
  split
  · exact h
  next hp =>
    rw [Bool.not_eq_true, Option.isSome_eq_false_iff, Option.isNone_iff_eq_none] at hp
    split
    next hb => exact h.begin (hcalm hb) hp _ retainError
    next hb =>
      split
      next he =>
        refine h.congr rfl nofun id fun hen hfg _ => ?_
        have hst := hstale hp (Bool.eq_false_iff.2 he.2)
        have howned : s.hasOwnedSession = false := by
          by_contra ho
          exact hb (by simp [State.begins, hp, ho])
        simp only [State.stale, he.1, howned, show s.isPeriodicEnabled = true from hen,
          show s.isForeground = true from hfg] at hst
        cases hst
      · exact h

theorem Inv.retryCleanup (h : Inv s) (hcalm : s.begins = true → s.calm = true) :
    Inv s.retryCleanup := by
  simp only [State.retryCleanup]
  split
  · exact h
  · split
    next hr =>
      have h' : ∀ lastError, Inv { s with lastError } := fun _ => h.congr rfl id id h.timer
      refine (h' _).disconnectInternal _ hcalm fun _ _ => Bool.eq_false_iff.2 fun hst => ?_
      -- A cleanup that has failed has kept the session.
      simp only [State.stale, decide_eq_true_eq] at hst
      obtain ⟨he, ho, -⟩ := hst
      rcases hr with hr | hr | hr
      · exact nomatch he.symm.trans hr
      · exact ho (h.failed hr)
      · exact ho hr
    · exact h

theorem Inv.dismissError (h : Inv s) (hcalm : s.begins = true → s.calm = true)
    (hstale : s.stale = false) : Inv s.dismissError := by
  rw [State.dismissError]
  split
  · exact h.disconnectInternal false hcalm fun _ _ => hstale
  next hn =>
    rw [not_or, Bool.not_eq_true] at hn
    refine h.congr rfl (fun hs => ?_) nofun fun hen hfg hs => ?_
    · change (if s.state = .error then UiState.idle else s.state) = .cleanupFailed at hs
      split at hs
      · cases hs
      · exact hs
    · change (if s.state = .error then UiState.idle else s.state) = .idle at hs
      split at hs
      next he =>
        simp [State.stale, he, hn.1, show s.isPeriodicEnabled = true from hen,
          show s.isForeground = true from hfg] at hstale
      · exact h.timer hen hfg hs

theorem Inv.beginCleanup (h : Inv s) {retainError : Bool}
    {connectToSettle : Option ι} {frames : List (Frame ι)}
    (hs : s.frames = .disconnecting g retainError connectToSettle :: frames) :
    Inv (State.beginCleanup { s with frames } g retainError connectToSettle) := by
  have hrest := h.rest hs
  obtain ⟨hp, rfl, rfl⟩ := h.leaving _ _ _ (by rw [hs]; rfl)
  have hstarting : ∀ c call, s.connects c = some call → call.stage ≠ .starting := by
    intro c call hc hst
    have := h.starting c call hc hst
    rw [Entering, hs] at this
    rcases this with he | he <;> cases he
  have hold : ∀ g', .disconnect g' ∉ s.tasks := fun g' hg' => by
    obtain ⟨k, hk, hst⟩ := h.queue g' hg'
    exact nomatch (h.all_done hp hk).symm.trans hst
  -- The cleanups are done, but for the new one.
  have hks : ∀ {g' k}, Function.update s.cleanups s.generation (some ⟨retainError,
      s.pendingConnect, if s.hasNative then .scheduled else .answered (.ok ()), none⟩) g' = some k →
      k.stage ≠ .done → g' = s.generation ∧ k = ⟨retainError, s.pendingConnect,
        if s.hasNative then .scheduled else .answered (.ok ()), none⟩ := by
    intro g' k hk hd
    rw [Function.update_apply] at hk
    split at hk
    next hg => exact ⟨hg, (Option.some.inj hk).symm⟩
    · exact absurd (h.all_done hp hk) hd
  exact
    { h with
      tail := fun f hf => hrest f (List.mem_of_mem_tail hf)
      starting := fun c call hc hst => absurd hst (hstarting c call hc)
      entering := fun c hc => absurd hc (not_entering hrest c)
      owning := fun c hc => absurd hc (head_ne hrest rfl)
      leaving := fun _ _ _ hc => absurd hc (head_ne hrest rfl)
      cleanup := fun g' k hk hd => by
        obtain ⟨rfl, -⟩ := hks hk hd
        exact ⟨rfl, rfl⟩
      settles := fun g' k hk hd c call hc hu => by
        obtain ⟨rfl, rfl⟩ := hks hk hd
        refine ⟨?_, ?_⟩
        · rcases hst : call.stage with - | - | - | answer | - | -
          · exact absurd hst (hstarting c call hc)
          · exact (h.waiting c call hc (Or.inl hst)).1
          · exact (h.waiting c call hc (Or.inr hst)).1
          all_goals
            rw [hst] at hu
            cases hu
        · split <;> nofun
      invoked := fun g' k hk hn hd c call hc hst => by
        obtain ⟨rfl, rfl⟩ := hks hk hd
        have := (h.waiting c call hc (Or.inl hst)).2.2.1
        rw [if_pos this] at hn
        exact hn rfl
      since := fun g' k hk hn => by
        obtain ⟨rfl, rfl⟩ := hks hk (by rw [hn]; nofun)
        split at hn <;> cases hn
      answered := fun g' k hk ha => by
        obtain ⟨rfl, rfl⟩ := hks hk (by rw [ha]; nofun)
        split at ha
        · cases ha
        next hb =>
          intro c n hn
          have := h.bridge (Bool.eq_false_iff.2 hb)
          exact nomatch this.symm.trans hn
      order := by
        obtain ⟨cs, g', hcs⟩ := h.order
        dsimp only [State.beginCleanup]
        split
        · cases g' with
          | none => exact ⟨cs, some s.generation, by simp [hcs]⟩
          | some g' => exact absurd (by simp [hcs]) (hold g')
        · exact ⟨cs, g', hcs⟩
      queued := fun c call hc hst => by
        have := h.queued c call hc hst
        dsimp only [State.beginCleanup]
        split
        · exact List.mem_append_left _ this
        · exact this
      queue := fun g' hg' => by
        dsimp only [State.beginCleanup] at hg'
        split at hg'
        next hb =>
          rcases List.mem_append.1 hg' with hg' | hg'
          · exact absurd hg' (hold g')
          · obtain rfl := Task.disconnect.inj (List.mem_singleton.1 hg')
            exact ⟨_, Function.update_self .., if_pos hb⟩
        · exact absurd hg' (hold g') }

/-! ### Connects -/

section Connects

variable [DecidableEq ι] {s : State ι κ} {c : ι} {call : ConnectCall}

theorem setConnect_some {c' : ι} {call call' : ConnectCall}
    (h : (s.setConnect c call).connects c' = some call') :
    c' = c ∧ call' = call ∨ c' ≠ c ∧ s.connects c' = some call' := by
  simp only [State.setConnect, Function.update_apply] at h
  split at h
  next hcc => exact Or.inl ⟨hcc, (Option.some.inj h).symm⟩
  next hcc => exact Or.inr ⟨hcc, h⟩

theorem Inv.connect (h : Inv s) (request : Except String String)
    (hcalm : s.accepts = true → request.isOk = true → s.calm = true) :
    Inv (s.connect c request) := by
  simp only [State.connect]
  split
  next ha =>
    cases request with
    | error error => exact h.congr rfl id id h.timer
    | ok host =>
      have hc := hcalm ha rfl
      simp only [State.accepts, Option.isNone_iff_eq_none, decide_eq_true_eq] at ha
      obtain ⟨ho, hk, hp, -⟩ := ha
      have hset : ∀ {c call}, s.connects c = some call → call.stage.unsettled = false :=
        fun hc' => h.all_settled hc hp hc'
      have hne : ∀ {c' call' stage}, s.connects c' = some call' → call'.stage = stage →
          stage.unsettled ≠ true := by
        rintro c' call' _ hc' rfl hu
        rw [hset hc'] at hu
        cases hu
      exact
        { h with
          tail := calm_iff.1 hc
          starting := fun c' call' hc' hst => by
            obtain ⟨rfl, rfl⟩ | ⟨-, hc'⟩ := setConnect_some hc'
            · exact Or.inl rfl
            · exact absurd rfl (hne hc' hst)
          entering := fun c' hc' => by
            obtain rfl : c = c' := by
              rcases hc' with hc' | hc'
              · exact Frame.connecting.inj (Option.some.inj hc')
              · cases hc'
            refine ⟨hp, hk, nofun, ⟨_, Function.update_self .., rfl⟩, fun c' call' hc' hu => ?_⟩
            obtain ⟨rfl, -⟩ | ⟨-, hc'⟩ := setConnect_some hc'
            · rfl
            · exact absurd hu (hne hc' rfl)
          owning := nofun
          waiting := fun c' call' hc' hst => by
            obtain ⟨rfl, rfl⟩ | ⟨-, hc'⟩ := setConnect_some hc'
            · rcases hst with hst | hst <;> cases hst
            · rcases hst with hst | hst <;> exact absurd rfl (hne hc' hst)
          leaving := nofun
          cleanup := fun g k hk' hd => absurd (h.all_done hk hk') hd
          settles := fun g k hk' hd => absurd (h.all_done hk hk') hd
          invoked := fun g k hk' _ hd => absurd (h.all_done hk hk') hd
          queued := fun c' call' hc' hst => by
            obtain ⟨rfl, rfl⟩ | ⟨-, hc'⟩ := setConnect_some hc'
            · cases hst
            · exact absurd rfl (hne hc' hst)
          running := fun c' call' hc' hst => by
            obtain ⟨rfl, rfl⟩ | ⟨-, hc'⟩ := setConnect_some hc'
            · cases hst
            · exact absurd rfl (hne hc' hst)
          fresh := fun _ _ _ _ => h.closed (Bool.eq_false_iff.2 ho)
          failed := nofun
          timer := nofun }
  · exact h

omit [DecidableEq ι] in
theorem Inv.own (h : Inv s) {frames : List (Frame ι)} (hs : s.frames = .connecting c :: frames)
    (hb : s.hasNative = true) :
    Inv { s with hasOwnedSession := true, frames := .owning c :: frames } := by
  have hc : Entering s c := by
    rw [Entering, hs]
    exact Or.inl rfl
  have heq : ∀ {c'}, Entering { s with hasOwnedSession := true, frames := .owning c :: frames } c' →
      c = c' := by
    rintro c' (hc' | hc')
    · cases hc'
    · exact Frame.owning.inj (Option.some.inj hc')
  exact
    { h with
      tail := h.rest hs
      starting := fun c' call hc' hst => by
        obtain rfl := (h.entering c hc).2.2.2.2 c' call hc' (by rw [hst]; rfl)
        exact Or.inr rfl
      entering := fun c' hc' => by
        obtain rfl := heq hc'
        exact h.entering c hc
      owning := fun _ _ => ⟨rfl, hb⟩
      waiting := fun c' call hc' hst => (h.waiting c' call hc' hst).imp_right
        fun ⟨_, h₂, h₃⟩ => ⟨rfl, h₂, h₃⟩
      leaving := nofun
      closed := nofun
      failed := fun _ => rfl }

theorem Inv.refuse (h : Inv s) {frames : List (Frame ι)}
    (hs : s.frames = .connecting c :: frames) (hc : s.connects c = some call)
    (lastError : Option String) :
    Inv { { s with frames }.setConnect c { call with stage := .done } with
      state := .error, lastError } := by
  have hrest := h.rest hs
  obtain ⟨hp, hk, -, ⟨call₀, hc₀, hst₀⟩, huniq⟩ := h.entering c (Or.inl (by rw [hs]; rfl))
  obtain rfl := Option.some.inj (hc.symm.trans hc₀)
  -- No connect is unsettled any more.
  have hset : ∀ {c' call'}, (s.setConnect c { call with stage := .done }).connects c' = some call' →
      call'.stage.unsettled ≠ true := by
    intro c' call' hc' hu
    obtain ⟨rfl, rfl⟩ | ⟨hne, hc'⟩ := setConnect_some hc'
    · cases hu
    · exact hne (huniq c' call' hc' hu)
  exact
    { h with
      tail := fun f hf => hrest f (List.mem_of_mem_tail hf)
      starting := fun c' call' hc' hst => absurd (by rw [hst]; rfl) (hset hc')
      entering := fun c' hc' => absurd hc' (not_entering hrest c')
      owning := fun _ hc' => absurd hc' (head_ne hrest rfl)
      waiting := fun c' call' hc' hst => absurd (by rcases hst with hst | hst <;> rw [hst] <;> rfl)
        (hset hc')
      leaving := fun _ _ _ hc' => absurd hc' (head_ne hrest rfl)
      settles := fun g k hk' hd => absurd (h.all_done hk hk') hd
      invoked := fun g k hk' _ hd => absurd (h.all_done hk hk') hd
      queued := fun c' call' hc' hst => absurd (by rw [hst]; rfl) (hset hc')
      running := fun c' call' hc' hst => absurd (by rw [hst]; rfl) (hset hc')
      fresh := fun _ _ _ _ => h.fresh c call hc (Or.inl hst₀)
      timer := nofun }

theorem Inv.schedule (h : Inv s) {frames : List (Frame ι)}
    (hs : s.frames = .owning c :: frames) (hc : s.connects c = some call) :
    Inv { { s with frames }.setConnect c { call with stage := .scheduled } with
      tasks := s.tasks ++ [.connect c], pendingConnect := some c } := by
  have hrest := h.rest hs
  obtain ⟨hp, hk, hfailed, ⟨call₀, hc₀, hst₀⟩, huniq⟩ := h.entering c (Or.inr (by rw [hs]; rfl))
  obtain rfl := Option.some.inj (hc.symm.trans hc₀)
  obtain ⟨ho, hb⟩ := h.owning c (by rw [hs]; rfl)
  have heq : ∀ {c' call'}, (s.setConnect c { call with stage := .scheduled }).connects c' =
      some call' → call'.stage.unsettled = true → c' = c ∧ call'.stage = .scheduled := by
    intro c' call' hc' hu
    obtain ⟨rfl, rfl⟩ | ⟨hne, hc'⟩ := setConnect_some hc'
    · exact ⟨rfl, rfl⟩
    · exact absurd (huniq c' call' hc' hu) hne
  exact
    { h with
      tail := fun f hf => hrest f (List.mem_of_mem_tail hf)
      starting := fun c' call' hc' hst => by
        have := (heq hc' (by rw [hst]; rfl)).2
        rw [hst] at this
        cases this
      entering := fun c' hc' => absurd hc' (not_entering hrest c')
      owning := fun _ hc' => absurd hc' (head_ne hrest rfl)
      waiting := fun c' call' hc' hst => by
        obtain ⟨rfl, -⟩ := heq hc' (by rcases hst with hst | hst <;> rw [hst] <;> rfl)
        exact ⟨rfl, ho, hb, hfailed⟩
      leaving := fun _ _ _ hc' => absurd hc' (head_ne hrest rfl)
      settles := fun g k hk' hd => absurd (h.all_done hk hk') hd
      invoked := fun g k hk' _ hd => absurd (h.all_done hk hk') hd
      order := by
        obtain ⟨cs, g, htasks⟩ := h.order
        cases g with
        | none => exact ⟨cs ++ [c], none, by simp [htasks]⟩
        | some g =>
          -- No native disconnect is scheduled.
          obtain ⟨k, hk', hst⟩ := h.queue g (by simp [htasks])
          exact nomatch (h.all_done hk hk').symm.trans hst
      queued := fun c' call' hc' hst => by
        obtain ⟨rfl, -⟩ := heq hc' (by rw [hst]; rfl)
        exact List.mem_append_right _ (List.mem_singleton_self _)
      queue := fun g hg => by
        rcases List.mem_append.1 hg with hg | hg
        · exact h.queue g hg
        · cases List.mem_singleton.1 hg
      running := fun c' call' hc' hst => by
        have := (heq hc' (by rw [hst]; rfl)).2
        rw [hst] at this
        cases this
      fresh := fun _ _ _ _ => h.fresh c call hc (Or.inl hst₀) }

theorem Inv.goOn (h : Inv s) (hc : s.connects c = some call) (hs : call.stage.unsettled = false)
    {stage : ConnectStage} (hs' : stage.unsettled = false) :
    Inv (s.setConnect c { call with stage }) := by
  have hold : ∀ {c' call'}, (s.setConnect c { call with stage }).connects c' = some call' →
      call'.stage.unsettled = true → s.connects c' = some call' := by
    intro c' call' hc' hu
    obtain ⟨rfl, rfl⟩ | ⟨-, hc'⟩ := setConnect_some hc'
    · rw [hs'] at hu
      cases hu
    · exact hc'
  have hnew : ∀ {c' call'}, s.connects c' = some call' → call'.stage.unsettled = true →
      (s.setConnect c { call with stage }).connects c' = some call' := by
    intro c' call' hc' hu
    refine (Function.update_of_ne ?_ ..).trans hc'
    rintro rfl
    rw [Option.some.inj (hc.symm.trans hc'), hu] at hs
    cases hs
  exact
    { h with
      starting := fun c' call' hc' hst => h.starting c' call' (hold hc' (by rw [hst]; rfl)) hst
      entering := fun c' hc' => by
        obtain ⟨hp, hk, hf, ⟨call', hcall', hst⟩, huniq⟩ := h.entering c' hc'
        exact ⟨hp, hk, hf, ⟨call', hnew hcall' (by rw [hst]; rfl), hst⟩,
          fun c'' call'' hc'' hu => huniq c'' call'' (hold hc'' hu) hu⟩
      waiting := fun c' call' hc' hst =>
        h.waiting c' call' (hold hc' (by rcases hst with hst | hst <;> rw [hst] <;> rfl)) hst
      settles := fun g k hk hd c' call' hc' hu => h.settles g k hk hd c' call' (hold hc' hu) hu
      invoked := fun g k hk hn hd c' call' hc' hst =>
        h.invoked g k hk hn hd c' call' (hold hc' (by rw [hst]; rfl)) hst
      queued := fun c' call' hc' hst => h.queued c' call' (hold hc' (by rw [hst]; rfl)) hst
      running := fun c' call' hc' hst =>
        h.running c' call' (hold hc' (by rw [hst]; rfl)) hst
      fresh := fun c' call' hc' hst =>
        h.fresh c' call' (hold hc' (by rcases hst with hst | hst <;> rw [hst] <;> rfl)) hst }

theorem Inv.leaveConnect (h : Inv s) (hcalm : s.calm = true) (hc : s.connects c = some call)
    (hs : call.stage.unsettled = false) : Inv (s.leaveConnect c call) := by
  have h' : Inv (s.setConnect c { call with stage := .done }) := h.goOn hc hs rfl
  have hframes := calm_iff.1 hcalm
  exact
    { h' with
      entering := fun c' hc' => absurd hc' (not_entering hframes c')
      waiting := fun c' call' hc' hst => by
        refine (h'.waiting c' call' hc' hst).imp_left fun hp => ?_
        refine (if_neg fun hp' => ?_).trans hp
        obtain rfl : c' = c := Option.some.inj (hp.symm.trans hp')
        have hdone : (s.setConnect c' { call with stage := .done }).connects c' = some call' := hc'
        obtain ⟨-, rfl⟩ | ⟨hne, -⟩ := setConnect_some hdone
        · rcases hst with hst | hst <;> cases hst
        · exact hne rfl
      leaving := fun _ _ _ hc' => absurd hc' (head_ne hframes rfl) }

theorem Inv.continueConnect (h : Inv s) (hcalm : s.calm = true) (hc : s.connects c = some call)
    {answer : Except String Unit} (hs : call.stage = .settled answer) :
    Inv (s.continueConnect c call answer) := by
  have hu : call.stage.unsettled = false := by rw [hs]; rfl
  simp only [State.continueConnect]
  split
  · exact h.leaveConnect hcalm hc hu
  · have h' : Inv (s.setConnect c { call with stage := .leaving }) := h.goOn hc hu rfl
    cases answer with
    | ok _ => exact (h'.pushFrame (f := .connected c) hcalm rfl).congr rfl nofun id nofun
    | error error => exact (h'.pushFrame (f := .connectFailed c) hcalm rfl).congr rfl nofun id nofun

/-! ### Native calls -/

theorem Inv.runConnect (h : Inv s) (hcalm : s.calm = true) {tasks : List (Task ι)}
    (htasks : s.tasks = .connect c :: tasks) (hc : s.connects c = some call)
    (hs : call.stage = .scheduled) : Inv (State.runConnect { s with tasks } c call) := by
  have hframes := calm_iff.1 hcalm
  obtain ⟨hp, ho, hb, hf⟩ := h.waiting c call hc (Or.inl hs)
  have hscheduled : ∀ {c' call'}, (s.setConnect c { call with stage := .native }).connects c' =
      some call' → call'.stage = .scheduled → c' ≠ c ∧ s.connects c' = some call' := by
    intro c' call' hc' hst
    obtain ⟨rfl, rfl⟩ | hc' := setConnect_some hc'
    · cases hst
    · exact hc'
  -- No native disconnect has been invoked.
  have hks : ∀ {g k}, s.cleanups g = some k → k.stage ≠ .done → k.stage = .scheduled := by
    intro g k hk hd
    by_contra hn
    exact h.invoked g k hk hn hd c call hc hs
  exact
    { h with
      starting := fun c' call' hc' hst => by
        obtain ⟨rfl, rfl⟩ | ⟨-, hc'⟩ := setConnect_some hc'
        · cases hst
        · exact h.starting c' call' hc' hst
      entering := fun c' hc' => absurd hc' (not_entering hframes c')
      waiting := fun c' call' hc' hst => by
        obtain ⟨rfl, -⟩ | ⟨-, hc'⟩ := setConnect_some hc'
        · exact ⟨hp, ho, hb, hf⟩
        · exact h.waiting c' call' hc' hst
      settles := fun g k hk hd c' call' hc' hu => by
        obtain ⟨rfl, -⟩ | ⟨-, hc'⟩ := setConnect_some hc'
        · exact h.settles g k hk hd c' call hc (by rw [hs]; rfl)
        · exact h.settles g k hk hd c' call' hc' hu
      invoked := fun g k hk hn hd => absurd (hks hk hd) hn
      since := fun g k hk hn => by
        have := hks hk (by rw [hn]; nofun)
        rw [hn] at this
        cases this
      answered := fun g k hk ha => by
        have := hks hk (by rw [ha]; nofun)
        rw [ha] at this
        cases this
      order := by
        obtain ⟨cs, g, hcs⟩ := h.order
        rw [htasks] at hcs
        cases cs with
        | nil => cases g <;> cases hcs
        | cons c' cs => exact ⟨cs, g, (List.cons.inj hcs).2⟩
      queued := fun c' call' hc' hst => by
        obtain ⟨hne, hc'⟩ := hscheduled hc' hst
        have := h.queued c' call' hc' hst
        rw [htasks, List.mem_cons] at this
        exact this.resolve_left fun he => hne (Task.connect.inj he)
      queue := fun g hg => h.queue g (by rw [htasks]; exact List.mem_cons_of_mem _ hg)
      running := fun c' call' hc' hst => by
        obtain ⟨rfl, -⟩ | ⟨hne, hc'⟩ := setConnect_some hc'
        · rfl
        · exact absurd (h.waiting_eq hp hc' (Or.inr hst)) hne
      closed := fun hn => nomatch ho.symm.trans hn
      fresh := fun c' call' hc' hst => by
        obtain ⟨rfl, rfl⟩ | ⟨hne, hc'⟩ := setConnect_some hc'
        · rcases hst with hst | hst <;> cases hst
        · rcases hst with hst | hst
          · exact absurd (h.starting c' call' hc' hst) (not_entering hframes c')
          · exact absurd (h.waiting_eq hp hc' (Or.inl hst)) hne
      bridge := fun hn => nomatch hb.symm.trans hn }

theorem Inv.connectSettled (h : Inv s) (hc : s.connects c = some call)
    (hs : call.stage = .native) (answer : Except String Unit) :
    Inv (s.connectSettled c call answer) := by
  obtain ⟨hp, ho, hb, hf⟩ := h.waiting c call hc (Or.inr hs)
  have hold : ∀ {c' call'}, (s.connectSettled c call answer).connects c' = some call' →
      call'.stage.unsettled = true → c' ≠ c ∧ s.connects c' = some call' := by
    intro c' call' hc' hu
    obtain ⟨rfl, rfl⟩ | hc' := setConnect_some (s := s) hc'
    · cases hu
    · exact hc'
  have hn := h.running c call hc hs
  have hfst : (s.connectSettled c call answer).native.map (·.1) = s.native.map (·.1) := by
    simp [State.connectSettled, hn]
  exact
    { h with
      starting := fun c' call' hc' hst => h.starting c' call' (hold hc' (by rw [hst]; rfl)).2 hst
      entering := fun c' hc' => by
        obtain ⟨hp', -⟩ := h.entering c' hc'
        exact nomatch hp'.symm.trans hp
      waiting := fun c' call' hc' hst =>
        h.waiting c' call' (hold hc' (by rcases hst with hst | hst <;> rw [hst] <;> rfl)).2 hst
      settles := fun g k hk hd c' call' hc' hu => h.settles g k hk hd c' call' (hold hc' hu).2 hu
      invoked := fun g k hk hn hd c' call' hc' hst =>
        h.invoked g k hk hn hd c' call' (hold hc' (by rw [hst]; rfl)).2 hst
      since := fun g k hk hn => (h.since g k hk hn).trans hfst.symm
      answered := fun g k hk ha _ _ _ _ => h.answered g k hk ha c _ hn nofun
      queued := fun c' call' hc' hst => h.queued c' call' (hold hc' (by rw [hst]; rfl)).2 hst
      running := fun c' call' hc' hst => by
        obtain ⟨hne, hc'⟩ := hold hc' (by rw [hst]; rfl)
        exact absurd (h.waiting_eq hp hc' (Or.inr hst)) hne
      closed := fun hn => nomatch ho.symm.trans hn
      fresh := fun c' call' hc' hst => by
        obtain ⟨hne, hc'⟩ :=
          hold hc' (by rcases hst with hst | hst <;> rw [hst] <;> rfl)
        rcases hst with hst | hst
        · exact nomatch (h.entering c' (h.starting c' call' hc' hst)).1.symm.trans hp
        · exact absurd (h.waiting_eq hp hc' (Or.inl hst)) hne
      bridge := fun hn => nomatch hb.symm.trans hn }

variable {g : ℕ} {k : Cleanup ι} {s' : State ι κ}

omit [DecidableEq ι] in
theorem Inv.runDisconnect (h : Inv s) {tasks : List (Task ι)}
    (htasks : s.tasks = .disconnect g :: tasks) (hk : s.cleanups g = some k)
    (hs : k.stage = .scheduled) : Inv (State.runDisconnect { s with tasks } g k) := by
  -- It is the last of the scheduled calls.
  obtain rfl : tasks = [] := by
    obtain ⟨cs, g', hcs⟩ := h.order
    rw [htasks] at hcs
    cases cs with
    | nil =>
      cases g' with
      | none => cases hcs
      | some g' => exact (List.cons.inj hcs).2
    | cons c' cs => cases hcs
  have hscheduled : ∀ c call, s.connects c = some call → call.stage ≠ .scheduled := by
    intro c call hc hst
    have := h.queued c call hc hst
    rw [htasks, List.mem_singleton] at this
    cases this
  have h' : Inv { s with tasks := [] } :=
    { h with
      order := ⟨[], none, rfl⟩
      queued := fun c call hc hst => absurd hst (hscheduled c call hc)
      queue := nofun }
  exact h'.setCleanup hk (by rw [hs]; nofun) rfl (fun _ _ => hscheduled) nofun (fun _ => rfl) nofun
    nofun

theorem Inv.disconnectSettled (h : Inv s) (hk : s.cleanups g = some k)
    (hs : k.stage = .native) (outcome : Except String Unit) :
    Inv (s.disconnectSettled g k outcome) := by
  have hclosed : Closed s → Closed { s with
      disconnected := s.disconnected ∨ outcome.isOk ∧ k.since = s.native.map (·.1) } := by
    intro hcl c n hn hne
    simp [hcl c n hn hne]
  have h' : Inv { s with
      disconnected := s.disconnected ∨ outcome.isOk ∧ k.since = s.native.map (·.1) } :=
    { h with
      answered := fun g k hk ha => hclosed (h.answered g k hk ha)
      closed := fun ho => hclosed (h.closed ho)
      fresh := fun c call hc hst => hclosed (h.fresh c call hc hst) }
  refine h'.setCleanup hk (by rw [hs]; nofun) rfl
    (fun _ _ => h.invoked g k hk (by rw [hs]; nofun) (by rw [hs]; nofun)) nofun nofun ?_ ?_
  · intro ha c n hn hne
    obtain rfl := CleanupStage.answered.inj ha
    simp [h.since g k hk hs, Except.isOk, Except.toBool]
  · exact fun hq => absurd hq (h.not_queued hk (by rw [hs]; nofun))

omit [DecidableEq ι] in
theorem Inv.endCleanup (h : Inv s) (hp : s.pendingCleanup = some g)
    (hset : ∀ c call, s.connects c = some call → call.stage.unsettled = false) (k : Cleanup ι)
    {outcome : Except String Unit} (ho : outcome = .ok () → Closed s) :
    Inv (s.endCleanup k outcome) := by
  have hentering : ∀ c, ¬ Entering s c := fun c hc => nomatch (h.entering c hc).2.1.symm.trans hp
  have hwaiting : ∀ c call, s.connects c = some call →
      ¬ (call.stage = .scheduled ∨ call.stage = .native) := by
    intro c call hc hst
    have := hset c call hc
    rcases hst with hst | hst <;> rw [hst] at this <;> cases this
  cases outcome with
  | error error =>
    exact
      { h with
        entering := fun c hc => absurd hc (hentering c)
        owning := fun c hc => absurd (Or.inr hc) (hentering c)
        waiting := fun c call hc hst => absurd hst (hwaiting c call hc)
        closed := nofun
        failed := fun _ => rfl
        timer := nofun }
  | ok _ =>
    have hbase : Inv { s with
        hasOwnedSession := false, cleanupError := none, host := none, state := .error } :=
      { h with
        entering := fun c hc => absurd hc (hentering c)
        owning := fun c hc => absurd (Or.inr hc) (hentering c)
        waiting := fun c call hc hst => absurd hst (hwaiting c call hc)
        closed := fun _ => ho rfl
        failed := nofun
        timer := nofun }
    simp only [State.endCleanup]
    split
    · exact hbase
    · split
      next hon =>
        refine hbase.congr rfl nofun id fun _ hfg _ => ?_
        simp only [State.startPeriodicDiscovery, hon.2, and_self, decide_true]
      next hoff => exact hbase.congr rfl nofun id fun hen hfg _ => absurd ⟨hen, hfg⟩ hoff

omit [DecidableEq ι] in
theorem Inv.goCleanup (h : Inv s) (hcalm : s.calm = true)
    (hk : s.cleanups g = some k) (hs : s.goCleanup g k = some s') : Inv s' := by
  simp only [State.goCleanup] at hs
  split at hs
  next outcome hst =>
    have hd : k.stage ≠ .done := by rw [hst]; nofun
    split at hs
    next hall =>
      cases hs
      have hset : ∀ c call, s.connects c = some call → call.stage.unsettled = false := by
        intro c call hc
        by_contra hu
        rw [Bool.not_eq_false] at hu
        rw [(h.settles g k hk hd c call hc hu).1] at hall
        simp [hc, hu] at hall
      have hq := h.not_queued hk (by rw [hst]; nofun)
      have h' : Inv (s.setCleanup g { k with stage := .finished }) :=
        h.setCleanup hk hd rfl
          (fun _ _ => h.invoked g k hk (by rw [hst]; nofun) hd) (fun _ => hset) nofun nofun
          fun hq' => absurd hq' hq
      refine h'.endCleanup (h.cleanup g k hk hd).1 hset k fun ho => ?_
      exact h.answered g k hk (by rw [hst, ho])
    · cases hs
  next hst =>
    cases hs
    have hd : k.stage ≠ .done := by rw [hst]; nofun
    have hp := (h.cleanup g k hk hd).1
    have hframes := calm_iff.1 hcalm
    have hq := h.not_queued hk (by rw [hst]; nofun)
    have h' : Inv (s.setCleanup g { k with stage := .done }) :=
      h.setCleanup hk hd rfl (fun _ hn => absurd rfl hn) nofun nofun nofun fun hq' => absurd hq' hq
    exact
      { h' with
        entering := fun c hc => absurd hc (not_entering hframes c)
        leaving := fun _ _ _ hc => absurd hc (head_ne hframes rfl)
        cleanup := fun g' k' hk' hd' => by
          obtain ⟨rfl, rfl⟩ | ⟨hne, hk'⟩ := setCleanup_some (s := s) hk'
          · exact absurd rfl hd'
          · have := (h.cleanup g' k' hk' hd').1
            exact absurd (Option.some.inj (this.symm.trans hp)) hne }
  · cases hs

/-! ### Runs -/

variable [DecidableEq κ]

omit [DecidableEq ι] in
theorem Inv.pollSettled (h : Inv s) (hcalm : s.calm = true) (k : κ) (call : PollCall)
    (answer : Except String (Option Stats)) : Inv (s.pollSettled k call answer) := by
  have hdone : Inv (s.setPoll k { call with pending := false }) := h.congr rfl id id h.timer
  have hfail : ∀ error, Inv { s.setPoll k { call with pending := false } with
      lastError := some error, state := .error, frames := .pollFailed :: s.frames } :=
    fun error => (hdone.pushFrame (f := .pollFailed) hcalm rfl).congr rfl nofun id nofun
  simp only [State.pollSettled]
  split
  · exact hdone
  · split
    · exact hdone
    · split
      · exact hfail _
      · exact hdone
    · exact hfail _

/-- A call that takes or gives up the session does not come in the middle of another, and no error is
dismissed to `idle` while the discovery is to be running. -/
def Orderly (s : State ι κ) : Label ι κ → Prop
  | .connect _ request => s.accepts = true → request.isOk = true → s.calm = true
  | .disconnect =>
    (s.begins = true → s.calm = true) ∧ (s.pendingCleanup = none → s.stale = false)
  | .retryCleanup => s.begins = true → s.calm = true
  | .dismissError => (s.begins = true → s.calm = true) ∧ s.stale = false
  | _ => True

omit [DecidableEq ι] [DecidableEq κ] in
instance (s : State ι κ) (label : Label ι κ) : Decidable (Orderly s label) := by
  cases label <;> unfold Orderly <;> infer_instance

omit [DecidableEq κ] in
theorem Inv.proceed (h : Inv s) {f : Frame ι} {frames : List (Frame ι)}
    (hf : s.frames = f :: frames) (hs : State.proceed { s with frames } f = some s') : Inv s' := by
  have hrest := h.rest hf
  cases f with
  | connecting c =>
    obtain ⟨call, hc, rfl⟩ := Option.map_eq_some_iff.1 hs
    split
    next hb => exact h.own hf hb
    · exact h.refuse hf hc _
  | owning c =>
    obtain ⟨call, hc, rfl⟩ := Option.map_eq_some_iff.1 hs
    exact h.schedule hf hc
  | connected c =>
    obtain ⟨call, hc, hs⟩ := Option.bind_eq_some_iff.1 hs
    split at hs
    next hst =>
      cases hs
      exact (h.popFrame hf rfl).leaveConnect (calm_iff.2 hrest) hc (by rw [hst]; rfl)
    · cases hs
  | connectFailed c =>
    cases hs
    exact (h.popFrame hf rfl).disconnectInternal true (fun _ => calm_iff.2 hrest) nofun
  | pollFailed =>
    cases hs
    exact (h.popFrame hf rfl).disconnectInternal true (fun _ => calm_iff.2 hrest) nofun
  | disconnecting g retainError connectToSettle =>
    cases hs
    exact h.beginCleanup hf

omit [DecidableEq κ] in
theorem Inv.runTask (h : Inv s) (hcalm : s.calm = true)
    (hs : runTask s = some s') : Inv s' := by
  rw [Manager.runTask] at hs
  split at hs
  · cases hs
  next c tasks htasks =>
    obtain ⟨call, hc, hs⟩ := Option.bind_eq_some_iff.1 hs
    split at hs
    next hst =>
      cases hs
      exact h.runConnect hcalm htasks hc hst
    · cases hs
  next g tasks htasks =>
    obtain ⟨k, hk, hs⟩ := Option.bind_eq_some_iff.1 hs
    split at hs
    next hst =>
      cases hs
      exact h.runDisconnect htasks hk hst
    · cases hs

/-- **The invariant is kept** by every step that is in order. -/
theorem Inv.keep (h : Inv s) {label : Label ι κ} (ho : Orderly s label)
    (hs : step s label = some s') : Inv s' := by
  have hcalm : s.frames = [] → s.calm = true := fun hf => by simp [State.calm, hf]
  cases label with
  | connect c request =>
    simp only [step] at hs
    split at hs
    · cases hs
      exact h.connect request ho
    · cases hs
  | disconnect => cases hs; exact h.disconnectInternal false ho.1 fun hp _ => ho.2 hp
  | retryCleanup => cases hs; exact h.retryCleanup ho
  | dismissError => cases hs; exact h.dismissError ho.1 ho.2
  | pollStats k =>
    simp only [step, State.pollStats] at hs
    split at hs
    · cases hs
      split
      · exact h
      · exact h.congr rfl id id h.timer
    · cases hs
  | markFrameRendered gen =>
    cases hs
    simp only [State.markFrameRendered]
    split
    · exact h.congr rfl nofun id nofun
    · exact h
  | startPeriodicDiscovery =>
    cases hs
    refine h.congr rfl id id fun _ hfg hi => ?_
    simp [State.startPeriodicDiscovery, show s.isForeground = true from hfg,
      show s.state = .idle from hi]
  | stopPeriodicDiscovery => cases hs; exact h.congr rfl id id nofun
  | pauseDiscovery => cases hs; exact h.congr rfl id id fun _ => nofun
  | resumeDiscovery =>
    cases hs
    refine h.congr rfl id id fun hen _ hi => ?_
    simp [State.resumeDiscovery, show s.isPeriodicEnabled = true from hen,
      show s.state = .idle from hi]
  | proceed =>
    simp only [step] at hs
    split at hs
    · cases hs
    next hf => exact h.proceed hf hs
  | runTask =>
    simp only [step] at hs
    split at hs
    next hf => exact h.runTask (hcalm hf) hs
    · cases hs
  | connectSettled c answer =>
    simp only [step] at hs
    split at hs
    · obtain ⟨call, hc, hs⟩ := Option.bind_eq_some_iff.1 hs
      split at hs
      next hst =>
        cases hs
        exact h.connectSettled hc hst answer
      · cases hs
    · cases hs
  | continueConnect c =>
    simp only [step] at hs
    split at hs
    next hf =>
      obtain ⟨call, hc, hs⟩ := Option.bind_eq_some_iff.1 hs
      split at hs
      next hst =>
        cases hs
        exact h.continueConnect (hcalm hf) hc hst
      · cases hs
    · cases hs
  | leaveConnect c =>
    simp only [step] at hs
    split at hs
    next hf =>
      obtain ⟨call, hc, hs⟩ := Option.bind_eq_some_iff.1 hs
      split at hs
      next hst =>
        cases hs
        exact h.leaveConnect (hcalm hf) hc (by rw [hst]; rfl)
      · cases hs
    · cases hs
  | disconnectSettled g outcome =>
    simp only [step] at hs
    split at hs
    · obtain ⟨k, hk, hs⟩ := Option.bind_eq_some_iff.1 hs
      split at hs
      next hst =>
        cases hs
        exact h.disconnectSettled hk hst outcome
      · cases hs
    · cases hs
  | cleanup g =>
    simp only [step] at hs
    split at hs
    next hf =>
      obtain ⟨k, hk, hs⟩ := Option.bind_eq_some_iff.1 hs
      exact h.goCleanup (hcalm hf) hk hs
    · cases hs
  | pollSettled k answer =>
    simp only [step] at hs
    split at hs
    next hf =>
      obtain ⟨call, -, hs⟩ := Option.bind_eq_some_iff.1 hs
      split at hs
      · cases hs
        exact h.pollSettled (hcalm hf) k call answer
      · cases hs
    · cases hs

/-! What comes late. -/

/-- What is told of a generation. -/
def State.shown (s : State ι κ) := (s.state, s.host, s.lastError)

/-- A result that belongs to another generation. -/
def Late (s : State ι κ) : Label ι κ → Prop
  | .connectSettled c _ | .continueConnect c | .leaveConnect c =>
    ∃ call, s.connects c = some call ∧ call.generation ≠ s.generation
  | .disconnectSettled g _ | .cleanup g => g ≠ s.generation
  | .pollSettled k _ => ∃ call, s.polls k = some call ∧ call.generation ≠ s.generation
  | _ => False

theorem Inv.late (h : Inv s) {label : Label ι κ} (hl : Late s label)
    (hs : step s label = some s') : s'.shown = s.shown := by
  cases label with
  | connectSettled c answer =>
    simp only [step] at hs
    split at hs
    · obtain ⟨call, -, hs⟩ := Option.bind_eq_some_iff.1 hs
      split at hs <;> cases hs
      rfl
    · cases hs
  | continueConnect c =>
    obtain ⟨call, hc, hg⟩ := hl
    simp only [step, hc, Option.bind_some] at hs
    split at hs
    · split at hs
      · cases hs
        simp only [State.continueConnect, if_pos hg]
        rfl
      · cases hs
    · cases hs
  | leaveConnect c =>
    simp only [step] at hs
    split at hs
    · obtain ⟨call, -, hs⟩ := Option.bind_eq_some_iff.1 hs
      split at hs <;> cases hs
      rfl
    · cases hs
  | disconnectSettled g outcome =>
    simp only [step] at hs
    split at hs
    · obtain ⟨k, -, hs⟩ := Option.bind_eq_some_iff.1 hs
      split at hs <;> cases hs
      rfl
    · cases hs
  | cleanup g =>
    -- A cleanup that goes on is of the current generation.
    simp only [step] at hs
    split at hs
    · obtain ⟨k, hk, hs⟩ := Option.bind_eq_some_iff.1 hs
      by_cases hd : k.stage = .done
      · simp [State.goCleanup, hd] at hs
      · exact absurd (h.cleanup g k hk hd).2 hl
    · cases hs
  | pollSettled k answer =>
    obtain ⟨call, hk, hg⟩ := hl
    simp only [step, hk, Option.bind_some] at hs
    split at hs
    · split at hs
      · cases hs
        simp only [State.pollSettled, if_pos hg]
        rfl
      · cases hs
    · cases hs
  | _ => exact hl.elim

omit [DecidableEq ι] [DecidableEq κ] in
theorem disconnectInternal_connects (s : State ι κ) (retainError : Bool) :
    (s.disconnectInternal retainError).connects = s.connects := by
  rw [State.disconnectInternal]
  split_ifs <;> rfl

omit [DecidableEq κ] in
theorem proceed_connects {f : Frame ι} (hs : s.proceed f = some s') :
    s'.connects = s.connects ∨ ∃ c call call', s.connects c = some call ∧
      s'.connects = Function.update s.connects c (some call') := by
  cases f with
  | connecting c =>
    obtain ⟨call, hc, rfl⟩ := Option.map_eq_some_iff.1 hs
    split
    · exact Or.inl rfl
    · exact Or.inr ⟨c, call, _, hc, rfl⟩
  | owning c =>
    obtain ⟨call, hc, rfl⟩ := Option.map_eq_some_iff.1 hs
    exact Or.inr ⟨c, call, _, hc, rfl⟩
  | connected c =>
    obtain ⟨call, hc, hs⟩ := Option.bind_eq_some_iff.1 hs
    split at hs <;> cases hs
    exact Or.inr ⟨c, call, _, hc, rfl⟩
  | connectFailed c => cases hs; exact Or.inl (disconnectInternal_connects ..)
  | pollFailed => cases hs; exact Or.inl (disconnectInternal_connects ..)
  | disconnecting g retainError connectToSettle => cases hs; exact Or.inl rfl

theorem step_connects {label : Label ι κ} (hs : step s label = some s') :
    s'.connects = s.connects ∨
    (∃ c call call', s.connects c = some call ∧
      s'.connects = Function.update s.connects c (some call')) ∨
    ∃ c host call, label = .connect c (.ok host) ∧ s.accepts = true ∧
      s'.connects = Function.update s.connects c (some call) := by
  cases label with
  | connect c request =>
    simp only [step, State.connect] at hs
    split at hs
    · cases hs
      split
      next ha =>
        cases request with
        | error error => exact Or.inl rfl
        | ok host => exact Or.inr (Or.inr ⟨c, host, _, rfl, ha, rfl⟩)
      · exact Or.inl rfl
    · cases hs
  | disconnect => cases hs; exact Or.inl (disconnectInternal_connects ..)
  | retryCleanup =>
    cases hs
    simp only [State.retryCleanup]
    split
    · exact Or.inl rfl
    · split
      · exact Or.inl (disconnectInternal_connects ..)
      · exact Or.inl rfl
  | dismissError =>
    cases hs
    simp only [State.dismissError]
    split
    · exact Or.inl (disconnectInternal_connects ..)
    · exact Or.inl rfl
  | pollStats k =>
    simp only [step, State.pollStats] at hs
    split at hs <;> cases hs
    split <;> exact Or.inl rfl
  | markFrameRendered gen =>
    cases hs
    simp only [State.markFrameRendered]
    split <;> exact Or.inl rfl
  | startPeriodicDiscovery | stopPeriodicDiscovery | pauseDiscovery | resumeDiscovery =>
    cases hs
    exact Or.inl rfl
  | proceed =>
    simp only [step] at hs
    split at hs
    · cases hs
    · exact (proceed_connects hs).imp_right Or.inl
  | runTask =>
    simp only [step, runTask] at hs
    split at hs
    · split at hs
      · cases hs
      · obtain ⟨call, hc, hs⟩ := Option.bind_eq_some_iff.1 hs
        split at hs <;> cases hs
        exact Or.inr (Or.inl ⟨_, call, _, hc, rfl⟩)
      · obtain ⟨k, -, hs⟩ := Option.bind_eq_some_iff.1 hs
        split at hs <;> cases hs
        exact Or.inl rfl
    · cases hs
  | connectSettled c answer | leaveConnect c =>
    simp only [step] at hs
    split at hs
    · obtain ⟨call, hc, hs⟩ := Option.bind_eq_some_iff.1 hs
      split at hs <;> cases hs
      exact Or.inr (Or.inl ⟨c, call, _, hc, rfl⟩)
    · cases hs
  | continueConnect c =>
    simp only [step] at hs
    split at hs
    · obtain ⟨call, hc, hs⟩ := Option.bind_eq_some_iff.1 hs
      split at hs
      · cases hs
        refine Or.inr (Or.inl ?_)
        simp only [State.continueConnect]
        split
        · exact ⟨c, call, _, hc, rfl⟩
        · split <;> exact ⟨c, call, _, hc, rfl⟩
      · cases hs
    · cases hs
  | disconnectSettled g outcome =>
    simp only [step] at hs
    split at hs
    · obtain ⟨k, -, hs⟩ := Option.bind_eq_some_iff.1 hs
      split at hs <;> cases hs
      exact Or.inl rfl
    · cases hs
  | cleanup g =>
    simp only [step] at hs
    split at hs
    · obtain ⟨k, -, hs⟩ := Option.bind_eq_some_iff.1 hs
      simp only [State.goCleanup] at hs
      split at hs
      next outcome _ =>
        split at hs <;> cases hs
        cases outcome with
        | error error => exact Or.inl rfl
        | ok _ =>
          simp only [State.endCleanup]
          split
          · exact Or.inl rfl
          · split <;> exact Or.inl rfl
      · cases hs
        exact Or.inl rfl
      · cases hs
    · cases hs
  | pollSettled k answer =>
    simp only [step] at hs
    split at hs
    · obtain ⟨call, -, hs⟩ := Option.bind_eq_some_iff.1 hs
      split at hs <;> cases hs
      simp only [State.pollSettled]
      split
      · exact Or.inl rfl
      · split
        · exact Or.inl rfl
        · split <;> exact Or.inl rfl
        · exact Or.inl rfl
    · cases hs

theorem accepts_of_new {label : Label ι κ} (hs : step s label = some s') {c : ι}
    (hn : s.connects c = none) (hc : s'.connects c ≠ none) : s.accepts = true := by
  obtain heq | ⟨c', call, call', hc', heq⟩ | ⟨-, -, -, -, ha, -⟩ := step_connects hs
  · rw [heq] at hc
    exact absurd hn hc
  · rw [heq, Function.update_of_ne, hn] at hc
    · exact absurd rfl hc
    · rintro rfl
      exact nomatch hn.symm.trans hc'
  · exact ha

/-- **The session has one owner.**  In a run in order, a native connect or its success that no native
disconnect has followed is owned, and in `idle`, with the app in the foreground and the periodic
discovery enabled, its timer is running.  A call of `connect` is accepted when nothing is owned or
pending; when the native connect is invoked the session is its own, no other connect is unsettled,
and a cleanup in between waits for it; and what comes late changes nothing. -/
theorem session_owned (hasNative : Bool) (labels : List (Label ι κ)) (s : State ι κ)
    (ho : Along step Orderly (State.init hasNative : State ι κ) labels)
    (hrun : run step (State.init hasNative) labels = some s) :
    (∀ c n, s.native = some (c, n) → n ≠ .failed → s.disconnected = false →
      s.hasOwnedSession = true) ∧
    (s.isPeriodicEnabled = true → s.isForeground = true → s.state = .idle →
      s.periodicTimer = true) ∧
    ∀ label s', step s label = some s' →
      (∀ c, s.connects c = none → s'.connects c ≠ none → s.hasOwnedSession = false ∧
        s.pendingConnect = none ∧ s.pendingCleanup = none ∧ s.state ≠ .cleanupFailed) ∧
      (∀ c tasks, label = .runTask → s.tasks = .connect c :: tasks →
        s.pendingConnect = some c ∧ s.state ≠ .cleanupFailed ∧ Closed s ∧
        (∀ c' call, s.connects c' = some call → call.stage.unsettled = true → c' = c) ∧
        ∀ g k, s.cleanups g = some k → k.stage ≠ .done →
          k.connectToSettle = some c ∧ k.stage = .scheduled) ∧
      (Late s label → s'.shown = s.shown) := by
  have h : Inv s := run_inv_along (fun h ho hs => h.keep ho hs) (Inv.init _) ho hrun
  refine ⟨fun c n hn hne hd => ?_, h.timer, fun label s' hs => ⟨fun c hn hc => ?_, ?_,
    fun hl => h.late hl hs⟩⟩
  · by_contra hb
    rw [h.closed (Bool.eq_false_iff.2 hb) c n hn hne] at hd
    cases hd
  · have ha := accepts_of_new hs hn hc
    simp only [State.accepts, Option.isNone_iff_eq_none, decide_eq_true_eq] at ha
    obtain ⟨ho, hk, hp, hf⟩ := ha
    exact ⟨Bool.eq_false_iff.2 ho, hp, hk, hf⟩
  · rintro c tasks rfl htasks
    simp only [step, runTask, htasks] at hs
    split at hs
    next hframes =>
      obtain ⟨call, hc, hs⟩ := Option.bind_eq_some_iff.1 hs
      split at hs
      next hst =>
        obtain ⟨hp, -, -, hf⟩ := h.waiting c call hc (Or.inl hst)
        refine ⟨hp, hf, h.fresh c call hc (Or.inr hst), fun c' call' hc' hu => ?_,
          fun g k hk hd => ⟨(h.settles g k hk hd c call hc (by rw [hst]; rfl)).1, ?_⟩⟩
        · rcases hst' : call'.stage with - | - | - | answer | - | -
          · have := h.starting c' call' hc' hst'
            simp [Entering, hframes] at this
          · exact Option.some.inj ((h.waiting c' call' hc' (Or.inl hst')).1.symm.trans hp)
          · exact Option.some.inj ((h.waiting c' call' hc' (Or.inr hst')).1.symm.trans hp)
          all_goals
            rw [hst'] at hu
            cases hu
        · by_contra hn
          exact h.invoked g k hk hn hd c call hc hst
      · cases hs
    · cases hs

/-- A connect is given up before it has been invoked. -/
theorem session_owned_canceled :
    ∃ s, run step (State.init true : State ℕ ℕ) [.startPeriodicDiscovery, .connect 0 (.ok "a"),
        .proceed, .proceed, .disconnect, .proceed, .runTask, .connectSettled 0 (.ok ())] = some s ∧
      s.native = some (0, .succeeded) ∧ s.tasks = [.disconnect 2] ∧ s.hasOwnedSession = true ∧
      ∀ label s', step s label = some s' → Late s label → s'.shown = s.shown := by
  have hmap : (run step (State.init true : State ℕ ℕ) [.startPeriodicDiscovery,
      .connect 0 (.ok "a"), .proceed, .proceed, .disconnect, .proceed, .runTask,
      .connectSettled 0 (.ok ())]).map (fun s => (s.native, s.tasks, s.disconnected)) =
      some (some (0, .succeeded), [.disconnect 2], false) := by
    decide
  obtain ⟨s, hs, heq⟩ := Option.map_eq_some_iff.1 hmap
  simp only [Prod.mk.injEq] at heq
  obtain ⟨hn, htasks, hd⟩ := heq
  obtain ⟨howned, -, hstep⟩ := session_owned true _ s (by decide) hs
  exact ⟨s, hs, hn, htasks, howned 0 _ hn nofun hd, fun label s' hs' => (hstep label s' hs').2.2⟩

/-- A connect is refused and the error dismissed: no timer is running.  A listener that is told of
`connecting` disconnects: the session is given up while the connect is pending.  A listener that is
told of `disconnecting` disconnects again: the older cleanup comes to `idle`. -/
theorem session_lost :
    (run step (State.init true : State ℕ ℕ) [.startPeriodicDiscovery, .connect 0 (.ok "a"),
        .proceed, .proceed, .runTask, .connectSettled 0 (.error "denied"), .continueConnect 0,
        .proceed, .proceed, .runTask, .disconnectSettled 2 (.ok ()), .cleanup 2, .cleanup 2,
        .leaveConnect 0, .dismissError]).map
        (fun s => (s.isPeriodicEnabled, s.isForeground, s.state, s.periodicTimer)) =
      some (true, true, .idle, false) ∧
    (run step (State.init true : State ℕ ℕ) [.connect 0 (.ok "a"), .disconnect, .proceed, .proceed,
        .proceed, .runTask, .runTask, .disconnectSettled 2 (.ok ()), .cleanup 2]).map
        (fun s => (s.native, s.disconnected, s.hasOwnedSession)) =
      some (some (0, .pending), false, false) ∧
    (run step (State.init true : State ℕ ℕ) [.connect 0 (.ok "a"), .proceed, .proceed, .runTask,
        .connectSettled 0 (.ok ()), .continueConnect 0, .proceed, .disconnect, .disconnect,
        .proceed, .proceed, .runTask, .runTask, .disconnectSettled 2 (.ok ()), .cleanup 2]).map
        (fun s => (s.generation, s.state)) =
      some (3, .idle) := by
  decide

end Connects

end Order
end MahoRD.Ios.Manager

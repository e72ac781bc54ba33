/-
MahoRD/Ios/TeardownOrder.lean

Teardowns and their generations (`handle_terminal_shutdown` and `execute_teardown` in
`ios-shell/src/state.rs`).  The generation is looked at when a teardown begins, and one slot says
which is in flight.

A teardown that begins while one of another generation is in flight takes the slot from it, and a
failure is written without another look at the generation.
-/
import MahoRD.Ios.LifecycleLock

namespace MahoRD.Ios.Lifecycle

/-! ### Teardowns in flight -/

/-- The call of `handle_terminal_shutdown` that a thread is in. -/
def Pc.event : Pc → Option Event
  | claiming _ event | tearing _ event | cleaning _ event _ _ _ _ | failing _ event _ _
  | settling _ event | recording _ event _ _ => some event
  | _ => none

/-- The generation whose teardown the thread has claimed. -/
def Pc.claimed : Pc → Option ℕ
  | tearing _ event | cleaning _ event _ _ _ _ | failing _ event _ _ | settling _ event
  | recording _ event _ _ => some event.generation
  | _ => none

def Label.thread : Label → Option ℕ
  | go t | fail t _ _ | cleanup t _ _ _ | terminate t _ | exit t => some t
  | _ => none

/-- A teardown begins when none of another generation is in flight, and a cleanup that fails does
so before a newer connect has registered. -/
def Apart (s : State) : Label → Prop
  | .go t =>
    match s.pc t with
    | .claiming _ event => s.coord.inFlightGeneration = none ∨
        s.coord.inFlightGeneration = some event.generation ∨
        s.coord.doneGeneration = some event.generation
    | .failing _ event _ _ => s.inner.generation = event.generation
    | _ => True
  | _ => True

instance (s : State) (label : Label) : Decidable (Apart s label) := by
  unfold Apart
  split
  · split <;> infer_instance
  · infer_instance

/-- A state that ends a session. -/
def Ending (state : ConnectionState) : Prop := state = .idle ∨ state = .disconnected

instance (state : ConnectionState) : Decidable (Ending state) := inferInstanceAs (Decidable (_ ∨ _))

/-- What a step of a teardown may do: nothing to a newer generation; it makes no `Error` out of an
ending state, unless that is what it has itself made of another state; and it replaces no record
of a newer generation. -/
structure Bound (event : Event) (pc : Pc) (s s' : State) : Prop where
  stale : event.generation < s.inner.generation → s'.inner.state = s.inner.state ∧
    s'.inner.session = s.inner.session ∧ s'.inner.host = s.inner.host ∧
    s'.inner.lastError = s.inner.lastError
  terminal : Ending s.inner.state → s'.inner.state = .error →
    ∃ caller found summary, pc = .failing caller event found summary ∧ ¬ Ending found ∧
      s.inner.state = .disconnected ∧ event.target = .disconnected
  record : ∀ d, s.coord.doneGeneration = some d →
    ∃ d', s'.coord.doneGeneration = some d' ∧ d ≤ d'

/-! ### The other steps -/

/-- No ending state comes up, and no generation goes back. -/
structure Harmless (i i' : SessionInner) : Prop where
  generation : i.generation ≤ i'.generation
  state : Ending i'.state → i'.state = i.state ∧ i'.generation = i.generation

theorem Harmless.refl (i : SessionInner) : Harmless i i := ⟨Nat.le_refl _, fun _ => ⟨rfl, rfl⟩⟩

theorem setError_harmless (i : SessionInner) (generation : ℕ) (message : String) :
    Harmless i (i.setError generation message) := by
  rcases i.setError_eq generation message with h | ⟨-, h⟩
  · rw [h]
    exact Harmless.refl i
  · rw [h]
    exact ⟨Nat.le_refl _, fun h => absurd h (by decide : ¬ Ending .error)⟩

/-- What a step outside the teardowns leaves to them. -/
structure Quiet (s s' : State) : Prop where
  coord : s'.coord = s.coord
  inner : Harmless s.inner s'.inner
  pc : ∀ t, s'.pc t = s.pc t ∨ (s.pc t).claimed = none ∧ (s'.pc t).claimed = none

variable {s s' : State}

variable {pc pc' : Pc} {t : ℕ} {caller : Caller}

theorem Quiet.moveTo (h : Quiet s s') (hpc : s.pc t = pc)
    (hclaimed : pc.claimed = none) (hclaimed' : pc'.claimed = none) :
    Quiet s (s'.moveTo t pc') where
  coord := h.coord
  inner := h.inner
  pc u := by
    subst hpc
    rcases s'.moveTo_cases t u pc' with ⟨heq, rfl⟩ | ⟨heq, -⟩
    · rw [heq]
      exact Or.inr ⟨hclaimed, hclaimed'⟩
    · rw [heq]
      exact h.pc u

theorem Quiet.of_inner {inner : SessionInner} (h : Harmless s.inner inner) :
    Quiet s { s with inner } := ⟨rfl, h, fun _ => Or.inl rfl⟩

theorem Quiet.flags (cancelPending : Option ℕ) (activeConnect : Option ActiveConnectState)
    (queue : List ℕ) (cancelFlag : ℕ → Option ℕ) :
    Quiet s { s with cancelPending, activeConnect, queue, cancelFlag } :=
  ⟨rfl, Harmless.refl _, fun _ => Or.inl rfl⟩

theorem Quiet.refl (s : State) : Quiet s s := ⟨rfl, Harmless.refl _, fun _ => Or.inl rfl⟩

theorem Caller.back_claimed (caller : Caller) (result : Except String Unit) :
    (caller.back result).claimed = none := by
  cases caller <;> cases result <;> rfl

theorem Quiet.spawn (h : Inv s) (hclaimed : pc.claimed = none) :
    Quiet s (s.spawn pc) := by
  have hquiet : Quiet s (s.moveTo s.calls pc) :=
    (Quiet.refl s).moveTo (h.born _ (Nat.le_refl _)) rfl hclaimed
  exact ⟨hquiet.coord, hquiet.inner, hquiet.pc⟩

theorem go_quiet (h : Inv s) (hevent : (s.pc t).event = none)
    (hstep : Lifecycle.go s t (s.pc t) = some s') : Quiet s s' := by
  generalize hpc : s.pc t = pc at hstep hevent
  cases pc with
  | cancelling | signalling _ | queueing _ | unlocking _ | clearing _ | activating _ | leaving _ _ =>
    cases hstep
    exact (Quiet.flags _ _ _ _).moveTo hpc rfl rfl
  | reading _ | attempting _ _ | starting _ | finishing _ =>
    cases hstep
    exact (Quiet.refl s).moveTo hpc rfl rfl
  | taking | arriving _ | entering _ | proceeding _ =>
    simp only [Lifecycle.go] at hstep
    split at hstep <;> cases hstep
    · exact (Quiet.flags _ _ _ _).moveTo hpc rfl rfl
    · exact (Quiet.refl s).moveTo hpc rfl rfl
  | waiting call =>
    simp only [Lifecycle.go, Option.ite_none_right_eq_some] at hstep
    cases hstep.2
    cases call <;> exact (Quiet.refl s).moveTo hpc rfl rfl
  | registering host =>
    cases hstep
    have hquiet : Quiet s { s with inner := s.inner.register host } :=
      Quiet.of_inner ⟨Nat.le_succ _, fun h => absurd h (by decide : ¬ Ending .connecting)⟩
    exact hquiet.moveTo hpc rfl rfl
  | checking generation next | confirming generation =>
    simp only [Lifecycle.go] at hstep
    split at hstep <;> cases hstep <;> exact (Quiet.refl s).moveTo hpc rfl rfl
  | checkingPending generation next =>
    simp only [Lifecycle.go] at hstep
    split at hstep <;> cases hstep
    · exact (Quiet.refl s).moveTo hpc rfl rfl
    · cases next <;> exact (Quiet.refl s).moveTo hpc rfl rfl
  | refusing generation e cleans =>
    cases hstep
    have hquiet := Quiet.of_inner (setError_harmless s.inner generation e)
    cases cleans <;> exact hquiet.moveTo hpc rfl rfl
  | installing generation =>
    cases hstep
    unfold State.install
    split
    · exact (Quiet.refl s).moveTo hpc rfl rfl
    split
    · exact (Quiet.refl s).moveTo hpc rfl rfl
    · have hquiet : Quiet s { s with inner := s.inner.install generation } :=
        Quiet.of_inner ⟨Nat.le_refl _, fun h => absurd h (by decide : ¬ Ending .ready)⟩
      exact hquiet.moveTo hpc rfl rfl
  | spawning generation worker =>
    cases hstep
    have hquiet : Quiet s (s.spawn (.running generation worker)) := Quiet.spawn h rfl
    exact hquiet.moveTo hpc rfl rfl
  | pushing generation worker handle =>
    cases hstep
    have hquiet : Quiet s { s with inner := s.inner.pushWorker handle } :=
      Quiet.of_inner ⟨Nat.le_refl _, fun _ => ⟨rfl, rfl⟩⟩
    cases worker <;> exact hquiet.moveTo hpc rfl rfl
  | claiming _ _ | tearing _ _ | failing _ _ _ _ | settling _ _ | recording _ _ _ _ => cases hevent
  | unborn | returned _ | cleaning _ _ _ _ _ _ | running _ _ | ended => cases hstep

theorem fail_quiet {e : String} {cleans : Bool}
    (hstep : Lifecycle.fail s t e cleans (s.pc t) = some s') : Quiet s s' := by
  generalize hpc : s.pc t = pc at hstep
  cases pc with
  | attempting generation attempt =>
    cases attempt <;> cases hstep <;> exact (Quiet.refl s).moveTo hpc rfl rfl
  | spawning _ _ | starting _ =>
    cases hstep
    exact (Quiet.refl s).moveTo hpc rfl rfl
  | _ => cases hstep

/-- The steps of a teardown. -/
inductive Tears (s : State) (t : ℕ) : Label → State → Prop
  | claim {caller : Caller} {event : Event} (hpc : s.pc t = .claiming caller event) :
    Tears s t (.go t) (s.claim t caller event)
  | tear {caller : Caller} {event : Event} (hpc : s.pc t = .tearing caller event) :
    Tears s t (.go t) (s.tear t caller event)
  | clean {caller : Caller} {event : Event} {found : ConnectionState} {session : Option ℕ}
      {runtime : Bool} {handles : List ℕ} {disconnect stop : Option String}
      {panics : List (ℕ × String)}
      (hpc : s.pc t = .cleaning caller event found session runtime handles)
      (errors : List String) : Tears s t (.cleanup t disconnect stop panics)
        (s.moveTo t (cleaned caller event found errors))
  | fail {caller : Caller} {event : Event} {found : ConnectionState} {summary : String}
      (hpc : s.pc t = .failing caller event found summary) : Tears s t (.go t)
        ({ s with inner := s.inner.failCleanup summary }.moveTo t
          (.recording caller event (.error summary) true))
  | settle {caller : Caller} {event : Event} (hpc : s.pc t = .settling caller event) :
    Tears s t (.go t) ({ s with inner := s.inner.settle }.moveTo t
      (.recording caller event (.ok ()) true))
  | record {caller : Caller} {event : Event} {result : Except String Unit} {applied : Bool}
      (hpc : s.pc t = .recording caller event result applied) : Tears s t (.go t)
        ({ s with coord := s.coord.record event result applied }.moveTo t (caller.back result))

theorem step_tears {label : Label} {event : Event} (hthread : label.thread = some t)
    (hevent : (s.pc t).event = some event) (hstep : Lifecycle.step s label = some s') :
    Tears s t label s' := by
  cases label with
  | go u =>
    cases hthread
    have hstep : Lifecycle.go s t (s.pc t) = some s' := hstep
    generalize hpc : s.pc t = pc at hstep hevent
    cases pc with
    | claiming _ _ => cases hstep; exact Tears.claim hpc
    | tearing _ _ => cases hstep; exact Tears.tear hpc
    | failing _ _ _ _ => cases hstep; exact Tears.fail hpc
    | settling _ _ => cases hstep; exact Tears.settle hpc
    | recording _ _ _ _ => cases hstep; exact Tears.record hpc
    | cleaning _ _ _ _ _ _ => cases hstep
    | _ => cases hevent
  | cleanup u disconnect stop panics =>
    cases hthread
    simp only [Lifecycle.step] at hstep
    split at hstep
    next hpc =>
      rw [Option.ite_none_right_eq_some] at hstep
      cases hstep.2
      exact Tears.clean hpc _
    · cases hstep
  | fail u e cleans =>
    cases hthread
    have hstep : Lifecycle.fail s t e cleans (s.pc t) = some s' := hstep
    generalize s.pc t = pc at hstep hevent
    cases pc with
    | attempting _ _ | spawning _ _ | starting _ => cases hevent
    | _ => cases hstep
  | terminate u reason | exit u =>
    cases hthread
    simp only [Lifecycle.step] at hstep
    split at hstep
    next hpc =>
      rw [hpc] at hevent
      cases hevent
    · cases hstep
  | connect _ | disconnect => cases hthread

theorem step_cases (h : Inv s) {label : Label} (hstep : Lifecycle.step s label = some s') :
    Quiet s s' ∨ ∃ t, Tears s t label s' := by
  rcases hthread : label.thread with - | t
  · left
    cases label with
    | connect _ | disconnect =>
      cases hstep
      exact Quiet.spawn h rfl
    | _ => cases hthread
  rcases hevent : (s.pc t).event with - | event
  · left
    cases label with
    | go u =>
      cases hthread
      exact go_quiet h hevent hstep
    | fail u e cleans => exact fail_quiet hstep
    | cleanup u disconnect stop panics =>
      cases hthread
      simp only [Lifecycle.step] at hstep
      split at hstep
      next hpc =>
        rw [hpc] at hevent
        cases hevent
      · cases hstep
    | terminate u reason | exit u =>
      cases hthread
      simp only [Lifecycle.step] at hstep
      split at hstep
      next hpc =>
        cases hstep
        exact (Quiet.refl s).moveTo hpc rfl rfl
      · cases hstep
    | connect _ | disconnect => cases hthread
  · exact Or.inr ⟨t, step_tears hthread hevent hstep⟩

/-! ### The invariant -/

/-- What a cleanup relies on: its event found no ending state, and of a newer one it is itself the
cause. -/
def Pc.Cleans (i : SessionInner) : Pc → Prop
  | cleaning _ event found _ _ _ | failing _ event found _ => ¬ Ending found ∧
    (event.generation = i.generation → Ending i.state →
      i.state = .disconnected ∧ event.target = .disconnected)
  | _ => True

structure Alone (s : State) : Prop where
  slot : ∀ t g, (s.pc t).claimed = some g →
    s.coord.inFlightGeneration = some g ∧ s.coord.doneGeneration ≠ some g
  unique : ∀ t u g g', (s.pc t).claimed = some g → (s.pc u).claimed = some g' → t = u
  newest : ∀ t g d, (s.pc t).emptied = some g → s.coord.doneGeneration = some d → d ≤ g
  ended : Ending s.inner.state → s.inner.generation = 0 ∨
    s.coord.doneGeneration = some s.inner.generation ∨
    ∃ t, (s.pc t).emptied = some s.inner.generation
  cleans : ∀ t, (s.pc t).Cleans s.inner

theorem Alone.init : Alone State.init where
  slot _ _ := nofun
  unique _ _ _ _ := nofun
  newest _ _ _ := nofun
  ended _ := Or.inl rfl
  cleans _ := trivial

theorem Pc.claimed_of_emptied {g : ℕ} (h : pc.emptied = some g) : pc.claimed = some g := by
  cases pc with
  | cleaning _ _ _ _ _ _ | failing _ _ _ _ | settling _ _ => exact h
  | recording _ _ _ applied =>
    cases applied with
    | true => exact h
    | false => cases h
  | _ => cases h

theorem Pc.cleans_of_not_claimed {i : SessionInner} (h : pc.claimed = none) :
    pc.Cleans i := by
  cases pc with
  | cleaning _ _ _ _ _ _ | failing _ _ _ _ => cases h
  | _ => trivial

theorem Pc.Cleans.of_harmless {i i' : SessionInner} (h : pc.Cleans i)
    (hfits : pc.Fits i.generation) (hi : Harmless i i') : pc.Cleans i' := by
  cases pc with
  | cleaning _ event _ _ _ _ | failing _ event _ _ =>
    refine ⟨h.1, fun hgeneration hending => ?_⟩
    obtain ⟨hstate, hsame⟩ := hi.state hending
    rw [hstate] at hending ⊢
    exact h.2 (hgeneration.trans hsame) hending
  | _ => trivial

theorem Alone.quiet (h : Alone s) (hi : Inv s) (hq : Quiet s s') : Alone s' := by
  have hclaimed : ∀ {t g}, (s'.pc t).claimed = some g → s'.pc t = s.pc t := by
    intro t g hg
    rcases hq.pc t with heq | ⟨-, hnone⟩
    · exact heq
    · rw [hnone] at hg
      cases hg
  refine ⟨fun t g hg => ?_, fun t u g g' hg hg' => ?_, fun t g d hg hd => ?_, fun hending => ?_,
    fun t => ?_⟩
  · rw [hq.coord]
    exact h.slot t g (hclaimed hg ▸ hg)
  · exact h.unique t u g g' (hclaimed hg ▸ hg) (hclaimed hg' ▸ hg')
  · rw [hq.coord] at hd
    exact h.newest t g d (hclaimed (Pc.claimed_of_emptied hg) ▸ hg) hd
  · obtain ⟨hstate, hgeneration⟩ := hq.inner.state hending
    rw [hstate] at hending
    rw [hgeneration, hq.coord]
    refine (h.ended hending).imp id (Or.imp id fun ⟨t, ht⟩ => ⟨t, ?_⟩)
    rcases hq.pc t with heq | ⟨hnone, -⟩
    · rw [heq]
      exact ht
    · rw [Pc.claimed_of_emptied ht] at hnone
      cases hnone
  · rcases hq.pc t with heq | ⟨-, hnone⟩
    · rw [heq]
      exact (h.cleans t).of_harmless (hi.fits t) hq.inner
    · exact Pc.cleans_of_not_claimed hnone

theorem Alone.own (h : Alone s) {g : ℕ} {inner : SessionInner}
    (hclaimed : (s.pc t).claimed = some g) (hclaimed' : pc.claimed = some g)
    (hnewest : pc.emptied = some g → ∀ d, s.coord.doneGeneration = some d → d ≤ g)
    (hended : Ending inner.state → inner.generation = 0 ∨
      s.coord.doneGeneration = some inner.generation ∨ pc.emptied = some inner.generation)
    (hcleans : pc.Cleans inner) : Alone ({ s with inner }.moveTo t pc) := by
  have hcases (u : ℕ) := State.moveTo_cases { s with inner } t u pc
  generalize hs' : State.moveTo { s with inner } t pc = s' at hcases ⊢
  have hcoord : s'.coord = s.coord := by rw [← hs']; rfl
  have hinner : s'.inner = inner := by rw [← hs']; rfl
  have hnone : ∀ {u}, u ≠ t → (s.pc u).claimed = none := fun {u} hne => by
    rcases hu : (s.pc u).claimed with - | g'
    · rfl
    · exact absurd (h.unique u t g' g hu hclaimed) hne
  have hown : ∀ {u g'}, (s'.pc u).claimed = some g' → u = t ∧ s'.pc u = pc ∧ g' = g := by
    intro u g' hu
    rcases hcases u with ⟨heq, rfl⟩ | ⟨heq, hne⟩
    · rw [heq, hclaimed'] at hu
      exact ⟨rfl, heq, (Option.some.inj hu).symm⟩
    · rw [heq, hnone hne] at hu
      cases hu
  refine ⟨fun u g' hu => ?_, fun u v g₁ g₂ hu hv => ?_, fun u g' d hu hd => ?_, fun hending => ?_,
    fun u => ?_⟩
  · obtain ⟨-, -, rfl⟩ := hown hu
    rw [hcoord]
    exact h.slot t g' hclaimed
  · exact (hown hu).1.trans (hown hv).1.symm
  · obtain ⟨-, hpc, rfl⟩ := hown (Pc.claimed_of_emptied hu)
    rw [hcoord] at hd
    exact hnewest (hpc ▸ hu) d hd
  · rw [hinner] at hending
    rw [hinner, hcoord]
    refine (hended hending).imp id (Or.imp id fun hemptied => ⟨t, ?_⟩)
    rcases hcases t with ⟨heq, -⟩ | ⟨-, hne⟩
    · rw [heq]
      exact hemptied
    · exact absurd rfl hne
  · rw [hinner]
    rcases hcases u with ⟨heq, -⟩ | ⟨heq, hne⟩
    · rw [heq]
      exact hcleans
    · rw [heq]
      exact Pc.cleans_of_not_claimed (hnone hne)

theorem Alone.begin (h : Alone s) {event : Event}
    (hnone : s.coord.inFlightGeneration = none)
    (hdone : s.coord.doneGeneration ≠ some event.generation)
    (hpc : (s.pc t).emptied = none) :
    Alone ({ s with
      coord := { s.coord with inFlightGeneration := some event.generation } }.moveTo t
        (.tearing caller event)) := by
  have hcases (u : ℕ) := State.moveTo_cases { s with
    coord := { s.coord with inFlightGeneration := some event.generation } } t u
      (.tearing caller event)
  generalize hs' : State.moveTo { s with
    coord := { s.coord with inFlightGeneration := some event.generation } } t
      (.tearing caller event) = s' at hcases ⊢
  have hcoord : s'.coord = { s.coord with inFlightGeneration := some event.generation } := by
    rw [← hs']; rfl
  have hinner : s'.inner = s.inner := by rw [← hs']; rfl
  have hfree : ∀ u, (s.pc u).claimed = none := fun u => by
    rcases hu : (s.pc u).claimed with - | g
    · rfl
    · have hslot := (h.slot u g hu).1
      rw [hnone] at hslot
      cases hslot
  have hown : ∀ {u g}, (s'.pc u).claimed = some g → u = t ∧ g = event.generation ∧
      (s'.pc u).emptied = none := by
    intro u g hu
    rcases hcases u with ⟨heq, rfl⟩ | ⟨heq, -⟩
    · rw [heq] at hu
      exact ⟨rfl, (Option.some.inj hu).symm, by rw [heq]; rfl⟩
    · rw [heq, hfree] at hu
      cases hu
  refine ⟨fun u g hu => ?_, fun u v g₁ g₂ hu hv => ?_, fun u g d hu hd => ?_, fun hending => ?_,
    fun u => ?_⟩
  · obtain ⟨-, rfl, -⟩ := hown hu
    rw [hcoord]
    exact ⟨rfl, hdone⟩
  · exact (hown hu).1.trans (hown hv).1.symm
  · rw [(hown (Pc.claimed_of_emptied hu)).2.2] at hu
    cases hu
  · rw [hinner] at hending
    rw [hinner, hcoord]
    refine (h.ended hending).imp id (Or.imp id fun ⟨u, hu⟩ => ?_)
    have hclaimed := Pc.claimed_of_emptied hu
    rw [hfree] at hclaimed
    cases hclaimed
  · rw [hinner]
    rcases hcases u with ⟨heq, -⟩ | ⟨heq, -⟩
    · rw [heq]
      trivial
    · rw [heq]
      exact h.cleans u

theorem Alone.reap (h : Alone s) {generation : ℕ}
    (hdone : s.coord.doneGeneration = some generation) :
    Alone { s with inner := s.inner.reap generation } := by
  rcases s.inner.reap_eq generation with heq | ⟨hgeneration, heq⟩
  · rw [heq]
    exact h
  · rw [heq]
    refine ⟨h.slot, h.unique, h.newest, fun _ => Or.inr (Or.inl ?_), fun u => ?_⟩
    · rw [hdone, ← hgeneration]
      rfl
    · have hclean := h.cleans u
      have hslot := h.slot u
      generalize s.pc u = pc at hclean hslot ⊢
      cases pc with
      | cleaning _ event _ _ _ _ | failing _ event _ _ =>
        refine ⟨hclean.1, fun heq => ?_⟩
        exact absurd (hdone.trans (congrArg some (hgeneration.symm.trans heq.symm)))
          (hslot _ rfl).2
      | _ => trivial

theorem Alone.claim (h : Alone s) (hi : Inv s) {event : Event}
    (hpc : s.pc t = .claiming caller event)
    (hapart : s.coord.inFlightGeneration = none ∨
      s.coord.inFlightGeneration = some event.generation ∨
      s.coord.doneGeneration = some event.generation) : Alone (s.claim t caller event) := by
  unfold State.claim
  split
  · exact h.quiet hi ((Quiet.refl s).moveTo hpc rfl (caller.back_claimed _))
  next hflight =>
  split
  next hdone =>
    split
    · exact h.quiet hi ((Quiet.refl s).moveTo hpc rfl (caller.back_claimed _))
    · have hreap : Alone { s with
          inner := if event.target = .idle then s.inner.reap event.generation else s.inner } := by
        split
        · exact h.reap hdone
        · exact h
      exact hreap.quiet (hi.inner (s.inner.reapIdle_kept _ _))
        ((Quiet.refl _).moveTo hpc rfl (caller.back_claimed _))
  next hdone =>
    refine h.begin ?_ hdone (by rw [hpc]; rfl)
    rcases hapart with hnone | hown | hown
    · exact hnone
    · exact absurd hown hflight
    · exact absurd hown hdone

theorem Alone.not_emptied (h : Alone s) {event : Event}
    (hpc : s.pc t = .tearing caller event) (u g : ℕ) : (s.pc u).emptied ≠ some g := by
  intro hu
  have hsame := h.unique u t g event.generation (Pc.claimed_of_emptied hu) (by rw [hpc]; rfl)
  rw [hsame, hpc] at hu
  cases hu

/-- While a teardown of the newest generation has not begun, the state is no ending one, or no
connect was ever made. -/
theorem Alone.not_ending (h : Alone s) (hi : Inv s) {event : Event}
    (hpc : s.pc t = .tearing caller event)
    (htears : s.inner.TearsDown event.generation event.target) : ¬ Ending s.inner.state := by
  intro hending
  rcases h.ended hending with hzero | hdone | ⟨u, hu⟩
  · exact (hi.fresh hzero).not_tearsDown _ _ htears
  · rw [htears.1] at hdone
    exact (h.slot t event.generation (by rw [hpc]; rfl)).2 hdone
  · exact h.not_emptied hpc u _ hu

theorem Alone.tear (h : Alone s) (hi : Inv s) {event : Event}
    (hpc : s.pc t = .tearing caller event) : Alone (s.tear t caller event) := by
  have hclaimed : (s.pc t).claimed = some event.generation := by rw [hpc]; rfl
  have hnewest : s.inner.generation = event.generation →
      ∀ d, s.coord.doneGeneration = some d → d ≤ event.generation := fun heq d hd =>
    heq ▸ hi.done d hd
  unfold State.tear
  rcases s.inner.beginTeardown_cases event.generation event.target event.reason with
    ⟨-, heq⟩ | ⟨hgeneration, -, heq⟩ | htears
  · rw [heq]
    refine h.own hclaimed rfl nofun (fun hending => ?_) trivial
    exact (h.ended hending).imp id (Or.imp id fun ⟨u, hu⟩ => absurd hu (h.not_emptied hpc u _))
  · rw [heq]
    exact h.own hclaimed rfl (fun _ => hnewest hgeneration)
      (fun _ => Or.inr (Or.inr (congrArg some hgeneration.symm))) trivial
  · have hfound := h.not_ending hi hpc htears
    rw [SessionInner.beginTeardown_of_tearsDown htears]
    refine h.own hclaimed rfl (fun _ => hnewest htears.1)
      (fun _ => Or.inr (Or.inr (congrArg some htears.1.symm))) ⟨hfound, fun _ hending => ?_⟩
    by_cases hidle : event.target = .idle
    · simp only [hidle, ne_eq, not_true_eq_false, if_false] at hending
      exact absurd hending hfound
    · simp only [hidle, ne_eq, not_false_eq_true, if_true] at hending ⊢
      rcases hending with htarget | htarget
      · exact absurd htarget hidle
      · exact ⟨htarget, htarget⟩

theorem Alone.cleaned (h : Alone s) {event : Event}
    {found : ConnectionState} {session : Option ℕ} {runtime : Bool} {handles : List ℕ}
    (hpc : s.pc t = .cleaning caller event found session runtime handles) (errors : List String) :
    Alone (s.moveTo t (cleaned caller event found errors)) := by
  have hclaimed : (s.pc t).claimed = some event.generation := by rw [hpc]; rfl
  have hemptied : (s.pc t).emptied = some event.generation := by rw [hpc]; rfl
  have hnewest := fun d => h.newest t event.generation d hemptied
  have hended : ∀ {pc : Pc}, pc.emptied = some event.generation → Ending s.inner.state →
      s.inner.generation = 0 ∨ s.coord.doneGeneration = some s.inner.generation ∨
        pc.emptied = some s.inner.generation := by
    intro pc hpc' hending
    refine (h.ended hending).imp id (Or.imp id fun ⟨u, hu⟩ => ?_)
    have hsame := h.unique u t _ _ (Pc.claimed_of_emptied hu) hclaimed
    rw [hsame, hemptied] at hu
    rw [hpc', hu]
  unfold Lifecycle.cleaned
  split
  · have hcleans := h.cleans t
    rw [hpc] at hcleans
    exact h.own hclaimed rfl (fun _ => hnewest) (hended rfl) hcleans
  split
  · exact h.own hclaimed rfl (fun _ => hnewest) (hended rfl) trivial
  · exact h.own hclaimed rfl (fun _ => hnewest) (hended rfl) trivial

/-- A teardown that is recorded is the only one, so that the slot is its own. -/
theorem Alone.recorded (h : Alone s) (hi : Inv s) {event : Event}
    {result : Except String Unit} {applied : Bool}
    (hpc : s.pc t = .recording caller event result applied) :
    Alone ({ s with coord := s.coord.record event result applied }.moveTo t
      (caller.back result)) := by
  have hclaimed : (s.pc t).claimed = some event.generation := by rw [hpc]; rfl
  have hcases (u : ℕ) := State.moveTo_cases { s with
    coord := s.coord.record event result applied } t u (caller.back result)
  generalize hs' : State.moveTo { s with
    coord := s.coord.record event result applied } t (caller.back result) = s' at hcases ⊢
  have hcoord : s'.coord = s.coord.record event result applied := by rw [← hs']; rfl
  have hinner : s'.inner = s.inner := by rw [← hs']; rfl
  have hfree : ∀ u, (s'.pc u).claimed = none := fun u => by
    rcases hcases u with ⟨heq, -⟩ | ⟨heq, hne⟩
    · rw [heq]
      exact caller.back_claimed result
    · rw [heq]
      rcases hu : (s.pc u).claimed with - | g
      · rfl
      · exact absurd (h.unique u t g _ hu hclaimed) hne
  have hnone : ∀ {u g}, (s'.pc u).claimed ≠ some g := fun {u g} hu => by
    rw [hfree] at hu
    cases hu
  refine ⟨fun u g hu => absurd hu hnone, fun u _ g _ hu => absurd hu hnone,
    fun u g _ hu => absurd (Pc.claimed_of_emptied hu) hnone, fun hending => ?_,
    fun u => Pc.cleans_of_not_claimed (hfree u)⟩
  rw [hinner] at hending
  rw [hinner, hcoord]
  refine (h.ended hending).imp id fun hended => Or.inl ?_
  cases applied with
  | false =>
    -- a stale event: another one has recorded the newest generation
    rcases hended with hdone | ⟨u, hu⟩
    · exact hdone
    · have hsame := h.unique u t _ _ (Pc.claimed_of_emptied hu) hclaimed
      rw [hsame, hpc] at hu
      cases hu
  | true =>
    have hemptied : (s.pc t).emptied = some event.generation := by rw [hpc]; rfl
    rcases hended with hdone | ⟨u, hu⟩
    · have hle : event.generation ≤ s.inner.generation := (hi.fits t).emptied_le hemptied
      have hge : s.inner.generation ≤ event.generation := h.newest t _ _ hemptied hdone
      exact congrArg some (Nat.le_antisymm hle hge)
    · have hsame := h.unique u t _ _ (Pc.claimed_of_emptied hu) hclaimed
      rw [hsame] at hu
      exact hemptied.symm.trans hu

theorem Alone.tears (h : Alone s) (hi : Inv s) {label : Label} (hapart : Apart s label)
    (htears : Tears s t label s') : Alone s' := by
  cases htears with
  | claim hpc =>
    simp only [Apart, hpc] at hapart
    exact h.claim hi hpc hapart
  | tear hpc => exact h.tear hi hpc
  | clean hpc errors => exact h.cleaned hpc errors
  | fail hpc =>
    exact h.own (by rw [hpc]; rfl) rfl (fun _ d => h.newest t _ d (by rw [hpc]; rfl))
      (fun hending => absurd hending (by decide : ¬ Ending .error)) trivial
  | settle hpc =>
    have hfits := hi.fits t
    rw [hpc] at hfits
    exact h.own (by rw [hpc]; rfl) rfl (fun _ d => h.newest t _ d (by rw [hpc]; rfl))
      (fun _ => Or.inr (Or.inr (congrArg some (hfits.1.of_idle hfits.2)))) trivial
  | record hpc => exact h.recorded hi hpc

theorem Alone.step (h : Alone s) (hi : Inv s) {label : Label} (hapart : Apart s label)
    (hstep : Lifecycle.step s label = some s') : Alone s' := by
  rcases step_cases hi hstep with hquiet | ⟨t, htears⟩
  · exact h.quiet hi hquiet
  · exact h.tears hi hapart htears

/-! ### What a teardown does -/

theorem Bound.of_inner {event : Event} {inner : SessionInner}
    (hstale : event.generation < s.inner.generation → inner = s.inner)
    (hterminal : Ending s.inner.state → inner.state ≠ .error) :
    Bound event pc s ({ s with inner }.moveTo t pc') where
  stale hlt := by
    rw [show State.inner _ = inner from rfl, hstale hlt]
    exact ⟨rfl, rfl, rfl, rfl⟩
  terminal hending herror := absurd herror (hterminal hending)
  record d hd := ⟨d, hd, Nat.le_refl d⟩

theorem not_error_of_ending {state : ConnectionState} (h : Ending state) : state ≠ .error := by
  rintro rfl
  exact absurd h (by decide)

theorem Bound.moveTo (event : Event) (pc pc' : Pc) (t : ℕ) : Bound event pc s (s.moveTo t pc') :=
  Bound.of_inner (fun _ => rfl) not_error_of_ending

theorem Bound.of_coord {event : Event} {coord : TeardownCoord}
    (hrecord : ∀ d, s.coord.doneGeneration = some d →
      ∃ d', coord.doneGeneration = some d' ∧ d ≤ d') :
    Bound event pc s ({ s with coord }.moveTo t pc') where
  stale _ := ⟨rfl, rfl, rfl, rfl⟩
  terminal hending herror := absurd herror (not_error_of_ending hending)
  record := hrecord

theorem claim_bound {event : Event} (pc : Pc) :
    Bound event pc s (s.claim t caller event) := by
  unfold State.claim
  split
  · exact Bound.moveTo ..
  split
  · split
    · exact Bound.moveTo ..
    · refine Bound.of_inner (fun hlt => ?_) fun hending => ?_
      · rw [SessionInner.reap, if_neg (Nat.ne_of_gt hlt), ite_self]
      · split
        · rcases s.inner.reap_eq event.generation with heq | ⟨-, heq⟩
          · rw [heq]
            exact not_error_of_ending hending
          · rw [heq]
            rintro ⟨⟩
        · exact not_error_of_ending hending
  · exact Bound.of_coord fun d hd => ⟨d, hd, Nat.le_refl d⟩

theorem Alone.tear_bound (h : Alone s) (hi : Inv s) {event : Event}
    (hpc : s.pc t = .tearing caller event) (pc : Pc) :
    Bound event pc s (s.tear t caller event) := by
  unfold State.tear
  rcases s.inner.beginTeardown_cases event.generation event.target event.reason with
    ⟨-, heq⟩ | ⟨-, -, heq⟩ | htears
  · rw [heq]
    exact Bound.moveTo ..
  · rw [heq]
    exact Bound.moveTo ..
  · rw [SessionInner.beginTeardown_of_tearsDown htears]
    exact Bound.of_inner (fun hlt => absurd htears.1.symm (Nat.ne_of_lt hlt))
      fun hending => absurd hending (h.not_ending hi hpc htears)

theorem Alone.bound (h : Alone s) (hi : Inv s) {label : Label} {event : Event}
    (hapart : Apart s label) (htears : Tears s t label s')
    (hevent : (s.pc t).event = some event) : Bound event (s.pc t) s s' := by
  cases htears with
  | claim hpc =>
    rw [hpc] at hevent
    cases hevent
    exact claim_bound _
  | tear hpc =>
    rw [hpc] at hevent
    cases hevent
    exact h.tear_bound hi hpc _
  | clean hpc errors => exact Bound.moveTo ..
  | fail hpc =>
    have hcleans := h.cleans t
    simp only [Apart, hpc] at hapart
    rw [hpc] at hevent hcleans
    cases hevent
    exact
      { stale := fun hlt => absurd hapart.symm (Nat.ne_of_lt hlt)
        terminal := fun hending _ => ⟨_, _, _, hpc, hcleans.1, hcleans.2 hapart.symm hending⟩
        record := fun d hd => ⟨d, hd, Nat.le_refl d⟩ }
  | settle hpc =>
    have hfits := hi.fits t
    rw [hpc] at hevent hfits
    cases hevent
    exact Bound.of_inner (fun hlt => absurd (hfits.1.of_idle hfits.2) (Nat.ne_of_lt hlt))
      fun _ => nofun
  | @record caller event' result applied hpc =>
    have hnewest := fun g d => h.newest t g d
    rw [hpc] at hevent hnewest
    cases hevent
    refine Bound.of_coord fun d hd => ?_
    cases applied with
    | false => exact ⟨d, hd, Nat.le_refl d⟩
    | true => exact ⟨event.generation, rfl, hnewest _ d rfl hd⟩

/-- **A teardown is bound to its generation**, in every run in which none begins while one of
another generation is in flight, and no cleanup fails after a newer connect has registered: at any
time only one thread is in a teardown, and its steps leave a newer generation alone, make no `Error`
out of `Idle` or `Disconnected`, and replace no record of a newer generation. -/
theorem teardown_bound {labels : List Label}
    (hrun : Machine.run step State.init labels = some s)
    (hapart : Machine.Along step Apart State.init labels) :
    (∀ t u g g', (s.pc t).claimed = some g → (s.pc u).claimed = some g' → t = u) ∧
    ∀ before label t event s₀, labels = before ++ [label] →
      Machine.run step State.init before = some s₀ → label.thread = some t →
      (s₀.pc t).event = some event → Bound event (s₀.pc t) s₀ s := by
  have hinv : ∀ {as s}, Machine.Along step Apart State.init as →
      Machine.run step State.init as = some s → Inv s ∧ Alone s := fun halong hr =>
    Machine.run_inv_along (I := fun s => Inv s ∧ Alone s)
      (fun h hc hs => ⟨h.1.step hs, h.2.step h.1 hc hs⟩) ⟨Inv.init, Alone.init⟩ halong hr
  refine ⟨(hinv hapart hrun).2.unique, ?_⟩
  rintro before label t event s₀ rfl hbefore hthread hevent
  obtain ⟨halong, hlast⟩ := hapart.append hbefore
  obtain ⟨s₁, hs₁, hstep⟩ := Machine.run_append_eq_some.mp hrun
  obtain rfl : s₀ = s₁ := Option.some.inj (hbefore.symm.trans hs₁)
  obtain ⟨s₂, hs₂, hnil⟩ := Machine.run_cons_eq_some.mp hstep
  obtain rfl : s₂ = s := Option.some.inj hnil
  obtain ⟨hi, halone⟩ := hinv halong hbefore
  exact halone.bound hi hlast.1 (step_tears hthread hevent hs₂) hevent

/-- A connect on the thread 0, with the workers 1, 2 and 3; its supervisor sees the host close the
session, tears it down, and comes to the cleanup. -/
def remoteClosed : List Label :=
  .connect "host" :: List.replicate 38 (.go 0) ++
    [.terminate 1 "remote-closed", .go 1, .go 1, .exit 2, .exit 3]

theorem teardown_bound_closed : ∃ s₀ s,
    Machine.run step State.init (remoteClosed ++ [.cleanup 1 none none []]) = some s₀ ∧
    Machine.run step State.init (remoteClosed ++ [.cleanup 1 none none []] ++ [.go 1]) = some s ∧
    s.coord.doneGeneration = some 1 ∧ s.inner.state = .disconnected ∧
    Bound ⟨1, .disconnected, some "remote-closed"⟩ (s₀.pc 1) s₀ s := by
  have hrun : ((Machine.run step State.init (remoteClosed ++ [.cleanup 1 none none []])).any
      fun s₀ => decide ((s₀.pc 1).event = some ⟨1, .disconnected, some "remote-closed"⟩) &&
        (step s₀ (.go 1)).any fun s =>
          decide (s.coord.doneGeneration = some 1 ∧ s.inner.state = .disconnected)) = true := by
    decide
  obtain ⟨s₀, hs₀, h⟩ := (Option.any_eq_true _ _).mp hrun
  obtain ⟨hevent, hlast⟩ := Bool.and_eq_true_iff.mp h
  obtain ⟨s, hs, hend⟩ := (Option.any_eq_true _ _).mp hlast
  obtain ⟨hdone, hstate⟩ := of_decide_eq_true hend
  have hall := Machine.run_append_eq_some.mpr
    ⟨s₀, hs₀, Machine.run_cons_eq_some.mpr ⟨s, hs, Machine.run_nil s⟩⟩
  exact ⟨s₀, s, hs₀, hall, hdone, hstate, (teardown_bound hall (by decide)).2 _ _ 1 _ s₀
    rfl hs₀ rfl (of_decide_eq_true hevent)⟩

/-- Meanwhile the user connects again, on the thread 4, with the workers 5, 6 and 7. -/
def reconnected : List Label := remoteClosed ++ .connect "host" :: List.replicate 36 (.go 4)

/-- The supervisor of the new session tears it down as well. -/
def closedAgain : List Label := reconnected ++ [.terminate 5 "remote-closed", .go 5, .go 5]

/-- **A teardown is not bound to its generation.**  The cleanup of the old session fails, and the
state of the new one is `Error`; the old teardown ends, and the generation 2 is torn down twice at a
time; and the record of the generation 2 gives way to that of the generation 1. -/
theorem teardown_unbound :
    (∃ s₀ s, Machine.run step State.init
        (reconnected ++ [.cleanup 1 (some "trace") none []]) = some s₀ ∧
      step s₀ (.go 1) = some s ∧ (s₀.pc 1).claimed = some 1 ∧ s₀.inner.generation = 2 ∧
      s₀.inner.state = .ready ∧ s₀.inner.lastError = none ∧
      s.inner.state = .error ∧ s.inner.lastError.isSome = true ∧ s.inner.session = some 2) ∧
    (∃ s, Machine.run step State.init (closedAgain ++
        [.cleanup 1 none none [], .go 1, .terminate 6 "audio", .go 6]) = some s ∧
      (s.pc 5).claimed = some 2 ∧ (s.pc 6).claimed = some 2) ∧
    ∃ s₀ s, Machine.run step State.init (closedAgain ++
        [.exit 6, .exit 7, .cleanup 5 none none [], .go 5, .cleanup 1 none none []]) = some s₀ ∧
      step s₀ (.go 1) = some s ∧ s₀.coord.doneGeneration = some 2 ∧
      s.coord.doneGeneration = some 1 := by
  have hfailed : ((Machine.run step State.init
      (reconnected ++ [.cleanup 1 (some "trace") none []])).any fun s₀ =>
        decide ((s₀.pc 1).claimed = some 1 ∧ s₀.inner.generation = 2 ∧ s₀.inner.state = .ready ∧
          s₀.inner.lastError = none) && (step s₀ (.go 1)).any fun s =>
            decide (s.inner.state = .error ∧ s.inner.lastError.isSome = true ∧
              s.inner.session = some 2)) = true := by
    decide +kernel
  have htwice : ((Machine.run step State.init (closedAgain ++
      [.cleanup 1 none none [], .go 1, .terminate 6 "audio", .go 6])).any fun s =>
        decide ((s.pc 5).claimed = some 2 ∧ (s.pc 6).claimed = some 2)) = true := by
    decide +kernel
  have hreplaced : ((Machine.run step State.init (closedAgain ++
      [.exit 6, .exit 7, .cleanup 5 none none [], .go 5, .cleanup 1 none none []])).any fun s₀ =>
        decide (s₀.coord.doneGeneration = some 2) && (step s₀ (.go 1)).any fun s =>
          decide (s.coord.doneGeneration = some 1)) = true := by
    decide +kernel
  refine ⟨?_, ?_, ?_⟩
  · obtain ⟨s₀, hs₀, h⟩ := (Option.any_eq_true _ _).mp hfailed
    obtain ⟨hbefore, hlast⟩ := Bool.and_eq_true_iff.mp h
    obtain ⟨s, hs, hafter⟩ := (Option.any_eq_true _ _).mp hlast
    obtain ⟨hclaimed, hgeneration, hstate, herror⟩ := of_decide_eq_true hbefore
    exact ⟨s₀, s, hs₀, hs, hclaimed, hgeneration, hstate, herror, of_decide_eq_true hafter⟩
  · obtain ⟨s, hs, h⟩ := (Option.any_eq_true _ _).mp htwice
    exact ⟨s, hs, of_decide_eq_true h⟩
  · obtain ⟨s₀, hs₀, h⟩ := (Option.any_eq_true _ _).mp hreplaced
    obtain ⟨hbefore, hlast⟩ := Bool.and_eq_true_iff.mp h
    obtain ⟨s, hs, hafter⟩ := (Option.any_eq_true _ _).mp hlast
    exact ⟨s₀, s, hs₀, hs, of_decide_eq_true hbefore, of_decide_eq_true hafter⟩

end MahoRD.Ios.Lifecycle

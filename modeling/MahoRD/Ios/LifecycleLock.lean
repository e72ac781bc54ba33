/-
MahoRD/Ios/LifecycleLock.lean

What holds in every state of the iOS shell, whatever its threads do.  A command stands between
`entering` and `unlocking` only with the lifecycle lock (`Inv.holder`), so that nobody else starts a
generation then.  Until it has installed its session, no worker of its generation exists and none of
its teardowns has begun (`Inv.early`); and a teardown of the newest generation that has come to its
end, or is on record, leaves no session and no state `Ready` (`Inv.tore`, `Inv.torn`).
-/
import MahoRD.Ios.Lifecycle

namespace MahoRD.Ios

namespace SessionInner

/-- Nothing is connected. -/
structure Torn (i : SessionInner) : Prop where
  session : i.session = none
  state : i.state ≠ .ready

/-- No connect was ever made. -/
structure Fresh (i : SessionInner) : Prop where
  state : i.state = .idle
  session : i.session = none
  workerHandles : i.workerHandles = []

/-- In a state that ends a session there is none. -/
def Settled (i : SessionInner) : Prop :=
  i.state = .idle ∨ i.state = .disconnected → i.session = none

/-- What every locked section keeps that neither starts a generation nor installs a session. -/
structure Kept (i i' : SessionInner) : Prop where
  generation : i'.generation = i.generation
  session : i.session = none → i'.session = none
  torn : i.Torn → i'.Torn
  settled : i.Settled → i'.Settled
  fresh : i.generation = 0 → i.Fresh → i'.Fresh

theorem Kept.refl (i : SessionInner) : Kept i i := ⟨rfl, id, id, id, fun _ => id⟩

variable {i : SessionInner}

theorem Kept.of_session {i' : SessionInner} (hgeneration : i'.generation = i.generation)
    (hsession : i'.session = none) (hstate : i'.state = i.state ∨ i'.state ≠ .ready)
    (hfresh : i.generation = 0 → i.Fresh → i'.Fresh) : Kept i i' where
  generation := hgeneration
  session _ := hsession
  torn h := ⟨hsession, hstate.elim (fun heq => heq ▸ h.state) id⟩
  settled _ _ := hsession
  fresh := hfresh

theorem settle_torn (i : SessionInner) : i.settle.Torn := ⟨rfl, nofun⟩

theorem settle_kept (i : SessionInner) : Kept i i.settle :=
  Kept.of_session rfl rfl (Or.inr nofun) fun _ h => ⟨rfl, rfl, h.workerHandles⟩

theorem reap_kept (i : SessionInner) (generation : ℕ) : Kept i (i.reap generation) := by
  rcases i.reap_eq generation with h | ⟨-, h⟩
  · rw [h]
    exact Kept.refl i
  · rw [h]
    exact i.settle_kept

theorem reapIdle_kept (i : SessionInner) (generation : ℕ) (target : ConnectionState) :
    Kept i (if target = .idle then i.reap generation else i) := by
  split
  · exact i.reap_kept generation
  · exact Kept.refl i

theorem failCleanup_kept (hgeneration : i.generation ≠ 0) (summary : String) :
    Kept i (i.failCleanup summary) where
  generation := rfl
  session := id
  torn h := ⟨h.session, nofun⟩
  settled _ := nofun
  fresh h := absurd h hgeneration

theorem setError_kept (hgeneration : i.generation ≠ 0) (generation : ℕ)
    (message : String) : Kept i (i.setError generation message) := by
  rcases i.setError_eq generation message with h | ⟨-, h⟩
  · rw [h]
    exact Kept.refl i
  · rw [h]
    exact ⟨rfl, id, fun htorn => ⟨htorn.session, nofun⟩, fun _ => nofun,
      fun hzero => absurd hzero hgeneration⟩

theorem pushWorker_kept (hgeneration : i.generation ≠ 0) (worker : ℕ) :
    Kept i (i.pushWorker worker) where
  generation := rfl
  session := id
  torn h := ⟨h.session, h.state⟩
  settled := id
  fresh h := absurd h hgeneration

theorem Fresh.not_tearsDown (h : i.Fresh) (generation : ℕ)
    (target : ConnectionState) : ¬ i.TearsDown generation target :=
  fun htears => htears.2.1 ⟨h.state, h.session, h.workerHandles⟩

theorem torn_of_not_tearsDown {generation : ℕ} {target : ConnectionState}
    (hi : i.Settled) (hgeneration : i.generation = generation)
    (h : ¬ i.TearsDown generation target) : i.Torn := by
  have hstate : i.state = .idle ∨ i.state = .disconnected := by
    by_contra hne
    rw [not_or] at hne
    exact h ⟨hgeneration, fun hidle => hne.1 hidle.1, fun hdisconnected => hne.2 hdisconnected.1⟩
  refine ⟨hi hstate, ?_⟩
  rcases hstate with hstate | hstate <;> rw [hstate] <;> nofun

theorem beginTeardown_torn {generation : ℕ} {target : ConnectionState}
    (h : i.TearsDown generation target) (reason : Option String) (htarget : target ≠ .ready)
    (hidle : target ≠ .idle) : (i.beginTeardown generation target reason).2.2.Torn := by
  rw [beginTeardown_of_tearsDown h]
  refine ⟨rfl, ?_⟩
  simpa [hidle] using htarget

theorem beginTeardown_kept (generation : ℕ) {target : ConnectionState}
    (reason : Option String) (htarget : target ≠ .ready) :
    Kept i (i.beginTeardown generation target reason).2.2 := by
  by_cases h : i.TearsDown generation target
  · rw [beginTeardown_of_tearsDown h]
    refine Kept.of_session rfl rfl ?_ fun _ hfresh => absurd h (hfresh.not_tearsDown _ _)
    by_cases hidle : target = .idle
    · left
      simp [hidle]
    · right
      simpa [hidle] using htarget
  · rw [beginTeardown_of_not_tearsDown h]
    exact Kept.refl i

end SessionInner

namespace Lifecycle

/-! ### Where a thread stands -/

def Caller.holds : Caller → Bool
  | worker => false
  | _ => true

/-- The thread has the lifecycle lock. -/
def Pc.holds : Pc → Bool
  | unlocking _ | entering _ | proceeding _ | registering _ | activating _ | checking _ _
  | checkingPending _ _ | attempting _ _ | refusing _ _ _ | confirming _ | installing _
  | spawning _ _ | pushing _ _ _ | starting _ | finishing _ | leaving _ _ => true
  | clearing caller | reading caller | claiming caller _ | tearing caller _
  | cleaning caller _ _ _ _ _ | failing caller _ _ _ | settling caller _
  | recording caller _ _ _ => caller.holds
  | _ => false

/-- A connect that has a generation, and has not installed its session. -/
def Pc.early : Pc → Bool
  | activating _ | checking _ _ | checkingPending _ _ | attempting _ _ | refusing _ _ _
  | confirming _ | installing _ => true
  | _ => false

def Caller.workerGeneration (event : Event) : Caller → Option ℕ
  | worker => some event.generation
  | _ => none

/-- The generation of a worker. -/
def Pc.workerGeneration : Pc → Option ℕ
  | running generation _ => some generation
  | claiming caller event | tearing caller event | cleaning caller event _ _ _ _
  | failing caller event _ _ | settling caller event | recording caller event _ _ =>
    caller.workerGeneration event
  | _ => none

/-- The teardown of a generation that has taken its session. -/
def Pc.emptied : Pc → Option ℕ
  | cleaning _ event _ _ _ _ | failing _ event _ _ | settling _ event
  | recording _ event _ true => some event.generation
  | _ => none

/-- The teardown of a generation that has left the state `Ready`. -/
def Pc.tore : Pc → Option ℕ
  | cleaning _ event _ _ _ _ | failing _ event _ _ =>
    if event.target = .idle then none else some event.generation
  | recording _ event _ true => some event.generation
  | _ => none

/-- What a teardown is called with, where `n` is the newest generation. -/
def Caller.Fits (n : ℕ) (event : Event) : Caller → Prop
  | disconnect | connect _ => event.target = .idle ∧ event.generation = n
  | failing generation _ => (event.target = .idle ∨ event.target = .error) ∧
    event.generation = n ∧ generation = n ∧ 0 < n
  | worker => (event.target = .disconnected ∨ event.target = .error) ∧
    0 < event.generation ∧ event.generation ≤ n

/-- Who calls `disconnect_blocking`. -/
def Caller.FitsIdle (n : ℕ) : Caller → Prop
  | disconnect | connect _ => True
  | failing generation _ => generation = n ∧ 0 < n
  | worker => False

/-- A command that holds the lock is of the newest generation `n`. -/
def Pc.Fits (n : ℕ) : Pc → Prop
  | clearing caller | reading caller => caller.FitsIdle n
  | claiming caller event | tearing caller event => caller.Fits n event
  | recording caller event _ applied =>
    caller.Fits n event ∧ (applied = false → event.generation ≠ n)
  | cleaning caller event _ _ _ _ | failing caller event _ _ =>
    caller.Fits n event ∧ 0 < event.generation
  | settling caller event => caller.Fits n event ∧ event.target = .idle
  | activating generation | checking generation _ | checkingPending generation _
  | attempting generation _ | refusing generation _ _ | confirming generation
  | installing generation | spawning generation _ | pushing generation _ _ | starting generation
  | finishing generation | leaving generation _ => generation = n ∧ 0 < n
  | running generation _ => 0 < generation ∧ generation ≤ n
  | _ => True

theorem Worker.target_eq (worker : Worker) :
    worker.target = .disconnected ∨ worker.target = .error := by
  cases worker with
  | supervisor => exact Or.inl rfl
  | audio | media => exact Or.inr rfl

variable {caller : Caller} {n g t : ℕ} {pc : Pc} {s' : State}

theorem Caller.Fits.le {event : Event} (h : caller.Fits n event) :
    event.generation ≤ n := by
  cases caller with
  | disconnect | connect _ => exact Nat.le_of_eq h.2
  | failing _ _ => exact Nat.le_of_eq h.2.1
  | worker => exact h.2.2

theorem Caller.Fits.of_idle {event : Event} (h : caller.Fits n event)
    (hidle : event.target = .idle) : event.generation = n := by
  cases caller with
  | disconnect | connect _ => exact h.2
  | failing _ _ => exact h.2.1
  | worker =>
    rcases h.1 with htarget | htarget <;> rw [hidle] at htarget <;> cases htarget

theorem Caller.Fits.target {event : Event} (h : caller.Fits n event) :
    event.target ≠ .ready := by
  have htarget : event.target = .idle ∨ event.target = .disconnected ∨ event.target = .error := by
    cases caller with
    | disconnect | connect _ => exact Or.inl h.1
    | failing _ _ => exact h.1.imp id Or.inr
    | worker => exact Or.inr h.1
  rcases htarget with htarget | htarget | htarget <;> rw [htarget] <;> nofun

theorem Caller.Fits.succ {event : Event} (h : caller.Fits n event)
    (hh : caller.holds = false) : caller.Fits (n + 1) event := by
  cases caller with
  | disconnect | connect _ | failing _ _ => cases hh
  | worker => exact ⟨h.1, h.2.1, Nat.le_succ_of_le h.2.2⟩

theorem Pc.Fits.succ (h : pc.Fits n) (hh : pc.holds = false) :
    pc.Fits (n + 1) := by
  cases pc with
  | clearing caller | reading caller =>
    cases caller with
    | disconnect | connect _ | failing _ _ => cases hh
    | worker => exact h
  | claiming _ _ | tearing _ _ => exact Caller.Fits.succ h hh
  | recording _ _ _ _ => exact ⟨h.1.succ hh, fun _ => Nat.ne_of_lt (Nat.lt_succ_of_le h.1.le)⟩
  | cleaning _ _ _ _ _ _ | failing _ _ _ _ => exact ⟨h.1.succ hh, h.2⟩
  | settling _ _ => exact ⟨h.1.succ hh, h.2⟩
  | running _ _ => exact ⟨h.1, Nat.le_succ_of_le h.2⟩
  | activating _ | checking _ _ | checkingPending _ _ | attempting _ _ | refusing _ _ _
  | confirming _ | installing _ | spawning _ _ | pushing _ _ _ | starting _ | finishing _
  | leaving _ _ => cases hh
  | _ => trivial

theorem Pc.Fits.worker_le (h : pc.Fits n) (hg : pc.workerGeneration = some g) :
    g ≤ n := by
  have hcaller : ∀ {caller : Caller} {event : Event}, caller.Fits n event →
      caller.workerGeneration event = some g → g ≤ n := by
    intro caller event hfits hg
    cases caller with
    | disconnect | connect _ | failing _ _ => cases hg
    | worker =>
      cases hg
      exact hfits.le
  cases pc with
  | running _ _ =>
    cases hg
    exact h.2
  | claiming _ _ | tearing _ _ => exact hcaller h hg
  | recording _ _ _ _ => exact hcaller h.1 hg
  | cleaning _ _ _ _ _ _ | failing _ _ _ _ | settling _ _ => exact hcaller h.1 hg
  | _ => cases hg

theorem Pc.Fits.emptied_le (h : pc.Fits n) (hg : pc.emptied = some g) :
    g ≤ n := by
  cases pc with
  | cleaning _ _ _ _ _ _ | failing _ _ _ _ | settling _ _ =>
    cases hg
    exact h.1.le
  | recording _ _ _ applied =>
    cases applied with
    | true =>
      cases hg
      exact h.1.le
    | false => cases hg
  | _ => cases hg

theorem Pc.emptied_of_tore (h : pc.tore = some g) : pc.emptied = some g := by
  cases pc with
  | cleaning _ event _ _ _ _ | failing _ event _ _ =>
    simp only [Pc.tore, Option.ite_none_left_eq_some] at h
    exact h.2
  | recording _ _ _ applied =>
    cases applied with
    | true => exact h
    | false => cases h
  | _ => cases h

theorem Caller.holds_or_worker (caller : Caller) (event : Event) :
    caller.holds = true ∨ caller.workerGeneration event = some event.generation := by
  cases caller with
  | worker => exact Or.inr rfl
  | _ => exact Or.inl rfl

theorem Pc.holds_or_worker (h : pc.emptied = some g) :
    pc.holds = true ∨ pc.workerGeneration = some g := by
  cases pc with
  | cleaning caller event _ _ _ _ | failing caller event _ _ | settling caller event =>
    cases h
    exact caller.holds_or_worker event
  | recording caller event _ applied =>
    cases applied with
    | true =>
      cases h
      exact caller.holds_or_worker event
    | false => cases h
  | _ => cases h

theorem Pc.holds_of_early (h : pc.early = true) : pc.holds = true := by
  cases pc with
  | activating _ | checking _ _ | checkingPending _ _ | attempting _ _ | refusing _ _ _
  | confirming _ | installing _ => rfl
  | _ => cases h

theorem Pc.not_emptied_of_early (h : pc.early = true) : pc.emptied ≠ some g := by
  cases pc with
  | activating _ | checking _ _ | checkingPending _ _ | attempting _ _ | refusing _ _ _
  | confirming _ | installing _ => nofun
  | _ => cases h

/-! ### The invariant -/

structure Inv (s : State) : Prop where
  born : ∀ t, s.calls ≤ t → s.pc t = .unborn
  holder : ∀ t, (s.pc t).holds = true → s.queue.head? = some t
  fits : ∀ t, (s.pc t).Fits s.inner.generation
  fresh : s.inner.generation = 0 → s.inner.Fresh
  settled : s.inner.Settled
  inFlight : ∀ g, s.coord.inFlightGeneration = some g → g ≤ s.inner.generation
  done : ∀ g, s.coord.doneGeneration = some g → g ≤ s.inner.generation
  early : ∀ t, (s.pc t).early = true → s.coord.inFlightGeneration ≠ some s.inner.generation ∧
    s.coord.doneGeneration ≠ some s.inner.generation ∧
    ∀ u g, (s.pc u).workerGeneration = some g → g < s.inner.generation
  torn : s.coord.doneGeneration = some s.inner.generation → s.inner.Torn
  tore : ∀ t, (s.pc t).tore = some s.inner.generation → s.inner.Torn
  emptied : ∀ t, (s.pc t).emptied = some s.inner.generation → s.inner.session = none

theorem Inv.init : Inv State.init where
  born _ _ := rfl
  holder _ := nofun
  fits _ := trivial
  fresh _ := ⟨rfl, rfl, rfl⟩
  settled _ := rfl
  inFlight _ := nofun
  done _ := nofun
  early _ := nofun
  torn := nofun
  tore _ := nofun
  emptied _ := nofun

/-! ### What one section does -/

variable {s : State}

theorem Inv.flags (h : Inv s) (cancelPending : Option ℕ) (activeConnect : Option ActiveConnectState)
    (cancelFlag : ℕ → Option ℕ) : Inv { s with cancelPending, activeConnect, cancelFlag } :=
  ⟨h.born, h.holder, h.fits, h.fresh, h.settled, h.inFlight, h.done, h.early, h.torn, h.tore,
    h.emptied⟩

theorem Inv.inner (h : Inv s) {inner : SessionInner} (hk : s.inner.Kept inner) :
    Inv { s with inner } where
  born := h.born
  holder := h.holder
  fits := hk.generation ▸ h.fits
  fresh hzero := hk.fresh (hk.generation ▸ hzero) (h.fresh (hk.generation ▸ hzero))
  settled := hk.settled h.settled
  inFlight := hk.generation ▸ h.inFlight
  done := hk.generation ▸ h.done
  early := hk.generation ▸ h.early
  torn hdone := hk.torn (h.torn (hk.generation ▸ hdone))
  tore t ht := hk.torn (h.tore t (hk.generation ▸ ht))
  emptied t ht := hk.session (h.emptied t (hk.generation ▸ ht))

/-- A thread may go on to `pc`. -/
structure Moves (s : State) (t : ℕ) (pc : Pc) : Prop where
  born : s.pc t ≠ .unborn
  holds : pc.holds = true → s.queue.head? = some t
  fits : pc.Fits s.inner.generation
  early : pc.early = true → (s.pc t).early = true
  worker : ∀ g, pc.workerGeneration = some g → (s.pc t).workerGeneration = some g
  tore : pc.tore = some s.inner.generation → s.inner.Torn
  emptied : pc.emptied = some s.inner.generation → s.inner.session = none

theorem Inv.move (h : Inv s) (hm : Moves s t pc) : Inv (s.moveTo t pc) where
  born u hu := by
    rcases s.moveTo_cases t u pc with ⟨-, rfl⟩ | ⟨hpc, -⟩
    · exact absurd (h.born u hu) hm.born
    · rw [hpc]
      exact h.born u hu
  holder u hu := by
    rcases s.moveTo_cases t u pc with ⟨hpc, rfl⟩ | ⟨hpc, -⟩ <;> rw [hpc] at hu
    · exact hm.holds hu
    · exact h.holder u hu
  fits u := by
    rcases s.moveTo_cases t u pc with ⟨hpc, -⟩ | ⟨hpc, -⟩ <;> rw [hpc]
    · exact hm.fits
    · exact h.fits u
  fresh := h.fresh
  settled := h.settled
  inFlight := h.inFlight
  done := h.done
  early u hu := by
    have hearly : (s.pc u).early = true := by
      rcases s.moveTo_cases t u pc with ⟨hpc, rfl⟩ | ⟨hpc, -⟩ <;> rw [hpc] at hu
      · exact hm.early hu
      · exact hu
    obtain ⟨hinFlight, hdone, hworkers⟩ := h.early u hearly
    refine ⟨hinFlight, hdone, fun v g hv => ?_⟩
    rcases s.moveTo_cases t v pc with ⟨hpc, rfl⟩ | ⟨hpc, -⟩ <;> rw [hpc] at hv
    · exact hworkers v g (hm.worker g hv)
    · exact hworkers v g hv
  torn := h.torn
  tore u hu := by
    rcases s.moveTo_cases t u pc with ⟨hpc, -⟩ | ⟨hpc, -⟩ <;> rw [hpc] at hu
    · exact hm.tore hu
    · exact h.tore u hu
  emptied u hu := by
    rcases s.moveTo_cases t u pc with ⟨hpc, -⟩ | ⟨hpc, -⟩ <;> rw [hpc] at hu
    · exact hm.emptied hu
    · exact h.emptied u hu

theorem Inv.holder_unique (h : Inv s) {u : ℕ} (ht : (s.pc t).holds = true)
    (hu : (s.pc u).holds = true) : t = u :=
  Option.some.inj ((h.holder t ht).symm.trans (h.holder u hu))

theorem Inv.queue (h : Inv s) {queue : List ℕ}
    (hqueue : ∀ t, (s.pc t).holds = true → queue.head? = some t) : Inv { s with queue } :=
  ⟨h.born, hqueue, h.fits, h.fresh, h.settled, h.inFlight, h.done, h.early, h.torn, h.tore,
    h.emptied⟩

theorem Inv.enqueue (h : Inv s) (t : ℕ) : Inv { s with queue := s.queue ++ [t] } :=
  h.queue fun u hu => by rw [List.head?_append, h.holder u hu]; rfl

theorem Inv.unlock (h : Inv s) {outcome : Outcome} (hpc : s.pc t = .unlocking outcome) :
    Inv ({ s with queue := s.queue.tail }.moveTo t (.returned outcome)) := by
  have hm : Inv (s.moveTo t (.returned outcome)) := h.move
    { born := by rw [hpc]; nofun
      holds := nofun
      fits := trivial
      early := nofun
      worker := nofun
      tore := nofun
      emptied := nofun }
  refine hm.queue fun u hu => ?_
  rcases s.moveTo_cases t u (.returned outcome) with ⟨heq, -⟩ | ⟨heq, hne⟩ <;> rw [heq] at hu
  · cases hu
  · exact absurd (h.holder_unique hu (by rw [hpc]; rfl)) hne

theorem Inv.register (h : Inv s) {host : String} (hpc : s.pc t = .registering host) :
    Inv ({ s with inner := s.inner.register host }.moveTo t
      (.activating (s.inner.generation + 1))) := by
  have hholds : (s.pc t).holds = true := by rw [hpc]; rfl
  have hother : ∀ {u}, u ≠ t → (s.pc u).holds = false := fun hne =>
    Bool.eq_false_iff.mpr fun hu => hne (h.holder_unique hu hholds)
  have hborn : s.pc t ≠ .unborn := by rw [hpc]; nofun
  have hcases (u : ℕ) := State.moveTo_cases { s with inner := s.inner.register host } t u
    (.activating (s.inner.generation + 1))
  have hlt : ∀ {g}, g ≤ s.inner.generation → g ≠ s.inner.generation + 1 := fun hle heq =>
    absurd (heq ▸ hle) (Nat.not_succ_le_self _)
  exact
    { born := fun u hu => by
        rcases hcases u with ⟨-, rfl⟩ | ⟨heq, -⟩
        · exact absurd (h.born u hu) hborn
        · exact heq.trans (h.born u hu)
      holder := fun u hu => by
        rcases hcases u with ⟨-, rfl⟩ | ⟨heq, -⟩
        · exact h.holder u hholds
        · exact h.holder u (heq ▸ hu)
      fits := fun u => by
        rcases hcases u with ⟨heq, -⟩ | ⟨heq, hne⟩
        · exact heq.symm ▸ ⟨rfl, Nat.succ_pos _⟩
        · exact heq.symm ▸ (h.fits u).succ (hother hne)
      fresh := nofun
      settled := nofun
      inFlight := fun g hg => Nat.le_succ_of_le (h.inFlight g hg)
      done := fun g hg => Nat.le_succ_of_le (h.done g hg)
      early := fun u _ => by
        refine ⟨fun hg => hlt (h.inFlight _ hg) rfl, fun hg => hlt (h.done _ hg) rfl,
          fun v g hv => ?_⟩
        rcases hcases v with ⟨heq, -⟩ | ⟨heq, -⟩
        · rw [heq] at hv
          cases hv
        · exact Nat.lt_succ_of_le ((h.fits v).worker_le (heq ▸ hv))
      torn := fun hdone => absurd rfl (hlt (h.done _ hdone))
      tore := fun u hu => by
        rcases hcases u with ⟨heq, -⟩ | ⟨heq, -⟩
        · rw [heq] at hu
          cases hu
        · exact absurd rfl (hlt ((h.fits u).emptied_le (Pc.emptied_of_tore (heq ▸ hu))))
      emptied := fun u hu => by
        rcases hcases u with ⟨heq, -⟩ | ⟨heq, -⟩
        · rw [heq] at hu
          cases hu
        · exact absurd rfl (hlt ((h.fits u).emptied_le (heq ▸ hu))) }

theorem Inv.not_emptied (h : Inv s) (ht : (s.pc t).early = true) (u : ℕ) :
    (s.pc u).emptied ≠ some s.inner.generation := by
  intro hu
  rcases Pc.holds_or_worker hu with hholds | hworker
  · obtain rfl := h.holder_unique hholds (Pc.holds_of_early ht)
    exact Pc.not_emptied_of_early ht hu
  · exact absurd ((h.early t ht).2.2 u _ hworker) (Nat.lt_irrefl _)

theorem Inv.installed (h : Inv s) {generation : ℕ} (hpc : s.pc t = .installing generation) :
    Inv { s with inner := s.inner.install generation } := by
  have hearly : (s.pc t).early = true := by rw [hpc]; rfl
  have hfits := h.fits t
  rw [hpc] at hfits
  exact
    { born := h.born
      holder := h.holder
      fits := h.fits
      fresh := fun hzero => absurd hzero (Nat.pos_iff_ne_zero.mp hfits.2)
      settled := nofun
      inFlight := h.inFlight
      done := h.done
      early := h.early
      torn := fun hdone => absurd hdone (h.early t hearly).2.1
      tore := fun u hu => absurd (Pc.emptied_of_tore hu) (h.not_emptied hearly u)
      emptied := fun u hu => absurd hu (h.not_emptied hearly u) }

/-- A thread that is born knows nothing; a worker is born after the session is installed. -/
theorem Inv.spawn (h : Inv s) (hholds : pc.holds = false)
    (hfits : pc.Fits s.inner.generation) (hearly : pc.early = false)
    (hworker : ∀ g, pc.workerGeneration = some g → ∀ t, (s.pc t).early = false)
    (hemptied : pc.emptied = none) : Inv (s.spawn pc) := by
  have hcases (u : ℕ) := s.moveTo_cases s.calls u pc
  have htore : pc.tore = none := by
    rcases htore : pc.tore with - | g
    · rfl
    · rw [Pc.emptied_of_tore htore] at hemptied
      cases hemptied
  exact
    { born := fun u hu => by
        have hlt : s.calls < u := hu
        rcases hcases u with ⟨-, rfl⟩ | ⟨heq, -⟩
        · exact absurd hlt (Nat.lt_irrefl _)
        · exact heq.trans (h.born u (Nat.le_of_lt hlt))
      holder := fun u hu => by
        rcases hcases u with ⟨heq, -⟩ | ⟨heq, -⟩
        · rw [show (s.spawn pc).pc u = pc from heq, hholds] at hu
          cases hu
        · exact h.holder u (heq ▸ hu)
      fits := fun u => by
        rcases hcases u with ⟨heq, -⟩ | ⟨heq, -⟩
        · exact heq.symm ▸ hfits
        · exact heq.symm ▸ h.fits u
      fresh := h.fresh
      settled := h.settled
      inFlight := h.inFlight
      done := h.done
      early := fun u hu => by
        rcases hcases u with ⟨heq, -⟩ | ⟨heq, -⟩
        · rw [show (s.spawn pc).pc u = pc from heq, hearly] at hu
          cases hu
        · have hu : (s.pc u).early = true := heq ▸ hu
          obtain ⟨hinFlight, hdone, hworkers⟩ := h.early u hu
          refine ⟨hinFlight, hdone, fun v g hv => ?_⟩
          rcases hcases v with ⟨heq, -⟩ | ⟨heq, -⟩
          · have hnone := hworker g (heq ▸ hv) u
            rw [hu] at hnone
            cases hnone
          · exact hworkers v g (heq ▸ hv)
      torn := h.torn
      tore := fun u hu => by
        rcases hcases u with ⟨heq, -⟩ | ⟨heq, -⟩
        · rw [show (s.spawn pc).pc u = pc from heq, htore] at hu
          cases hu
        · exact h.tore u (heq ▸ hu)
      emptied := fun u hu => by
        rcases hcases u with ⟨heq, -⟩ | ⟨heq, -⟩
        · rw [show (s.spawn pc).pc u = pc from heq, hemptied] at hu
          cases hu
        · exact h.emptied u (heq ▸ hu) }

/-- The record of the teardowns may change, but not for the generation of an early connect. -/
theorem Inv.coord (h : Inv s) {coord : TeardownCoord}
    (hinFlight : ∀ g, coord.inFlightGeneration = some g → g ≤ s.inner.generation)
    (hdone : ∀ g, coord.doneGeneration = some g → g ≤ s.inner.generation)
    (hearly : ∀ t, (s.pc t).early = true → coord.inFlightGeneration ≠ some s.inner.generation ∧
      coord.doneGeneration ≠ some s.inner.generation)
    (htorn : coord.doneGeneration = some s.inner.generation → s.inner.Torn) :
    Inv { s with coord } where
  born := h.born
  holder := h.holder
  fits := h.fits
  fresh := h.fresh
  settled := h.settled
  inFlight := hinFlight
  done := hdone
  early t ht := ⟨(hearly t ht).1, (hearly t ht).2, (h.early t ht).2.2⟩
  torn := htorn
  tore := h.tore
  emptied := h.emptied

/-- An early connect, and a teardown of another thread: it is of an older generation. -/
theorem Inv.event_lt (h : Inv s) (u : ℕ) (caller : Caller) (event : Event)
    (ht : (s.pc t).early = true) (hu : (s.pc u).early = false)
    (hholds : (s.pc u).holds = caller.holds)
    (hworker : (s.pc u).workerGeneration = caller.workerGeneration event) :
    event.generation ≠ s.inner.generation := by
  rcases caller.holds_or_worker event with hcaller | hcaller
  · obtain rfl := h.holder_unique (hholds.trans hcaller) (Pc.holds_of_early ht)
    rw [ht] at hu
    cases hu
  · exact Nat.ne_of_lt ((h.early t ht).2.2 u _ (hworker.trans hcaller))

theorem Inv.claimed (h : Inv s) {event : Event}
    (hpc : s.pc t = .claiming caller event) : Inv { s with
      coord := { s.coord with inFlightGeneration := some event.generation } } := by
  have hfits := h.fits t
  rw [hpc] at hfits
  refine h.coord (fun g hg => Option.some.inj hg ▸ Caller.Fits.le hfits) h.done (fun u hu => ?_)
    h.torn
  refine ⟨fun heq => ?_, (h.early u hu).2.1⟩
  exact h.event_lt t caller event hu (by rw [hpc]; rfl)
    (by rw [hpc]; rfl) (by rw [hpc]; rfl) (Option.some.inj heq)

theorem Inv.recorded (h : Inv s) {event : Event}
    {result : Except String Unit} {applied : Bool}
    (hpc : s.pc t = .recording caller event result applied) :
    Inv { s with coord := s.coord.record event result applied } := by
  have hfits := h.fits t
  rw [hpc] at hfits
  cases applied with
  | false =>
    exact h.coord nofun h.done (fun u hu => ⟨nofun, (h.early u hu).2.1⟩) h.torn
  | true =>
    refine h.coord nofun (fun g hg => Option.some.inj hg ▸ hfits.1.le)
      (fun u hu => ⟨nofun, fun heq => ?_⟩) fun heq => ?_
    · exact h.event_lt t caller event hu (by rw [hpc]; rfl)
        (by rw [hpc]; rfl) (by rw [hpc]; rfl) (Option.some.inj heq)
    · exact h.tore t (by rw [hpc]; exact heq)

/-! ### The steps of a teardown -/

theorem Inv.plain (h : Inv s) {pc' : Pc} (hpc : s.pc t = pc) (hborn : pc ≠ .unborn)
    (hholds : pc'.holds = true → pc.holds = true ∨ s.queue.head? = some t)
    (hfits : pc'.Fits s.inner.generation) (hearly : pc'.early = true → pc.early = true)
    (hworker : pc'.workerGeneration = none) (hemptied : pc'.emptied = none) :
    Inv (s.moveTo t pc') := by
  subst hpc
  refine h.move ⟨hborn, fun hh => (hholds hh).elim (h.holder t) id, hfits, hearly, fun g hg => ?_,
    fun htore => ?_, fun hg => ?_⟩
  · rw [hworker] at hg
    cases hg
  · rw [Pc.emptied_of_tore htore] at hemptied
    cases hemptied
  · rw [hemptied] at hg
    cases hg

theorem Inv.back (h : Inv s) {event : Event}
    (hpc : s.pc t = pc) (hborn : pc ≠ .unborn) (hholds : pc.holds = caller.holds)
    (hfits : caller.Fits s.inner.generation event) (result : Except String Unit) :
    Inv (s.moveTo t (caller.back result)) := by
  cases caller with
  | disconnect | connect _ =>
    cases result <;> exact h.plain hpc hborn (fun _ => Or.inl hholds) trivial nofun rfl rfl
  | failing _ _ => exact h.plain hpc hborn (fun _ => Or.inl hholds) hfits.2.2 nofun rfl rfl
  | worker => exact h.plain hpc hborn nofun trivial nofun rfl rfl

theorem Inv.claim (h : Inv s) {event : Event}
    (hpc : s.pc t = .claiming caller event) : Inv (s.claim t caller event) := by
  have hfits := h.fits t
  rw [hpc] at hfits
  unfold State.claim
  split
  · exact h.back hpc nofun rfl hfits _
  split
  · split
    · exact h.back hpc nofun rfl hfits _
    · have hkept := s.inner.reapIdle_kept event.generation event.target
      exact (h.inner hkept).back hpc nofun rfl (hkept.generation.symm ▸ hfits) _
  · refine (h.claimed hpc).move
      { born := by rw [hpc]; nofun
        holds := fun hh => h.holder t (by rw [hpc]; exact hh)
        fits := hfits
        early := nofun
        worker := fun g hg => by rw [hpc]; exact hg
        tore := nofun
        emptied := nofun }

theorem Inv.tear (h : Inv s) {event : Event}
    (hpc : s.pc t = .tearing caller event) : Inv (s.tear t caller event) := by
  have hfits : caller.Fits s.inner.generation event := by
    have hfits := h.fits t
    rwa [hpc] at hfits
  have hborn : s.pc t ≠ .unborn := by rw [hpc]; nofun
  have hholds : (s.pc t).holds = caller.holds := by rw [hpc]; rfl
  have hworker : (s.pc t).workerGeneration = caller.workerGeneration event := by rw [hpc]; rfl
  unfold State.tear
  rcases s.inner.beginTeardown_cases event.generation event.target event.reason with
    ⟨hstale, heq⟩ | ⟨hgeneration, hnot, heq⟩ | htears
  · rw [heq]
    exact h.move
      { born := hborn
        holds := fun hh => h.holder t (hholds.trans hh)
        fits := ⟨hfits, fun _ => hstale.symm⟩
        early := nofun
        worker := fun g hg => hworker.trans hg
        tore := nofun
        emptied := nofun }
  · rw [heq]
    have htorn := SessionInner.torn_of_not_tearsDown h.settled hgeneration hnot
    exact h.move
      { born := hborn
        holds := fun hh => h.holder t (hholds.trans hh)
        fits := ⟨hfits, nofun⟩
        early := nofun
        worker := fun g hg => hworker.trans hg
        tore := fun _ => htorn
        emptied := fun _ => htorn.session }
  · have hkept : s.inner.Kept _ :=
      SessionInner.beginTeardown_kept event.generation event.reason hfits.target
    have htorn := SessionInner.beginTeardown_torn htears event.reason hfits.target
    have hpos : 0 < event.generation := by
      rw [← htears.1]
      exact Nat.pos_of_ne_zero fun hzero => (h.fresh hzero).not_tearsDown _ _ htears
    rw [SessionInner.beginTeardown_of_tearsDown htears] at hkept htorn ⊢
    exact (h.inner hkept).move
      { born := hborn
        holds := fun hh => h.holder t (hholds.trans hh)
        fits := ⟨hfits, hpos⟩
        early := nofun
        worker := fun g hg => hworker.trans hg
        tore := fun htore => htorn (Option.ite_none_left_eq_some.mp htore).1
        emptied := fun _ => rfl }

theorem Inv.cleaned (h : Inv s) {event : Event}
    {found : ConnectionState} {session : Option ℕ} {runtime : Bool} {handles : List ℕ}
    (hpc : s.pc t = .cleaning caller event found session runtime handles) (errors : List String) :
    Inv (s.moveTo t (cleaned caller event found errors)) := by
  have hfits : caller.Fits s.inner.generation event ∧ 0 < event.generation := by
    have hfits := h.fits t
    rwa [hpc] at hfits
  have hemptied : event.generation = s.inner.generation → s.inner.session = none := fun heq =>
    h.emptied t (by rw [hpc]; exact congrArg some heq)
  have htore : event.target ≠ .idle → event.generation = s.inner.generation → s.inner.Torn :=
    fun htarget heq => h.tore t (by rw [hpc, Pc.tore, if_neg htarget, heq])
  have hborn : s.pc t ≠ .unborn := by rw [hpc]; nofun
  have hholds : (s.pc t).holds = caller.holds := by rw [hpc]; rfl
  have hworker : (s.pc t).workerGeneration = caller.workerGeneration event := by rw [hpc]; rfl
  unfold Lifecycle.cleaned
  split
  · exact h.move
      { born := hborn
        holds := fun hh => h.holder t (hholds.trans hh)
        fits := hfits
        early := nofun
        worker := fun g hg => hworker.trans hg
        tore := fun heq => htore (Option.ite_none_left_eq_some.mp heq).1
          (Option.some.inj (Option.ite_none_left_eq_some.mp heq).2)
        emptied := fun heq => hemptied (Option.some.inj heq) }
  split
  next htarget =>
    exact h.move
      { born := hborn
        holds := fun hh => h.holder t (hholds.trans hh)
        fits := ⟨hfits.1, htarget⟩
        early := nofun
        worker := fun g hg => hworker.trans hg
        tore := nofun
        emptied := fun heq => hemptied (Option.some.inj heq) }
  next htarget =>
    exact h.move
      { born := hborn
        holds := fun hh => h.holder t (hholds.trans hh)
        fits := ⟨hfits.1, nofun⟩
        early := nofun
        worker := fun g hg => hworker.trans hg
        tore := fun heq => htore htarget (Option.some.inj heq)
        emptied := fun heq => hemptied (Option.some.inj heq) }

theorem Inv.failed (h : Inv s) {event : Event}
    {found : ConnectionState} {summary : String}
    (hpc : s.pc t = .failing caller event found summary) :
    Inv ({ s with inner := s.inner.failCleanup summary }.moveTo t
      (.recording caller event (.error summary) true)) := by
  have hfits : caller.Fits s.inner.generation event ∧ 0 < event.generation := by
    have hfits := h.fits t
    rwa [hpc] at hfits
  have hpos : s.inner.generation ≠ 0 :=
    Nat.pos_iff_ne_zero.mp (Nat.lt_of_lt_of_le hfits.2 hfits.1.le)
  have hsession : event.generation = s.inner.generation → s.inner.session = none := fun heq =>
    h.emptied t (by rw [hpc]; exact congrArg some heq)
  exact (h.inner (SessionInner.failCleanup_kept hpos summary)).move
    { born := by rw [hpc]; nofun
      holds := fun hh => h.holder t (by rw [hpc]; exact hh)
      fits := ⟨hfits.1, nofun⟩
      early := nofun
      worker := fun g hg => by rw [hpc]; exact hg
      tore := fun heq => ⟨hsession (Option.some.inj heq), nofun⟩
      emptied := fun heq => hsession (Option.some.inj heq) }

theorem Inv.settle (h : Inv s) {event : Event}
    (hpc : s.pc t = .settling caller event) :
    Inv ({ s with inner := s.inner.settle }.moveTo t
      (.recording caller event (.ok ()) true)) := by
  have hfits := h.fits t
  rw [hpc] at hfits
  exact (h.inner s.inner.settle_kept).move
    { born := by rw [hpc]; nofun
      holds := fun hh => h.holder t (by rw [hpc]; exact hh)
      fits := ⟨hfits.1, nofun⟩
      early := nofun
      worker := fun g hg => by rw [hpc]; exact hg
      tore := fun _ => s.inner.settle_torn
      emptied := fun _ => rfl }

/-! ### Every step -/

theorem Inv.go (h : Inv s) (hstep : Lifecycle.go s t (s.pc t) = some s') :
    Inv s' := by
  have hfits := h.fits t
  generalize hpc : s.pc t = pc at hstep hfits
  cases pc with
  | cancelling =>
    cases hstep
    exact (h.flags _ _ _).plain hpc nofun nofun trivial nofun rfl rfl
  | taking =>
    simp only [Lifecycle.go] at hstep
    split at hstep <;> cases hstep
    · exact (h.flags _ _ _).plain hpc nofun nofun trivial nofun rfl rfl
    · exact h.plain hpc nofun nofun trivial nofun rfl rfl
  | signalling connect =>
    cases hstep
    exact (h.flags _ _ _).plain hpc nofun nofun trivial nofun rfl rfl
  | queueing call =>
    cases hstep
    exact (h.enqueue t).plain hpc nofun nofun trivial nofun rfl rfl
  | waiting call =>
    simp only [Lifecycle.go, Option.ite_none_right_eq_some] at hstep
    obtain ⟨hhead, hstep⟩ := hstep
    cases hstep
    cases call <;> exact h.plain hpc nofun (fun _ => Or.inr hhead) trivial nofun rfl rfl
  | unlocking outcome =>
    cases hstep
    exact h.unlock hpc
  | clearing caller =>
    cases hstep
    exact (h.flags _ _ _).plain hpc nofun Or.inl hfits nofun rfl rfl
  | reading caller =>
    cases hstep
    cases caller with
    | disconnect | connect _ => exact h.plain hpc nofun Or.inl ⟨rfl, rfl⟩ nofun rfl rfl
    | failing _ _ =>
      exact h.plain hpc nofun Or.inl ⟨Or.inl rfl, rfl, hfits.1, hfits.2⟩ nofun rfl rfl
    | worker => cases hfits
  | claiming caller event =>
    cases hstep
    exact h.claim hpc
  | tearing caller event =>
    cases hstep
    exact h.tear hpc
  | failing caller event found summary =>
    cases hstep
    exact h.failed hpc
  | settling caller event =>
    cases hstep
    exact h.settle hpc
  | recording caller event result applied =>
    cases hstep
    exact (h.recorded hpc).back hpc nofun rfl hfits.1 result
  | arriving host =>
    simp only [Lifecycle.go] at hstep
    split at hstep <;> cases hstep
    · exact (h.flags _ _ _).plain hpc nofun nofun trivial nofun rfl rfl
    · exact h.plain hpc nofun nofun trivial nofun rfl rfl
  | entering host =>
    simp only [Lifecycle.go] at hstep
    split at hstep <;> cases hstep
    · exact (h.flags _ _ _).plain hpc nofun Or.inl trivial nofun rfl rfl
    · exact h.plain hpc nofun Or.inl trivial nofun rfl rfl
  | proceeding host =>
    simp only [Lifecycle.go] at hstep
    split at hstep <;> cases hstep
    · exact (h.flags _ _ _).plain hpc nofun Or.inl trivial nofun rfl rfl
    · exact h.plain hpc nofun Or.inl trivial nofun rfl rfl
  | registering host =>
    cases hstep
    exact h.register hpc
  | activating generation =>
    cases hstep
    exact (h.flags _ _ _).plain hpc nofun Or.inl hfits id rfl rfl
  | checking generation next =>
    simp only [Lifecycle.go] at hstep
    split at hstep <;> cases hstep
    · exact h.plain hpc nofun Or.inl hfits nofun rfl rfl
    · exact h.plain hpc nofun Or.inl hfits id rfl rfl
  | checkingPending generation next =>
    simp only [Lifecycle.go] at hstep
    split at hstep <;> cases hstep
    · exact h.plain hpc nofun Or.inl hfits nofun rfl rfl
    · cases next <;> exact h.plain hpc nofun Or.inl hfits id rfl rfl
  | attempting generation attempt =>
    cases hstep
    exact h.plain hpc nofun Or.inl hfits id rfl rfl
  | refusing generation e cleans =>
    cases hstep
    have hkept := SessionInner.setError_kept (Nat.pos_iff_ne_zero.mp hfits.2) generation e
    rw [← hkept.generation] at hfits
    cases cleans with
    | true => exact (h.inner hkept).plain hpc nofun Or.inl hfits nofun rfl rfl
    | false => exact (h.inner hkept).plain hpc nofun Or.inl hfits nofun rfl rfl
  | confirming generation =>
    simp only [Lifecycle.go] at hstep
    split at hstep <;> cases hstep
    · exact h.plain hpc nofun Or.inl hfits nofun rfl rfl
    · exact h.plain hpc nofun Or.inl hfits id rfl rfl
  | installing generation =>
    cases hstep
    unfold State.install
    split
    · exact h.plain hpc nofun Or.inl hfits nofun rfl rfl
    split
    · exact h.plain hpc nofun Or.inl hfits nofun rfl rfl
    · exact (h.installed hpc).plain hpc nofun Or.inl hfits nofun rfl rfl
  | spawning generation worker =>
    cases hstep
    have hne : t ≠ s.calls := by
      intro heq
      have hunborn := h.born t (Nat.le_of_eq heq.symm)
      rw [hpc] at hunborn
      cases hunborn
    have hlate : ∀ u, (s.pc u).early = false := fun u => Bool.eq_false_iff.mpr fun hu => by
      obtain rfl := h.holder_unique (Pc.holds_of_early hu) (by rw [hpc]; rfl)
      rw [hpc] at hu
      cases hu
    have hspawn : Inv (s.spawn (.running generation worker)) :=
      h.spawn rfl ⟨hfits.1.symm ▸ hfits.2, Nat.le_of_eq hfits.1⟩ rfl (fun _ _ => hlate) rfl
    exact hspawn.plain ((State.moveTo_pc_of_ne hne _).trans hpc) nofun Or.inl hfits nofun rfl rfl
  | pushing generation worker handle =>
    cases hstep
    have hkept := SessionInner.pushWorker_kept (Nat.pos_iff_ne_zero.mp hfits.2) handle
    cases worker <;> exact (h.inner hkept).plain hpc nofun Or.inl hfits nofun rfl rfl
  | starting generation =>
    cases hstep
    exact h.plain hpc nofun Or.inl hfits nofun rfl rfl
  | finishing generation =>
    cases hstep
    exact h.plain hpc nofun Or.inl hfits nofun rfl rfl
  | leaving generation outcome =>
    cases hstep
    exact (h.flags _ _ _).plain hpc nofun Or.inl trivial nofun rfl rfl
  | unborn | returned _ | cleaning _ _ _ _ _ _ | running _ _ | ended => cases hstep

theorem Inv.fail (h : Inv s) {e : String} {cleans : Bool}
    (hstep : Lifecycle.fail s t e cleans (s.pc t) = some s') : Inv s' := by
  have hfits := h.fits t
  generalize hpc : s.pc t = pc at hstep hfits
  cases pc with
  | attempting generation attempt =>
    cases attempt <;> cases hstep <;> exact h.plain hpc nofun Or.inl hfits id rfl rfl
  | spawning generation worker =>
    cases hstep
    exact h.plain hpc nofun Or.inl ⟨Or.inr rfl, hfits.1, hfits.1, hfits.2⟩ nofun rfl rfl
  | starting generation =>
    cases hstep
    exact h.plain hpc nofun Or.inl ⟨Or.inr rfl, hfits.1, hfits.1, hfits.2⟩ nofun rfl rfl
  | _ => cases hstep

theorem Inv.step (h : Inv s) {label : Label}
    (hstep : Lifecycle.step s label = some s') : Inv s' := by
  cases label with
  | connect host =>
    cases hstep
    exact h.spawn rfl trivial rfl nofun rfl
  | disconnect =>
    cases hstep
    exact h.spawn rfl trivial rfl nofun rfl
  | go t => exact h.go hstep
  | fail t e cleans => exact h.fail hstep
  | cleanup t disconnect stop panics =>
    simp only [Lifecycle.step] at hstep
    split at hstep
    next hpc =>
      rw [Option.ite_none_right_eq_some] at hstep
      cases hstep.2
      exact h.cleaned hpc _
    · cases hstep
  | terminate t reason =>
    simp only [Lifecycle.step] at hstep
    split at hstep
    next generation worker hpc =>
      cases hstep
      have hfits := h.fits t
      rw [hpc] at hfits
      exact h.move
        { born := by rw [hpc]; nofun
          holds := nofun
          fits := ⟨worker.target_eq, hfits.1, hfits.2⟩
          early := nofun
          worker := fun g hg => by rw [hpc]; exact hg
          tore := nofun
          emptied := nofun }
    · cases hstep
  | exit t =>
    simp only [Lifecycle.step] at hstep
    split at hstep
    next hpc =>
      cases hstep
      exact h.plain hpc nofun nofun trivial nofun rfl rfl
    · cases hstep

end Lifecycle

end MahoRD.Ios

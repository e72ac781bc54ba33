/-
MahoRD/Host/Watchdog.lean

The media pipelines of a session, its thread and its watchdog (`serve_connection` and
`handle_connection` in `maho-host/src/session.rs`).  The thread publishes a pipeline that it has
started in the slot that it shares with the watchdog; until then the pipeline is on its stack
only.  Any of its calls into a pipeline, a source or the socket may never return.

The watchdog acts once: it takes what is in the slot and stops it.

A handle that is dropped stops its pipeline.
-/
import MahoRD.Lib.Machine

namespace MahoRD.Watchdog

/-! ### The thread of a session -/

/-- Why a pipeline is started. -/
inductive Path
  | handshake | hotplug | options
  deriving DecidableEq

/-- Where the thread is, with the handles on its stack.  In `stoppingOld` the old pipeline is out
of the slot; a new one, if it is not in the slot, is on the stack.  `forcing` is any call into the
pipeline in the slot: for a key frame, or for another bitrate. -/
inductive Pc
  | connecting
  | serving
  | sending (authenticated : Bool)
  | starting (path : Path)
  | started (path : Path) (new : ℕ)
  | publishing (path : Path) (new : ℕ)
  | stoppingOld (new : Option ℕ) (old : ℕ)
  | forcingNew (new : ℕ)
  | forcing
  | dropping (new : ℕ)
  | tearingDown
  | stopping (last : ℕ)
  | returned
  deriving DecidableEq

namespace Pc

/-- The thread is in a call that may never return. -/
def blocking : Pc → Bool
  | sending _ | starting _ | stoppingOld _ _ | forcingNew _ | forcing | dropping _ | stopping _ =>
    true
  | connecting | serving | started _ _ | publishing _ _ | tearingDown | returned => false

/-- The slot is locked. -/
def locks : Pc → Bool
  | forcing | stopping _ => true
  | _ => false

/-- The pipeline whose `stop` the thread is in. -/
def stops : Pc → Option ℕ
  | stoppingOld _ old => some old
  | dropping new => some new
  | stopping last => some last
  | _ => none

/-- The pipeline on the stack that is not being stopped. -/
def unpublished : Pc → Option ℕ
  | started _ new | publishing _ new | forcingNew new => some new
  | stoppingOld new _ => new
  | _ => none

end Pc

/-! ### The machine -/

inductive Watch
  | watching
  | sweeping
  | stopping (pipeline : ℕ)
  | done
  deriving DecidableEq

/-- The watchdog has looked into the slot. -/
def Watch.swept : Watch → Bool
  | stopping _ | done => true
  | watching | sweeping => false

/-- The watchdog has taken a pipeline and stops it. -/
def Watch.busy : Watch → Bool
  | stopping _ => true
  | watching | sweeping | done => false

/-- `started` counts the pipelines.  `blocked`, `hung`: the call in which the thread, or the
watchdog, is does not return. -/
structure State where
  pc : Pc
  blocked : Bool
  slot : Option ℕ
  started : ℕ
  stopped : List ℕ
  aborted : Bool
  watch : Watch
  hung : Bool

def State.init : State := ⟨.connecting, false, none, 0, [], false, .watching, false⟩

/-- `ok`: the call succeeds. -/
inductive Action
  | start (path : Path)
  | started (ok : Bool)
  | handOver (ok : Bool)
  | take
  | stopped
  | force
  | forced (ok : Bool)
  | publish
  | send
  | sent (ok : Bool)
  | leave
  | tearDown
  deriving DecidableEq

inductive Label
  | thread (action : Action)
  | hang
  | abort
  | sweep
  | swept
  | hangSweep

/-- A pipeline goes into an empty slot; on a hotplug one may be there, and is stopped then. -/
def publish (s : State) (path : Path) (new : ℕ) : State :=
  match path, s.slot with
  | .hotplug, some old => { s with pc := .stoppingOld none old, slot := some new }
  | _, _ => { s with pc := .serving, slot := some new }

def act (s : State) (action : Action) : Option State :=
  match s.pc, action with
  | .connecting, .start .handshake => some { s with pc := .starting .handshake }
  | .serving, .start .hotplug => some { s with pc := .starting .hotplug }
  | .serving, .start .options => some { s with pc := .starting .options }
  | .starting path, .started true =>
    some { s with pc := .started path s.started, started := s.started + 1 }
  -- a request for other stream options is rejected
  | .starting .options, .started false => some { s with pc := .serving }
  | .starting _, .started false => some { s with pc := .tearingDown }
  | .started .handshake new, .publish => some (publish s .handshake new)
  | .started .hotplug new, .handOver true => some { s with pc := .publishing .hotplug new }
  | .started .hotplug new, .handOver false => some { s with pc := .dropping new }
  | .started .options new, .take =>
    match s.slot with
    | some old => some { s with pc := .stoppingOld (some new) old, slot := none }
    | none => some { s with pc := .forcingNew new }
  | .stoppingOld new old, .stopped => some { s with
      pc := match new with
        | some new => .forcingNew new
        | none => .serving
      stopped := old :: s.stopped }
  | .forcingNew new, .forced _ => some { s with pc := .publishing .options new }
  | .publishing path new, .publish => some (publish s path new)
  | .serving, .force => if s.slot.isSome then some { s with pc := .forcing } else some s
  | .forcing, .forced ok => some { s with pc := if ok then .serving else .tearingDown }
  | .dropping new, .stopped =>
    some { s with pc := .tearingDown, stopped := new :: s.stopped }
  | .connecting, .send => some { s with pc := .sending false }
  | .serving, .send => some { s with pc := .sending true }
  | .sending authenticated, .sent ok => some { s with
      pc := if !ok then .tearingDown else if authenticated then .serving else .connecting }
  | .connecting, .leave | .serving, .leave => some { s with pc := .tearingDown }
  | .tearingDown, .tearDown =>
    match s.slot with
    | some last => some { s with pc := .stopping last, slot := none }
    | none => some { s with pc := .returned }
  | .stopping last, .stopped => some { s with pc := .returned, stopped := last :: s.stopped }
  | _, _ => none

def step (s : State) : Label → Option State
  | .thread action => if s.blocked then none else act s action
  | .hang => if s.pc.blocking ∧ ¬ s.blocked then some { s with blocked := true } else none
  | .abort =>
    if s.watch = .watching then some { s with aborted := true, watch := .sweeping } else none
  | .sweep =>
    if s.watch = .sweeping ∧ ¬ s.pc.locks then
      match s.slot with
      | some pipeline => some { s with slot := none, watch := .stopping pipeline }
      | none => some { s with watch := .done }
    else none
  | .swept =>
    match s.watch with
    | .stopping pipeline =>
      if s.hung then none
      else some { s with watch := .done, stopped := pipeline :: s.stopped }
    | _ => none
  | .hangSweep =>
    match s.watch with
    | .stopping _ => some { s with hung := true }
    | _ => none

/-! ### The invariant -/

/-- The pipeline was started and is not stopped. -/
def State.Running (s : State) (p : ℕ) : Prop := p < s.started ∧ p ∉ s.stopped

instance (s : State) (p : ℕ) : Decidable (s.Running p) :=
  inferInstanceAs (Decidable (_ ∧ _))

/-- The slot is empty where the thread is about to fill it, and where it is done with it. -/
def Pc.empty : Pc → Bool
  | connecting | sending false | starting .handshake | started .handshake _
  | stoppingOld (some _) _ | forcingNew _ | publishing .handshake _ | publishing .options _
  | stopping _ | returned => true
  | _ => false

theorem Pc.empty_started (path : Path) (new : ℕ) :
    (started path new).empty = (starting path).empty := by
  cases path <;> rfl

theorem Pc.empty_publishing {path : Path} (new : ℕ) (hpath : path ≠ .hotplug) :
    (publishing path new).empty = true := by
  cases path with
  | handshake | options => rfl
  | hotplug => exact absurd rfl hpath

/-- A running pipeline is in the slot, on the stack of the thread, or with the watchdog. -/
structure Inv (s : State) : Prop where
  located : ∀ p, s.Running p → s.slot = some p ∨ s.pc.unpublished = some p ∨
    s.pc.stops = some p ∨ s.watch = .stopping p
  empty : s.pc.empty = true → s.slot = none
  blocked : s.blocked = true → s.pc.unpublished = none ∧ s.pc ≠ .forcing ∧
    (s.watch.swept = true → s.slot = none)
  returned : s.pc = .returned → s.watch.busy = false
  aborted : s.aborted = true → s.watch ≠ .watching

/-- A call that never returns is made with no other pipeline on the stack, with the slot unlocked
(but by the teardown), and, once the watchdog has looked into the slot, with nothing in it.  The
connection ends while the watchdog is not stopping a pipeline. -/
def Timely (s : State) : Label → Prop
  | .hang => s.pc.unpublished = none ∧ s.pc ≠ .forcing ∧ (s.watch.swept = true → s.slot = none)
  | .thread .tearDown => s.slot = none → s.watch.busy = false
  -- the teardown alone stops a pipeline with the slot locked
  | .thread .stopped => s.pc.locks = true → s.watch.busy = false
  | _ => True

instance (s : State) : ∀ label, Decidable (Timely s label)
  | .hang => inferInstanceAs (Decidable (_ ∧ _ ∧ (_ → _)))
  | .thread .tearDown | .thread .stopped => inferInstanceAs (Decidable (_ → _))
  | .thread (.start _) | .thread (.started _) | .thread (.handOver _) | .thread .take
  | .thread .force | .thread (.forced _) | .thread .publish | .thread .send | .thread (.sent _)
  | .thread .leave | .abort | .sweep | .swept | .hangSweep => isTrue trivial

theorem Inv.start : Inv State.init where
  located p h := absurd h.1 (Nat.not_lt_zero p)
  empty _ := rfl
  blocked h := by cases h
  returned h := by cases h
  aborted h := by cases h

theorem publish_cases (s : State) (path : Path) (new : ℕ) :
    (∃ old, s.slot = some old ∧
      publish s path new = { s with pc := .stoppingOld none old, slot := some new }) ∨
    ((path = .hotplug → s.slot = none) ∧
      publish s path new = { s with pc := .serving, slot := some new }) := by
  unfold publish
  split
  · exact .inl ⟨_, ‹_›, rfl⟩
  · rename_i hnone
    exact .inr ⟨fun hpath => Option.eq_none_iff_forall_ne_some.mpr fun old hold =>
      hnone old hpath hold, rfl⟩

variable {s s' : State}

theorem act_watch {action : Action} (hact : act s action = some s') :
    s'.watch = s.watch ∧ s'.aborted = s.aborted ∧ s'.blocked = s.blocked := by
  have hpublish := publish_cases s
  unfold act at hact
  split at hact <;> grind

theorem act_empty {action : Action} (h : Inv s)
    (hact : act s action = some s') (hempty : s'.pc.empty = true) : s'.slot = none := by
  have hbefore := h.empty
  have hpublish := publish_cases s
  unfold act at hact
  split at hact <;> grind [Pc.empty, Pc.empty_started]

/-- A pipeline that the thread takes out of the slot, or has started, is on its stack. -/
theorem act_located {action : Action} (h : Inv s)
    (hact : act s action = some s') {p : ℕ} (hp : s'.Running p) :
    s'.slot = some p ∨ s'.pc.unpublished = some p ∨ s'.pc.stops = some p ∨
      s'.watch = .stopping p := by
  have hbefore := h.located p
  have hempty := h.empty
  unfold State.Running at hp hbefore
  have hpublish := publish_cases s
  unfold act at hact
  split at hact <;> grind [Pc.empty, Pc.empty_publishing, Pc.unpublished, Pc.stops]

theorem act_returned {action : Action} (h : Inv s)
    (htimely : Timely s (.thread action)) (hact : act s action = some s')
    (hpc : s'.pc = .returned) : s.watch.busy = false := by
  have hbefore := h.returned
  have hpublish := publish_cases s
  have htear : action = .tearDown → s.slot = none → s.watch.busy = false := by
    rintro rfl
    exact htimely
  have hstopped : action = .stopped → s.pc.locks = true → s.watch.busy = false := by
    rintro rfl
    exact htimely
  unfold act at hact
  split at hact <;> grind [Pc.locks]

theorem Inv.act {action : Action} (h : Inv s) (hblocked : s.blocked = false)
    (htimely : Timely s (.thread action)) (hact : act s action = some s') : Inv s' := by
  obtain ⟨hwatch, haborted, hkept⟩ := act_watch hact
  constructor
  · intro p hp
    exact act_located h hact hp
  · exact act_empty h hact
  · intro htrue
    rw [hkept, hblocked] at htrue
    cases htrue
  · intro hpc
    rw [hwatch]
    exact act_returned h htimely hact hpc
  · rw [hwatch, haborted]
    exact h.aborted

theorem Inv.step {label : Label} (h : Inv s) (htimely : Timely s label)
    (hstep : step s label = some s') : Inv s' := by
  have hlocated := h.located
  have hempty := h.empty
  have hblocked := h.blocked
  have hreturned := h.returned
  have haborted := h.aborted
  cases label with
  | thread action =>
    simp only [Watchdog.step] at hstep
    split at hstep
    · cases hstep
    · exact h.act (Bool.eq_false_iff.mpr ‹_›) htimely hstep
  | hang =>
    simp only [Watchdog.step] at hstep
    split at hstep <;> cases hstep
    exact ⟨hlocated, hempty, fun _ => htimely, hreturned, haborted⟩
  | abort =>
    simp only [Watchdog.step] at hstep
    split at hstep <;> cases hstep
    rename_i hwatching
    refine ⟨fun p hp => ?_, hempty, fun htrue => ?_, fun _ => rfl, nofun⟩
    · simpa [hwatching] using hlocated p hp
    · obtain ⟨hnone, hpc, -⟩ := hblocked htrue
      exact ⟨hnone, hpc, nofun⟩
  | sweep =>
    simp only [Watchdog.step] at hstep
    split at hstep
    · split at hstep <;> cases hstep
      · -- the pipeline goes from the slot to the watchdog
        constructor <;> grind [State.Running, Pc.empty, Watch.busy]
      · constructor <;> grind [State.Running, Pc.empty, Watch.busy]
    · cases hstep
  | swept =>
    simp only [Watchdog.step] at hstep
    split at hstep
    · split at hstep <;> cases hstep
      constructor <;> grind [State.Running, Pc.empty, Watch.swept, Watch.busy]
    · cases hstep
  | hangSweep =>
    simp only [Watchdog.step] at hstep
    split at hstep <;> cases hstep
    exact ⟨hlocated, hempty, hblocked, hreturned, haborted⟩

/-! ### What is left running -/

/-- Nothing more happens: the thread has returned or is in a call that never returns, and the
watchdog is through, or in a `stop` that never returns. -/
def Stuck (s : State) : Prop := ∀ label s', step s label = some s' → s' = s

theorem act_enabled (hpc : s.pc ≠ .returned) :
    ∃ action s', act s action = some s' ∧ s'.pc ≠ s.pc := by
  obtain ⟨pc, blocked, slot, started, stopped, aborted, watch, hung⟩ := s
  cases pc with
  | connecting => exact ⟨.leave, _, rfl, nofun⟩
  | serving => exact ⟨.leave, _, rfl, nofun⟩
  | sending authenticated => exact ⟨.sent false, _, rfl, nofun⟩
  | starting path => exact ⟨.started true, _, rfl, nofun⟩
  | started path new =>
    cases path with
    | handshake => exact ⟨.publish, _, rfl, by cases slot <;> nofun⟩
    | hotplug => exact ⟨.handOver true, _, rfl, nofun⟩
    | options => cases slot <;> exact ⟨.take, _, rfl, nofun⟩
  | publishing path new => exact ⟨.publish, _, rfl, by cases path <;> cases slot <;> nofun⟩
  | stoppingOld new old => exact ⟨.stopped, _, rfl, by cases new <;> nofun⟩
  | forcingNew new => exact ⟨.forced true, _, rfl, nofun⟩
  | forcing => exact ⟨.forced true, _, rfl, nofun⟩
  | dropping new => exact ⟨.stopped, _, rfl, nofun⟩
  | tearingDown => cases slot <;> exact ⟨.tearDown, _, rfl, nofun⟩
  | stopping last => exact ⟨.stopped, _, rfl, nofun⟩
  | returned => exact absurd rfl hpc

theorem Stuck.thread (h : Stuck s) : s.blocked = true ∨ s.pc = .returned := by
  by_contra hnot
  obtain ⟨hblocked, hpc⟩ := not_or.mp hnot
  obtain ⟨action, s', hact, hne⟩ := act_enabled hpc
  have hs' : s' = s := h (.thread action) s' (by rw [step, if_neg hblocked, hact])
  exact hne (congrArg State.pc hs')

theorem sweep_enabled (hwatch : s.watch = .sweeping) (hlocks : ¬ s.pc.locks = true) :
    ∃ s', step s .sweep = some s' ∧ s'.watch ≠ .sweeping := by
  cases hslot : s.slot with
  | none => exact ⟨{ s with watch := .done }, by simp [step, hwatch, hlocks, hslot], nofun⟩
  | some p =>
    exact ⟨{ s with slot := none, watch := .stopping p }, by simp [step, hwatch, hlocks, hslot],
      nofun⟩

theorem Stuck.watch (h : Stuck s) (haborted : s.watch ≠ .watching) :
    (s.watch = .sweeping ∧ s.pc.locks = true) ∨ (∃ p, s.watch = .stopping p ∧ s.hung = true) ∨
      s.watch = .done := by
  cases hwatch : s.watch with
  | watching => exact absurd hwatch haborted
  | sweeping =>
    refine .inl ⟨rfl, ?_⟩
    by_contra hlocks
    obtain ⟨s', hsweep, hne⟩ := sweep_enabled hwatch hlocks
    rw [h .sweep s' hsweep] at hne
    exact hne hwatch
  | stopping p =>
    refine .inr (.inl ⟨p, rfl, ?_⟩)
    by_contra hhung
    have hswept : step s .swept = some { s with watch := .done, stopped := p :: s.stopped } := by
      simp only [step, hwatch, hhung, if_false]
    have hdone := congrArg State.watch (h .swept _ hswept)
    rw [hwatch] at hdone
    cases hdone
  | done => exact .inr (.inr rfl)

theorem Pc.empty_of_locks {pc : Pc} (h : pc.locks = true) (hpc : pc ≠ .forcing) :
    pc.empty = true := by
  cases pc <;> grind [Pc.locks, Pc.empty]

theorem Inv.slot_of_stuck (h : Inv s) (hstuck : Stuck s)
    (haborted : s.aborted = true) : s.slot = none := by
  obtain hblocked | hpc := hstuck.thread
  · obtain ⟨-, hforcing, hswept⟩ := h.blocked hblocked
    obtain ⟨-, hlocks⟩ | ⟨p, hwatch, -⟩ | hwatch := hstuck.watch (h.aborted haborted)
    · exact h.empty (Pc.empty_of_locks hlocks hforcing)
    · exact hswept (by rw [hwatch]; rfl)
    · exact hswept (by rw [hwatch]; rfl)
  · exact h.empty (by rw [hpc]; rfl)

/-- In a stuck state of an aborted session a pipeline runs only if its own `stop` never returns. -/
theorem Inv.stuck (h : Inv s) (hstuck : Stuck s) (haborted : s.aborted = true) {p : ℕ}
    (hp : s.Running p) :
    (s.blocked = true ∧ s.pc.stops = some p) ∨ (s.hung = true ∧ s.watch = .stopping p) := by
  obtain hslot | hstack | hstops | hwatch := h.located p hp
  · rw [h.slot_of_stuck hstuck haborted] at hslot
    cases hslot
  · obtain hblocked | hpc := hstuck.thread
    · rw [(h.blocked hblocked).1] at hstack
      cases hstack
    · rw [hpc] at hstack
      cases hstack
  · obtain hblocked | hpc := hstuck.thread
    · exact .inl ⟨hblocked, hstops⟩
    · rw [hpc] at hstops
      cases hstops
  · obtain ⟨hsweeping, -⟩ | ⟨q, -, hhung⟩ | hdone := hstuck.watch (h.aborted haborted)
    · cases hsweeping.symm.trans hwatch
    · exact .inr ⟨hhung, hwatch⟩
    · cases hdone.symm.trans hwatch

theorem Inv.stopped (h : Inv s) (hpc : s.pc = .returned) (p : ℕ) : ¬ s.Running p := by
  intro hp
  obtain hslot | hstack | hstops | hwatch := h.located p hp
  · rw [h.empty (by rw [hpc]; rfl)] at hslot
    cases hslot
  · rw [hpc] at hstack
    cases hstack
  · rw [hpc] at hstops
    cases hstops
  · have hbusy := h.returned hpc
    rw [hwatch] at hbusy
    cases hbusy

/-- **The watchdog reaches every pipeline** of a session whose calls that never return are made
with no other pipeline on the stack, with the slot unlocked and, once the watchdog has looked into
the slot, with nothing in it; and a connection that returns leaves nothing running. -/
theorem watchdog_stops_all {labels : List Label} {s : State}
    (hrun : Machine.run step State.init labels = some s)
    (htimely : Machine.Along step Timely State.init labels) :
    (s.aborted = true → Stuck s → ∀ p, s.Running p →
      (s.blocked = true ∧ s.pc.stops = some p) ∨ (s.hung = true ∧ s.watch = .stopping p)) ∧
    (s.pc = .returned → ∀ p, ¬ s.Running p) := by
  have h : Inv s := Machine.run_inv_along (fun hi hc hs => Inv.step hi hc hs) Inv.start htimely hrun
  exact ⟨fun haborted hstuck p hp => h.stuck hstuck haborted hp, fun hpc p => h.stopped hpc p⟩

/-- A pipeline, and then another after a display was unplugged. -/
def hotplugs : List Label :=
  [.thread (.start .handshake), .thread (.started true), .thread .publish,
    .thread (.start .hotplug), .thread (.started true), .thread (.handOver true), .thread .publish]

theorem stuck_of_blocked (hblocked : s.blocked = true) (hdone : s.watch = .done) :
    Stuck s := by
  intro label s' hstep
  cases label <;> simp [step, hblocked, hdone] at hstep

/-- The old pipeline never stops, and the watchdog stops the new one. -/
theorem watchdog_stops_all_hotplug : ∃ s,
    Machine.run step State.init (hotplugs ++ [.hang, .abort, .sweep, .swept]) = some s ∧
    s.aborted = true ∧ Stuck s ∧ s.started = 2 ∧ s.stopped = [1] ∧
    ∀ p, s.Running p → s.blocked = true ∧ s.pc.stops = some p := by
  have hrun : ((Machine.run step State.init (hotplugs ++ [.hang, .abort, .sweep, .swept])).any
      fun s => decide (s.aborted = true ∧ s.blocked = true ∧ s.watch = .done ∧ s.started = 2 ∧
        s.stopped = [1] ∧ s.hung = false)) = true := by
    decide
  obtain ⟨s, hs, h⟩ := (Option.any_eq_true _ _).mp hrun
  obtain ⟨haborted, hblocked, hdone, hstarted, hstopped, hhung⟩ := of_decide_eq_true h
  have hstuck := stuck_of_blocked hblocked hdone
  refine ⟨s, hs, haborted, hstuck, hstarted, hstopped, fun p hp => ?_⟩
  obtain hown | ⟨hhung', -⟩ :=
    (watchdog_stops_all hs (by decide)).1 haborted hstuck p hp
  · exact hown
  · cases hhung.symm.trans hhung'

/-- A pipeline is restarted for other stream options, and the key frame that is forced on the new
one never comes. -/
def restart : List Label :=
  [.thread (.start .handshake), .thread (.started true), .thread .publish,
    .thread (.start .options), .thread (.started true), .thread .take, .thread .stopped,
    .hang, .abort, .sweep]

/-- **The watchdog does not reach the new pipeline.** -/
theorem restarted_survives : ∃ s, Machine.run step State.init restart = some s ∧
    s.aborted = true ∧ Stuck s ∧ s.pc = .forcingNew 1 ∧ s.slot = none ∧ s.watch = .done ∧
    s.Running 1 := by
  have hrun : ((Machine.run step State.init restart).any fun s =>
      decide (s.aborted = true ∧ s.blocked = true ∧ s.pc = .forcingNew 1 ∧ s.slot = none ∧
        s.watch = .done ∧ s.Running 1)) = true := by
    decide
  obtain ⟨s, hs, h⟩ := (Option.any_eq_true _ _).mp hrun
  obtain ⟨haborted, hblocked, hpc, hslot, hdone, hrunning⟩ := of_decide_eq_true h
  exact ⟨s, hs, haborted, stuck_of_blocked hblocked hdone, hpc, hslot, hdone, hrunning⟩

end MahoRD.Watchdog

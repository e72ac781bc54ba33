/-
MahoRD/Ios/TouchOrder.lean

Touches across sessions (`set_touch_mode` and `handle_touch` in `ios-shell/src/state.rs`).  A touch
is processed under the lock of the state, and what the handler produced is handed to the session
under the lock once more.  What else is done to the state is done by connects and teardowns, in any
order.

The mode is kept twice, and a teardown resets that of the handler only; and it lets go of a touch
only if it leaves trackpad mode.
-/
import MahoRD.Ios.Session
import MahoRD.Lib.Machine

namespace MahoRD.Ios.TouchOrder

/-! ### Commands and what goes on beside them -/

/-- An event that was produced, and is on its way to the session. -/
structure Pending where
  thread : ℕ
  index : ℕ
  event : InputEvent
  deriving DecidableEq

inductive Handed
  | event (index : ℕ) (event : InputEvent)
  | reset

def Handed.index : Handed → Option ℕ
  | event index _ => some index
  | reset => none

/-- `produced` counts the events of the handler; `pending` is in their order. -/
structure State where
  inner : SessionInner
  produced : ℕ
  pending : List Pending
  handed : List Handed

def State.init : State := ⟨.default, 0, [], []⟩

inductive Label
  | setTouchMode (mode : String)
  | touch (thread : ℕ) (id : UInt64) (x y : UInt32) (phase : String)
  | send (thread : ℕ)
  | beginTeardown (generation : ℕ) (target : ConnectionState) (reason : Option String)
  | failCleanup (summary : String)
  | settle
  | reap (generation : ℕ)
  | register (host : String)
  | install (session : ℕ)
  | pushWorker (worker : ℕ)
  | setError (generation : ℕ) (message : String)

/-- A release is handed over with the lock still held. -/
def State.release (s : State) (release : Option InputEvent) : State :=
  match release with
  | none => s
  | some event =>
    { s with
      produced := s.produced + 1
      handed := if s.inner.session.isSome then s.handed ++ [.event s.produced event] else s.handed }

def State.reset (s : State) : State :=
  { s with handed := if s.inner.session.isSome then s.handed ++ [.reset] else s.handed }

def step (c : Coordinates) (s : State) : Label → Option State
  | .setTouchMode mode =>
    match s.inner.setTouchMode mode with
    | .error _ => some s
    | .ok (release, inner) => some { s.release release with inner }
  | .touch thread id x y phase =>
    if s.pending.any (·.thread = thread) then none
    else
      match s.inner.processTouch c id x y phase with
      | .error _ => some s
      | .ok (none, inner) => some { s with inner }
      | .ok (some event, inner) => some { s with
          inner
          produced := s.produced + 1
          pending := s.pending ++ [⟨thread, s.produced, event⟩] }
  | .send thread =>
    match s.pending.find? (·.thread = thread) with
    | none => none
    | some p => some { s with
        pending := s.pending.erase p
        handed := if s.inner.session.isSome then s.handed ++ [.event p.index p.event]
          else s.handed }
  | .beginTeardown generation target reason =>
    match s.inner.beginTeardown generation target reason with
    | (.taken _ _ _, release, inner) => some { (s.release release).reset with inner }
    | (_, _, inner) => some { s with inner }
  | .failCleanup summary => some { s with inner := s.inner.failCleanup summary }
  | .settle => some { s with inner := s.inner.settle }
  | .reap generation => some { s with inner := s.inner.reap generation }
  | .register host => some { s with inner := s.inner.register host }
  | .install session => some { s with inner := s.inner.install session }
  | .pushWorker worker => some { s with inner := s.inner.pushWorker worker }
  | .setError generation message => some { s with inner := s.inner.setError generation message }

/-! ### The invariant -/

/-- A teardown comes in direct mode with no touch held; a session gets no event before one that
was produced earlier. -/
def Apart (s : State) : Label → Prop
  | .setTouchMode mode =>
    mode = "trackpad" ∧ s.inner.touchMode = .directTouch ∧
      s.inner.touchHandler.primaryTouch.isSome ∧ s.inner.session.isSome → s.pending = []
  | .send thread => s.inner.session.isSome → s.pending.head?.map Pending.thread = some thread
  | .beginTeardown generation target _ => s.inner.TearsDown generation target →
    s.inner.touchMode = .directTouch ∧ s.inner.touchHandler.primaryTouch = none
  | _ => True

instance (s : State) : ∀ label, Decidable (Apart s label)
  | .setTouchMode _ | .send _ | .beginTeardown _ _ _ => inferInstanceAs (Decidable (_ → _))
  | .touch _ _ _ _ _ | .failCleanup _ | .settle | .reap _ | .register _ | .install _
  | .pushWorker _ | .setError _ _ => isTrue trivial

/-- The events that were handed over, and those on their way. -/
def State.indices (s : State) : List ℕ :=
  s.handed.filterMap Handed.index ++ s.pending.map Pending.index

structure Inv (s : State) : Prop where
  coherent : s.inner.Coherent
  ordered : s.indices.Pairwise (· < ·)
  produced : ∀ n ∈ s.indices, n < s.produced

theorem inv_init : Inv State.init where
  coherent := SessionInner.default_coherent
  ordered := List.Pairwise.nil
  produced _ h := absurd h List.not_mem_nil

variable {s s' : State} {c : Coordinates}

theorem Inv.inner {inner : SessionInner} (h : Inv s) (hinner : inner.Coherent) :
    Inv { s with inner } := ⟨hinner, h.ordered, h.produced⟩

theorem Inv.release {release : Option InputEvent} (h : Inv s)
    (hpending : release.isSome → s.inner.session.isSome → s.pending = []) :
    Inv (s.release release) := by
  cases release with
  | none => exact h
  | some event =>
    have hlt : ∀ n ∈ s.indices, n < s.produced + 1 := fun n hn => Nat.lt_succ_of_lt (h.produced n hn)
    by_cases hsession : s.inner.session.isSome = true
    · have hindices : (s.release (some event)).indices = s.indices ++ [s.produced] := by
        simp [State.release, State.indices, hsession, hpending rfl hsession, Handed.index]
      refine ⟨h.coherent, ?_, ?_⟩
      · rw [hindices, List.pairwise_append]
        refine ⟨h.ordered, List.pairwise_singleton _ _, fun n hn m hm => ?_⟩
        rw [List.mem_singleton.mp hm]
        exact h.produced n hn
      · intro n hn
        rw [hindices, List.mem_append, List.mem_singleton] at hn
        rcases hn with hn | rfl
        · exact hlt n hn
        · exact Nat.lt_succ_self _
    · have hindices : (s.release (some event)).indices = s.indices := by
        simp [State.release, State.indices, hsession]
      refine ⟨h.coherent, ?_, ?_⟩
      · rw [hindices]
        exact h.ordered
      · rw [hindices]
        exact hlt

theorem Inv.reset (h : Inv s) : Inv s.reset := by
  have hindices : s.reset.indices = s.indices := by
    unfold State.reset State.indices
    split <;> simp [Handed.index]
  refine ⟨h.coherent, ?_, ?_⟩
  · rw [hindices]
    exact h.ordered
  · rw [hindices]
    exact h.produced

theorem Inv.touch {inner : SessionInner} (h : Inv s) (hinner : inner.Coherent)
    (thread : ℕ) (event : InputEvent) : Inv { s with
      inner
      produced := s.produced + 1
      pending := s.pending ++ [⟨thread, s.produced, event⟩] } := by
  have hindices : State.indices { s with
      inner
      produced := s.produced + 1
      pending := s.pending ++ [⟨thread, s.produced, event⟩] } = s.indices ++ [s.produced] := by
    simp [State.indices]
  refine ⟨hinner, ?_, fun n hn => ?_⟩
  · rw [hindices, List.pairwise_append]
    refine ⟨h.ordered, List.pairwise_singleton _ _, fun n hn m hm => ?_⟩
    rw [List.mem_singleton.mp hm]
    exact h.produced n hn
  · rw [hindices, List.mem_append, List.mem_singleton] at hn
    rcases hn with hn | rfl
    · exact Nat.lt_succ_of_lt (h.produced n hn)
    · exact Nat.lt_succ_self _

theorem Inv.send {p : Pending} (h : Inv s)
    (hfirst : s.inner.session.isSome → s.pending.head? = some p) : Inv { s with
      pending := s.pending.erase p
      handed := if s.inner.session.isSome then s.handed ++ [.event p.index p.event]
        else s.handed } := by
  have hsublist : (State.indices { s with
      pending := s.pending.erase p
      handed := if s.inner.session.isSome then s.handed ++ [.event p.index p.event]
        else s.handed }).Sublist s.indices := by
    by_cases hsession : s.inner.session.isSome = true
    · obtain ⟨rest, hrest⟩ := List.head?_eq_some_iff.mp (hfirst hsession)
      simp [State.indices, hsession, hrest, Handed.index]
    · simp only [State.indices, hsession, Bool.false_eq_true, if_false]
      exact List.Sublist.append_left ((List.erase_sublist).map _) _
  exact ⟨h.coherent, h.ordered.sublist hsublist, fun n hn => h.produced n (hsublist.subset hn)⟩

/-- In direct mode a teardown hands over no release, and leaves the handler alone. -/
theorem beginTeardown_eq {i : SessionInner} (hi : i.Coherent) {generation : ℕ}
    {target : ConnectionState} (reason : Option String)
    (hmode : i.TearsDown generation target → i.touchMode = .directTouch) :
    (i.beginTeardown generation target reason).2.1 = none ∧
      (i.beginTeardown generation target reason).2.2.touchMode = i.touchMode ∧
      (i.beginTeardown generation target reason).2.2.touchHandler = i.touchHandler := by
  by_cases h : i.TearsDown generation target
  · rw [SessionInner.beginTeardown_of_tearsDown h, SessionInner.setMode_direct hi (hmode h)]
    exact ⟨rfl, rfl, rfl⟩
  · rw [SessionInner.beginTeardown_of_not_tearsDown h]
    exact ⟨rfl, rfl, rfl⟩

theorem parseTouchMode_trackpad {mode : String}
    (h : SessionInner.parseTouchMode mode = .ok .trackpadRelative) : mode = "trackpad" := by
  unfold SessionInner.parseTouchMode at h
  split at h
  · cases h
  split at h
  · assumption
  · cases h

theorem step_setTouchMode {mode : String} (h : Inv s)
    (hapart : Apart s (.setTouchMode mode)) (hstep : step c s (.setTouchMode mode) = some s') :
    Inv s' := by
  rcases hmode : s.inner.setTouchMode mode with e | ⟨release, inner⟩
  · simp only [step, hmode, Option.some.injEq] at hstep
    exact hstep ▸ h
  · simp only [step, hmode, Option.some.injEq] at hstep
    subst hstep
    refine (h.release fun hrelease hsession => ?_).inner
      (SessionInner.setTouchMode_coherent h.coherent hmode)
    rcases SessionInner.setTouchMode_eq_ok hmode with ⟨rfl, -⟩ | ⟨newMode, hparse, hne, rfl, -⟩
    · cases hrelease
    · cases newMode with
      | directTouch =>
        -- a handler in trackpad mode holds no button
        have hother : s.inner.touchHandler.mode ≠ .directTouch :=
          fun hsame => hne (h.coherent.mode.trans hsame)
        simp [TouchGestureHandler.setMode, hother] at hrelease
      | trackpadRelative =>
        have hdirect : s.inner.touchMode = .directTouch := by
          cases htouch : s.inner.touchMode with
          | directTouch => rfl
          | trackpadRelative => exact absurd htouch hne
        have hheld : s.inner.touchHandler.primaryTouch.isSome := by
          simpa [TouchGestureHandler.setMode, ← h.coherent.mode, hdirect] using hrelease
        exact hapart ⟨parseTouchMode_trackpad hparse, hdirect, hheld, hsession⟩

theorem Inv.step (label : Label) (h : Inv s)
    (hapart : Apart s label) (hstep : step c s label = some s') : Inv s' := by
  have hsame : ∀ inner : SessionInner, inner.touchMode = s.inner.touchMode →
      inner.touchHandler = s.inner.touchHandler → Inv { s with inner } :=
    fun inner hmode hhandler => h.inner (h.coherent.of_touch hmode hhandler)
  cases label with
  | setTouchMode mode => exact step_setTouchMode h hapart hstep
  | touch thread id x y phase =>
    rcases htouch : s.inner.processTouch c id x y phase with e | ⟨event, inner⟩
    · simp only [TouchOrder.step, htouch, Option.ite_none_left_eq_some, Option.some.injEq] at hstep
      exact hstep.2 ▸ h
    · have hinner := SessionInner.processTouch_coherent h.coherent htouch
      cases event with
      | none =>
        simp only [TouchOrder.step, htouch, Option.ite_none_left_eq_some, Option.some.injEq]
          at hstep
        exact hstep.2 ▸ h.inner hinner
      | some event =>
        simp only [TouchOrder.step, htouch, Option.ite_none_left_eq_some, Option.some.injEq]
          at hstep
        exact hstep.2 ▸ h.touch hinner thread event
  | send thread =>
    rcases hfind : s.pending.find? (·.thread = thread) with - | p
    · simp [TouchOrder.step, hfind] at hstep
    · simp only [TouchOrder.step, hfind, Option.some.injEq] at hstep
      subst hstep
      refine h.send fun hsession => ?_
      obtain ⟨q, hq, hthread⟩ := Option.map_eq_some_iff.mp (hapart hsession)
      obtain ⟨rest, hrest⟩ := List.head?_eq_some_iff.mp hq
      rw [hrest, List.find?_cons_of_pos (by simpa using hthread)] at hfind
      rw [hq, hfind]
  | beginTeardown generation target reason =>
    obtain ⟨hrelease, hmode, hhandler⟩ := beginTeardown_eq h.coherent reason
      fun htears => (hapart htears).1
    rcases hbegin : s.inner.beginTeardown generation target reason with ⟨found, release, inner⟩
    rw [hbegin] at hrelease hmode hhandler
    subst hrelease
    have hinner := h.coherent.of_touch hmode hhandler
    cases found with
    | stale | settled =>
      simp only [TouchOrder.step, hbegin, Option.some.injEq] at hstep
      exact hstep ▸ h.inner hinner
    | taken session runtime handles =>
      simp only [TouchOrder.step, hbegin, Option.some.injEq] at hstep
      exact hstep ▸ h.reset.inner hinner
  | failCleanup summary =>
    cases hstep
    exact hsame _ rfl rfl
  | settle =>
    cases hstep
    exact hsame _ rfl rfl
  | reap generation =>
    cases hstep
    rcases s.inner.reap_eq generation with hreap | ⟨-, hreap⟩
    · rw [hreap]
      exact h
    · rw [hreap]
      exact hsame _ rfl rfl
  | register host =>
    cases hstep
    exact hsame _ rfl rfl
  | install session =>
    cases hstep
    exact hsame _ rfl rfl
  | pushWorker worker =>
    cases hstep
    exact hsame _ rfl rfl
  | setError generation message =>
    cases hstep
    rcases s.inner.setError_eq generation message with herror | ⟨-, herror⟩
    · rw [herror]
      exact h
    · rw [herror]
      exact hsame _ rfl rfl

/-! ### Whole runs -/

theorem teardown_free {generation : ℕ} {target : ConnectionState}
    {reason : Option String} (h : Inv s) (htears : s.inner.TearsDown generation target)
    (hapart : Apart s (.beginTeardown generation target reason))
    (hstep : step c s (.beginTeardown generation target reason) = some s') :
    s'.inner.touchHandler.Free := by
  obtain ⟨hmode, hprimary⟩ := hapart htears
  have hbaseline := h.coherent.handler
  rw [TouchGestureHandler.Coherent, ← h.coherent.mode, hmode] at hbaseline
  simp only [TouchOrder.step, SessionInner.beginTeardown_of_tearsDown htears,
    SessionInner.setMode_direct h.coherent hmode, Option.some.injEq] at hstep
  subst hstep
  exact ⟨hprimary, hbaseline⟩

/-- **Touches stay coherent** as long as the teardowns come in direct mode with no touch held, and
no event is handed over before one that was produced earlier: the two copies of the mode agree, the
session gets the events in their order, and a teardown leaves no touch behind. -/
theorem touch_coherent (c : Coordinates) {labels : List Label} {s : State}
    (hrun : Machine.run (step c) State.init labels = some s)
    (hapart : Machine.Along (step c) Apart State.init labels) :
    s.inner.touchMode = s.inner.touchHandler.mode ∧
    (s.handed.filterMap Handed.index).Pairwise (· < ·) ∧
    ∀ before generation target reason t, labels = before ++ [.beginTeardown generation target reason] →
      Machine.run (step c) State.init before = some t → t.inner.TearsDown generation target →
      s.inner.touchHandler.Free ∧ s.inner.touchHandler.Accepts c := by
  have hinv : ∀ {as t}, Machine.Along (step c) Apart State.init as →
      Machine.run (step c) State.init as = some t → Inv t := fun halong hr =>
    Machine.run_inv_along (fun hi hc hs => Inv.step _ hi hc hs) inv_init halong hr
  have h := hinv hapart hrun
  refine ⟨h.coherent.mode, (List.pairwise_append.mp h.ordered).1, ?_⟩
  rintro before generation target reason t rfl hbefore htears
  obtain ⟨halong, hlast⟩ := hapart.append hbefore
  obtain ⟨t', ht', hstep⟩ := Machine.run_append_eq_some.mp hrun
  obtain rfl : t = t' := Option.some.inj (hbefore.symm.trans ht')
  obtain ⟨s', hs', hnil⟩ := Machine.run_cons_eq_some.mp hstep
  obtain rfl : s' = s := Option.some.inj hnil
  have hfree := teardown_free (hinv halong hbefore) htears hlast.1 hs'
  exact ⟨hfree, hfree.accepts c⟩

/-- The view of the shell, for coordinates that are 0, 0.5 or 1 and moves by nothing. -/
def unitView : Coordinates where
  isFinite x := x &&& 0x7F800000 ≠ 0x7F800000
  sub x y := if x = y then 0 else x
  mul x y := if x = 0 then 0 else y
  ofNat n := if n = 1080 then 0x44870000 else 0x44F00000
  transformToHost x y := .ok (x, if y = 0 then 0x3F800000 else if y = 0x3F800000 then 0 else y)

/-- A session with one touch, that the user ends. -/
def tapped : List Label :=
  [.register "host", .install 1, .pushWorker 0, .touch 0 7 0x3F000000 0x3F000000 "began", .send 0,
    .touch 0 7 0x3F000000 0 "ended", .send 0]

theorem touch_coherent_tapped : ∃ s,
    Machine.run (step unitView) State.init (tapped ++ [.beginTeardown 1 .idle none]) = some s ∧
    s.inner.touchMode = s.inner.touchHandler.mode ∧
    s.handed.filterMap Handed.index = [0, 1] ∧
    (s.handed.filterMap Handed.index).Pairwise (· < ·) ∧
    s.inner.touchHandler.Free ∧ s.inner.touchHandler.Accepts unitView := by
  have hrun : ((Machine.run (step unitView) State.init tapped).any fun t =>
      decide (t.inner.TearsDown 1 .idle) && ((step unitView t (.beginTeardown 1 .idle none)).any
        fun s => decide (s.handed.filterMap Handed.index = [0, 1]))) = true := by
    decide
  obtain ⟨t, ht, h⟩ := (Option.any_eq_true _ _).mp hrun
  obtain ⟨htears, hlast⟩ := Bool.and_eq_true_iff.mp h
  obtain ⟨s, hs, hhanded⟩ := (Option.any_eq_true _ _).mp hlast
  have hall := Machine.run_append_eq_some.mpr
    ⟨t, ht, Machine.run_cons_eq_some.mpr ⟨s, hs, Machine.run_nil s⟩⟩
  obtain ⟨hmode, hordered, hfree⟩ := touch_coherent unitView hall (by decide)
  obtain ⟨hfree, haccepts⟩ := hfree tapped 1 .idle none t rfl ht (of_decide_eq_true htears)
  exact ⟨s, hall, hmode, of_decide_eq_true hhanded, hordered, hfree, haccepts⟩

/-- A session that is closed in trackpad mode. -/
def closedInTrackpad : List Label :=
  [.register "host", .install 1, .setTouchMode "trackpad", .beginTeardown 1 .idle none, .settle]

/-- A session that is closed while a finger is down, and the next one. -/
def closedWhileHeld : List Label :=
  [.register "host", .install 1, .touch 0 7 0x3F000000 0x3F000000 "began", .send 0,
    .beginTeardown 1 .idle none, .settle, .register "host", .install 2]

/-- Two touches, processed and handed over by two threads. -/
def overtaken : List Label :=
  [.register "host", .install 1, .touch 0 7 0x3F000000 0x3F000000 "began",
    .touch 1 7 0x3F000000 0 "ended", .send 1, .send 0]

/-- **The two copies of the mode come apart**, a touch that is held is held in the next session,
where the first touch is not accepted, and an event overtakes one that was produced earlier. -/
theorem touch_incoherent :
    (∃ s, Machine.run (step unitView) State.init closedInTrackpad = some s ∧
      s.inner.touchMode = .trackpadRelative ∧ s.inner.touchHandler.mode = .directTouch) ∧
    (∃ s, Machine.run (step unitView) State.init closedWhileHeld = some s ∧
      s.inner.touchHandler.holds 7 = true ∧
      s.inner.processTouch unitView 8 0 0 "began" = .ok (none, s.inner)) ∧
    ∃ s, Machine.run (step unitView) State.init overtaken = some s ∧
      s.handed.filterMap Handed.index = [1, 0] := by
  refine ⟨⟨_, rfl, ?_⟩, ⟨_, rfl, ?_⟩, ⟨_, rfl, ?_⟩⟩ <;> decide

end MahoRD.Ios.TouchOrder

/-
MahoRD/App/AgentRecord.lean

The tracker against the backend: what the backend holds after a transaction is on record,
so that the watchdog will release it.

It fails in one case.  A conversion takes an item off the record before its Up is sent; if
that send is refused and so is the Reset of the cleanup, then an item that was held since
before the request is held on without a record.  `Recoverable` excludes just this.
-/
import MahoRD.App.AgentServer
import MahoRD.Lib.Machine

namespace MahoRD.Agent

open Presses InputStateTracker

/-- What an accepted event does at the backend: a Reset releases everything. -/
def backendEffect (e : InputEvent) (item : Item) : Option Bool :=
  if e.eventType = .reset then some false else direction e item

variable {e : InputEvent} {log : List InputEvent} {pos : UInt32 × UInt32} {t : InputStateTracker}
  {n : ℕ}

theorem backendEffect_of_ne (h : e.eventType ≠ .reset) (item : Item) :
    backendEffect e item = direction e item := if_neg h

theorem Covers.backend {held held' : Item → Prop}
    (h : Covers direction log held held') : Covers backendEffect log held held' := by
  refine h.mono (fun {e i} hpress => ?_) fun {e i} hnone => ?_
  · rw [backendEffect] at hpress
    split at hpress
    · cases hpress
    · exact hpress
  · rw [backendEffect] at hnone
    split at hnone
    · cases hnone
    · exact hnone

/-- Whatever the backend holds is on record. -/
def ServerInput.Recorded (s : ServerInput) : Prop :=
  ∀ item, Down backendEffect s.accepted item → s.tracker.Holds item

/-! ### Releases -/

theorem holds_rerecord (now : ℕ) (t : InputStateTracker) (e : InputEvent) (item : Item) :
    (t.rerecord now e).Holds item ↔ t.Holds item ∨ touches e = some (item, false) := by
  rw [rerecord, touches]
  cases e.eventType
  all_goals
    cases item <;>
      simp [Holds, recordButtonDown, recordKeyDown, or_comm, eq_comm]

theorem holds_foldl_rerecord (now : ℕ) (t : InputStateTracker) (events : List InputEvent)
    (item : Item) :
    (events.foldl (rerecord now) t).Holds item ↔
      t.Holds item ∨ ∃ e ∈ events, touches e = some (item, false) := by
  induction events generalizing t with
  | nil => simp
  | cons e events ih =>
    rw [List.foldl_cons, ih, holds_rerecord, or_assoc, List.exists_mem_cons_iff]

/-- The events of a release before its Reset. -/
def ups (drain : Drain) (t : InputStateTracker) (pos : UInt32 × UInt32) : List InputEvent :=
  (drain.buttons t.activeButtons).map (fun b => eventAt b.toUpEventType pos 0 t.activeModifiers) ++
    (drain.keys t.activeKeys).map fun k => eventAt .keyUp pos k t.activeModifiers

theorem releaseAll_fst (drain : Drain) (t : InputStateTracker) (pos : UInt32 × UInt32)
    (now : ℕ) : (t.releaseAll drain pos now).1 =
      ups drain t pos ++ [eventAt .reset pos 0 Modifiers.empty] := rfl

theorem touches_of_mem_ups {drain : Drain} (h : e ∈ ups drain t pos) :
    ∃ item, t.Holds item ∧ touches e = some (item, false) := by
  rcases List.mem_append.mp h with hbutton | hkey
  · obtain ⟨b, hb, rfl⟩ := List.mem_map.mp hbutton
    exact ⟨.button b, drain.mem_buttons.mp hb, touches_up b pos _⟩
  · obtain ⟨k, hk, rfl⟩ := List.mem_map.mp hkey
    exact ⟨.key k, drain.mem_keys.mp hk, rfl⟩

theorem exists_up_iff {drain : Drain} {now : ℕ}
    {item : Item} :
    (∃ e ∈ (t.releaseAll drain pos now).1, touches e = some (item, false)) ↔ t.Holds item := by
  refine ⟨?_, exists_up drain t pos now⟩
  rintro ⟨e, he, htouches⟩
  rw [releaseAll_fst] at he
  rcases List.mem_append.mp he with hup | hreset
  · obtain ⟨item', hheld, htouches'⟩ := touches_of_mem_ups hup
    obtain ⟨rfl, -⟩ := Prod.mk.inj (Option.some.inj (htouches'.symm.trans htouches))
    exact hheld
  · obtain rfl := List.mem_singleton.mp hreset
    cases htouches

theorem ne_reset_of_touches {i : Item × Bool} (h : touches e = some i) :
    e.eventType ≠ .reset := by
  intro hreset
  simp [touches, hreset] at h

theorem sendRelease_concat (answers : ReleaseAnswers) (i : ℕ) {events : List InputEvent}
    {reset : InputEvent} (hreset : reset.eventType = .reset)
    (hups : ∀ e ∈ events, e.eventType ≠ .reset) :
    ∃ accepted, (∀ e ∈ accepted, e ∈ events) ∧
      (sendRelease answers i (events ++ [reset])).1 =
        accepted ++ if answers.reset = none then [reset] else [] := by
  induction events generalizing i with
  | nil =>
    refine ⟨[], fun _ h => h, ?_⟩
    simp only [List.nil_append, sendRelease, ReleaseAnswers.answer, if_pos hreset]
    cases answers.reset <;> rfl
  | cons e events ih =>
    obtain ⟨accepted, hmem, heq⟩ := ih (i + 1) fun e he => hups e (.tail _ he)
    simp only [List.cons_append, sendRelease]
    cases answers.answer i e with
    | none =>
      refine ⟨e :: accepted, fun e' he' => ?_, by simp only [heq, List.cons_append]⟩
      rcases List.mem_cons.mp he' with rfl | he'
      · exact .head _
      · exact .tail _ (hmem e' he')
    | some err => exact ⟨accepted, fun e' he' => .tail _ (hmem e' he'), heq⟩

/-- What a release comes to: some Ups of held items, and then either the Reset and an empty record,
or the record as it was. -/
theorem releaseInputs_cases (env : ReleaseEnv) (t : InputStateTracker)
    (pos : UInt32 × UInt32) :
    ∃ accepted, (∀ e ∈ accepted, ∃ item, t.Holds item ∧ touches e = some (item, false)) ∧
      ((env.answers.reset = none ∧
          (releaseInputs env t pos).1 = accepted ++ [eventAt .reset pos 0 Modifiers.empty] ∧
          (releaseInputs env t pos).2.2 = t.clear env.now) ∨
        (env.answers.reset ≠ none ∧ (releaseInputs env t pos).1 = accepted ∧
          ∀ item, (releaseInputs env t pos).2.2.Holds item ↔ t.Holds item)) := by
  have hups (e : InputEvent) (he : e ∈ ups env.drain t pos) : e.eventType ≠ .reset := by
    obtain ⟨_, -, htouches⟩ := touches_of_mem_ups he
    exact ne_reset_of_touches htouches
  obtain ⟨accepted, hmem, heq⟩ := sendRelease_concat env.answers 0
    (show (eventAt .reset pos 0 Modifiers.empty).eventType = .reset from rfl) hups
  have haccepted (e : InputEvent) (he : e ∈ accepted) :
      ∃ item, t.Holds item ∧ touches e = some (item, false) := touches_of_mem_ups (hmem e he)
  refine ⟨accepted, haccepted, ?_⟩
  by_cases hreset : env.answers.reset = none
  · refine .inl ⟨hreset, ?_, ?_⟩
    · rw [if_pos hreset] at heq
      exact heq
    · rw [if_pos hreset] at heq
      simp only [releaseInputs, releaseAll_fst, heq]
      rw [if_pos]
      · rfl
      · simp [eventAt]
  · refine .inr ⟨hreset, ?_, fun item => ?_⟩
    · rw [if_neg hreset, List.append_nil] at heq
      exact heq
    · rw [if_neg hreset, List.append_nil] at heq
      have hno : ¬ (accepted.any fun e => e.eventType == .reset) = true := by
        rw [List.any_eq_true]
        rintro ⟨e, he, hetype⟩
        exact hups e (hmem e he) (beq_iff_eq.mp hetype)
      simp only [releaseInputs, releaseAll_fst, heq, if_neg hno]
      rw [holds_foldl_rerecord, ← releaseAll_fst env.drain t pos env.now, exists_up_iff]
      refine or_iff_right ?_
      cases item with
      | key k => exact Finset.notMem_empty k
      | button b => exact Finset.notMem_empty b

theorem not_down_of_reset {reset : InputEvent}
    (h : reset.eventType = .reset) (item : Item) :
    ¬ Down backendEffect (log ++ [reset]) item := by
  have heffect : backendEffect reset item = some false := if_pos h
  rw [down_append, Down, last_singleton, heffect]
  rintro (h | ⟨h, -⟩) <;> cases h

theorem releaseInputs_recorded {env : ReleaseEnv}
    (h : ∀ item, Down backendEffect log item → t.Holds item) (item : Item)
    (hdown : Down backendEffect (log ++ (releaseInputs env t pos).1) item) :
    (releaseInputs env t pos).2.2.Holds item := by
  obtain ⟨accepted, haccepted, ⟨-, heq, -⟩ | ⟨-, heq, hholds⟩⟩ := releaseInputs_cases env t pos
  · rw [heq, ← List.append_assoc] at hdown
    exact (not_down_of_reset rfl item hdown).elim
  · rw [heq] at hdown
    rcases down_append.mp hdown with hnew | ⟨-, hold⟩
    · obtain ⟨e, he, hpress⟩ := hnew.exists_press
      obtain ⟨item', -, htouches⟩ := haccepted e he
      rw [backendEffect_of_ne (ne_reset_of_touches htouches), direction_eq_some] at hpress
      cases htouches.symm.trans hpress
    · exact (hholds item).mpr (h item hold)

theorem releaseInputs_lost {env : ReleaseEnv} {item : Item} (hreset : env.answers.reset ≠ none)
    (hdown : Down backendEffect log item) (hholds : ¬ t.Holds item) :
    Down backendEffect (log ++ (releaseInputs env t pos).1) item ∧
      ¬ (releaseInputs env t pos).2.2.Holds item := by
  obtain ⟨accepted, haccepted, ⟨hnone, -⟩ | ⟨-, heq, hsame⟩⟩ := releaseInputs_cases env t pos
  · exact (hreset hnone).elim
  refine ⟨?_, fun hheld => hholds ((hsame item).mp hheld)⟩
  rw [heq]
  refine down_append.mpr (.inr ⟨last_eq_none_iff.mpr fun e he => ?_, hdown⟩)
  obtain ⟨item', hheld, htouches⟩ := haccepted e he
  rw [backendEffect_of_ne (ne_reset_of_touches htouches), direction_of_touches htouches]
  refine if_neg ?_
  rintro rfl
  exact hholds hheld

/-! ### Requests -/

/-- The Downs that the request keeps: accepted, and not released since. -/
def Request.Has (r : Request) : Item → Prop
  | .key code => code ∈ r.heldKeys
  | .button button => button ∈ r.heldButtons

theorem has_accept (r : Request) (e : InputEvent) (item : Item) :
    (r.accept e).Has item ↔
      backendEffect e item = some true ∨ (backendEffect e item = none ∧ r.Has item) := by
  obtain ⟨etype, x, y, code, mods, dx, dy⟩ := e
  rw [Request.accept, backendEffect, direction, touches]
  cases etype
  all_goals
    cases item <;>
      simp [Request.Has, AList.mem_insert, AList.mem_erase, eq_comm] <;> tauto

@[simp] theorem accepted_accept (r : Request) (e : InputEvent) :
    (r.accept e).accepted = r.accepted ++ [e] := by
  rw [Request.accept]
  cases e.eventType <;> rfl

@[simp] theorem tracker_accept (r : Request) (e : InputEvent) :
    (r.accept e).tracker = r.tracker := by
  rw [Request.accept]
  cases e.eventType <;> rfl

@[simp] theorem pos_accept (r : Request) (e : InputEvent) : (r.accept e).pos = r.pos := by
  rw [Request.accept]
  cases e.eventType <;> rfl

/-- The request knows the Downs of its own. -/
def Request.Knows (r : Request) : Prop :=
  ∀ item, r.Has item ↔ Down backendEffect r.accepted item

theorem Request.Knows.accept {r : Request} (h : r.Knows) (e : InputEvent) :
    (r.accept e).Knows := by
  intro item
  rw [has_accept, accepted_accept, down_append, Down, last_singleton, h item]

/-- The request went on to accept `events`; nothing else changed. -/
structure Request.Accepts (r r' : Request) (events : List InputEvent) : Prop where
  accepted : r'.accepted = r.accepted ++ events
  tracker : r'.tracker = r.tracker
  pos : r'.pos = r.pos
  knows : r.Knows → r'.Knows

theorem Request.Accepts.refl (r : Request) : r.Accepts r [] := ⟨by simp, rfl, rfl, id⟩

theorem Request.Accepts.cons {r r' : Request} {events : List InputEvent}
    (h : (r.accept e).Accepts r' events) : r.Accepts r' (e :: events) :=
  ⟨by simp [h.accepted], by simp [h.tracker], by simp [h.pos], fun hr => h.knows (hr.accept e)⟩

/-- The sends are answered well up to number `n`, counted from `start`. -/
def Answered (answer : ℕ → Option String) (start n : ℕ) : Prop :=
  ∀ i < n, answer (start + i) = none

theorem Answered.cons {answer : ℕ → Option String} {start : ℕ} (h₀ : answer start = none)
    (h : Answered answer (start + 1) n) : Answered answer start (n + 1) := by
  intro i hi
  cases i with
  | zero => exact h₀
  | succ i =>
    have := h i (Nat.lt_of_succ_lt_succ hi)
    rwa [Nat.add_assoc, Nat.add_comm 1] at this

theorem Answered.append {answer : ℕ → Option String} {start m : ℕ}
    (h : Answered answer start m) (h' : Answered answer (start + m) n) :
    Answered answer start (m + n) := by
  intro i hi
  rcases Nat.lt_or_ge i m with hlt | hge
  · exact h i hlt
  · have := h' (i - m) (by omega)
    rwa [Nat.add_assoc, Nat.add_sub_cancel' hge] at this

theorem Answered.zero {answer : ℕ → Option String} {i : ℕ} (h : Answered answer 0 n)
    (hi : i < n) : answer i = none := by
  simpa using h i hi

theorem sendEvents_cases (answer : ℕ → Option String) (r : Request) (events : List InputEvent) :
    (∃ r', sendEvents answer r events = (none, r') ∧ r.Accepts r' events ∧
        Answered answer r.accepted.length events.length) ∨
      ∃ err r' before e after, sendEvents answer r events = (some err, r') ∧
        events = before ++ e :: after ∧ r.Accepts r' before ∧
        Answered answer r.accepted.length before.length ∧
        answer (r.accepted.length + before.length) = some err := by
  induction events generalizing r with
  | nil => exact .inl ⟨r, rfl, .refl r, fun i hi => nomatch hi⟩
  | cons e events ih =>
    rw [sendEvents]
    cases hanswer : answer r.accepted.length with
    | some err =>
      exact .inr ⟨err, r, [], e, events, rfl, rfl, .refl r, (fun i hi => nomatch hi), hanswer⟩
    | none =>
      have hlength : (r.accept e).accepted.length = r.accepted.length + 1 := by simp
      rcases ih (r.accept e) with ⟨r', hsend, haccepts, hanswered⟩ |
        ⟨err, r', before, e', after, hsend, rfl, haccepts, hanswered, hrefused⟩
      · rw [hlength] at hanswered
        exact .inl ⟨r', hsend, haccepts.cons, hanswered.cons hanswer⟩
      · rw [hlength] at hanswered hrefused
        refine .inr ⟨err, r', e :: before, e', after, hsend, rfl, haccepts.cons,
          hanswered.cons hanswer, ?_⟩
        rwa [List.length_cons, Nat.add_comm before.length, ← Nat.add_assoc]

/-! ### What a request would send -/

/-- Every event that the request has to send, with the tracker after the conversion of its action. -/
def requestEvents (env : RequestEnv) :
    ℕ → List AgentAction → InputStateTracker → UInt32 × UInt32 →
      List (InputEvent × InputStateTracker)
  | _, [], _, _ => []
  | i, action :: rest, t, pos =>
    match convertAgentActionToEvents (env.drain i) action t pos env.width.toFloat32.toBits
        env.height.toFloat32.toBits (env.now i) with
    | (.error _, _, _) => []
    | (.ok events, t, pos) => events.map (·, t) ++ requestEvents env (i + 1) rest t pos

/-- The whole of `plan` was accepted, and the tracker covers it. -/
structure Completed (env : RequestEnv) (plan : List (InputEvent × InputStateTracker))
    (r r' : Request) : Prop where
  accepted : r'.accepted = r.accepted ++ plan.map Prod.fst
  covers : Covers backendEffect (plan.map Prod.fst) r.tracker.Holds r'.tracker.Holds
  answered : Answered env.answer r.accepted.length plan.length

/-- The event `e` of `plan` was refused. -/
structure Refused (env : RequestEnv) (plan : List (InputEvent × InputStateTracker))
    (r r' : Request) (before after : List (InputEvent × InputStateTracker)) (e : InputEvent) :
    Prop where
  plan : plan = before ++ (e, r'.tracker) :: after
  accepted : r'.accepted = r.accepted ++ before.map Prod.fst
  knows : r.Knows → r'.Knows
  answered : Answered env.answer r.accepted.length before.length
  refused : env.answer (r.accepted.length + before.length) ≠ none

theorem map_fst_pair (events : List InputEvent) (t : InputStateTracker) :
    (events.map (·, t)).map Prod.fst = events := by
  rw [List.map_map]
  exact List.map_id events

theorem runActions_cases (env : RequestEnv) (i : ℕ) (actions : List AgentAction) (r : Request) :
    let plan := requestEvents env i actions r.tracker r.pos
    ((∀ err, (runActions env i actions r).1 ≠ .refused err) ∧
        Completed env plan r (runActions env i actions r).2) ∨
      ∃ err before after e, (runActions env i actions r).1 = .refused err ∧
        Refused env plan r (runActions env i actions r).2 before after e := by
  induction actions generalizing i r with
  | nil =>
    refine .inl ⟨fun err => Ending.noConfusion, ?_⟩
    exact ⟨(List.append_nil _).symm, .of_balanced .nil, fun i hi => nomatch hi⟩
  | cons action rest ih =>
    have hsound := convert_sound (env.drain i) action r.tracker r.pos env.width.toFloat32.toBits
      env.height.toFloat32.toBits (env.now i)
    simp only [requestEvents, runActions]
    rcases hconvert : convertAgentActionToEvents (env.drain i) action r.tracker r.pos
      env.width.toFloat32.toBits env.height.toFloat32.toBits (env.now i) with ⟨result, t, pos⟩
    rw [hconvert] at hsound
    have hcovers := Covers.backend hsound.covers
    cases result with
    | error e =>
      refine .inl ⟨fun err => Ending.noConfusion, ?_⟩
      exact ⟨(List.append_nil _).symm, hcovers, fun i hi => nomatch hi⟩
    | ok events =>
      rcases sendEvents_cases env.answer { r with tracker := t, pos } events with
        ⟨r', hsend, haccepts, hanswered⟩ |
        ⟨err, r', before, e, after, hsend, rfl, haccepts, hanswered, hrefused⟩
      · -- all of the action's events were accepted
        simp only [hsend]
        have htracker : r'.tracker = t := haccepts.tracker
        have hpos : r'.pos = pos := haccepts.pos
        have hlength : r'.accepted.length = r.accepted.length + events.length := by
          rw [haccepts.accepted, List.length_append]
        have hih := ih (i + 1) r'
        rw [htracker, hpos] at hih
        have hcat {n : ℕ} (h : Answered env.answer r'.accepted.length n) :
            Answered env.answer r.accepted.length ((events.map (·, t)).length + n) := by
          rw [List.length_map]
          exact hanswered.append (hlength ▸ h)
        have hfst := map_fst_pair events t
        rcases hih with ⟨hending, hdone⟩ | ⟨err, before, after, e, hending, hrefused⟩
        · refine .inl ⟨hending, ?_, ?_, ?_⟩
          · rw [hdone.accepted, haccepts.accepted, List.map_append, hfst, List.append_assoc]
          · rw [List.map_append, hfst]
            exact hcovers.trans (htracker ▸ hdone.covers)
          · rw [List.length_append]
            exact hcat hdone.answered
        · refine .inr ⟨err, events.map (·, t) ++ before, after, e, hending, ?_, ?_, ?_, ?_, ?_⟩
          · rw [hrefused.plan, List.append_assoc]
          · rw [hrefused.accepted, haccepts.accepted, List.map_append, hfst, List.append_assoc]
          · exact fun hr => hrefused.knows (haccepts.knows hr)
          · rw [List.length_append]
            exact hcat hrefused.answered
          · rw [List.length_append, List.length_map, ← Nat.add_assoc, ← hlength]
            exact hrefused.refused
      · -- one of them was refused
        simp only [hsend]
        have htracker : r'.tracker = t := haccepts.tracker
        refine .inr ⟨err, before.map (·, t), after.map (·, t) ++
          requestEvents env (i + 1) rest t pos, e, rfl, ?_, ?_, haccepts.knows, ?_, ?_⟩
        · rw [htracker]
          simp
        · rw [haccepts.accepted, map_fst_pair]
        · rw [List.length_map]
          exact hanswered
        · rw [List.length_map, hrefused]
          exact Option.some_ne_none err

theorem holds_recordButtonDown (t : InputStateTracker) (b : MouseButton) (now : ℕ)
    (item : Item) : (t.recordButtonDown b now).Holds item ↔ t.Holds item ∨ item = .button b := by
  cases item <;> simp [Holds, recordButtonDown, or_comm]

theorem holds_recordKeyDown (t : InputStateTracker) (code : UInt16) (m : Modifiers) (now : ℕ)
    (item : Item) : (t.recordKeyDown code m now).Holds item ↔ t.Holds item ∨ item = .key code := by
  cases item <;> simp [Holds, recordKeyDown, or_comm]

theorem holds_rerecordHeld (env : ReleaseEnv) (r : Request) (item : Item) :
    (r.rerecordHeld env).Holds item ↔ r.tracker.Holds item ∨ r.Has item := by
  have hbuttons (t : InputStateTracker) (bs : List MouseButton) :
      (bs.foldl (fun t b => t.recordButtonDown b env.now) t).Holds item ↔
        t.Holds item ∨ ∃ b ∈ bs, item = .button b := by
    induction bs generalizing t with
    | nil => simp
    | cons b bs ih =>
      rw [List.foldl_cons, ih, holds_recordButtonDown, or_assoc, List.exists_mem_cons_iff]
  have hkeys (t : InputStateTracker) (es : List ((_ : UInt16) × Modifiers)) :
      (es.foldl (fun t e => t.recordKeyDown e.1 e.2 env.now) t).Holds item ↔
        t.Holds item ∨ ∃ e ∈ es, item = .key e.1 := by
    induction es generalizing t with
    | nil => simp
    | cons e es ih =>
      rw [List.foldl_cons, ih, holds_recordKeyDown, or_assoc, List.exists_mem_cons_iff]
  rw [Request.rerecordHeld, hkeys, hbuttons, or_assoc]
  refine or_congr_right ?_
  cases item with
  | key code =>
    simp only [Request.Has, Item.key.injEq, reduceCtorEq, and_false, exists_false, false_or]
    constructor
    · rintro ⟨e, he, rfl⟩
      exact List.mem_map_of_mem he
    · intro h
      obtain ⟨e, he, rfl⟩ := List.mem_map.mp h
      exact ⟨e, he, rfl⟩
  | button b =>
    simp only [Request.Has, Item.button.injEq, reduceCtorEq, and_false, exists_false, or_false]
    constructor
    · rintro ⟨b, hb, rfl⟩
      exact env.drain.mem_buttons.mp hb
    · intro h
      exact ⟨b, env.drain.mem_buttons.mpr h, rfl⟩

/-! ### Transactions -/

/-- The Reset of the cleanup is accepted; or at the first event that is refused, whatever has been
down since before the request, neither pressed nor released by its events so far, is still on
record after the conversion of the action. -/
def Recoverable (s : ServerInput) (env : RequestEnv) (actions : List AgentAction) : Prop :=
  env.cleanup.answers.reset = none ∨
    ∀ before e t after,
      requestEvents env 0 actions s.tracker s.pos = before ++ (e, t) :: after →
      Answered env.answer 0 before.length → env.answer before.length ≠ none →
      ∀ item, Down backendEffect s.accepted item →
        last backendEffect (before.map Prod.fst) item = none → t.Holds item

theorem first_refused_unique {answer : ℕ → Option String} {α : Type}
    {before before' after after' : List α} {x x' : α}
    (h : before ++ x :: after = before' ++ x' :: after')
    (hanswered : Answered answer 0 before.length) (hrefused : answer before.length ≠ none)
    (hanswered' : Answered answer 0 before'.length) (hrefused' : answer before'.length ≠ none) :
    before = before' ∧ x = x' := by
  have hlength : before.length = before'.length := by
    rcases Nat.lt_trichotomy before.length before'.length with hlt | heq | hgt
    · exact (hrefused (hanswered'.zero hlt)).elim
    · exact heq
    · exact (hrefused' (hanswered.zero hgt)).elim
  obtain ⟨hbefore, hrest⟩ := List.append_inj h hlength
  exact ⟨hbefore, (List.cons.inj hrest).1⟩

theorem knows_start (t : InputStateTracker) (pos : UInt32 × UInt32) :
    (Request.start t pos).Knows := by
  intro item
  cases item <;> simp [Request.start, Request.Has, Down]

theorem request_recorded_iff {s : ServerInput} (hs : s.Recorded) (env : RequestEnv)
    (actions : List AgentAction) :
    (s.request env actions).2.Recorded ↔ Recoverable s env actions := by
  have hcases := runActions_cases env 0 actions (.start s.tracker s.pos)
  rw [ServerInput.request]
  generalize runActions env 0 actions (.start s.tracker s.pos) = out at hcases ⊢
  obtain ⟨ending, r⟩ := out
  rcases hcases with ⟨hending, hdone⟩ | ⟨err, before, after, e, hending, hrefused⟩
  · have haccepted : r.accepted = (requestEvents env 0 actions s.tracker s.pos).map Prod.fst :=
      hdone.accepted
    have hrecorded : ServerInput.Recorded ⟨r.tracker, r.pos, s.accepted ++ r.accepted⟩ := by
      intro item hdown
      rw [haccepted] at hdown
      exact hdone.covers.down hs item hdown
    refine iff_of_true ?_ (.inr ?_)
    · cases ending with
      | done => exact hrecorded
      | failed e => exact hrecorded
      | refused err => exact (hending err rfl).elim
    · intro before e t after hplan _ hanswer
      have hlt : before.length < (requestEvents env 0 actions s.tracker s.pos).length := by
        simp [hplan]
      exact (hanswer (Answered.zero hdone.answered hlt)).elim
  · obtain rfl : ending = .refused err := hending
    have hknows := hrefused.knows (knows_start s.tracker s.pos)
    have haccepted : r.accepted = before.map Prod.fst := hrefused.accepted
    have hanswered : Answered env.answer 0 before.length := hrefused.answered
    have hanswer : env.answer before.length ≠ none := by
      have := hrefused.refused
      rwa [show (Request.start s.tracker s.pos).accepted.length = 0 from rfl, Nat.zero_add] at this
    dsimp only
    constructor
    · intro hrecorded
      refine or_iff_not_imp_left.mpr fun hreset before' e' t' after' hplan hanswered' hanswer'
        item hdown hnone => ?_
      obtain ⟨rfl, hpair⟩ := first_refused_unique (hplan.symm.trans hrefused.plan) hanswered'
        hanswer' hanswered hanswer
      obtain rfl : t' = r.tracker := (Prod.mk.inj hpair).2
      by_contra hlost
      rw [← haccepted] at hnone
      have hheld : ¬ (r.rerecordHeld env.cleanup).Holds item := by
        rw [holds_rerecordHeld, hknows item, Down, hnone]
        simp [hlost]
      have hdown : Down backendEffect (s.accepted ++ r.accepted) item :=
        down_append.mpr (.inr ⟨hnone, hdown⟩)
      obtain ⟨hstill, hgone⟩ := releaseInputs_lost hreset hdown hheld
      exact hgone (hrecorded item hstill)
    · rintro (hreset | hkept) item hdown
      · -- the Reset of the cleanup went through
        obtain ⟨accepted, -, ⟨-, heq, -⟩ | ⟨hno, -⟩⟩ :=
          releaseInputs_cases env.cleanup (r.rerecordHeld env.cleanup) r.pos
        · rw [heq, ← List.append_assoc] at hdown
          exact (not_down_of_reset rfl item hdown).elim
        · exact (hno hreset).elim
      · refine releaseInputs_recorded (fun item hdown => ?_) item hdown
        rw [holds_rerecordHeld, hknows item]
        rcases down_append.mp hdown with hnew | ⟨hnone, hold⟩
        · exact .inr hnew
        · rw [haccepted] at hnone
          exact .inl (hkept before e r.tracker after hrefused.plan hanswered hanswer item hold hnone)

/-- The condition on a transaction. -/
def Transaction.Recoverable (s : ServerInput) : Transaction → Prop
  | .request env actions => Agent.Recoverable s env actions
  | _ => True

theorem perform_recorded_iff {s : ServerInput} (hs : s.Recorded) (t : Transaction) :
    (s.perform t).Recorded ↔ t.Recoverable s := by
  cases t with
  | request env actions => exact request_recorded_iff hs env actions
  | reset env => exact iff_of_true (releaseInputs_recorded hs) trivial
  | watchdog pos env =>
    refine iff_of_true ?_ trivial
    simp only [ServerInput.perform, ServerInput.watchdog]
    split
    · intro item hdown
      have hholds := releaseInputs_recorded hs item hdown
      dsimp only
      split
      · exact hholds
      · exact hholds
    · exact hs

/-- **What the backend holds is on record**, in the runs whose requests are recoverable and in no
other. -/
theorem held_input_recorded (now : ℕ) (ts : List Transaction) :
    Machine.Along (fun s t => some (ServerInput.perform s t)) (fun s t => t.Recoverable s)
        (.new now) ts ↔
      ∀ us, us <+: ts → (us.foldl ServerInput.perform (.new now)).Recorded := by
  have hrun (s : ServerInput) (us : List Transaction) :
      Machine.run (fun s t => some (ServerInput.perform s t)) s us =
        some (us.foldl ServerInput.perform s) := by
    induction us generalizing s with
    | nil => rfl
    | cons u us ih => exact ih (s.perform u)
  have hstep {s s' : ServerInput} {t : Transaction} (hs : s.Recorded)
      (h : some (s.perform t) = some s') : s'.Recorded ↔ t.Recoverable s := by
    obtain rfl := Option.some.inj h
    exact perform_recorded_iff hs t
  have h₀ : (ServerInput.new now).Recorded := fun item h => (Balanced.nil item h).elim
  refine (Machine.along_iff hstep h₀ (hrun _ ts)).trans (forall_congr' fun us => ?_)
  refine ⟨fun h hus => h _ hus (hrun _ us), fun h t hus ht => ?_⟩
  obtain rfl := Option.some.inj ((hrun _ us).symm.trans ht)
  exact h hus

/-! ### A button without a record -/

/-- An answer to every event of a release. -/
def ReleaseEnv.always (answer : Option String) : ReleaseEnv := ⟨.ascending, 0, ⟨fun _ => answer, answer⟩⟩

/-- A request to which the backend always answers the same. -/
def RequestEnv.always (answer : Option String) : RequestEnv :=
  ⟨fun _ => .ascending, fun _ => 0, 800, 600, fun _ => answer, .always answer⟩

/-- The button goes down, and then the backend refuses both its Up and the Reset of the cleanup. -/
def losingButton : List Transaction :=
  [.request (.always none) [.mouseDown .left],
    .request (.always (some "offline")) [.mouseUp .left]]

theorem held_button_lost :
    ¬ ∀ ts : List Transaction, (ts.foldl ServerInput.perform (.new 0)).Recorded := by
  intro h
  have hdown : last backendEffect (losingButton.foldl ServerInput.perform (.new 0)).accepted
      (.button .left) = some true := by
    decide +kernel
  have hlost : MouseButton.left ∉
      (losingButton.foldl ServerInput.perform (.new 0)).tracker.activeButtons := by
    decide +kernel
  exact hlost (h losingButton (.button .left) hdown)

end MahoRD.Agent

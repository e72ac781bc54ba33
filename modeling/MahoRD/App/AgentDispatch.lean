/-
MahoRD/App/AgentDispatch.lean

The other two dispatchers of agent actions: that of the MCP server (`maho-app/src/mcp_dispatch.rs`)
and the desktop commands `agent_execute_action` and `agent_release_all` (`tauri-shell`).

Both take everything off the record before a release is sent, and neither puts it back when a send
fails; the desktop has no cleanup after a failed action at all.  So the record is complete just in
the runs that are `Safe`.
-/
import MahoRD.App.AgentRecord
import MahoRD.Lib.History

namespace MahoRD.Agent

open Presses InputStateTracker

/-! ### Sending -/

/-- A release: the order in which the record is drained, the instant, and what the backend answers
to the `i`-th event. -/
structure Sends where
  drain : Drain
  now : ℕ
  answer : ℕ → Option String

/-- Up to the first event that is refused, counted from `i`. -/
def sendUntil (answer : ℕ → Option String) : ℕ → List InputEvent → List InputEvent × Option String
  | _, [] => ([], none)
  | i, e :: rest =>
    match answer i with
    | some err => ([], some err)
    | none =>
      let (accepted, error) := sendUntil answer (i + 1) rest
      (e :: accepted, error)

/-- Whatever is refused. -/
def sendAll (answer : ℕ → Option String) : ℕ → List InputEvent → List InputEvent × List String
  | _, [] => ([], [])
  | i, e :: rest =>
    let (accepted, errors) := sendAll answer (i + 1) rest
    match answer i with
    | some err => (accepted, err :: errors)
    | none => (e :: accepted, errors)

/-! ### The dispatchers -/

inductive DispatchError
  | unknownTool
  | invalid (error : AgentInputError)
  | failed (message : String)
  | inactive (message : String)

/-- What an action depends on: its sends, the size of the screen, and the cleanup. -/
structure ActionEnv extends Sends where
  width : UInt32
  height : UInt32
  cleanup : Sends

def ActionEnv.convert (env : ActionEnv) (s : ServerInput) (action : AgentAction) : Conversion :=
  convertAgentActionToEvents env.drain action s.tracker s.pos env.width.toFloat32.toBits
    env.height.toFloat32.toBits env.now

/-- The tool that an action belongs to. -/
def mcpTool : AgentAction → Option String
  | .click .. => some "remote_mouse_click"
  | .mouseMove .. => some "remote_mouse_move"
  | .drag .. => some "remote_mouse_drag"
  | .scroll .. => some "remote_mouse_scroll"
  | .keyPress .. => some "remote_key_press"
  | .hotkey .. => some "remote_hotkey"
  | .typeText .. => some "remote_type_text"
  | .mouseDown _ | .mouseUp _ | .keyDown _ | .keyUp _ | .releaseAll => none

namespace ServerInput

/-- `release` of the MCP server, also the tool `remote_release_all`. -/
def mcpRelease (s : ServerInput) (env : Sends) : Except String ℕ × ServerInput :=
  let (events, tracker) := s.tracker.releaseAll env.drain s.pos env.now
  let (accepted, errors) := sendAll env.answer 0 events
  (if errors.isEmpty then .ok events.length else .error ("; ".intercalate errors),
    ⟨tracker, s.pos, s.accepted ++ accepted⟩)

def mcpAction (s : ServerInput) (env : ActionEnv) (action : AgentAction) :
    Except DispatchError ℕ × ServerInput :=
  if (mcpTool action).isNone then (.error .unknownTool, s)
  else
    match env.convert s action with
    | (.error e, tracker, pos) => (.error (.invalid e), ⟨tracker, pos, s.accepted⟩)
    | (.ok events, tracker, pos) =>
      match sendUntil env.answer 0 events with
      | (accepted, none) => (.ok events.length, ⟨tracker, pos, s.accepted ++ accepted⟩)
      | (accepted, some err) =>
        let (cleanup, s) :=
          ServerInput.mcpRelease ⟨tracker, pos, s.accepted ++ accepted⟩ env.cleanup
        let message :=
          match cleanup with
          | .ok _ => err
          | .error cleanup => err ++ "; cleanup: " ++ cleanup
        (.error (.failed message), s)

def agentExecuteAction (s : ServerInput) (stopMediaFlag session : Bool) (env : ActionEnv)
    (action : AgentAction) : Except DispatchError ℕ × ServerInput :=
  if stopMediaFlag then (.error (.inactive "Session disconnecting or inactive"), s)
  else if !session then (.error (.inactive "Session not active"), s)
  else
    match env.convert s action with
    | (.error e, tracker, pos) => (.error (.invalid e), ⟨tracker, pos, s.accepted⟩)
    | (.ok events, tracker, pos) =>
      match sendUntil env.answer 0 events with
      | (accepted, none) => (.ok events.length, ⟨tracker, pos, s.accepted ++ accepted⟩)
      | (accepted, some err) => (.error (.failed err), ⟨tracker, pos, s.accepted ++ accepted⟩)

def agentReleaseAll (s : ServerInput) (session : Bool) (env : Sends) :
    Except DispatchError ℕ × ServerInput :=
  if !session then (.error (.inactive "Session not active"), s)
  else
    let (events, tracker) := s.tracker.releaseAll env.drain s.pos env.now
    match sendUntil env.answer 0 events with
    | (accepted, none) => (.ok events.length, ⟨tracker, s.pos, s.accepted ++ accepted⟩)
    | (accepted, some err) => (.error (.failed err), ⟨tracker, s.pos, s.accepted ++ accepted⟩)

end ServerInput

inductive Command
  | mcpRelease (env : Sends)
  | mcpAction (env : ActionEnv) (action : AgentAction)
  | agentExecuteAction (stopMediaFlag session : Bool) (env : ActionEnv) (action : AgentAction)
  | agentReleaseAll (session : Bool) (env : Sends)

def ServerInput.dispatch (s : ServerInput) : Command → ServerInput
  | .mcpRelease env => (s.mcpRelease env).2
  | .mcpAction env action => (s.mcpAction env action).2
  | .agentExecuteAction stopMediaFlag session env action =>
    (s.agentExecuteAction stopMediaFlag session env action).2
  | .agentReleaseAll session env => (s.agentReleaseAll session env).2

def ServerInput.dispatchAll (s : ServerInput) (commands : List Command) : ServerInput :=
  commands.foldl ServerInput.dispatch s

/-! ### What can go wrong -/

/-- Some event of the release is refused. -/
def Sends.Fails (env : Sends) (s : ServerInput) : Prop :=
  ¬ Answered env.answer 0 (s.tracker.releaseAll env.drain s.pos env.now).1.length

/-- A command makes a release, and some event of it is refused. -/
def ReleaseFails (s : ServerInput) : Command → Prop
  | .mcpRelease env => env.Fails s
  | .mcpAction env action => (mcpTool action).isSome ∧
      ∃ events tracker pos, env.convert s action = (.ok events, tracker, pos) ∧
        ∃ before e after, events = before ++ e :: after ∧ Answered env.answer 0 before.length ∧
          env.answer before.length ≠ none ∧
          env.cleanup.Fails ⟨tracker, pos, s.accepted ++ before⟩
  | .agentExecuteAction stopMediaFlag session env action =>
      stopMediaFlag = false ∧ session = true ∧ action = .releaseAll ∧ env.toSends.Fails s
  | .agentReleaseAll session env => session = true ∧ env.Fails s

/-- What an action takes off the record. -/
def AgentAction.TakesOff : AgentAction → Item → Prop
  | .mouseUp button, item | .drag _ _ _ _ button _ _ _, item => item = .button button
  | .keyUp key, item => ∃ k mods code, parseKeyName key = .ok (k, mods) ∧
      requireMacosKeycode k key = .ok code ∧ item = .key code
  | .releaseAll, _ => True
  | _, _ => False

/-- When the first event of a desktop action is refused, whatever the backend holds then was on
record before the action, and the action does not take it off. -/
def Kept (s : ServerInput) : Command → Prop
  | .agentExecuteAction stopMediaFlag session env action =>
      stopMediaFlag = false → session = true → ∀ before e after tracker pos,
        env.convert s action = (.ok (before ++ e :: after), tracker, pos) →
        Answered env.answer 0 before.length → env.answer before.length ≠ none →
        ∀ item, Down backendEffect (s.accepted ++ before) item →
          s.tracker.Holds item ∧ ¬ action.TakesOff item
  | .mcpRelease _ | .mcpAction _ _ | .agentReleaseAll _ _ => True

def Safe (s : ServerInput) (command : Command) : Prop :=
  ¬ ReleaseFails s command ∧ Kept s command

/-- Whatever the backend holds is on record in every state, and a release some of whose events are
refused leaves something on record. -/
structure Complete (s : ServerInput) (commands : List Command) : Prop where
  recorded : ∀ before, before <+: commands → (s.dispatchAll before).Recorded
  release : History.Each (fun before command _ => ReleaseFails (s.dispatchAll before) command →
    ∃ item, ((s.dispatchAll before).dispatch command).tracker.Holds item) commands

/-! ### Sends -/

theorem sendUntil_cases (answer : ℕ → Option String) (i : ℕ) (events : List InputEvent) :
    (sendUntil answer i events = (events, none) ∧ Answered answer i events.length) ∨
      ∃ err before e after, sendUntil answer i events = (before, some err) ∧
        events = before ++ e :: after ∧ Answered answer i before.length ∧
        answer (i + before.length) ≠ none := by
  induction events generalizing i with
  | nil => exact .inl ⟨rfl, fun i hi => nomatch hi⟩
  | cons e events ih =>
    rw [sendUntil]
    cases hanswer : answer i with
    | some err =>
      refine .inr ⟨err, [], e, events, rfl, rfl, (fun i hi => nomatch hi), ?_⟩
      rw [List.length_nil, Nat.add_zero, hanswer]
      exact Option.some_ne_none err
    | none =>
      rcases ih (i + 1) with ⟨hsend, hanswered⟩ |
        ⟨err, before, e', after, hsend, rfl, hanswered, hrefused⟩
      · rw [hsend]
        exact .inl ⟨rfl, hanswered.cons hanswer⟩
      · rw [hsend]
        refine .inr ⟨err, e :: before, e', after, rfl, rfl, hanswered.cons hanswer, ?_⟩
        rwa [List.length_cons, Nat.add_comm before.length, ← Nat.add_assoc]

theorem sendAll_of_answered {answer : ℕ → Option String} {i : ℕ} {events : List InputEvent}
    (h : Answered answer i events.length) : sendAll answer i events = (events, []) := by
  induction events generalizing i with
  | nil => rfl
  | cons e events ih =>
    have hfirst : answer i = none := h 0 (Nat.succ_pos _)
    have hrest : Answered answer (i + 1) events.length := by
      intro j hj
      have := h (j + 1) (Nat.succ_lt_succ hj)
      rwa [← Nat.add_assoc, Nat.add_right_comm] at this
    rw [sendAll, ih hrest, hfirst]

theorem not_answered {answer : ℕ → Option String} {before after : List InputEvent} {e : InputEvent}
    (h : answer before.length ≠ none) : ¬ Answered answer 0 (before ++ e :: after).length := by
  intro hanswered
  exact h (hanswered.zero (by simp))

/-! ### What a conversion leaves on record -/

theorem not_holds_clear (t : InputStateTracker) (now : ℕ) (item : Item) :
    ¬ (t.clear now).Holds item := by
  cases item with
  | key code => exact Finset.notMem_empty code
  | button button => exact Finset.notMem_empty button

theorem holds_recordButtonUp (t : InputStateTracker) (b : MouseButton) (now : ℕ) (item : Item) :
    (t.recordButtonUp b now).Holds item ↔ t.Holds item ∧ item ≠ .button b := by
  cases item <;> simp [Holds, recordButtonUp, and_comm]

theorem holds_recordKeyUp (t : InputStateTracker) (code : UInt16) (now : ℕ) (item : Item) :
    (t.recordKeyUp code now).Holds item ↔ t.Holds item ∧ item ≠ .key code := by
  cases item <;> simp [Holds, recordKeyUp, and_comm]

/-- What was on record stays there, unless the action takes it off; only a single Down puts on
record what was not. -/
structure Tracks (action : AgentAction) (t t' : InputStateTracker) (events : List InputEvent) :
    Prop where
  keeps : ∀ item, t.Holds item → ¬ action.TakesOff item → t'.Holds item
  off : ∀ item, t'.Holds item → ¬ action.TakesOff item
  on : ∀ item, t'.Holds item → t.Holds item ∨ events.length = 1

theorem Tracks.same {action : AgentAction} (h : ∀ item, ¬ action.TakesOff item)
    (t : InputStateTracker) (events : List InputEvent) : Tracks action t t events :=
  ⟨fun _ hi _ => hi, fun item _ => h item, fun _ => .inl⟩

variable {pos : UInt32 × UInt32} {s : ServerInput} {env : ActionEnv} {tracker : InputStateTracker}

theorem convert_tracks {drain : Drain} {action : AgentAction} {t t' : InputStateTracker}
    {pos' : UInt32 × UInt32} {hostWidth hostHeight : UInt32} {now : ℕ}
    {events : List InputEvent}
    (h : convertAgentActionToEvents drain action t pos hostWidth hostHeight now =
      (.ok events, t', pos')) : Tracks action t t' events := by
  rw [convertAgentActionToEvents] at h
  split at h
  · cases h
  cases action with
  | mouseDown button =>
    cases h
    exact ⟨fun item hi _ => (holds_recordButtonDown t button now item).mpr (.inl hi),
      fun _ _ => id, fun _ _ => .inr rfl⟩
  | mouseUp button =>
    cases h
    refine ⟨fun item hi hne => (holds_recordButtonUp t button now item).mpr ⟨hi, hne⟩,
      fun item hi => ((holds_recordButtonUp t button now item).mp hi).2,
      fun item hi => .inl ((holds_recordButtonUp t button now item).mp hi).1⟩
  | drag startX startY endX endY button steps durationMs normalized =>
    simp only [convertWithinBound] at h
    split at h
    · cases h
    · cases h
    · cases h
      refine ⟨fun item hi hne => ?_, fun item hi => ?_, fun item hi => ?_⟩
      · refine (holds_recordButtonUp _ button now item).mpr ⟨?_, hne⟩
        exact (holds_recordButtonDown t button now item).mpr (.inl hi)
      · exact ((holds_recordButtonUp _ button now item).mp hi).2
      · obtain ⟨hdown, hne⟩ := (holds_recordButtonUp _ button now item).mp hi
        exact .inl (((holds_recordButtonDown t button now item).mp hdown).resolve_right hne)
  | keyDown key =>
    simp only [convertWithinBound] at h
    split at h
    · cases h
    · cases h
      exact ⟨fun item hi _ => (holds_recordKeyDown t _ _ now item).mpr (.inl hi),
        fun _ _ => id, fun _ _ => .inr rfl⟩
  | keyUp key =>
    simp only [convertWithinBound] at h
    split at h
    · cases h
    next code hparsed =>
      cases h
      obtain ⟨⟨k, mods⟩, hparse, hcode⟩ := Parse.except_bind_eq_ok.mp hparsed
      refine ⟨fun item hi hoff => (holds_recordKeyUp t code now item).mpr ⟨hi, ?_⟩,
        fun item hi => ?_, fun item hi => .inl ((holds_recordKeyUp t code now item).mp hi).1⟩
      · rintro rfl
        exact hoff ⟨k, mods, code, hparse, hcode, rfl⟩
      · rintro ⟨k', mods', code', hparse', hcode', rfl⟩
        cases hparse.symm.trans hparse'
        cases hcode.symm.trans hcode'
        exact ((holds_recordKeyUp t code now _).mp hi).2 rfl
  | releaseAll =>
    cases h
    exact ⟨fun _ _ h => (h trivial).elim, fun item hi => (not_holds_clear t now item hi).elim,
      fun item hi => (not_holds_clear t now item hi).elim⟩
  | typeText text delayMs pasteMode =>
    cases h
    refine .same (fun item hoff => ?_) t _
    exact hoff
  | mouseMove | click | scroll | keyPress | hotkey =>
    simp only [convertWithinBound] at h
    split at h
    · cases h
    · cases h
      refine .same (fun item hoff => ?_) _ _
      exact hoff

/-! ### Releases -/

theorem recorded_of_reset {log : List InputEvent} {reset : InputEvent}
    (hreset : reset.eventType = .reset) (h : s.accepted = log ++ [reset]) : s.Recorded := by
  intro item hdown
  rw [h] at hdown
  exact (not_down_of_reset hreset item hdown).elim

theorem mcpRelease_snd (s : ServerInput) (env : Sends) :
    (s.mcpRelease env).2 = ⟨s.tracker.clear env.now, s.pos,
      s.accepted ++ (sendAll env.answer 0 (s.tracker.releaseAll env.drain s.pos env.now).1).1⟩ :=
  rfl

theorem mcpRelease_recorded {env : Sends} (h : ¬ env.Fails s) :
    (s.mcpRelease env).2.Recorded := by
  rw [mcpRelease_snd, sendAll_of_answered (not_not.mp h), releaseAll_fst, ← List.append_assoc]
  exact recorded_of_reset rfl rfl

theorem agentReleaseAll_cases (s : ServerInput) (env : Sends) :
    ∃ accepted, (s.agentReleaseAll true env).2 =
        ⟨s.tracker.clear env.now, s.pos, s.accepted ++ accepted⟩ ∧
      (¬ env.Fails s → accepted = (s.tracker.releaseAll env.drain s.pos env.now).1) := by
  have hsend := sendUntil_cases env.answer 0 (s.tracker.releaseAll env.drain s.pos env.now).1
  rw [ServerInput.agentReleaseAll, if_neg (by simp)]
  rcases hsend with ⟨hsend, -⟩ | ⟨err, before, e, after, hsend, hevents, -, hrefused⟩
  · refine ⟨_, ?_, fun _ => rfl⟩
    simp only [hsend]
    rfl
  · refine ⟨before, ?_, fun hanswered => ?_⟩
    · simp only [hsend]
      rfl
    · rw [Sends.Fails, not_not, hevents] at hanswered
      rw [Nat.zero_add] at hrefused
      exact (not_answered hrefused hanswered).elim

/-! ### Actions -/

/-- What a conversion makes of a complete record, if all its events are accepted. -/
theorem convert_recorded (hs : s.Recorded)
    {action : AgentAction} {result : Except AgentInputError (List InputEvent)}
    (h : env.convert s action = (result, tracker, pos)) :
    ServerInput.Recorded ⟨tracker, pos, s.accepted ++ result.toOption.getD []⟩ := by
  have hsound := convert_sound env.drain action s.tracker s.pos env.width.toFloat32.toBits
    env.height.toFloat32.toBits env.now
  rw [show convertAgentActionToEvents _ _ _ _ _ _ _ = _ from h] at hsound
  have hcovers := (Covers.backend hsound.covers).down hs
  cases result with
  | error e => exact hcovers
  | ok events => exact hcovers

theorem convert_error_recorded (hs : s.Recorded)
    {action : AgentAction} {e : AgentInputError} (h : env.convert s action = (.error e, tracker, pos)) :
    ServerInput.Recorded ⟨tracker, pos, s.accepted⟩ := by
  have hrecorded := convert_recorded hs h
  rwa [show (Except.error e : Except AgentInputError (List InputEvent)).toOption.getD [] = []
    from rfl, List.append_nil] at hrecorded

/-- What an action comes to, before any cleanup. -/
inductive Acts (s : ServerInput) (env : ActionEnv) (action : AgentAction) :
    Except DispatchError ℕ × ServerInput → Prop
  | invalid {e : AgentInputError} {tracker : InputStateTracker} {pos : UInt32 × UInt32}
      (hconvert : env.convert s action = (.error e, tracker, pos)) :
      Acts s env action (.error (.invalid e), ⟨tracker, pos, s.accepted⟩)
  | sent {events : List InputEvent} {tracker : InputStateTracker} {pos : UInt32 × UInt32}
      (hconvert : env.convert s action = (.ok events, tracker, pos))
      (hanswered : Answered env.answer 0 events.length) :
      Acts s env action (.ok events.length, ⟨tracker, pos, s.accepted ++ events⟩)
  | refused {before after : List InputEvent} {e : InputEvent} {err : String}
      {tracker : InputStateTracker} {pos : UInt32 × UInt32}
      (hconvert : env.convert s action = (.ok (before ++ e :: after), tracker, pos))
      (hanswered : Answered env.answer 0 before.length)
      (hrefused : env.answer before.length ≠ none) :
      Acts s env action (.error (.failed err), ⟨tracker, pos, s.accepted ++ before⟩)

theorem agentExecuteAction_acts (s : ServerInput) (env : ActionEnv) (action : AgentAction) :
    Acts s env action (s.agentExecuteAction false true env action) := by
  rw [ServerInput.agentExecuteAction, if_neg (by simp), if_neg (by simp)]
  rcases hconvert : env.convert s action with ⟨e | events, tracker, pos⟩
  · exact .invalid hconvert
  · rcases sendUntil_cases env.answer 0 events with ⟨hsend, hanswered⟩ |
      ⟨err, before, e, after, hsend, rfl, hanswered, hrefused⟩
    · simp only [hsend]
      exact .sent hconvert hanswered
    · rw [Nat.zero_add] at hrefused
      simp only [hsend]
      exact .refused hconvert hanswered hrefused

/-- The MCP server does what the desktop does, and makes a release if that has failed. -/
theorem mcpAction_snd {action : AgentAction}
    (htool : (mcpTool action).isSome) :
    (s.mcpAction env action).2 =
      match s.agentExecuteAction false true env action with
      | (.error (.failed _), s) => (s.mcpRelease env.cleanup).2
      | (_, s) => s := by
  have hnone : ¬ (mcpTool action).isNone = true :=
    fun h => Option.isSome_iff_ne_none.mp htool (Option.isNone_iff_eq_none.mp h)
  rw [ServerInput.mcpAction, if_neg hnone, ServerInput.agentExecuteAction, if_neg (by simp),
    if_neg (by simp)]
  rcases env.convert s action with ⟨e | events, tracker, pos⟩
  · rfl
  · dsimp only
    rcases sendUntil env.answer 0 events with ⟨accepted, - | err⟩ <;> rfl

/-- The two ways of splitting the events of an action at the first one that is refused. -/
theorem refused_unique {action : AgentAction}
    {before before' after after' : List InputEvent} {e e' : InputEvent}
    {tracker' : InputStateTracker} {pos' : UInt32 × UInt32}
    (h : env.convert s action = (.ok (before ++ e :: after), tracker, pos))
    (h' : env.convert s action = (.ok (before' ++ e' :: after'), tracker', pos'))
    (hanswered : Answered env.answer 0 before.length) (hrefused : env.answer before.length ≠ none)
    (hanswered' : Answered env.answer 0 before'.length)
    (hrefused' : env.answer before'.length ≠ none) :
    before = before' ∧ tracker = tracker' ∧ pos = pos' := by
  obtain ⟨hevents, htracker, hpos⟩ :
      before ++ e :: after = before' ++ e' :: after' ∧ tracker = tracker' ∧ pos = pos' := by
    simpa using h.symm.trans h'
  exact ⟨(first_refused_unique hevents hanswered hrefused hanswered' hrefused').1, htracker, hpos⟩

/-! ### Commands -/

theorem cleared_of_fails {command : Command} (h : ReleaseFails s command)
    (item : Item) : ¬ (s.dispatch command).tracker.Holds item := by
  cases command with
  | mcpRelease env => exact not_holds_clear s.tracker env.now item
  | mcpAction env action =>
    obtain ⟨htool, _, tracker, pos, hconvert, before, e, after, rfl, hanswered, hrefused, -⟩ := h
    rw [ServerInput.dispatch, mcpAction_snd htool]
    have hacts := agentExecuteAction_acts s env action
    generalize s.agentExecuteAction false true env action = out at hacts ⊢
    cases hacts with
    | invalid hinvalid => cases hinvalid.symm.trans hconvert
    | sent hsent hall =>
      obtain ⟨rfl, -⟩ : _ = before ++ e :: after ∧ _ := by simpa using hsent.symm.trans hconvert
      exact (not_answered hrefused hall).elim
    | refused => exact not_holds_clear _ env.cleanup.now item
  | agentExecuteAction stopMediaFlag session env action =>
    obtain ⟨rfl, rfl, rfl, -⟩ := h
    have hacts := agentExecuteAction_acts s env .releaseAll
    have hclear : (env.convert s .releaseAll).2.1 = s.tracker.clear env.now := rfl
    rw [ServerInput.dispatch]
    generalize s.agentExecuteAction false true env .releaseAll = out at hacts ⊢
    cases hacts with
    | invalid hconvert | sent hconvert | refused hconvert =>
      rw [hconvert] at hclear
      dsimp only at hclear ⊢
      rw [hclear]
      exact not_holds_clear s.tracker env.now item
  | agentReleaseAll session env =>
    obtain ⟨rfl, -⟩ := h
    obtain ⟨accepted, hrelease, -⟩ := agentReleaseAll_cases s env
    rw [ServerInput.dispatch, hrelease]
    exact not_holds_clear s.tracker env.now item

theorem dispatch_recorded (hs : s.Recorded) {command : Command}
    (h : Safe s command) : (s.dispatch command).Recorded := by
  obtain ⟨hrelease, hkept⟩ := h
  cases command with
  | mcpRelease env => exact mcpRelease_recorded hrelease
  | mcpAction env action =>
    cases htool : (mcpTool action).isSome with
    | false =>
      have hnone : (mcpTool action).isNone = true := Option.isNone_iff_eq_none.mpr
        (Option.not_isSome_iff_eq_none.mp (Bool.eq_false_iff.mp htool))
      rw [ServerInput.dispatch, ServerInput.mcpAction, if_pos hnone]
      exact hs
    | true =>
      rw [ServerInput.dispatch, mcpAction_snd htool]
      have hacts := agentExecuteAction_acts s env action
      generalize s.agentExecuteAction false true env action = out at hacts ⊢
      cases hacts with
      | invalid hconvert => exact convert_error_recorded hs hconvert
      | sent hconvert => exact convert_recorded hs hconvert
      | refused hconvert hanswered hrefused =>
        refine mcpRelease_recorded fun hfails => hrelease ⟨htool, _, _, _, hconvert, _, _, _, rfl,
          hanswered, hrefused, hfails⟩
  | agentExecuteAction stopMediaFlag session env action =>
    cases stopMediaFlag with
    | true => exact hs
    | false =>
      cases session with
      | false => exact hs
      | true =>
        have hacts := agentExecuteAction_acts s env action
        rw [ServerInput.dispatch]
        generalize s.agentExecuteAction false true env action = out at hacts ⊢
        cases hacts with
        | invalid hconvert => exact convert_error_recorded hs hconvert
        | sent hconvert => exact convert_recorded hs hconvert
        | refused hconvert hanswered hrefused =>
          intro item hdown
          obtain ⟨hheld, hoff⟩ := hkept rfl rfl _ _ _ _ _ hconvert hanswered hrefused item hdown
          exact (convert_tracks hconvert).keeps item hheld hoff
  | agentReleaseAll session env =>
    cases session with
    | false => exact hs
    | true =>
      obtain ⟨accepted, hstate, hall⟩ := agentReleaseAll_cases s env
      rw [ServerInput.dispatch, hstate, hall fun hfails => hrelease ⟨rfl, hfails⟩, releaseAll_fst,
        ← List.append_assoc]
      exact recorded_of_reset rfl rfl

/-- A desktop action that is refused and keeps the record complete: only a single Down puts on
record what was not there, and before it nothing is sent. -/
theorem kept_of_recorded (hs : s.Recorded) {command : Command}
    (h : (s.dispatch command).Recorded) : Kept s command := by
  cases command with
  | mcpRelease | mcpAction | agentReleaseAll => trivial
  | agentExecuteAction stopMediaFlag session env action =>
    rintro rfl rfl before e after tracker pos hconvert hanswered hrefused item hdown
    have hacts := agentExecuteAction_acts s env action
    rw [ServerInput.dispatch] at h
    generalize s.agentExecuteAction false true env action = out at hacts h
    cases hacts with
    | invalid hinvalid => cases hinvalid.symm.trans hconvert
    | sent hsent hall =>
      obtain ⟨rfl, -⟩ : _ = before ++ e :: after ∧ _ := by simpa using hsent.symm.trans hconvert
      exact (not_answered hrefused hall).elim
    | refused hconvert' hanswered' hrefused' =>
      obtain ⟨rfl, rfl, -⟩ :=
        refused_unique hconvert hconvert' hanswered hrefused hanswered' hrefused'
      have htracks := convert_tracks hconvert
      have hheld : tracker.Holds item := h item hdown
      refine ⟨?_, htracks.off item hheld⟩
      rcases htracks.on item hheld with hbefore | hsingle
      · exact hbefore
      · obtain rfl : before = [] := by
          rw [List.length_append, List.length_cons] at hsingle
          exact List.eq_nil_of_length_eq_zero (by omega)
        rw [List.append_nil] at hdown
        exact hs item hdown

/-! ### Runs -/

theorem dispatchAll_concat (s : ServerInput) (commands : List Command) (command : Command) :
    s.dispatchAll (commands ++ [command]) = (s.dispatchAll commands).dispatch command := by
  rw [ServerInput.dispatchAll, List.foldl_append]
  rfl

/-- **The record is complete, and no release that fails leaves it empty, just in the runs whose
commands are all safe**, whatever was on record first. -/
theorem dispatchers_recorded_iff {s : ServerInput} (hs : s.Recorded) (commands : List Command) :
    Complete s commands ↔
      History.Each (fun before command _ => Safe (s.dispatchAll before) command) commands := by
  constructor
  · intro h before command after hcommands
    refine ⟨fun hfails => ?_, kept_of_recorded ?_ ?_⟩
    · obtain ⟨item, hitem⟩ := h.release before command after hcommands hfails
      exact cleared_of_fails hfails item hitem
    · exact h.recorded before ⟨command :: after, hcommands.symm⟩
    · rw [← dispatchAll_concat]
      refine h.recorded _ ⟨after, ?_⟩
      rw [hcommands, List.append_assoc]
      rfl
  · intro h
    refine ⟨fun before hbefore => ?_, h.imp fun before command _ hsafe hfails =>
      (hsafe.1 hfails).elim⟩
    induction before using List.reverseRecOn with
    | nil => exact hs
    | append_singleton before command ih =>
      obtain ⟨after, rfl⟩ := hbefore
      rw [dispatchAll_concat]
      refine dispatch_recorded (ih ⟨command :: after, ?_⟩) (h before command after ?_)
      · rw [List.append_assoc]
        rfl
      · rw [List.append_assoc]
        rfl

/-- The left button is down and on record. -/
def heldLeft : ServerInput :=
  ⟨(InputStateTracker.new 5000 0).recordButtonDown .left 0, (0, 0),
    [eventAt .leftMouseDown (0, 0) 0 Modifiers.empty]⟩

theorem heldLeft_down : Down backendEffect heldLeft.accepted (.button .left) := by
  decide

theorem heldLeft_recorded : heldLeft.Recorded := by
  intro item hdown
  obtain ⟨e, he, hpress⟩ := hdown.exists_press
  obtain rfl := List.mem_singleton.mp he
  rw [backendEffect_of_ne (by decide), direction_eq_some] at hpress
  cases hpress
  exact Finset.mem_insert_self _ _

/-- A release of which every event is refused. -/
def offline : Sends := ⟨.ascending, 0, fun _ => some "offline"⟩

theorem sendAll_offline (i : ℕ) (events : List InputEvent) :
    (sendAll offline.answer i events).1 = [] := by
  induction events generalizing i with
  | nil => rfl
  | cons e events ih => exact ih (i + 1)

/-- A release that gets through. -/
theorem dispatchers_recorded_heldLeft :
    Complete heldLeft [.mcpRelease ⟨.ascending, 0, fun _ => none⟩] := by
  refine (dispatchers_recorded_iff heldLeft_recorded _).mpr fun before command after h => ?_
  have hmem : command ∈ [Command.mcpRelease ⟨.ascending, 0, fun _ => none⟩] := by
    rw [h]
    exact List.mem_append_right _ (.head _)
  obtain rfl := List.mem_singleton.mp hmem
  exact ⟨not_not.mpr fun _ _ => rfl, trivial⟩

/-- Neither release puts the button back on record. -/
theorem release_forgets :
    ¬ Complete heldLeft [.mcpRelease offline] ∧
      ¬ Complete heldLeft [.agentReleaseAll true offline] := by
  constructor
  · intro h
    have haccepted : (heldLeft.dispatch (.mcpRelease offline)).accepted = heldLeft.accepted := by
      rw [ServerInput.dispatch, mcpRelease_snd, sendAll_offline, List.append_nil]
    have hrecorded := h.recorded _ (List.prefix_refl _) (.button .left)
    exact not_holds_clear _ _ _ (hrecorded (haccepted ▸ heldLeft_down))
  · intro h
    have haccepted : (heldLeft.dispatch (.agentReleaseAll true offline)).accepted
        = heldLeft.accepted := rfl
    have hrecorded := h.recorded _ (List.prefix_refl _) (.button .left)
    exact not_holds_clear _ _ _ (hrecorded (haccepted ▸ heldLeft_down))

end MahoRD.Agent

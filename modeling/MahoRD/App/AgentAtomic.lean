/-
MahoRD/App/AgentAtomic.lean

The conversion of an agent's action (`convert_agent_action_to_events`), statement by statement:
the tracker and the position are changed where the source changes them, and an error leaves them
as they are then.  It comes to what `convertAgentActionToEvents` says (`convert_eq`).

Every statement that can fail stands before the first that changes anything, so an action that
fails has changed nothing (`agent_action_atomic`).
-/
import MahoRD.App.AgentTyping
import MahoRD.Lib.Act

namespace MahoRD.AgentConversion

open Act
open Agent

/-- The two arguments that are changed, and the events pushed so far. -/
structure Converting where
  tracker : InputStateTracker
  pos : UInt32 × UInt32
  events : List InputEvent

abbrev Converts (α : Type) := Act AgentInputError Converting α

namespace Converts

/-- `events.push` -/
def push (event : Converting → InputEvent) : Converts PUnit :=
  modify fun s => { s with events := s.events ++ [event s] }

def moveTo (pos : UInt32 × UInt32) : Converts PUnit := modify fun s => { s with pos }

def track (f : InputStateTracker → InputStateTracker) : Converts PUnit :=
  modify fun s => { s with tracker := f s.tracker }

/-- A button event at a point. -/
def pushAt (eventType : InputEventType) (point : UInt32 × UInt32) : Converts PUnit :=
  push fun s => eventAt eventType point 0 s.tracker.activeModifiers

/-- A key event at the current position. -/
def pushKey (eventType : InputEventType) (code : UInt16) (modifiers : Modifiers) :
    Converts PUnit :=
  push fun s => eventAt eventType s.pos code modifiers

/-- The key that a name stands for, and its modifiers. -/
def parsed (key : String) : Converts (UInt16 × Modifiers) := do
  let (k, mods) ← ofExcept id (parseKeyName key)
  let code ← ofExcept id (requireMacosKeycode k key)
  return (code, mods)

/-- One character of a text. -/
def typeOne (ch : Char) : Converts PUnit :=
  match synthesizeAsciiChar ch with
  | some (key, mods) =>
    match InputKeyMap.toMacos key with
    | some code => do
      pushKey .keyDown code mods
      pushKey .keyUp code mods
    | none => pure ⟨⟩
  | none => (Utf16.encode ch).forM fun unit =>
    push fun s => InputEvent.unicodeChar unit s.pos.1 s.pos.2

section Convert

variable (drain : Drain) (hostWidth hostHeight : UInt32) (now : ℕ)

/-- `normalize_agent_coordinates(..)?` -/
def normalized (x y : UInt32) (normalized : Bool) : Converts (UInt32 × UInt32) :=
  ofExcept id (normalizeAgentCoordinates x y normalized hostWidth hostHeight)

/-- The point of a scroll, if it has one. -/
def aim (norm : Bool) : Option UInt32 → Option UInt32 → Converts PUnit
  | some px, some py => do
    let wire ← normalized hostWidth hostHeight px py norm
    moveTo wire
  | _, _ => pure ⟨⟩

def body : AgentAction → Converts PUnit
  | .mouseMove x y norm => do
    let wire ← normalized hostWidth hostHeight x y norm
    moveTo wire
    pushAt .mouseMove wire
  | .mouseDown button => do
    track (·.recordButtonDown button now)
    push fun s => eventAt button.toDownEventType s.pos 0 s.tracker.activeModifiers
  | .mouseUp button => do
    track (·.recordButtonUp button now)
    push fun s => eventAt button.toUpEventType s.pos 0 s.tracker.activeModifiers
  | .click x y button count norm => do
    let wire ← normalized hostWidth hostHeight x y norm
    moveTo wire
    pushAt .mouseMove wire
    (List.range count.toNat).forM fun _ => do
      pushAt button.toDownEventType wire
      pushAt button.toUpEventType wire
  | .drag startX startY endX endY button steps _ norm => do
    let s ← normalized hostWidth hostHeight startX startY norm
    let e ← normalized hostWidth hostHeight endX endY norm
    moveTo s
    pushAt .mouseMove s
    track (·.recordButtonDown button now)
    pushAt button.toDownEventType s
    let stepCount := max steps 1
    (List.range stepCount.toNat).forM fun i => do
      let cur := dragPoint s e stepCount (UInt32.ofNat (i + 1))
      moveTo cur
      pushAt button.toDragEventType cur
    track (·.recordButtonUp button now)
    pushAt button.toUpEventType e
  | .scroll dx dy x y norm => do
    aim hostWidth hostHeight norm x y
    push fun s => ⟨.scrollWheel, s.pos.1, s.pos.2, 0, s.tracker.activeModifiers, dx, dy⟩
  | .keyDown key => do
    let (code, mods) ← parsed key
    track (·.recordKeyDown code mods now)
    push fun s => eventAt .keyDown s.pos code s.tracker.activeModifiers
  | .keyUp key => do
    let (code, _) ← parsed key
    track (·.recordKeyUp code now)
    push fun s => eventAt .keyUp s.pos code s.tracker.activeModifiers
  | .keyPress key _ => do
    let (code, mods) ← parsed key
    pushKey .keyDown code mods
    pushKey .keyUp code mods
  | .hotkey keys => do
    let combined := String.intercalate "+" keys
    let (k, mods) ← ofExcept id (parseHotkeyString combined)
    let code ← ofExcept id (requireMacosKeycode k combined)
    pushKey .keyDown code mods
    pushKey .keyUp code mods
  | .typeText text _ _ => text.toList.forM typeOne
  | .releaseAll =>
    modify fun s =>
      let released := s.tracker.releaseAll drain s.pos now
      { s with events := s.events ++ released.1, tracker := released.2 }

def convert (action : AgentAction) : Converts (List InputEvent) := do
  when (eventBound action > maxActionEvents) (throw (.actionTooLarge maxActionEvents))
  body drain hostWidth hostHeight now action
  return (← get).events

end Convert

/-! ### What fails -/

theorem never_push (event : Converting → InputEvent) : Keeps Loose Never (push event) :=
  Keeps.update fun _ => trivial

theorem never_moveTo (pos : UInt32 × UInt32) : Keeps Loose Never (moveTo pos) :=
  Keeps.update fun _ => trivial

theorem never_track (f : InputStateTracker → InputStateTracker) : Keeps Loose Never (track f) :=
  Keeps.update fun _ => trivial

theorem never_typeOne (ch : Char) : Keeps Loose Never (typeOne ch) := by
  rw [typeOne]
  split
  · split
    · exact (never_push _).seq fun _ => never_push _
    · exact Keeps.ret _
  · exact Keeps.forM fun _ => never_push _

theorem still_ofExcept {α : Type} (r : Except AgentInputError α) :
    Keeps (Same id) Any (ofExcept id r : Converts α) := Keeps.ofExcept fun _ => trivial

theorem still_parsed (key : String) : Keeps (Same id) Any (parsed key) :=
  (still_ofExcept _).seq fun _ => (still_ofExcept _).seq fun _ => Keeps.ret _

variable (drain : Drain) (hostWidth hostHeight : UInt32) (now : ℕ)

theorem atomic_body (action : AgentAction) :
    Atomic (body drain hostWidth hostHeight now action) := by
  cases action with
  | mouseMove x y norm =>
    refine Atomic.seq (still_ofExcept _) fun wire => Atomic.of_never ?_
    exact (never_moveTo wire).seq fun _ => never_push _
  | mouseDown button =>
    exact Atomic.of_never ((never_track _).seq fun _ => never_push _)
  | mouseUp button =>
    exact Atomic.of_never ((never_track _).seq fun _ => never_push _)
  | click x y button count norm =>
    refine Atomic.seq (still_ofExcept _) fun wire => Atomic.of_never ?_
    refine (never_moveTo wire).seq fun _ => (never_push _).seq fun _ => Keeps.forM fun _ => ?_
    exact (never_push _).seq fun _ => never_push _
  | drag startX startY endX endY button steps durationMs norm =>
    refine Atomic.seq (still_ofExcept _) fun s => Atomic.seq (still_ofExcept _) fun e =>
      Atomic.of_never ?_
    refine (never_moveTo s).seq fun _ => (never_push _).seq fun _ => (never_track _).seq fun _ =>
      (never_push _).seq fun _ => Keeps.seq (Keeps.forM fun _ => ?_) fun _ => ?_
    · exact (never_moveTo _).seq fun _ => never_push _
    · exact (never_track _).seq fun _ => never_push _
  | scroll dx dy x y norm =>
    refine Atomic.seq_never ?_ fun _ => never_push _
    rw [aim.eq_def]
    split
    · exact Atomic.seq (still_ofExcept _) fun wire => Atomic.of_never (never_moveTo wire)
    · exact Atomic.of_never (Keeps.ret _)
  | keyDown key =>
    exact Atomic.seq (still_parsed key) fun _ =>
      Atomic.of_never ((never_track _).seq fun _ => never_push _)
  | keyUp key =>
    exact Atomic.seq (still_parsed key) fun _ =>
      Atomic.of_never ((never_track _).seq fun _ => never_push _)
  | keyPress key holdMs =>
    exact Atomic.seq (still_parsed key) fun _ =>
      Atomic.of_never ((never_push _).seq fun _ => never_push _)
  | hotkey keys =>
    exact Atomic.seq (still_ofExcept _) fun _ => Atomic.seq (still_ofExcept _) fun _ =>
      Atomic.of_never ((never_push _).seq fun _ => never_push _)
  | typeText text delayMs pasteMode =>
    exact Atomic.of_never (Keeps.forM never_typeOne)
  | releaseAll => exact Atomic.of_never (Keeps.update fun _ => trivial)

theorem atomic_convert (action : AgentAction) :
    Atomic (convert drain hostWidth hostHeight now action) :=
  Atomic.seq (X := Any) (Keeps.when (Keeps.raise trivial)) fun _ =>
    Atomic.seq_never (atomic_body drain hostWidth hostHeight now action) fun _ =>
      Keeps.seq Keeps.read fun _ => Keeps.ret _

/-! ### What it comes to -/

variable {drain hostWidth hostHeight now}

@[simp] theorem exec_push (event : Converting → InputEvent) (s : Converting) :
    (push event).exec s = (.ok ⟨⟩, { s with events := s.events ++ [event s] }) := rfl

@[simp] theorem exec_moveTo (pos : UInt32 × UInt32) (s : Converting) :
    (moveTo pos).exec s = (.ok ⟨⟩, { s with pos }) := rfl

@[simp] theorem exec_track (f : InputStateTracker → InputStateTracker) (s : Converting) :
    (track f).exec s = (.ok ⟨⟩, { s with tracker := f s.tracker }) := rfl

theorem exec_ofExcept {α : Type} (r : Except AgentInputError α) (s : Converting) :
    (ofExcept id r : Converts α).exec s = (r, s) := by
  cases r <;> rfl

theorem foldl_push {α : Type} (events : InputStateTracker → UInt32 × UInt32 → α → List InputEvent)
    (l : List α) (s : Converting) :
    l.foldl (fun s a => { s with events := s.events ++ events s.tracker s.pos a }) s
      = { s with events := s.events ++ l.flatMap (events s.tracker s.pos) } := by
  induction l generalizing s with
  | nil => simp
  | cons a l ih => simp [ih]

theorem foldl_drag {α : Type} (point : α → UInt32 × UInt32)
    (event : InputStateTracker → UInt32 × UInt32 → InputEvent) (l : List α) (s : Converting) :
    l.foldl (fun s a => { s with
        pos := point a, events := s.events ++ [event s.tracker (point a)] }) s
      = { s with
        pos := (l.map point).getLastD s.pos
        events := s.events ++ (l.map point).map (event s.tracker) } := by
  induction l generalizing s with
  | nil => simp
  | cons a l ih =>
    rw [List.foldl_cons, ih, List.map_cons, List.getLastD_cons]
    simp

theorem exec_typeOne (ch : Char) (s : Converting) :
    (typeOne ch).exec s = (.ok ⟨⟩, { s with events := s.events ++ typeChar s.pos ch }) := by
  rw [typeOne, typeChar]
  rcases synthesizeAsciiChar ch with - | ⟨key, mods⟩
  · refine (exec_forM (fun _ _ => exec_push _ _) _ s).trans ?_
    rw [foldl_push fun _ pos unit => [InputEvent.unicodeChar unit pos.1 pos.2]]
    simp only [← List.map_eq_flatMap]
  · dsimp only
    rcases InputKeyMap.toMacos key with - | code
    · simp
    · simp [pushKey, exec_bind]

/-- Where a conversion that pushes its events has arrived. -/
def arrived (conversion : Conversion) : Except AgentInputError PUnit × Converting :=
  match conversion with
  | (.ok events, tracker, pos) => (.ok ⟨⟩, ⟨tracker, pos, events⟩)
  | (.error e, tracker, pos) => (.error e, ⟨tracker, pos, []⟩)

theorem exec_body (action : AgentAction) (t : InputStateTracker) (pos : UInt32 × UInt32) :
    (body drain hostWidth hostHeight now action).exec ⟨t, pos, []⟩
      = arrived (convertWithinBound drain action t pos hostWidth hostHeight now) := by
  cases action with
  | mouseMove x y norm =>
    simp only [body, normalized, exec_bind, exec_ofExcept, convertWithinBound]
    cases normalizeAgentCoordinates x y norm hostWidth hostHeight <;> rfl
  | mouseDown button => rfl
  | mouseUp button => rfl
  | click x y button count norm =>
    simp only [body, normalized, exec_bind, exec_ofExcept, convertWithinBound]
    cases normalizeAgentCoordinates x y norm hostWidth hostHeight with
    | error e => rfl
    | ok wire =>
      simp only [exec_moveTo, pushAt, exec_push]
      rw [exec_forM (g := fun _ s => { s with events := s.events ++
          [eventAt button.toDownEventType wire 0 s.tracker.activeModifiers,
            eventAt button.toUpEventType wire 0 s.tracker.activeModifiers] })
        (fun _ s => by simp [exec_bind]),
        foldl_push fun t _ _ => [eventAt button.toDownEventType wire 0 t.activeModifiers,
          eventAt button.toUpEventType wire 0 t.activeModifiers]]
      simp [arrived, List.flatMap_def, List.map_const']
  | drag startX startY endX endY button steps durationMs norm =>
    simp only [body, normalized, exec_bind, exec_ofExcept, convertWithinBound]
    cases normalizeAgentCoordinates startX startY norm hostWidth hostHeight with
    | error e => rfl
    | ok s =>
    cases normalizeAgentCoordinates endX endY norm hostWidth hostHeight with
    | error e => rfl
    | ok e =>
      simp only [exec_moveTo, pushAt, exec_push, exec_track]
      rw [exec_forM (g := fun i s₁ => { s₁ with
            pos := dragPoint s e (max steps 1) (UInt32.ofNat (i + 1))
            events := s₁.events ++ [eventAt button.toDragEventType
              (dragPoint s e (max steps 1) (UInt32.ofNat (i + 1))) 0 s₁.tracker.activeModifiers] })
          (fun _ s => by simp [exec_bind]),
        foldl_drag (fun i => dragPoint s e (max steps 1) (UInt32.ofNat (i + 1)))
          (fun t p => eventAt button.toDragEventType p 0 t.activeModifiers)]
      simp [arrived]
  | scroll dx dy x y norm =>
    rw [body, exec_bind]
    rcases x with - | px
    · rfl
    rcases y with - | py
    · rfl
    simp only [aim, normalized, exec_bind, exec_ofExcept, convertWithinBound]
    cases normalizeAgentCoordinates px py norm hostWidth hostHeight <;> rfl
  | keyDown key =>
    simp only [body, parsed, exec_bind, exec_ofExcept, convertWithinBound]
    rcases parseKeyName key with e | ⟨k, mods⟩
    · rfl
    dsimp only [bind, Except.bind]
    rcases requireMacosKeycode k key with e | code <;> rfl
  | keyUp key =>
    simp only [body, parsed, exec_bind, exec_ofExcept, convertWithinBound]
    rcases parseKeyName key with e | ⟨k, mods⟩
    · rfl
    dsimp only [bind, Except.bind]
    rcases requireMacosKeycode k key with e | code <;> rfl
  | keyPress key holdMs =>
    simp only [body, parsed, exec_bind, exec_ofExcept, convertWithinBound]
    rcases parseKeyName key with e | ⟨k, mods⟩
    · rfl
    dsimp only [bind, Except.bind]
    rcases requireMacosKeycode k key with e | code <;> rfl
  | hotkey keys =>
    simp only [body, exec_bind, exec_ofExcept, convertWithinBound]
    rcases parseHotkeyString (String.intercalate "+" keys) with e | ⟨k, mods⟩
    · rfl
    dsimp only [bind, Except.bind]
    rcases requireMacosKeycode k (String.intercalate "+" keys) with e | code <;> rfl
  | typeText text delayMs pasteMode =>
    rw [body, exec_forM exec_typeOne, foldl_push fun _ => typeChar]
    rfl
  | releaseAll => rfl

theorem convert_eq (action : AgentAction) (t : InputStateTracker) (pos : UInt32 × UInt32) :
    let r := (convert drain hostWidth hostHeight now action).exec ⟨t, pos, []⟩
    convertAgentActionToEvents drain action t pos hostWidth hostHeight now
      = (r.1, r.2.tracker, r.2.pos) := by
  by_cases hlarge : eventBound action > maxActionEvents
  · rw [convertAgentActionToEvents, if_pos hlarge, convert, when, if_pos hlarge]
    rfl
  · rw [convertAgentActionToEvents, if_neg hlarge, convert, when, if_neg hlarge, exec_bind,
      exec_pure]
    dsimp only
    rw [exec_bind, exec_body]
    obtain ⟨e | events, t', pos'⟩ :=
      convertWithinBound drain action t pos hostWidth hostHeight now <;> rfl

end Converts

/-! ### How much is sent -/

theorem length_typeChar_le (pos : UInt32 × UInt32) (ch : Char) : (typeChar pos ch).length ≤ 2 := by
  rw [typeChar]
  split
  · split <;> simp
  · rw [List.length_map, Utf16.encode]
    split <;> simp

theorem length_text_le (pos : UInt32 × UInt32) (text : List Char) :
    (text.flatMap (typeChar pos)).length ≤ text.length * 2 := by
  induction text with
  | nil => exact Nat.le_refl 0
  | cons ch text ih =>
    have hch := length_typeChar_le pos ch
    rw [List.flatMap_cons, List.length_append, List.length_cons]
    omega

/-- The actions that expand to many events. -/
def Expands : AgentAction → Prop
  | .click .. | .drag .. | .typeText .. => True
  | _ => False

section Budget

variable {drain : Drain} {action : AgentAction} {t : InputStateTracker} {pos : UInt32 × UInt32}
variable {hostWidth hostHeight : UInt32} {now : ℕ} {events : List InputEvent}

theorem toNat_le_max (count : UInt32) : count.toNat ≤ (max count 1).toNat := by
  change count.toNat ≤ (if count ≤ 1 then 1 else count).toNat
  split
  next h => exact UInt32.le_iff_toNat_le.mp h
  next => exact Nat.le_refl _

theorem length_click_le {x y : UInt32} {button : MouseButton} {count : UInt32} {norm : Bool}
    (h : (convertWithinBound drain (.click x y button count norm) t pos hostWidth hostHeight now).1
      = .ok events) : events.length ≤ eventBound (.click x y button count norm) := by
  rw [convertWithinBound] at h
  dsimp only at h
  split at h
  · cases h
  · cases h
    have hcount := toNat_le_max count
    simp [eventBound]
    omega

theorem length_drag_le {sx sy ex ey : UInt32} {button : MouseButton} {steps : UInt32}
    {durationMs : UInt64} {norm : Bool}
    (h : (convertWithinBound drain (.drag sx sy ex ey button steps durationMs norm) t pos hostWidth
      hostHeight now).1 = .ok events) :
    events.length ≤ eventBound (.drag sx sy ex ey button steps durationMs norm) := by
  rw [convertWithinBound] at h
  dsimp only at h
  split at h
  · cases h
  · cases h
  · cases h
    simp [eventBound]

theorem length_typeText_le {text : String} {delayMs : UInt64} {pasteMode : Bool}
    (hbound : eventBound (.typeText text delayMs pasteMode) ≤ maxActionEvents)
    (h : (convertWithinBound drain (.typeText text delayMs pasteMode) t pos hostWidth hostHeight
      now).1 = .ok events) : events.length ≤ maxActionEvents := by
  cases h
  refine (length_text_le pos text.toList).trans ?_
  simp only [eventBound, maxActionEvents, List.length_take] at hbound ⊢
  omega

theorem length_convert_le
    (h : (convertAgentActionToEvents drain action t pos hostWidth hostHeight now).1 = .ok events)
    (hexpands : Expands action) : events.length ≤ maxActionEvents := by
  rw [convertAgentActionToEvents] at h
  split at h
  · cases h
  next hbound =>
    rw [gt_iff_lt, not_lt] at hbound
    cases action with
    | click x y button count norm => exact (length_click_le h).trans hbound
    | drag sx sy ex ey button steps durationMs norm => exact (length_drag_le h).trans hbound
    | typeText text delayMs pasteMode => exact length_typeText_le hbound h
    | _ => exact hexpands.elim

end Budget

/-- **Agent actions are atomic on error**: a conversion that fails leaves the tracker and the
position as they were and has no events, and one that succeeds for an action that expands has
`maxActionEvents` at most. -/
theorem agent_action_atomic (drain : Drain) (action : AgentAction) (t : InputStateTracker)
    (pos : UInt32 × UInt32) (hostWidth hostHeight : UInt32) (now : ℕ) :
    (∀ e s, (Converts.convert drain hostWidth hostHeight now action).exec ⟨t, pos, []⟩
      = (.error e, s) → s.tracker = t ∧ s.pos = pos ∧ s.events = []) ∧
    ∀ events s, (Converts.convert drain hostWidth hostHeight now action).exec ⟨t, pos, []⟩
      = (.ok events, s) → Expands action → events.length ≤ maxActionEvents := by
  refine ⟨fun e s h => ?_, fun events s h hexpands => ?_⟩
  · obtain rfl := Converts.atomic_convert drain hostWidth hostHeight now action _ e s h
    exact ⟨rfl, rfl, rfl⟩
  · have heq := @Converts.convert_eq drain hostWidth hostHeight now action t pos
    rw [h] at heq
    exact length_convert_le (congrArg Prod.fst heq) hexpands

/-- A key that does not exist, and two clicks. -/
theorem agent_action_atomic_unknown :
    (∃ e s, (Converts.convert .ascending 800 600 0 (.keyDown "nosuchkey")).exec
      ⟨.new 0 0, (3, 4), []⟩ = (.error e, s) ∧
      s.tracker = .new 0 0 ∧ s.pos = (3, 4) ∧ s.events = []) ∧
    ∃ events s, (Converts.convert .ascending 800 600 0 (.click 1 2 .left 2 false)).exec
      ⟨.new 0 0, (3, 4), []⟩ = (.ok events, s) ∧ events.length ≤ maxActionEvents :=
  ⟨⟨.unknownKey "nosuchkey", _, rfl,
      (agent_action_atomic .ascending (.keyDown "nosuchkey") (.new 0 0) (3, 4) 800 600 0).1
        _ _ rfl⟩,
    _, _, rfl, (agent_action_atomic .ascending (.click 1 2 .left 2 false) (.new 0 0) (3, 4)
      800 600 0).2 _ _ rfl trivial⟩

end MahoRD.AgentConversion

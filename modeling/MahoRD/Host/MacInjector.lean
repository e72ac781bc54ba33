/-
MahoRD/Host/MacInjector.lean

The injector of a macOS host (`maho-host/src/inject_macos.rs`), as far as it presses and
releases keys and buttons.

What is held is tracked before the event is created, and creating an event can fail: what is
tracked and what is down are two things.
-/
import MahoRD.Host.ModifierKeys
import MahoRD.Lib.Utf16

namespace MahoRD.Host.Mac

open Presses

inductive InputError
  | permissionDenied
  | invalidCoordinates
  | eventCreation
  | rateLimited
  deriving DecidableEq

inductive CGMouseButton
  | left
  | right
  | center
  deriving DecidableEq

/-- What can be down on the host. -/
inductive Control
  | button (button : CGMouseButton)
  | key (keyCode : UInt16)
  deriving DecidableEq

/-- The events that are posted.  A keyboard event may carry the code units of a string, and an
event of another kind presses nothing. -/
inductive CGEvent
  | mouse (button : CGMouseButton) (down : Bool)
  | keyboard (keyCode : UInt16) (keyDown : Bool) (string : List UInt16)
  | other

def CGEvent.effect : CGEvent → Control → Option Bool
  | .mouse button down => pressEffect (.button button, down)
  | .keyboard keyCode keyDown _ => pressEffect (.key keyCode, keyDown)
  | .other => fun _ => none

/-- The event that presses or releases a button or a key. -/
def press : Control → Bool → CGEvent
  | .button button, down => .mouse button down
  | .key keyCode, down => .keyboard keyCode down []

/-! ### The rate limiter -/

def maxEventsPerSecond : Float := 200.0
def burstCapacity : Float := 400.0

/-- An instant is a number of nanoseconds. -/
structure RateLimit where
  tokens : Float
  lastRefill : ℕ

/-- `as_secs_f64` -/
def asSecsF64 (nanos : ℕ) : Float :=
  (UInt64.ofNat (nanos / 10 ^ 9)).toFloat + (UInt64.ofNat (nanos % 10 ^ 9)).toFloat / 1e9

def RateLimit.allowEvent (state : RateLimit) (now : ℕ) : Bool × RateLimit :=
  let refilled := state.tokens + asSecsF64 (now - state.lastRefill) * maxEventsPerSecond
  let tokens := if refilled < burstCapacity then refilled else burstCapacity
  if tokens < 1.0 then (false, ⟨tokens, now⟩) else (true, ⟨tokens - 1.0, now⟩)

/-! ### The injector -/

structure InputInjector where
  rateLimit : RateLimit
  /-- There is an event source. -/
  eventSource : Bool
  activeMouseButtons : Finset UInt8
  activeKeys : Finset UInt16
  pendingSurrogate : Option UInt16

/-- What the system answers to a call. -/
structure System where
  now : ℕ
  accessibilityIsTrusted : Bool
  /-- An event source can be created. -/
  createsSource : Bool
  creates : CGEvent → Bool

/-- The button that a pointer event presses or releases. -/
def pointerButton : InputEventType → Option (CGMouseButton × Bool)
  | .leftMouseDown | .penDown => some (.left, true)
  | .leftMouseUp | .penUp => some (.left, false)
  | .rightMouseDown => some (.right, true)
  | .rightMouseUp => some (.right, false)
  | .middleMouseDown => some (.center, true)
  | .middleMouseUp => some (.center, false)
  | _ => none

/-- The code under which a button is tracked. -/
def buttonCode : CGMouseButton → UInt8
  | .left => 0
  | .right => 1
  | .center => 2

def buttonOf (code : UInt8) : Option CGMouseButton :=
  if code = 0 then some .left else if code = 1 then some .right
  else if code = 2 then some .center else none

/-- The events that end a hold. -/
def releasesHold (eventType : InputEventType) : Bool :=
  eventType ∈ [.keyUp, .leftMouseUp, .rightMouseUp, .middleMouseUp, .penUp, .reset]

namespace InputInjector

def new (now : ℕ) : InputInjector := ⟨⟨burstCapacity, now⟩, false, ∅, ∅, none⟩

def hasSource (s : InputInjector) (sys : System) : Bool := s.eventSource || sys.createsSource

/-- An event is created from the shared source, which is created on first use. -/
def create (s : InputInjector) (sys : System) (event : CGEvent) :
    InputInjector × Except InputError CGEvent :=
  if s.hasSource sys then
    ({ s with eventSource := true },
      if sys.creates event then .ok event else .error .eventCreation)
  else (s, .error .eventCreation)

/-- An event is created, to be posted. -/
def attempt (s : InputInjector) (sys : System) (event : CGEvent) :
    InputInjector × Except InputError (Option CGEvent) × List CGEvent :=
  ((s.create sys event).1, (s.create sys event).2.map some, [])

/-- A button or a key is tracked as held, or not any more. -/
def track (s : InputInjector) (down : Bool) : Control → InputInjector
  | .button button =>
    { s with
      activeMouseButtons :=
        if down then insert (buttonCode button) s.activeMouseButtons
        else s.activeMouseButtons.erase (buttonCode button) }
  | .key keyCode =>
    { s with
      activeKeys := if down then insert keyCode s.activeKeys else s.activeKeys.erase keyCode }

/-- The code units that a typed one completes. -/
def unicodeString (s : InputInjector) (code : UInt16) : Option (List UInt16) × Option UInt16 :=
  if Utf16.IsHigh code then (none, some code)
  else if Utf16.IsLow code then (some (s.pendingSurrogate.toList ++ [code]), none)
  else (some [code], none)

/-- What `Reset` releases, in the orders of the sets. -/
def releases (buttons : DrainOrder UInt8) (keys : DrainOrder UInt16) (s : InputInjector) :
    List CGEvent :=
  ((buttons.list s.activeMouseButtons).filterMap buttonOf).map
      (fun button => press (.button button) false) ++
    (keys.list s.activeKeys).map fun keyCode => press (.key keyCode) false

/-- The releases are posted one by one, those that can be created.  No source is an error. -/
def postAll (sys : System) : InputInjector → List CGEvent →
    InputInjector × Except InputError Unit × List CGEvent
  | s, [] => (s, .ok (), [])
  | s, release :: rest =>
    if s.hasSource sys then
      let (s', result, posted) := postAll sys { s with eventSource := true } rest
      (s', result, if sys.creates release then release :: posted else posted)
    else (s, .error .eventCreation, [])

/-- `create_event`, with what a reset posts on the way. -/
def createEvent (buttons : DrainOrder UInt8) (keys : DrainOrder UInt16) (s : InputInjector)
    (sys : System) (e : InputEvent) :
    InputInjector × Except InputError (Option CGEvent) × List CGEvent :=
  if !(isFinite e.x && isFinite e.y) then (s, .error .invalidCoordinates, [])
  else
    match e.eventType with
    | .reset =>
      match postAll sys { s with pendingSurrogate := none } (s.releases buttons keys) with
      | (s, .error err, posted) => (s, .error err, posted)
      | (s, .ok (), posted) =>
        ({ s with activeMouseButtons := ∅, activeKeys := ∅ }, .ok none, posted)
    | .keyDown | .keyUp =>
      if e.keyCode ≥ 0x100 then (s, .ok none, [])
      else
        let keyDown : Bool := e.eventType = .keyDown
        attempt (s.track keyDown (.key e.keyCode)) sys (press (.key e.keyCode) keyDown)
    | .flagsChanged =>
      if e.keyCode ≥ 0x100 then (s, .ok none, [])
      else attempt s sys (press (.key e.keyCode) true)
    | .unicodeChar =>
      let (string, pendingSurrogate) := s.unicodeString e.keyCode
      match string with
      | none => ({ s with pendingSurrogate }, .ok none, [])
      | some string =>
        match create { s with pendingSurrogate } sys (press (.key 0) true) with
        | (s, .ok _) => (s, .ok (some (.keyboard 0 true string)), [])
        | (s, .error err) => (s, .error err, [])
    | .relativeMove =>
      if !(isFinite e.scrollDx && isFinite e.scrollDy) then (s, .error .invalidCoordinates, [])
      else attempt s sys .other
    | .gamepadAxis | .gamepadButtonDown | .gamepadButtonUp => (s, .ok none, [])
    | eventType =>
      match pointerButton eventType with
      | some (button, down) =>
        attempt (s.track down (.button button)) sys (press (.button button) down)
      | none => attempt s sys .other

/-- What has been created is posted, and the release of a typed character after it. -/
def postCreated (sys : System) (e : InputEvent) :
    InputInjector × Except InputError (Option CGEvent) × List CGEvent →
      InputInjector × Except InputError Unit × List CGEvent
  | (s, .error err, posted) => (s, .error err, posted)
  | (s, .ok none, posted) => (s, .ok (), posted)
  | (s, .ok (some event), posted) =>
    if e.eventType = .unicodeChar then
      match s.create sys (press (.key 0) false) with
      | (s, .error err) => (s, .error err, posted ++ [event])
      | (s, .ok release) => (s, .ok (), posted ++ [event, release])
    else (s, .ok (), posted ++ [event])

/-- The result, and what is posted. -/
def inject (buttons : DrainOrder UInt8) (keys : DrainOrder UInt16) (s : InputInjector)
    (sys : System) (e : InputEvent) :
    InputInjector × Except InputError Unit × List CGEvent :=
  if !sys.accessibilityIsTrusted then (s, .error .permissionDenied, [])
  else
    let (allowed, rateLimit) :=
      if releasesHold e.eventType then (true, s.rateLimit) else s.rateLimit.allowEvent sys.now
    if !allowed then ({ s with rateLimit }, .error .rateLimited, [])
    else postCreated sys e (createEvent buttons keys { s with rateLimit } sys e)

/-- What dropping the injector posts. -/
def drop (buttons : DrainOrder UInt8) (keys : DrainOrder UInt16) (s : InputInjector)
    (sys : System) : List CGEvent :=
  if s.activeMouseButtons = ∅ ∧ s.activeKeys = ∅ then []
  else if !sys.accessibilityIsTrusted then []
  else (createEvent buttons keys s sys ⟨.reset, 0, 0, 0, .empty, 0, 0⟩).2.2

/-- It is tracked as held. -/
def Tracks (s : InputInjector) : Control → Prop
  | .button button => buttonCode button ∈ s.activeMouseButtons
  | .key keyCode => keyCode ∈ s.activeKeys

end InputInjector

open InputInjector

variable (buttons : DrainOrder UInt8) (keys : DrainOrder UInt16) {s t : InputInjector}
  {sys : System} {e : InputEvent} {log posted : List CGEvent} {k : Control}

/-! ### What a call does to the tracking -/

/-- The button or key that an event holds or lets go of, as the injector tracks it. -/
def hold (e : InputEvent) : Option (Control × Bool) :=
  match e.eventType with
  | .keyDown => if e.keyCode ≥ 0x100 then none else some (.key e.keyCode, true)
  | .keyUp => if e.keyCode ≥ 0x100 then none else some (.key e.keyCode, false)
  | eventType => (pointerButton eventType).map fun (button, down) => (.button button, down)

def CanCreate (s : InputInjector) (sys : System) (event : CGEvent) : Prop :=
  s.hasSource sys ∧ sys.creates event

@[simp] theorem effect_press (down : Bool) (i : Control) :
    (press k down).effect i = if k = i then some down else none := by
  cases k <;> rfl

theorem buttonCode_injective : Function.Injective buttonCode := by
  intro b c h
  cases b <;> cases c <;> first | rfl | exact absurd h (by decide)

theorem tracks_track (down : Bool) (i : Control) :
    (s.track down k).Tracks i ↔ if k = i then down = true else s.Tracks i := by
  by_cases hk : k = i
  · subst hk
    cases k <;> cases down <;> simp [track, Tracks]
  · rw [if_neg hk]
    cases k <;> cases i <;> cases down <;>
      simp_all [track, Tracks, buttonCode_injective.eq_iff, eq_comm]

theorem tracks_create (s : InputInjector) (sys : System) (event : CGEvent) (i : Control) :
    (s.create sys event).1.Tracks i ↔ s.Tracks i := by
  rw [create]
  split <;> exact Iff.rfl

/-- What the creation of an event comes to: tracking as before it, and the event if it can be
created. -/
theorem postCreated_attempt (s : InputInjector) (sys : System) (event : CGEvent)
    (he : e.eventType ≠ .unicodeChar) :
    (∀ i, (postCreated sys e (s.attempt sys event)).1.Tracks i ↔ s.Tracks i) ∧
      ((CanCreate s sys event ∧ (postCreated sys e (s.attempt sys event)).2.2 = [event]) ∨
        ¬ CanCreate s sys event ∧ (postCreated sys e (s.attempt sys event)).2.2 = []) := by
  have htracks := tracks_create s sys event
  rw [attempt]
  by_cases hsource : s.hasSource sys
  · by_cases hcreates : sys.creates event
    · simp_all [create, CanCreate, postCreated, Except.map]
    · simp_all [create, CanCreate, postCreated, Except.map]
  · simp_all [create, CanCreate, postCreated, Except.map]

/-- What `createEvent` comes to, but for a reset and for a typed character. -/
inductive Attempts (s : InputInjector) (sys : System) (e : InputEvent) :
    InputInjector × Except InputError (Option CGEvent) × List CGEvent → Prop
  | holds {k : Control} {down : Bool} (h : hold e = some (k, down)) :
    Attempts s sys e ((s.track down k).attempt sys (press k down))
  | modifier (h : e.eventType = .flagsChanged) (hcode : ¬ e.keyCode ≥ 0x100) :
    Attempts s sys e (s.attempt sys (press (.key e.keyCode) true))
  | passes : Attempts s sys e (s.attempt sys .other)
  | nothing (result : Except InputError (Option CGEvent))
    (h : ∀ event, result ≠ .ok (some event)) : Attempts s sys e (s, result, [])

theorem createEvent_attempts (hfinite : (isFinite e.x && isFinite e.y) = true)
    (hreset : e.eventType ≠ .reset) (hunicode : e.eventType ≠ .unicodeChar) :
    Attempts s sys e (createEvent buttons keys s sys e) := by
  have hpointer {button : CGMouseButton} {down : Bool}
      (h : hold e = some (.button button, down)) :
      Attempts s sys e
        ((s.track down (.button button)).attempt sys (press (.button button) down)) := .holds h
  rw [createEvent, hfinite, if_neg (by decide)]
  cases h : e.eventType with
  | reset => exact (hreset h).elim
  | unicodeChar => exact (hunicode h).elim
  | keyDown | keyUp =>
    simp only
    split
    · exact .nothing (.ok none) nofun
    next hcode => exact .holds (by simp only [hold, h, if_neg hcode]; rfl)
  | flagsChanged =>
    simp only
    split
    · exact .nothing (.ok none) nofun
    next hcode => exact .modifier h hcode
  | relativeMove =>
    simp only
    split
    · exact .nothing (.error .invalidCoordinates) nofun
    · exact .passes
  | gamepadAxis | gamepadButtonDown | gamepadButtonUp => exact .nothing (.ok none) nofun
  | leftMouseDown | leftMouseUp | rightMouseDown | rightMouseUp | middleMouseDown | middleMouseUp
  | penDown | penUp => exact hpointer (by simp only [hold, h]; rfl)
  | mouseMove | scrollWheel | leftMouseDragged | rightMouseDragged | penMove => exact .passes

/-! ### What is down is tracked -/

/-- Everything that is down is tracked. -/
def Covered (log : List CGEvent) (s : InputInjector) : Prop :=
  ∀ k, Down CGEvent.effect log k → s.Tracks k

/-- No call comes to a point where tracking and posting part: the event of a modifier key is not
posted unless that key is tracked, and whatever is to be released can be. -/
def Faultless (log : List CGEvent) (s : InputInjector) (sys : System) (e : InputEvent) : Prop :=
  match e.eventType with
  | .flagsChanged => ¬ e.keyCode ≥ 0x100 → CanCreate s sys (press (.key e.keyCode) true) →
    s.Tracks (.key e.keyCode)
  | .unicodeChar => CanCreate s sys (press (.key 0) true) → sys.creates (press (.key 0) false)
  | .reset => s.hasSource sys → ∀ k, Down CGEvent.effect log k → sys.creates (press k false)
  | _ => ∀ k, hold e = some (k, false) → Down CGEvent.effect log k →
    CanCreate s sys (press k false)

theorem Covered.congr (h : Covered log s) (ht : ∀ i, t.Tracks i ↔ s.Tracks i) : Covered log t :=
  fun i hi => (ht i).mpr (h i hi)

theorem down_concat {event : CGEvent} {i : Control} :
    Down CGEvent.effect (log ++ [event]) i ↔
      event.effect i = some true ∨ event.effect i = none ∧ Down CGEvent.effect log i := by
  rw [down_append, Down, last_singleton]

theorem Covered.hold {down : Bool} (h : Covered log s) (hhold : hold e = some (k, down))
    (hunicode : e.eventType ≠ .unicodeChar)
    (hup : down = false → Down CGEvent.effect log k → CanCreate s sys (press k false)) :
    let r := postCreated sys e ((s.track down k).attempt sys (press k down))
    Covered (log ++ r.2.2) r.1 := by
  obtain ⟨htracks, ⟨-, hposted⟩ | ⟨hcannot, hposted⟩⟩ :=
    postCreated_attempt (s.track down k) sys (press k down) hunicode
  · intro r i hi
    rw [hposted, down_concat, effect_press] at hi
    rw [htracks, tracks_track]
    split
    next hk =>
      rw [if_pos hk] at hi
      simpa using hi
    next hk =>
      rw [if_neg hk] at hi
      exact h i (by simpa using hi)
  · intro r i hi
    rw [hposted, List.append_nil] at hi
    rw [htracks, tracks_track]
    split
    next hk =>
      subst hk
      cases down with
      | true => rfl
      | false => exact (hcannot (by cases k <;> exact hup rfl hi)).elim
    next hk => exact h i hi

theorem Covered.attempt {event : CGEvent} (h : Covered log s)
    (hunicode : e.eventType ≠ .unicodeChar)
    (hpress : CanCreate s sys event → ∀ i, event.effect i = some true → s.Tracks i) :
    let r := postCreated sys e (s.attempt sys event)
    Covered (log ++ r.2.2) r.1 := by
  obtain ⟨htracks, ⟨hcan, hposted⟩ | ⟨-, hposted⟩⟩ :=
    postCreated_attempt s sys event hunicode
  · refine .congr (fun i hi => ?_) htracks
    rw [hposted, down_concat] at hi
    rcases hi with hi | ⟨-, hi⟩
    · exact hpress hcan i hi
    · exact h i hi
  · intro r
    show Covered (log ++ (postCreated sys e (s.attempt sys event)).2.2) _
    rw [hposted, List.append_nil]
    exact h.congr htracks

/-- A typed character is posted with its release, or not at all. -/
def Typed (posted : List CGEvent) : Prop :=
  posted = [] ∨ ∃ string, posted = [.keyboard 0 true string, .keyboard 0 false []]

theorem Typed.not_down (h : Typed posted) (i : Control) : ¬ Down CGEvent.effect posted i := by
  rcases h with rfl | ⟨string, rfl⟩
  · exact nofun
  · by_cases hi : Control.key 0 = i <;>
      simp [Down, last_cons, CGEvent.effect, pressEffect, hi]

theorem createEvent_unicode (hfinite : (isFinite e.x && isFinite e.y) = true)
    (hunicode : e.eventType = .unicodeChar)
    (hup : CanCreate s sys (press (.key 0) true) → sys.creates (press (.key 0) false)) :
    let r := postCreated sys e (createEvent buttons keys s sys e)
    Typed r.2.2 ∧ ∀ i, r.1.Tracks i ↔ s.Tracks i := by
  intro r
  have hr : r = postCreated sys e (createEvent buttons keys s sys e) := rfl
  simp only [createEvent, hfinite, Bool.not_true, if_neg Bool.false_ne_true, hunicode] at hr
  cases hstring : (s.unicodeString e.keyCode).1 with
  | none =>
    simp only [hstring, postCreated] at hr
    exact hr ▸ ⟨.inl rfl, fun _ => Iff.rfl⟩
  | some string =>
    by_cases hsource : s.hasSource sys
    · have hsource' : (s.eventSource || sys.createsSource) = true := hsource
      by_cases hdown : sys.creates (press (.key 0) true)
      · have hup := hup ⟨hsource, hdown⟩
        simp only [hstring, create, hasSource, hsource', hdown, if_true, postCreated, hunicode,
          Bool.true_or, hup] at hr
        exact hr ▸ ⟨.inr ⟨string, rfl⟩, fun _ => Iff.rfl⟩
      · simp only [hstring, create, hasSource, hsource', hdown, if_true, postCreated]
          at hr
        exact hr ▸ ⟨.inl rfl, fun _ => Iff.rfl⟩
    · have hsource' : (s.eventSource || sys.createsSource) = false := Bool.eq_false_iff.mpr hsource
      simp only [hstring, create, hasSource, hsource', Bool.false_eq_true, if_false, postCreated]
        at hr
      exact hr ▸ ⟨.inl rfl, fun _ => Iff.rfl⟩

/-! ### Resets -/

theorem buttonOf_buttonCode (button : CGMouseButton) :
    buttonOf (buttonCode button) = some button := by
  cases button <;> decide

theorem mem_releases (h : s.Tracks k) : press k false ∈ s.releases buttons keys := by
  rw [releases, List.mem_append]
  cases k with
  | button button =>
    exact .inl (List.mem_map.mpr ⟨button, List.mem_filterMap.mpr
      ⟨_, buttons.mem_list.mpr h, buttonOf_buttonCode button⟩, rfl⟩)
  | key keyCode => exact .inr (List.mem_map.mpr ⟨keyCode, keys.mem_list.mpr h, rfl⟩)

theorem eq_press_of_mem_releases {event : CGEvent} (h : event ∈ s.releases buttons keys) :
    ∃ k, event = press k false := by
  rw [releases, List.mem_append, List.mem_map, List.mem_map] at h
  rcases h with ⟨button, -, rfl⟩ | ⟨keyCode, -, rfl⟩
  exacts [⟨.button button, rfl⟩, ⟨.key keyCode, rfl⟩]

theorem postAll_cases (s : InputInjector) (sys : System) (releases : List CGEvent) :
    (∀ i, (postAll sys s releases).1.Tracks i ↔ s.Tracks i) ∧
      ((postAll sys s releases).2 = (.ok (), releases.filter sys.creates) ∧
          (releases = [] ∨ s.hasSource sys) ∨
        (postAll sys s releases).2 = (.error .eventCreation, []) ∧ ¬ s.hasSource sys) := by
  induction releases generalizing s with
  | nil => exact ⟨fun _ => Iff.rfl, .inl ⟨rfl, .inl rfl⟩⟩
  | cons release rest ih =>
    by_cases hsource : s.hasSource sys
    · obtain ⟨htracks, hrest⟩ := ih { s with eventSource := true }
      obtain ⟨hrest, -⟩ := hrest.resolve_right fun h => h.2 (by simp [hasSource])
      rw [postAll, if_pos hsource]
      rcases hpost : postAll sys { s with eventSource := true } rest with ⟨s', result, posted⟩
      rw [hpost] at hrest htracks
      cases hrest
      exact ⟨htracks, .inl ⟨by rw [List.filter_cons], .inr hsource⟩⟩
    · rw [postAll, if_neg hsource]
      exact ⟨fun _ => Iff.rfl, .inr ⟨rfl, hsource⟩⟩

/-- A reset that gets through leaves nothing down, and one that does not changes nothing. -/
theorem createEvent_reset (h : Covered log s) (hfinite : (isFinite e.x && isFinite e.y) = true)
    (hreset : e.eventType = .reset)
    (hup : s.hasSource sys → ∀ k, Down CGEvent.effect log k → sys.creates (press k false)) :
    let r := createEvent buttons keys s sys e
    (r.2.1 = .ok none ∧ ∀ k, ¬ Down CGEvent.effect (log ++ r.2.2) k) ∨
      (r.2.1 = .error .eventCreation ∧ r.2.2 = [] ∧ (∀ i, r.1.Tracks i ↔ s.Tracks i) ∧
        ¬ s.hasSource sys) := by
  intro r
  have hr : r = createEvent buttons keys s sys e := rfl
  simp only [createEvent, hfinite, Bool.not_true, if_neg Bool.false_ne_true, hreset] at hr
  obtain ⟨htracks, ⟨hposted, hsource⟩ | ⟨hposted, hsource⟩⟩ := 
    postAll_cases { s with pendingSurrogate := none } sys (s.releases buttons keys)
  · left
    have hposted' : r.2 = (.ok none, (s.releases buttons keys).filter sys.creates) := by
      rw [hr]
      rcases hpost : postAll sys { s with pendingSurrogate := none } (s.releases buttons keys)
        with ⟨s', result, posted⟩
      rw [hpost] at hposted
      cases hposted
      rfl
    rw [hposted']
    refine ⟨rfl, fun k hk => ?_⟩
    rcases down_append.mp hk with hpress | ⟨hnone, hdown⟩
    · -- Nothing that a reset posts presses anything.
      obtain ⟨event, hevent, hpress⟩ := hpress.exists_press
      obtain ⟨i, rfl⟩ := eq_press_of_mem_releases _ _ (List.mem_filter.mp hevent).1
      simp at hpress
    · have hmem : press k false ∈ s.releases buttons keys := mem_releases _ _ (h k hdown)
      have hcreates := hup (hsource.resolve_left (List.ne_nil_of_mem hmem)) k hdown
      have hleft := last_eq_none_iff.mp hnone _ (List.mem_filter.mpr ⟨hmem, hcreates⟩)
      simp at hleft
  · right
    rcases hpost : postAll sys { s with pendingSurrogate := none } (s.releases buttons keys)
      with ⟨s', result, posted⟩
    rw [hpost] at hposted htracks hr
    cases hposted
    rw [hr]
    exact ⟨rfl, rfl, htracks, hsource⟩

/-! ### Calls -/

theorem Covered.postCreated (h : Covered log s) (hfinite : (isFinite e.x && isFinite e.y) = true)
    (hfault : Faultless log s sys e) :
    let r := postCreated sys e (createEvent buttons keys s sys e)
    Covered (log ++ r.2.2) r.1 := by
  intro r
  rw [Faultless.eq_def] at hfault
  by_cases hreset : e.eventType = .reset
  · rw [hreset] at hfault
    rcases hcreated : createEvent buttons keys s sys e with ⟨s', result, posted⟩
    have hcases := createEvent_reset buttons keys h hfinite hreset hfault
    rw [hcreated] at hcases
    have hr : r = InputInjector.postCreated sys e (s', result, posted) := by rw [← hcreated]
    rw [hr]
    rcases hcases with ⟨hresult, hdown⟩ | ⟨hresult, hposted, htracks, -⟩
    · cases hresult
      exact fun i hi => (hdown i hi).elim
    · cases hresult
      cases hposted
      rw [InputInjector.postCreated, List.append_nil]
      exact h.congr htracks
  by_cases hunicode : e.eventType = .unicodeChar
  · rw [hunicode] at hfault
    obtain ⟨htyped, htracks⟩ :=
      createEvent_unicode buttons keys hfinite hunicode hfault
    intro i hi
    rcases down_append.mp hi with hi | ⟨-, hi⟩
    · exact (htyped.not_down i hi).elim
    · exact (htracks i).mpr (h i hi)
  have hattempts : Attempts s sys e (createEvent buttons keys s sys e) :=
    createEvent_attempts buttons keys hfinite hreset hunicode
  have hr : r = InputInjector.postCreated sys e (createEvent buttons keys s sys e) := rfl
  rw [hr]
  generalize createEvent buttons keys s sys e = created at hattempts
  cases hattempts with
  | @holds k down hhold =>
    refine h.hold hhold hunicode fun hdown hk => ?_
    subst hdown
    split at hfault
    next hflags => simp [Mac.hold, hflags, pointerButton] at hhold
    next hunicode' => exact (hunicode hunicode').elim
    next hreset' => exact (hreset hreset').elim
    · exact hfault k hhold hk
  | modifier hflags hcode =>
    rw [hflags] at hfault
    refine h.attempt hunicode fun hcan i hi => ?_
    obtain rfl : Control.key e.keyCode = i := by
      by_contra hne
      simp [hne] at hi
    exact hfault hcode hcan
  | passes => exact h.attempt hunicode fun _ _ hi => nomatch hi
  | nothing result hnone =>
    cases result with
    | error err => simpa [InputInjector.postCreated] using h
    | ok event =>
      cases event with
      | none => simpa [InputInjector.postCreated] using h
      | some event => exact (hnone event rfl).elim

/-- The call is allowed, and its coordinates are valid. -/
def Reaches (s : InputInjector) (sys : System) (e : InputEvent) : Prop :=
  sys.accessibilityIsTrusted ∧ (releasesHold e.eventType ∨ (s.rateLimit.allowEvent sys.now).1) ∧
    (isFinite e.x && isFinite e.y) = true

/-- A call either changes nothing but the rate limiter, or goes on to create its event. -/
theorem inject_cases (s : InputInjector) (sys : System) (e : InputEvent) :
    (∃ rateLimit err, inject buttons keys s sys e = ({ s with rateLimit }, .error err, []) ∧
        (err = .rateLimited → releasesHold e.eventType = false)) ∨
      Reaches s sys e ∧ ∃ rateLimit, inject buttons keys s sys e =
        postCreated sys e (createEvent buttons keys { s with rateLimit } sys e) := by
  rw [inject]
  by_cases htrusted : sys.accessibilityIsTrusted
  · rw [if_neg (by simpa using htrusted)]
    by_cases hallowed : releasesHold e.eventType ∨ (s.rateLimit.allowEvent sys.now).1
    · by_cases hfinite : (isFinite e.x && isFinite e.y) = true
      · right
        refine ⟨⟨htrusted, hallowed, hfinite⟩, ?_⟩
        by_cases hrelease : releasesHold e.eventType
        · exact ⟨s.rateLimit, by simp [hrelease]⟩
        · exact ⟨(s.rateLimit.allowEvent sys.now).2,
            by simp [hrelease, hallowed.resolve_left hrelease]⟩
      · left
        have hcreated (s : InputInjector) :
            createEvent buttons keys s sys e = (s, .error .invalidCoordinates, []) := by
          rw [createEvent, Bool.eq_false_iff.mpr hfinite, if_pos (by decide)]
        by_cases hrelease : releasesHold e.eventType
        · exact ⟨s.rateLimit, .invalidCoordinates,
            by simp [hrelease, hcreated, postCreated], nofun⟩
        · exact ⟨(s.rateLimit.allowEvent sys.now).2, .invalidCoordinates,
            by simp [hrelease, hallowed.resolve_left hrelease, hcreated, postCreated], nofun⟩
    · left
      rw [not_or, Bool.not_eq_true, Bool.not_eq_true] at hallowed
      exact ⟨(s.rateLimit.allowEvent sys.now).2, .rateLimited,
        by simp [hallowed.1, hallowed.2], fun _ => hallowed.1⟩
  · rw [if_pos (by simpa using htrusted)]
    exact .inl ⟨s.rateLimit, .permissionDenied, rfl, nofun⟩

/-! ### The rate limit -/

theorem create_ne_rateLimited (s : InputInjector) (sys : System) (event : CGEvent) :
    (s.create sys event).2 ≠ .error .rateLimited := by
  rw [create]
  split
  · split <;> exact nofun
  · exact nofun

theorem attempt_ne_rateLimited (event : CGEvent) :
    (s.attempt sys event).2.1 ≠ .error .rateLimited := by
  have hcreate := create_ne_rateLimited s sys event
  rw [attempt]
  cases hresult : (s.create sys event).2 with
  | ok => exact nofun
  | error err =>
    rw [hresult] at hcreate
    simpa [Except.map] using hcreate

theorem createEvent_ne_rateLimited :
    (createEvent buttons keys s sys e).2.1 ≠ .error .rateLimited := by
  have hguard {c : Prop} [Decidable c] (result : Except InputError (Option CGEvent))
      (hresult : result ≠ .error .rateLimited) {t : InputInjector} {event : CGEvent} :
      (if c then (s, result, []) else t.attempt sys event).2.1 ≠ .error .rateLimited := by
    split
    · exact hresult
    · exact attempt_ne_rateLimited event
  rw [createEvent]
  split
  · exact nofun
  · split
    · obtain ⟨-, ⟨hpost, -⟩ | ⟨hpost, -⟩⟩ := 
        postAll_cases { s with pendingSurrogate := none } sys (s.releases buttons keys)
      all_goals
        rcases hall : postAll sys { s with pendingSurrogate := none } (s.releases buttons keys)
          with ⟨s', result, posted⟩
        rw [hall] at hpost
        cases hpost
        exact nofun
    · exact hguard (.ok none) nofun
    · exact hguard (.ok none) nofun
    · exact hguard (.ok none) nofun
    · have hcreate (t : InputInjector) := create_ne_rateLimited t sys (press (.key 0) true)
      simp only
      split
      · exact nofun
      · split
        · exact nofun
        next s' err herr =>
          have hne := hcreate { s with pendingSurrogate := (s.unicodeString e.keyCode).2 }
          rw [herr] at hne
          simpa using hne
    · exact hguard (.error .invalidCoordinates) nofun
    · exact nofun
    · exact nofun
    · exact nofun
    · split
      · exact attempt_ne_rateLimited _
      · exact attempt_ne_rateLimited _

theorem postCreated_ne_rateLimited
    {created : InputInjector × Except InputError (Option CGEvent) × List CGEvent}
    (h : created.2.1 ≠ .error .rateLimited) :
    (postCreated sys e created).2.1 ≠ .error .rateLimited := by
  rw [postCreated.eq_def]
  split
  · simpa using h
  · exact nofun
  next s' event posted =>
    split
    · have hcreate := create_ne_rateLimited s' sys (press (.key 0) false)
      split
      next herr =>
        rw [herr] at hcreate
        simpa using hcreate
      · exact nofun
    · exact nofun

theorem inject_ne_rateLimited (h : e.eventType = .reset ∨ ∃ k, hold e = some (k, false)) :
    (inject buttons keys s sys e).2.1 ≠ .error .rateLimited := by
  have hrelease : releasesHold e.eventType = true := by
    rcases h with h | ⟨k, h⟩
    · rw [h]
      rfl
    · cases htype : e.eventType <;> simp_all [hold, pointerButton, releasesHold]
  intro hlimited
  rcases inject_cases buttons keys s sys e with
    ⟨rateLimit, err, heq, hthrottled⟩ | ⟨-, rateLimit, heq⟩
  · rw [heq] at hlimited
    cases hlimited
    cases hrelease.symm.trans (hthrottled rfl)
  · rw [heq] at hlimited
    exact postCreated_ne_rateLimited (createEvent_ne_rateLimited _ _) hlimited

/-! ### Runs -/

/-- The calls so far: the injector, and what has been posted. -/
def run (buttons : DrainOrder UInt8) (keys : DrainOrder UInt16) (now : ℕ)
    (calls : List (System × InputEvent)) : InputInjector × List CGEvent :=
  calls.foldl (fun (s, log) (sys, e) =>
    ((inject buttons keys s sys e).1, log ++ (inject buttons keys s sys e).2.2)) (.new now, [])

/-- A call that gets as far as to create its event meets no fault. -/
def Sound (r : InputInjector × List CGEvent) (sys : System) (e : InputEvent) : Prop :=
  Reaches r.1 sys e → Faultless r.2 r.1 sys e

theorem Covered.inject (h : Covered log s) (hsound : Sound (s, log) sys e) :
    Covered (log ++ (inject buttons keys s sys e).2.2) (inject buttons keys s sys e).1 := by
  rcases inject_cases buttons keys s sys e with
    ⟨rateLimit, err, heq, -⟩ | ⟨hreaches, rateLimit, heq⟩
  · rw [heq, List.append_nil]
    exact h
  · rw [heq]
    exact Covered.postCreated _ _ (s := { s with rateLimit }) h hreaches.2.2 (hsound hreaches)

theorem covered_run (now : ℕ) {calls : List (System × InputEvent)}
    (h : ∀ before sys e, before ++ [(sys, e)] <+: calls →
      Sound (run buttons keys now before) sys e) :
    Covered (run buttons keys now calls).2 (run buttons keys now calls).1 := by
  induction calls using List.reverseRecOn with
  | nil => exact nofun
  | append_singleton calls c ih =>
    have hcalls := ih fun before sys e hprefix =>
      h before sys e ( hprefix.trans (List.prefix_append _ _))
    rw [run, List.foldl_concat]
    exact hcalls.inject _ _ (h calls c.1 c.2 (List.prefix_refl _))

/-- **Everything that is pressed is released**, in runs that meet no fault: by a reset that
returns without an error and, where the releases can be created, by dropping the injector.  A typed
character is posted with its release or not at all, and what ends a hold is never throttled. -/
theorem everything_released (buttons : DrainOrder UInt8) (keys : DrainOrder UInt16) (now : ℕ)
    (calls : List (System × InputEvent))
    (h : ∀ before sys e, before ++ [(sys, e)] <+: calls →
      Sound (run buttons keys now before) sys e) :
    let (s, log) := run buttons keys now calls
    (∀ sys e, Sound (s, log) sys e → e.eventType = .reset →
      (inject buttons keys s sys e).2.1 = .ok () →
        ∀ k, ¬ Down CGEvent.effect (log ++ (inject buttons keys s sys e).2.2) k) ∧
    (∀ sys, sys.accessibilityIsTrusted →
      (∀ k, Down CGEvent.effect log k → CanCreate s sys (press k false)) →
        ∀ k, ¬ Down CGEvent.effect (log ++ s.drop buttons keys sys) k) ∧
    (∀ sys e, Sound (s, log) sys e → e.eventType = .unicodeChar →
      Typed (inject buttons keys s sys e).2.2) ∧
    ∀ sys e, (e.eventType = .reset ∨ ∃ k, hold e = some (k, false)) →
      (inject buttons keys s sys e).2.1 ≠ .error .rateLimited := by
  have hcovered := covered_run _ _ now h
  rcases hrun : run buttons keys now calls with ⟨s, log⟩
  rw [hrun] at hcovered
  refine ⟨fun sys e hsound hreset hok => ?_, fun sys htrusted hup => ?_,
    fun sys e hsound hunicode => ?_, fun sys e hends => inject_ne_rateLimited _ _ hends⟩
  · rcases inject_cases buttons keys s sys e with
      ⟨rateLimit, err, heq, -⟩ | ⟨hreaches, rateLimit, heq⟩
    · rw [heq] at hok
      cases hok
    · have hfault := hsound hreaches
      rw [Faultless.eq_def, hreset] at hfault
      have hcases := createEvent_reset buttons keys (s := { s with rateLimit }) hcovered
        hreaches.2.2 hreset hfault
      rw [heq] at hok ⊢
      rcases hcreated : createEvent buttons keys { s with rateLimit } sys e with
        ⟨s', result, posted⟩
      rw [hcreated] at hcases hok
      rcases hcases with ⟨hresult, hdown⟩ | ⟨hresult, -⟩
      · cases hresult
        exact hdown
      · cases hresult
        cases hok
  · rw [InputInjector.drop]
    split
    next hnone =>
      intro k hk
      rw [List.append_nil] at hk
      have htracks := hcovered k hk
      cases k <;> simp [Tracks, hnone.1, hnone.2] at htracks
    · rw [if_neg (by simpa using htrusted)]
      intro k hk
      rcases createEvent_reset buttons keys (e := ⟨.reset, 0, 0, 0, .empty, 0, 0⟩) hcovered
        (by decide) rfl (fun _ k hk => (hup k hk).2) with ⟨-, hdown⟩ | ⟨-, hposted, -, hsource⟩
      · exact hdown k hk
      · rw [hposted, List.append_nil] at hk
        exact hsource (hup k hk).1
  · rcases inject_cases buttons keys s sys e with
      ⟨rateLimit, err, heq, -⟩ | ⟨hreaches, rateLimit, heq⟩
    · rw [heq]
      exact .inl rfl
    · have hfault := hsound hreaches
      rw [Faultless.eq_def, hunicode] at hfault
      rw [heq]
      exact (createEvent_unicode _ _ (s := { s with rateLimit }) hreaches.2.2 hunicode hfault).1

/-- In the order of the codes. -/
def buttonOrder : DrainOrder UInt8 := ⟨fun s => s.sort (· ≤ ·), Finset.mem_sort _⟩

def keyOrder : DrainOrder UInt16 := ⟨ascending, mem_ascending⟩

/-- Everything works. -/
def working : System := ⟨0, true, true, fun _ => true⟩

def keyEvent (eventType : InputEventType) (keyCode : UInt16) : InputEvent :=
  ⟨eventType, 0, 0, keyCode, .empty, 0, 0⟩

/-- The calls on a working system. -/
def onWorking (es : List InputEvent) : List (System × InputEvent) := es.map (working, ·)

/-- A key is pressed and released. -/
theorem everything_released_letter :
    let (s, log) := run buttonOrder keyOrder 0 (onWorking [keyEvent .keyDown 1])
    ∀ k, ¬ Down CGEvent.effect
      (log ++ (inject buttonOrder keyOrder s working (keyEvent .reset 0)).2.2) k := by
  have h := (everything_released buttonOrder keyOrder 0
    (onWorking [keyEvent .keyDown 1]) fun before sys e hprefix hreaches => by
      have hmem : (sys, e) ∈ onWorking [keyEvent .keyDown 1] :=
        hprefix.subset List.mem_concat_self
      obtain ⟨rfl, rfl⟩ := Prod.mk.inj (List.mem_singleton.mp hmem)
      exact nofun).1
  exact h working (keyEvent .reset 0) (fun _ _ _ _ => rfl) rfl (by decide +kernel)

/-- The event of the left Shift key presses it, and a reset does not release it. -/
theorem shift_left_down :
    (inject buttonOrder keyOrder
        (run buttonOrder keyOrder 0 (onWorking [keyEvent .flagsChanged 56])).1
        working (keyEvent .reset 0)).2.1 = .ok () ∧
      Down CGEvent.effect (run buttonOrder keyOrder 0
        (onWorking [keyEvent .flagsChanged 56, keyEvent .reset 0])).2 (.key 56) := by
  decide +kernel

end MahoRD.Host.Mac

/-
MahoRD/App/AgentTracker.lean

The tracker against the events that actions emit: whatever was last pressed is on record,
and a release leaves nothing.
-/
import MahoRD.App.AgentInput
import MahoRD.Lib.Presses

namespace MahoRD.Agent

open Presses

/-- What can be held. -/
inductive Item
  | key (code : UInt16)
  | button (button : MouseButton)
  deriving DecidableEq

/-- What an event does, and to what: `true` for a Down. -/
def touches (e : InputEvent) : Option (Item × Bool) :=
  match e.eventType with
  | .keyDown => some (.key e.keyCode, true)
  | .keyUp => some (.key e.keyCode, false)
  | .leftMouseDown => some (.button .left, true)
  | .leftMouseUp => some (.button .left, false)
  | .rightMouseDown => some (.button .right, true)
  | .rightMouseUp => some (.button .right, false)
  | .middleMouseDown => some (.button .middle, true)
  | .middleMouseUp => some (.button .middle, false)
  | _ => none

/-- What an event does to an item. -/
def direction (e : InputEvent) (item : Item) : Option Bool :=
  match touches e with
  | some (i, down) => if i = item then some down else none
  | none => none

theorem direction_of_touches {e : InputEvent} {i : Item} {d : Bool}
    (h : touches e = some (i, d)) (item : Item) :
    direction e item = if i = item then some d else none := by
  rw [direction, h]

theorem direction_eq_some {e : InputEvent} {item : Item} {d : Bool} :
    direction e item = some d ↔ touches e = some (item, d) := by
  rw [direction]
  split
  next i d' h =>
    split
    next heq => simp [h, heq]
    next hne => simp [h, hne]
  next h => simp [h]

@[simp] theorem touches_down (button : MouseButton) (pos : UInt32 × UInt32) (m : Modifiers) :
    touches (eventAt button.toDownEventType pos 0 m) = some (.button button, true) := by
  cases button <;> rfl

@[simp] theorem touches_up (button : MouseButton) (pos : UInt32 × UInt32) (m : Modifiers) :
    touches (eventAt button.toUpEventType pos 0 m) = some (.button button, false) := by
  cases button <;> rfl

@[simp] theorem touches_drag (button : MouseButton) (pos : UInt32 × UInt32) (m : Modifiers) :
    touches (eventAt button.toDragEventType pos 0 m) = none := by
  cases button <;> rfl

theorem balanced_untouched {events : List InputEvent} (h : ∀ e ∈ events, touches e = none) :
    Balanced direction events := by
  refine .of_forall fun e he i hpress => ?_
  exact nomatch (h e he).symm.trans (direction_eq_some.mp hpress)

theorem balanced_press {down up : InputEvent} {item : Item}
    (hdown : touches down = some (item, true)) (hup : touches up = some (item, false)) :
    Balanced direction [down, up] := by
  refine .pair (fun i hpress => ?_) fun i hpress => ?_
  · cases hup.symm.trans (direction_eq_some.mp hpress)
  · obtain ⟨rfl, -⟩ := Prod.mk.inj (Option.some.inj (hdown.symm.trans (direction_eq_some.mp hpress)))
    exact direction_eq_some.mpr hup

namespace InputStateTracker

def Holds (t : InputStateTracker) : Item → Prop
  | .key code => code ∈ t.activeKeys
  | .button button => button ∈ t.activeButtons

/-- The modifiers are those of the keys that are held. -/
structure Consistent (t : InputStateTracker) : Prop where
  keys : ∀ k, k ∈ t.keyModifiers ↔ k ∈ t.activeKeys
  modifiers : ∀ i, t.activeModifiers.Has i ↔
    ∃ k m, t.keyModifiers.lookup k = some m ∧ m.Has i

theorem consistent_new (holdTimeout now : ℕ) : Consistent (new holdTimeout now) where
  keys k := by simp [new]
  modifiers i := by simp [new]

theorem Consistent.clear (t : InputStateTracker) (now : ℕ) : Consistent (t.clear now) where
  keys k := by simp [InputStateTracker.clear]
  modifiers i := by simp [InputStateTracker.clear]

variable {t : InputStateTracker}

theorem Consistent.recordButtonDown (h : Consistent t)
    (button : MouseButton) (now : ℕ) : Consistent (t.recordButtonDown button now) :=
  ⟨h.keys, h.modifiers⟩

theorem Consistent.recordButtonUp (h : Consistent t)
    (button : MouseButton) (now : ℕ) : Consistent (t.recordButtonUp button now) :=
  ⟨h.keys, h.modifiers⟩

theorem Consistent.recordKeyDown (h : Consistent t) (code : UInt16)
    (mods : Modifiers) (now : ℕ) : Consistent (t.recordKeyDown code mods now) where
  keys k := by
    simp [InputStateTracker.recordKeyDown, AList.mem_insert, h.keys]
  modifiers i := by
    simp only [InputStateTracker.recordKeyDown, Modifiers.has_max, h.modifiers,
      Table.lookup_insert]
    constructor
    · rintro (⟨k, m, hk, hm⟩ | hm)
      · by_cases heq : k = code
        · refine ⟨k, _, if_pos heq, (Modifiers.has_max _ _ i).mpr (.inl ?_)⟩
          rwa [← heq, hk]
        · exact ⟨k, m, by rwa [if_neg heq], hm⟩
      · exact ⟨code, _, if_pos rfl, (Modifiers.has_max _ _ i).mpr (.inr hm)⟩
    · rintro ⟨k, m, hk, hm⟩
      split at hk
      · obtain rfl := Option.some.inj hk
        rcases (Modifiers.has_max _ _ i).mp hm with hold | hnew
        · cases hlookup : t.keyModifiers.lookup code with
          | none =>
            rw [hlookup] at hold
            exact (Modifiers.not_has_empty i hold).elim
          | some m =>
            rw [hlookup] at hold
            exact .inl ⟨code, m, hlookup, hold⟩
        · exact .inr hnew
      · exact .inl ⟨k, m, hk, hm⟩

theorem Consistent.recordKeyUp (h : Consistent t) (code : UInt16)
    (now : ℕ) : Consistent (t.recordKeyUp code now) where
  keys k := by
    simp [InputStateTracker.recordKeyUp, AList.mem_erase, h.keys]
  modifiers i := by
    simp only [InputStateTracker.recordKeyUp, Modifiers.has_union, List.mem_map]
    constructor
    · rintro ⟨_, ⟨⟨k, m⟩, hentry, rfl⟩, hm⟩
      exact ⟨k, m, Table.mem_entries.mp hentry, hm⟩
    · rintro ⟨k, m, hk, hm⟩
      exact ⟨m, ⟨⟨k, m⟩, Table.mem_entries.mpr hk, rfl⟩, hm⟩

/-! ### What the records do -/

theorem covers_buttonDown (t : InputStateTracker) (button : MouseButton)
    (pos : UInt32 × UInt32) (m : Modifiers) (now : ℕ) :
    Covers direction [eventAt button.toDownEventType pos 0 m] t.Holds
      (t.recordButtonDown button now).Holds where
  pressed item h := by
    rw [Down, last_singleton, direction_eq_some, touches_down] at h
    cases h
    exact Finset.mem_insert_self _ _
  kept item _ h := by
    cases item with
    | key code => exact h
    | button b => exact Finset.mem_insert_of_mem h

theorem covers_buttonUp (t : InputStateTracker) (button : MouseButton)
    (pos : UInt32 × UInt32) (m : Modifiers) (now : ℕ) :
    Covers direction [eventAt button.toUpEventType pos 0 m] t.Holds
      (t.recordButtonUp button now).Holds where
  pressed item h := by
    rw [Down, last_singleton, direction_eq_some, touches_up] at h
    cases h
  kept item hnone h := by
    rw [last_singleton, direction_of_touches (touches_up button pos m)] at hnone
    cases item with
    | key code => exact h
    | button b =>
      refine Finset.mem_erase.mpr ⟨?_, h⟩
      rintro rfl
      cases (if_pos rfl).symm.trans hnone

theorem covers_keyDown (t : InputStateTracker) (code : UInt16) (mods : Modifiers)
    (pos : UInt32 × UInt32) (m : Modifiers) (now : ℕ) :
    Covers direction [eventAt .keyDown pos code m] t.Holds
      (t.recordKeyDown code mods now).Holds where
  pressed item h := by
    rw [Down, last_singleton, direction_eq_some] at h
    cases h
    exact Finset.mem_insert_self _ _
  kept item _ h := by
    cases item with
    | key code => exact Finset.mem_insert_of_mem h
    | button b => exact h

theorem covers_keyUp (t : InputStateTracker) (code : UInt16) (pos : UInt32 × UInt32)
    (m : Modifiers) (now : ℕ) :
    Covers direction [eventAt .keyUp pos code m] t.Holds (t.recordKeyUp code now).Holds where
  pressed item h := by
    rw [Down, last_singleton, direction_eq_some] at h
    cases h
  kept item hnone h := by
    have htouches : touches (eventAt .keyUp pos code m) = some (.key code, false) := rfl
    rw [last_singleton, direction_of_touches htouches] at hnone
    cases item with
    | key k =>
      refine Finset.mem_erase.mpr ⟨?_, h⟩
      rintro rfl
      cases (if_pos rfl).symm.trans hnone
    | button b => exact h

theorem exists_up (drain : Drain) (t : InputStateTracker) (pos : UInt32 × UInt32) (now : ℕ)
    {item : Item} (h : t.Holds item) :
    ∃ e ∈ (t.releaseAll drain pos now).1, touches e = some (item, false) := by
  cases item with
  | key code =>
    refine ⟨_, List.mem_append_left _ (List.mem_append_right _
      (List.mem_map_of_mem (drain.mem_keys.mpr h))), rfl⟩
  | button b =>
    refine ⟨_, List.mem_append_left _ (List.mem_append_left _
      (List.mem_map_of_mem (drain.mem_buttons.mpr h))), touches_up b pos _⟩

theorem releaseAll_up {drain : Drain} {pos : UInt32 × UInt32} {now : ℕ}
    {e : InputEvent} (h : e ∈ (t.releaseAll drain pos now).1) :
    e.eventType = .reset ∨ ∃ item, touches e = some (item, false) := by
  rw [releaseAll, List.mem_append, List.mem_append, List.mem_singleton] at h
  rcases h with (hbutton | hkey) | rfl
  · obtain ⟨b, -, rfl⟩ := List.mem_map.mp hbutton
    exact .inr ⟨_, touches_up b pos _⟩
  · obtain ⟨k, -, rfl⟩ := List.mem_map.mp hkey
    exact .inr ⟨.key k, rfl⟩
  · exact .inl rfl

theorem covers_releaseAll (drain : Drain) (t : InputStateTracker) (pos : UInt32 × UInt32)
    (now : ℕ) : Covers direction (t.releaseAll drain pos now).1 t.Holds
      (t.releaseAll drain pos now).2.Holds where
  pressed item h := by
    obtain ⟨e, he, hpress⟩ := h.exists_press
    rw [direction_eq_some] at hpress
    rcases releaseAll_up he with hreset | ⟨item', hup⟩
    · simp [touches, hreset] at hpress
    · cases hup.symm.trans hpress
  kept item hnone h := by
    obtain ⟨e, he, hup⟩ := exists_up drain t pos now h
    have huntouched := last_eq_none_iff.mp hnone e he
    rw [direction_eq_some.mpr hup] at huntouched
    cases huntouched

end InputStateTracker

/-! ### Actions -/

open InputStateTracker

/-- The events that a conversion emits: none, if it fails. -/
def Conversion.events (c : Conversion) : List InputEvent :=
  match c.1 with
  | .ok events => events
  | .error _ => []

/-- What a conversion makes of the tracker `t`. -/
structure Sound (t : InputStateTracker) (c : Conversion) : Prop where
  covers : Covers direction c.events t.Holds c.2.1.Holds
  consistent : t.Consistent → c.2.1.Consistent

theorem Sound.error (t : InputStateTracker) (e : AgentInputError) (pos : UInt32 × UInt32) :
    Sound t (.error e, t, pos) :=
  ⟨.of_balanced .nil, id⟩

theorem Sound.balanced {t : InputStateTracker} {events : List InputEvent}
    (h : Balanced direction events) (pos : UInt32 × UInt32) : Sound t (.ok events, t, pos) :=
  ⟨.of_balanced h, id⟩

theorem balanced_key (pos pos' : UInt32 × UInt32) (code : UInt16) (m m' : Modifiers) :
    Balanced direction [eventAt .keyDown pos code m, eventAt .keyUp pos' code m'] :=
  balanced_press (show touches (eventAt .keyDown pos code m) = some (.key code, true) from rfl) rfl

theorem balanced_typeChar (pos : UInt32 × UInt32) (ch : Char) :
    Balanced direction (typeChar pos ch) := by
  rw [typeChar]
  split
  · split
    · exact balanced_key pos pos _ _ _
    · exact .nil
  · refine balanced_untouched fun e he => ?_
    obtain ⟨unit, -, rfl⟩ := List.mem_map.mp he
    rfl

theorem balanced_click (wire : UInt32 × UInt32) (button : MouseButton) (m : Modifiers) (n : ℕ) :
    Balanced direction (eventAt .mouseMove wire 0 m ::
      (List.replicate n [eventAt button.toDownEventType wire 0 m,
        eventAt button.toUpEventType wire 0 m]).flatten) := by
  rw [← List.singleton_append]
  refine .append (balanced_untouched ?_) (.flatten fun log hlog => ?_)
  · rintro e he
    obtain rfl := List.mem_singleton.mp he
    rfl
  · obtain rfl := List.eq_of_mem_replicate hlog
    exact balanced_press (touches_down button wire m) (touches_up button wire m)

theorem covers_drag (t : InputStateTracker) (s e : UInt32 × UInt32) (button : MouseButton)
    (points : List (UInt32 × UInt32)) (now : ℕ) :
    let t₁ := t.recordButtonDown button now
    let t₂ := t₁.recordButtonUp button now
    Covers direction
      (eventAt .mouseMove s 0 t.activeModifiers ::
        eventAt button.toDownEventType s 0 t₁.activeModifiers ::
        points.map (fun p => eventAt button.toDragEventType p 0 t₁.activeModifiers) ++
        [eventAt button.toUpEventType e 0 t₂.activeModifiers]) t.Holds t₂.Holds := by
  intro t₁ t₂
  have hmove : Balanced direction [eventAt .mouseMove s 0 t.activeModifiers] := by
    refine balanced_untouched fun e he => ?_
    obtain rfl := List.mem_singleton.mp he
    rfl
  have hdrags : Balanced direction
      (points.map fun p => eventAt button.toDragEventType p 0 t₁.activeModifiers) := by
    refine balanced_untouched fun e he => ?_
    obtain ⟨p, -, rfl⟩ := List.mem_map.mp he
    exact touches_drag button p _
  exact (((Covers.of_balanced hmove).trans (covers_buttonDown t button s _ now)).trans
    (.of_balanced hdrags)).trans (covers_buttonUp t₁ button e _ now)

theorem convertWithinBound_sound (drain : Drain) (action : AgentAction) (t : InputStateTracker)
    (pos : UInt32 × UInt32) (hostWidth hostHeight : UInt32) (now : ℕ) :
    Sound t (convertWithinBound drain action t pos hostWidth hostHeight now) := by
  cases action with
  | mouseMove x y normalized =>
    simp only [convertWithinBound]
    split
    · exact .error t _ pos
    · refine .balanced (balanced_untouched fun e he => ?_) _
      obtain rfl := List.mem_singleton.mp he
      rfl
  | mouseDown button =>
    exact ⟨covers_buttonDown t button pos _ now, fun h => h.recordButtonDown button now⟩
  | mouseUp button =>
    exact ⟨covers_buttonUp t button pos _ now, fun h => h.recordButtonUp button now⟩
  | click x y button count normalized =>
    simp only [convertWithinBound]
    split
    · exact .error t _ pos
    · exact .balanced (balanced_click _ button _ _) _
  | drag startX startY endX endY button steps durationMs normalized =>
    simp only [convertWithinBound]
    split
    · exact .error t _ pos
    · exact .error t _ pos
    · exact ⟨covers_drag t _ _ button _ now,
        fun h => (h.recordButtonDown button now).recordButtonUp button now⟩
  | scroll dx dy x y normalized =>
    simp only [convertWithinBound]
    split
    · exact .error t _ pos
    · refine .balanced (balanced_untouched fun e he => ?_) _
      obtain rfl := List.mem_singleton.mp he
      rfl
  | keyDown key =>
    simp only [convertWithinBound]
    split
    · exact .error t _ pos
    · exact ⟨covers_keyDown t _ _ pos _ now, fun h => h.recordKeyDown _ _ now⟩
  | keyUp key =>
    simp only [convertWithinBound]
    split
    · exact .error t _ pos
    · exact ⟨covers_keyUp t _ pos _ now, fun h => h.recordKeyUp _ now⟩
  | keyPress key holdMs =>
    simp only [convertWithinBound]
    split
    · exact .error t _ pos
    · exact .balanced (balanced_key pos pos _ _ _) _
  | hotkey keys =>
    simp only [convertWithinBound]
    split
    · exact .error t _ pos
    · exact .balanced (balanced_key pos pos _ _ _) _
  | typeText text delayMs pasteMode =>
    refine .balanced (.flatten fun log hlog => ?_) _
    obtain ⟨ch, -, rfl⟩ := List.mem_map.mp hlog
    exact balanced_typeChar pos ch
  | releaseAll => exact ⟨covers_releaseAll drain t pos now, fun _ => .clear t now⟩

theorem convert_sound (drain : Drain) (action : AgentAction) (t : InputStateTracker)
    (pos : UInt32 × UInt32) (hostWidth hostHeight : UInt32) (now : ℕ) :
    Sound t (convertAgentActionToEvents drain action t pos hostWidth hostHeight now) := by
  rw [convertAgentActionToEvents]
  split
  · exact .error t _ pos
  · exact convertWithinBound_sound drain action t pos hostWidth hostHeight now

/-! ### Runs -/

/-- One call of the conversion. -/
structure Call where
  drain : Drain
  action : AgentAction
  hostWidth : UInt32
  hostHeight : UInt32
  now : ℕ

structure AgentInput where
  tracker : InputStateTracker
  pos : UInt32 × UInt32
  emitted : List InputEvent

def AgentInput.new (holdTimeout now : ℕ) (pos : UInt32 × UInt32) : AgentInput :=
  ⟨.new holdTimeout now, pos, []⟩

def AgentInput.act (s : AgentInput) (c : Call) : AgentInput :=
  let conversion :=
    convertAgentActionToEvents c.drain c.action s.tracker s.pos c.hostWidth c.hostHeight c.now
  ⟨conversion.2.1, conversion.2.2, s.emitted ++ conversion.events⟩

/-- The tracker knows what is down, and where its modifiers come from. -/
structure AgentInput.Tracked (s : AgentInput) : Prop where
  down : ∀ item, Down direction s.emitted item → s.tracker.Holds item
  consistent : s.tracker.Consistent

theorem AgentInput.Tracked.act {s : AgentInput} (h : s.Tracked) (c : Call) : (s.act c).Tracked := by
  have hsound :=
    convert_sound c.drain c.action s.tracker s.pos c.hostWidth c.hostHeight c.now
  exact ⟨hsound.covers.down h.down, hsound.consistent h.consistent⟩

theorem AgentInput.tracked_foldl {s : AgentInput} (h : s.Tracked) (calls : List Call) :
    (calls.foldl act s).Tracked := by
  induction calls generalizing s with
  | nil => exact h
  | cons c calls ih => exact ih (h.act c)

/-- **Nothing is left stuck.** -/
theorem agent_input_tracked (holdTimeout start : ℕ) (pos : UInt32 × UInt32)
    (calls : List Call) :
    let s := calls.foldl AgentInput.act (.new holdTimeout start pos)
    (∀ item, Down direction s.emitted item → s.tracker.Holds item) ∧
      (∀ i, s.tracker.activeModifiers.Has i ↔
        ∃ k m, k ∈ s.tracker.activeKeys ∧ s.tracker.keyModifiers.lookup k = some m ∧ m.Has i) ∧
      ∀ (drain : Drain) (hostWidth hostHeight : UInt32) (now : ℕ),
        let c := convertAgentActionToEvents drain .releaseAll s.tracker s.pos hostWidth hostHeight
          now
        ∃ events, c.1 = .ok events ∧
          (∀ item, s.tracker.Holds item → ∃ e ∈ events, touches e = some (item, false)) ∧
          (∀ item, ¬ c.2.1.Holds item) ∧ c.2.1.isEmpty := by
  intro s
  have htracked : s.Tracked := AgentInput.tracked_foldl
    ⟨fun _ h => (Presses.Balanced.nil _ h).elim, consistent_new holdTimeout start⟩ calls
  refine ⟨htracked.down, fun i => ?_, fun drain hostWidth hostHeight now => ?_⟩
  · rw [htracked.consistent.modifiers]
    refine exists_congr fun k => exists_congr fun m => ?_
    refine ⟨fun ⟨hk, hm⟩ => ⟨?_, hk, hm⟩, fun ⟨_, hk, hm⟩ => ⟨hk, hm⟩⟩
    refine (htracked.consistent.keys k).mp (AList.lookup_isSome.mp ?_)
    rw [hk]
    rfl
  · refine ⟨_, rfl, fun item h => exists_up drain s.tracker s.pos now h, fun item => ?_, ?_⟩
    · cases item with
      | key code => exact Finset.notMem_empty code
      | button b => exact Finset.notMem_empty b
    · simp [convertAgentActionToEvents, eventBound, convertWithinBound, releaseAll, clear, isEmpty]

end MahoRD.Agent

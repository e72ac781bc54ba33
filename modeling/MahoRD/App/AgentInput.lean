/-
MahoRD/App/AgentInput.lean

The agent's actions and the input events they become (`maho-app/src/agent_input.rs`,
`maho-app/src/input.rs`).

The tracker keeps the keys and buttons that actions left down, with the modifiers of each
key.  Its two sets are drained in an order of their own, which `Drain` stands for.

Floats are bit patterns, instants and durations milliseconds.
-/
import MahoRD.Lib.Table
import MahoRD.Lib.Utf16
import MahoRD.Proto.Keys

namespace MahoRD.Agent

inductive InputKey
  | windowsVirtualKey (key : UInt16)
  deriving DecidableEq

/-- Windows virtual keys and the key codes on the wire. -/
def macosKeys : List (UInt16 × UInt16) := [
  (0x41, 0x00), (0x53, 0x01), (0x44, 0x02), (0x46, 0x03), (0x48, 0x04), (0x47, 0x05),
  (0x5a, 0x06), (0x58, 0x07), (0x43, 0x08), (0x56, 0x09), (0x42, 0x0b), (0x51, 0x0c),
  (0x57, 0x0d), (0x45, 0x0e), (0x52, 0x0f), (0x59, 0x10), (0x54, 0x11), (0x31, 0x12),
  (0x32, 0x13), (0x33, 0x14), (0x34, 0x15), (0x36, 0x16), (0x35, 0x17), (0x3d, 0x18),
  (0x39, 0x19), (0x37, 0x1a), (0x2d, 0x1b), (0x38, 0x1c), (0x30, 0x1d), (0xdd, 0x1e),
  (0x4f, 0x1f), (0x55, 0x20), (0xdb, 0x21), (0x49, 0x22), (0x50, 0x23), (0x0d, 0x24),
  (0x4c, 0x25), (0x4a, 0x26), (0xde, 0x27), (0x4b, 0x28), (0xba, 0x29), (0xdc, 0x2a),
  (0xbc, 0x2b), (0xbf, 0x2c), (0x4e, 0x2d), (0x4d, 0x2e), (0xbe, 0x2f), (0x09, 0x30),
  (0x20, 0x31), (0xc0, 0x32), (0x08, 0x33), (0x1b, 0x35), (0x5b, 0x37), (0x5c, 0x37),
  (0x10, 0x38), (0xa0, 0x38), (0x14, 0x39), (0x12, 0x3a), (0xa4, 0x3a), (0x11, 0x3b),
  (0xa2, 0x3b), (0xa1, 0x3c), (0xa5, 0x3d), (0xa3, 0x3e), (0x70, 0x7a), (0x71, 0x78),
  (0x72, 0x63), (0x73, 0x76), (0x74, 0x60), (0x75, 0x61), (0x76, 0x62), (0x77, 0x64),
  (0x78, 0x65), (0x79, 0x6d), (0x7a, 0x67), (0x7b, 0x6f), (0x7c, 0x69), (0x7d, 0x6b),
  (0x7e, 0x71), (0x7f, 0x6a), (0x80, 0x40), (0x81, 0x4f), (0x82, 0x50), (0x83, 0x5a),
  (0x84, ExtendedKeys.f21), (0x85, ExtendedKeys.f22), (0x86, ExtendedKeys.f23),
  (0x87, ExtendedKeys.f24), (0xb3, ExtendedKeys.mediaPlayPause), (0xb0, ExtendedKeys.mediaNext),
  (0xb1, ExtendedKeys.mediaPrevious), (0xb2, ExtendedKeys.mediaStop),
  (0xa6, ExtendedKeys.browserBack), (0xa7, ExtendedKeys.browserForward),
  (0xa8, ExtendedKeys.browserRefresh), (0xa9, ExtendedKeys.browserStop),
  (0xaa, ExtendedKeys.browserSearch), (0xab, ExtendedKeys.browserFavorites),
  (0xac, ExtendedKeys.browserHome), (0xad, 0x4a), (0xae, 0x49), (0xaf, 0x48), (0x60, 0x52),
  (0x61, 0x53), (0x62, 0x54), (0x63, 0x55), (0x64, 0x56), (0x65, 0x57), (0x66, 0x58),
  (0x67, 0x59), (0x68, 0x5b), (0x69, 0x5c), (0x6a, 0x43), (0x6b, 0x45), (0x6d, 0x4e),
  (0x6e, 0x41), (0x6f, 0x4b), (0x90, 0x47), (0x92, 0x51), (0x100d, 0x4c), (0x25, 0x7b),
  (0x27, 0x7c), (0x28, 0x7d), (0x26, 0x7e), (0x24, 0x73), (0x23, 0x77), (0x21, 0x74),
  (0x22, 0x79), (0x2e, 0x75)]

/-- `InputKeyMap::to_macos`. -/
def InputKeyMap.toMacos : InputKey → Option UInt16
  | .windowsVirtualKey key => macosKeys.lookup key

inductive MouseButton
  | left | right | middle
  deriving DecidableEq

namespace MouseButton

def toDownEventType : MouseButton → InputEventType
  | left => .leftMouseDown
  | right => .rightMouseDown
  | middle => .middleMouseDown

def toUpEventType : MouseButton → InputEventType
  | left => .leftMouseUp
  | right => .rightMouseUp
  | middle => .middleMouseUp

def toDragEventType : MouseButton → InputEventType
  | left => .leftMouseDragged
  | right => .rightMouseDragged
  | middle => .leftMouseDragged

end MouseButton

inductive AgentAction
  | mouseMove (x y : UInt32) (normalized : Bool)
  | mouseDown (button : MouseButton)
  | mouseUp (button : MouseButton)
  | click (x y : UInt32) (button : MouseButton) (count : UInt32) (normalized : Bool)
  | drag (startX startY endX endY : UInt32) (button : MouseButton) (steps : UInt32)
      (durationMs : UInt64) (normalized : Bool)
  | scroll (dx dy : UInt32) (x y : Option UInt32) (normalized : Bool)
  | keyDown (key : String)
  | keyUp (key : String)
  | keyPress (key : String) (holdMs : UInt64)
  | hotkey (keys : List String)
  | typeText (text : String) (delayMs : UInt64) (pasteMode : Bool)
  | releaseAll
  deriving DecidableEq

inductive AgentInputError
  | unknownKey (name : String) | unmappableKey (name : String) | emptyHotkey
  | invalidCoordinates (x y : UInt32) | actionTooLarge (maxEvents : ℕ)
  deriving DecidableEq

/-! ### Key names -/

/-- `char::is_whitespace`. -/
def isWhitespace (ch : Char) : Bool :=
  let n := ch.toNat
  (0x09 ≤ n ∧ n ≤ 0x0d) ∨ n = 0x20 ∨ n = 0x85 ∨ n = 0xa0 ∨ n = 0x1680 ∨
    (0x2000 ≤ n ∧ n ≤ 0x200a) ∨ n = 0x2028 ∨ n = 0x2029 ∨ n = 0x202f ∨ n = 0x205f ∨ n = 0x3000

/-- `str::trim`. -/
def trim (s : List Char) : List Char :=
  ((s.dropWhile isWhitespace).reverse.dropWhile isWhitespace).reverse

/-- `str::to_ascii_lowercase`. -/
def toAsciiLowercase (s : List Char) : String := String.ofList (s.map Char.toLower)

def parseKeyName (name : String) : Except AgentInputError (InputKey × Modifiers) :=
  let trimmed := trim name.toList
  let key (vk : UInt16) : Except AgentInputError (InputKey × Modifiers) :=
    .ok (.windowsVirtualKey vk, Modifiers.empty)
  match toAsciiLowercase trimmed with
  | "shift" | "leftshift" | "rightshift" => .ok (.windowsVirtualKey 0x10, Modifiers.shift)
  | "ctrl" | "control" | "leftctrl" | "rightctrl" =>
    .ok (.windowsVirtualKey 0x11, Modifiers.control)
  | "alt" | "option" | "leftalt" | "rightalt" => .ok (.windowsVirtualKey 0x12, Modifiers.option)
  | "super" | "win" | "windows" | "cmd" | "command" | "meta" =>
    .ok (.windowsVirtualKey 0x5B, Modifiers.command)
  | "capslock" => .ok (.windowsVirtualKey 0x14, Modifiers.capsLock)
  | "enter" | "return" => key 0x0D
  | "esc" | "escape" => key 0x1B
  | "tab" => key 0x09
  | "space" | " " => key 0x20
  | "backspace" => key 0x08
  | "delete" | "del" => key 0x2E
  | "insert" | "ins" => key 0x2D
  | "home" => key 0x24
  | "end" => key 0x23
  | "pageup" | "pgup" => key 0x21
  | "pagedown" | "pgdn" => key 0x22
  | "arrowup" | "up" => key 0x26
  | "arrowdown" | "down" => key 0x28
  | "arrowleft" | "left" => key 0x25
  | "arrowright" | "right" => key 0x27
  | "f1" => key 0x70
  | "f2" => key 0x71
  | "f3" => key 0x72
  | "f4" => key 0x73
  | "f5" => key 0x74
  | "f6" => key 0x75
  | "f7" => key 0x76
  | "f8" => key 0x77
  | "f9" => key 0x78
  | "f10" => key 0x79
  | "f11" => key 0x7A
  | "f12" => key 0x7B
  | "-" | "minus" => key 0xBD
  | "=" | "equal" => key 0xBB
  | "[" | "bracketleft" => key 0xDB
  | "]" | "bracketright" => key 0xDD
  | "\\" | "backslash" => key 0xDC
  | ";" | "semicolon" => key 0xBA
  | "'" | "quote" => key 0xDE
  | "," | "comma" => key 0xBC
  | "." | "period" => key 0xBE
  | "/" | "slash" => key 0xBF
  | "`" | "grave" => key 0xC0
  | _ =>
    match trimmed with
    | [ch] =>
      if ch.isAlpha then
        .ok (.windowsVirtualKey (UInt16.ofNat ch.toUpper.toNat),
          if ch.isUpper then Modifiers.shift else Modifiers.empty)
      else if ch.isDigit then key (UInt16.ofNat ch.toNat)
      else .error (.unknownKey name)
    | _ => .error (.unknownKey name)

/-- The loop of `parse_hotkey_string` over the parts: the last key, and the modifiers of all. -/
def parseHotkeyParts (combined : Modifiers) :
    List (List Char) → Except AgentInputError (InputKey × Modifiers)
  | [] => .error .emptyHotkey
  | [part] => do
    let (key, mods) ← parseKeyName (String.ofList part)
    return (key, combined ⊔ mods)
  | part :: rest => do
    let (_, mods) ← parseKeyName (String.ofList part)
    if mods = Modifiers.empty then
      let mods ← match toAsciiLowercase part with
        | "ctrl" | "control" => .ok Modifiers.control
        | "alt" | "opt" | "option" => .ok Modifiers.option
        | "shift" => .ok Modifiers.shift
        | "super" | "win" | "cmd" | "command" => .ok Modifiers.command
        | _ => .error (.unknownKey (String.ofList part))
      parseHotkeyParts (combined ⊔ mods) rest
    else parseHotkeyParts (combined ⊔ mods) rest

def parseHotkeyString (hotkey : String) : Except AgentInputError (InputKey × Modifiers) :=
  parseHotkeyParts Modifiers.empty
    (((hotkey.toList.splitOn '+').map trim).filter fun part => !part.isEmpty)

def requireMacosKeycode (key : InputKey) (name : String) : Except AgentInputError UInt16 :=
  match InputKeyMap.toMacos key with
  | some code => .ok code
  | none => .error (.unmappableKey name)

/-! ### Coordinates -/

/-- `f32::clamp(0.0, 1.0)`. -/
def clampUnit (x : Float32) : Float32 :=
  let x := if x < 0 then 0 else x
  if x > 1 then 1 else x

def normalizeAgentCoordinates (x y : UInt32) (normalized : Bool) (hostWidth hostHeight : UInt32) :
    Except AgentInputError (UInt32 × UInt32) :=
  if !isFinite x || !isFinite y then .error (.invalidCoordinates x y)
  else
    let (fx, fy) := (Float32.ofBits x, Float32.ofBits y)
    let (w, h) := (Float32.ofBits hostWidth, Float32.ofBits hostHeight)
    if normalized then .ok ((clampUnit fx).toBits, (clampUnit (1 - fy)).toBits)
    else if w ≤ 0 ∨ h ≤ 0 then .ok (0, 0)
    else .ok ((clampUnit (fx / w)).toBits, (clampUnit (1 - fy / h)).toBits)

/-- The `i`-th of the `stepCount` points of a drag. -/
def dragPoint (s e : UInt32 × UInt32) (stepCount i : UInt32) : UInt32 × UInt32 :=
  let t := i.toFloat32 / stepCount.toFloat32
  let point (s e : UInt32) : UInt32 :=
    (Float32.ofBits s + (Float32.ofBits e - Float32.ofBits s) * t).toBits
  (point s.1 e.1, point s.2 e.2)

def synthesizeAsciiChar (ch : Char) : Option (InputKey × Modifiers) :=
  let plain (vk : UInt16) := some (InputKey.windowsVirtualKey vk, Modifiers.empty)
  let shifted (vk : UInt16) := some (InputKey.windowsVirtualKey vk, Modifiers.shift)
  if ch.isAlpha then
    let vk := UInt16.ofNat ch.toUpper.toNat
    if ch.isUpper then shifted vk else plain vk
  else if ch.isDigit then plain (UInt16.ofNat ch.toNat)
  else
    match ch with
    | ' ' => plain 0x20
    | '\n' | '\r' => plain 0x0D
    | '\t' => plain 0x09
    | '-' => plain 0xBD
    | '_' => shifted 0xBD
    | '=' => plain 0xBB
    | '+' => shifted 0xBB
    | '[' => plain 0xDB
    | '\x7b' => shifted 0xDB
    | ']' => plain 0xDD
    | '\x7d' => shifted 0xDD
    | '\\' => plain 0xDC
    | '|' => shifted 0xDC
    | ';' => plain 0xBA
    | ':' => shifted 0xBA
    | '\x27' => plain 0xDE
    | '\x22' => shifted 0xDE
    | ',' => plain 0xBC
    | '<' => shifted 0xBC
    | '.' => plain 0xBE
    | '>' => shifted 0xBE
    | '/' => plain 0xBF
    | '?' => shifted 0xBF
    | '\x60' => plain 0xC0
    | '~' => shifted 0xC0
    | '!' => shifted 0x31
    | '@' => shifted 0x32
    | '#' => shifted 0x33
    | '$' => shifted 0x34
    | '%' => shifted 0x35
    | '^' => shifted 0x36
    | '&' => shifted 0x37
    | '*' => shifted 0x38
    | '(' => shifted 0x39
    | ')' => shifted 0x30
    | _ => none

/-! ### The tracker -/

structure InputStateTracker where
  activeButtons : Finset MouseButton
  activeKeys : Finset UInt16
  /-- The modifiers that each held key contributed. -/
  keyModifiers : Table UInt16 Modifiers
  activeModifiers : Modifiers
  lastActionAt : ℕ
  holdTimeout : ℕ

/-- The orders in which the two sets are drained. -/
structure Drain where
  buttons : Finset MouseButton → List MouseButton
  keys : Finset UInt16 → List UInt16
  mem_buttons : ∀ {s b}, b ∈ buttons s ↔ b ∈ s
  mem_keys : ∀ {s k}, k ∈ keys s ↔ k ∈ s
  nodup_buttons : ∀ s, (buttons s).Nodup
  nodup_keys : ∀ s, (keys s).Nodup

/-- Ascending. -/
def Drain.ascending : Drain where
  buttons s := [MouseButton.left, .right, .middle].filter (· ∈ s)
  keys := MahoRD.ascending
  mem_buttons {s b} := by cases b <;> simp
  mem_keys := mem_ascending
  nodup_buttons s := List.Nodup.filter _ (by decide)
  nodup_keys := nodup_ascending

/-- An event at a position, without scrolling. -/
def eventAt (eventType : InputEventType) (pos : UInt32 × UInt32) (keyCode : UInt16)
    (modifiers : Modifiers) : InputEvent :=
  ⟨eventType, pos.1, pos.2, keyCode, modifiers, 0, 0⟩

namespace InputStateTracker

def new (holdTimeout now : ℕ) : InputStateTracker := ⟨∅, ∅, ∅, Modifiers.empty, now, holdTimeout⟩

def recordButtonDown (t : InputStateTracker) (button : MouseButton) (now : ℕ) :
    InputStateTracker :=
  { t with activeButtons := insert button t.activeButtons, lastActionAt := now }

def recordButtonUp (t : InputStateTracker) (button : MouseButton) (now : ℕ) :
    InputStateTracker :=
  { t with activeButtons := t.activeButtons.erase button, lastActionAt := now }

def recordKeyDown (t : InputStateTracker) (keyCode : UInt16) (modifiers : Modifiers) (now : ℕ) :
    InputStateTracker :=
  { t with
    activeKeys := insert keyCode t.activeKeys
    keyModifiers := t.keyModifiers.insert keyCode
      ((t.keyModifiers.lookup keyCode).getD Modifiers.empty ⊔ modifiers)
    activeModifiers := t.activeModifiers ⊔ modifiers
    lastActionAt := now }

def recordKeyUp (t : InputStateTracker) (keyCode : UInt16) (now : ℕ) : InputStateTracker :=
  let keyModifiers := t.keyModifiers.erase keyCode
  { t with
    activeKeys := t.activeKeys.erase keyCode
    keyModifiers
    activeModifiers := Modifiers.union (keyModifiers.entries.map (·.2))
    lastActionAt := now }

def isEmpty (t : InputStateTracker) : Bool :=
  t.activeButtons = ∅ ∧ t.activeKeys = ∅ ∧ t.activeModifiers = Modifiers.empty

def clear (t : InputStateTracker) (now : ℕ) : InputStateTracker :=
  { t with
    activeButtons := ∅
    activeKeys := ∅
    keyModifiers := ∅
    activeModifiers := Modifiers.empty
    lastActionAt := now }

/-- An Up for whatever is held, and a reset. -/
def releaseAll (drain : Drain) (t : InputStateTracker) (pos : UInt32 × UInt32) (now : ℕ) :
    List InputEvent × InputStateTracker :=
  ((drain.buttons t.activeButtons).map (fun b => eventAt b.toUpEventType pos 0 t.activeModifiers) ++
      (drain.keys t.activeKeys).map (fun k => eventAt .keyUp pos k t.activeModifiers) ++
      [eventAt .reset pos 0 Modifiers.empty],
    t.clear now)

def isTimedOut (t : InputStateTracker) (now : ℕ) : Bool :=
  !t.isEmpty && now - t.lastActionAt > t.holdTimeout

def checkTimeout (drain : Drain) (t : InputStateTracker) (pos : UInt32 × UInt32) (now : ℕ) :
    Option (List InputEvent) × InputStateTracker :=
  if t.isTimedOut now then
    let (events, t) := t.releaseAll drain pos now
    (some events, t)
  else (none, t)

def markReleaseFailed (t : InputStateTracker) (now : ℕ) : InputStateTracker :=
  { t with lastActionAt := if t.holdTimeout + 1 ≤ now then now - (t.holdTimeout + 1) else now }

end InputStateTracker

/-! ### Actions to events -/

def maxActionEvents : ℕ := 4096

def eventBound : AgentAction → ℕ
  | .click _ _ _ count _ => (max count 1).toNat * 2 + 1
  | .drag _ _ _ _ _ steps _ _ => (max steps 1).toNat + 3
  | .typeText text _ _ => (text.toList.take (maxActionEvents / 2 + 1)).length * 2
  | _ => 0

/-- The events of one typed character. -/
def typeChar (pos : UInt32 × UInt32) (ch : Char) : List InputEvent :=
  match synthesizeAsciiChar ch with
  | some (key, mods) =>
    match InputKeyMap.toMacos key with
    | some code => [eventAt .keyDown pos code mods, eventAt .keyUp pos code mods]
    | none => []
  | none => (Utf16.encode ch).map fun unit => InputEvent.unicodeChar unit pos.1 pos.2

/-- What an action comes to: its events or an error, the tracker, and the position. -/
abbrev Conversion := Except AgentInputError (List InputEvent) × InputStateTracker × UInt32 × UInt32

/-- The part of `convert_agent_action_to_events` after the check of the bound. -/
def convertWithinBound (drain : Drain) (action : AgentAction) (t : InputStateTracker)
    (pos : UInt32 × UInt32) (hostWidth hostHeight : UInt32) (now : ℕ) : Conversion :=
  let normalize (x y : UInt32) (normalized : Bool) :=
    normalizeAgentCoordinates x y normalized hostWidth hostHeight
  match action with
  | .mouseMove x y normalized =>
    match normalize x y normalized with
    | .error e => (.error e, t, pos)
    | .ok wire => (.ok [eventAt .mouseMove wire 0 t.activeModifiers], t, wire)
  | .mouseDown button =>
    let t := t.recordButtonDown button now
    (.ok [eventAt button.toDownEventType pos 0 t.activeModifiers], t, pos)
  | .mouseUp button =>
    let t := t.recordButtonUp button now
    (.ok [eventAt button.toUpEventType pos 0 t.activeModifiers], t, pos)
  | .click x y button count normalized =>
    match normalize x y normalized with
    | .error e => (.error e, t, pos)
    | .ok wire =>
      let once := [eventAt button.toDownEventType wire 0 t.activeModifiers,
        eventAt button.toUpEventType wire 0 t.activeModifiers]
      (.ok (eventAt .mouseMove wire 0 t.activeModifiers ::
        (List.replicate count.toNat once).flatten), t, wire)
  | .drag startX startY endX endY button steps _ normalized =>
    match normalize startX startY normalized, normalize endX endY normalized with
    | .error e, _ => (.error e, t, pos)
    | _, .error e => (.error e, t, pos)
    | .ok s, .ok e =>
      let moved := eventAt .mouseMove s 0 t.activeModifiers
      let t := t.recordButtonDown button now
      let down := eventAt button.toDownEventType s 0 t.activeModifiers
      let stepCount := max steps 1
      let points := (List.range stepCount.toNat).map fun i =>
        dragPoint s e stepCount (UInt32.ofNat (i + 1))
      let drags := points.map fun p => eventAt button.toDragEventType p 0 t.activeModifiers
      let t := t.recordButtonUp button now
      let up := eventAt button.toUpEventType e 0 t.activeModifiers
      (.ok (moved :: down :: drags ++ [up]), t, points.getLastD s)
  | .scroll dx dy x y normalized =>
    let target : Except AgentInputError (UInt32 × UInt32) :=
      match x, y with
      | some px, some py => normalize px py normalized
      | _, _ => .ok pos
    match target with
    | .error e => (.error e, t, pos)
    | .ok pos => (.ok [⟨.scrollWheel, pos.1, pos.2, 0, t.activeModifiers, dx, dy⟩], t, pos)
  | .keyDown key =>
    let parsed : Except AgentInputError (UInt16 × Modifiers) := do
      let (k, mods) ← parseKeyName key
      return (← requireMacosKeycode k key, mods)
    match parsed with
    | .error e => (.error e, t, pos)
    | .ok (code, mods) =>
      let t := t.recordKeyDown code mods now
      (.ok [eventAt .keyDown pos code t.activeModifiers], t, pos)
  | .keyUp key =>
    let parsed : Except AgentInputError UInt16 := do
      let (k, _) ← parseKeyName key
      requireMacosKeycode k key
    match parsed with
    | .error e => (.error e, t, pos)
    | .ok code =>
      let t := t.recordKeyUp code now
      (.ok [eventAt .keyUp pos code t.activeModifiers], t, pos)
  | .keyPress key _ =>
    let parsed : Except AgentInputError (UInt16 × Modifiers) := do
      let (k, mods) ← parseKeyName key
      return (← requireMacosKeycode k key, mods)
    match parsed with
    | .error e => (.error e, t, pos)
    | .ok (code, mods) => (.ok [eventAt .keyDown pos code mods, eventAt .keyUp pos code mods], t, pos)
  | .hotkey keys =>
    let combined := String.intercalate "+" keys
    let parsed : Except AgentInputError (UInt16 × Modifiers) := do
      let (k, mods) ← parseHotkeyString combined
      return (← requireMacosKeycode k combined, mods)
    match parsed with
    | .error e => (.error e, t, pos)
    | .ok (code, mods) => (.ok [eventAt .keyDown pos code mods, eventAt .keyUp pos code mods], t, pos)
  | .typeText text _ _ => (.ok (text.toList.flatMap (typeChar pos)), t, pos)
  | .releaseAll =>
    let (events, t) := t.releaseAll drain pos now
    (.ok events, t, pos)

def convertAgentActionToEvents (drain : Drain) (action : AgentAction) (t : InputStateTracker)
    (pos : UInt32 × UInt32) (hostWidth hostHeight : UInt32) (now : ℕ) : Conversion :=
  if eventBound action > maxActionEvents then
    (.error (.actionTooLarge maxActionEvents), t, pos)
  else convertWithinBound drain action t pos hostWidth hostHeight now

end MahoRD.Agent

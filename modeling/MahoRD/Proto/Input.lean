/-
MahoRD/Proto/Input.lean

Input events (`maho-proto/src/input.rs`).  The floats are bit patterns.
-/
import MahoRD.Proto.Codec

namespace MahoRD

inductive InputEventType
  | mouseMove | leftMouseDown | leftMouseUp | rightMouseDown | rightMouseUp | scrollWheel
  | keyDown | keyUp | flagsChanged | leftMouseDragged | rightMouseDragged | middleMouseDown
  | middleMouseUp | reset | relativeMove | gamepadAxis | gamepadButtonDown | gamepadButtonUp
  | penMove | penDown | penUp | unicodeChar
  deriving DecidableEq

namespace InputEventType

/-- `event_type as u8`. -/
def toByte : InputEventType → UInt8
  | mouseMove => 0
  | leftMouseDown => 1
  | leftMouseUp => 2
  | rightMouseDown => 3
  | rightMouseUp => 4
  | scrollWheel => 5
  | keyDown => 6
  | keyUp => 7
  | flagsChanged => 8
  | leftMouseDragged => 9
  | rightMouseDragged => 10
  | middleMouseDown => 11
  | middleMouseUp => 12
  | reset => 13
  | relativeMove => 14
  | gamepadAxis => 15
  | gamepadButtonDown => 16
  | gamepadButtonUp => 17
  | penMove => 18
  | penDown => 19
  | penUp => 20
  | unicodeChar => 21

def tryFrom : UInt8 → Except CodecError InputEventType
  | 0 => .ok mouseMove
  | 1 => .ok leftMouseDown
  | 2 => .ok leftMouseUp
  | 3 => .ok rightMouseDown
  | 4 => .ok rightMouseUp
  | 5 => .ok scrollWheel
  | 6 => .ok keyDown
  | 7 => .ok keyUp
  | 8 => .ok flagsChanged
  | 9 => .ok leftMouseDragged
  | 10 => .ok rightMouseDragged
  | 11 => .ok middleMouseDown
  | 12 => .ok middleMouseUp
  | 13 => .ok reset
  | 14 => .ok relativeMove
  | 15 => .ok gamepadAxis
  | 16 => .ok gamepadButtonDown
  | 17 => .ok gamepadButtonUp
  | 18 => .ok penMove
  | 19 => .ok penDown
  | 20 => .ok penUp
  | 21 => .ok unicodeChar
  | unknown => .error (.unknownInputEventType unknown)

end InputEventType

structure Modifiers where
  bits : UInt16
  deriving DecidableEq

def Modifiers.empty : Modifiers := ⟨0⟩

structure InputEvent where
  eventType : InputEventType
  x : UInt32
  y : UInt32
  keyCode : UInt16
  modifiers : Modifiers
  scrollDx : UInt32
  scrollDy : UInt32
  deriving DecidableEq

namespace InputEvent

def encode (e : InputEvent) : Except CodecError (List UInt8) :=
  let output := pushU16 (pushU32 (pushU32 [e.eventType.toByte] e.x) e.y) e.keyCode
  .ok (pushU32 (pushU32 (pushU16 output e.modifiers.bits) e.scrollDx) e.scrollDy)

def decoder : Decoder InputEvent := do
  let byte ← Decoder.u8 "input event type"
  let eventType ← (InputEventType.tryFrom byte : Except CodecError _)
  let x ← Decoder.f32 "input x"
  let y ← Decoder.f32 "input y"
  let keyCode ← Decoder.u16 "input key code"
  let modifiers ← Decoder.u16 "input modifiers"
  let scrollDx ← Decoder.f32 "input scroll dx"
  let scrollDy ← Decoder.f32 "input scroll dy"
  Decoder.finish "input event"
  return ⟨eventType, x, y, keyCode, ⟨modifiers⟩, scrollDx, scrollDy⟩

def decode (input : List UInt8) : Except CodecError InputEvent := decoder.run' input

end InputEvent
end MahoRD

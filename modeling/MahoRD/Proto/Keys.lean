/-
MahoRD/Proto/Keys.lean

Keys and modifiers of input events (`maho-proto/src/input.rs`).  A key code is Apple's, or
one of the extended ones from 0x100 on.  Floats are bit patterns.
-/
import MahoRD.Proto.Input
import Mathlib.Data.Finset.Sort
import Mathlib.Data.Nat.Bitwise

namespace MahoRD

namespace ExtendedKeys

def mediaPlayPause : UInt16 := 0x0100
def mediaNext : UInt16 := 0x0101
def mediaPrevious : UInt16 := 0x0102
def mediaStop : UInt16 := 0x0103
def browserBack : UInt16 := 0x0104
def browserForward : UInt16 := 0x0105
def browserRefresh : UInt16 := 0x0106
def browserStop : UInt16 := 0x0107
def browserSearch : UInt16 := 0x0108
def browserFavorites : UInt16 := 0x0109
def browserHome : UInt16 := 0x010a
def f21 : UInt16 := 0x010b
def f22 : UInt16 := 0x010c
def f23 : UInt16 := 0x010d
def f24 : UInt16 := 0x010e

end ExtendedKeys

namespace Modifiers

def shift : Modifiers := ⟨1⟩
def control : Modifiers := ⟨2⟩
def option : Modifiers := ⟨4⟩
def command : Modifiers := ⟨8⟩
def capsLock : Modifiers := ⟨16⟩

def contains (m other : Modifiers) : Bool := m.bits &&& other.bits == other.bits

instance : Max Modifiers := ⟨fun m other => ⟨m.bits ||| other.bits⟩⟩

/-- Bit `i` is set. -/
def Has (m : Modifiers) (i : ℕ) : Prop := m.bits.toNat.testBit i

@[simp] theorem not_has_empty (i : ℕ) : ¬ empty.Has i := by
  simp [Has, empty]

@[simp] theorem has_max (m other : Modifiers) (i : ℕ) :
    (m ⊔ other).Has i ↔ m.Has i ∨ other.Has i := by
  show (m.bits ||| other.bits).toNat.testBit i ↔ _
  simp [Has]

/-- The union of modifiers. -/
def union (ms : List Modifiers) : Modifiers := ms.foldl (· ⊔ ·) empty

theorem has_union (ms : List Modifiers) (i : ℕ) : (union ms).Has i ↔ ∃ m ∈ ms, m.Has i := by
  have hfold (acc : Modifiers) :
      (ms.foldl (· ⊔ ·) acc).Has i ↔ acc.Has i ∨ ∃ m ∈ ms, m.Has i := by
    induction ms generalizing acc with
    | nil => simp
    | cons m ms ih =>
      rw [List.foldl_cons, ih, has_max, or_assoc, List.exists_mem_cons_iff]
  rw [union, hfold]
  simp

end Modifiers

/-- `f32::is_finite`: the exponent is not all ones. -/
def isFinite (x : UInt32) : Bool := x &&& 0x7f800000 != 0x7f800000

/-- A floating-point field that is not finite makes an event one to ignore. -/
def InputEvent.isFinite (e : InputEvent) : Bool :=
  MahoRD.isFinite e.x && MahoRD.isFinite e.y && MahoRD.isFinite e.scrollDx &&
    MahoRD.isFinite e.scrollDy

def InputEvent.IsKeyboard (e : InputEvent) : Prop :=
  e.eventType ∈ [InputEventType.keyDown, .keyUp, .flagsChanged, .unicodeChar]

instance (e : InputEvent) : Decidable e.IsKeyboard :=
  inferInstanceAs (Decidable (_ ∈ _))

theorem InputEvent.IsKeyboard.ne_reset {e : InputEvent} (h : e.IsKeyboard) :
    e.eventType ≠ .reset := by
  rintro htype
  simp [IsKeyboard, htype] at h

/-- An order in which a set of key codes can be drained. -/
def ascending (codes : Finset UInt16) : List UInt16 := codes.sort (· ≤ ·)

@[simp] theorem mem_ascending {codes : Finset UInt16} {code : UInt16} :
    code ∈ ascending codes ↔ code ∈ codes := Finset.mem_sort _

theorem nodup_ascending (codes : Finset UInt16) : (ascending codes).Nodup :=
  Finset.sort_nodup codes _

def InputEvent.unicodeChar (codeUnit : UInt16) (x y : UInt32) : InputEvent :=
  ⟨.unicodeChar, x, y, codeUnit, Modifiers.empty, 0, 0⟩

end MahoRD

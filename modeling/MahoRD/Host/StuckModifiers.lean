/-
MahoRD/Host/StuckModifiers.lean

Both injectors leave no modifier key down that nothing holds, in calm runs.  A run that is
not calm is that of the right Shift key around a letter: the letter presses the left one
for the modifiers that it carries, and the release of the right one does not synchronize.
-/
import MahoRD.Host.LinuxInjector
import MahoRD.Host.WindowsInjector

namespace MahoRD.Host

open KeyCode Windows

/-- **No modifier is stuck** on a Linux or a Windows host, as long as no event leaves down what it
does not carry. -/
theorem no_stuck_modifier (linuxDrain : DrainOrder KeyCode)
    (windowsDrain : DrainOrder (UInt16 × Bool)) :
    ((∀ es, (Linux.backend linuxDrain).Calm es → (Linux.backend linuxDrain).Follows es) ∧
      ∀ es, (∀ e ∈ es, e.isFinite = true) →
        ((∀ before, before <+: es → (Linux.backend linuxDrain).Follows before) ↔
          (Linux.backend linuxDrain).Calm es)) ∧
    ((∀ es, (Windows.backend windowsDrain).Calm es → (Windows.backend windowsDrain).Follows es) ∧
      ∀ es, (∀ e ∈ es, e.isFinite = true) →
        ((∀ before, before <+: es → (Windows.backend windowsDrain).Follows before) ↔
          (Windows.backend windowsDrain).Calm es)) :=
  ⟨(Linux.lawful linuxDrain).follows, (Windows.lawful windowsDrain).follows⟩

/-- In the order of the table. -/
def linuxOrder : DrainOrder KeyCode where
  list s := (evdevKeys.map Prod.snd ++ [btnLeft, btnRight, btnMiddle]).filter (· ∈ s)
  mem_list {s k} := by
    have hk : k ∈ evdevKeys.map Prod.snd ++ [btnLeft, btnRight, btnMiddle] := by
      cases k <;> decide
    rw [List.mem_filter, decide_eq_true_iff]
    exact and_iff_right hk

def windowsOrder : DrainOrder (UInt16 × Bool) where
  list s := (ascending (s.image Prod.fst)).flatMap fun vk =>
    [(vk, false), (vk, true)].filter (· ∈ s)
  mem_list {s key} := by
    obtain ⟨vk, extended⟩ := key
    cases extended <;> simp +contextual [Finset.mem_image]

def keyEvent (eventType : InputEventType) (keyCode : UInt16) (modifiers : Modifiers) : InputEvent :=
  ⟨eventType, 0, 0, keyCode, modifiers, 0, 0⟩

/-- A letter with Shift, and Ctrl on the right in between. -/
def shiftedRun : List InputEvent :=
  [] ++ [keyEvent .keyDown 0 .shift] ++ [keyEvent .keyDown 62 .shift] ++
    [keyEvent .keyUp 0 .empty]

theorem no_stuck_modifier_shifted :
    (Linux.backend linuxOrder).Follows shiftedRun ∧
      (Windows.backend windowsOrder).Follows shiftedRun := by
  have hlinux : (Linux.backend linuxOrder).Calm shiftedRun := by
    refine Backend.Calm.concat_iff.mpr ⟨Backend.Calm.concat_iff.mpr
      ⟨Backend.Calm.concat_iff.mpr ⟨Backend.Calm.nil, ?_⟩, ?_⟩, ?_⟩
    · exact .of_carries rfl fun hsyncs => (hsyncs .shift rfl).elim
    · exact .of_carries rfl fun _ => by decide
    · exact .of_carries rfl fun hsyncs => (hsyncs .empty rfl).elim
  have hwindows : (Windows.backend windowsOrder).Calm shiftedRun := by
    refine Backend.Calm.concat_iff.mpr ⟨Backend.Calm.concat_iff.mpr
      ⟨Backend.Calm.concat_iff.mpr ⟨Backend.Calm.nil, ?_⟩, ?_⟩, ?_⟩
    · exact .of_carries rfl fun hsyncs => (hsyncs .shift rfl).elim
    · exact .of_carries rfl fun _ => by decide
    · exact .of_carries rfl fun hsyncs => (hsyncs .empty rfl).elim
  have hboth := no_stuck_modifier linuxOrder windowsOrder
  exact ⟨hboth.1.1 _ hlinux, hboth.2.1 _ hwindows⟩

/-- The right Shift key goes down, a letter is typed, and the right Shift key goes up. -/
def rightShiftRun : List InputEvent :=
  [keyEvent .keyDown 60 .shift, keyEvent .keyDown 0 .shift, keyEvent .keyUp 0 .shift,
    keyEvent .keyUp 60 .empty]

theorem left_shift_sticks :
    ¬ (Linux.backend linuxOrder).Follows rightShiftRun ∧
      ¬ (Windows.backend windowsOrder).Follows rightShiftRun := by
  constructor
  · intro h
    have hdown : (Linux.backend linuxOrder).Down rightShiftRun keyLeftshift := by
      decide
    exact absurd (h.modifiers keyLeftshift rfl hdown) (by decide)
  · intro h
    have hdown : (Windows.backend windowsOrder).Down rightShiftRun (.vk vkLshift) := by
      decide
    exact absurd (h.modifiers (.vk vkLshift) rfl hdown) (by decide)

end MahoRD.Host

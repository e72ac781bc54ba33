/-
MahoRD/Host/LinuxInjector.lean

The injector of a Linux host (`maho-host/src/inject_linux.rs`), as far as it presses and
releases keys and buttons: keys on its virtual keyboard, buttons on its virtual pointer.
Where the pointer goes, the wheel and the gamepads are left out, and so are the characters
that another program types.
-/
import MahoRD.Host.LinuxKeys
import MahoRD.Host.ModifierKeys
import MahoRD.Lib.Utf16

namespace MahoRD.Host.Linux

open Presses KeyCode

/-- `modifier_key`, for the modifiers that `modifier_events` goes through. -/
def modifierKeys : List (Modifiers × KeyCode) :=
  [(.shift, keyLeftshift), (.control, keyLeftctrl), (.option, keyLeftalt),
    (.command, keyLeftmeta), (.capsLock, keyCapslock)]

def modifierEvents (previous current : Modifiers) : List (KeyCode × Bool) :=
  modifierChanges modifierKeys previous current

structure LinuxInputInjector where
  modifiers : Modifiers
  heldKeys : Finset KeyCode
  pendingSurrogate : Option UInt16

inductive TextInputRoute
  | evdev (key : KeyCode) (needsShift : Bool)
  | unicode

def textInputRoute (ch : Char) : TextInputRoute :=
  match asciiToEvdev ch with
  | some (key, shift) => .evdev key shift
  | none => .unicode

/-- The button that a pointer event presses or releases. -/
def pointerButton : InputEventType → Option (KeyCode × Bool)
  | .leftMouseDown | .penDown => some (btnLeft, true)
  | .leftMouseUp | .penUp => some (btnLeft, false)
  | .rightMouseDown => some (btnRight, true)
  | .rightMouseUp => some (btnRight, false)
  | .middleMouseDown => some (btnMiddle, true)
  | .middleMouseUp => some (btnMiddle, false)
  | _ => none

namespace LinuxInputInjector

def new : LinuxInputInjector := ⟨.empty, ∅, none⟩

/-- What a `UnicodeChar` completes.  An unpaired low surrogate, which is an error, completes
nothing. -/
def route (s : LinuxInputInjector) (e : InputEvent) : Option TextInputRoute :=
  (Utf16.read s.pendingSurrogate e.keyCode).1.map textInputRoute

/-- A key, with Shift around it if the character needs it. -/
def typed : Option TextInputRoute → List (KeyCode × Bool)
  | some (.evdev key true) =>
    [(keyLeftshift, true), (key, true), (key, false), (keyLeftshift, false)]
  | some (.evdev key false) => [(key, true), (key, false)]
  | _ => []

/-- The keys and buttons that a reset releases, besides the held ones. -/
def resetKeys : List KeyCode :=
  [keyLeftshift, keyRightshift, keyLeftctrl, keyRightctrl, keyLeftalt, keyRightalt, keyLeftmeta,
    keyRightmeta, keyCapslock]

def hold (s : LinuxInputInjector) (key : KeyCode) (isDown : Bool) : Finset KeyCode :=
  if isDown then insert key s.heldKeys else s.heldKeys.erase key

def inject (drain : DrainOrder KeyCode) (s : LinuxInputInjector) (e : InputEvent) :
    LinuxInputInjector × List (KeyCode × Bool) :=
  if !e.isFinite then (s, [])
  else
    match e.eventType with
    | .reset =>
      (.new, ([btnLeft, btnRight, btnMiddle] ++ drain.list s.heldKeys ++ resetKeys).map
        fun key => (key, false))
    | .keyDown | .keyUp =>
      let isDown : Bool := e.eventType = .keyDown
      match macosKeycodeToEvdev e.keyCode with
      | some key =>
        let heldKeys := s.hold key isDown
        if key.isModKey then ({ s with heldKeys }, [(key, isDown)])
        else
          ({ s with heldKeys, modifiers := e.modifiers },
            modifierEvents s.modifiers e.modifiers ++ [(key, isDown)])
      | none => (s, [])
    | .flagsChanged =>
      ({ s with modifiers := e.modifiers }, modifierEvents s.modifiers e.modifiers)
    | .unicodeChar =>
      ({ s with pendingSurrogate := (Utf16.read s.pendingSurrogate e.keyCode).2 },
        typed (s.route e))
    | eventType => (s, (pointerButton eventType).toList)

end LinuxInputInjector

def layout : Layout KeyCode where
  keyOf := macosKeycodeToEvdev
  isModKey := KeyCode.isModKey
  left := modifierKeys
  isModKey_left := by decide
  nodup_left := by decide
  not_contains_empty := by decide

/-- What a reset releases. -/
def Held (heldKeys : Finset KeyCode) (k : KeyCode) : Prop :=
  k ∈ heldKeys ∨ k ∈ LinuxInputInjector.resetKeys ∨ k ∈ [btnLeft, btnRight, btnMiddle]

def backend (drain : DrainOrder KeyCode) : Backend LinuxInputInjector (KeyCode × Bool) KeyCode where
  layout := layout
  effect := pressEffect
  new := .new
  modifiers s := s.modifiers
  held s := Held s.heldKeys
  tapped s e :=
    match s.route e with
    | some (.evdev _ true) => some keyLeftshift
    | _ => none
  inject := LinuxInputInjector.inject drain

/-! ### The reports -/

theorem isModKey_iff {k : KeyCode} : k.isModKey = true ↔ k ∈ LinuxInputInjector.resetKeys := by
  cases k <;> decide

theorem last_typed {s : LinuxInputInjector} {e : InputEvent} {k : KeyCode}
    (hmod : k.isModKey = true) :
    last pressEffect (LinuxInputInjector.typed (s.route e)) k =
      match s.route e with
      | some (.evdev _ true) => pressEffect (keyLeftshift, false) k
      | _ => none := by
  have hkey {key : KeyCode} {shift down : Bool} (hroute : s.route e = some (.evdev key shift)) :
      pressEffect (key, down) k = none := by
    obtain ⟨ch, -, hch⟩ := Option.map_eq_some_iff.mp hroute
    refine if_neg fun heq => ?_
    rw [textInputRoute] at hch
    split at hch
    next hascii =>
      cases hch
      rw [← heq, isModKey_of_asciiToEvdev hascii] at hmod
      cases hmod
    · cases hch
  rcases hroute : s.route e with - | ⟨key, shift⟩ | -
  · rfl
  · cases shift with
    | true =>
      simp only [LinuxInputInjector.typed, last_cons, last_nil, hkey hroute]
      rw [pressEffect]
      split <;> simp [pressEffect, *]
    | false => simp only [LinuxInputInjector.typed, last_cons, last_nil, hkey hroute, Option.or_self]
  · rfl

theorem pointerButton_mem {t : InputEventType} {p : KeyCode × Bool}
    (h : pointerButton t = some p) : p.1 ∈ [btnLeft, btnRight, btnMiddle] := by
  cases t <;> cases h <;> decide

namespace LinuxInputInjector

variable (drain : DrainOrder KeyCode) (s : LinuxInputInjector) (e : InputEvent)

/-- What an event is handled as, next to its report. -/
inductive Handled : LinuxInputInjector × List (KeyCode × Bool) → Report KeyCode → Prop
  | ignored (hfinite : e.isFinite = false) : Handled (s, []) .passes
  | reset (htype : e.eventType = .reset) (hfinite : e.isFinite = true) :
      Handled (.new, ([btnLeft, btnRight, btnMiddle] ++ drain.list s.heldKeys ++ resetKeys).map
        fun key => (key, false)) .resets
  | modKey (key : KeyCode) (down : Bool) (hreset : e.eventType ≠ .reset) :
      Handled ({ s with heldKeys := s.hold key down }, [(key, down)]) (.key key down)
  | key {key : KeyCode} (down : Bool) (hmod : key.isModKey = false)
      (hreset : e.eventType ≠ .reset) :
      Handled ({ s with heldKeys := s.hold key down, modifiers := e.modifiers },
        modifierEvents s.modifiers e.modifiers ++ [(key, down)]) (.syncs e.modifiers)
  | flagsChanged (hreset : e.eventType ≠ .reset) :
      Handled ({ s with modifiers := e.modifiers }, modifierEvents s.modifiers e.modifiers)
        (.syncs e.modifiers)
  | unicodeChar (pendingSurrogate : Option UInt16) (hreset : e.eventType ≠ .reset) :
      Handled ({ s with pendingSurrogate }, typed (s.route e))
        (match s.route e with
        | some (.evdev _ true) => .taps keyLeftshift
        | _ => .passes)
  | passes {buttons : List (KeyCode × Bool)}
      (hbuttons : ∀ p ∈ buttons, p.1 ∈ [btnLeft, btnRight, btnMiddle])
      (hreset : e.eventType ≠ .reset) : Handled (s, buttons) .passes

theorem handled_key (down : Bool) (hfinite : e.isFinite = true)
    (htype : e.eventType = if down then .keyDown else .keyUp) :
    Handled drain s e (inject drain s e) ((backend drain).report s e) := by
  have hreset : e.eventType ≠ .reset := by
    cases down <;> simp [htype]
  cases hkey : macosKeycodeToEvdev e.keyCode with
  | none =>
    have hinject : inject drain s e = (s, []) := by
      cases down <;> simp [inject, hfinite, htype, hkey]
    have hreport : (backend drain).report s e = .passes := by
      cases down <;> simp [Backend.report, Layout.report, backend, layout, hfinite, htype, hkey]
    rw [hinject, hreport]
    exact .passes (fun p hp => (List.not_mem_nil hp).elim) hreset
  | some key =>
    cases hmod : key.isModKey with
    | true =>
      have hinject : inject drain s e =
          ({ s with heldKeys := s.hold key down }, [(key, down)]) := by
        cases down <;> simp [inject, hfinite, htype, hkey, hmod]
      have hreport : (backend drain).report s e = .key key down := by
        cases down <;>
          simp [Backend.report, Layout.report, backend, layout, hfinite, htype, hkey, hmod]
      rw [hinject, hreport]
      exact .modKey key down hreset
    | false =>
      have hinject : inject drain s e =
          ({ s with heldKeys := s.hold key down, modifiers := e.modifiers },
            modifierEvents s.modifiers e.modifiers ++ [(key, down)]) := by
        cases down <;> simp [inject, hfinite, htype, hkey, hmod]
      have hreport : (backend drain).report s e = .syncs e.modifiers := by
        cases down <;>
          simp [Backend.report, Layout.report, backend, layout, hfinite, htype, hkey, hmod]
      rw [hinject, hreport]
      exact .key down hmod hreset

theorem handled : Handled drain s e (inject drain s e) ((backend drain).report s e) := by
  cases hfinite : e.isFinite with
  | false =>
    simp only [inject, Backend.report, Layout.report, hfinite, Bool.not_false, if_true]
    exact .ignored hfinite
  | true =>
    cases htype : e.eventType with
    | keyDown => exact handled_key drain s e true hfinite htype
    | keyUp => exact handled_key drain s e false hfinite htype
    | reset =>
      simp only [inject, Backend.report, Layout.report, hfinite, htype, Bool.not_true,
        Bool.false_eq_true, if_false]
      exact .reset htype hfinite
    | flagsChanged =>
      simp only [inject, Backend.report, Layout.report, hfinite, htype, Bool.not_true,
        Bool.false_eq_true, if_false]
      exact .flagsChanged (by simp [htype])
    | unicodeChar =>
      have hreport : (backend drain).report s e =
          match s.route e with
          | some (.evdev _ true) => .taps keyLeftshift
          | _ => .passes := by
        simp only [Backend.report, Layout.report, hfinite, htype, backend]
        rcases s.route e with - | ⟨key, - | -⟩ | - <;> rfl
      simp only [inject, hreport, hfinite, htype, Bool.not_true, Bool.false_eq_true, if_false]
      exact .unicodeChar _ (by simp [htype])
    | _ =>
      simp only [inject, Backend.report, Layout.report, hfinite, htype, Bool.not_true,
        Bool.false_eq_true, if_false]
      refine .passes (fun p hp => ?_) (by simp [htype])
      exact pointerButton_mem (Option.mem_toList.mp hp)

end LinuxInputInjector

/-! ### What a reset releases -/

theorem covers_hold (s : LinuxInputInjector) (key : KeyCode) (down : Bool) :
    Covers pressEffect [(key, down)] (Held s.heldKeys) (Held (s.hold key down)) := by
  constructor
  · intro k hdown
    rw [Down, last_singleton] at hdown
    cases pressEffect_eq_some hdown
    exact .inl (Finset.mem_insert_self _ _)
  · intro k hnone hk
    rw [last_singleton, pressEffect] at hnone
    split at hnone
    · cases hnone
    next hne =>
      refine hk.imp_left fun hk => ?_
      rw [LinuxInputInjector.hold]
      split
      · exact Finset.mem_insert_of_mem hk
      · exact Finset.mem_erase_of_ne_of_mem (Ne.symm hne) hk

theorem covers_modifierEvents (previous current : Modifiers) (heldKeys : Finset KeyCode) :
    Covers pressEffect (modifierEvents previous current) (Held heldKeys) (Held heldKeys) := by
  have hkeys : ∀ p ∈ modifierKeys, p.2 ∈ LinuxInputInjector.resetKeys := by decide
  refine ⟨fun k hdown => ?_, fun k _ hk => hk⟩
  obtain ⟨change, hchange, hpress⟩ := hdown.exists_press
  obtain ⟨p, hp, heq⟩ := List.mem_filterMap.mp hchange
  split at heq
  · rw [← Option.some.inj heq] at hpress
    have hk : p.2 = k := congrArg Prod.fst (pressEffect_eq_some hpress)
    rw [← hk]
    exact .inr (.inl (hkeys p hp))
  · cases heq

theorem balanced_typed (route : Option TextInputRoute) :
    Balanced pressEffect (LinuxInputInjector.typed route) := by
  have hpair (key : KeyCode) : Balanced pressEffect [(key, true), (key, false)] := by
    refine .pair (fun k h => ?_) fun k h => ?_
    · cases pressEffect_eq_some h
    · cases pressEffect_eq_some h
      exact if_pos rfl
  rcases route with - | ⟨key, shift⟩ | -
  · exact .nil
  · cases shift with
    | true =>
      intro k hdown
      rw [LinuxInputInjector.typed, Down, last_cons, last_cons, last_cons, last_singleton] at hdown
      simp only [pressEffect] at hdown
      split at hdown <;> split at hdown <;> simp_all
    | false => exact hpair key
  · exact .nil

namespace LinuxInputInjector

variable {drain : DrainOrder KeyCode} {s : LinuxInputInjector} {e : InputEvent}
  {st : LinuxInputInjector × List (KeyCode × Bool)} {r : Report KeyCode}

theorem Handled.modifiers_eq (h : Handled drain s e st r) :
    st.1.modifiers = r.modifiers s.modifiers := by
  cases h with
  | ignored | reset | modKey | key | flagsChanged | passes => rfl
  | unicodeChar => rcases s.route e with - | ⟨key, - | -⟩ | - <;> rfl

theorem last_reset {k : KeyCode} (hk : Held s.heldKeys k) :
    last pressEffect (([btnLeft, btnRight, btnMiddle] ++ drain.list s.heldKeys ++ resetKeys).map
      fun key => (key, false)) k = some false := by
  refine last_eq_some_false (fun p hp hpress => ?_) ⟨(k, false), List.mem_map.mpr ⟨k, ?_, rfl⟩, ?_⟩
  · obtain ⟨key, -, rfl⟩ := List.mem_map.mp hp
    cases pressEffect_eq_some hpress
  · rcases hk with hk | hk | hk
    · exact List.mem_append_left _ (List.mem_append_right _ (drain.mem_list.mpr hk))
    · exact List.mem_append_right _ hk
    · exact List.mem_append_left _ (List.mem_append_left _ hk)
  · exact if_pos rfl

theorem Handled.last_eq (h : Handled drain s e st r) {k : KeyCode} (hmod : k.isModKey = true)
    (hreset : e.eventType = .reset → e.isFinite = false) :
    last pressEffect st.2 k = r.effect layout s.modifiers k := by
  have hk : k ∈ resetKeys := isModKey_iff.mp hmod
  cases h with
  | ignored | flagsChanged => rfl
  | reset htype hfinite => cases (hreset htype).symm.trans hfinite
  | modKey => exact last_singleton _ _
  | @key key down hkey =>
    have hne : key ≠ k := by
      rintro rfl
      exact Bool.false_ne_true (hkey.symm.trans hmod)
    rw [last_append, last_singleton, pressEffect, if_neg hne, Option.none_or]
    rfl
  | unicodeChar =>
    rw [last_typed hmod]
    rcases s.route e with - | ⟨key, - | -⟩ | - <;> rfl
  | passes hbuttons =>
    refine last_eq_none_iff.mpr fun p hp => if_neg fun heq => ?_
    have hbutton := hbuttons p hp
    rw [heq] at hbutton
    revert hk hbutton
    cases k <;> decide

theorem Handled.covers (h : Handled drain s e st r) :
    Covers pressEffect st.2 (Held s.heldKeys) (Held st.1.heldKeys) := by
  cases h with
  | ignored => exact .of_balanced .nil
  | reset =>
    refine ⟨fun k hdown => ?_, fun k hnone hk => ?_⟩
    · obtain ⟨p, hp, hpress⟩ := hdown.exists_press
      obtain ⟨key, -, rfl⟩ := List.mem_map.mp hp
      cases pressEffect_eq_some hpress
    · cases hnone.symm.trans (last_reset hk)
  | modKey key down => exact covers_hold s key down
  | key down => exact (covers_modifierEvents _ _ _).trans (covers_hold s _ down)
  | flagsChanged => exact covers_modifierEvents _ _ _
  | unicodeChar => exact .of_balanced (balanced_typed _)
  | passes hbuttons =>
    refine ⟨fun k hdown => ?_, fun k _ hk => hk⟩
    obtain ⟨p, hp, hpress⟩ := hdown.exists_press
    cases pressEffect_eq_some hpress
    exact .inr (.inr (hbuttons _ hp))

end LinuxInputInjector

theorem lawful (drain : DrainOrder KeyCode) : (backend drain).Lawful where
  new := rfl
  modifiers s e := (LinuxInputInjector.handled drain s e).modifiers_eq
  effect s e k hmod hreset := (LinuxInputInjector.handled drain s e).last_eq hmod hreset
  covers s e := (LinuxInputInjector.handled drain s e).covers
  ignored s e hfinite := by
    simp only [backend, LinuxInputInjector.inject, hfinite, Bool.not_false, if_true]
  reset s e htype hfinite k := by
    have heq : (LinuxInputInjector.inject drain s e).2 = ([btnLeft, btnRight, btnMiddle] ++
        drain.list s.heldKeys ++ LinuxInputInjector.resetKeys).map fun key => (key, false) := by
      simp only [LinuxInputInjector.inject, hfinite, htype, Bool.not_true, Bool.false_eq_true,
        if_false]
    show last pressEffect (LinuxInputInjector.inject drain s e).2 k ≠ _ ∧ (Held s.heldKeys k → _)
    refine ⟨fun hdown => ?_, fun hk => ?_⟩
    · rw [heq] at hdown
      obtain ⟨p, hp, hpress⟩ := Down.exists_press hdown
      obtain ⟨key, -, rfl⟩ := List.mem_map.mp hp
      cases pressEffect_eq_some hpress
    · exact (congrArg (last pressEffect · k) heq).trans (LinuxInputInjector.last_reset hk)

end MahoRD.Host.Linux

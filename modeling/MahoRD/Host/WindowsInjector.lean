/-
MahoRD/Host/WindowsInjector.lean

The injector of a Windows host (`maho-host/src/inject_windows.rs`), as far as it presses and
releases keys and buttons.  Where the pointer goes, the wheel and the gamepads are left
out, and so is the record of the buttons, which only the end of the injector reads.
-/
import MahoRD.Host.ModifierKeys
import MahoRD.Host.WindowsKeys

namespace MahoRD.Host.Windows

open Presses

inductive MouseButton
  | left | right | middle
  deriving DecidableEq

/-- What can be down: a virtual key, a character, a button. -/
inductive WindowsKey
  | vk (code : UInt16)
  | unit (codeUnit : UInt16)
  | button (button : MouseButton)
  deriving DecidableEq

/-- `INPUT`, with the buttons that a mouse input presses or releases. -/
inductive Input
  | key (vk : UInt16) (extended keyUp : Bool)
  | unicode (unit : UInt16) (keyUp : Bool)
  | mouse (buttons : List (MouseButton × Bool))

/-- A virtual key is the same key whether it is extended or not. -/
def Input.effect : Input → WindowsKey → Option Bool
  | key vk _ keyUp, k => pressEffect (.vk vk, !keyUp) k
  | unicode unit keyUp, k => pressEffect (.unit unit, !keyUp) k
  | mouse buttons, .button b => buttons.lookup b
  | mouse _, _ => none

def vkLshift : UInt16 := 0xA0
def vkRshift : UInt16 := 0xA1
def vkLcontrol : UInt16 := 0xA2
def vkRcontrol : UInt16 := 0xA3
def vkLmenu : UInt16 := 0xA4
def vkRmenu : UInt16 := 0xA5
def vkLwin : UInt16 := 0x5B
def vkRwin : UInt16 := 0x5C
def vkCapital : UInt16 := 0x14

/-- `is_mod_key`. -/
def isModKey (vk : UInt16) : Bool :=
  vk ∈ [vkLshift, vkLcontrol, vkLmenu, vkLwin, vkRshift, vkRcontrol, vkRmenu, vkRwin, vkCapital]

def keyInput (vk : UInt16) (keyUp : Bool) : Input := .key vk (vkIsExtended vk) keyUp

def modifierKeys : List (Modifiers × UInt16) :=
  [(.shift, vkLshift), (.control, vkLcontrol), (.option, vkLmenu), (.command, vkLwin)]

def modifierInputs (previous current : Modifiers) : List Input :=
  (modifierChanges modifierKeys previous current).map fun (vk, down) => keyInput vk (!down)

structure WindowsInputInjector where
  modifiers : Modifiers
  /-- Ordinary keys, and whether they are extended. -/
  activeKeys : Finset (UInt16 × Bool)

/-- The button that a pointer event presses or releases. -/
def pointerButton : InputEventType → Option (MouseButton × Bool)
  | .leftMouseDown | .penDown => some (.left, true)
  | .leftMouseUp | .penUp => some (.left, false)
  | .rightMouseDown => some (.right, true)
  | .rightMouseUp => some (.right, false)
  | .middleMouseDown => some (.middle, true)
  | .middleMouseUp => some (.middle, false)
  | _ => none

namespace WindowsInputInjector

def new : WindowsInputInjector := ⟨.empty, ∅⟩

def activate (s : WindowsInputInjector) (key : UInt16 × Bool) (isUp : Bool) :
    Finset (UInt16 × Bool) :=
  if isUp then s.activeKeys.erase key else insert key s.activeKeys

/-- The keys that a reset releases. -/
def released (s : WindowsInputInjector) : Finset (UInt16 × Bool) :=
  s.activeKeys ∪
    ([vkLshift, vkLcontrol, vkLmenu, vkLwin].map fun vk => (vk, vkIsExtended vk)).toFinset

def inject (drain : DrainOrder (UInt16 × Bool)) (s : WindowsInputInjector) (e : InputEvent) :
    WindowsInputInjector × List Input :=
  if !e.isFinite then (s, [])
  else
    match e.eventType with
    | .reset =>
      (.new, Input.mouse [(.left, false), (.right, false), (.middle, false)] ::
        (drain.list s.released).map fun (vk, extended) => Input.key vk extended true)
    | .keyDown | .keyUp =>
      let isUp : Bool := e.eventType = .keyUp
      match macosKeycodeToWindowsKey e.keyCode with
      | some (vk, extended) =>
        let activeKeys := s.activate (vk, extended) isUp
        if isModKey vk then ({ s with activeKeys }, [.key vk extended isUp])
        else
          ({ s with activeKeys, modifiers := e.modifiers },
            modifierInputs s.modifiers e.modifiers ++ [Input.key vk extended isUp])
      | none => (s, [])
    | .flagsChanged =>
      ({ s with modifiers := e.modifiers }, modifierInputs s.modifiers e.modifiers)
    | .unicodeChar => (s, [.unicode e.keyCode false, .unicode e.keyCode true])
    | eventType => (s, (pointerButton eventType).toList.map fun button => .mouse [button])

end WindowsInputInjector

def layout : Layout WindowsKey where
  keyOf keyCode := (macosKeycodeToWindowsKey keyCode).map fun key => .vk key.1
  isModKey
    | .vk vk => isModKey vk
    | _ => false
  left := modifierKeys.map (Prod.map id .vk)
  isModKey_left := by decide
  nodup_left := by decide
  not_contains_empty := by decide

/-- What a reset releases. -/
def Held (activeKeys : Finset (UInt16 × Bool)) : WindowsKey → Prop
  | .vk vk => (∃ extended, (vk, extended) ∈ activeKeys) ∨ vk ∈ modifierKeys.map Prod.snd
  | .unit _ => False
  | .button _ => True

def backend (drain : DrainOrder (UInt16 × Bool)) :
    Backend WindowsInputInjector Input WindowsKey where
  layout := layout
  effect := Input.effect
  new := .new
  modifiers s := s.modifiers
  held s := Held s.activeKeys
  tapped _ _ := none
  inject := WindowsInputInjector.inject drain

/-! ### The reports -/

theorem last_modifierInputs (previous current : Modifiers) (k : WindowsKey) :
    last Input.effect (modifierInputs previous current) k =
      last pressEffect (modifierChanges layout.left previous current) k := by
  have hchanges : modifierChanges layout.left previous current =
      (modifierChanges modifierKeys previous current).map (Prod.map .vk id) := by
    rw [modifierChanges, modifierChanges, List.map_filterMap, layout, List.filterMap_map]
    refine List.filterMap_congr fun p _ => ?_
    simp only [Function.comp, Prod.map_fst, Prod.map_snd, id]
    split <;> rfl
  rw [hchanges, modifierInputs, last, last, List.filterMap_map, List.filterMap_map]
  refine congrArg _ (List.filterMap_congr fun p _ => ?_)
  simp only [Function.comp, keyInput, Input.effect, Bool.not_not, Prod.map, id]

namespace WindowsInputInjector

variable (drain : DrainOrder (UInt16 × Bool)) (s : WindowsInputInjector) (e : InputEvent)

/-- What an event is handled as, next to its report. -/
inductive Handled : WindowsInputInjector × List Input → Report WindowsKey → Prop
  | ignored (hfinite : e.isFinite = false) : Handled (s, []) .passes
  | reset (htype : e.eventType = .reset) (hfinite : e.isFinite = true) :
      Handled (.new, Input.mouse [(.left, false), (.right, false), (.middle, false)] ::
        (drain.list s.released).map fun (vk, extended) => Input.key vk extended true) .resets
  | modKey (key : UInt16 × Bool) (down : Bool) :
      Handled ({ s with activeKeys := s.activate key !down }, [.key key.1 key.2 !down])
        (.key (.vk key.1) down)
  | key {key : UInt16 × Bool} (down : Bool) (hmod : isModKey key.1 = false) :
      Handled ({ s with activeKeys := s.activate key !down, modifiers := e.modifiers },
        modifierInputs s.modifiers e.modifiers ++ [Input.key key.1 key.2 !down])
        (.syncs e.modifiers)
  | flagsChanged :
      Handled ({ s with modifiers := e.modifiers }, modifierInputs s.modifiers e.modifiers)
        (.syncs e.modifiers)
  | unicodeChar : Handled (s, [.unicode e.keyCode false, .unicode e.keyCode true]) .passes
  | passes (buttons : List (MouseButton × Bool)) :
      Handled (s, buttons.map fun button => .mouse [button]) .passes

theorem handled_key (down : Bool) (hfinite : e.isFinite = true)
    (htype : e.eventType = if down then .keyDown else .keyUp) :
    Handled drain s e (inject drain s e) ((backend drain).report s e) := by
  cases hkey : macosKeycodeToWindowsKey e.keyCode with
  | none =>
    have hinject : inject drain s e = (s, []) := by
      cases down <;> simp [inject, hfinite, htype, hkey]
    have hreport : (backend drain).report s e = .passes := by
      cases down <;> simp [Backend.report, Layout.report, backend, layout, hfinite, htype, hkey]
    rw [hinject, hreport]
    exact .passes []
  | some key =>
    cases hmod : isModKey key.1 with
    | true =>
      have hinject : inject drain s e =
          ({ s with activeKeys := s.activate key !down }, [.key key.1 key.2 !down]) := by
        cases down <;> simp [inject, hfinite, htype, hkey, hmod]
      have hreport : (backend drain).report s e = .key (.vk key.1) down := by
        cases down <;>
          simp [Backend.report, Layout.report, backend, layout, hfinite, htype, hkey, hmod]
      rw [hinject, hreport]
      exact .modKey key down
    | false =>
      have hinject : inject drain s e =
          ({ s with activeKeys := s.activate key !down, modifiers := e.modifiers },
            modifierInputs s.modifiers e.modifiers ++ [Input.key key.1 key.2 !down]) := by
        cases down <;> simp [inject, hfinite, htype, hkey, hmod]
      have hreport : (backend drain).report s e = .syncs e.modifiers := by
        cases down <;>
          simp [Backend.report, Layout.report, backend, layout, hfinite, htype, hkey, hmod]
      rw [hinject, hreport]
      exact .key down hmod

theorem handled : Handled drain s e (inject drain s e) ((backend drain).report s e) := by
  cases hfinite : e.isFinite with
  | false =>
    simp only [inject, Backend.report, Layout.report, hfinite, Bool.not_false, if_true]
    exact .ignored hfinite
  | true =>
    cases htype : e.eventType with
    | keyDown => exact handled_key drain s e true hfinite htype
    | keyUp => exact handled_key drain s e false hfinite htype
    | reset =>
      simp only [inject, Backend.report, Layout.report, hfinite, htype, Bool.not_true,
        Bool.false_eq_true, if_false]
      exact .reset htype hfinite
    | flagsChanged =>
      simp only [inject, Backend.report, Layout.report, hfinite, htype, Bool.not_true,
        Bool.false_eq_true, if_false]
      exact .flagsChanged
    | unicodeChar =>
      simp only [inject, Backend.report, Layout.report, backend, hfinite, htype, Bool.not_true,
        Bool.false_eq_true, if_false]
      exact .unicodeChar
    | _ =>
      simp only [inject, Backend.report, Layout.report, hfinite, htype, Bool.not_true,
        Bool.false_eq_true, if_false]
      exact .passes _

end WindowsInputInjector

/-! ### What a reset releases -/

theorem covers_activate (s : WindowsInputInjector) (key : UInt16 × Bool) (down : Bool) :
    Covers Input.effect [.key key.1 key.2 !down] (Held s.activeKeys)
      (Held (s.activate key !down)) := by
  constructor
  · intro k hdown
    rw [Down, last_singleton, Input.effect, Bool.not_not] at hdown
    cases pressEffect_eq_some hdown
    exact .inl ⟨key.2, Finset.mem_insert_self _ _⟩
  · intro k hnone hk
    rw [last_singleton, Input.effect, pressEffect] at hnone
    split at hnone
    · cases hnone
    next hne =>
      cases k with
      | vk vk =>
        refine hk.imp_left ?_
        rintro ⟨extended, hmem⟩
        refine ⟨extended, ?_⟩
        rw [WindowsInputInjector.activate]
        split
        · refine Finset.mem_erase_of_ne_of_mem (fun heq => hne ?_) hmem
          rw [← heq]
        · exact Finset.mem_insert_of_mem hmem
      | unit => exact hk
      | button => exact hk

theorem covers_modifierInputs (previous current : Modifiers)
    (activeKeys : Finset (UInt16 × Bool)) :
    Covers Input.effect (modifierInputs previous current) (Held activeKeys) (Held activeKeys) := by
  refine ⟨fun k hdown => ?_, fun k _ hk => hk⟩
  rw [Down, last_modifierInputs] at hdown
  obtain ⟨change, hchange, hpress⟩ := Down.exists_press hdown
  obtain ⟨p, hp, heq⟩ := List.mem_filterMap.mp hchange
  split at heq
  · rw [← Option.some.inj heq] at hpress
    have hk : p.2 = k := congrArg Prod.fst (pressEffect_eq_some hpress)
    obtain ⟨q, hq, rfl⟩ := List.mem_map.mp hp
    rw [← hk]
    exact .inr (List.mem_map_of_mem hq)
  · cases heq

namespace WindowsInputInjector

variable {drain : DrainOrder (UInt16 × Bool)} {s : WindowsInputInjector} {e : InputEvent}
  {st : WindowsInputInjector × List Input} {r : Report WindowsKey}

theorem Handled.modifiers_eq (h : Handled drain s e st r) :
    st.1.modifiers = r.modifiers s.modifiers := by
  cases h <;> rfl

theorem Handled.last_eq (h : Handled drain s e st r) {k : WindowsKey}
    (hmod : layout.isModKey k = true) (hreset : e.eventType = .reset → e.isFinite = false) :
    last Input.effect st.2 k = r.effect layout s.modifiers k := by
  obtain ⟨vk, rfl⟩ : ∃ vk, k = .vk vk := by
    cases k with
    | vk vk => exact ⟨vk, rfl⟩
    | unit => cases hmod
    | button => cases hmod
  cases h with
  | ignored => rfl
  | reset htype hfinite => cases (hreset htype).symm.trans hfinite
  | modKey key down =>
    rw [last_singleton, Input.effect, Bool.not_not]
    rfl
  | @key key down hkey =>
    have hne : WindowsKey.vk key.1 ≠ .vk vk := by
      intro heq
      cases heq
      exact Bool.false_ne_true (hkey.symm.trans hmod)
    rw [last_append, last_singleton, Input.effect, pressEffect, if_neg hne, Option.none_or]
    exact last_modifierInputs _ _ _
  | flagsChanged => exact last_modifierInputs _ _ _
  | unicodeChar => rfl
  | passes buttons =>
    refine last_eq_none_iff.mpr fun input hinput => ?_
    obtain ⟨button, -, rfl⟩ := List.mem_map.mp hinput
    rfl

theorem reset_releases {input : Input}
    (h : input ∈ Input.mouse [(.left, false), (.right, false), (.middle, false)] ::
      (drain.list s.released).map fun (vk, extended) => Input.key vk extended true)
    (k : WindowsKey) : input.effect k ≠ some true := by
  intro hpress
  rcases List.mem_cons.mp h with rfl | h
  · cases k with
    | vk => cases hpress
    | unit => cases hpress
    | button button => cases button <;> cases hpress
  · obtain ⟨key, -, rfl⟩ := List.mem_map.mp h
    cases pressEffect_eq_some (p := (WindowsKey.vk key.1, false)) hpress

theorem last_reset {k : WindowsKey} (hk : Held s.activeKeys k) :
    last Input.effect (Input.mouse [(.left, false), (.right, false), (.middle, false)] ::
      (drain.list s.released).map fun (vk, extended) => Input.key vk extended true) k =
        some false := by
  refine last_eq_some_false (fun input hinput => reset_releases hinput k) ?_
  cases k with
  | vk vk =>
    obtain ⟨extended, hmem⟩ : ∃ extended, (vk, extended) ∈ s.released := by
      rcases hk with ⟨extended, hmem⟩ | hmem
      · exact ⟨extended, Finset.mem_union_left _ hmem⟩
      · refine ⟨vkIsExtended vk, Finset.mem_union_right _ (List.mem_toFinset.mpr ?_)⟩
        exact List.mem_map_of_mem hmem
    refine ⟨.key vk extended true, List.mem_cons_of_mem _ (List.mem_map.mpr ?_), if_pos rfl⟩
    exact ⟨(vk, extended), drain.mem_list.mpr hmem, rfl⟩
  | unit => exact hk.elim
  | button button => exact ⟨_, .head _, by cases button <;> rfl⟩

theorem Handled.covers (h : Handled drain s e st r) :
    Covers Input.effect st.2 (Held s.activeKeys) (Held st.1.activeKeys) := by
  cases h with
  | ignored => exact .of_balanced .nil
  | reset =>
    refine ⟨fun k hdown => ?_, fun k hnone hk => ?_⟩
    · obtain ⟨input, hinput, hpress⟩ := hdown.exists_press
      exact (reset_releases hinput k hpress).elim
    · cases hnone.symm.trans (last_reset hk)
  | modKey key down => exact covers_activate s key down
  | key down => exact (covers_modifierInputs _ _ _).trans (covers_activate s _ down)
  | flagsChanged => exact covers_modifierInputs _ _ _
  | unicodeChar =>
    refine .of_balanced (.pair (fun k hpress => ?_) fun k hpress => ?_)
    · cases pressEffect_eq_some hpress
    · cases pressEffect_eq_some hpress
      exact if_pos rfl
  | passes buttons =>
    refine ⟨fun k hdown => ?_, fun k _ hk => hk⟩
    obtain ⟨input, hinput, hpress⟩ := hdown.exists_press
    obtain ⟨button, -, rfl⟩ := List.mem_map.mp hinput
    cases k with
    | vk => cases hpress
    | unit => cases hpress
    | button => trivial

end WindowsInputInjector

theorem lawful (drain : DrainOrder (UInt16 × Bool)) : (backend drain).Lawful where
  new := rfl
  modifiers s e := (WindowsInputInjector.handled drain s e).modifiers_eq
  effect s e k hmod hreset := (WindowsInputInjector.handled drain s e).last_eq hmod hreset
  covers s e := (WindowsInputInjector.handled drain s e).covers
  ignored s e hfinite := by
    simp only [backend, WindowsInputInjector.inject, hfinite, Bool.not_false, if_true]
  reset s e htype hfinite k := by
    have heq : (WindowsInputInjector.inject drain s e).2 =
        Input.mouse [(.left, false), (.right, false), (.middle, false)] ::
          (drain.list s.released).map fun (vk, extended) => Input.key vk extended true := by
      simp only [WindowsInputInjector.inject, hfinite, htype, Bool.not_true, Bool.false_eq_true,
        if_false]
    show last Input.effect (WindowsInputInjector.inject drain s e).2 k ≠ _ ∧
      (Held s.activeKeys k → _)
    refine ⟨fun hdown => ?_, fun hk => ?_⟩
    · rw [heq] at hdown
      obtain ⟨input, hinput, hpress⟩ := Down.exists_press hdown
      exact WindowsInputInjector.reset_releases hinput k hpress
    · exact (congrArg (last Input.effect · k) heq).trans (WindowsInputInjector.last_reset hk)

end MahoRD.Host.Windows

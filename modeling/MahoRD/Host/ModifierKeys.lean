/-
MahoRD/Host/ModifierKeys.lean

Modifier keys on the keyboard of a host, whatever its platform.  The modifiers of an event
reach the device by three ways: the events of ordinary keys carry them (they are
synchronized: the left keys of what has changed are pressed and released), the modifier
keys have events of their own, and a typed character may have a modifier key wrapped around
it.  Only the first way updates what the backend remembers.

`Report` says what an event is to the modifier keys, and a backend is lawful if its device
follows the reports.
-/
import MahoRD.Lib.Presses
import MahoRD.Proto.Keys

namespace MahoRD.Host

open Presses

/-- The order in which the elements of a set are drained. -/
structure DrainOrder (α : Type) where
  list : Finset α → List α
  mem_list : ∀ {s a}, a ∈ list s ↔ a ∈ s

structure Layout (κ : Type) where
  keyOf : UInt16 → Option κ
  isModKey : κ → Bool
  /-- The modifiers of events, and the keys that are pressed for them. -/
  left : List (Modifiers × κ)
  isModKey_left : ∀ p ∈ left, isModKey p.2 = true
  nodup_left : (left.map Prod.snd).Nodup
  not_contains_empty : ∀ p ∈ left, Modifiers.empty.contains p.1 = false

/-- What an event is to the modifier keys. -/
inductive Report (κ : Type)
  | passes
  | key (k : κ) (down : Bool)
  | syncs (modifiers : Modifiers)
  /-- A key is pressed and released around a character. -/
  | taps (k : κ)
  | resets

/-- What the previous modifiers and the current ones differ in: the key, and whether it is down
now. -/
def modifierChanges {κ : Type} (left : List (Modifiers × κ)) (previous current : Modifiers) :
    List (κ × Bool) :=
  left.filterMap fun p =>
    if previous.contains p.1 != current.contains p.1 then some (p.2, current.contains p.1)
    else none

/-- The modifiers of the latest keyboard event. -/
def latestModifiers (es : List InputEvent) : Modifiers :=
  ((es.filterMap fun e => if e.IsKeyboard then some e.modifiers else none).getLast?).getD
    .empty

variable {σ ε κ : Type} [DecidableEq κ]

/-- A press or a release, and the key that it is of. -/
def pressEffect (p : κ × Bool) (k : κ) : Option Bool := if p.1 = k then some p.2 else none

namespace Report

def modifiers (previous : Modifiers) : Report κ → Modifiers
  | passes | key _ _ | taps _ => previous
  | syncs current => current
  | resets => .empty

/-- What becomes of a modifier key.  A reset is accounted for apart. -/
def effect (layout : Layout κ) (previous : Modifiers) : Report κ → κ → Option Bool
  | passes, _ => none
  | key k' down, k => pressEffect (k', down) k
  | syncs current, k => last pressEffect (modifierChanges layout.left previous current) k
  | taps k', k => pressEffect (k', false) k
  | resets, _ => none

end Report

namespace Layout

variable (layout : Layout κ)

/-- An event presses the very key, or releases it. -/
def holds (e : InputEvent) (k : κ) : Option Bool :=
  match e.eventType with
  | .keyDown => if layout.keyOf e.keyCode = some k then some true else none
  | .keyUp => if layout.keyOf e.keyCode = some k then some false else none
  | .reset => some false
  | _ => none

/-- `tapped` is the key that is wrapped around the character of the event. -/
def report (tapped : Option κ) (e : InputEvent) : Report κ :=
  if !e.isFinite then .passes
  else
    match e.eventType with
    | .reset => .resets
    | .keyDown | .keyUp =>
      match layout.keyOf e.keyCode with
      | some k =>
        if layout.isModKey k then .key k (e.eventType = .keyDown) else .syncs e.modifiers
      | none => .passes
    | .flagsChanged => .syncs e.modifiers
    | .unicodeChar =>
      match tapped with
      | some k => .taps k
      | none => .passes
    | _ => .passes

end Layout

structure Backend (σ ε κ : Type) where
  layout : Layout κ
  effect : ε → κ → Option Bool
  new : σ
  modifiers : σ → Modifiers
  /-- What a reset releases. -/
  held : σ → κ → Prop
  tapped : σ → InputEvent → Option κ
  inject : σ → InputEvent → σ × List ε

namespace Backend

variable (b : Backend σ ε κ)

def report (s : σ) (e : InputEvent) : Report κ := b.layout.report (b.tapped s e) e

structure Lawful : Prop where
  new : b.modifiers b.new = .empty
  modifiers : ∀ s e, b.modifiers (b.inject s e).1 = (b.report s e).modifiers (b.modifiers s)
  effect : ∀ s e k, b.layout.isModKey k → (e.eventType = .reset → e.isFinite = false) →
    last b.effect (b.inject s e).2 k = (b.report s e).effect b.layout (b.modifiers s) k
  covers : ∀ s e, Covers b.effect (b.inject s e).2 (b.held s) (b.held (b.inject s e).1)
  ignored : ∀ s e, e.isFinite = false → b.inject s e = (s, [])
  reset : ∀ s e, e.eventType = .reset → e.isFinite = true → ∀ k,
    last b.effect (b.inject s e).2 k ≠ some true ∧
      (b.held s k → last b.effect (b.inject s e).2 k = some false)

/-- The state after the events, and all that the device was sent. -/
def run (es : List InputEvent) : σ × List ε :=
  es.foldl (fun st e => ((b.inject st.1 e).1, st.2 ++ (b.inject st.1 e).2)) (b.new, [])

def Down (es : List InputEvent) (k : κ) : Prop := Presses.Down b.effect (b.run es).2 k

/-- The key was pressed by a key event of its own, and not released since. -/
def Explicit (es : List InputEvent) (k : κ) : Prop := Presses.Down b.layout.holds es k

instance (es : List InputEvent) (k : κ) : Decidable (b.Down es k) :=
  inferInstanceAs (Decidable (Presses.Down _ _ _))

instance (es : List InputEvent) (k : κ) : Decidable (b.Explicit es k) :=
  inferInstanceAs (Decidable (Presses.Down _ _ _))

/-- No modifier is stuck. -/
structure Follows (es : List InputEvent) : Prop where
  modifiers : ∀ k, b.layout.isModKey k → b.Down es k →
    b.Explicit es k ∨ ∃ p ∈ b.layout.left, p.2 = k ∧ (latestModifiers es).contains p.1
  released : (∀ k, ¬ b.Explicit es k) → latestModifiers es = .empty →
    ∀ k, b.layout.isModKey k → ¬ b.Down es k
  reset : ∀ e, es.getLast? = some e → e.eventType = .reset → ∀ k, ¬ b.Down es k

/-- What the next event must not do. -/
structure Safe (es : List InputEvent) (e : InputEvent) : Prop where
  /-- A keyboard event that does not synchronize carries the modifiers that are remembered and
  whose keys it leaves down. -/
  carries : e.IsKeyboard →
    (∀ modifiers, b.report (b.run es).1 e ≠ .syncs modifiers) →
    ∀ p ∈ b.layout.left, (b.modifiers (b.run es).1).contains p.1 → b.Down es p.2 →
      ¬ b.Explicit (es ++ [e]) p.2 → b.report (b.run es).1 e ≠ .key p.2 false →
      b.report (b.run es).1 e ≠ .taps p.2 → e.modifiers.contains p.1
  /-- A release that is ignored is of no modifier key that is down for itself. -/
  release : e.eventType = .keyUp → e.isFinite = false →
    ∀ k, b.layout.keyOf e.keyCode = some k → b.layout.isModKey k → b.Down es k →
      ∃ p ∈ b.layout.left, p.2 = k ∧ (b.modifiers (b.run es).1).contains p.1
  /-- A reset that is ignored finds nothing down. -/
  reset : e.eventType = .reset → e.isFinite = false → ∀ k, ¬ b.Down es k

/-- Every event is safe. -/
def Calm (es : List InputEvent) : Prop := ∀ before e, before ++ [e] <+: es → b.Safe before e

end Backend

theorem pressEffect_eq_some {p : κ × Bool} {k : κ} {down : Bool}
    (h : pressEffect p k = some down) : p = (k, down) := by
  rw [pressEffect] at h
  split at h
  next hk => exact Prod.ext hk (Option.some.inj h)
  · cases h

/-! ### Events and their reports -/

namespace Layout

variable {layout : Layout κ} {tapped : Option κ} {e : InputEvent} {k : κ}

theorem holds_of_keyOf {k' : κ} {down : Bool}
    (htype : e.eventType = if down then .keyDown else .keyUp)
    (hkey : layout.keyOf e.keyCode = some k') : layout.holds e k = pressEffect (k', down) k := by
  cases down with
  | true => simp only [holds, htype, hkey, pressEffect, Option.some.injEq, if_true]
  | false =>
    simp only [holds, htype, hkey, pressEffect, Option.some.injEq, Bool.false_eq_true, if_false]

theorem holds_of_keyOf_ne (hkey : layout.keyOf e.keyCode ≠ some k)
    (hreset : e.eventType ≠ .reset) : layout.holds e k = none := by
  rw [holds]
  split
  · rw [if_neg hkey]
  · rw [if_neg hkey]
  next h => exact (hreset h).elim
  · rfl

theorem holds_of_type (hdown : e.eventType ≠ .keyDown) (hup : e.eventType ≠ .keyUp)
    (hreset : e.eventType ≠ .reset) : layout.holds e k = none := by
  rw [holds]
  split
  next h => exact (hdown h).elim
  next h => exact (hup h).elim
  next h => exact (hreset h).elim
  · rfl

variable (layout e) in
/-- Which events give which report. -/
inductive Reported : Report κ → Prop
  | ignored (hfinite : e.isFinite = false) : Reported .passes
  | passes (hfinite : e.isFinite = true) (hreset : e.eventType ≠ .reset)
      (hholds : ∀ k, layout.holds e k = none) : Reported .passes
  | key {k : κ} {down : Bool} (hfinite : e.isFinite = true)
      (htype : e.eventType = if down then .keyDown else .keyUp)
      (hkey : layout.keyOf e.keyCode = some k) (hmod : layout.isModKey k = true) :
      Reported (.key k down)
  | syncs (hfinite : e.isFinite = true) (hkeyboard : e.IsKeyboard)
      (hholds : ∀ k, layout.isModKey k → layout.holds e k = none) : Reported (.syncs e.modifiers)
  | taps {k : κ} (hfinite : e.isFinite = true) (htype : e.eventType = .unicodeChar) :
      Reported (.taps k)
  | resets (hfinite : e.isFinite = true) (htype : e.eventType = .reset) : Reported .resets

theorem reported_key (down : Bool) (hfinite : e.isFinite = true)
    (htype : e.eventType = if down then .keyDown else .keyUp) :
    layout.Reported e
      (match layout.keyOf e.keyCode with
      | some k => if layout.isModKey k then .key k down else .syncs e.modifiers
      | none => .passes) := by
  have hreset : e.eventType ≠ .reset := by
    cases down <;> simp [htype]
  split
  next k hkey =>
    split
    next hmod => exact .key hfinite htype hkey hmod
    next hmod =>
      refine .syncs hfinite (by cases down <;> simp [InputEvent.IsKeyboard, htype]) fun k' hk' => ?_
      refine holds_of_keyOf_ne (fun heq => hmod ?_) hreset
      cases hkey.symm.trans heq
      exact hk'
  next hkey => exact .passes hfinite hreset fun k => holds_of_keyOf_ne (by simp [hkey]) hreset

theorem reported : layout.Reported e (layout.report tapped e) := by
  rw [Layout.report.eq_def]
  cases hfinite : e.isFinite with
  | false => exact .ignored hfinite
  | true =>
    simp only [Bool.not_true, Bool.false_eq_true, if_false]
    split
    next htype => exact .resets hfinite htype
    next htype => simpa [htype] using reported_key true hfinite htype
    next htype => simpa [htype] using reported_key false hfinite htype
    next htype =>
      refine .syncs hfinite (by simp [InputEvent.IsKeyboard, htype]) fun k _ => ?_
      exact holds_of_type (by simp [htype]) (by simp [htype]) (by simp [htype])
    next htype =>
      split
      · exact .taps hfinite htype
      · exact .passes hfinite (by simp [htype]) fun k =>
          holds_of_type (by simp [htype]) (by simp [htype]) (by simp [htype])
    next hreset hdown hup _ _ =>
      exact .passes hfinite hreset fun k => holds_of_type hdown hup hreset

end Layout

theorem latestModifiers_concat (es : List InputEvent) (e : InputEvent) :
    latestModifiers (es ++ [e]) = if e.IsKeyboard then e.modifiers else latestModifiers es := by
  rw [latestModifiers, List.filterMap_append, List.filterMap_cons, List.filterMap_nil]
  by_cases h : e.IsKeyboard
  · rw [if_pos h, if_pos h]
    simp only [List.getLast?_concat, Option.getD_some]
  · rw [if_neg h, if_neg h]
    simp only [List.append_nil, latestModifiers]

/-! ### Synchronization -/

section Changes

variable {left : List (Modifiers × κ)} {previous current : Modifiers} {k : κ}

theorem last_modifierChanges_of_not_mem (h : ∀ p ∈ left, p.2 ≠ k) :
    last pressEffect (modifierChanges left previous current) k = none := by
  refine last_eq_none_iff.mpr fun change hchange => ?_
  obtain ⟨p, hp, heq⟩ := List.mem_filterMap.mp hchange
  split at heq
  · cases heq
    exact if_neg (h p hp)
  · cases heq

theorem last_modifierChanges {p : Modifiers × κ} (hnodup : (left.map Prod.snd).Nodup)
    (hp : p ∈ left) :
    last pressEffect (modifierChanges left previous current) p.2 =
      if previous.contains p.1 != current.contains p.1 then some (current.contains p.1)
      else none := by
  induction left with
  | nil => exact (List.not_mem_nil hp).elim
  | cons q left ih =>
    rw [List.map_cons, List.nodup_cons] at hnodup
    have hsplit : modifierChanges (q :: left) previous current =
        (if previous.contains q.1 != current.contains q.1 then
          [(q.2, current.contains q.1)] else []) ++ modifierChanges left previous current := by
      rw [modifierChanges, List.filterMap_cons]
      split <;> split at * <;> simp_all [modifierChanges]
    rw [hsplit, last_append]
    rcases List.mem_cons.mp hp with rfl | hp
    · rw [last_modifierChanges_of_not_mem, Option.none_or]
      · split
        · rw [last_singleton, pressEffect, if_pos rfl]
        · rfl
      · exact fun p' hp' heq => hnodup.1 (List.mem_map.mpr ⟨p', hp', heq⟩)
    · rw [ih hnodup.2 hp]
      have hne : q.2 ≠ p.2 := fun heq => hnodup.1 (List.mem_map.mpr ⟨p, hp, heq.symm⟩)
      have hnone : last pressEffect (if previous.contains q.1 != current.contains q.1 then
          [(q.2, current.contains q.1)] else []) p.2 = none := by
        split
        · rw [last_singleton, pressEffect, if_neg hne]
        · rfl
      rw [hnone, Option.or_none]

end Changes

/-! ### Runs -/

namespace Backend

variable {b : Backend σ ε κ} {es : List InputEvent} {e : InputEvent} {k : κ}

omit [DecidableEq κ] in
theorem run_concat (b : Backend σ ε κ) (es : List InputEvent) (e : InputEvent) :
    b.run (es ++ [e]) = ((b.inject (b.run es).1 e).1,
      (b.run es).2 ++ (b.inject (b.run es).1 e).2) := by
  rw [run, List.foldl_concat]
  rfl

theorem explicit_concat :
    b.Explicit (es ++ [e]) k ↔
      b.layout.holds e k = some true ∨ (b.layout.holds e k = none ∧ b.Explicit es k) := by
  rw [Explicit, down_append, Presses.Down, last_singleton]
  rfl

omit [DecidableEq κ] in
theorem down_concat :
    b.Down (es ++ [e]) k ↔ Presses.Down b.effect (b.inject (b.run es).1 e).2 k ∨
      (last b.effect (b.inject (b.run es).1 e).2 k = none ∧ b.Down es k) := by
  rw [Down, run_concat, down_append]
  rfl

omit [DecidableEq κ] in
theorem not_down_nil : ¬ b.Down [] k := nofun

namespace Lawful

theorem down_concat_iff (hb : b.Lawful) (hmod : b.layout.isModKey k = true)
    (hreset : e.eventType = .reset → e.isFinite = false) :
    b.Down (es ++ [e]) k ↔
      (b.report (b.run es).1 e).effect b.layout (b.modifiers (b.run es).1) k = some true ∨
        ((b.report (b.run es).1 e).effect b.layout (b.modifiers (b.run es).1) k = none ∧
          b.Down es k) := by
  rw [down_concat, Presses.Down, hb.effect _ _ _ hmod hreset]

theorem held (hb : b.Lawful) (es : List InputEvent) (k : κ) (h : b.Down es k) :
    b.held (b.run es).1 k := by
  induction es using List.reverseRecOn generalizing k with
  | nil => exact (not_down_nil h).elim
  | append_singleton es e ih =>
    have hdown := (hb.covers (b.run es).1 e).down ih k
    rw [run_concat]
    refine hdown ?_
    rwa [Down, run_concat] at h

theorem not_down_reset (hb : b.Lawful) (htype : e.eventType = .reset) (hfinite : e.isFinite = true)
    (k : κ) : ¬ b.Down (es ++ [e]) k := by
  intro hdown
  obtain ⟨hpress, hrelease⟩ := hb.reset (b.run es).1 e htype hfinite k
  rcases down_concat.mp hdown with h | ⟨hnone, h⟩
  · exact hpress h
  · cases hnone.symm.trans (hrelease (hb.held es k h))

end Lawful

variable (b) in
/-- Each modifier key that is down is down for itself, or for one of the modifiers. -/
def Accounts (m : Modifiers) (es : List InputEvent) : Prop :=
  ∀ k, b.layout.isModKey k → b.Down es k →
    b.Explicit es k ∨ ∃ p ∈ b.layout.left, p.2 = k ∧ m.contains p.1

theorem explicit_or_lost (h : b.Explicit es k) :
    b.Explicit (es ++ [e]) k ∨ e.eventType = .reset ∨
      (e.eventType = .keyUp ∧ b.layout.keyOf e.keyCode = some k) := by
  by_cases hreset : e.eventType = .reset
  · exact .inr (.inl hreset)
  · by_cases hkey : b.layout.keyOf e.keyCode = some k
    · by_cases hup : e.eventType = .keyUp
      · exact .inr (.inr ⟨hup, hkey⟩)
      · refine .inl (explicit_concat.mpr ?_)
        by_cases hdown : e.eventType = .keyDown
        · left
          have htype : e.eventType = if true then .keyDown else .keyUp := hdown
          rw [Layout.holds_of_keyOf htype hkey, pressEffect, if_pos rfl]
        · exact .inr ⟨Layout.holds_of_type hdown hup hreset, h⟩
    · exact .inl (explicit_concat.mpr (.inr ⟨Layout.holds_of_keyOf_ne hkey hreset, h⟩))

theorem Accounts.keep (hb : b.Lawful) {m : Modifiers} (h : b.Accounts m es)
    (hsyncs : ∀ modifiers, b.report (b.run es).1 e ≠ .syncs modifiers)
    (hrelease : e.eventType = .keyUp → e.isFinite = false → ∀ k,
      b.layout.keyOf e.keyCode = some k → b.layout.isModKey k → b.Down es k →
        ∃ p ∈ b.layout.left, p.2 = k ∧ m.contains p.1)
    (hreset : e.eventType = .reset → e.isFinite = false → ∀ k, ¬ b.Down es k) :
    b.Accounts m (es ++ [e]) := by
  intro k hmod hdown
  by_cases hresets : e.eventType = .reset → e.isFinite = false
  swap
  · obtain ⟨htype, hfinite⟩ := Classical.not_imp.mp hresets
    exact (hb.not_down_reset htype (Bool.not_eq_false _ ▸ hfinite) k hdown).elim
  have hreported : b.layout.Reported e (b.report (b.run es).1 e) := Layout.reported
  rw [hb.down_concat_iff hmod hresets] at hdown
  generalize b.report (b.run es).1 e = r at hreported hdown hsyncs
  cases hreported with
  | ignored hfinite =>
    obtain ⟨-, hdown⟩ := hdown.resolve_left nofun
    rcases h k hmod hdown with hexplicit | hleft
    · rcases explicit_or_lost (e := e) hexplicit with hexplicit | htype | ⟨htype, hkey⟩
      · exact .inl hexplicit
      · exact (hreset htype hfinite k hdown).elim
      · exact .inr (hrelease htype hfinite k hkey hmod hdown)
    · exact .inr hleft
  | passes hfinite htype hholds =>
    obtain ⟨-, hdown⟩ := hdown.resolve_left nofun
    exact (h k hmod hdown).imp_left fun hexplicit => explicit_concat.mpr (.inr ⟨hholds k, hexplicit⟩)
  | key hfinite htype hkey hmod' =>
    have hholds := Layout.holds_of_keyOf (k := k) htype hkey
    rcases hdown with hpress | ⟨hnone, hdown⟩
    · exact .inl (explicit_concat.mpr (.inl (hholds.trans hpress)))
    · exact (h k hmod hdown).imp_left fun hexplicit =>
        explicit_concat.mpr (.inr ⟨hholds.trans hnone, hexplicit⟩)
  | syncs => exact (hsyncs _ rfl).elim
  | taps hfinite htype =>
    rcases hdown with hpress | ⟨-, hdown⟩
    · rw [Report.effect, pressEffect] at hpress
      split at hpress <;> cases hpress
    · have hholds : b.layout.holds e k = none :=
        Layout.holds_of_type (by simp [htype]) (by simp [htype]) (by simp [htype])
      exact (h k hmod hdown).imp_left fun hexplicit => explicit_concat.mpr (.inr ⟨hholds, hexplicit⟩)
  | resets hfinite htype => cases (hresets htype).symm.trans hfinite

theorem Accounts.sync (hb : b.Lawful) (h : b.Accounts (b.modifiers (b.run es).1) es)
    {modifiers : Modifiers} (hsyncs : b.report (b.run es).1 e = .syncs modifiers) :
    b.Accounts modifiers (es ++ [e]) := by
  intro k hmod hdown
  have hreported : b.layout.Reported e (b.report (b.run es).1 e) := Layout.reported
  rw [hsyncs] at hreported
  obtain - | - | - | ⟨-, hkeyboard, hholds⟩ := hreported
  rw [hb.down_concat_iff hmod fun htype => (hkeyboard.ne_reset htype).elim, hsyncs,
    Report.effect] at hdown
  have hkeep : b.Explicit es k → b.Explicit (es ++ [e]) k := fun hexplicit =>
    explicit_concat.mpr (.inr ⟨hholds k hmod, hexplicit⟩)
  by_cases hleft : ∃ p ∈ b.layout.left, p.2 = k
  · obtain ⟨p, hp, rfl⟩ := hleft
    rw [last_modifierChanges b.layout.nodup_left hp] at hdown
    split at hdown
    · rcases hdown with hpress | ⟨hnone, -⟩
      · exact .inr ⟨p, hp, rfl, Option.some.inj hpress⟩
      · cases hnone
    next hsame =>
      obtain ⟨-, hdown⟩ := hdown.resolve_left nofun
      refine (h _ hmod hdown).imp hkeep fun ⟨p', hp', heq, hcontains⟩ => ?_
      obtain rfl := List.inj_on_of_nodup_map b.layout.nodup_left hp' hp heq
      rw [bne_iff_ne, not_not] at hsame
      exact ⟨p', hp', rfl, hsame ▸ hcontains⟩
  · have hne (p : Modifiers × κ) (hp : p ∈ b.layout.left) : p.2 ≠ k := fun heq =>
      hleft ⟨p, hp, heq⟩
    rw [last_modifierChanges_of_not_mem hne] at hdown
    obtain ⟨-, hdown⟩ := hdown.resolve_left nofun
    exact (h k hmod hdown).imp hkeep fun ⟨p, hp, heq, _⟩ => (hne p hp heq).elim

theorem Accounts.remembered (hb : b.Lawful) (h : b.Accounts (b.modifiers (b.run es).1) es)
    (hsafe : b.Safe es e) :
    b.Accounts (b.modifiers (b.run (es ++ [e])).1) (es ++ [e]) := by
  rw [run_concat, hb.modifiers]
  by_cases hsyncs : ∃ modifiers, b.report (b.run es).1 e = .syncs modifiers
  · obtain ⟨modifiers, hsyncs⟩ := hsyncs
    rw [hsyncs]
    exact h.sync hb hsyncs
  · rw [not_exists] at hsyncs
    have hkeep := h.keep hb hsyncs hsafe.release hsafe.reset
    have hreported : b.layout.Reported e (b.report (b.run es).1 e) := Layout.reported
    generalize b.report (b.run es).1 e = r at hreported hsyncs
    cases hreported with
    | ignored | passes | key | taps => exact hkeep
    | syncs => exact (hsyncs _ rfl).elim
    | resets hfinite htype =>
      exact fun k _ hdown => (hb.not_down_reset htype hfinite k hdown).elim

theorem Accounts.latest (hb : b.Lawful) (h : b.Accounts (b.modifiers (b.run es).1) es)
    (hlatest : b.Accounts (latestModifiers es) es) (hsafe : b.Safe es e) :
    b.Accounts (latestModifiers (es ++ [e])) (es ++ [e]) := by
  rw [latestModifiers_concat]
  by_cases hsyncs : ∃ modifiers, b.report (b.run es).1 e = .syncs modifiers
  · obtain ⟨modifiers, hsyncs⟩ := hsyncs
    have hreported : b.layout.Reported e (b.report (b.run es).1 e) := Layout.reported
    rw [hsyncs] at hreported
    obtain - | - | - | ⟨-, hkeyboard, -⟩ := hreported
    rw [if_pos hkeyboard]
    exact h.sync hb hsyncs
  · rw [not_exists] at hsyncs
    split
    next hkeyboard =>
      -- a key that is down only for a remembered modifier: the event has to carry it
      intro k hmod hdown
      rcases h.keep hb hsyncs hsafe.release hsafe.reset k hmod hdown with
        hexplicit | ⟨p, hp, rfl, hcontains⟩
      · exact .inl hexplicit
      by_cases hexplicit : b.Explicit (es ++ [e]) p.2
      · exact .inl hexplicit
      refine .inr ⟨p, hp, rfl, ?_⟩
      rw [hb.down_concat_iff hmod fun htype => (hkeyboard.ne_reset htype).elim] at hdown
      refine hsafe.carries hkeyboard hsyncs p hp hcontains ?_ hexplicit ?_ ?_
      · rcases hdown with hpress | ⟨-, hdown⟩
        · have hreported : b.layout.Reported e (b.report (b.run es).1 e) := Layout.reported
          generalize b.report (b.run es).1 e = r at hreported hsyncs hpress
          cases hreported with
          | ignored | passes | resets => cases hpress
          | syncs => exact (hsyncs _ rfl).elim
          | key hfinite htype hkey hmod' =>
            refine (hexplicit (explicit_concat.mpr (.inl ?_))).elim
            exact (Layout.holds_of_keyOf htype hkey).trans hpress
          | taps =>
            rw [Report.effect, pressEffect] at hpress
            split at hpress <;> cases hpress
        · exact hdown
      · intro heq
        simp [heq, Report.effect, pressEffect] at hdown
      · intro heq
        simp [heq, Report.effect, pressEffect] at hdown
    next hkeyboard =>
      refine hlatest.keep hb hsyncs (fun htype => ?_) hsafe.reset
      exact (hkeyboard (by simp [InputEvent.IsKeyboard, htype])).elim

theorem Safe.of_carries (hfinite : e.isFinite = true)
    (h : (∀ modifiers, b.report (b.run es).1 e ≠ .syncs modifiers) →
      ∀ p ∈ b.layout.left, (b.modifiers (b.run es).1).contains p.1 → e.modifiers.contains p.1) :
    b.Safe es e where
  carries _ hsyncs p hp hcontains _ _ _ _ := h hsyncs p hp hcontains
  release _ hinfinite := nomatch hfinite.symm.trans hinfinite
  reset _ hinfinite := nomatch hfinite.symm.trans hinfinite

theorem Calm.nil : b.Calm [] := fun before e hpre => by simp at hpre

theorem Calm.concat_iff : b.Calm (es ++ [e]) ↔ b.Calm es ∧ b.Safe es e := by
  constructor
  · exact fun h => ⟨fun before e' hpre => h before e' (hpre.trans (List.prefix_append _ _)),
      h es e List.prefix_rfl⟩
  · rintro ⟨h, hsafe⟩ before e' hpre
    rcases List.prefix_concat_iff.mp hpre with heq | hpre
    · obtain ⟨rfl, rfl⟩ := List.concat_inj.mp (by simpa using heq)
      exact hsafe
    · exact h before e' hpre

theorem Calm.accounts (hb : b.Lawful) (h : b.Calm es) :
    b.Accounts (b.modifiers (b.run es).1) es ∧ b.Accounts (latestModifiers es) es := by
  induction es using List.reverseRecOn with
  | nil => exact ⟨fun k _ hdown => (not_down_nil hdown).elim,
      fun k _ hdown => (not_down_nil hdown).elim⟩
  | append_singleton es e ih =>
    obtain ⟨hcalm, hsafe⟩ := Calm.concat_iff.mp h
    obtain ⟨hremembered, hlatest⟩ := ih hcalm
    exact ⟨hremembered.remembered hb hsafe, hremembered.latest hb hlatest hsafe⟩

theorem Calm.follows (hb : b.Lawful) (h : b.Calm es) : b.Follows es := by
  have hlatest := (h.accounts hb).2
  refine ⟨hlatest, fun hexplicit hempty k hmod hdown => ?_, fun e hlast htype k hdown => ?_⟩
  · rcases hlatest k hmod hdown with h' | ⟨p, hp, -, hcontains⟩
    · exact hexplicit k h'
    · rw [hempty, b.layout.not_contains_empty p hp] at hcontains
      cases hcontains
  · obtain ⟨es, rfl⟩ := List.getLast?_eq_some_iff.mp hlast
    obtain ⟨-, hsafe⟩ := Calm.concat_iff.mp h
    cases hfinite : e.isFinite with
    | true => exact hb.not_down_reset htype hfinite k hdown
    | false =>
      rw [down_concat, hb.ignored _ _ hfinite] at hdown
      exact hsafe.reset htype hfinite k (hdown.resolve_left nofun).2

/-- The next event of finite coordinates was safe, if nothing is stuck after it. -/
theorem Follows.safe (hb : b.Lawful) (h : b.Follows (es ++ [e])) (hfinite : e.isFinite = true) :
    b.Safe es e := by
  refine ⟨fun hkeyboard hsyncs p hp hcontains hdown hexplicit hkey htaps => ?_,
    fun _ hinfinite => ?_, fun _ hinfinite => ?_⟩
  · have hmod := b.layout.isModKey_left p hp
    have hdown' : b.Down (es ++ [e]) p.2 := by
      rw [hb.down_concat_iff hmod fun htype => (hkeyboard.ne_reset htype).elim]
      have hreported : b.layout.Reported e (b.report (b.run es).1 e) := Layout.reported
      generalize b.report (b.run es).1 e = r at hreported hsyncs hkey htaps
      cases hreported with
      | ignored | passes => exact .inr ⟨rfl, hdown⟩
      | syncs => exact (hsyncs _ rfl).elim
      | resets _ htype => exact (hkeyboard.ne_reset htype).elim
      | @key k' down _ htype hkeyOf =>
        refine .inr ⟨if_neg fun heq => ?_, hdown⟩
        cases heq
        cases down with
        | false => exact hkey rfl
        | true =>
          refine hexplicit (explicit_concat.mpr (.inl ?_))
          rw [Layout.holds_of_keyOf htype hkeyOf, pressEffect, if_pos rfl]
      | @taps k' => exact .inr ⟨if_neg fun heq => htaps (congrArg _ heq), hdown⟩
    rcases h.modifiers _ hmod hdown' with h' | ⟨p', hp', heq, hcontains'⟩
    · exact (hexplicit h').elim
    · obtain rfl := List.inj_on_of_nodup_map b.layout.nodup_left hp' hp heq
      rwa [latestModifiers_concat, if_pos hkeyboard] at hcontains'
  · cases hfinite.symm.trans hinfinite
  · cases hfinite.symm.trans hinfinite

/-- **Calm runs leave no modifier stuck**, and of the runs whose events are finite no others do. -/
theorem Lawful.follows (hb : b.Lawful) :
    (∀ es, b.Calm es → b.Follows es) ∧
      ∀ es, (∀ e ∈ es, e.isFinite = true) →
        ((∀ before, before <+: es → b.Follows before) ↔ b.Calm es) := by
  refine ⟨fun es h => h.follows hb, fun es hfinite => ⟨fun h => ?_, fun h before hpre => ?_⟩⟩
  · induction es using List.reverseRecOn with
    | nil => exact Calm.nil
    | append_singleton es e ih =>
      refine Calm.concat_iff.mpr ⟨ih (fun e' he' => hfinite e' (List.mem_append_left _ he'))
        fun before hpre => h before (hpre.trans (List.prefix_append _ _)), ?_⟩
      exact (h _ List.prefix_rfl).safe hb (hfinite e (List.mem_append_right _ (.head _)))
  · exact Calm.follows hb fun before' e hpre' => h before' e (hpre'.trans hpre)

end Backend

end MahoRD.Host

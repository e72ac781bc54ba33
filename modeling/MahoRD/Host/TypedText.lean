/-
MahoRD/Host/TypedText.lean

The text that a Linux host types (`UnicodeChar` in `maho-host/src/inject_linux.rs`).  A character
that has a key goes to the virtual keyboard, the others wait in `UnicodeBatch` for `wtype`, which is
taken to type what it is given, as the keyboard is to accept what is written to it.

A log of effects is read with the keyboard that it leaves (`marks`): a press of a key stands for
that key under the modifier keys that are down then.  What the log reads as, and then what is
waiting, is what has been sent (`Emits`).
-/
import MahoRD.Host.LinuxInjector
import MahoRD.Lib.History

namespace MahoRD.Host.Linux

open Presses KeyCode

/-! ### The batch -/

/-- In milliseconds. -/
def unicodeBatchIdle : ℕ := 8

def unicodeBatchMaxChars : ℕ := 32

structure UnicodeBatch where
  text : List Char
  chars : ℕ
  last : Option ℕ

namespace UnicodeBatch

def empty : UnicodeBatch := ⟨[], 0, none⟩

def take (b : UnicodeBatch) : Option (List Char) × UnicodeBatch := (some b.text, empty)

/-- The batch is taken when it has reached its size. -/
def push (b : UnicodeBatch) (ch : Char) (now : ℕ) : Option (List Char) × UnicodeBatch :=
  let b := ⟨b.text ++ [ch], b.chars + 1, some now⟩
  if unicodeBatchMaxChars ≤ b.chars then b.take else (none, b)

def takeIfIdle (b : UnicodeBatch) (now : ℕ) : Option (List Char) × UnicodeBatch :=
  match b.last with
  | none => (none, b)
  | some last => if unicodeBatchIdle ≤ now - last then b.take else (none, b)

def takePending (b : UnicodeBatch) : Option (List Char) × UnicodeBatch :=
  if b.text = [] then (none, b) else b.take

end UnicodeBatch

/-! ### The injector with its text -/

/-- What the injector brings about: text that is typed for it, the reports of a character that has
a key, and whatever another event does, with its reports. -/
inductive Effect
  | wtype (text : List Char)
  | stroke (reports : List (KeyCode × Bool))
  | event (e : InputEvent) (reports : List (KeyCode × Bool))

def Effect.reports : Effect → List (KeyCode × Bool)
  | wtype _ => []
  | stroke reports | event _ reports => reports

def typeUnicode (text : Option (List Char)) : List Effect := text.toList.map .wtype

structure TextInjector where
  injector : LinuxInputInjector
  batch : UnicodeBatch

def flushesPendingText (eventType : InputEventType) : Bool := eventType ≠ .unicodeChar

namespace TextInjector

def new : TextInjector := ⟨.new, .empty⟩

def flushIdleText (s : TextInjector) (now : ℕ) : TextInjector × List Effect :=
  let (text, batch) := s.batch.takeIfIdle now
  ({ s with batch }, typeUnicode text)

def flushPendingText (s : TextInjector) : TextInjector × List Effect :=
  let (text, batch) := s.batch.takePending
  ({ s with batch }, typeUnicode text)

/-- A `UnicodeChar`; `now` is when a character is queued. -/
def injectText (drain : DrainOrder KeyCode) (s : TextInjector) (e : InputEvent) (now : ℕ) :
    TextInjector × List Effect :=
  let (injector, reports) := s.injector.inject drain e
  match (Utf16.read s.injector.pendingSurrogate e.keyCode).1 with
  | none => ({ s with injector }, [])
  | some ch =>
    match textInputRoute ch with
    | .evdev _ _ =>
      let (s, flushed) := s.flushPendingText
      ({ s with injector }, flushed ++ [.stroke reports])
    | .unicode =>
      let (text, batch) := s.batch.push ch now
      (⟨injector, batch⟩, typeUnicode text)

def inject (drain : DrainOrder KeyCode) (s : TextInjector) (e : InputEvent) (now : ℕ) :
    TextInjector × List Effect :=
  if !e.isFinite then (s, [])
  else if flushesPendingText e.eventType then
    let (s, flushed) := s.flushPendingText
    let (injector, reports) := s.injector.inject drain e
    ({ s with injector }, flushed ++ [.event e reports])
  else s.injectText drain e now

def resetEvent : InputEvent := ⟨.reset, 0, 0, 0, .empty, 0, 0⟩

/-- The end of an injector. -/
def drop (drain : DrainOrder KeyCode) (s : TextInjector) : TextInjector × List Effect :=
  s.inject drain resetEvent 0

end TextInjector

/-! ### What is sent -/

/-- Where a character is sent from. -/
structure Place where
  x : UInt32
  y : UInt32
  finite : isFinite x = true ∧ isFinite y = true

/-- An event that is no text. -/
structure OtherEvent where
  event : InputEvent
  other : event.eventType ≠ .unicodeChar

inductive Call
  | inject (e : InputEvent) (now : ℕ)
  | idle (now : ℕ)

/-- A whole character, with the idle flushes between its two halves if it has two; an idle flush; an
event between characters. -/
inductive Item
  | char (c : Char) (place : Place) (gap : List ℕ) (now : ℕ)
  | idle (now : ℕ)
  | event (e : OtherEvent) (now : ℕ)

def Place.unicodeChar (place : Place) (unit : UInt16) : InputEvent :=
  .unicodeChar unit place.x place.y

def Item.calls : Item → List Call
  | .char c place gap now =>
    match Utf16.encode c with
    | [] => []
    | u :: units => .inject (place.unicodeChar u) now ::
        units.flatMap fun v => gap.map .idle ++ [.inject (place.unicodeChar v) now]
  | .idle now => [.idle now]
  | .event e now => [.inject e.event now]

/-- An injector, and all its effects so far. -/
structure Typing where
  injector : TextInjector
  log : List Effect

namespace Typing

def start : Typing := ⟨.new, []⟩

def add (t : Typing) (r : TextInjector × List Effect) : Typing := ⟨r.1, t.log ++ r.2⟩

def call (drain : DrainOrder KeyCode) (t : Typing) : Call → Typing
  | .inject e now => t.add (t.injector.inject drain e now)
  | .idle now => t.add (t.injector.flushIdleText now)

def item (drain : DrainOrder KeyCode) (t : Typing) (i : Item) : Typing :=
  i.calls.foldl (call drain) t

def run (drain : DrainOrder KeyCode) (items : List Item) : Typing := items.foldl (item drain) start

def reports (t : Typing) : List (KeyCode × Bool) := t.log.flatMap Effect.reports

end Typing

/-! ### Reading the log -/

inductive Mark
  /-- A key that is pressed under these modifier keys. -/
  | stroke (key : KeyCode) (modifiers : List KeyCode)
  | char (c : Char)
  | event (e : InputEvent)

/-- The modifier keys that are down. -/
def downModifiers (reports : List (KeyCode × Bool)) : List KeyCode :=
  LinuxInputInjector.resetKeys.filter fun k => Down pressEffect reports k

/-- The keys that are pressed, on a keyboard with these reports before. -/
def strokes (before : List (KeyCode × Bool)) : List (KeyCode × Bool) → List Mark
  | [] => []
  | (key, down) :: reports =>
    (if down && !key.isModKey then [.stroke key (downModifiers before)] else []) ++
      strokes (before ++ [(key, down)]) reports

def marks (before : List (KeyCode × Bool)) : List Effect → List Mark
  | [] => []
  | .wtype text :: log => text.map .char ++ marks before log
  | .stroke reports :: log => strokes before reports ++ marks (before ++ reports) log
  | .event e reports :: log => .event e :: marks (before ++ reports) log

/-- What an item is to be read as. -/
def Item.marks : Item → List Mark
  | .char c _ _ _ =>
    match textInputRoute c with
    | .evdev key shift => [.stroke key (if shift then [keyLeftshift] else [])]
    | .unicode => [.char c]
  | .idle _ => []
  | .event e _ => if e.event.isFinite then [.event e.event] else []

def TextInjector.waiting (s : TextInjector) : List Mark := s.batch.text.map .char

/-- What comes of `r` is these marks, some of them waiting, behind what was waiting before. -/
def Emits (before : List (KeyCode × Bool)) (s : TextInjector) (r : TextInjector × List Effect)
    (new : List Mark) : Prop :=
  marks before r.2 ++ r.1.waiting = s.waiting ++ new

section

variable {drain : DrainOrder KeyCode} {before : List (KeyCode × Bool)} {s : TextInjector}

theorem marks_append (before : List (KeyCode × Bool)) (log log' : List Effect) :
    marks before (log ++ log') =
      marks before log ++ marks (before ++ log.flatMap Effect.reports) log' := by
  induction log generalizing before with
  | nil => simp [marks]
  | cons effect log ih =>
    cases effect <;> simp [marks, ih, Effect.reports]

theorem marks_typeUnicode (before : List (KeyCode × Bool)) (text : Option (List Char)) :
    marks before (typeUnicode text) = text.toList.flatten.map .char := by
  cases text <;> simp [typeUnicode, marks]

theorem reports_typeUnicode (text : Option (List Char)) :
    (typeUnicode text).flatMap Effect.reports = [] := by
  cases text <;> rfl

theorem UnicodeBatch.takePending_text (b : UnicodeBatch) :
    b.takePending.1.toList.flatten = b.text ∧ b.takePending.2.text = [] := by
  rw [takePending]
  split_ifs with h
  · exact ⟨h.symm, h⟩
  · exact ⟨List.append_nil _, rfl⟩

theorem UnicodeBatch.takeIfIdle_text (b : UnicodeBatch) (now : ℕ) :
    (b.takeIfIdle now).1.toList.flatten ++ (b.takeIfIdle now).2.text = b.text := by
  rw [takeIfIdle]
  split
  · rfl
  · split_ifs
    · simp [take, empty]
    · rfl

theorem UnicodeBatch.push_text (b : UnicodeBatch) (ch : Char) (now : ℕ) :
    (b.push ch now).1.toList.flatten ++ (b.push ch now).2.text = b.text ++ [ch] := by
  simp only [push]
  split_ifs
  · simp [take, empty]
  · rfl

/-! ### One call -/

theorem emits_flushIdleText (before : List (KeyCode × Bool)) (s : TextInjector) (now : ℕ) :
    Emits before s (s.flushIdleText now) [] := by
  rw [Emits, TextInjector.flushIdleText, marks_typeUnicode, TextInjector.waiting,
    ← List.map_append, UnicodeBatch.takeIfIdle_text, List.append_nil]
  rfl

theorem flushPendingText_spec (before : List (KeyCode × Bool)) (s : TextInjector) :
    marks before s.flushPendingText.2 = s.waiting ∧ s.flushPendingText.1.waiting = [] ∧
      s.flushPendingText.2.flatMap Effect.reports = [] ∧
      s.flushPendingText.1.injector = s.injector := by
  obtain ⟨htaken, hleft⟩ := s.batch.takePending_text
  refine ⟨?_, ?_, reports_typeUnicode _, rfl⟩
  · rw [TextInjector.flushPendingText, marks_typeUnicode, htaken]
    rfl
  · rw [TextInjector.waiting, TextInjector.flushPendingText, hleft]
    rfl

theorem emits_event (e : OtherEvent) (now : ℕ) :
    Emits before s (s.inject drain e.event now) (Item.event e now).marks := by
  obtain ⟨hmarks, hwaiting, -, -⟩ := flushPendingText_spec before s
  have hflushes : flushesPendingText e.event.eventType = true := decide_eq_true e.other
  rw [Emits, TextInjector.inject, Item.marks]
  cases hfinite : e.event.isFinite with
  | false =>
    show marks before [] ++ s.waiting = s.waiting ++ []
    rw [List.append_nil]
    rfl
  | true =>
    simp only [Bool.not_true, Bool.false_eq_true, if_false, hflushes, if_true, marks_append, hmarks,
      marks]
    show s.waiting ++ [Mark.event e.event] ++ s.flushPendingText.1.waiting = _
    rw [hwaiting, List.append_nil]

theorem downModifiers_shift (h : downModifiers before = []) :
    downModifiers (before ++ [(keyLeftshift, true)]) = [keyLeftshift] := by
  have hbefore : ∀ k ∈ LinuxInputInjector.resetKeys, ¬ Down pressEffect before k := by
    simpa [downModifiers, List.filter_eq_nil_iff] using h
  have hdown : ∀ k ∈ LinuxInputInjector.resetKeys,
      decide (Down pressEffect (before ++ [(keyLeftshift, true)]) k) =
        decide (k = keyLeftshift) := by
    intro k hk
    rw [decide_eq_decide, down_append, Down, last_singleton, pressEffect]
    by_cases heq : keyLeftshift = k
    · simp [heq]
    · simp [heq, hbefore k hk, Ne.symm heq]
  rw [downModifiers, List.filter_congr hdown]
  decide

theorem strokes_typed {key : KeyCode} {shift : Bool} (h : downModifiers before = [])
    (hkey : key.isModKey = false) :
    strokes before (LinuxInputInjector.typed (some (.evdev key shift))) =
      [.stroke key (if shift then [keyLeftshift] else [])] := by
  have hshift : keyLeftshift.isModKey = true := rfl
  cases shift with
  | true => simp [LinuxInputInjector.typed, strokes, hkey, hshift, downModifiers_shift h]
  | false => simp [LinuxInputInjector.typed, strokes, hkey, h]

theorem isFinite_unicodeChar (place : Place) (unit : UInt16) :
    (place.unicodeChar unit).isFinite = true := by
  have hzero : isFinite 0 = true := by decide
  simp only [Place.unicodeChar, InputEvent.isFinite, InputEvent.unicodeChar, place.finite.1,
    place.finite.2, hzero, Bool.and_self]

theorem inject_unicodeChar (place : Place) (unit : UInt16) (now : ℕ) :
    s.inject drain (place.unicodeChar unit) now =
      s.injectText drain (place.unicodeChar unit) now := by
  have hflushes : flushesPendingText (place.unicodeChar unit).eventType = false := rfl
  simp only [TextInjector.inject, isFinite_unicodeChar, hflushes, Bool.not_true,
    Bool.false_eq_true, if_false]

theorem inject_reports (place : Place) (unit : UInt16) (i : LinuxInputInjector) :
    i.inject drain (place.unicodeChar unit) =
      ({ i with pendingSurrogate := (Utf16.read i.pendingSurrogate unit).2 },
        LinuxInputInjector.typed ((Utf16.read i.pendingSurrogate unit).1.map textInputRoute)) := by
  simp only [LinuxInputInjector.inject, isFinite_unicodeChar]
  rfl

theorem inject_half (drain : DrainOrder KeyCode) (place : Place) {unit : UInt16}
    {high : Option UInt16} (h : Utf16.read s.injector.pendingSurrogate unit = (none, high)) (now : ℕ) :
    s.inject drain (place.unicodeChar unit) now =
      (⟨{ s.injector with pendingSurrogate := high }, s.batch⟩, []) := by
  have hread : (Utf16.read s.injector.pendingSurrogate (place.unicodeChar unit).keyCode).1 = none :=
    congrArg Prod.fst h
  rw [inject_unicodeChar, TextInjector.injectText, inject_reports]
  simp only [hread, h]

theorem emits_unit {place : Place} {unit : UInt16} {c : Char} (hmod : downModifiers before = [])
    (h : (Utf16.read s.injector.pendingSurrogate unit).1 = some c) (gap : List ℕ) (now : ℕ) :
    Emits before s (s.inject drain (place.unicodeChar unit) now) (Item.char c place gap now).marks := by
  have hread : (Utf16.read s.injector.pendingSurrogate (place.unicodeChar unit).keyCode).1 = some c :=
    h
  rw [Emits, inject_unicodeChar, TextInjector.injectText, inject_reports, Item.marks]
  simp only [hread, h, Option.map_some]
  cases hroute : textInputRoute c with
  | evdev key shift =>
    obtain ⟨hmarks, hwaiting, hreports, -⟩ := flushPendingText_spec before s
    have hkey : key.isModKey = false := by
      rw [textInputRoute] at hroute
      split at hroute
      next hascii =>
        cases hroute
        exact isModKey_of_asciiToEvdev hascii
      · cases hroute
    simp only [marks_append, hmarks, hreports, List.append_nil, marks, strokes_typed hmod hkey]
    show s.waiting ++ _ ++ s.flushPendingText.1.waiting = _
    rw [hwaiting, List.append_nil]
  | unicode =>
    simp only [marks_typeUnicode, TextInjector.waiting]
    rw [← List.map_append, UnicodeBatch.push_text, List.map_append]
    rfl

end

/-! ### All calls -/

section

variable {drain : DrainOrder KeyCode} {t : Typing} {sent new : List Mark}

/-- What the log reads as, and then what is waiting. -/
def Typing.read (t : Typing) : List Mark := marks [] t.log ++ t.injector.waiting

theorem Typing.read_add {r : TextInjector × List Effect} (h : Emits t.reports t.injector r new) :
    (t.add r).read = t.read ++ new := by
  rw [read, add, marks_append, List.nil_append, List.append_assoc]
  show marks [] t.log ++ (marks t.reports r.2 ++ r.1.waiting) = _
  rw [h, read, List.append_assoc]

theorem reports_flushIdleText (s : TextInjector) (now : ℕ) :
    (s.flushIdleText now).2.flatMap Effect.reports = [] := reports_typeUnicode _

theorem idle_spec (drain : DrainOrder KeyCode) (t : Typing) (gap : List ℕ) :
    ((gap.map Call.idle).foldl (Typing.call drain) t).read = t.read ∧
      ((gap.map Call.idle).foldl (Typing.call drain) t).reports = t.reports ∧
      ((gap.map Call.idle).foldl (Typing.call drain) t).injector.injector = t.injector.injector := by
  induction gap generalizing t with
  | nil => exact ⟨rfl, rfl, rfl⟩
  | cons now gap ih =>
    have hread : (t.call drain (.idle now)).read = t.read := by
      have hadd := Typing.read_add (emits_flushIdleText t.reports t.injector now)
      rwa [List.append_nil] at hadd
    have hreports : (t.call drain (.idle now)).reports = t.reports := by
      rw [Typing.reports, Typing.call, Typing.add, List.flatMap_append, reports_flushIdleText,
        List.append_nil]
      rfl
    obtain ⟨ih₁, ih₂, ih₃⟩ := ih (t.call drain (.idle now))
    exact ⟨ih₁.trans hread, ih₂.trans hreports, ih₃⟩

theorem read_item (t : Typing) (i : Item)
    (h : ∀ c place gap now, i = .char c place gap now → downModifiers t.reports = []) :
    (t.item drain i).read = t.read ++ i.marks := by
  cases i with
  | idle now => exact (idle_spec drain t [now]).1.trans (List.append_nil _).symm
  | event e now => exact Typing.read_add (emits_event e now)
  | char c place gap now =>
    have hmod := h c place gap now rfl
    rcases Utf16.encode_cases c with ⟨u, hencode, hread⟩ | ⟨u, v, hencode, hhigh, hlow⟩
    · have hitem : t.item drain (.char c place gap now) =
          t.add (t.injector.inject drain (place.unicodeChar u) now) := by
        simp only [Typing.item, Item.calls, hencode, List.flatMap_nil]
        rfl
      rw [hitem]
      apply Typing.read_add
      exact emits_unit hmod (congrArg Prod.fst (hread _)) gap now
    · -- the first half only changes what is pending
      let half : Typing := t.add (t.injector.inject drain (place.unicodeChar u) now)
      let idle : Typing := (gap.map Call.idle).foldl (Typing.call drain) half
      have hitem : t.item drain (.char c place gap now) =
          idle.add (idle.injector.inject drain (place.unicodeChar v) now) := by
        simp only [Typing.item, Item.calls, hencode, List.flatMap_cons, List.flatMap_nil,
          List.append_nil, List.foldl_cons, List.foldl_append]
        rfl
      have hinject := inject_half drain place (hhigh t.injector.injector.pendingSurrogate) now
      have hhalf : half = ⟨⟨{ t.injector.injector with pendingSurrogate := some u },
          t.injector.batch⟩, t.log⟩ := by
        show t.add _ = _
        rw [hinject, Typing.add, List.append_nil]
      obtain ⟨hread, hreports, hinjector⟩ := idle_spec drain half gap
      have hmod' : downModifiers idle.reports = [] := by
        rw [hreports, hhalf]
        exact hmod
      have hpending : idle.injector.injector.pendingSurrogate = some u := by
        rw [hinjector, hhalf]
      have hchar : (Utf16.read idle.injector.injector.pendingSurrogate v).1 = some c := by
        rw [hpending, hlow]
      have hsame : idle.read = t.read := by
        rw [hread, hhalf]
        rfl
      rw [hitem, Typing.read_add (emits_unit hmod' hchar gap now), hsame]

/-- No modifier key is down where a character is sent. -/
def NoModifierHeld (drain : DrainOrder KeyCode) (items : List Item) : Prop :=
  History.Each (fun before i _ => ∀ c place gap now, i = .char c place gap now →
    downModifiers (Typing.run drain before).reports = []) items

theorem noModifierHeld_concat {items : List Item} {i : Item} :
    NoModifierHeld drain (items ++ [i]) ↔ NoModifierHeld drain items ∧
      ∀ c place gap now, i = .char c place gap now →
        downModifiers (Typing.run drain items).reports = [] :=
  History.each_concat

theorem read_run (items : List Item) (h : NoModifierHeld drain items) :
    (Typing.run drain items).read = items.flatMap Item.marks := by
  induction items using List.reverseRecOn with
  | nil => rfl
  | append_singleton items i ih =>
    obtain ⟨hbefore, hi⟩ := noModifierHeld_concat.mp h
    rw [Typing.run, List.foldl_append, List.flatMap_append, ← ih hbefore]
    simp only [List.foldl_cons, List.foldl_nil, List.flatMap_cons, List.flatMap_nil,
      List.append_nil]
    exact read_item _ i hi

end

/-! ### Nothing waits for long -/

/-- A character that is waiting has its time. -/
def UnicodeBatch.Timed (b : UnicodeBatch) : Prop := b.last = none → b.text = []

theorem UnicodeBatch.timed_empty : empty.Timed := fun _ => rfl

variable {b : UnicodeBatch}

theorem UnicodeBatch.Timed.takeIfIdle (h : b.Timed) (now : ℕ) :
    (b.takeIfIdle now).2.Timed := by
  rw [UnicodeBatch.takeIfIdle]
  split
  · exact h
  · split_ifs
    · exact timed_empty
    · exact h

theorem UnicodeBatch.Timed.takePending (h : b.Timed) : b.takePending.2.Timed := by
  rw [UnicodeBatch.takePending]
  split_ifs
  · exact h
  · exact timed_empty

theorem UnicodeBatch.timed_push (b : UnicodeBatch) (ch : Char) (now : ℕ) :
    (b.push ch now).2.Timed := by
  simp only [UnicodeBatch.push]
  split_ifs
  · exact timed_empty
  · intro hlast
    cases hlast

theorem UnicodeBatch.Timed.idle (h : b.Timed) {now : ℕ}
    (hidle : ∀ last, b.last = some last → last + unicodeBatchIdle ≤ now) :
    (b.takeIfIdle now).2.text = [] := by
  rw [UnicodeBatch.takeIfIdle]
  split
  next hlast => exact h hlast
  next last hlast =>
    have hle := hidle last hlast
    rw [if_pos (Nat.le_sub_of_add_le (Nat.add_comm last _ ▸ hle))]
    rfl

section

variable {drain : DrainOrder KeyCode} {t : Typing}

theorem timed_inject {s : TextInjector} (h : s.batch.Timed) (e : InputEvent) (now : ℕ) :
    (s.inject drain e now).1.batch.Timed := by
  rw [TextInjector.inject]
  split_ifs
  · exact h
  · exact h.takePending
  · rw [TextInjector.injectText]
    simp only
    split
    · exact h
    · split
      · exact h.takePending
      · exact UnicodeBatch.timed_push _ _ _

theorem timed_run (items : List Item) : (Typing.run drain items).injector.batch.Timed := by
  apply List.foldlRecOn (motive := fun t : Typing => t.injector.batch.Timed)
  · exact UnicodeBatch.timed_empty
  · intro t ht i _
    apply List.foldlRecOn (motive := fun t : Typing => t.injector.batch.Timed) _ _ ht
    intro t ht call _
    cases call with
    | inject e now => exact timed_inject ht e now
    | idle now => exact ht.takeIfIdle now

theorem read_of_text_nil (h : t.injector.batch.text = []) : marks [] t.log = t.read := by
  rw [Typing.read, TextInjector.waiting, h, List.map_nil, List.append_nil]

theorem drop_text (drain : DrainOrder KeyCode) (s : TextInjector) : (s.drop drain).1.batch.text = [] :=
  s.batch.takePending_text.2

/-- **The text is typed in the order in which it is sent**, whatever comes between its characters,
and before the effect of whatever comes after it; an idle flush and the end of the injector leave
nothing waiting. -/
theorem typed_in_order (drain : DrainOrder KeyCode) (items : List Item)
    (h : NoModifierHeld drain items) :
    let t := Typing.run drain items
    marks [] t.log ++ t.injector.batch.text.map .char = items.flatMap Item.marks ∧
    (∀ now, (∀ last, t.injector.batch.last = some last → last + unicodeBatchIdle ≤ now) →
      marks [] (t.call drain (.idle now)).log = items.flatMap Item.marks) ∧
    marks [] (t.add (t.injector.drop drain)).log =
      items.flatMap Item.marks ++ [.event TextInjector.resetEvent] := by
  intro t
  have hread : t.read = items.flatMap Item.marks := read_run items h
  refine ⟨hread, fun now hidle => ?_, ?_⟩
  · have hempty : (t.call drain (.idle now)).injector.batch.text = [] :=
      (timed_run items).idle hidle
    rw [read_of_text_nil hempty, ← hread]
    exact (idle_spec drain t [now]).1
  · have hempty : (t.add (t.injector.drop drain)).injector.batch.text = [] := drop_text drain _
    have hreset : TextInjector.resetEvent.eventType ≠ .unicodeChar := by decide
    have hfinite : TextInjector.resetEvent.isFinite = true := by decide
    have hmarks : (Item.event ⟨TextInjector.resetEvent, hreset⟩ 0).marks =
        [.event TextInjector.resetEvent] := if_pos hfinite
    rw [read_of_text_nil hempty, ← hread, ← hmarks]
    exact Typing.read_add (emits_event ⟨TextInjector.resetEvent, hreset⟩ 0)

end

/-- The keys of a set, in some order. -/
noncomputable def someOrder : DrainOrder KeyCode := ⟨Finset.toList, Finset.mem_toList⟩

def origin : Place := ⟨0, 0, by decide⟩

/-- A musical clef, with an idle flush between its halves, and then a letter. -/
def clefThenLetter : List Item :=
  [.char (Char.ofNat 0x1D11E) origin [3] 5] ++ [.char 'A' origin [] 9]

theorem typed_in_order_clef :
    marks [] (Typing.run someOrder clefThenLetter).log ++
      (Typing.run someOrder clefThenLetter).injector.batch.text.map .char =
      [.char (Char.ofNat 0x1D11E), .stroke keyA [keyLeftshift]] := by
  have hclef : NoModifierHeld someOrder ([] ++ [.char (Char.ofNat 0x1D11E) origin [3] 5]) :=
    noModifierHeld_concat.mpr ⟨History.each_nil _, fun _ _ _ _ _ => rfl⟩
  have hletter : NoModifierHeld someOrder clefThenLetter :=
    noModifierHeld_concat.mpr ⟨hclef, fun _ _ _ _ _ => rfl⟩
  exact (typed_in_order someOrder clefThenLetter hletter).1

end MahoRD.Host.Linux

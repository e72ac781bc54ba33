/-
MahoRD/Host/LinuxClipboard.lean

The clipboard of a Linux host (`maho-host/src/clipboard_linux.rs`).  The host polls it, and knows
its own writes by their content: a text is no local change if it is the text that was last seen or
written, or if it was written for the peer two seconds ago at most.

The second rule looks at nothing that came in between.  So the text of a remote write that the user
takes back after having copied another one is not sent, and it is not sent later either.
-/
import Mathlib.Data.List.Induction
import MahoRD.Lib.History
import MahoRD.Proto.Codec

namespace MahoRD.ClipboardLinux

def maxClipboardBytes : ℕ := 4 * 1024

inductive ClipboardBackend
  | wayland | x11

inductive ClipboardError
  | unavailable
  | command (message : String)
  | invalidUtf8
  | tooLarge
  | timeout
  | io (message : String)

/-- FNV-1a. -/
def contentHash (text : String) : UInt64 :=
  (utf8 text).foldl (fun hash byte => (hash ^^^ byte.toUInt64) * 0x100000001b3) 0xcbf29ce484222325

/-- Times are in nanoseconds. -/
structure ClipboardEchoSuppressor where
  echoPeriod : ℕ
  lastObservedHash : Option UInt64
  remoteWrite : Option (UInt64 × ℕ)

namespace ClipboardEchoSuppressor

def new (echoPeriod : ℕ) : ClipboardEchoSuppressor := ⟨echoPeriod, none, none⟩

def recordRemoteWrite (s : ClipboardEchoSuppressor) (text : String) (now : ℕ) :
    ClipboardEchoSuppressor :=
  let hash := contentHash text
  { s with lastObservedHash := some hash, remoteWrite := some (hash, now) }

/-- The first test of `observe_local`: the text was written for the peer a short while ago. -/
def echoes (s : ClipboardEchoSuppressor) (hash : UInt64) (now : ℕ) : Bool :=
  match s.remoteWrite with
  | some (remoteHash, writtenAt) => remoteHash == hash && now - writtenAt ≤ s.echoPeriod
  | none => false

/-- The second test: the write was long ago. -/
def expires (s : ClipboardEchoSuppressor) (now : ℕ) : ClipboardEchoSuppressor :=
  match s.remoteWrite with
  | some (_, writtenAt) =>
    if now - writtenAt > s.echoPeriod then { s with remoteWrite := none } else s
  | none => s

/-- True only for a new local value that should cross the wire. -/
def observeLocal (s : ClipboardEchoSuppressor) (text : String) (now : ℕ) :
    Bool × ClipboardEchoSuppressor :=
  let hash := contentHash text
  if s.echoes hash now then (false, { s with lastObservedHash := some hash })
  else
    let s := s.expires now
    if s.lastObservedHash = some hash then (false, s)
    else (true, { s with lastObservedHash := some hash })

end ClipboardEchoSuppressor

/-- What the commands say of the clipboard: its types, and its content by each way to read it. -/
structure Selection where
  concealed : Except ClipboardError Bool
  utf8 : Except ClipboardError (List UInt8)
  plain : Except ClipboardError (List UInt8)
  xclip : Except ClipboardError (List UInt8)

structure LinuxClipboard where
  backend : ClipboardBackend
  suppressor : ClipboardEchoSuppressor

namespace LinuxClipboard

/-- The first half of `poll`: the text that is there, if any. -/
def read (backend : ClipboardBackend) (selection : Selection) :
    Except ClipboardError (Option String) := do
  let concealed ← match backend with
    | .wayland => selection.concealed
    | .x11 => pure false
  if concealed then return none
  let bytes ← match backend with
    | .wayland =>
      match selection.utf8 with
      -- some producers advertise `text/plain` only
      | .error (.command _) => selection.plain
      | answer => answer
    | .x11 => selection.xclip
  if bytes.isEmpty then return none
  match String.fromUTF8? ⟨bytes.toArray⟩ with
  | some text => return some text
  | none => throw .invalidUtf8

def poll (c : LinuxClipboard) (selection : Selection) (now : ℕ) :
    Except ClipboardError (Option String) × LinuxClipboard :=
  match read c.backend selection with
  | .error e => (.error e, c)
  | .ok none => (.ok none, c)
  | .ok (some text) =>
    let (changed, suppressor) := c.suppressor.observeLocal text now
    (.ok (if changed then some text else none), { c with suppressor })

/-- `write`: what the command answers. -/
def applyRemoteText (c : LinuxClipboard) (text : String) (write : Except ClipboardError Unit)
    (now : ℕ) : Except ClipboardError Unit × LinuxClipboard :=
  if (MahoRD.utf8 text).length > maxClipboardBytes then (.error .tooLarge, c)
  else
    match write with
    | .error e => (.error e, c)
    | .ok () => (.ok (), { c with suppressor := c.suppressor.recordRemoteWrite text now })

end LinuxClipboard

/-! ### Host and peer -/

/-- `held`: the text that the host has last seen or written; `peer`: the text that has last crossed
the wire, in either direction. -/
structure World where
  clipboard : LinuxClipboard
  held : Option String
  peer : Option String

inductive Event
  | poll (selection : Selection) (now : ℕ)
  | apply (text : String) (write : Except ClipboardError Unit) (now : ℕ)

def World.start (backend : ClipboardBackend) (echoPeriod : ℕ) : World :=
  ⟨⟨backend, .new echoPeriod⟩, none, none⟩

namespace World

/-- The text that the suppressor sees in an event, if any. -/
def seen (w : World) : Event → Option String
  | .poll selection _ =>
    match LinuxClipboard.read w.clipboard.backend selection with
    | .ok text => text
    | .error _ => none
  | .apply .. => none

/-- The text that is sent in an event. -/
def sent (w : World) : Event → Option String
  | .poll selection now =>
    match (w.clipboard.poll selection now).1 with
    | .ok text => text
    | .error _ => none
  | .apply .. => none

/-- A remote write that fails leaves everything as it was. -/
def step (w : World) : Event → World
  | .poll selection now =>
    { clipboard := (w.clipboard.poll selection now).2
      held := (w.seen (.poll selection now)).or w.held
      peer := (w.sent (.poll selection now)).or w.peer }
  | .apply text write now =>
    match w.clipboard.applyRemoteText text write now with
    | (.ok (), clipboard) => ⟨clipboard, some text, some text⟩
    | (.error _, clipboard) => { w with clipboard }

def run (w : World) (events : List Event) : World := events.foldl step w

/-- What is sent in an event: the text that is seen, if it is not the one that was held. -/
def Passes (w : World) (event : Event) : Prop :=
  w.sent event = if w.seen event = w.held then none else w.seen event

/-- A change of the text in an event is no return to what was written for the peer a short while
ago, and has a hash of its own. -/
def Clear (w : World) : Event → Prop
  | .poll selection now => ∀ text, w.seen (.poll selection now) = some text → w.held ≠ some text →
      w.clipboard.suppressor.echoes (contentHash text) now = false ∧
        w.held.map contentHash ≠ some (contentHash text)
  | .apply .. => True

end World

/-- In every event just the changes are sent, and after every event host and peer hold the same. -/
structure Converges (w : World) (events : List Event) : Prop where
  passes : History.Each (fun before event _ => (w.run before).Passes event) events
  agree : ∀ before, before <+: events → (w.run before).peer = (w.run before).held

/-! ### The suppressor -/

namespace ClipboardEchoSuppressor

@[simp] theorem expires_lastObservedHash (s : ClipboardEchoSuppressor) (now : ℕ) :
    (s.expires now).lastObservedHash = s.lastObservedHash := by
  rw [expires]
  split
  · split <;> rfl
  · rfl

theorem observeLocal_lastObservedHash (s : ClipboardEchoSuppressor) (text : String) (now : ℕ) :
    (s.observeLocal text now).2.lastObservedHash = some (contentHash text) := by
  rw [observeLocal]
  split
  · rfl
  · dsimp only
    split
    next hlast => exact hlast
    · rfl

theorem observeLocal_iff (s : ClipboardEchoSuppressor) (text : String) (now : ℕ) :
    (s.observeLocal text now).1 = true ↔
      s.echoes (contentHash text) now = false ∧ s.lastObservedHash ≠ some (contentHash text) := by
  rw [observeLocal]
  cases hechoes : s.echoes (contentHash text) now with
  | true => simp
  | false =>
    rw [if_neg Bool.false_ne_true]
    by_cases hlast : s.lastObservedHash = some (contentHash text)
    · simp [hlast]
    · simp [hlast]

end ClipboardEchoSuppressor

/-! ### Events -/

namespace World

variable {w : World}

theorem step_unseen {selection : Selection} {now : ℕ}
    (hseen : w.seen (.poll selection now) = none) :
    w.sent (.poll selection now) = none ∧ w.step (.poll selection now) = w := by
  have hpoll : (w.sent (.poll selection now) = none) ∧
      (w.clipboard.poll selection now).2 = w.clipboard := by
    rw [seen] at hseen
    rw [sent, LinuxClipboard.poll]
    cases hread : LinuxClipboard.read w.clipboard.backend selection with
    | error e => exact ⟨rfl, rfl⟩
    | ok text =>
      rw [hread] at hseen
      obtain rfl : text = none := hseen
      exact ⟨rfl, rfl⟩
  refine ⟨hpoll.1, ?_⟩
  rw [step, hseen, hpoll.1, hpoll.2]
  rfl

theorem step_seen {selection : Selection} {now : ℕ} {text : String}
    (hseen : w.seen (.poll selection now) = some text) :
    w.sent (.poll selection now) =
      (if (w.clipboard.suppressor.observeLocal text now).1 then some text else none) ∧
    (w.step (.poll selection now)).held = some text ∧
    (w.step (.poll selection now)).clipboard.suppressor =
      (w.clipboard.suppressor.observeLocal text now).2 := by
  have hread : LinuxClipboard.read w.clipboard.backend selection = .ok (some text) := by
    rw [seen] at hseen
    cases hread : LinuxClipboard.read w.clipboard.backend selection with
    | error e =>
      rw [hread] at hseen
      cases hseen
    | ok read =>
      rw [hread] at hseen
      exact congrArg _ hseen
  refine ⟨?_, ?_, ?_⟩
  · rw [sent, LinuxClipboard.poll, hread]
  · rw [step, hseen]
    rfl
  · rw [step, LinuxClipboard.poll, hread]

theorem step_apply (w : World) (text : String) (write : Except ClipboardError Unit) (now : ℕ) :
    w.step (.apply text write now) = w ∨
      w.step (.apply text write now) =
        ⟨{ w.clipboard with suppressor := w.clipboard.suppressor.recordRemoteWrite text now },
          some text, some text⟩ := by
  have hwrite : (∃ e, w.clipboard.applyRemoteText text write now = (.error e, w.clipboard)) ∨
      w.clipboard.applyRemoteText text write now = (.ok (),
        { w.clipboard with suppressor := w.clipboard.suppressor.recordRemoteWrite text now }) := by
    unfold LinuxClipboard.applyRemoteText
    split
    · exact .inl ⟨_, rfl⟩
    · cases write with
      | error e => exact .inl ⟨e, rfl⟩
      | ok => exact .inr rfl
  rw [step]
  rcases hwrite with ⟨e, hfail⟩ | hwritten
  · rw [hfail]
    exact .inl rfl
  · rw [hwritten]
    exact .inr rfl

/-- The suppressor remembers the text that is held. -/
def Tracks (w : World) : Prop :=
  w.clipboard.suppressor.lastObservedHash = w.held.map contentHash

theorem Tracks.step (h : w.Tracks) (event : Event) : (w.step event).Tracks := by
  cases event with
  | poll selection now =>
    cases hseen : w.seen (.poll selection now) with
    | none =>
      rw [(step_unseen hseen).2]
      exact h
    | some text =>
      obtain ⟨-, hheld, hsuppressor⟩ := step_seen hseen
      rw [Tracks, hheld, hsuppressor]
      exact w.clipboard.suppressor.observeLocal_lastObservedHash text now
  | apply text write now =>
    rcases step_apply w text write now with hsame | hwritten
    · rw [hsame]
      exact h
    · rw [hwritten]
      rfl

theorem Tracks.run (h : w.Tracks) (events : List Event) : (w.run events).Tracks := by
  induction events generalizing w with
  | nil => exact h
  | cons event events ih => exact ih (h.step event)

theorem Tracks.passes_iff (h : w.Tracks) (event : Event) : w.Passes event ↔ w.Clear event := by
  cases event with
  | poll selection now =>
    rw [Passes, Clear]
    cases hseen : w.seen (.poll selection now) with
    | none =>
      rw [(step_unseen hseen).1]
      simp
    | some text =>
      rw [(step_seen hseen).1]
      have hsends := w.clipboard.suppressor.observeLocal_iff text now
      rw [h] at hsends
      by_cases hheld : w.held = some text
      · have hkeeps : (w.clipboard.suppressor.observeLocal text now).1 = false := by
          rw [Bool.eq_false_iff, Ne, hsends, hheld]
          exact fun hsends => hsends.2 rfl
        simp [hkeeps, hheld]
      · rw [if_neg (Ne.symm hheld)]
        constructor
        · rintro hpasses _ ⟨⟩ -
          refine hsends.mp ?_
          by_contra hkeeps
          rw [if_neg hkeeps] at hpasses
          cases hpasses
        · intro hclear
          rw [if_pos (hsends.mpr (hclear text rfl hheld))]
  | apply text write now =>
    rw [Passes, Clear, iff_true]
    split <;> rfl

theorem agree_step {event : Event} (hagree : w.peer = w.held) (hpasses : w.Passes event) :
    (w.step event).peer = (w.step event).held := by
  cases event with
  | poll selection now =>
    show (w.sent _).or w.peer = (w.seen _).or w.held
    rw [hpasses]
    split
    next hsame =>
      rw [hsame, hagree, Option.none_or, Option.or_self]
    · rw [hagree]
  | apply text write now =>
    rcases step_apply w text write now with hsame | hwritten
    · rw [hsame]
      exact hagree
    · rw [hwritten]

end World

/-! ### Runs -/

theorem tracks_start (backend : ClipboardBackend) (echoPeriod : ℕ) :
    (World.start backend echoPeriod).Tracks := rfl

/-- **Host and peer converge just in the runs whose changes are all clear.** -/
theorem clipboard_converges_iff (backend : ClipboardBackend) (echoPeriod : ℕ)
    (events : List Event) :
    Converges (.start backend echoPeriod) events ↔
      History.Each (fun before event _ => ((World.start backend echoPeriod).run before).Clear event)
        events := by
  have hiff : ∀ before event, ((World.start backend echoPeriod).run before).Passes event ↔
      ((World.start backend echoPeriod).run before).Clear event :=
    fun before event => ((tracks_start backend echoPeriod).run before).passes_iff event
  constructor
  · intro h
    exact h.passes.imp fun before event _ => (hiff before event).mp
  · intro h
    have hpasses := h.imp fun before event _ => (hiff before event).mpr
    refine ⟨hpasses, ?_⟩
    intro before hbefore
    induction before using List.reverseRecOn with
    | nil => rfl
    | append_singleton before event ih =>
      obtain ⟨after, rfl⟩ := hbefore
      rw [World.run, List.foldl_append]
      refine World.agree_step (ih ?_) (hpasses before event after ?_)
      · exact ⟨event :: after, by simp⟩
      · simp

/-- The user copies `b`, and `a` again, within two seconds after `a` was written for the peer. -/
theorem copied_back :
    ¬ Converges (.start .x11 (2 * 1000 ^ 3)) [.apply "a" (.ok ()) 0,
      .poll ⟨.ok false, .ok [], .ok [], .ok (utf8 "b")⟩ (500 * 1000 ^ 2),
      .poll ⟨.ok false, .ok [], .ok [], .ok (utf8 "a")⟩ (1000 * 1000 ^ 2)] := by
  intro h
  have hagree := h.agree _ (List.prefix_refl _)
  revert hagree
  decide

end MahoRD.ClipboardLinux

/-
MahoRD/App/CommandContract.lean

What the commands of the shell share, and what the operations on it keep.

`send_input_guarded` looks at the stop flag and at the session in its slot, and
lets go of the lock; what the command does then it does to slots that a teardown
empties and a connect fills again.  `StillTrue` says of an operation that what
was looked at still holds where it is acted on; nothing in the code sees to that.
-/
import MahoRD.App.DesktopCommands
import MahoRD.App.Disconnect
import MahoRD.Lib.History
import MahoRD.Lib.RelyGuarantee

namespace MahoRD.DesktopCommands

open Threads (Contract Stable Spec)
open SessionCalls (Answer)

/-! ### The state -/

/-- What the commands share, and a record of what became of it. -/
structure Shared where
  lifecycle : Option ℕ
  /-- A disconnect has returned, and no connect has begun since. -/
  down : Bool
  session : Option SessionId
  sessionLock : Option ℕ
  stopMedia : Bool
  /-- The session that the runtime is for. -/
  tcpRuntime : Option SessionId
  runtimeLock : Option ℕ
  /-- The pairing id, and the session whose connect has left it. -/
  activePairing : Option (String × SessionId)
  /-- The session that is made next. -/
  next : SessionId
  sessions : SessionId → SessionCalls.Shared
  /-- The events that the stream of a session has taken. -/
  accepted : SessionId → List (Sender × InputEventType)
  /-- The session of a `send_input`, and the one whose runtime it has taken or
  replaced, or whose pairing id it has read to reconnect with. -/
  touched : List (SessionId × SessionId)

/-- A session that will not be ready again. -/
structure Over (c : SessionCalls.Shared) : Prop where
  cancelled : c.cancelled = true
  state : c.client.state ≠ .ready

namespace Shared

def new : Shared where
  lifecycle := none
  down := false
  session := none
  sessionLock := none
  stopMedia := false
  tcpRuntime := none
  runtimeLock := none
  activePairing := none
  next := 0
  sessions _ := .new
  accepted _ := []
  touched := []

/-- A `send_input` has come across what another session, or its own, has left. -/
def touch (s : Shared) : Option SessionId → Option SessionId → Shared
  | some input, some owner => { s with touched := s.touched ++ [(input, owner)] }
  | _, _ => s

/-- What `send_input_guarded` looks at. -/
def Guarded (s : Shared) (session : SessionId) : Prop :=
  s.stopMedia = false ∧ s.session = some session

instance (s : Shared) (session : SessionId) : Decidable (s.Guarded session) :=
  inferInstanceAs (Decidable (_ ∧ _))

/-- No teardown has reset the input of the session. -/
def Unreset (s : Shared) (session : SessionId) : Prop :=
  ∀ event, (Sender.teardown, event) ∉ s.accepted session

end Shared

/-- The lock is taken, if it is free. -/
def acquire (lock : Option ℕ) (t : ℕ) : Option (Option ℕ) :=
  match lock with
  | none => some (some t)
  | some _ => none

/-- An operation of the thread `t`; sessions do not keep here what a disconnect
has been over. -/
def perform (t : ℕ) : (o : Op) → Answer → Shared → Option (Reply o × Shared)
  | .lockLifecycle connects, _, s =>
    (acquire s.lifecycle t).map fun lifecycle =>
      ((), { s with lifecycle, down := s.down && !connects })
  | .unlockLifecycle disconnects, _, s =>
    some ((), { s with lifecycle := none, down := s.down || disconnects })
  | .setStopMedia stop, _, s => some ((), { s with stopMedia := stop })
  | .guard, _, s =>
    match s.sessionLock with
    | some _ => none
    | none =>
      some (if s.stopMedia then .error .inactive
        else match s.session with
          | none => .error .uninitialized
          | some session => .ok session, s)
  | .newSession, _, s =>
    match s.sessionLock with
    | some _ => none
    | none =>
      some (s.next, { s with
        session := some s.next
        next := s.next + 1
        sessions := Function.update s.sessions s.next .new
        accepted := Function.update s.accepted s.next [] })
  | .lockSession, _, s =>
    (acquire s.sessionLock t).map fun sessionLock => (s.session, { s with sessionLock })
  | .takeSession, _, s => some ((), { s with session := none, sessionLock := none })
  | .cancelConnect, _, s =>
    match s.sessionLock, s.session with
    | some _, _ => none
    | none, none => some ((), s)
    | none, some session =>
      some ((), { s with
        sessions := Function.update s.sessions session
          { s.sessions session with cancelled := true } })
  | .lockRuntime, _, s =>
    (acquire s.runtimeLock t).map fun runtimeLock => ((), { s with runtimeLock })
  | .takeRuntime input, _, s =>
    some (s.tcpRuntime, { s.touch input s.tcpRuntime with tcpRuntime := none })
  | .storeRuntime owner input, _, s =>
    some (s.tcpRuntime, { s.touch input s.tcpRuntime with tcpRuntime := some owner })
  | .unlockRuntime, _, s => some ((), { s with runtimeLock := none })
  | .readPairing input, _, s =>
    some (s.activePairing.map Prod.fst, s.touch (some input) (s.activePairing.map Prod.snd))
  | .setPairing id session, _, s => some ((), { s with activePairing := some (id, session) })
  | .send session sender event, answer, s =>
    if (s.sessions session).slots .tcp then
      match answer with
      | .failed error => some (.failed error, s)
      | answer =>
        some (answer, { s with
          accepted := Function.update s.accepted session
            (s.accepted session ++ [(sender, event)]) })
    else some (.failed .notReady, s)
  | .client session o, answer, s =>
    (SessionCalls.perform (.stop, t) o answer (s.sessions session)).map fun (r, c) =>
      (r, { s with sessions := Function.update s.sessions session c })
  | .await, answer, s => some (answer, s)

/-- What has been looked at still holds where it is acted on: the guard, where a
`send_input` presses a key or a button, reads the pairing id, takes or replaces
the runtime, or takes back the cancelled flag at the end of a stop; and the
cancelled flag, where a session becomes ready. -/
def StillTrue (s : Shared) (_ : ℕ) : Op → Answer → Prop
  | .readPairing session, _ | .takeRuntime (some session), _ | .storeRuntime _ (some session), _
  | .client session .restore, _ => s.Guarded session
  | .send session .command event, _ => event.isDown = true → s.Guarded session
  | .client session (.state f), _ =>
    (s.sessions session).client.state ≠ .ready → (f (s.sessions session).client).state = .ready →
      (s.sessions session).cancelled = false
  | _, _ => True

instance (s : Shared) (t : ℕ) (o : Op) (answer : Answer) : Decidable (StillTrue s t o answer) :=
  match o with
  | .readPairing session | .takeRuntime (some session) | .storeRuntime _ (some session)
  | .client session .restore => inferInstanceAs (Decidable (s.Guarded session))
  | .send session .command event =>
    inferInstanceAs (Decidable (event.isDown = true → s.Guarded session))
  | .client session (.state f) =>
    inferInstanceAs (Decidable ((s.sessions session).client.state ≠ .ready →
      (f (s.sessions session).client).state = .ready → (s.sessions session).cancelled = false))
  | .lockLifecycle _ | .unlockLifecycle _ | .setStopMedia _ | .guard | .newSession | .lockSession
  | .takeSession | .cancelConnect | .lockRuntime | .takeRuntime none | .storeRuntime _ none
  | .unlockRuntime | .setPairing _ _ | .send _ .teardown _ | .await
  | .client _ .isCancelled | .client _ .cancel | .client _ .readState | .client _ (.put _)
  | .client _ (.take _) | .client _ .lockRuntime | .client _ (.setRuntime _)
  | .client _ .unlockRuntime | .client _ .reconnecting | .client _ .await | .client _ .transfer
  | .client _ .shutdown => isTrue trivial

/-! ### The contract -/

/-- Every session but the one in the slot is over. -/
def Shared.Past (s : Shared) : Prop :=
  ∀ A < s.next, s.session ≠ some A → Over (s.sessions A)

/-- No key or button that a `send_input` presses comes after a reset. -/
def Released (before : List (Sender × InputEventType)) (e : Sender × InputEventType)
    (_ : List (Sender × InputEventType)) : Prop :=
  e.1 = .command → e.2.isDown = true → (Sender.teardown, InputEventType.reset) ∉ before

structure Inv (s : Shared) : Prop where
  owner : ∀ A, s.tcpRuntime = some A → s.session = some A
  latest : ∀ A, s.session = some A → s.next = A + 1
  pairing : ∀ id A, s.activePairing = some (id, A) → A < s.next
  unreset : ∀ A, s.Guarded A → s.Unreset A
  past : s.lifecycle = none → s.Past
  down : s.down = true →
    s.stopMedia = true ∧ s.session = none ∧ s.tcpRuntime = none ∧ s.Past
  touched : ∀ p ∈ s.touched, p.2 ≤ p.1
  released : ∀ A, History.Each Released (s.accepted A)

/-- What a thread that does not hold the lifecycle lock leaves to the one that does. -/
structure Leaves (s s' : Shared) : Prop where
  session : s'.session = s.session
  stopMedia : s'.stopMedia = s.stopMedia
  next : s'.next = s.next
  down : s'.down = s.down
  tcpRuntime : s.stopMedia = true → s.tcpRuntime = none → s'.tcpRuntime = none
  cancelled : ∀ A, s.session ≠ some A → (s.sessions A).cancelled = true →
    (s'.sessions A).cancelled = true
  ended : ∀ A, s.session ≠ some A → Over (s.sessions A) → Over (s'.sessions A)
  unreset : ∀ A, s.Unreset A → s'.Unreset A

theorem Leaves.refl (s : Shared) : Leaves s s :=
  ⟨rfl, rfl, rfl, rfl, fun _ h => h, fun _ _ h => h, fun _ _ h => h, fun _ h => h⟩

variable {s s' : Shared} {A : SessionId} {c : SessionCalls.Shared}

theorem Leaves.trans {s'' : Shared} (h : Leaves s s') (h' : Leaves s' s'') :
    Leaves s s'' where
  session := h'.session.trans h.session
  stopMedia := h'.stopMedia.trans h.stopMedia
  next := h'.next.trans h.next
  down := h'.down.trans h.down
  tcpRuntime hstop hnone := h'.tcpRuntime (h.stopMedia.trans hstop) (h.tcpRuntime hstop hnone)
  cancelled A hA hc := h'.cancelled A (h.session ▸ hA) (h.cancelled A hA hc)
  ended A hA ho := h'.ended A (h.session ▸ hA) (h.ended A hA ho)
  unreset A hu := h'.unreset A (h.unreset A hu)

/-- The holder of the lifecycle lock relies on what the others leave to it. -/
def Rely (t : ℕ) (s s' : Shared) : Prop :=
  s.lifecycle = some t → s'.lifecycle = some t ∧ Leaves s s'

def contract : Contract perform where
  allowed := StillTrue
  Inv := Inv
  Rely := Rely
  rely_refl _ s h := ⟨h, Leaves.refl s⟩
  rely_trans h h' ht := by
    obtain ⟨ht', hs⟩ := h ht
    obtain ⟨ht'', hs'⟩ := h' ht'
    exact ⟨ht'', hs.trans hs'⟩

/-! ### What the operations keep -/

theorem Shared.Past.later (h : s.Past) (hs : Leaves s s') : s'.Past := by
  intro A hA hne
  rw [hs.session] at hne
  exact hs.ended A hne (h A (hs.next ▸ hA) hne)

theorem Inv.later (h : Inv s) (hs : Leaves s s')
    (hlifecycle : s'.lifecycle = s.lifecycle) (htcp : s'.tcpRuntime = s.tcpRuntime)
    (hpairing : s'.activePairing = s.activePairing) (haccepted : s'.accepted = s.accepted)
    (htouched : s'.touched = s.touched) : Inv s' where
  owner A hA := by
    rw [htcp] at hA
    rw [hs.session]
    exact h.owner A hA
  latest A hA := by
    rw [hs.session] at hA
    rw [hs.next]
    exact h.latest A hA
  pairing id A hA := by
    rw [hpairing] at hA
    rw [hs.next]
    exact h.pairing id A hA
  unreset A hA := hs.unreset A
    (h.unreset A ⟨hs.stopMedia ▸ hA.1, hs.session ▸ hA.2⟩)
  past hnone := (h.past (hlifecycle ▸ hnone)).later hs
  down hdown := by
    obtain ⟨hstop, hsession, hnone, hpast⟩ := h.down (hs.down ▸ hdown)
    exact ⟨hs.stopMedia.trans hstop, hs.session.trans hsession, htcp.trans hnone, hpast.later hs⟩
  touched p hp := h.touched p (htouched ▸ hp)
  released A := haccepted ▸ h.released A

theorem leaves_locks (s : Shared) (runtimeLock sessionLock : Option ℕ) :
    Leaves s { s with runtimeLock, sessionLock } :=
  ⟨rfl, rfl, rfl, rfl, fun _ h => h, fun _ _ h => h, fun _ _ h => h,
    fun _ h => h⟩

theorem Inv.locks (h : Inv s) (runtimeLock sessionLock : Option ℕ) :
    Inv { s with runtimeLock, sessionLock } :=
  h.later (leaves_locks s runtimeLock sessionLock) rfl rfl rfl rfl rfl

/-- One session changes; where it is not the one in the slot, it stays cancelled
and over. -/
theorem leaves_update
    (hcancelled : s.session ≠ some A → (s.sessions A).cancelled = true → c.cancelled = true)
    (hstate : s.session ≠ some A → Over (s.sessions A) → c.client.state ≠ .ready) :
    Leaves s { s with sessions := Function.update s.sessions A c } where
  session := rfl
  stopMedia := rfl
  next := rfl
  down := rfl
  tcpRuntime _ h := h
  cancelled B hB h := by
    show (Function.update s.sessions A c B).cancelled = true
    by_cases heq : B = A
    · subst heq
      rw [Function.update_self]
      exact hcancelled hB h
    · rw [Function.update_of_ne heq]
      exact h
  ended B hB h := by
    show Over (Function.update s.sessions A c B)
    by_cases heq : B = A
    · subst heq
      rw [Function.update_self]
      exact ⟨hcancelled hB h.cancelled, hstate hB h⟩
    · rw [Function.update_of_ne heq]
      exact h
  unreset _ h := h

theorem Inv.update (h : Inv s)
    (hs : Leaves s { s with sessions := Function.update s.sessions A c }) :
    Inv { s with sessions := Function.update s.sessions A c } :=
  h.later hs rfl rfl rfl rfl rfl

/-- Only a restored flag is not cancelled any more, and only a section of the state's lock makes
a session ready. -/
theorem client_step {t : SessionCalls.Thread} {o : SessionCalls.Op} {answer : Answer}
    {r : SessionCalls.Reply o} {c' : SessionCalls.Shared}
    (h : SessionCalls.perform t o answer c = some (r, c')) :
    (o ≠ .restore → c.cancelled = true → c'.cancelled = true) ∧
      (c'.client.state = c.client.state ∨
        ∃ f, o = .state f ∧ c'.client.state = (f c.client).state) := by
  have hpass : ∀ (c : SessionCalls.Shared) part,
      (c.pass t part).cancelled = c.cancelled ∧ (c.pass t part).client = c.client := by
    intro c part
    unfold SessionCalls.Shared.pass
    split <;> exact ⟨rfl, rfl⟩
  cases o with
  | isCancelled | readState | reconnecting | await | transfer | shutdown | put _ | setRuntime _
  | unlockRuntime =>
    cases h
    exact ⟨fun _ hc => hc, Or.inl rfl⟩
  | cancel =>
    cases h
    exact ⟨fun _ _ => (hpass _ _).1, Or.inl (congrArg _ (hpass _ _).2)⟩
  | restore =>
    cases h
    exact ⟨fun hne => absurd rfl hne, Or.inl rfl⟩
  | take slot =>
    cases h
    exact ⟨fun _ hc => (hpass _ _).1.trans hc, Or.inl (congrArg _ (hpass _ _).2)⟩
  | lockRuntime =>
    simp only [SessionCalls.perform] at h
    split at h
    · cases h
      exact ⟨fun _ hc => hc, Or.inl rfl⟩
    · cases h
  | state f =>
    simp only [SessionCalls.perform] at h
    split at h
    · cases h
      exact ⟨fun _ hc => (hpass _ _).1.trans hc,
        Or.inr ⟨f, rfl, congrArg _ (hpass _ _).2⟩⟩
    · cases h
      exact ⟨fun _ hc => hc, Or.inr ⟨f, rfl, rfl⟩⟩

theorem leaves_client {o : SessionCalls.Op} {t : ℕ} {answer : Answer}
    {r : SessionCalls.Reply o} (hc : StillTrue s t (.client A o) answer)
    (h : SessionCalls.perform (.stop, t) o answer (s.sessions A) = some (r, c)) :
    Leaves s { s with sessions := Function.update s.sessions A c } := by
  obtain ⟨hcancelled, hstate⟩ := client_step h
  -- a restore is guarded, so it is of the session in the slot; a section that makes a session
  -- ready finds its flag clear, so that the session is not over
  refine leaves_update (fun hne => hcancelled ?_) fun hne hover => ?_
  · rintro rfl
    exact hne (show s.Guarded A from hc).2
  · rcases hstate with heq | ⟨f, rfl, heq⟩
    · rw [heq]
      exact hover.state
    · intro hready
      have hclear : (s.sessions A).cancelled = false := hc hover.state (heq ▸ hready)
      exact absurd hover.cancelled (by rw [hclear]; exact Bool.false_ne_true)

/-! ### Operations without the lifecycle lock -/

/-- The operations that keep everything whoever performs them; a `send_input` stores the
runtime of its own session. -/
def Free : Op → Prop
  | .guard | .lockRuntime | .unlockRuntime | .takeRuntime (some _) | .readPairing _
  | .send _ .command _ | .client _ _ | .cancelConnect | .await => True
  | .storeRuntime owner input => input = some owner
  | _ => False

theorem leaves_touch (s : Shared) (input owner : Option SessionId) : Leaves s (s.touch input owner) := by
  rcases input with - | input
  · exact Leaves.refl s
  rcases owner with - | owner
  · exact Leaves.refl s
  · exact ⟨rfl, rfl, rfl, rfl, fun _ h => h, fun _ _ h => h, fun _ _ h => h,
      fun _ h => h⟩

theorem Inv.touch (h : Inv s) {input : SessionId} {owner : Option SessionId}
    (howner : ∀ A, owner = some A → A ≤ input) : Inv (s.touch (some input) owner) := by
  rcases owner with - | owner
  · exact h
  · refine { h with touched := fun p hp => ?_ }
    rcases List.mem_append.mp hp with hp | hp
    · exact h.touched p hp
    · rw [List.mem_singleton.mp hp]
      exact howner owner rfl

theorem leaves_runtime {runtime : Option SessionId}
    (h : s.stopMedia = true → runtime = none) : Leaves s { s with tcpRuntime := runtime } :=
  ⟨rfl, rfl, rfl, rfl, fun hstop _ => h hstop, fun _ _ h => h,
    fun _ _ h => h, fun _ h => h⟩

/-- The runtime in the slot is for the session in the slot, and there is none after a
disconnect. -/
theorem Inv.runtime (h : Inv s) (runtime : Option SessionId)
    (howner : ∀ A, runtime = some A → s.session = some A) : Inv { s with tcpRuntime := runtime } where
  owner := howner
  latest := h.latest
  pairing := h.pairing
  unreset := h.unreset
  past := h.past
  down hdown := by
    obtain ⟨hstop, hsession, -, hpast⟩ := h.down hdown
    refine ⟨hstop, hsession, ?_, hpast⟩
    rcases runtime with - | A
    · rfl
    · exact absurd (howner A rfl) (by rw [hsession]; nofun)
  touched := h.touched
  released := h.released

theorem leaves_send {event : InputEventType} :
    Leaves s { s with
      accepted := Function.update s.accepted A (s.accepted A ++ [(.command, event)]) } where
  session := rfl
  stopMedia := rfl
  next := rfl
  down := rfl
  tcpRuntime _ h := h
  cancelled _ _ h := h
  ended _ _ h := h
  unreset B h e he := by
    by_cases heq : B = A
    · subst heq
      simp only [Function.update_self, List.mem_append, List.mem_singleton] at he
      rcases he with he | he
      · exact h e he
      · cases he
    · simp only [Function.update_of_ne heq] at he
      exact h e he

theorem Inv.send (h : Inv s) {e : Sender × InputEventType}
    (hunreset : e.1 = .teardown → s.stopMedia = true) (he : Released (s.accepted A) e []) :
    Inv { s with accepted := Function.update s.accepted A (s.accepted A ++ [e]) } where
  owner := h.owner
  latest := h.latest
  pairing := h.pairing
  unreset B hB event hevent := by
    have hold := h.unreset B hB
    by_cases heq : B = A
    · subst heq
      simp only [Function.update_self, List.mem_append, List.mem_singleton] at hevent
      rcases hevent with hevent | rfl
      · exact hold event hevent
      · -- a reset is sent by a teardown, and then no input is guarded
        have hstop : s.stopMedia = true := hunreset rfl
        rw [show s.stopMedia = false from hB.1] at hstop
        cases hstop
    · simp only [Function.update_of_ne heq] at hevent
      exact hold event hevent
  past := h.past
  down := h.down
  touched := h.touched
  released B := by
    show History.Each Released (Function.update s.accepted A (s.accepted A ++ [e]) B)
    by_cases heq : B = A
    · subst heq
      rw [Function.update_self]
      exact (h.released B).concat he
    · rw [Function.update_of_ne heq]
      exact h.released B

theorem free_step {t : ℕ} {o : Op} {answer : Answer} {r : Reply o} (ho : Free o)
    (h : Inv s) (hc : StillTrue s t o answer) (hs : perform t o answer s = some (r, s')) :
    Inv s' ∧ s'.lifecycle = s.lifecycle ∧ Leaves s s' := by
  cases o with
  | await =>
    cases hs
    exact ⟨h, rfl, Leaves.refl s⟩
  | guard =>
    simp only [perform] at hs
    split at hs
    · cases hs
    · cases hs
      exact ⟨h, rfl, Leaves.refl s⟩
  | lockRuntime =>
    simp only [perform, Option.map_eq_some_iff] at hs
    obtain ⟨lock, -, hs⟩ := hs
    cases hs
    exact ⟨h.locks _ _, rfl, leaves_locks s _ _⟩
  | unlockRuntime =>
    cases hs
    exact ⟨h.locks _ _, rfl, leaves_locks s _ _⟩
  | cancelConnect =>
    simp only [perform] at hs
    split at hs
    · cases hs
    · cases hs
      exact ⟨h, rfl, Leaves.refl s⟩
    next A _ _ =>
      cases hs
      have hl := leaves_update (A := A) (c := { s.sessions A with cancelled := true })
        (fun _ _ => rfl) fun _ hover => hover.state
      exact ⟨h.update hl, rfl, hl⟩
  | client A o =>
    simp only [perform, Option.map_eq_some_iff] at hs
    obtain ⟨⟨r', c⟩, hclient, hs⟩ := hs
    cases hs
    have hl := leaves_client hc hclient
    exact ⟨h.update hl, rfl, hl⟩
  | readPairing input =>
    cases hs
    refine ⟨h.touch fun A hA => ?_, ?_, leaves_touch s _ _⟩
    · -- the guarded session is the latest one
      obtain ⟨⟨id, B⟩, hpairing, rfl⟩ := Option.map_eq_some_iff.mp hA
      have hold : B < s.next := h.pairing id B hpairing
      have hnext : s.next = input + 1 := h.latest input (show s.Guarded input from hc).2
      exact Nat.lt_succ_iff.mp (hold.trans_eq hnext)
    · cases s.activePairing <;> rfl
  | takeRuntime input =>
    rcases input with - | input
    · cases ho
    cases hs
    have htouch : Inv (s.touch (some input) s.tcpRuntime) := by
      refine h.touch fun A hA => ?_
      have hsession := (h.owner A hA).symm.trans (show s.Guarded input from hc).2
      exact (Option.some.inj hsession).le
    refine ⟨htouch.runtime none nofun, ?_,
      (leaves_touch s _ _).trans (leaves_runtime fun _ => rfl)⟩
    cases s.tcpRuntime <;> rfl
  | storeRuntime owner input =>
    obtain rfl : input = some owner := ho
    cases hs
    have hguarded : s.Guarded owner := hc
    have htouch : Inv (s.touch (some owner) s.tcpRuntime) := by
      refine h.touch fun A hA => ?_
      exact (Option.some.inj ((h.owner A hA).symm.trans hguarded.2)).le
    have hl := leaves_touch s (some owner) s.tcpRuntime
    -- while a teardown relies on the empty slot, its stop flag keeps the guard from holding
    refine ⟨htouch.runtime (some owner) fun A hA => ?_, ?_,
      hl.trans (leaves_runtime fun hstop => ?_)⟩
    · rw [hl.session, ← hA]
      exact hguarded.2
    · cases s.tcpRuntime <;> rfl
    · rw [hl.stopMedia, hguarded.1] at hstop
      cases hstop
  | send A sender event =>
    rcases sender with - | -
    · simp only [perform] at hs
      split at hs
      · split at hs
        · cases hs
          exact ⟨h, rfl, Leaves.refl s⟩
        · cases hs
          refine ⟨h.send nofun fun _ hdown hreset => ?_, rfl, leaves_send⟩
          exact h.unreset A (hc hdown) _ hreset
      · cases hs
        exact ⟨h, rfl, Leaves.refl s⟩
    · cases ho
  | lockLifecycle _ | unlockLifecycle _ | setStopMedia _ | newSession | lockSession | takeSession
  | setPairing _ _ => cases ho

variable {t : ℕ} {P : Shared → Prop}

/-- What a thread knows for good it still knows after such an operation of its own. -/
theorem free_spec (hP : Stable contract t P) {o : Op} (ho : Free o) :
    Spec contract t P o fun _ => P := by
  intro s answer r s' h hi hc hs
  obtain ⟨hi', hlifecycle, hl⟩ := free_step ho hi hc hs
  have hrely : ∀ u, Rely u s s' := fun u hu => ⟨hlifecycle.trans hu, hl⟩
  exact ⟨⟨hi', fun u _ => hrely u⟩, hP h (hrely t)⟩

end MahoRD.DesktopCommands

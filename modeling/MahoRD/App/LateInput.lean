/-
MahoRD/App/LateInput.lean

A `send_input` against the `connect`s and `disconnect`s of the same `AppState`,
interleaved in any way.

A teardown empties the slots one by one, and each stage says what the holder of
the lifecycle lock knows then.  That what a `send_input` and a handshake have
looked at still holds where they act on it, nothing in the code sees to.
-/
import MahoRD.App.CommandContract

namespace MahoRD.DesktopCommands

open Threads (Prog Pool Keeps Stable Spec Sound)
open SessionCalls (Answer)

variable {t : ℕ} {P : Shared → Prop}

/-! ### What the holder of the lifecycle lock knows -/

structure Holding (t : ℕ) (down : Bool) (s : Shared) : Prop where
  lifecycle : s.lifecycle = some t
  down : s.down = down
  past : s.Past

/-- A teardown that has set the stop flag. -/
structure Stopping (t : ℕ) (down : Bool) (s : Shared) : Prop extends Holding t down s where
  stopMedia : s.stopMedia = true

/-- It has emptied the slot of the runtime, and `x` is in the slot of the session. -/
structure Emptied (t : ℕ) (down : Bool) (x : Option SessionId) (s : Shared) : Prop extends
    Stopping t down s where
  tcpRuntime : s.tcpRuntime = none
  session : s.session = x

/-- It has taken the session `x`, which is not over yet. -/
structure Taken (t : ℕ) (down : Bool) (x : Option SessionId) (s : Shared) : Prop where
  lifecycle : s.lifecycle = some t
  down : s.down = down
  stopMedia : s.stopMedia = true
  tcpRuntime : s.tcpRuntime = none
  session : s.session = none
  others : ∀ A < s.next, x ≠ some A → Over (s.sessions A)

/-- It has set the cancelled flag of that session. -/
structure Cancelling (t : ℕ) (down : Bool) (A : SessionId) (s : Shared) : Prop extends
    Taken t down (some A) s where
  cancelled : (s.sessions A).cancelled = true

/-- A connect that has published its session, whose input nobody has reset. -/
structure Published (t : ℕ) (A : SessionId) (s : Shared) : Prop extends Holding t false s where
  session : s.session = some A
  unreset : s.Unreset A

/-- Its stop flag is still set and its runtime not stored. -/
structure Fresh (t : ℕ) (A : SessionId) (s : Shared) : Prop extends Published t A s where
  stopMedia : s.stopMedia = true
  tcpRuntime : s.tcpRuntime = none

section Stages

variable {down : Bool} {x : Option SessionId} {A : SessionId}

theorem Holding.stable : Stable contract t (Holding t down) := by
  intro s s' h hs
  obtain ⟨ht, hl⟩ := hs h.lifecycle
  exact ⟨ht, hl.down.trans h.down, h.past.later hl⟩

theorem Stopping.stable : Stable contract t (Stopping t down) := by
  intro s s' h hs
  obtain ⟨-, hl⟩ := hs h.lifecycle
  exact ⟨Holding.stable h.toHolding hs, hl.stopMedia.trans h.stopMedia⟩

theorem Emptied.stable : Stable contract t (Emptied t down x) := by
  intro s s' h hs
  obtain ⟨-, hl⟩ := hs h.lifecycle
  exact ⟨Stopping.stable h.toStopping hs, hl.tcpRuntime h.stopMedia h.tcpRuntime,
    hl.session.trans h.session⟩

theorem emptied_stable : Stable contract t fun s => ∃ x, Emptied t down x s := by
  rintro s s' ⟨x, h⟩ hs
  exact ⟨x, Emptied.stable h hs⟩

theorem Taken.stable : Stable contract t (Taken t down x) := by
  intro s s' h hs
  obtain ⟨ht, hl⟩ := hs h.lifecycle
  refine ⟨ht, hl.down.trans h.down, hl.stopMedia.trans h.stopMedia,
    hl.tcpRuntime h.stopMedia h.tcpRuntime, hl.session.trans h.session, fun B hB hne => ?_⟩
  exact hl.ended B (by rw [h.session]; nofun) (h.others B (hl.next ▸ hB) hne)

theorem Cancelling.stable : Stable contract t (Cancelling t down A) := by
  intro s s' h hs
  obtain ⟨-, hl⟩ := hs h.lifecycle
  exact ⟨Taken.stable h.toTaken hs, hl.cancelled A (by rw [h.session]; nofun) h.cancelled⟩

theorem Published.stable : Stable contract t (Published t A) := by
  intro s s' h hs
  obtain ⟨-, hl⟩ := hs h.lifecycle
  exact ⟨Holding.stable h.toHolding hs, hl.session.trans h.session, hl.unreset A h.unreset⟩

theorem Fresh.stable : Stable contract t (Fresh t A) := by
  intro s s' h hs
  obtain ⟨-, hl⟩ := hs h.lifecycle
  exact ⟨Published.stable h.toPublished hs, hl.stopMedia.trans h.stopMedia,
    hl.tcpRuntime h.stopMedia h.tcpRuntime⟩

theorem Taken.holding {s : Shared} (h : Taken t down none s) : Holding t down s :=
  ⟨h.lifecycle, h.down, fun A hA _ => h.others A hA nofun⟩

theorem guarantee {s s' : Shared} (ht : s.lifecycle = some t) (h : Inv s') :
    contract.Guarantee t s s' := by
  refine ⟨h, fun u hne hu => ?_⟩
  exact absurd (Option.some.inj (hu.symm.trans ht)) hne

/-! ### Its operations -/

theorem setStopMedia_spec : Spec contract t (Holding t down) (.setStopMedia true)
    fun _ => Stopping t down := by
  intro s answer r s' h hi _ hs
  cases hs
  refine ⟨guarantee h.lifecycle ?_, ⟨h.lifecycle, h.down, h.past⟩, rfl⟩
  exact { hi with
    unreset := fun A hA => nomatch hA.1
    down := fun hdown => ⟨rfl, (hi.down hdown).2⟩ }

theorem takeRuntime_spec : Spec contract t (Stopping t down) (.takeRuntime none)
    fun _ s => ∃ x, Emptied t down x s := by
  intro s answer r s' h hi _ hs
  cases hs
  refine ⟨guarantee h.lifecycle (hi.runtime none nofun), s.session, ?_⟩
  exact ⟨⟨⟨h.lifecycle, h.down, h.past⟩, h.stopMedia⟩, rfl, rfl⟩

theorem lockSession_spec : Spec contract t (fun s => ∃ x, Emptied t down x s) .lockSession
    fun x => Emptied t down x := by
  rintro s answer r s' ⟨x, h⟩ hi _ hs
  simp only [perform, Option.map_eq_some_iff] at hs
  obtain ⟨lock, -, hs⟩ := hs
  cases hs
  refine ⟨guarantee h.lifecycle (hi.locks _ _), ?_⟩
  exact ⟨⟨⟨h.lifecycle, h.down, h.past⟩, h.stopMedia⟩, h.tcpRuntime, rfl⟩

theorem reset_spec {event : InputEventType} :
    Spec contract t (Emptied t down x) (.send A .teardown event) fun _ => Emptied t down x := by
  intro s answer r s' h hi _ hs
  simp only [perform] at hs
  split at hs
  · split at hs
    · cases hs
      exact ⟨guarantee h.lifecycle hi, h⟩
    · cases hs
      refine ⟨guarantee h.lifecycle (hi.send (fun _ => h.stopMedia) (by rintro ⟨⟩)), ?_⟩
      exact ⟨⟨⟨h.lifecycle, h.down, h.past⟩, h.stopMedia⟩, h.tcpRuntime, h.session⟩
  · cases hs
    exact ⟨guarantee h.lifecycle hi, h⟩

theorem takeSession_spec : Spec contract t (Emptied t down x) .takeSession
    fun _ => Taken t down x := by
  intro s answer r s' h hi _ hs
  cases hs
  have hothers : ∀ A < s.next, x ≠ some A → Over (s.sessions A) := fun A hA hne =>
    h.past A hA (h.session ▸ hne)
  -- the lock is held, so nobody else may ask yet whether every session is over
  refine ⟨guarantee h.lifecycle ?_,
    ⟨h.lifecycle, h.down, h.stopMedia, h.tcpRuntime, rfl, hothers⟩⟩
  exact {
    owner := fun A hA => absurd (h.tcpRuntime.symm.trans hA) nofun
    latest := nofun
    pairing := hi.pairing
    unreset := fun A hA => nomatch hA.2
    past := fun hnone => absurd (h.lifecycle.symm.trans hnone) nofun
    down := fun hdown => by
      obtain ⟨hstop, hsession, hnone, hpast⟩ := hi.down hdown
      exact ⟨hstop, rfl, hnone, fun A hA _ => hpast A hA (by rw [hsession]; nofun)⟩
    touched := hi.touched
    released := hi.released }

theorem newSession_spec : Spec contract t (Taken t false none) .newSession
    fun A => Fresh t A := by
  intro s answer r s' h hi _ hs
  simp only [perform] at hs
  split at hs
  · cases hs
  cases hs
  have hpast : ∀ A < s.next + 1, some s.next ≠ some A →
      Over (Function.update s.sessions s.next .new A) := by
    intro A hA hne
    have hne : A ≠ s.next := fun heq => hne (heq ▸ rfl)
    rw [Function.update_of_ne hne]
    exact h.others A (Nat.lt_of_le_of_ne (Nat.lt_succ_iff.mp hA) hne) (by rintro ⟨⟩)
  -- the stop flag is still set: no input is guarded yet, and the session has got nothing
  have hunreset : ∀ event, (Sender.teardown, event) ∉
      Function.update s.accepted s.next [] s.next := by
    simp
  refine ⟨guarantee h.lifecycle ?_, ⟨⟨h.lifecycle, h.down, hpast⟩, rfl, hunreset⟩, h.stopMedia,
    h.tcpRuntime⟩
  exact {
    owner := fun A hA => by cases h.tcpRuntime.symm.trans hA
    latest := fun A hA => congrArg (· + 1) (Option.some.inj hA)
    pairing := fun id A hA => Nat.lt_succ_of_lt (hi.pairing id A hA)
    unreset := fun A hA => by cases h.stopMedia.symm.trans hA.1
    past := fun hnone => by cases h.lifecycle.symm.trans hnone
    down := fun hdown => by cases h.down.symm.trans hdown
    touched := hi.touched
    released := fun A => by
      show History.Each Released (Function.update s.accepted s.next [] A)
      by_cases heq : A = s.next
      · rw [heq, Function.update_self]
        exact History.each_nil Released
      · rw [Function.update_of_ne heq]
        exact hi.released A }

theorem cancel_spec : Spec contract t (Taken t down (some A)) (.client A .cancel)
    fun _ => Cancelling t down A := by
  intro s answer r s' h hi hc hs
  obtain ⟨hg, h'⟩ := free_spec Taken.stable (o := .client A .cancel) trivial h hi hc hs
  refine ⟨hg, h', ?_⟩
  cases hs
  simp [SessionCalls.Shared.pass]

theorem disconnect_spec : Spec contract t (Cancelling t down A)
    (.client A (.state ClientState.disconnect)) fun _ => Taken t down none := by
  intro s answer r s' h hi hc hs
  obtain ⟨hg, h'⟩ :=
    free_spec Cancelling.stable (o := .client A (.state _)) trivial h hi hc hs
  refine ⟨hg, h'.lifecycle, h'.down, h'.stopMedia, h'.tcpRuntime, h'.session, fun B hB _ => ?_⟩
  by_cases heq : B = A
  · subst heq
    refine ⟨h'.cancelled, ?_⟩
    cases hs
    simp [ClientState.disconnect, SessionCalls.Shared.pass]
  · exact h'.others B hB fun hA => heq (Option.some.inj hA).symm

theorem storeRuntime_spec : Spec contract t (Fresh t A) (.storeRuntime A none)
    fun _ => Published t A := by
  intro s answer r s' h hi _ hs
  cases hs
  refine ⟨guarantee h.lifecycle (hi.runtime (some A) fun B hB => ?_), ?_⟩
  · exact h.session.trans hB
  · exact ⟨⟨h.lifecycle, h.down, h.past⟩, h.session, h.unreset⟩

theorem workerStopFlag_spec : Spec contract t (Published t A) (.setStopMedia false)
    fun _ => Published t A := by
  intro s answer r s' h hi _ hs
  cases hs
  refine ⟨guarantee h.lifecycle ?_, ⟨h.lifecycle, h.down, h.past⟩, h.session, h.unreset⟩
  exact { hi with
    unreset := fun B hB => Option.some.inj (h.session.symm.trans hB.2) ▸ h.unreset
    down := fun hdown => absurd (h.down.symm.trans hdown) nofun }

theorem setPairing_spec {id : String} : Spec contract t (Published t A) (.setPairing id A)
    fun _ => Published t A := by
  intro s answer r s' h hi _ hs
  cases hs
  refine ⟨guarantee h.lifecycle ?_, ⟨h.lifecycle, h.down, h.past⟩, h.session, h.unreset⟩
  refine { hi with pairing := fun id' B hB => ?_ }
  cases hB
  show A < s.next
  rw [hi.latest A h.session]
  exact Nat.lt_succ_self A

/-- Whoever gets the lifecycle lock finds every session over but the one in the slot. -/
theorem lockLifecycle_spec {connects : Bool} : Spec contract t (fun _ => True)
    (.lockLifecycle connects) fun _ s => ∃ down, (connects = true → down = false) ∧
      Holding t down s := by
  intro s answer r s' _ hi _ hs
  simp only [perform, Option.map_eq_some_iff] at hs
  obtain ⟨lock, hlock, hs⟩ := hs
  have hnone : s.lifecycle = none ∧ lock = some t := by
    rcases hl : s.lifecycle with - | u
    · rw [hl] at hlock
      exact ⟨rfl, (Option.some.inj hlock).symm⟩
    · rw [hl] at hlock
      cases hlock
  obtain ⟨hnone, rfl⟩ := hnone
  cases hs
  -- nobody held the lock, so nobody relies on what was left; a connect takes `down` back
  refine ⟨⟨?_, fun u _ hu => by cases hnone.symm.trans hu⟩, s.down && !connects, ?_,
    rfl, rfl, hi.past hnone⟩
  · exact { hi with
      past := by rintro ⟨⟩
      down := fun hdown => hi.down (Bool.and_eq_true_iff.mp hdown).1 }
  · rintro rfl
    exact Bool.and_false s.down

theorem disconnected_spec : Spec contract t (Taken t down none) (.unlockLifecycle true)
    fun _ _ => True := by
  intro s answer r s' h hi _ hs
  cases hs
  refine ⟨guarantee h.lifecycle ?_, trivial⟩
  exact { hi with
    past := fun _ => h.holding.past
    down := fun _ => ⟨h.stopMedia, h.session, h.tcpRuntime, h.holding.past⟩ }

theorem connected_spec : Spec contract t (Holding t false) (.unlockLifecycle false)
    fun _ _ => True := by
  intro s answer r s' h hi _ hs
  cases hs
  refine ⟨guarantee h.lifecycle ?_, trivial⟩
  exact { hi with
    past := fun _ => h.past
    down := fun hdown => hi.down (by simpa using hdown) }

end Stages

/-! ### Programs -/

section Programs

variable {F : Op → Prop}

theorem onSession_all {α : Type} (hF : ∀ A o, F (.client A o)) (A : SessionId)
    (p : SessionCalls.Program α) : (onSession A p).All F := by
  induction p with
  | ret a | raise e => trivial
  | op o k ih => exact ⟨hF A o, ih⟩

theorem forSome_all (x : Option SessionId)
    {f : SessionId → Program (Except Client.SessionError Unit)} (hf : ∀ A, (f A).All F) :
    (forSome x f).All F := by
  cases x with
  | none => trivial
  | some A => exact hf A

theorem orRaise_all {f : Client.SessionError → CommandError} (r : Except Client.SessionError Unit) :
    (orRaise f r).All F := by
  cases r <;> trivial

theorem sessionSendInput_all (hF : ∀ A o, F (.client A o)) (hawait : F .await) {A : SessionId}
    {sender : Sender} {event : InputEventType} (hsend : F (.send A sender event)) :
    (sessionSendInput A sender event).All F := by
  refine Prog.All.seq (Prog.All.one hawait) fun permitted => ?_
  split
  · refine Prog.All.seq (Prog.All.one (hF A _)) fun state => ?_
    split
    · exact ⟨hF A _, fun _ => ⟨hsend, fun _ => ⟨hF A _, fun _ => trivial⟩⟩⟩
    · trivial
  · trivial

theorem free_client (A : SessionId) (o : SessionCalls.Op) : Free (.client A o) := trivial

theorem stopRuntime_all (A : SessionId) : (stopRuntime A).All Free := by
  refine Prog.All.seq (Prog.All.one trivial) fun _ => ?_
  refine Prog.All.seq (Prog.All.one trivial) fun old => ?_
  refine Prog.All.seq (forSome_all old fun B => onSession_all free_client B _) fun _ => ?_
  exact Prog.All.one trivial

theorem storeRuntime_all (A : SessionId) : (storeRuntime A (some A)).All Free := by
  refine Prog.All.seq (Prog.All.one trivial) fun _ => ?_
  refine Prog.All.seq (Prog.All.one rfl) fun old => ?_
  refine Prog.All.seq (forSome_all old fun B => onSession_all free_client B _) fun _ => ?_
  exact Prog.All.one trivial

theorem sendInput_all (setting : Setting) (payload : Except String InputEventType) :
    (sendInput setting payload).All Free := by
  have hsend : ∀ A event, (sessionSendInput A .command event).All Free := fun _ _ =>
    sessionSendInput_all free_client trivial trivial
  refine Prog.All.seq (Prog.All.seq (Prog.All.one trivial) fun guarded => ?_) fun p => ?_
  · split
    · trivial
    · split <;> trivial
  obtain ⟨A, event⟩ := p
  have hretry : ∀ r : Unit, (do
      let sent ← sessionSendInput A .command event
      orRaise .retryFailed sent).All Free := fun _ =>
    Prog.All.seq (hsend A event) fun sent => orRaise_all sent
  refine Prog.All.seq (hsend A event) fun sent => ?_
  split
  · trivial
  split
  · refine Prog.All.seq (Prog.All.one trivial) fun pairing => ?_
    split
    · trivial
    refine Prog.All.seq (stopRuntime_all A) fun _ => ?_
    refine Prog.All.seq (onSession_all free_client A _) fun reconnected => ?_
    refine Prog.All.seq (orRaise_all reconnected) fun _ => ?_
    refine Prog.All.seq (onSession_all free_client A _) fun spawned => ?_
    split
    · exact Prog.All.seq (storeRuntime_all A) hretry
    · exact hretry ()
  · trivial

variable {down : Bool} {A : SessionId} {s : Shared}

/-- The session is over once its disconnect has come past the flag and the state. -/
theorem sessionDisconnect_keeps (h : Taken t down (some A) s) :
    Keeps contract t (fun _ => Taken t down none) (fun _ => Taken t down none)
      (onSession A SessionCalls.disconnect) s := by
  have hfree : ∀ o, Free (.client A o) := free_client A
  refine Keeps.op Taken.stable (free_spec Taken.stable (hfree _)) h fun _ s h => ?_
  refine Keeps.op Taken.stable cancel_spec h fun _ s h => ?_
  refine Keeps.op Cancelling.stable (free_spec Cancelling.stable (hfree _)) h fun _ s h => ?_
  refine Keeps.op Cancelling.stable (free_spec Cancelling.stable (hfree _)) h fun _ s h => ?_
  refine Keeps.op Cancelling.stable disconnect_spec h fun _ s h => ?_
  exact (onSession_all free_client A _).keeps Taken.stable
    (fun _ ho => free_spec Taken.stable ho) h

theorem onSession_returns {α : Type} (A : SessionId) (p : SessionCalls.Program α) :
    (onSession A p).Returns := by
  induction p with
  | ret a | raise e => trivial
  | op o k ih => exact ih

theorem sessionSendInput_returns (A : SessionId) (sender : Sender) (event : InputEventType) :
    (sessionSendInput A sender event).Returns := by
  refine Prog.Returns.seq (Prog.Returns.one _) fun permitted => ?_
  split
  · refine Prog.Returns.seq (Prog.Returns.one _) fun state => ?_
    split
    · exact fun _ _ _ => trivial
    · trivial
  · trivial

variable {E : CommandError → Shared → Prop}

theorem resetSessionInputs_keeps {x : Option SessionId} (h : Emptied t down x s) (A : SessionId) :
    Keeps contract t (fun _ => Emptied t down x) E (resetSessionInputs A) s := by
  let F : Op → Prop := fun o => Free o ∨ ∃ event, o = .send A .teardown event
  have hall : (resetSessionInputs A).All F := by
    refine Prog.All.seq (Prog.All.one (Or.inl trivial)) fun state => ?_
    split
    · exact sessionSendInput_all (fun _ _ => Or.inl trivial) (Or.inl trivial) (Or.inr ⟨_, rfl⟩)
    · trivial
  have hreturns : (resetSessionInputs A).Returns := by
    refine Prog.Returns.seq (Prog.Returns.one _) fun state => ?_
    split
    · exact sessionSendInput_returns A _ _
    · trivial
  refine (hall.keeps Emptied.stable (fun o ho => ?_) h).returns hreturns
  rcases ho with ho | ⟨event, rfl⟩
  · exact free_spec Emptied.stable ho
  · exact reset_spec

/-- The calls of a session, where what the thread knows is not of that session. -/
theorem onSession_keeps {α : Type} (hP : Stable contract t P) (h : P s) (A : SessionId)
    (p : SessionCalls.Program α) :
    Keeps contract t (fun _ => P) E (onSession A p) s :=
  ((onSession_all free_client A p).keeps hP (fun _ ho => free_spec hP ho) h).returns
    (onSession_returns A p)

/-- A teardown leaves no runtime, no session in its slot and none that is not over. -/
theorem disconnectWithStop_keeps (h : Holding t down s) :
    Keeps contract t (fun _ => Taken t down none) (fun _ => Taken t down none)
      disconnectWithStop s := by
  refine Keeps.doing Holding.stable setStopMedia_spec h fun _ s h => ?_
  refine Keeps.doing Stopping.stable (free_spec (o := .lockRuntime) Stopping.stable trivial) h fun _ s h => ?_
  refine Keeps.doing Stopping.stable takeRuntime_spec h fun tcp s h => ?_
  refine Keeps.doing emptied_stable (free_spec (o := .unlockRuntime) emptied_stable trivial) h fun _ s h => ?_
  refine Keeps.doing emptied_stable (free_spec (o := .await) emptied_stable trivial) h fun audio s h => ?_
  refine Keeps.doing emptied_stable lockSession_spec h fun session s h => ?_
  -- the session is still in its slot: inputs may come across it, and the keys are released on it
  refine Keeps.seq (Q := fun _ => Emptied t down session) ?_ fun released s h => ?_
  · cases session with
    | none => exact Keeps.ret Emptied.stable h
    | some A => exact resetSessionInputs_keeps h A
  refine Keeps.doing Emptied.stable takeSession_spec h fun _ s h => ?_
  refine Keeps.seq (Q := fun _ => Taken t down none) ?_ fun disconnected s h => ?_
  · cases session with
    | none => exact Keeps.ret Taken.stable h
    | some A => exact (sessionDisconnect_keeps h).returns (onSession_returns A _)
  refine Keeps.seq (Q := fun _ => Taken t down none) ?_ fun stopped s h => ?_
  · cases tcp with
    | none => exact Keeps.ret Taken.stable h
    | some A => exact onSession_keeps Taken.stable h A _
  refine Keeps.doing Taken.stable (free_spec (o := .await) Taken.stable trivial) h fun joined s h => ?_
  split
  · exact Keeps.ret Taken.stable h
  · exact Keeps.raise Taken.stable h

/-- What may be performed at any time leaves what the thread knows; an error, part of it. -/
theorem free_keeps {α : Type} {P' : Shared → Prop} (hP : Stable contract t P) (h : P s)
    (hP' : ∀ s, P s → P' s) {p : Program α} (hp : p.All Free) :
    Keeps contract t (fun _ => P) (fun _ => P') p s :=
  (hp.keeps hP (fun _ ho => free_spec hP ho) h).weaken (fun _ _ h => h) fun _ => hP'

theorem attempt_all : attempt.All Free :=
  Prog.All.seq (Prog.All.one trivial) fun answer => orRaise_all (resultOf answer)

theorem authenticateClientSession_all (setting : Setting) (A : SessionId) (a : Attempt) :
    (authenticateClientSession setting A a).All Free := by
  refine Prog.All.seq attempt_all fun _ => ?_
  split
  · exact Prog.All.seq (onSession_all free_client A _) orRaise_all
  · exact Prog.All.seq (onSession_all free_client A _) orRaise_all

theorem storeRuntime_keeps (h : Fresh t A s) :
    Keeps contract t (fun _ => Published t A) E (storeRuntime A none) s := by
  refine Keeps.doing Fresh.stable (free_spec (o := .lockRuntime) Fresh.stable trivial) h
    fun _ s h => ?_
  refine Keeps.doing Fresh.stable storeRuntime_spec h fun old s h => ?_
  refine Keeps.seq (Q := fun _ => Published t A) ?_ fun _ s h => ?_
  · cases old with
    | none => exact Keeps.ret Published.stable h
    | some B => exact onSession_keeps Published.stable h B _
  exact Keeps.op Published.stable (free_spec (o := .unlockRuntime) Published.stable trivial) h
    fun _ _ h => Keeps.ret Published.stable h

/-- A connected session is in its slot, or a teardown is due; all others are over. -/
theorem connectSession_keeps (setting : Setting) (a : Attempt) (h : Taken t false none s) :
    Keeps contract t (fun _ => Holding t false) (fun _ => Holding t false)
      (connectSession setting a) s := by
  refine Keeps.seq (free_keeps Taken.stable h (fun _ => Taken.holding) attempt_all) fun _ s h => ?_
  refine Keeps.doing Taken.stable newSession_spec h fun A s h => ?_
  -- from here on an error leaves the session in its slot, for the teardown of the caller
  refine Keeps.seq (free_keeps Fresh.stable h (fun _ h => h.toHolding)
    (authenticateClientSession_all setting A a)) fun _ s h => ?_
  refine Keeps.doing Fresh.stable (free_spec (o := .await) Fresh.stable trivial) h
    fun remembered s h => ?_
  cases remembered with
  | failed error =>
    refine Keeps.seq (onSession_keeps Fresh.stable h A _) fun _ s h => ?_
    exact Keeps.raise Holding.stable h.toHolding
  | ok | pending | packet _ =>
    refine Keeps.seq (onSession_keeps Fresh.stable h A _) fun spawned s h => ?_
    refine Keeps.seq (free_keeps Fresh.stable h (fun _ h => h.toHolding) (orRaise_all spawned))
      fun _ s h => ?_
    refine Keeps.seq (storeRuntime_keeps h) fun _ s h => ?_
    refine Keeps.doing Published.stable (free_spec (o := .await) Published.stable trivial) h
      fun _ s h => ?_
    refine Keeps.doing Published.stable workerStopFlag_spec h fun _ s h => ?_
    refine Keeps.seq (free_keeps Published.stable h (fun _ h => h.toHolding) attempt_all)
      fun _ s h => ?_
    exact Keeps.op Published.stable setPairing_spec h fun _ _ h =>
      Keeps.ret Holding.stable h.toHolding

theorem connectCandidates_keeps (setting : Setting) (candidates : List Attempt)
    (h : Taken t false none s) :
    Keeps contract t (fun _ => Holding t false) (fun _ => Holding t false)
      (connectCandidates setting candidates) s := by
  induction candidates generalizing s with
  | nil => exact Keeps.ret Holding.stable h.holding
  | cons a candidates ih =>
    refine Keeps.seq (Keeps.outcome (R := fun _ => Holding t false)
      (connectSession_keeps setting a h)) fun result s h => ?_
    split
    · exact Keeps.ret Holding.stable h
    · -- the teardown leaves to the next candidate what the first one was given
      refine Keeps.seq (Keeps.outcome (R := fun _ => Taken t false none)
        (disconnectWithStop_keeps h)) fun _ s h => ?_
      exact ih h

theorem cleanup_keeps (error : CommandError) (h : Holding t false s) :
    Keeps contract t (fun _ => Holding t false) (fun _ => Holding t false) (cleanup error) s := by
  refine Keeps.seq (Keeps.outcome (R := fun _ => Taken t false none)
    (disconnectWithStop_keeps h)) fun result s h => ?_
  split
  · exact Keeps.raise Holding.stable h.holding
  · exact Keeps.raise Holding.stable h.holding

theorem connectLocked_keeps (setting : Setting) (first : Attempt) (candidates : List Attempt)
    (h : Holding t false s) :
    Keeps contract t (fun _ => Holding t false) (fun _ => Holding t false)
      (connectLocked setting first candidates) s := by
  refine Keeps.seq ((disconnectWithStop_keeps h).weaken (fun _ _ h => h) fun _ _ h => h.holding)
    fun _ s h => ?_
  refine Keeps.seq (free_keeps Taken.stable h (fun _ => Taken.holding) attempt_all) fun _ s h => ?_
  refine Keeps.seq (Keeps.outcome (R := fun _ => Holding t false)
    (connectSession_keeps setting first h)) fun result s h => ?_
  split
  · exact Keeps.ret Holding.stable h
  next error =>
  have hend : ∀ (connected : Bool) s, Holding t false s →
      Keeps contract t (fun _ => Holding t false) (fun _ => Holding t false)
        (if connected = true then pure () else cleanup error) s := by
    intro connected s h
    split
    · exact Keeps.ret Holding.stable h
    · exact cleanup_keeps error h
  refine Keeps.seq (Keeps.outcome (R := fun _ => Taken t false none)
    (disconnectWithStop_keeps h)) fun _ s h => ?_
  refine Keeps.doing Taken.stable (free_spec (o := .await) Taken.stable trivial) h
    fun refused s h => ?_
  cases refused with
  | ok => exact Keeps.seq (connectCandidates_keeps setting (candidates.take 2) h) hend
  | pending | failed _ | packet _ => exact Keeps.seq (Keeps.ret Holding.stable h.holding) hend

theorem any_stable : Stable contract t fun _ => True := fun h _ => h

theorem ofExcept_keeps (result : Except CommandError Unit) :
    Keeps contract t (fun _ _ => True) (fun _ _ => True) (.ofExcept result) s := by
  cases result
  · exact Keeps.raise any_stable trivial
  · exact Keeps.ret any_stable trivial

theorem connect_keeps (setting : Setting) (first : Attempt) (candidates : List Attempt) :
    Keeps contract t (fun _ _ => True) (fun _ _ => True) (connect setting first candidates) s := by
  refine Keeps.doing any_stable lockLifecycle_spec trivial fun _ s h => ?_
  obtain ⟨down, hdown, h⟩ := h
  obtain rfl := hdown rfl
  refine Keeps.seq (Keeps.outcome (R := fun _ => Holding t false)
    (connectLocked_keeps setting first candidates h)) fun result s h => ?_
  refine Keeps.doing Holding.stable connected_spec h fun _ s _ => ?_
  exact ofExcept_keeps result

theorem disconnect_keeps : Keeps contract t (fun _ _ => True) (fun _ _ => True) disconnect s := by
  refine Keeps.doing any_stable lockLifecycle_spec trivial fun _ s h => ?_
  obtain ⟨down, -, h⟩ := h
  refine Keeps.seq (Keeps.outcome (R := fun _ => Taken t down none)
    (disconnectWithStop_keeps h)) fun result s h => ?_
  refine Keeps.doing Taken.stable disconnected_spec h fun _ s _ => ?_
  exact ofExcept_keeps result

theorem background_keeps (p : SessionCalls.Program Unit) :
    Keeps contract t (fun _ _ => True) (fun _ _ => True) (background A p) s :=
  Keeps.seq (onSession_keeps any_stable trivial A p) fun _ _ _ => Keeps.ret any_stable trivial

theorem program_keeps (setting : Setting) (calls : ℕ → Call) (t : ℕ) (s : Shared) :
    Keeps contract t (fun _ _ => True) (fun _ _ => True) (program setting calls t) s := by
  rw [program]
  split
  · exact free_keeps any_stable trivial (fun _ h => h) (sendInput_all setting _)
  · exact connect_keeps setting _ _
  · exact disconnect_keeps
  · exact free_keeps any_stable trivial (fun _ h => h) (Prog.All.one (show Free .cancelConnect from trivial))
  · exact background_keeps _
  · exact background_keeps _
  · exact background_keeps _

end Programs

/-! ### Runs -/

/-- Nothing has been called. -/
def start : Pool ℕ Shared Op Reply CommandError Unit := ⟨.new, fun _ => none⟩

abbrev step (setting : Setting) (calls : ℕ → Call) := Threads.step perform (program setting calls)

/-- An input touches nothing of a later session; no key or button goes down on a
session after the reset of its disconnect; and after a disconnect, no runtime is
stored and no session is ready. -/
structure Harmless (s : Shared) : Prop where
  own : ∀ input owner, (input, owner) ∈ s.touched → ¬ input < owner
  released : ∀ session, History.Each Released (s.accepted session)
  down : s.down = true →
    s.tcpRuntime = none ∧ ∀ session < s.next, (s.sessions session).client.state ≠ .ready

theorem Inv.new : Inv Shared.new where
  owner := nofun
  latest := nofun
  pairing := nofun
  unreset _ hA := nomatch hA.2
  past _ A hA := absurd hA (Nat.not_lt_zero A)
  down := nofun
  touched := nofun
  released _ := History.each_nil Released

theorem Inv.harmless {s : Shared} (h : Inv s) : Harmless s where
  own input owner hp := Nat.not_lt.mpr (h.touched (input, owner) hp)
  released := h.released
  down hdown := by
    obtain ⟨-, hsession, hnone, hpast⟩ := h.down hdown
    exact ⟨hnone, fun A hA => (hpast A hA (by rw [hsession]; nofun)).state⟩

/-- **Late inputs are harmless** in every run in which what has been looked at
still holds where it is acted on. -/
theorem late_input (setting : Setting) (calls : ℕ → Call)
    {as : List (Threads.Action ℕ Answer)} {x : Pool ℕ Shared Op Reply CommandError Unit}
    (hc : Machine.Along (step setting calls) (Threads.Within StillTrue) start as)
    (hx : Machine.run (step setting calls) start as = some x) : Harmless x.shared := by
  have hsound : Sound contract (program setting calls) (fun _ _ _ => True) (fun _ _ _ => True)
      start := ⟨Inv.new, fun t => program_keeps setting calls t start.shared⟩
  exact (Threads.run_keeps hsound hc hx).inv.harmless

/-- A connect to each of two hosts, an input, a disconnect, and the end of the worker of the
first session's runtime. -/
def lateCalls : ℕ → Call
  | 0 => .connect ⟨"office", .stored⟩ []
  | 1 => .sendInput (.ok .keyDown)
  | 2 => .disconnect
  | 3 => .connect ⟨"home", .stored⟩ []
  | _ => .generationEnds 0

def lateSetting : Setting := ⟨1, fun _ => .owner⟩

/-- The next operations of a thread, as many as there are answers. -/
def goes (t : ℕ) (answers : List Answer) : List (Threads.Action ℕ Answer) :=
  answers.map (.go t)

/-- As many operations that go well. -/
def fine (n : ℕ) : List Answer := List.replicate n .ok

/-- A connect that is answered at every point; its teardown takes that many operations. -/
def connects (t teardown : ℕ) : List (Threads.Action ℕ Answer) :=
  .call t :: goes t
    (fine (teardown + 28) ++ Answer.packet (.handshakeAck false true false) :: fine 25)

set_option maxRecDepth 8000 in
/-- An input and a disconnect, one after the other. -/
theorem late_input_in_time :
    ∃ x, Machine.run (step lateSetting lateCalls) start
        (connects 0 9 ++ .call 1 :: goes 1 (fine 6) ++ .call 2 :: goes 2 (fine 29)) = some x ∧
      Harmless x.shared :=
  ⟨_, rfl, @late_input lateSetting lateCalls
    (connects 0 9 ++ .call 1 :: goes 1 (fine 6) ++ .call 2 :: goes 2 (fine 29)) _ (by decide) rfl⟩

/-- The input has looked at the first session. -/
def guarded : List (Threads.Action ℕ Answer) := connects 0 9 ++ .call 1 :: goes 1 (fine 1)

/-- Its send fails, as the worker has ended, and it reconnects the session up to
the operation that makes it ready. -/
def reconnects : List (Threads.Action ℕ Answer) :=
  .call 4 :: goes 4 (fine 5) ++ goes 1 (fine 5 ++ .pending :: fine 27 ++
    .packet (.handshakeAck false true false) :: fine 9)

set_option maxRecDepth 16000 in
theorem late_input_harmful :
    (∃ x, Machine.run (step lateSetting lateCalls) start
        (guarded ++ connects 3 28 ++ goes 1 (fine 5)) = some x ∧
      x.shared.touched = [(0, 1), (0, 1)] ∧ ¬ Harmless x.shared) ∧
    (∃ x, Machine.run (step lateSetting lateCalls) start
        (guarded ++ .call 2 :: goes 2 (fine 14) ++ goes 1 (fine 5)) = some x ∧
      x.shared.accepted 0 = [(.teardown, .reset), (.command, .keyDown)] ∧
      ¬ Harmless x.shared) ∧
    (∃ x, Machine.run (step lateSetting lateCalls) start
        (guarded ++ reconnects ++ .call 2 :: goes 2 (fine 21) ++ goes 1 (fine 1)) = some x ∧
      x.shared.down = true ∧ (x.shared.sessions 0).client.state = .ready ∧
      ¬ Harmless x.shared) ∧
    ∃ x, Machine.run (step lateSetting lateCalls) start
        (guarded ++ reconnects ++ goes 1 (fine 7) ++ .call 2 :: goes 2 (fine 26) ++
          goes 1 (fine 2)) = some x ∧
      x.shared.down = true ∧ x.shared.tcpRuntime = some 0 ∧ ¬ Harmless x.shared := by
  refine ⟨⟨_, rfl, rfl, fun h => ?_⟩, ⟨_, rfl, rfl, fun h => ?_⟩, ⟨_, rfl, rfl, rfl, fun h => ?_⟩,
    ⟨_, rfl, rfl, rfl, fun h => ?_⟩⟩
  · exact h.own 0 1 (List.mem_cons_self ..) (by decide)
  · exact h.released 0 [(.teardown, .reset)] (.command, .keyDown) [] rfl rfl rfl
      (List.mem_singleton.mpr rfl)
  · exact (h.down rfl).2 0 (by decide) rfl
  · exact nomatch (h.down rfl).1

end MahoRD.DesktopCommands

/-
MahoRD/App/Disconnect.lean

`disconnect` against the other calls of the same client session, interleaved in
any way.

A disconnect passes over the session part by part: the cancelled flag, the state,
the transport, the stream, the ciphers.  What it has passed stays clear as long
as nobody fills it again; once all parts are passed, the session is gone for
good, and no call that connects it gets beyond its first look at the flag.
-/
import MahoRD.App.SessionCalls

namespace MahoRD.SessionCalls

open Threads (Prog Pool Discipline Meets)

/-- What a disconnect puts an end to. -/
inductive Part
  | flag | state | slot (slot : Slot)
  deriving DecidableEq

/-- The shared part of a session.  `passed` says which of its parts some
disconnect has already been over. -/
structure Shared where
  cancelled : Bool
  client : ClientState
  slots : Slot → Bool
  running : Bool
  holder : Option Thread
  passed : Part → Bool

namespace Shared

def new : Shared := ⟨false, .new, fun _ => false, false, none, fun _ => false⟩

/-- A disconnect has been over a part. -/
def pass (s : Shared) (t : Thread) (part : Part) : Shared :=
  if t.1 = .disconnect then { s with passed := Function.update s.passed part true } else s

/-- The part is as a disconnect leaves it. -/
def Clear (s : Shared) : Part → Prop
  | .flag => s.cancelled = true
  | .state => s.client.state = .disconnected
  | .slot slot => s.slots slot = false

/-- What is left of a session after its disconnect. -/
structure Gone (s : Shared) : Prop where
  cancelled : s.cancelled = true
  state : s.client.state = .disconnected
  slots : ∀ slot, s.slots slot = false

end Shared

def perform (t : Thread) : (o : Op) → Answer → Shared → Option (Reply o × Shared)
  | .isCancelled, _, s => some (s.cancelled, s)
  | .cancel, _, s => some ((), { s with cancelled := true }.pass t .flag)
  | .restore, _, s => some ((), { s with cancelled := false })
  | .readState, _, s => some (s.client.state, s)
  | .state f, _, s =>
    let s := { s with client := f s.client }
    some ((), if s.client.state = .disconnected then s.pass t .state else s)
  | .put slot, _, s => some ((), { s with slots := Function.update s.slots slot true })
  | .take slot, _, s =>
    some (s.slots slot, { s with slots := Function.update s.slots slot false }.pass t (.slot slot))
  | .lockRuntime, _, s =>
    match s.holder with
    | none => some (s.running, { s with holder := some t })
    | some _ => none
  | .setRuntime running, _, s => some ((), { s with running })
  | .unlockRuntime, _, s => some ((), { s with holder := none })
  | .reconnecting, answer, s => some (decide (answer = .ok), s)
  | .await, answer, s => some (answer, s)
  | .transfer, answer, s => some (if s.slots .tcp then answer else .failed .notReady, s)
  | .shutdown, answer, s => some (answer, s)

/-- Nothing that a disconnect has been over is filled again: the flag is not
restored, the state is not set to anything but Disconnected, and nothing is
installed; and the shutdown of the stream does not fail. -/
def Orderly (s : Shared) (_ : Thread) : Op → Answer → Prop
  | .restore, _ => s.passed .flag = false
  | .state f, _ => s.passed .state = true → (f s.client).state = .disconnected
  | .put slot, _ => s.passed (.slot slot) = false
  | .shutdown, answer => shutdownError answer = none
  | _, _ => True

instance (s : Shared) (t : Thread) (o : Op) (answer : Answer) :
    Decidable (Orderly s t o answer) :=
  match o with
  | .restore => inferInstanceAs (Decidable (s.passed .flag = false))
  | .state f =>
    inferInstanceAs (Decidable (s.passed .state = true → (f s.client).state = .disconnected))
  | .put slot => inferInstanceAs (Decidable (s.passed (.slot slot) = false))
  | .shutdown => inferInstanceAs (Decidable (shutdownError answer = none))
  | .isCancelled | .cancel | .readState | .take _ | .lockRuntime | .setRuntime _
  | .unlockRuntime | .reconnecting | .await | .transfer => isTrue trivial

/-! ### What the operations keep -/

/-- What a disconnect has been over is clear. -/
def Inv (s : Shared) : Prop := ∀ part, s.passed part = true → s.Clear part

/-- What a disconnect has been over it has been over for good. -/
def Rely (s s' : Shared) : Prop := ∀ part, s.passed part = true → s'.passed part = true

variable {s s' : Shared} {o : Op} {parts : List Part}

theorem passed_pass {t : Thread} {part q : Part} :
    (s.pass t part).passed q = true ↔ s.passed q = true ∨ t.1 = .disconnect ∧ q = part := by
  unfold Shared.pass
  split
  next ht =>
    show Function.update s.passed part true q = true ↔ _
    by_cases heq : q = part
    · simp [heq, ht]
    · simp [heq]
  next ht => simp [ht]

theorem clear_pass {t : Thread} {part q : Part} :
    (s.pass t part).Clear q ↔ s.Clear q := by
  unfold Shared.pass
  split
  · cases q <;> rfl
  · exact Iff.rfl

/-- The parts that were passed before are clear after a step, and so is the one
that it passes, if it does. -/
theorem keeps_pass {t : Thread} {part : Part} (hpassed : s'.passed = s.passed)
    (hkept : ∀ q, s.passed q = true → s'.Clear q) (hpart : s'.Clear part) :
    Inv (s'.pass t part) ∧ Rely s (s'.pass t part) := by
  refine ⟨fun q hq => clear_pass.mpr ?_, fun q hq => passed_pass.mpr (Or.inl (hpassed ▸ hq))⟩
  rcases passed_pass.mp hq with hold | ⟨-, rfl⟩
  · exact hkept q (hpassed ▸ hold)
  · exact hpart

theorem keeps_clear (hpassed : s'.passed = s.passed)
    (hkept : ∀ q, s.passed q = true → s'.Clear q) : Inv s' ∧ Rely s s' :=
  ⟨fun q hq => hkept q (hpassed ▸ hq), fun _ hq => hpassed ▸ hq⟩

theorem keeps {t : Thread} {answer : Answer} {r : Reply o} (h : Inv s)
    (hc : Orderly s t o answer) (hs : perform t o answer s = some (r, s')) :
    Inv s' ∧ Rely s s' := by
  cases o with
  | isCancelled | readState | reconnecting | await | transfer | shutdown =>
    cases hs
    exact keeps_clear rfl h
  | cancel =>
    cases hs
    refine keeps_pass rfl (fun q hq => ?_) rfl
    cases q with
    | flag => rfl
    | state => exact h .state hq
    | slot slot => exact h (.slot slot) hq
  | restore =>
    cases hs
    refine keeps_clear rfl fun q hq => ?_
    cases q with
    | flag =>
      rw [show s.passed .flag = false from hc] at hq
      cases hq
    | state => exact h .state hq
    | slot slot => exact h (.slot slot) hq
  | state f =>
    have hkept : ∀ q, s.passed q = true → Shared.Clear { s with client := f s.client } q := by
      intro q hq
      cases q with
      | flag => exact h .flag hq
      | state => exact hc hq
      | slot slot => exact h (.slot slot) hq
    simp only [perform] at hs
    split at hs
    next hdisconnected =>
      cases hs
      exact keeps_pass rfl hkept hdisconnected
    · cases hs
      exact keeps_clear rfl hkept
  | put slot =>
    cases hs
    refine keeps_clear rfl fun q hq => ?_
    cases q with
    | flag => exact h .flag hq
    | state => exact h .state hq
    | slot slot' =>
      have hne : slot' ≠ slot := by
        rintro rfl
        rw [show s.passed (.slot slot') = false from hc] at hq
        cases hq
      show Function.update s.slots slot true slot' = false
      rw [Function.update_of_ne hne]
      exact h (.slot slot') hq
  | take slot =>
    cases hs
    refine keeps_pass rfl (fun q hq => ?_) ?_
    · cases q with
      | flag => exact h .flag hq
      | state => exact h .state hq
      | slot slot' =>
        show Function.update s.slots slot false slot' = false
        by_cases heq : slot' = slot
        · rw [heq, Function.update_self]
        · rw [Function.update_of_ne heq]
          exact h (.slot slot') hq
    · show Function.update s.slots slot false slot = false
      rw [Function.update_self]
  | lockRuntime =>
    simp only [perform] at hs
    split at hs
    · cases hs
      exact keeps_clear rfl h
    · cases hs
  | setRuntime running =>
    cases hs
    exact keeps_clear rfl h
  | unlockRuntime =>
    cases hs
    exact keeps_clear rfl h

def discipline : Discipline perform where
  allowed := Orderly
  Inv := Inv
  Rely := Rely
  rely_refl _ _ h := h
  rely_trans h h' part hp := h' part (h part hp)
  keeps := keeps

/-! ### A disconnect passes every part -/

/-- The parts in the list have been passed. -/
def Passed (parts : List Part) (s : Shared) : Prop := ∀ part ∈ parts, s.passed part = true

theorem Passed.later (h : Passed parts s) (hs : Rely s s') :
    Passed parts s' := fun part hp => hs part (h part hp)

theorem meets_pass {n : ℕ} {f : Reply o → Program Unit} (part : Part) {Q : Unit → Shared → Prop} {E : Client.SessionError → Shared → Prop} (h : Passed parts s)
    (hpart : ∀ answer r s₁ s₂, perform (.disconnect, n) o answer s₁ = some (r, s₂) →
      s₂.passed part = true)
    (hf : ∀ r s, Passed (part :: parts) s → Meets discipline (.disconnect, n) Q E (f r) s) :
    Meets discipline (.disconnect, n) Q E (invoke o >>= f) s := by
  refine Meets.doing fun s₁ hs₁ hi₁ answer r s₂ hc hr hi₂ hs₂ => hf r s₂ ?_
  refine List.forall_mem_cons.mpr ⟨hpart answer r s₁ s₂ hr, ?_⟩
  exact (h.later hs₁).later hs₂

theorem meets_go {t : Thread} {f : Reply o → Program Unit}
    {Q : Unit → Shared → Prop} {E : Client.SessionError → Shared → Prop}
    (h : Passed parts s) (hf : ∀ r s, Passed parts s → Meets discipline t Q E (f r) s) :
    Meets discipline t Q E (invoke o >>= f) s := by
  refine Meets.doing fun s₁ hs₁ hi₁ answer r s₂ hc hr hi₂ hs₂ => hf r s₂ ?_
  exact (h.later hs₁).later hs₂

theorem passed_take {n : ℕ} {slot : Slot} {answer : Answer} {r : Reply (.take slot)} (h : perform (.disconnect, n) (.take slot) answer s = some (r, s')) :
    s'.passed (.slot slot) = true := by
  cases h
  exact passed_pass.mpr (Or.inr ⟨rfl, rfl⟩)

/-- The parts in the order in which they are passed, last first. -/
def allParts : List Part :=
  [.slot .udpReceive, .slot .udpSend, .slot .tcp, .slot .udp, .state, .flag]

theorem perform_state {t : Thread} {f : ClientState → ClientState} {answer : Answer}
    {r : Reply (.state f)} (hf : (f s.client).state = .disconnected)
    (h : perform t (.state f) answer s = some (r, s')) :
    s' = { s with client := f s.client }.pass t .state := by
  simp only [perform, hf, if_true, Option.some.injEq] at h
  cases h
  rfl

theorem ciphers_meets (n : ℕ) (trace : Answer)
    (h : Passed [.slot .tcp, .slot .udp, .state, .flag] s) :
    Meets discipline (.disconnect, n) (fun _ => Passed allParts) (fun _ => Passed allParts)
      (do
        let _ ← take .udpSend
        let _ ← take .udpReceive
        unlessFailed trace) s := by
  refine meets_pass _ h (fun _ _ _ _ hr => passed_take hr) fun _ s h => ?_
  refine meets_pass _ h (fun _ _ _ _ hr => passed_take hr) fun _ s h => ?_
  exact Meets.stable (P := Passed allParts) Passed.later _ h

theorem disconnect_meets (n : ℕ) (s : Shared) :
    Meets discipline (.disconnect, n) (fun _ => Passed allParts) (fun _ => Passed allParts)
      disconnect s := by
  have hstart : Passed [] s := fun _ hp => nomatch hp
  refine meets_go hstart fun _ s h => ?_
  refine meets_pass .flag h (fun _ _ _ _ hr => ?_) fun _ s h => ?_
  · cases hr
    exact passed_pass.mpr (Or.inr ⟨rfl, rfl⟩)
  refine meets_go h fun _ s h => ?_
  refine meets_go h fun trace s h => ?_
  refine meets_pass .state h (fun _ _ _ _ hr => ?_) fun _ s h => ?_
  · rw [perform_state rfl hr]
    exact passed_pass.mpr (Or.inr ⟨rfl, rfl⟩)
  refine meets_pass _ h (fun _ _ _ _ hr => passed_take hr) fun _ s h => ?_
  refine meets_pass _ h (fun _ _ _ _ hr => passed_take hr) fun installed s h => ?_
  dsimp only
  split
  · -- there was a stream; its shutdown does not fail
    refine Meets.doing fun s₁ hs₁ _ answer r s₂ hc hr _ hs₂ => ?_
    obtain rfl : answer = r := by
      cases hr
      rfl
    rw [show shutdownError answer = none from hc]
    exact ciphers_meets n trace ((h.later hs₁).later hs₂)
  · exact ciphers_meets n trace h

/-! ### No call gets past the flag -/

/-- From a state in which a disconnect has set the flag the program does not
return. -/
def NeverReturns {α : Type} (t : Thread) (p : Program α) : Prop :=
  ∀ s, Inv s → Passed [.flag] s →
    Meets discipline t (fun _ _ => False) (fun _ _ => True) p s

variable {α β : Type} {t : Thread}

theorem NeverReturns.seq {p : Program α} (h : NeverReturns t p) (f : α → Program β) :
    NeverReturns t (p >>= f) :=
  fun s hi hs => Meets.seq (h s hi hs) hi fun _ _ _ hfalse => hfalse.elim

theorem NeverReturns.after (p : Program α) {f : α → Program β} (h : ∀ a, NeverReturns t (f a)) :
    NeverReturns t (p >>= f) := by
  intro s hi hs
  have hp : Meets discipline t (fun _ => Passed [.flag]) (fun _ _ => True) p s :=
    (Meets.stable (P := Passed [.flag]) Passed.later p hs).weaken (fun _ _ h => h)
      fun _ _ _ => trivial
  exact hp.seq hi fun a s hi hs => h a s hi hs

theorem checkCancelled_never : NeverReturns t checkCancelled := by
  intro s _ hs
  refine Meets.doing fun s₁ hs₁ hi₁ answer r s₂ _ hr _ _ => ?_
  have hcancelled : s₁.cancelled = true := hi₁ .flag ((hs.later hs₁) .flag (by simp))
  obtain rfl : s₁.cancelled = r := by
    cases hr
    rfl
  rw [hcancelled]
  exact fun _ _ _ => trivial

theorem withRuntime_never {body : Bool → Program α} (h : ∀ running, NeverReturns t (body running)) :
    NeverReturns t (withRuntime body) := by
  refine NeverReturns.after _ fun running s hi hs => ?_
  have hbody : Meets discipline t (fun r s => (∃ e, r = .error e)) (fun _ _ => True)
      (body running).outcome s :=
    Meets.outcome ((h running s hi hs).weaken (fun _ _ hfalse => hfalse.elim)
      fun e _ _ => ⟨e, rfl⟩)
  refine hbody.seq hi fun r s hi he => ?_
  obtain ⟨e, rfl⟩ := he
  exact Meets.doing fun _ _ _ _ _ _ _ _ _ _ _ _ _ => trivial

theorem connectWithPsk_never (rounds : ℕ) (next : SessionState) :
    NeverReturns t (connectWithPsk rounds next) :=
  withRuntime_never fun _ => NeverReturns.after _ fun _ => checkCancelled_never.seq _

theorem connectWithPairing_never (rounds : ℕ) (trust : PairingTrust) :
    NeverReturns t (connectWithPairing rounds trust) := checkCancelled_never.seq _

theorem connects_never (rounds : ℕ) {t : Thread} (h : t.1.connects = true) :
    NeverReturns t (program rounds t) := by
  obtain ⟨call, n⟩ := t
  cases call with
  | connectWithPairing trust => exact connectWithPairing_never rounds trust
  | pairWithPinAs preference =>
    refine NeverReturns.after _ fun _ => NeverReturns.after _ fun _ => ?_
    exact (connectWithPsk_never rounds _).seq _
  | reconnect trust =>
    exact NeverReturns.after _ fun _ => connectWithPairing_never rounds trust
  | automaticReconnect trust => exact checkCancelled_never.seq _
  | disconnect | stop | generationEnds | sessionEnded => cases h

/-! ### Runs -/

/-- A new session; nothing has been called. -/
def start : Pool Thread Shared Op Reply Client.SessionError Unit := ⟨.new, fun _ => none⟩

/-- A call, or the next operation of one. -/
abbrev step (rounds : ℕ) := Threads.step perform (program rounds)

theorem gone (hi : Inv s) (h : Passed allParts s) : s.Gone where
  cancelled := hi .flag (h .flag (by decide))
  state := hi .state (h .state (by decide))
  slots slot := hi (.slot slot) (h (.slot slot) (by cases slot <;> decide))

/-- The next operations of a thread, as many as there are answers. -/
def goes (t : Thread) (answers : List Answer) : List (Threads.Action Thread Answer) :=
  answers.map (.go t)

/-- A call that connects and is answered at every point. -/
def connects (t : Thread) : List (Threads.Action Thread Answer) :=
  .call t :: goes t (List.replicate 24 Answer.ok ++
    Answer.packet (.handshakeAck false true false) :: List.replicate 10 Answer.ok)

/-- A disconnect without errors; `steps` is one less if there is no stream. -/
def disconnects (steps : ℕ) : List (Threads.Action Thread Answer) :=
  .call (.disconnect, 0) :: goes (.disconnect, 0) (List.replicate steps .ok)

end MahoRD.SessionCalls

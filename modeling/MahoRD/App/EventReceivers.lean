/-
MahoRD/App/EventReceivers.lean

All who push to `RuntimeEvents` and receive from it (`maho-app/src/session.rs`).  The clones share
one lock and one condition variable.  Who waits there wakes when it is notified, when its time is
up, or for no reason at all, and then looks at the slots again.

Of what is pushed nothing else is lost than what newer things have replaced, whoever receives it
(`Delivered`).  A push notifies one of those who sleep, and that is enough: while somebody sleeps,
at least as many are about to wake as there are things to receive (`Awake`).
-/
import MahoRD.App.RuntimeEvents
import MahoRD.Lib.Machine

namespace MahoRD

inductive TryRecvError
  | empty | disconnected

inductive RecvError
  | recvError

namespace RuntimeEvents

def pending (s : RuntimeEvents) : Bool :=
  s.clipboard.isSome || s.ping || !s.streamConfig.isEmpty || s.error.isSome

def tryRecv (s : RuntimeEvents) : Except TryRecvError Item × RuntimeEvents :=
  match s.take with
  | some (item, s) => (.ok item, s)
  | none => (.error (if s.closed then .disconnected else .empty), s)

/-- The state of affairs when the wait ends. -/
def recv (s : RuntimeEvents) : Except RecvError Item × RuntimeEvents :=
  match s.take with
  | some (item, s) => (.ok item, s)
  | none => (.error .recvError, s)

end RuntimeEvents

namespace EventReceivers

/-- What a receiver gets, by the function that it has called. -/
inductive Answer
  | tryRecv (answer : Except TryRecvError Item)
  | recvTimeout (answer : Except RecvTimeoutError Item)
  | recv (answer : Except RecvError Item)

namespace Answer

def item : Answer → Option Item
  | tryRecv answer => answer.toOption
  | recvTimeout answer => answer.toOption
  | recv answer => answer.toOption

/-- `recv` has no other error. -/
def disconnected : Answer → Bool
  | tryRecv (.error .disconnected) | recvTimeout (.error .disconnected) | recv (.error _) => true
  | _ => false

end Answer

/-- A thread in `recv` (`forever`) or in `recv_timeout`. -/
structure Waiter where
  thread : ℕ
  forever : Bool
  deriving DecidableEq

namespace Waiter

/-- After the wait. -/
def receive (w : Waiter) (slots : RuntimeEvents) : Answer × RuntimeEvents :=
  if w.forever then (.recv slots.recv.1, slots.recv.2)
  else (.recvTimeout slots.recvTimeout.1, slots.recvTimeout.2)

end Waiter

/-- `asleep`: in the condition variable, not notified yet; `notified`: about to take the lock
again; `answered`: what each thread has got. -/
structure Shared where
  slots : RuntimeEvents
  asleep : List Waiter
  notified : List Waiter
  answered : List (ℕ × Answer)

/-- A thread gets the lock. -/
inductive Move
  /-- `woken`: whom `notify_one` wakes. -/
  | push (item : Item) (woken : Option Waiter)
  | close
  | tryRecv (thread : ℕ)
  /-- A call of `recv` or of `recv_timeout`; `expired`: its time is already up. -/
  | wait (w : Waiter) (expired : Bool)
  /-- Notified or not. -/
  | wake (w : Waiter) (expired : Bool)

namespace Shared

def new : Shared := ⟨.new, [], [], []⟩

def waits (s : Shared) (thread : ℕ) : Bool :=
  (s.asleep ++ s.notified).any fun w => w.thread == thread

/-- A round of `wait_while` and of `wait_timeout_while`. -/
def check (s : Shared) (w : Waiter) (expired : Bool) : Shared :=
  if !s.slots.pending && !s.slots.closed && (w.forever || !expired) then
    { s with asleep := s.asleep ++ [w] }
  else
    { s with
      slots := (w.receive s.slots).2
      answered := s.answered ++ [(w.thread, (w.receive s.slots).1)] }

/-- What all threads have received. -/
def received (s : Shared) : List Item := s.answered.filterMap fun answer => answer.2.item

end Shared

/-- A thread that waits calls nothing else. -/
def step (s : Shared) : Move → Option Shared
  | .push item none =>
    if s.asleep = [] then some { s with slots := s.slots.push item } else none
  | .push item (some w) =>
    if w ∈ s.asleep then
      some { s with
        slots := s.slots.push item
        asleep := s.asleep.erase w
        notified := s.notified ++ [w] }
    else none
  | .close =>
    some { s with slots := s.slots.close, asleep := [], notified := s.notified ++ s.asleep }
  | .tryRecv thread =>
    if s.waits thread then none
    else
      some { s with
        slots := s.slots.tryRecv.2
        answered := s.answered ++ [(thread, .tryRecv s.slots.tryRecv.1)] }
  | .wait w expired => if s.waits w.thread then none else some (s.check w expired)
  | .wake w expired =>
    if w ∈ s.notified then some ({ s with notified := s.notified.erase w }.check w expired)
    else if w ∈ s.asleep then some ({ s with asleep := s.asleep.erase w }.check w expired)
    else none

/-! ### Steps -/

def Move.item : Move → Option Item
  | push item _ => some item
  | _ => none

def pushed (moves : List Move) : List Item := moves.filterMap Move.item

/-- A receiver takes what there is to take, or is told that there is nothing. -/
inductive Gives (slots : RuntimeEvents) (answer : Answer) : RuntimeEvents → Prop
  | item {item : Item} {slots' : RuntimeEvents} (htake : slots.take = some (item, slots'))
      (hitem : answer.item = some item) (hopen : answer.disconnected = false) :
      Gives slots answer slots'
  | nothing (htake : slots.take = none) (hitem : answer.item = none)
      (hclosed : answer.disconnected = true → slots.closed = true) : Gives slots answer slots

open RuntimeEvents

theorem pending_iff (s : RuntimeEvents) : s.pending = true ↔ s.take ≠ none := by
  rw [Ne, take_eq_none, pending]
  rcases s.clipboard with - | text
  · rcases s.ping with - | -
    · rcases s.streamConfig with - | ⟨message, rest⟩
      · rcases s.error with - | error <;> simp
      · simp
    · simp
  · simp

theorem gives_tryRecv (slots : RuntimeEvents) :
    Gives slots (.tryRecv slots.tryRecv.1) slots.tryRecv.2 := by
  rw [tryRecv]
  cases htake : slots.take with
  | none =>
    refine .nothing htake rfl fun hdisconnected => ?_
    cases hclosed : slots.closed with
    | true => rfl
    | false =>
      rw [hclosed] at hdisconnected
      cases hdisconnected
  | some taken => exact .item htake rfl rfl

/-- `recv` ends its wait only when there is something, or when the events are closed. -/
theorem gives_receive (w : Waiter) (slots : RuntimeEvents)
    (h : w.forever = true → slots.take = none → slots.closed = true) :
    Gives slots (w.receive slots).1 (w.receive slots).2 := by
  rw [Waiter.receive]
  cases hforever : w.forever with
  | true =>
    rw [if_pos rfl, recv]
    cases htake : slots.take with
    | none => exact .nothing htake rfl fun _ => h hforever htake
    | some taken => exact .item htake rfl rfl
  | false =>
    rw [if_neg Bool.false_ne_true, recvTimeout]
    cases htake : slots.take with
    | none =>
      refine .nothing htake rfl fun hdisconnected => ?_
      cases hclosed : slots.closed with
      | true => rfl
      | false =>
        rw [hclosed] at hdisconnected
        cases hdisconnected
    | some taken => exact .item htake rfl rfl

theorem check_cases (s : Shared) (w : Waiter) (expired : Bool) :
    (s.slots.take = none ∧ s.slots.closed = false ∧
      s.check w expired = { s with asleep := s.asleep ++ [w] }) ∨
    ∃ answer slots, Gives s.slots answer slots ∧
      s.check w expired = { s with slots, answered := s.answered ++ [(w.thread, answer)] } := by
  rw [Shared.check]
  by_cases hsleeps : (!s.slots.pending && !s.slots.closed && (w.forever || !expired)) = true
  · rw [if_pos hsleeps]
    simp only [Bool.and_eq_true, Bool.not_eq_true'] at hsleeps
    obtain ⟨⟨hpending, hopen⟩, -⟩ := hsleeps
    have hnone : s.slots.take = none := by
      by_contra hsome
      rw [(pending_iff _).mpr hsome] at hpending
      cases hpending
    exact .inl ⟨hnone, hopen, rfl⟩
  · rw [if_neg hsleeps]
    refine .inr ⟨_, _, gives_receive w s.slots fun hforever hnone => ?_, rfl⟩
    by_contra hopen
    have hpending : s.slots.pending = false :=
      Bool.eq_false_iff.mpr fun hpending => (pending_iff _).mp hpending hnone
    rw [hpending, Bool.eq_false_iff.mpr hopen, hforever] at hsleeps
    exact hsleeps rfl

variable {s s' : Shared} {slots' : RuntimeEvents}

theorem step_slots {move : Move} (h : step s move = some s') :
    (∃ item, move.item = some item ∧ s'.slots = s.slots.push item ∧ s'.answered = s.answered) ∨
    (move.item = none ∧ (s'.slots = s.slots ∨ s'.slots = s.slots.close) ∧
      s'.answered = s.answered) ∨
    ∃ thread answer, move.item = none ∧ Gives s.slots answer s'.slots ∧
      s'.answered = s.answered ++ [(thread, answer)] := by
  have hcheck : ∀ {t : Shared} {w : Waiter} {expired : Bool}, t.slots = s.slots →
      t.answered = s.answered →
      ((t.check w expired).slots = s.slots ∧ (t.check w expired).answered = s.answered) ∨
      ∃ thread answer, Gives s.slots answer (t.check w expired).slots ∧
        (t.check w expired).answered = s.answered ++ [(thread, answer)] := by
    intro t w expired hslots hanswered
    rcases check_cases t w expired with ⟨-, -, hsleeps⟩ | ⟨answer, slots, hgives, hanswer⟩
    · rw [hsleeps]
      exact .inl ⟨hslots, hanswered⟩
    · rw [hanswer]
      refine .inr ⟨w.thread, answer, hslots ▸ hgives, ?_⟩
      show t.answered ++ _ = _
      rw [hanswered]
  cases move with
  | push item woken =>
    cases woken with
    | none =>
      obtain ⟨-, heq⟩ := Option.ite_none_right_eq_some.mp h
      cases heq
      exact .inl ⟨item, rfl, rfl, rfl⟩
    | some w =>
      obtain ⟨-, heq⟩ := Option.ite_none_right_eq_some.mp h
      cases heq
      exact .inl ⟨item, rfl, rfl, rfl⟩
  | close =>
    cases h
    exact .inr (.inl ⟨rfl, .inr rfl, rfl⟩)
  | tryRecv thread =>
    obtain ⟨-, heq⟩ := Option.ite_none_left_eq_some.mp h
    cases heq
    exact .inr (.inr ⟨thread, _, rfl, gives_tryRecv s.slots, rfl⟩)
  | wait w expired =>
    obtain ⟨-, heq⟩ := Option.ite_none_left_eq_some.mp h
    cases heq
    rcases hcheck (t := s) rfl rfl with ⟨hslots, hsame⟩ | ⟨thread, answer, hgives, hanswer⟩
    · exact .inr (.inl ⟨rfl, .inl hslots, hsame⟩)
    · exact .inr (.inr ⟨thread, answer, rfl, hgives, hanswer⟩)
  | wake w expired =>
    obtain ⟨t, hslots, hanswered, rfl⟩ : ∃ t : Shared, t.slots = s.slots ∧
        t.answered = s.answered ∧ t.check w expired = s' := by
      rw [step] at h
      by_cases hnotified : w ∈ s.notified
      · rw [if_pos hnotified] at h
        exact ⟨{ s with notified := s.notified.erase w }, rfl, rfl, Option.some.inj h⟩
      · rw [if_neg hnotified] at h
        obtain ⟨-, heq⟩ := Option.ite_none_right_eq_some.mp h
        exact ⟨{ s with asleep := s.asleep.erase w }, rfl, rfl, Option.some.inj heq⟩
    rcases hcheck hslots hanswered with ⟨hslots, hsame⟩ | ⟨thread, answer, hgives, hanswer⟩
    · exact .inr (.inl ⟨rfl, .inl hslots, hsame⟩)
    · exact .inr (.inr ⟨thread, answer, rfl, hgives, hanswer⟩)

/-! ### What is received -/

def events (items : List Item) : List SessionEvent := items.filterMap Except.toOption

def errors (items : List Item) : List Client.SessionError :=
  items.filterMap fun item => match item with
    | .error error => some error
    | .ok _ => none

@[simp] theorem events_ok (items : List Item) (event : SessionEvent) :
    events (items ++ [.ok event]) = events items ++ [event] := List.filterMap_append

@[simp] theorem events_error (items : List Item) (error : Client.SessionError) :
    events (items ++ [.error error]) = events items :=
  List.filterMap_append.trans (List.append_nil _)

@[simp] theorem errors_ok (items : List Item) (event : SessionEvent) :
    errors (items ++ [.ok event]) = errors items :=
  List.filterMap_append.trans (List.append_nil _)

@[simp] theorem errors_error (items : List Item) (error : Client.SessionError) :
    errors (items ++ [.error error]) = errors items ++ [error] := List.filterMap_append

/-- As `Kept`, with one place for an error. -/
structure Delivered (pushed received : List Item) (slots : RuntimeEvents) : Prop where
  events : Kept (events pushed) (events received) slots
  errors : Buffer.Kept 1 (errors pushed) (errors received) slots.error.toList

theorem delivered_new : Delivered [] [] .new := ⟨kept_new, Buffer.kept_nil 1⟩

theorem Delivered.push {pushed received : List Item} {slots : RuntimeEvents}
    (h : Delivered pushed received slots) (item : Item) :
    Delivered (pushed ++ [item]) received (slots.push item) := by
  obtain ⟨hevents, herrors⟩ := h
  cases item with
  | ok event =>
    have herror : (slots.push (.ok event)).error = slots.error := by cases event <;> rfl
    constructor
    · rw [events_ok]
      exact kept_push hevents event
    · rw [errors_ok, herror]
      exact herrors
  | error error =>
    constructor
    · rw [events_error]
      exact ⟨hevents.texts, hevents.pings, hevents.answers⟩
    · rw [errors_error]
      have hadd := herrors.add Nat.one_pos error
      cases herror : slots.error with
      | none => simpa [herror, RuntimeEvents.push, Buffer.add] using hadd
      | some old => simpa [herror, RuntimeEvents.push, Buffer.add] using hadd

theorem Delivered.take {pushed received : List Item} {slots : RuntimeEvents} {item : Item}
    (h : Delivered pushed received slots) (htake : slots.take = some (item, slots')) :
    Delivered pushed (received ++ [item]) slots' := by
  obtain ⟨hevents, herrors⟩ := h
  cases item with
  | ok event =>
    constructor
    · rw [events_ok]
      exact kept_take hevents htake
    · rw [errors_ok, error_take htake]
      exact herrors
  | error error =>
    -- an error is taken last
    obtain ⟨hspent, herror, rfl⟩ := spent_of_take_error htake
    rw [herror] at herrors
    constructor
    · rw [events_error]
      exact hevents.spent hspent ⟨hspent.clipboard, hspent.ping, hspent.streamConfig⟩
    · rw [errors_error]
      exact herrors.take

theorem Delivered.close {pushed received : List Item} {slots : RuntimeEvents}
    (h : Delivered pushed received slots) : Delivered pushed received slots.close :=
  ⟨⟨h.events.texts, h.events.pings, h.events.answers⟩, h.errors⟩

theorem Delivered.gives {pushed received : List Item} {slots : RuntimeEvents}
    {answer : Answer} (h : Delivered pushed received slots) (hgives : Gives slots answer slots') :
    Delivered pushed (received ++ answer.item.toList) slots' := by
  cases hgives with
  | item htake hitem _ =>
    rw [hitem]
    exact h.take htake
  | nothing _ hitem _ =>
    rw [hitem, Option.toList_none, List.append_nil]
    exact h

theorem received_concat {thread : ℕ} {answer : Answer}
    (h : s'.answered = s.answered ++ [(thread, answer)]) :
    s'.received = s.received ++ answer.item.toList := by
  rw [Shared.received, h, List.filterMap_append]
  cases hitem : answer.item with
  | none => simp [Shared.received, hitem]
  | some item => simp [Shared.received, hitem]

theorem Delivered.step {moves : List Move} {move : Move}
    (h : Delivered (pushed moves) s.received s.slots) (hstep : step s move = some s') :
    Delivered (pushed (moves ++ [move])) s'.received s'.slots := by
  rw [pushed, List.filterMap_append]
  rcases step_slots hstep with ⟨item, hitem, hslots, hsame⟩ | ⟨hitem, hslots, hsame⟩ |
    ⟨thread, answer, hitem, hgives, hanswer⟩
  · have hreceived : s'.received = s.received := by rw [Shared.received, hsame, Shared.received]
    rw [hreceived, hslots, List.filterMap_cons_some hitem]
    exact h.push item
  · have hreceived : s'.received = s.received := by rw [Shared.received, hsame, Shared.received]
    rw [hreceived, List.filterMap_cons_none hitem, List.filterMap_nil, List.append_nil]
    rcases hslots with hslots | hslots
    · rw [hslots]
      exact h
    · rw [hslots]
      exact h.close
  · rw [received_concat hanswer, List.filterMap_cons_none hitem, List.filterMap_nil,
      List.append_nil]
    exact h.gives hgives

/-! ### Who wakes -/

/-- How much there is to take. -/
def size (slots : RuntimeEvents) : ℕ :=
  slots.clipboard.toList.length + slots.ping.toNat + slots.streamConfig.length +
    slots.error.toList.length

/-- While somebody sleeps, as many are about to wake as there are things to take. -/
def Awake (s : Shared) : Prop :=
  s.asleep ≠ [] → s.slots.closed = false ∧ size s.slots ≤ s.notified.length

theorem size_push_le (slots : RuntimeEvents) (item : Item) :
    size (slots.push item) ≤ size slots + 1 := by
  cases item with
  | error error =>
    simp only [size, push, Option.toList_some, List.length_singleton]
    omega
  | ok event =>
    cases event with
    | clipboard text =>
      simp only [size, push, Option.toList_some, List.length_singleton]
      omega
    | ping =>
      simp only [size, push, Bool.toNat_true]
      omega
    | streamConfig message =>
      simp only [size, push, List.length_append, List.length_drop, List.length_singleton]
      omega
    | frame | audio | cursor | inputAck | ignored => exact Nat.le_succ _

theorem size_of_take {slots : RuntimeEvents} {item : Item}
    (h : slots.take = some (item, slots')) : size slots' + 1 = size slots := by
  rw [take] at h
  split at h
  next text hclipboard =>
    cases h
    simp [size, hclipboard]
    omega
  · split at h
    next hping =>
      cases h
      simp [size, hping]
      omega
    · split at h
      next message rest hmessages =>
        cases h
        simp [size, hmessages]
        omega
      · obtain ⟨error, herror, heq⟩ := Option.map_eq_some_iff.mp h
        cases heq
        simp [size, herror]

theorem size_of_take_none {slots : RuntimeEvents} (h : slots.take = none) : size slots = 0 := by
  obtain ⟨hclipboard, hping, hmessages, herror⟩ := take_eq_none.mp h
  simp [size, hclipboard, hping, hmessages, herror]

theorem Gives.closed {slots : RuntimeEvents} {answer : Answer}
    (h : Gives slots answer slots') : slots'.closed = slots.closed := by
  cases h with
  | item htake => exact closed_take htake
  | nothing => rfl

theorem Gives.size {slots : RuntimeEvents} {answer : Answer}
    (h : Gives slots answer slots') : size slots' = size slots - 1 := by
  cases h with
  | item htake => exact Nat.eq_sub_of_add_eq (size_of_take htake)
  | nothing htake => rw [size_of_take_none htake]

theorem awake_check
    (h : s.asleep ≠ [] → s.slots.closed = false ∧ size s.slots ≤ s.notified.length + 1)
    (w : Waiter) (expired : Bool) : Awake (s.check w expired) := by
  rcases check_cases s w expired with ⟨hnone, hopen, hsleeps⟩ | ⟨answer, slots, hgives, hanswer⟩
  · rw [hsleeps]
    intro _
    refine ⟨hopen, ?_⟩
    show size s.slots ≤ _
    rw [size_of_take_none hnone]
    exact Nat.zero_le _
  · rw [hanswer]
    intro hasleep
    obtain ⟨hopen, hsize⟩ := h hasleep
    refine ⟨hgives.closed.trans hopen, ?_⟩
    show size slots ≤ s.notified.length
    rw [hgives.size]
    omega

theorem Awake.step {move : Move} (h : Awake s) (hstep : step s move = some s') :
    Awake s' := by
  cases move with
  | push item woken =>
    cases woken with
    | none =>
      obtain ⟨hasleep, heq⟩ := Option.ite_none_right_eq_some.mp hstep
      cases heq
      exact fun hne => absurd hasleep hne
    | some w =>
      obtain ⟨hasleep, heq⟩ := Option.ite_none_right_eq_some.mp hstep
      cases heq
      intro _
      obtain ⟨hopen, hsize⟩ := h (List.ne_nil_of_mem hasleep)
      refine ⟨(closed_push s.slots item).trans hopen, ?_⟩
      have hpush := size_push_le s.slots item
      show size (s.slots.push item) ≤ (s.notified ++ [w]).length
      rw [List.length_append, List.length_singleton]
      omega
  | close =>
    cases hstep
    exact fun hne => absurd rfl hne
  | tryRecv thread =>
    obtain ⟨-, heq⟩ := Option.ite_none_left_eq_some.mp hstep
    cases heq
    intro hasleep
    obtain ⟨hopen, hsize⟩ := h hasleep
    have hgives := gives_tryRecv s.slots
    refine ⟨hgives.closed.trans hopen, ?_⟩
    show size s.slots.tryRecv.2 ≤ s.notified.length
    rw [hgives.size]
    omega
  | wait w expired =>
    obtain ⟨-, heq⟩ := Option.ite_none_left_eq_some.mp hstep
    cases heq
    exact awake_check (fun hasleep => (h hasleep).imp_right (Nat.le_succ_of_le ·)) w expired
  | wake w expired =>
    rw [EventReceivers.step] at hstep
    by_cases hnotified : w ∈ s.notified
    · rw [if_pos hnotified] at hstep
      cases hstep
      have hone : (s.notified.erase w).length + 1 = s.notified.length := by
        rw [List.length_erase_of_mem hnotified]
        exact Nat.sub_add_cancel (List.length_pos_of_mem hnotified)
      exact awake_check (s := { s with notified := s.notified.erase w })
        (fun hasleep => (h hasleep).imp_right hone.ge.trans') w expired
    · rw [if_neg hnotified] at hstep
      obtain ⟨hasleep, heq⟩ := Option.ite_none_right_eq_some.mp hstep
      cases heq
      exact awake_check (s := { s with asleep := s.asleep.erase w })
        (fun _ => (h (List.ne_nil_of_mem hasleep)).imp_right (Nat.le_succ_of_le ·)) w expired

/-! ### Runs -/

/-- An answer given now: a text is the newest, and whoever is told of the end has missed
nothing. -/
structure Answer.Timely (pushed : List Item) (slots : RuntimeEvents) (answer : Answer) : Prop where
  text : ∀ text, answer.item = some (.ok (.clipboard text)) →
    (texts (events pushed)).getLast? = some text
  error : ∀ error, answer.item = some (.error error) → (errors pushed).getLast? = some error
  disconnected : answer.disconnected = true → slots.closed = true ∧ slots.pending = false

theorem getLast?_of_kept {α : Type*} {put taken : List α} {a : α} {held : Option α}
    (h : Buffer.Kept 1 put taken held.toList) (hheld : held = some a) :
    put.getLast? = some a := by
  obtain ⟨before, hput⟩ := h.recent
  rw [← hput, hheld, Option.toList_some, List.getLast?_concat]

theorem take_text {slots : RuntimeEvents} {text : String}
    (h : slots.take = some (.ok (.clipboard text), slots')) : slots.clipboard = some text := by
  rw [take] at h
  split at h
  next hclipboard =>
    cases h
    exact hclipboard
  · split at h
    · cases h
    · split at h
      · cases h
      · obtain ⟨error, -, heq⟩ := Option.map_eq_some_iff.mp h
        cases heq

theorem Gives.timely {items received : List Item} {slots : RuntimeEvents} {answer : Answer}
    (hgives : Gives slots answer slots') (h : Delivered items received slots) :
    answer.Timely items slots := by
  cases hgives with
  | item htake hitem hopen =>
    refine ⟨fun text htext => ?_, fun error herror => ?_, fun hclosed => ?_⟩
    · rw [hitem] at htext
      cases htext
      exact getLast?_of_kept h.events.texts (take_text htake)
    · rw [hitem] at herror
      cases herror
      exact getLast?_of_kept h.errors (spent_of_take_error htake).2.1
    · rw [hopen] at hclosed
      cases hclosed
  | nothing htake hitem hclosed =>
    refine ⟨fun text htext => ?_, fun error herror => ?_, fun hdisconnected => ?_⟩
    · rw [hitem] at htext
      cases htext
    · rw [hitem] at herror
      cases herror
    · refine ⟨hclosed hdisconnected, ?_⟩
      exact Bool.eq_false_iff.mpr fun hpending => (pending_iff _).mp hpending htake

end EventReceivers
end MahoRD

/-
MahoRD/App/RuntimeEvents.lean

The event slots between the worker of a connection and whoever listens
(`RuntimeEvents` in `maho-app/src/session.rs`).  The newest clipboard text and one
ping are kept, and the newest sixteen answers about the stream; an error comes
last.

Of what is pushed nothing else is lost (`Kept`), and when an error or nothing at
all is taken, no event is left (`Spent`).

A session ends with a verdict: `SessionEnded` or an error.  If the last thing
pushed is a verdict, and nothing before it was, then the verdict is also the last
thing that a listener gets, and it gets one verdict only (`Carried`).
-/
import MahoRD.App.ClientState
import MahoRD.App.FrameQueue
import MahoRD.Lib.Buffer
import MahoRD.Proto.Control

namespace MahoRD

inductive SessionEvent
  | frame (frame : AssembledFrame) | audio (data : List UInt8) | cursor
  | clipboard (text : String) | streamConfig (message : ControlMessage)
  | inputAck (sequence : UInt32) (success : Bool) (errorCode : UInt8) | ping | ignored

abbrev Item := Except Client.SessionError SessionEvent

/-- Does the item end a session? -/
def Item.verdict : Item → Bool
  | .error _ | .ok (.streamConfig (.sessionEnded _)) => true
  | _ => false

structure RuntimeEvents where
  clipboard : Option String
  ping : Bool
  streamConfig : List ControlMessage
  error : Option Client.SessionError
  closed : Bool

namespace RuntimeEvents

/-- Retained stream-configuration results, oldest dropped past this bound. -/
def streamConfigSlots : ℕ := 16

def new : RuntimeEvents := ⟨none, false, [], none, false⟩

def close (s : RuntimeEvents) : RuntimeEvents := { s with closed := true }

def push (s : RuntimeEvents) : Item → RuntimeEvents
  | .ok (.clipboard text) => { s with clipboard := some text }
  | .ok .ping => { s with ping := true }
  | .ok (.streamConfig message) =>
    { s with
      streamConfig :=
        s.streamConfig.drop (if s.streamConfig.length ≥ streamConfigSlots then 1 else 0) ++
          [message] }
  | .error error => { s with error := some error }
  | .ok .ignored | .ok (.frame _) | .ok (.audio _) | .ok .cursor | .ok (.inputAck ..) => s

def take (s : RuntimeEvents) : Option (Item × RuntimeEvents) :=
  match s.clipboard with
  | some text => some (.ok (.clipboard text), { s with clipboard := none })
  | none =>
    if s.ping then some (.ok .ping, { s with ping := false })
    else
      match s.streamConfig with
      | message :: rest => some (.ok (.streamConfig message), { s with streamConfig := rest })
      | [] => s.error.map fun error => (.error error, { s with error := none })

/-- The state of affairs when the wait ends. -/
def recvTimeout (s : RuntimeEvents) : Except RecvTimeoutError Item × RuntimeEvents :=
  match s.take with
  | some (item, s) => (.ok item, s)
  | none => (.error (if s.closed then .disconnected else .timeout), s)

variable {s s' : RuntimeEvents}

theorem take_eq_none :
    s.take = none ↔ s.clipboard = none ∧ s.ping = false ∧ s.streamConfig = [] ∧ s.error = none := by
  unfold take
  rcases s.clipboard with - | text
  · rcases s.ping with - | -
    · rcases s.streamConfig with - | ⟨m, rest⟩
      · simp
      · simp
    · simp
  · simp

/-- What is taken: what comes before the answers, or an answer when there is
nothing of that, or the error when there is nothing else. -/
theorem take_cases {item : Item} (h : s.take = some (item, s')) :
    (item.verdict = false ∧ s'.streamConfig = s.streamConfig ∧ s'.error = s.error) ∨
    (s.clipboard = none ∧ s.ping = false ∧ ∃ m rest, s.streamConfig = m :: rest ∧
      item = .ok (.streamConfig m) ∧ s' = { s with streamConfig := rest }) ∨
    (s.clipboard = none ∧ s.ping = false ∧ s.streamConfig = [] ∧ ∃ e, s.error = some e ∧
      item = .error e ∧ s' = { s with error := none }) := by
  unfold take at h
  split at h
  · cases h
    exact Or.inl ⟨rfl, rfl, rfl⟩
  next hclipboard =>
    split at h
    · cases h
      exact Or.inl ⟨rfl, rfl, rfl⟩
    next hping =>
      have hping : s.ping = false := by simpa using hping
      split at h
      next m rest hmessages =>
        cases h
        exact Or.inr (Or.inl ⟨hclipboard, hping, m, rest, hmessages, rfl, rfl⟩)
      next hmessages =>
        obtain ⟨e, he, heq⟩ := Option.map_eq_some_iff.mp h
        cases heq
        exact Or.inr (Or.inr ⟨hclipboard, hping, hmessages, e, he, rfl, rfl⟩)

theorem closed_push (s : RuntimeEvents) (item : Item) : (s.push item).closed = s.closed := by
  rcases item with e | event
  · rfl
  · cases event <;> rfl

theorem closed_take {item : Item} (h : s.take = some (item, s')) :
    s'.closed = s.closed := by
  unfold take at h
  split at h
  · cases h
    rfl
  · split at h
    · cases h
      rfl
    · split at h
      · cases h
        rfl
      · obtain ⟨e, -, heq⟩ := Option.map_eq_some_iff.mp h
        cases heq
        rfl

theorem take_of_recvTimeout {item : Item}
    (h : s.recvTimeout = (.ok item, s')) : s.take = some (item, s') := by
  unfold recvTimeout at h
  split at h
  next htake =>
    cases h
    exact htake
  · cases h

theorem closed_of_recvTimeout (h : s.recvTimeout = (.error .disconnected, s')) :
    s.take = none ∧ s.closed = true := by
  unfold recvTimeout at h
  split at h
  · cases h
  next htake =>
    refine ⟨htake, ?_⟩
    rcases hc : s.closed with - | -
    · rw [hc] at h
      cases h
    · rfl

theorem error_take {event : SessionEvent}
    (h : s.take = some (.ok event, s')) : s'.error = s.error := by
  rcases take_cases h with ⟨-, -, he⟩ | ⟨-, -, m, rest, -, -, rfl⟩ | ⟨-, -, -, e, -, heq, -⟩
  · exact he
  · rfl
  · cases heq

/-! ### What is kept -/

def texts (events : List SessionEvent) : List String :=
  events.filterMap fun event => match event with
    | .clipboard text => some text
    | _ => none

def pings (events : List SessionEvent) : List Unit :=
  events.filterMap fun event => match event with
    | .ping => some ()
    | _ => none

def answers (events : List SessionEvent) : List ControlMessage :=
  events.filterMap fun event => match event with
    | .streamConfig message => some message
    | _ => none

/-- There is one place for a text, one for a ping, and sixteen for answers. -/
structure Kept (pushed taken : List SessionEvent) (s : RuntimeEvents) : Prop where
  texts : Buffer.Kept 1 (texts pushed) (texts taken) s.clipboard.toList
  pings : Buffer.Kept 1 (pings pushed) (pings taken) (List.replicate s.ping.toNat ())
  answers : Buffer.Kept streamConfigSlots (answers pushed) (answers taken) s.streamConfig

/-- No event is left; an error may be. -/
structure Spent (s : RuntimeEvents) : Prop where
  clipboard : s.clipboard = none
  ping : s.ping = false
  streamConfig : s.streamConfig = []

theorem kept_new : Kept [] [] new := ⟨Buffer.kept_nil 1, Buffer.kept_nil 1, Buffer.kept_nil _⟩

theorem kept_push {pushed taken : List SessionEvent} (h : Kept pushed taken s)
    (event : SessionEvent) : Kept (pushed ++ [event]) taken (s.push (.ok event)) := by
  obtain ⟨ht, hp, ha⟩ := h
  cases event with
  | clipboard text =>
    refine ⟨?_, by simpa [pings, push] using hp, by simpa [answers, push] using ha⟩
    have hadd := ht.add Nat.one_pos text
    rcases hc : s.clipboard with - | old
    · simpa [texts, hc, push, Buffer.add] using hadd
    · simpa [texts, hc, push, Buffer.add] using hadd
  | ping =>
    refine ⟨by simpa [texts, push] using ht, ?_, by simpa [answers, push] using ha⟩
    have hadd := hp.add Nat.one_pos ()
    rcases hping : s.ping with - | -
    · simpa [pings, hping, push, Buffer.add] using hadd
    · simpa [pings, hping, push, Buffer.add] using hadd
  | streamConfig message =>
    refine ⟨by simpa [texts, push] using ht, by simpa [pings, push] using hp, ?_⟩
    have hadd := ha.add (by decide) message
    simpa [answers, push, Buffer.add] using hadd
  | frame | audio | cursor | inputAck | ignored =>
    exact ⟨by simpa [texts, push] using ht, by simpa [pings, push] using hp,
      by simpa [answers, push] using ha⟩

theorem kept_take {pushed taken : List SessionEvent} {event : SessionEvent}
    (h : Kept pushed taken s) (ht : s.take = some (.ok event, s')) :
    Kept pushed (taken ++ [event]) s' := by
  obtain ⟨htexts, hpings, hanswers⟩ := h
  unfold take at ht
  split at ht
  next text hc =>
    cases ht
    rw [hc] at htexts
    exact ⟨by simpa [texts] using htexts.take, by simpa [pings] using hpings,
      by simpa [answers] using hanswers⟩
  next hc =>
    split at ht
    next hping =>
      cases ht
      rw [hping] at hpings
      exact ⟨by simpa [texts, hc] using htexts, by simpa [pings] using hpings.take,
        by simpa [answers] using hanswers⟩
    next hping =>
      have hping : s.ping = false := by simpa using hping
      split at ht
      next message rest hm =>
        cases ht
        rw [hm] at hanswers
        exact ⟨by simpa [texts, hc] using htexts, by simpa [pings, hping] using hpings,
          by simpa [answers] using hanswers.take⟩
      · obtain ⟨error, -, heq⟩ := Option.map_eq_some_iff.mp ht
        cases heq

theorem spent_of_take_none (h : s.take = none) : s.Spent := by
  obtain ⟨hc, hp, hm, -⟩ := take_eq_none.mp h
  exact ⟨hc, hp, hm⟩

theorem spent_of_take_error {error : Client.SessionError}
    (h : s.take = some (.error error, s')) :
    s.Spent ∧ s.error = some error ∧ s' = { s with error := none } := by
  rcases take_cases h with ⟨hv, -, -⟩ | ⟨-, -, m, rest, -, heq, -⟩ | ⟨hc, hp, hm, e, he, heq, hs⟩
  · cases hv
  · cases heq
  · obtain rfl := Except.error.inj heq
    exact ⟨⟨hc, hp, hm⟩, he, hs⟩

theorem Kept.spent {pushed taken : List SessionEvent}
    (h : Kept pushed taken s) (hs : s.Spent) (hs' : s'.Spent) : Kept pushed taken s' := by
  obtain ⟨ht, hp, ha⟩ := h
  rw [hs.clipboard] at ht
  rw [hs.ping] at hp
  rw [hs.streamConfig] at ha
  exact ⟨by rw [hs'.clipboard]; exact ht, by rw [hs'.ping]; exact hp,
    by rw [hs'.streamConfig]; exact ha⟩

/-! ### The verdict -/

/-- Answers about the stream that do not end the session. -/
def Plain (messages : List ControlMessage) : Prop :=
  ∀ m ∈ messages, Item.verdict (.ok (.streamConfig m)) = false

/-- No verdict is in the slots. -/
structure Quiet (s : RuntimeEvents) : Prop where
  error : s.error = none
  messages : Plain s.streamConfig

/-- The verdict is in the slots, and is the last item in them. -/
def Last (s : RuntimeEvents) : Item → Prop
  | .error e => s.error = some e ∧ Plain s.streamConfig
  | .ok (.streamConfig m) => s.error = none ∧ ∃ l, s.streamConfig = l ++ [m] ∧ Plain l
  | _ => False

/-- What was pushed, what was drained and what is in the slots, as far as the
verdict goes. -/
structure Carried (pushed drained : List Item) (s : RuntimeEvents) : Prop where
  before : (∀ i ∈ pushed, i.verdict = false) → s.Quiet ∧ ∀ i ∈ drained, i.verdict = false
  after : ∀ items v, pushed = items ++ [v] → v.verdict = true → (∀ i ∈ items, i.verdict = false) →
    (s.Last v ∧ ∀ i ∈ drained, i.verdict = false) ∨
      s.take = none ∧ ∃ d, drained = d ++ [v] ∧ ∀ i ∈ d, i.verdict = false

theorem carried_new : Carried [] [] new where
  before _ := ⟨⟨rfl, fun _ hm => nomatch hm⟩, fun _ hi => nomatch hi⟩
  after items v h := by simp at h

theorem plain_drop {messages : List ControlMessage} (h : Plain messages) (n : ℕ) :
    Plain (messages.drop n) := fun m hm => h m (List.mem_of_mem_drop hm)

theorem quiet_push (h : s.Quiet) {item : Item} (hi : item.verdict = false) :
    (s.push item).Quiet := by
  rcases item with e | event
  · cases hi
  · cases event with
    | streamConfig m =>
      refine ⟨h.error, fun m' hm' => ?_⟩
      rcases List.mem_append.mp hm' with hold | hnew
      · exact plain_drop h.messages _ m' hold
      · rw [List.mem_singleton.mp hnew]
        exact hi
    | clipboard | ping | frame | audio | cursor | inputAck | ignored => exact ⟨h.error, h.messages⟩

theorem last_push (h : s.Quiet) {item : Item} (hi : item.verdict = true) :
    (s.push item).Last item := by
  rcases item with e | event
  · exact ⟨rfl, h.messages⟩
  · cases event with
    | streamConfig m => exact ⟨h.error, _, rfl, plain_drop h.messages _⟩
    | clipboard | ping | frame | audio | cursor | inputAck | ignored => cases hi

theorem Carried.push {pushed drained : List Item}
    (h : Carried pushed drained s) (hp : ∀ i ∈ pushed, i.verdict = false) (item : Item) :
    Carried (pushed ++ [item]) drained (s.push item) := by
  obtain ⟨hquiet, hdrained⟩ := h.before hp
  refine ⟨fun hall => ⟨quiet_push hquiet (hall item (by simp)), hdrained⟩, ?_⟩
  intro items v heq hv _
  obtain ⟨-, hlast⟩ := List.append_inj' heq rfl
  obtain rfl : item = v := by simpa using hlast
  exact Or.inl ⟨last_push hquiet hv, hdrained⟩

theorem quiet_take (h : s.Quiet) {item : Item}
    (ht : s.take = some (item, s')) : s'.Quiet ∧ item.verdict = false := by
  rcases take_cases ht with ⟨hv, hm, he⟩ | ⟨-, -, m, rest, hm, rfl, rfl⟩ |
    ⟨-, -, -, e, he, -, -⟩
  · exact ⟨⟨he.trans h.error, hm ▸ h.messages⟩, hv⟩
  · have hplain := h.messages
    rw [hm] at hplain
    obtain ⟨hfirst, hrest⟩ := List.forall_mem_cons.mp hplain
    exact ⟨⟨h.error, hrest⟩, hfirst⟩
  · rw [h.error] at he
    cases he

theorem last_take {v item : Item} (h : s.Last v)
    (ht : s.take = some (item, s')) :
    (s'.Last v ∧ item.verdict = false) ∨ item = v ∧ s'.take = none := by
  rcases v with e | event
  · obtain ⟨he, hplain⟩ := h
    rcases take_cases ht with ⟨hv, hm, he'⟩ | ⟨-, -, m, rest, hm, rfl, rfl⟩ |
      ⟨hc, hp, hm, e', he', rfl, rfl⟩
    · exact Or.inl ⟨⟨he'.trans he, hm ▸ hplain⟩, hv⟩
    · rw [hm] at hplain
      obtain ⟨hfirst, hrest⟩ := List.forall_mem_cons.mp hplain
      exact Or.inl ⟨⟨he, hrest⟩, hfirst⟩
    · obtain rfl : e = e' := Option.some.inj (he.symm.trans he')
      exact Or.inr ⟨rfl, take_eq_none.mpr ⟨hc, hp, hm, rfl⟩⟩
  · cases event with
    | streamConfig m =>
      obtain ⟨he, l, hl, hplain⟩ := h
      rcases take_cases ht with ⟨hv, hm, he'⟩ | ⟨hc, hp, m', rest, hm, rfl, rfl⟩ |
        ⟨-, -, hm, -⟩
      · exact Or.inl ⟨⟨he'.trans he, l, hm.trans hl, hplain⟩, hv⟩
      · rcases l with - | ⟨first, l⟩
        · rw [hm] at hl
          obtain ⟨rfl, rfl⟩ := List.cons.inj hl
          exact Or.inr ⟨rfl, take_eq_none.mpr ⟨hc, hp, rfl, he⟩⟩
        · rw [hm] at hl
          obtain ⟨rfl, rfl⟩ := List.cons.inj hl
          obtain ⟨hfirst, hrest⟩ := List.forall_mem_cons.mp hplain
          exact Or.inl ⟨⟨he, l, rfl, hrest⟩, hfirst⟩
      · rw [hm] at hl
        simp at hl
    | clipboard | ping | frame | audio | cursor | inputAck | ignored => exact h.elim

theorem Carried.take {pushed drained : List Item} {item : Item}
    (h : Carried pushed drained s) (ht : s.take = some (item, s')) :
    Carried pushed (drained ++ [item]) s' := by
  refine ⟨fun hp => ?_, fun items v heq hv hitems => ?_⟩
  · obtain ⟨hquiet, hdrained⟩ := h.before hp
    obtain ⟨hquiet', hitem⟩ := quiet_take hquiet ht
    refine ⟨hquiet', fun i hi => ?_⟩
    rcases List.mem_append.mp hi with hold | hnew
    · exact hdrained i hold
    · rw [List.mem_singleton.mp hnew]
      exact hitem
  · rcases h.after items v heq hv hitems with ⟨hlast, hdrained⟩ | ⟨hnone, -⟩
    · rcases last_take hlast ht with ⟨hlast', hitem⟩ | ⟨rfl, hnone⟩
      · refine Or.inl ⟨hlast', fun i hi => ?_⟩
        rcases List.mem_append.mp hi with hold | hnew
        · exact hdrained i hold
        · rw [List.mem_singleton.mp hnew]
          exact hitem
      · exact Or.inr ⟨hnone, drained, rfl, hdrained⟩
    · rw [hnone] at ht
      cases ht

theorem Carried.close {pushed drained : List Item}
    (h : Carried pushed drained s) : Carried pushed drained s.close where
  before hp := ⟨⟨(h.before hp).1.error, (h.before hp).1.messages⟩, (h.before hp).2⟩
  after items v heq hv hi := by
    refine (h.after items v heq hv hi).imp (fun hlast => ?_) fun hnone => ?_
    · refine ⟨?_, hlast.2⟩
      rcases v with e | event
      · exact hlast.1
      · cases event <;> exact hlast.1
    · have hempty := take_eq_none.mp hnone.1
      exact ⟨take_eq_none.mpr hempty, hnone.2⟩

theorem Carried.drained {items drained : List Item} {v : Item}
    (h : Carried (items ++ [v]) drained s) (hv : v.verdict = true)
    (hitems : ∀ i ∈ items, i.verdict = false) (hnone : s.take = none) :
    ∃ d, drained = d ++ [v] ∧ ∀ i ∈ d, i.verdict = false := by
  rcases h.after items v rfl hv hitems with ⟨hlast, -⟩ | ⟨-, hd⟩
  · obtain ⟨-, -, hm, he⟩ := take_eq_none.mp hnone
    rcases v with e | event
    · have herror : s.error = some e := hlast.1
      rw [he] at herror
      cases herror
    · cases event with
      | streamConfig m =>
        obtain ⟨-, l, hl, -⟩ := hlast
        rw [hm] at hl
        simp at hl
      | clipboard | ping | frame | audio | cursor | inputAck | ignored => cases hv
  · exact hd

end RuntimeEvents
end MahoRD

/-
MahoRD/Host/LatestAudio.lean

The hand-off of native audio blocks to the UDP sender (`LatestAudio` in
`maho-host/src/native_pipeline.rs`, its producer and its consumer in
`session.rs`).  The recorder replaces the block in the slot and notifies the
sender, through the channel of all media events, when no notification is
pending.  Whoever takes the block ends the pending notification; so does the
recorder when the channel is full.

The sender looks at the permission first, and drops the notification where
audio is not allowed, without taking the block: then the notification stays
pending although nobody holds it, and the recorder never sends another one.
-/
import MahoRD.Lib.Machine

namespace MahoRD.Host

/-- `captured_at` in nanoseconds. -/
structure AudioBlock where
  pcm : List UInt8
  capturedAt : ℕ
  deriving DecidableEq

/-- The slot: the newest block, and whether a notification is pending. -/
structure LatestAudio where
  block : Option AudioBlock
  pending : Bool

namespace LatestAudio

def new : LatestAudio := ⟨none, false⟩

/-- `MAX_AGE`, 100 ms. -/
def maxAge : ℕ := 100 * 1000 * 1000

/-- The answer says whether a notification is to be sent. -/
def publish (l : LatestAudio) (block : AudioBlock) : Bool × LatestAudio :=
  if l.pending then (false, { l with block := some block }) else (true, ⟨some block, true⟩)

def notificationRejected (l : LatestAudio) : LatestAudio := { l with pending := false }

def takeFresh (l : LatestAudio) (now : ℕ) : Option AudioBlock × LatestAudio :=
  (l.block.filter fun block => now - block.capturedAt ≤ maxAge, ⟨none, false⟩)

theorem takeFresh_of_le {l : LatestAudio} {block : AudioBlock} {now : ℕ}
    (hblock : l.block = some block) (hfresh : now - block.capturedAt ≤ maxAge) :
    (l.takeFresh now).1 = some block := by
  rw [takeFresh, hblock, Option.filter_some_pos]
  exact decide_eq_true hfresh

end LatestAudio

namespace AudioHandOff

/-- A media event is the notification or one of the others. -/
inductive Event
  | nativeAudio | other
  deriving DecidableEq

/-- Where the recorder is. -/
inductive Producer
  | idle
  /-- `publish` has asked for a notification -/
  | notifying
  /-- `try_send` has found the channel full -/
  | rejected
  deriving DecidableEq

/-- Where the sender is. -/
inductive Consumer
  | idle
  /-- with a notification, before the test of `audio_allowed` -/
  | received
  /-- before `take_fresh` -/
  | taking
  deriving DecidableEq

/-- `published` and `sent` are the histories of the recorder and of `send_audio`. -/
structure State where
  slot : LatestAudio
  channel : List Event
  audioAllowed : Bool
  producer : Producer
  consumer : Consumer
  published : List AudioBlock
  sent : List AudioBlock

/-- The bound of the media channel. -/
def capacity : ℕ := 16

def start (audioAllowed : Bool) : State where
  slot := .new
  channel := []
  audioAllowed
  producer := .idle
  consumer := .idle
  published := []
  sent := []

inductive Action
  | publish (block : AudioBlock)
  | trySend
  | reject
  /-- another media event is put into the channel -/
  | other
  | receive
  | check
  | take (now : ℕ)
  | allow (audio : Bool)
  deriving DecidableEq

def step (s : State) : Action → Option State
  | .publish block =>
    if s.producer = .idle then
      let (ask, slot) := s.slot.publish block
      some { s with
        slot
        producer := if ask then .notifying else .idle
        published := s.published ++ [block] }
    else none
  | .trySend =>
    if s.producer = .notifying then
      if s.channel.length < capacity then
        some { s with channel := s.channel ++ [.nativeAudio], producer := .idle }
      else some { s with producer := .rejected }
    else none
  | .reject =>
    if s.producer = .rejected then
      some { s with slot := s.slot.notificationRejected, producer := .idle }
    else none
  | .other =>
    if s.channel.length < capacity then some { s with channel := s.channel ++ [.other] } else none
  | .receive =>
    if s.consumer = .idle then
      match s.channel with
      | [] => none
      | .nativeAudio :: channel => some { s with channel, consumer := .received }
      | .other :: channel => some { s with channel }
    else none
  | .check =>
    if s.consumer = .received then
      -- `continue`, without a look at the slot
      some { s with consumer := if s.audioAllowed then .taking else .idle }
    else none
  | .take now =>
    if s.consumer = .taking then
      let (block, slot) := s.slot.takeFresh now
      some { s with slot, consumer := .idle, sent := s.sent ++ block.toList }
    else none
  | .allow audio => some { s with audioAllowed := audio }

abbrev run : State → List Action → Option State := Machine.run step

/-! ### Notifications in flight -/

/-- The notifications that the recorder is about to send. -/
def Producer.held : Producer → ℕ
  | .idle => 0
  | .notifying | .rejected => 1

/-- The notifications that the sender holds. -/
def Consumer.held : Consumer → ℕ
  | .idle => 0
  | .received | .taking => 1

def inFlight (s : State) : ℕ :=
  s.producer.held + s.channel.count .nativeAudio + s.consumer.held

/-- The sender does not drop the notification it is about to look at. -/
def Heeded (s : State) (a : Action) : Prop :=
  a = .check → s.consumer = .received → s.audioAllowed = true

instance (s : State) (a : Action) : Decidable (Heeded s a) :=
  inferInstanceAs (Decidable (_ → _))

/-- A pending notification is in flight, and it announces the newest block. -/
structure Inv (s : State) : Prop where
  count : inFlight s = if s.slot.pending then 1 else 0
  newest : s.slot.pending → s.slot.block = s.published.getLast? ∧ s.slot.block.isSome

theorem inv_start (audioAllowed : Bool) : Inv (start audioAllowed) :=
  ⟨rfl, nofun⟩

variable {s s' : State}

theorem Inv.one (h : Inv s) (hpos : 0 < inFlight s) :
    s.slot.pending = true ∧ inFlight s = 1 := by
  have hcount := h.count
  split at hcount
  next hp => exact ⟨hp, hcount⟩
  · omega

theorem Inv.idle (h : Inv s) (hzero : inFlight s = 0) : s.slot.pending = false := by
  have hcount := h.count
  by_contra hp
  simp [hp, hzero] at hcount

theorem inv_step {a : Action} (h : Inv s) (hC : Heeded s a)
    (hs : step s a = some s') : Inv s' := by
  have hcount := h.count
  cases a with
  | publish block =>
    simp only [step] at hs
    split at hs
    next hidle =>
      cases hs
      -- a block is announced only if none is pending
      rcases hp : s.slot.pending with - | -
      · refine ⟨?_, fun _ => by simp [LatestAudio.publish, hp]⟩
        simp [inFlight, Producer.held, hp, hidle] at hcount
        simp [inFlight, Producer.held, LatestAudio.publish, hp, hcount]
      · refine ⟨?_, fun _ => by simp [LatestAudio.publish, hp]⟩
        simpa [inFlight, LatestAudio.publish, hp, hidle] using hcount
    · cases hs
  | trySend =>
    simp only [step] at hs
    split at hs
    next hnotifying =>
      split at hs
      · cases hs
        refine ⟨?_, h.newest⟩
        rw [← hcount]
        simp [inFlight, hnotifying, Producer.held]
        omega
      · cases hs
        refine ⟨?_, h.newest⟩
        simpa [inFlight, hnotifying, Producer.held] using hcount
    · cases hs
  | reject =>
    simp only [step] at hs
    split at hs
    next hrejected =>
      cases hs
      -- the one notification was in the producer's hands, so none is left
      have hone := (h.one (by simp only [inFlight, hrejected, Producer.held]; omega)).2
      refine ⟨?_, nofun⟩
      simp only [inFlight, hrejected, Producer.held] at hone
      simp only [inFlight, LatestAudio.notificationRejected, Producer.held, Bool.false_eq_true,
        if_false]
      omega
    · cases hs
  | other =>
    simp only [step] at hs
    split at hs
    · cases hs
      refine ⟨?_, h.newest⟩
      simpa [inFlight] using hcount
    · cases hs
  | receive =>
    simp only [step] at hs
    split at hs
    next hidle =>
      split at hs
      · cases hs
      next channel hchannel =>
        cases hs
        refine ⟨?_, h.newest⟩
        rw [← hcount]
        simp [inFlight, hchannel, hidle, Consumer.held]
        omega
      next channel hchannel =>
        cases hs
        refine ⟨?_, h.newest⟩
        simpa [inFlight, hchannel, hidle] using hcount
    · cases hs
  | check =>
    simp only [step] at hs
    split at hs
    next hreceived =>
      cases hs
      refine ⟨?_, h.newest⟩
      simpa [inFlight, hreceived, hC rfl hreceived, Consumer.held] using hcount
    · cases hs
  | take now =>
    simp only [step] at hs
    split at hs
    next htaking =>
      cases hs
      -- the one notification was in the consumer's hands
      have hone := (h.one (by simp [inFlight, htaking, Consumer.held])).2
      refine ⟨?_, nofun⟩
      simp only [inFlight, htaking, Consumer.held] at hone
      simp only [inFlight, LatestAudio.takeFresh, Consumer.held, Bool.false_eq_true, if_false]
      omega
    · cases hs
  | allow audio =>
    cases hs
    exact ⟨hcount, h.newest⟩

theorem inv_run {audioAllowed : Bool} {as : List Action}
    (hC : Machine.Along step Heeded (start audioAllowed) as)
    (h : run (start audioAllowed) as = some s) : Inv s :=
  Machine.run_inv_along inv_step (inv_start audioAllowed) hC h

/-! ### A notification that is dropped -/

/-- Pending, and nobody holds the notification. -/
structure Stalled (s : State) : Prop where
  pending : s.slot.pending = true
  inFlight : inFlight s = 0

theorem stalled_check (h : Inv s) (hdrop : ¬ Heeded s .check)
    (hs : step s .check = some s') : Stalled s' := by
  obtain ⟨hreceived, hforbidden⟩ : s.consumer = .received ∧ s.audioAllowed = false := by
    simpa [Heeded] using hdrop
  obtain ⟨hp, hone⟩ := h.one (by simp [AudioHandOff.inFlight, hreceived, Consumer.held])
  simp only [step, if_pos hreceived, hforbidden] at hs
  cases hs
  refine ⟨hp, ?_⟩
  simp only [AudioHandOff.inFlight, hreceived, Consumer.held] at hone ⊢
  simp
  omega

theorem idle_of_inFlight (hzero : inFlight s = 0) :
    s.producer = .idle ∧ s.consumer = .idle ∧ s.channel.count .nativeAudio = 0 := by
  have hchannel : s.channel.count .nativeAudio = 0 := by
    simp only [AudioHandOff.inFlight] at hzero
    omega
  refine ⟨?_, ?_, hchannel⟩
  · cases hpc : s.producer with
    | idle => rfl
    | _ => simp [AudioHandOff.inFlight, hpc, Producer.held] at hzero
  · cases hpc : s.consumer with
    | idle => rfl
    | _ => simp [AudioHandOff.inFlight, hpc, Consumer.held] at hzero

/-- Nothing gets a stalled hand-off going again, and nothing is sent any more. -/
theorem stalled_step {a : Action} (h : Stalled s) (hs : step s a = some s') :
    Stalled s' ∧ s'.sent = s.sent := by
  obtain ⟨hp, hzero⟩ := h
  obtain ⟨hproducer, hconsumer, hchannel⟩ := idle_of_inFlight hzero
  cases a with
  | publish block =>
    simp only [step, if_pos hproducer] at hs
    cases hs
    refine ⟨⟨by simp [LatestAudio.publish, hp], ?_⟩, rfl⟩
    simpa [AudioHandOff.inFlight, LatestAudio.publish, hp, hproducer] using hzero
  | trySend => simp [step, hproducer] at hs
  | reject => simp [step, hproducer] at hs
  | other =>
    simp only [step] at hs
    split at hs
    · cases hs
      exact ⟨⟨hp, by simpa [AudioHandOff.inFlight] using hzero⟩, rfl⟩
    · cases hs
  | receive =>
    simp only [step, if_pos hconsumer] at hs
    split at hs
    · cases hs
    next channel hnative => simp [hnative] at hchannel
    next channel hother =>
      cases hs
      exact ⟨⟨hp, by simpa [AudioHandOff.inFlight, hother] using hzero⟩, rfl⟩
  | check => simp [step, hconsumer] at hs
  | take now => simp [step, hconsumer] at hs
  | allow audio =>
    cases hs
    exact ⟨⟨hp, hzero⟩, rfl⟩

theorem stalled_run {as : List Action} (h : Stalled s) (hs : run s as = some s') :
    Stalled s' ∧ s'.sent = s.sent := by
  refine Machine.run_inv (I := fun t => Stalled t ∧ t.sent = s.sent) ?_ ⟨h, rfl⟩ hs
  rintro t a t' ⟨ht, hsent⟩ hstep
  obtain ⟨ht', hsent'⟩ := stalled_step ht hstep
  exact ⟨ht', hsent'.trans hsent⟩

/-! ### The hand-off -/

/-- The steps from the publication of a block to its sending, when nobody else moves. -/
def hand (s : State) (block : AudioBlock) (now : ℕ) : List Action :=
  ([.publish block, .trySend] : List Action) ++ List.replicate s.channel.length Action.receive
    ++ ([.receive, .check, .take now] : List Action)

theorem run_receive (hidle : s.consumer = .idle) {before after : List Event}
    (hbefore : before.count .nativeAudio = 0) (hchannel : s.channel = before ++ after) :
    run s (List.replicate before.length .receive) = some { s with channel := after } := by
  induction before generalizing s with
  | nil =>
    rw [List.nil_append] at hchannel
    simp [run, ← hchannel]
  | cons e before ih =>
    cases e with
    | nativeAudio => simp at hbefore
    | other =>
      have hstep : step s .receive = some { s with channel := before ++ after } := by
        simp [step, hidle, hchannel]
      rw [List.length_cons, List.replicate_succ, run, Machine.run, hstep, Option.bind_some]
      exact ih hidle (by simpa using hbefore) rfl

/-- With audio allowed, nothing in flight and room in the channel, the next block is sent. -/
theorem run_hand (h : Inv s) (hzero : inFlight s = 0) (hallowed : s.audioAllowed = true)
    (hroom : s.channel.length < capacity) {block : AudioBlock} {now : ℕ}
    (hfresh : now - block.capturedAt ≤ LatestAudio.maxAge) :
    ∃ s', run s (hand s block now) = some s' ∧ s'.sent = s.sent ++ [block] := by
  obtain ⟨hproducer, hconsumer, hchannel⟩ := idle_of_inFlight hzero
  have hpending := h.idle hzero
  -- the notification is behind what was in the channel
  let t : State := { s with
    slot := ⟨some block, true⟩
    published := s.published ++ [block]
    channel := s.channel ++ [.nativeAudio]
    producer := .idle }
  have hsent : run s [.publish block, .trySend] = some t := by
    simp [t, run, Machine.run, step, hproducer, LatestAudio.publish, hpending, hroom]
  have hfront : run t (List.replicate s.channel.length .receive)
      = some { t with channel := [.nativeAudio] } := run_receive (s := t) hconsumer hchannel rfl
  have htaken : run { t with channel := [.nativeAudio] } [.receive, .check, .take now]
      = some { t with channel := [], slot := .new, consumer := .idle, sent := s.sent ++ [block] } := by
    have hblock := LatestAudio.takeFresh_of_le (l := ⟨some block, true⟩) rfl hfresh
    simp [t, run, Machine.run, step, hconsumer, hallowed, hblock]
    rfl
  exact ⟨_, Machine.run_append_eq_some.mpr ⟨_, Machine.run_append_eq_some.mpr ⟨_, hsent, hfront⟩,
    htaken⟩, rfl⟩

/-- **The hand-off goes on as long as the sender drops no notification.** -/
theorem hand_off {audioAllowed : Bool} {as : List Action} {s : State}
    (hC : Machine.Along step Heeded (start audioAllowed) as)
    (h : run (start audioAllowed) as = some s) :
    (inFlight s = 0 → ∀ block, (s.slot.publish block).1 = true) ∧
    (s.consumer = .taking → ∃ newest, s.published.getLast? = some newest ∧
      ∀ now s', now - newest.capturedAt ≤ LatestAudio.maxAge → step s (.take now) = some s' →
        s'.sent = s.sent ++ [newest]) ∧
    (inFlight s = 0 → s.audioAllowed = true → s.channel.length < capacity → ∀ block now,
      now - block.capturedAt ≤ LatestAudio.maxAge →
        ∃ s', run s (hand s block now) = some s' ∧ s'.sent = s.sent ++ [block]) ∧
    ∀ s', ¬ Heeded s .check → step s .check = some s' → ∀ bs t, run s' bs = some t →
      inFlight t = 0 ∧ (∀ block, (t.slot.publish block).1 = false) ∧ t.sent = s.sent := by
  have hinv := inv_run hC h
  refine ⟨fun hzero block => ?_, fun htaking => ?_, ?_, ?_⟩
  · have hpending := hinv.idle hzero
    simp [LatestAudio.publish, hpending]
  · have hpending := (hinv.one (by simp [inFlight, htaking, Consumer.held])).1
    obtain ⟨hnewest, hsome⟩ := hinv.newest hpending
    obtain ⟨newest, hblock⟩ := Option.isSome_iff_exists.mp hsome
    refine ⟨newest, hnewest ▸ hblock, fun now s' hfresh hs => ?_⟩
    simp only [step, if_pos htaking, LatestAudio.takeFresh_of_le hblock hfresh] at hs
    cases hs
    rfl
  · intro hzero hallowed hroom block now hfresh
    exact run_hand hinv hzero hallowed hroom hfresh
  · intro s' hdrop hs bs t ht
    obtain ⟨⟨hp, hzero⟩, hsent⟩ := stalled_run (stalled_check hinv hdrop hs) ht
    refine ⟨hzero, fun block => by simp [LatestAudio.publish, hp], hsent.trans ?_⟩
    simp only [step] at hs
    split at hs <;> cases hs
    rfl

/-- The permission comes back before the sender looks at the notification. -/
theorem hand_off_toggled :
    ∃ s, run (start true) [.publish ⟨[1], 0⟩, .trySend, .allow false, .receive, .allow true, .check,
      .take 5] = some s ∧ (s.slot.publish ⟨[2], 7⟩).1 = true :=
  have hC : Machine.Along step Heeded (start true) [.publish ⟨[1], 0⟩, .trySend, .allow false,
      .receive, .allow true, .check, .take 5] := by decide
  ⟨_, rfl, (hand_off hC rfl).1 rfl _⟩

/-- The notification comes while audio is not allowed: nothing is in flight, and the next block is
not announced. -/
theorem hand_off_stalls :
    ∃ s, run (start true) [.publish ⟨[1], 0⟩, .trySend, .allow false, .receive, .check, .allow true]
      = some s ∧ inFlight s = 0 ∧ s.audioAllowed = true ∧ (s.slot.publish ⟨[2], 7⟩).1 = false :=
  ⟨_, rfl, rfl, rfl, rfl⟩

end AudioHandOff
end MahoRD.Host
